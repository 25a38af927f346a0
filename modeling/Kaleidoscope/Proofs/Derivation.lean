import Kaleidoscope.Grammar.Fuel
import Kaleidoscope.Proofs.History
import Kaleidoscope.Proofs.Precedence
import Kaleidoscope.Proofs.Rows
import Kaleidoscope.Toplevel.Recorder
import Kaleidoscope.Toplevel.Run

set_option autoImplicit false

/- The grammar as a relation between rows of tokens and the trees they stand for. -/

namespace Kaleidoscope

namespace Grammar

/-- The syntactic classes of expressions. -/
inductive Level where
  | primary
  | operand
  | expression

mutual

/-- The row of tokens is one of the class, and the tree is what it stands for. -/
inductive Derives (operators : OperatorTable) : Level → List Token.Kind → Expr → Prop where
  | number (value : Number) : Derives operators .primary [.number value] (.number value)
  | reference (name : String) : Derives operators .primary [.identifier name] (.reference name)
  | call (name : String) {row : List Token.Kind} {given : List Expr}
      (arguments : DerivesArguments operators row given) :
      Derives operators .primary (.identifier name :: .symbol '(' :: row ++ [.symbol ')'])
        (.call name given)
  | parenthesized {row : List Token.Kind} {inner : Expr}
      (inside : Derives operators .expression row inner) :
      Derives operators .primary (.symbol '(' :: row ++ [.symbol ')']) inner
  | conditional {first second third : List Token.Kind} {condition consequent alternative : Expr}
      (tested : Derives operators .expression first condition)
      (chosen : Derives operators .expression second consequent)
      (otherwise : Derives operators .expression third alternative) :
      Derives operators .primary
        (.keyword .ifWord :: first ++ .keyword .thenWord :: second ++ .keyword .elseWord :: third)
        (.conditional condition consequent alternative)
  | loop (counter : String) {first second third fourth : List Token.Kind} {start stop body : Expr}
      {step : Option Expr} (begins : Derives operators .expression first start)
      (ends : Derives operators .expression second stop)
      (steps : DerivesOptional operators ',' third step)
      (repeated : Derives operators .expression fourth body) :
      Derives operators .primary
        (.keyword .forWord :: .identifier counter :: .symbol '=' :: first ++
          .symbol ',' :: second ++ third ++ .keyword .inWord :: fourth)
        (.loop counter start stop step body)
  | scope {first second : List Token.Kind} {bindings : List (String × Option Expr)} {body : Expr}
      (bound : DerivesBindings operators first bindings)
      (inside : Derives operators .expression second body) :
      Derives operators .primary (.keyword .varWord :: first ++ .keyword .inWord :: second)
        (.scope bindings body)
  | plain {row : List Token.Kind} {tree : Expr} (only : Derives operators .primary row tree) :
      Derives operators .operand row tree
  | prefixed {symbol : Char} {row : List Token.Kind} {inner : Expr} (closed : symbol ≠ '(')
      (single : symbol ≠ ',') (inside : Derives operators .operand row inner) :
      Derives operators .operand (.symbol symbol :: row) (.unary symbol inner)
  | single {row : List Token.Kind} {tree : Expr} (only : Derives operators .operand row tree) :
      Derives operators .expression row tree
  | binary {symbol : Char} {first second : List Token.Kind} {left right : Expr}
      (before : Derives operators .expression first left)
      (operator : 0 < operators.precedence symbol)
      (behind : Derives operators .expression second right) :
      Derives operators .expression (first ++ .symbol symbol :: second)
        (.binary symbol left right)

/-- Expressions with a comma between any two of them. -/
inductive DerivesArguments (operators : OperatorTable) : List Token.Kind → List Expr → Prop where
  | none : DerivesArguments operators [] []
  | last {row : List Token.Kind} {tree : Expr} (only : Derives operators .expression row tree) :
      DerivesArguments operators row [tree]
  | more {first second : List Token.Kind} {tree : Expr} {others : List Expr}
      (head : Derives operators .expression first tree) (further : others ≠ [])
      (rest : DerivesArguments operators second others) :
      DerivesArguments operators (first ++ .symbol ',' :: second) (tree :: others)

/-- An expression behind the character that announces it, or nothing. -/
inductive DerivesOptional (operators : OperatorTable) :
    Char → List Token.Kind → Option Expr → Prop where
  | none (mark : Char) : DerivesOptional operators mark [] none
  | some (mark : Char) {row : List Token.Kind} {tree : Expr}
      (announced : Derives operators .expression row tree) :
      DerivesOptional operators mark (.symbol mark :: row) (some tree)

/-- One binding or more, with a comma between any two of them. -/
inductive DerivesBindings (operators : OperatorTable) :
    List Token.Kind → List (String × Option Expr) → Prop where
  | last (name : String) {row : List Token.Kind} {initial : Option Expr}
      (value : DerivesOptional operators '=' row initial) :
      DerivesBindings operators (.identifier name :: row) [(name, initial)]
  | more (name : String) {first second : List Token.Kind} {initial : Option Expr}
      {others : List (String × Option Expr)} (value : DerivesOptional operators '=' first initial)
      (rest : DerivesBindings operators second others) :
      DerivesBindings operators (.identifier name :: first ++ .symbol ',' :: second)
        ((name, initial) :: others)

end

/-- The row of tokens of a prototype. -/
inductive DerivesPrototype : List Token.Kind → Prototype → Prop where
  | function (name : String) {parameters : List String} (distinct : parameters.Nodup) :
      DerivesPrototype
        (.identifier name :: .symbol '(' :: parameters.map .identifier ++ [.symbol ')'])
        (.function name parameters)
  | unary (symbol : Char) (parameter : String) :
      DerivesPrototype
        [.keyword .unaryWord, .symbol symbol, .symbol '(', .identifier parameter, .symbol ')']
        (.unary symbol [parameter])
  | binary (symbol : Char) {left right : String} (distinct : left ≠ right) :
      DerivesPrototype
        [.keyword .binaryWord, .symbol symbol, .symbol '(', .identifier left, .identifier right,
          .symbol ')']
        (.binary symbol [left, right] defaultPrecedence)
  | weighted (symbol : Char) {left right : String} {value : Number}
      (declarable : isDeclarable value = true) (distinct : left ≠ right) :
      DerivesPrototype
        [.keyword .binaryWord, .symbol symbol, .number value, .symbol '(', .identifier left,
          .identifier right, .symbol ')']
        (.binary symbol [left, right] (UInt32.ofNat value.wholePart))

/-- The row of tokens of a form. -/
inductive DerivesForm (operators : OperatorTable) : List Token.Kind → Form → Prop where
  | definition {first second : List Token.Kind} {prototype : Prototype} {body : Expr}
      (named : DerivesPrototype first prototype)
      (inside : Derives operators .expression second body) :
      DerivesForm operators (.keyword .defWord :: first ++ second) (.definition ⟨prototype, body⟩)
  | declaration {row : List Token.Kind} {prototype : Prototype}
      (named : DerivesPrototype row prototype) :
      DerivesForm operators (.keyword .externWord :: row) (.declaration prototype)
  | expression {row : List Token.Kind} {body : Expr}
      (only : Derives operators .expression row body) :
      DerivesForm operators row (.expression (.ofExpression body))

open BoundedParser hiding pure bind

/-- How the row of tokens that a production takes stands to what it gives. What an expression or a
construct starts with may have been taken before. -/
def Rule.Takes (operators : OperatorTable) :
    {α : Type} → Rule α → List Token.Kind → α → Prop
  | _, .expression => Derives operators .expression
  | _, .operations minimum left => fun row tree => ∀ before, 0 ≤ minimum →
      Derives operators .expression before left → Derives operators .expression (before ++ row) tree
  | _, .tighter precedence right => fun row tree => ∀ before, 0 ≤ precedence →
      Derives operators .expression before right →
        Derives operators .expression (before ++ row) tree
  | _, .operand => Derives operators .operand
  | _, .prefixed => Derives operators .operand
  | _, .primary => Derives operators .primary
  | _, .parenthesized => fun row => Derives operators .primary (.symbol '(' :: row)
  | _, .named name => fun row => Derives operators .primary (.identifier name :: row)
  | _, .arguments => fun row given => ∃ front, row = front ++ [.symbol ')'] ∧ given ≠ [] ∧
      DerivesArguments operators front given
  | _, .conditional => fun row => Derives operators .primary (.keyword .ifWord :: row)
  | _, .loop => fun row => Derives operators .primary (.keyword .forWord :: row)
  | _, .scope => fun row => Derives operators .primary (.keyword .varWord :: row)
  | _, .bindings _ => DerivesBindings operators

/-- What each production takes is a derivation of what it gives. -/
def Sound (fuel : Nat) : Prop :=
  ∀ {α : Type} (rule : Rule α) (session : Session),
    BoundedParser.Yields (read fuel rule) session (rule.Takes session.operators)

variable {fuel : Nat}

theorem expression_sound (ih : Sound fuel) (session : Session) :
    BoundedParser.Yields (read (fuel + 1) .expression) session
      (Derives session.operators .expression) := by
  apply (ih .operand session).bind
  intro row left middle _ same derived
  have level := Session.operators_of_prepend same
  apply (ih (.operations 0 left) middle).mono
  intro rest tree takes
  rw [← level] at derived ⊢
  exact takes (row.map Token.kind) (by decide) (.single derived)

/-- One turn: an operator, its right operand and all that binds tighter. -/
theorem turn_sound (ih : Sound fuel) (session : Session) (minimum : Int32) (left : Expr)
    (symbol : Char) (passes : ¬ session.operators.precedence symbol < minimum) :
    BoundedParser.Yields (do
      let first ← read fuel .operand
      let right ← read fuel (.tighter (session.operators.precedence symbol) first)
      read fuel (.operations minimum (.binary symbol left right))) session.advance fun row =>
        (Rule.operations minimum left).Takes session.operators (.symbol symbol :: row) := by
  apply (ih .operand session.advance).bind
  intro first operand middle _ same derivesOperand
  have level : middle.operators = session.advance.operators := Session.operators_of_prepend same
  rw [Session.advance_operators] at level derivesOperand
  apply (ih (.tighter _ operand) middle).bind
  intro second right final _ same takesRight
  have further : final.operators = session.operators :=
    (Session.operators_of_prepend same).trans level
  apply (ih (.operations minimum (.binary symbol left right)) final).mono
  intro rest tree takes before natural derived
  rw [level] at takesRight
  rw [further] at takes
  have positive := OperatorTable.precedence_pos natural passes
  have derivesRight := takesRight (first.map Token.kind) (Int32.le_of_lt positive)
    (.single derivesOperand)
  have whole := takes _ natural (.binary derived positive derivesRight)
  simpa only [List.append_assoc, List.cons_append] using whole

theorem operations_sound (ih : Sound fuel) (session : Session) (minimum : Int32) (left : Expr) :
    BoundedParser.Yields (read (fuel + 1) (.operations minimum left)) session
      ((Rule.operations minimum left).Takes session.operators) := by
  refine yields_behind rfl (fun kind inner given => ?_) ?_
  · cases kind with
    | symbol symbol =>
      by_cases low : session.operators.precedence symbol < minimum
      · simp [low] at given
      · simp only [low, ↓reduceIte, Option.some.injEq] at given
        rw [← given]
        exact turn_sound ih session minimum left symbol low
    | _ => cases given
  · refine yields_pure fun before _ derived => ?_
    rw [List.append_nil]
    exact derived

theorem tighter_sound (ih : Sound fuel) (session : Session) (precedence : Int32) (right : Expr) :
    BoundedParser.Yields (read (fuel + 1) (.tighter precedence right)) session
      ((Rule.tighter precedence right).Takes session.operators) := by
  intro outcome after run
  change (if precedence < session.currentPrecedence then
    read fuel (.operations (precedence + 1) right) else pure right : BoundedParser Expr) session =
      some (outcome, after) at run
  by_cases above : precedence < session.currentPrecedence
  · rw [if_pos above] at run
    have reached := ih (.operations (precedence + 1) right) session outcome after run
    apply reached.mono
    intro row tree takes before natural
    apply takes before
    have exact := toInt_succ_of_lt above
    rw [Int32.le_iff_toInt_le] at natural ⊢
    have zero : (0 : Int32).toInt = 0 := rfl
    omega
  · rw [if_neg above] at run
    refine yields_pure (fun before _ derived => ?_) outcome after run
    rw [List.append_nil]
    exact derived

theorem prefixed_sound (ih : Sound fuel) (session : Session) :
    BoundedParser.Yields (read (fuel + 1) .prefixed) session
      (Derives session.operators .operand) := by
  refine yields_behind rfl (fun kind inner given => ?_) ?_
  · cases kind with
    | symbol symbol =>
      by_cases plain : symbol = '(' ∨ symbol = ','
      · simp [plain] at given
      · simp only [plain, ↓reduceIte, Option.some.injEq] at given
        rw [← given]
        obtain ⟨closed, single⟩ := not_or.1 plain
        apply (ih .operand session.advance).bind
        intro row inner middle _ _ derived
        apply yields_pure
        rw [List.append_nil]
        exact .prefixed closed single derived
    | _ => cases given
  · exact (ih .primary session).mono fun _ _ => .plain

theorem primary_sound (ih : Sound fuel) (session : Session) :
    BoundedParser.Yields (read (fuel + 1) .primary) session
      (Derives session.operators .primary) := by
  refine yields_behind rfl (fun kind inner given => ?_) ?_
  · unfold begun at given
    split at given <;> try cases given
    · exact ih (.named _) session.advance
    · exact yields_pure (.number _)
    · exact ih .conditional session.advance
    · exact ih .loop session.advance
    · exact ih .scope session.advance
    · next opens =>
      split at given
      next same =>
        cases given
        subst same
        exact ih .parenthesized session.advance
      next => cases given
  · exact yields_lift (Parser.yields_noExpression session _)

theorem parenthesized_sound (ih : Sound fuel) (session : Session) :
    BoundedParser.Yields (read (fuel + 1) .parenthesized) session
      (Rule.parenthesized.Takes session.operators) := by
  apply (ih .expression session).bind
  intro row inner middle _ _ derived
  apply (yields_lift (Parser.yields_expect (by simp) (by simp) _ middle)).bind
  intro closing _ final _ _ closed
  apply yields_pure
  rw [closed, List.append_nil]
  exact .parenthesized derived

theorem named_sound (ih : Sound fuel) (session : Session) (name : String) :
    BoundedParser.Yields (read (fuel + 1) (.named name)) session
      ((Rule.named name).Takes session.operators) := by
  refine yields_behindMark (yields_behindMark ?_ ?_) ?_
  · exact yields_pure (.call name .none)
  · apply (ih .arguments session.advance).bind
    rintro row given middle _ _ ⟨front, spelled, -, derived⟩
    apply yields_pure
    rw [spelled, List.append_nil]
    exact .call name derived
  · exact yields_pure (.reference name)

theorem arguments_sound (ih : Sound fuel) (session : Session) :
    BoundedParser.Yields (read (fuel + 1) .arguments) session
      (Rule.arguments.Takes session.operators) := by
  apply (ih .expression session).bind
  intro row first middle _ same derived
  have level := Session.operators_of_prepend same
  refine yields_behindMark ?_ (yields_behindMark ?_ ?_)
  · apply yields_pure
    exact ⟨row.map Token.kind, rfl, by simp, .last derived⟩
  · apply (ih .arguments middle.advance).bind
    rintro rest others final _ _ ⟨front, spelled, further, derivesOthers⟩
    rw [Session.advance_operators, level] at derivesOthers
    apply yields_pure
    refine ⟨_, ?_, by simp, .more derived further derivesOthers⟩
    simp [spelled]
  · exact yields_lift (Parser.yields_unexpected _ middle _)

theorem conditional_sound (ih : Sound fuel) (session : Session) :
    BoundedParser.Yields (read (fuel + 1) .conditional) session
      (Rule.conditional.Takes session.operators) := by
  apply (ih .expression session).bind
  intro first condition second _ same tested
  have level := Session.operators_of_prepend same
  apply (yields_lift (Parser.yields_expect (by simp) (by simp) _ second)).bind
  intro word _ third _ same thenWord
  have level := (Session.operators_of_prepend same).trans level
  apply (ih .expression third).bind
  intro middle consequent fourth _ same chosen
  rw [level] at chosen
  have level := (Session.operators_of_prepend same).trans level
  apply (yields_lift (Parser.yields_expect (by simp) (by simp) _ fourth)).bind
  intro other _ fifth _ same elseWord
  have level := (Session.operators_of_prepend same).trans level
  apply (ih .expression fifth).bind
  intro last alternative final _ _ otherwise
  rw [level] at otherwise
  apply yields_pure
  have whole := Derives.conditional tested chosen otherwise
  simpa [Rule.Takes, thenWord, elseWord] using whole

theorem optional_sound (ih : Sound fuel) (session : Session) (mark : Char) :
    BoundedParser.Yields (optional (read fuel) mark) session
      (DerivesOptional session.operators mark) := by
  refine yields_behindMark ?_ (yields_pure (.none mark))
  apply (ih .expression session.advance).bind
  intro row value middle _ _ derived
  apply yields_pure
  rw [List.append_nil]
  exact .some mark derived

theorem loop_sound (ih : Sound fuel) (session : Session) :
    BoundedParser.Yields (read (fuel + 1) .loop) session
      (Rule.loop.Takes session.operators) := by
  apply (yields_lift (Parser.yields_expectName _ session)).bind
  intro name counter afterName _ same counterName
  have level := Session.operators_of_prepend same
  apply (yields_lift (Parser.yields_expect (by simp) (by simp) _ afterName)).bind
  intro sign _ afterSign _ same equalsSign
  have level := (Session.operators_of_prepend same).trans level
  apply (ih .expression afterSign).bind
  intro first start afterStart _ same begins
  rw [level] at begins
  have level := (Session.operators_of_prepend same).trans level
  apply (yields_lift (Parser.yields_expect (by simp) (by simp) _ afterStart)).bind
  intro separator _ afterComma _ same comma
  have level := (Session.operators_of_prepend same).trans level
  apply (ih .expression afterComma).bind
  intro second stop afterStop _ same ends
  rw [level] at ends
  have level := (Session.operators_of_prepend same).trans level
  apply (optional_sound ih afterStop ',').bind
  intro third step afterStep _ same steps
  rw [level] at steps
  have level := (Session.operators_of_prepend same).trans level
  apply (yields_lift (Parser.yields_expect (by simp) (by simp) _ afterStep)).bind
  intro word _ inside _ same inWord
  have level := (Session.operators_of_prepend same).trans level
  apply (ih .expression inside).bind
  intro fourth body final _ _ repeated
  rw [level] at repeated
  apply yields_pure
  have whole := Derives.loop counter begins ends steps repeated
  simpa [Rule.Takes, counterName, equalsSign, comma, inWord] using whole

theorem scope_sound (ih : Sound fuel) (session : Session) :
    BoundedParser.Yields (read (fuel + 1) .scope) session
      (Rule.scope.Takes session.operators) := by
  apply (ih (.bindings false) session).bind
  intro first bindings second _ same bound
  have level := Session.operators_of_prepend same
  apply (yields_lift (Parser.yields_expect (by simp) (by simp) _ second)).bind
  intro word _ third _ same inWord
  have level := (Session.operators_of_prepend same).trans level
  apply (ih .expression third).bind
  intro last body final _ _ inside
  rw [level] at inside
  apply yields_pure
  have whole := Derives.scope bound inside
  simpa [Rule.Takes, inWord] using whole

theorem bindings_sound (ih : Sound fuel) (session : Session) (later : Bool) :
    BoundedParser.Yields (read (fuel + 1) (.bindings later)) session
      (DerivesBindings session.operators) := by
  apply (yields_lift (Parser.yields_expectName _ session)).bind
  intro word name second _ same spelled
  have level := Session.operators_of_prepend same
  apply (optional_sound ih second '=').bind
  intro row initial middle _ same value
  rw [level] at value
  have level := (Session.operators_of_prepend same).trans level
  rw [spelled]
  refine yields_behindMark ?_ ?_
  · apply (ih (.bindings true) middle.advance).bind
    intro rest others final _ _ derived
    rw [Session.advance_operators, level] at derived
    apply yields_pure
    simpa using DerivesBindings.more name value derived
  · apply yields_pure
    simpa using DerivesBindings.last name value

theorem sound_succ (ih : Sound fuel) : Sound (fuel + 1) := by
  intro _ rule session
  cases rule with
  | expression => exact expression_sound ih session
  | operations minimum left => exact operations_sound ih session minimum left
  | tighter precedence right => exact tighter_sound ih session precedence right
  | operand =>
    refine yields_nested fun deeper level => ?_
    rw [← level]
    exact ih .prefixed deeper
  | prefixed => exact prefixed_sound ih session
  | primary => exact primary_sound ih session
  | parenthesized => exact parenthesized_sound ih session
  | named name => exact named_sound ih session name
  | arguments => exact arguments_sound ih session
  | conditional => exact conditional_sound ih session
  | loop => exact loop_sound ih session
  | scope => exact scope_sound ih session
  | bindings later => exact bindings_sound ih session later

theorem sound (fuel : Nat) : Sound fuel := by
  induction fuel with
  | zero =>
    intro _ rule session outcome after run
    cases run
  | succ fuel ih => exact sound_succ ih

/-- What a prototype starts with, and its row of tokens. -/
inductive DerivesHeading : List Token.Kind → Heading → Prop where
  | function (name : String) : DerivesHeading [.identifier name] (.function name)
  | unary (symbol : Char) : DerivesHeading [.keyword .unaryWord, .symbol symbol] (.unary symbol)
  | binary (symbol : Char) :
      DerivesHeading [.keyword .binaryWord, .symbol symbol] (.binary symbol defaultPrecedence)
  | weighted (symbol : Char) {value : Number} (declarable : isDeclarable value = true) :
      DerivesHeading [.keyword .binaryWord, .symbol symbol, .number value]
        (.binary symbol (UInt32.ofNat value.wholePart))

theorem operatorSymbol_yields (session : Session) :
    operatorSymbol.Yields session fun row symbol => row = [.symbol symbol] := by
  unfold Parser.Yields operatorSymbol
  cases kind : session.current.kind with
  | symbol symbol => exact Session.reaches_advance kind (by simp) rfl
  | endOfInput => exact Session.reaches_incomplete
  | _ => exact Session.reaches_failed _

theorem operatorPrecedence_yields (session : Session) (symbol : Char) :
    operatorPrecedence.Yields session fun row precedence =>
      DerivesHeading (.keyword .binaryWord :: .symbol symbol :: row)
        (.binary symbol precedence) := by
  unfold Parser.Yields operatorPrecedence
  cases kind : session.current.kind with
  | number value =>
    by_cases declarable : isDeclarable value
    · simp only [declarable, ↓reduceIte]
      exact Session.reaches_advance kind (by simp) (.weighted symbol declarable)
    · simp only [declarable, Bool.false_eq_true, ↓reduceIte]
      exact Session.reaches_failed _
  | _ => exact Session.reaches_parsed (.binary symbol)

theorem heading_yields (session : Session) : heading.Yields session DerivesHeading := by
  unfold Parser.Yields heading
  cases kind : session.current.kind with
  | identifier name => exact Session.reaches_advance kind (by simp) (.function name)
  | keyword word =>
    cases word with
    | unaryWord =>
      have continued : (do
          let symbol ← operatorSymbol
          pure (.unary symbol) : Parser Heading).Yields session.advance
          fun row => DerivesHeading (.keyword .unaryWord :: row) := by
        apply (operatorSymbol_yields session.advance).bind
        intro row symbol after _ spelled
        apply Parser.yields_pure
        rw [spelled]
        exact .unary symbol
      exact continued.behind kind (by simp) fun _ _ holds => holds
    | binaryWord =>
      have continued : (do
          let symbol ← operatorSymbol
          let precedence ← operatorPrecedence
          pure (.binary symbol precedence) : Parser Heading).Yields session.advance
          fun row => DerivesHeading (.keyword .binaryWord :: row) := by
        apply (operatorSymbol_yields session.advance).bind
        intro row symbol after _ spelled
        apply (operatorPrecedence_yields after symbol).bind
        intro rest precedence final _ weighted
        apply Parser.yields_pure
        rw [spelled, List.append_nil]
        exact weighted
      exact continued.behind kind (by simp) fun _ _ holds => holds
    | _ => exact Parser.yields_unexpected _ session _
  | _ => exact Parser.yields_unexpected _ session _

/-- The parameters that are read are added to those taken before, and all are different. -/
theorem parameters_yields (count : Nat) (taken : List String) (distinct : taken.Nodup)
    (session : Session) :
    (parameters count taken).Yields session fun row names =>
      ∃ added, names = taken ++ added ∧ row = added.map .identifier ∧ names.Nodup := by
  induction count generalizing taken session with
  | zero => exact Session.reaches_parsed ⟨[], by simp, rfl, distinct⟩
  | succ count ih =>
    unfold Parser.Yields parameters
    cases kind : session.current.kind with
    | identifier name =>
      by_cases repeated : name ∈ taken
      · simp only [repeated, ↓reduceIte]
        exact Session.reaches_failed _
      · simp only [repeated, ↓reduceIte]
        have longer : (taken ++ [name]).Nodup := by
          refine List.nodup_append.2 ⟨distinct, by simp, ?_⟩
          intro other inside last only same
          rw [same, List.mem_singleton.1 only] at inside
          exact repeated inside
        apply (ih (taken ++ [name]) longer session.advance).behind kind (by simp)
        rintro row names ⟨added, rfl, rfl, different⟩
        exact ⟨name :: added, by simp, rfl, different⟩
    | _ => exact Session.reaches_parsed ⟨[], by simp, rfl, distinct⟩

theorem finish_unary {symbol : Char} {position : Position} {parameters : List String}
    {prototype : Prototype}
    (finished : (Heading.unary symbol).finish position parameters = .parsed prototype) :
    ∃ parameter, parameters = [parameter] ∧ prototype = .unary symbol [parameter] := by
  simp only [Heading.finish] at finished
  split at finished
  next one =>
    obtain ⟨parameter, rfl⟩ := List.length_eq_one_iff.1 one
    exact ⟨parameter, rfl, (Outcome.parsed.inj finished).symm⟩
  next => cases finished

theorem finish_binary {symbol : Char} {precedence : UInt32} {position : Position}
    {parameters : List String} {prototype : Prototype}
    (finished : (Heading.binary symbol precedence).finish position parameters =
      .parsed prototype) :
    ∃ left right, parameters = [left, right] ∧
      prototype = .binary symbol [left, right] precedence := by
  simp only [Heading.finish] at finished
  split at finished
  next two =>
    rcases parameters with _ | ⟨left, _ | ⟨right, _ | ⟨third, rest⟩⟩⟩
    · simp at two
    · simp at two
    · exact ⟨left, right, rfl, (Outcome.parsed.inj finished).symm⟩
    · simp at two
  next => cases finished

/-- A heading with as many different parameters as it asks for is a prototype. -/
theorem derivesPrototype_of_finish {row : List Token.Kind} {heading : Heading}
    {parameters : List String} {position : Position} {prototype : Prototype}
    (derived : DerivesHeading row heading) (distinct : parameters.Nodup)
    (finished : heading.finish position parameters = .parsed prototype) :
    DerivesPrototype (row ++ .symbol '(' :: parameters.map .identifier ++ [.symbol ')'])
      prototype := by
  cases derived with
  | function name =>
    cases finished
    exact .function name distinct
  | unary symbol =>
    obtain ⟨parameter, rfl, rfl⟩ := finish_unary finished
    exact .unary symbol parameter
  | binary symbol =>
    obtain ⟨left, right, rfl, rfl⟩ := finish_binary finished
    exact .binary symbol (by simpa using distinct)
  | weighted symbol declarable =>
    obtain ⟨left, right, rfl, rfl⟩ := finish_binary finished
    exact .weighted symbol declarable (by simpa using distinct)

end Grammar

namespace Session

open Grammar

/-- What a production reads is a derivation of what it gives. -/
theorem read_yields {α : Type} (rule : Rule α) (session : Session) :
    (read rule).Yields session (rule.Takes session.operators) :=
  Grammar.sound _ rule session _ _ (read_of_enough rule session)

theorem expression_yields (session : Session) :
    expression.Yields session (Derives session.operators .expression) :=
  read_yields .expression session

theorem operand_yields (session : Session) :
    operand.Yields session (Derives session.operators .operand) :=
  read_yields .operand session

/-- Names up to the first token that is none, all different from each other and from those in
`taken`. -/
def parameters (taken : List String) : Parser (List String) :=
  fun inside => Grammar.parameters inside.remaining taken inside

/-- What a prototype starts with, and its parameters. -/
def signature : Parser (Grammar.Heading × List String) := do
  let heading ← Grammar.heading
  let _ ← expect (.symbol '(') "expected '(' in prototype"
  let names ← parameters []
  let _ ← expect (.symbol ')') "expected ')' in prototype"
  pure (heading, names)

/-- Holds the parameters of a signature against its heading. -/
def counted (position : Position) (found : Grammar.Heading × List String) : Parser Prototype :=
  fun after => (found.1.finish position found.2, after)

/-- A prototype is a signature whose parameters are counted when all of it is read. -/
theorem prototype_eq (session : Session) :
    session.prototype = (signature >>= counted session.position) session := by
  simp only [signature, Parser.bind_assoc]
  rfl

theorem signature_yields (session : Session) :
    signature.Yields session fun row found => found.2.Nodup ∧ ∃ first,
      DerivesHeading first found.1 ∧
        row = first ++ .symbol '(' :: found.2.map .identifier ++ [.symbol ')'] := by
  apply (heading_yields session).bind
  intro first heading second _ headed
  apply (Parser.yields_expect (by simp) (by simp) _ second).bind
  intro opening _ third _ opened
  have named : (parameters []).Yields third
      fun row names => row = names.map .identifier ∧ names.Nodup := by
    apply (parameters_yields third.remaining [] List.nodup_nil third).mono
    rintro row names ⟨added, rfl, rfl, different⟩
    exact ⟨rfl, different⟩
  apply named.bind
  rintro middle names fourth _ ⟨spelled, different⟩
  apply (Parser.yields_expect (by simp) (by simp) _ fourth).bind
  intro closing _ final _ closed
  apply Parser.yields_pure
  refine ⟨different, first.map Token.kind, headed, ?_⟩
  simp [opened, spelled, closed]

theorem prototype_yields (session : Session) : prototype.Yields session DerivesPrototype := by
  unfold Parser.Yields
  rw [prototype_eq]
  apply (signature_yields session).bind
  rintro row ⟨heading, names⟩ after _ ⟨different, first, headed, spelled⟩
  refine ⟨[], rfl, ?_⟩
  intro prototype finished
  rw [List.map_nil, List.append_nil, spelled]
  exact derivesPrototype_of_finish headed different finished

theorem definition_yields {session : Session}
    (word : session.current.kind = .keyword .defWord) :
    definition.Yields session fun row given =>
      DerivesForm session.operators row (.definition given) := by
  apply (Parser.yields_take word (by simp)).bind
  intro first _ second same spelled
  have level := operators_of_prepend same
  apply (prototype_yields second).bind
  intro middle prototype third same named
  have level := (operators_of_prepend same).trans level
  apply (expression_yields third).bind
  intro last body final _ inside
  rw [level] at inside
  apply Parser.yields_pure
  simpa [spelled] using DerivesForm.definition named inside

theorem declaration_yields {session : Session}
    (word : session.current.kind = .keyword .externWord) :
    declaration.Yields session fun row prototype =>
      DerivesForm session.operators row (.declaration prototype) := by
  apply (Parser.yields_take word (by simp)).bind
  intro first _ second _ spelled
  apply (prototype_yields second).mono
  intro row prototype named
  rw [spelled]
  exact .declaration named

theorem wrappedExpression_yields (session : Session) :
    wrappedExpression.Yields session fun row wrapped =>
      DerivesForm session.operators row (.expression wrapped) := by
  apply (expression_yields session).bind
  intro row body after _ only
  apply Parser.yields_pure
  rw [List.append_nil]
  exact .expression only

/-- A form is read from a derivation of it, and reading changes nothing but the tokens ahead. -/
theorem form_yields (session : Session) :
    form.Yields session (DerivesForm session.operators) := by
  have wrap {α : Type} {reader : Parser α} {make : α → Form}
      (yields : reader.Yields session fun row value =>
        DerivesForm session.operators row (make value)) :
      (do return make (← reader) : Parser Form).Yields session
        (DerivesForm session.operators) := by
    apply yields.bind
    intro row value after _ derived
    apply Parser.yields_pure
    rw [List.append_nil]
    exact derived
  unfold Parser.Yields form
  split
  next word => exact wrap (definition_yields word)
  next word => exact wrap (declaration_yields word)
  next => exact wrap (wrappedExpression_yields session)

/-- All tokens ahead, and the end behind them, are those of the row and those of the session
behind it. -/
theorem toList_prepend (session : Session) (row : List Token) :
    (session.prepend row).tokens.toList = row ++ session.tokens.toList := by
  simp [TokenStream.toList, prepend]

theorem head_toList (session : Session) :
    session.tokens.toList.head? = some session.current := by
  rcases session with ⟨⟨_ | ⟨token, ahead⟩, ending, failure⟩, operators, depth, limit⟩ <;> rfl

end Session

namespace Toplevel

variable {β : Type} [Backend β]

/-- A form that was handed over was read, and the tokens ahead are those behind it. -/
theorem form_of_submit {top : Toplevel β} {session : Session} {submitted form : Form}
    {after : Toplevel β}
    (handed : top.submit session submitted = (.accepted form, after) ∨
      ∃ failure, top.submit session submitted = (.rejected form failure, after)) :
    submitted = form ∧ after.session.tokens = session.tokens := by
  unfold submit at handed
  split at handed
  · rcases handed with accepted | ⟨failure, rejected⟩
    · cases accepted
      exact ⟨rfl, rfl⟩
    · cases rejected
  · rcases handed with accepted | ⟨failure, rejected⟩
    · cases accepted
    · cases rejected
      exact ⟨rfl, rfl⟩

/-- The tokens that a step takes for a form are a derivation of it. -/
theorem row_of_step {top after : Toplevel β} {form : Form}
    (handed : top.step = (.accepted form, after) ∨
      ∃ failure, top.step = (.rejected form failure, after)) :
    ∃ row : List Token, top.session.tokens.toList = row ++ after.session.tokens.toList ∧
      Grammar.DerivesForm top.session.operators (row.map Token.kind) form := by
  have yields := Session.form_yields top.session
  have taken := top.dispatch
  generalize top.step = result at handed taken
  cases taken with
  | finished ended => simp at handed
  | separator seen => simp at handed
  | incomplete more plain run => simp [recover] at handed
  | failed more plain run => simp [recover] at handed
  | @submitted submitted session more plain run =>
    obtain ⟨rfl, same⟩ := form_of_submit handed
    unfold Parser.Yields at yields
    rw [run] at yields
    obtain ⟨row, behind, derived⟩ := yields
    refine ⟨row, ?_, derived submitted rfl⟩
    rw [same, ← Session.toList_prepend, ← behind]

/-- In every state and with every backend, a step that hands over a form, used or refused, has
taken a derivation of it under the operators in force, and what it has left starts with the current
token. -/
theorem step_takes_derivation (top after : Toplevel β) (form : Form)
    (handed : top.step = (.accepted form, after) ∨
      ∃ failure, top.step = (.rejected form failure, after)) :
    ∃ row : List Token,
      top.session.tokens.toList = row ++ after.session.tokens.toList ∧
      after.session.tokens.toList.head? = some after.session.current ∧
      Grammar.DerivesForm top.session.operators (row.map Token.kind) form := by
  obtain ⟨row, taken, derived⟩ := row_of_step handed
  exact ⟨row, taken, Session.head_toList after.session, derived⟩

theorem step_takes_derivation_of_refused :
    let place (kind : Token.Kind) : Token := ⟨kind, ⟨.nowhere, .nowhere⟩⟩
    let kinds : List Token.Kind := [.keyword .defWord, .identifier "f", .symbol '(',
      .identifier "x", .symbol ')', .symbol '-', .identifier "x", .symbol '+', .identifier "g",
      .symbol '(', .identifier "x", .symbol ')']
    let top : Toplevel Recorder :=
      .start (.start ⟨kinds.map place ++ [place (.symbol ';')], .nowhere, none⟩ .builtin)
        (.fresh true ["f"]) none
    let form : Form := .definition ⟨.function "f" ["x"],
      .binary '+' (.unary '-' (.reference "x")) (.call "g" [.reference "x"])⟩
    top.step.1 = .rejected form ⟨.backend "cannot link f", .nowhere⟩ ∧
      ∃ row : List Token,
        top.session.tokens.toList = row ++ top.step.2.session.tokens.toList ∧
        top.step.2.session.tokens.toList.head? = some top.step.2.session.current ∧
        Grammar.DerivesForm .builtin (row.map Token.kind) form := by
  intro place kinds top form
  have refused : top.step.1 = .rejected form ⟨.backend "cannot link f", .nowhere⟩ := by rfl
  exact ⟨refused, step_takes_derivation top top.step.2 form (.inr ⟨_, Prod.ext refused rfl⟩)⟩

end Toplevel

end Kaleidoscope
