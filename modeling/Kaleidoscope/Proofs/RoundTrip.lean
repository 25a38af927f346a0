import Kaleidoscope.Grammar.Form
import Kaleidoscope.Proofs.Nesting
import Kaleidoscope.Proofs.Precedence
import Kaleidoscope.Proofs.Rendering

set_option autoImplicit false

/- An expression ends before a token that is no operator and opens no call, so each part of a
rendering is read up to what follows it in the whole. -/

namespace Kaleidoscope

/-- Whether parentheses and the comma are no operators. -/
def OperatorTable.SparesPunctuation (table : OperatorTable) : Prop :=
  ¬ 0 < table.precedence '(' ∧ ¬ 0 < table.precedence ')' ∧ ¬ 0 < table.precedence ','

instance (table : OperatorTable) : Decidable table.SparesPunctuation :=
  inferInstanceAs (Decidable
    (¬ 0 < table.precedence '(' ∧ ¬ 0 < table.precedence ')' ∧ ¬ 0 < table.precedence ','))

/-- Whether an expression ends before a token of this kind. -/
def Token.Kind.Closes (table : OperatorTable) (kind : Token.Kind) : Prop :=
  kind ≠ .symbol '(' ∧ table.precedenceOf kind < 0

theorem Token.Kind.Closes.of_not_symbol {table : OperatorTable} {kind : Token.Kind}
    (plain : ∀ symbol, kind ≠ .symbol symbol) : kind.Closes table := by
  refine ⟨plain '(', ?_⟩
  cases kind with
  | symbol symbol => exact absurd rfl (plain symbol)
  | _ => exact show OperatorTable.noPrecedence < 0 by decide

namespace Session

open Kaleidoscope.Parser hiding pure bind

variable {after : Session} {row : List Token.Kind} {count : Nat} {e : Expr}

def Closes (session : Session) : Prop :=
  session.current.kind.Closes session.operators

theorem closes_of_kind {kind : Token.Kind} (seen : after.current.kind = kind)
    (closes : kind.Closes after.operators) : after.Closes := by
  rw [← seen] at closes
  exact closes

theorem closes_prepend {tokens : List Token} {kind : Token.Kind} {rest : List Token.Kind}
    (kinds : tokens.map Token.kind = kind :: rest) (closes : kind.Closes after.operators) :
    (after.prepend tokens).Closes := by
  obtain ⟨token, tokens, rfl, rfl, -⟩ := List.map_eq_cons_iff.1 kinds
  exact closes

theorem closes_parenthesis (spares : after.operators.SparesPunctuation) :
    (Token.Kind.symbol ')').Closes after.operators :=
  ⟨by simp, OperatorTable.precedence_neg spares.2.1⟩

theorem closes_comma (spares : after.operators.SparesPunctuation) :
    (Token.Kind.symbol ',').Closes after.operators :=
  ⟨by simp, OperatorTable.precedence_neg spares.2.2⟩

theorem closes_keyword (word : Keyword) : (Token.Kind.keyword word).Closes after.operators :=
  .of_not_symbol (by simp)

theorem sees_eq_false {symbol : Char} (differs : after.current.kind ≠ .symbol symbol) :
    after.sees symbol = false := by
  simp [sees, differs]

theorem Closes.sees_eq_false (closes : after.Closes) : after.sees '(' = false :=
  Session.sees_eq_false closes.1

/-- Nothing is added to an expression that ends. -/
theorem operations_of_closes (left : Expr) (closes : after.Closes) :
    operations 0 left after = (.parsed left, after) := by
  apply operations_of_stops
  intro symbol seen
  have low := closes.2
  rw [seen] at low
  exact low

theorem tighter_of_closes {precedence : Int32} (right : Expr) (positive : 0 < precedence)
    (closes : after.Closes) : tighter precedence right after = (.parsed right, after) := by
  have low : after.currentPrecedence < 0 := closes.2
  have below : ¬ precedence < after.currentPrecedence := by
    rw [Int32.lt_iff_toInt_lt] at positive low ⊢
    omega
  simp [tighter_eq, below]

theorem reads_expression (reads : operand.Reads row count e after) (closes : after.Closes) :
    expression.Reads row count e after := by
  rw [expression_eq]
  exact reads.bind_nil (operations_of_closes e closes)

/-- What goes on behind the token `kind` is an operand. -/
theorem reads_primary {kind : Token.Kind} {inner : Parser Expr}
    (begins : Grammar.begun read kind = some inner)
    (reads : inner.Reads row count e after.deeper) :
    operand.Reads (kind :: row) (count + 1) e after := by
  apply reads_operand
  apply reads.behind
  intro before _ seen
  rw [prefixed_of_primary, primary_of_some (by rw [seen]; exact begins)]
  intro symbol same
  rw [← seen, same] at begins
  left
  by_contra other
  simp [Grammar.begun, other] at begins

theorem reads_number (value : Number) :
    operand.Reads [.number value] 1 (.number value) after :=
  reads_primary rfl reads_pure

theorem reads_mark {α : Type} {mark : Char} {present absent : Parser α} {value : α}
    (reads : present.Reads row count value after) :
    (Grammar.behindMark mark present absent).Reads (.symbol mark :: row) count value after := by
  apply reads.behind
  intro before _ seen
  simp [sees, seen]

theorem reads_no_mark {α : Type} {mark : Char} {present absent : Parser α} {value : α}
    (differs : ∀ tokens : List Token, tokens.map Token.kind = row →
      (after.prepend tokens).sees mark = false) (reads : absent.Reads row count value after) :
    (Grammar.behindMark mark present absent).Reads row count value after := by
  apply reads.of_eq
  intro tokens kinds
  simp [differs tokens kinds]

theorem sees_eq_false_of_cons {mark : Char} {kind : Token.Kind} (differs : kind ≠ .symbol mark)
    (tokens : List Token) (kinds : tokens.map Token.kind = kind :: row) :
    (after.prepend tokens).sees mark = false := by
  obtain ⟨token, tokens, rfl, rfl, -⟩ := List.map_eq_cons_iff.1 kinds
  exact sees_eq_false differs

theorem reads_named {name : String}
    (reads : (read (.named name)).Reads row count e after.deeper) :
    operand.Reads (.identifier name :: row) (count + 1) e after :=
  reads_primary rfl reads

theorem reads_reference (name : String) (ends : after.sees '(' = false) :
    operand.Reads [.identifier name] 1 (.reference name) after := by
  apply reads_named
  rw [read_eq]
  apply reads_no_mark
  · intro tokens kinds
    rw [List.map_eq_nil_iff.1 kinds]
    exact ends
  · exact reads_pure

end Session

/-- The expression is read back from its rendering, wherever an expression ends behind it. -/
def Expr.ReadsBack (operators : OperatorTable) (e : Expr) : Prop :=
  ∀ after : Session, after.operators = operators → after.Closes →
    Session.expression.Reads e.written e.nesting e after

namespace Session

variable {after : Session} {e : Expr}

open Kaleidoscope.Parser hiding pure bind

theorem reads_parenthesized (spares : after.operators.SparesPunctuation)
    (back : e.ReadsBack after.operators) :
    operand.Reads (.symbol '(' :: (e.written ++ [.symbol ')'])) (e.nesting + 1) e after := by
  have inside : (read .parenthesized).Reads (e.written ++ [.symbol ')']) (max e.nesting 0) e
      after.deeper := by
    rw [read_eq]
    apply Reads.bind
    · intro tokens kinds
      exact back _ rfl (closes_prepend kinds (closes_parenthesis spares))
    · exact reads_expect _ (by simp) reads_pure
  rw [Nat.max_zero] at inside
  exact reads_primary rfl inside

/-- A part of an expression is read back as an operand. -/
theorem reads_enclosed (spares : after.operators.SparesPunctuation)
    (back : e.ReadsBack after.operators) (ends : after.sees '(' = false) :
    operand.Reads e.enclosed e.enclosedNesting e after := by
  cases e with
  | number value => exact reads_number value
  | reference name => exact reads_reference name ends
  | _ => exact reads_parenthesized spares back

/-- A part of an expression is read back as an expression of its own. -/
theorem reads_part (spares : after.operators.SparesPunctuation)
    (back : e.ReadsBack after.operators) (closes : after.Closes) :
    expression.Reads e.enclosed e.enclosedNesting e after :=
  reads_expression (reads_enclosed spares back closes.sees_eq_false) closes

/-- A part of an expression is read back before a token that ends it. -/
theorem reads_part_before {kind : Token.Kind} {rest : List Token.Kind}
    (spares : after.operators.SparesPunctuation) (back : e.ReadsBack after.operators)
    (closes : kind.Closes after.operators) (tokens : List Token)
    (kinds : tokens.map Token.kind = kind :: rest) :
    expression.Reads e.enclosed e.enclosedNesting e (after.prepend tokens) :=
  reads_part spares back (closes_prepend kinds closes)

theorem reads_unary {symbol : Char} (spares : after.operators.SparesPunctuation)
    (back : e.ReadsBack after.operators) (ends : after.sees '(' = false)
    (regular : symbol ≠ '(' ∧ symbol ≠ ',') :
    operand.Reads (.symbol symbol :: e.enclosed) (e.enclosedNesting + 1) (.unary symbol e)
      after := by
  apply reads_operand
  have inside : operand.Reads e.enclosed e.enclosedNesting e after.deeper :=
    reads_enclosed spares back ends
  have sequence : (do
      let inner ← operand
      pure (.unary symbol inner) : Parser Expr).Reads e.enclosed e.enclosedNesting
        (.unary symbol e) after.deeper := inside.bind_nil rfl
  apply sequence.behind
  intro before _ seen
  exact prefixed_of_sign seen regular.1 regular.2

theorem reads_binary {symbol : Char} {left right : Expr}
    (spares : after.operators.SparesPunctuation) (before : left.ReadsBack after.operators)
    (behind : right.ReadsBack after.operators) (closes : after.Closes)
    (positive : 0 < after.operators.precedence symbol) :
    expression.Reads (left.enclosed ++ .symbol symbol :: right.enclosed)
      (max left.enclosedNesting right.enclosedNesting) (.binary symbol left right) after := by
  have differs : symbol ≠ '(' := by
    rintro rfl
    exact spares.1 positive
  rw [expression_eq]
  apply Reads.bind
  · intro tokens kinds
    have follows : (after.prepend tokens).sees '(' = false := by
      obtain ⟨token, tokens, rfl, seen, -⟩ := List.map_eq_cons_iff.1 kinds
      exact Session.sees_eq_false (by simp [seen, differs])
    exact reads_enclosed spares before follows
  · have last : operand.Reads right.enclosed right.enclosedNesting right after :=
      reads_enclosed spares behind closes.sees_eq_false
    have sequence : (do
        let first ← operand
        let next ← tighter (after.operators.precedence symbol) first
        operations 0 (.binary symbol left next) : Parser Expr).Reads right.enclosed
          right.enclosedNesting (.binary symbol left right) after := by
      apply last.bind_nil
      change Parser.bind _ _ after = _
      simp [Parser.bind, tighter_of_closes right positive closes, operations_of_closes _ closes]
    apply sequence.behind
    intro place same seen
    have high : ¬ after.operators.precedence symbol < 0 := by
      rw [Int32.lt_iff_toInt_lt] at positive ⊢
      omega
    rw [← same] at high
    rw [operations_of_passes seen high, same]

/-- The arguments of a call are read back, and the closing parenthesis with them. -/
theorem reads_arguments {given : List Expr} (spares : after.operators.SparesPunctuation)
    (back : ∀ x ∈ given, x.ReadsBack after.operators) (present : given ≠ []) :
    (read .arguments).Reads (Expr.listed (Expr.writtenAll given) ++ [.symbol ')'])
      (Expr.nestingAll given) given after := by
  induction given with
  | nil => exact absurd rfl present
  | cons x given hypothesis =>
    have first : x.ReadsBack after.operators := back x (by simp)
    have others : ∀ x ∈ given, x.ReadsBack after.operators :=
      fun x inside => back x (List.mem_cons_of_mem _ inside)
    rw [read_eq]
    cases given with
    | nil =>
      change Parser.Reads _ (Expr.listed [x.enclosed] ++ _) (max x.enclosedNesting 0) _ _
      rw [Expr.listed_singleton]
      apply Reads.bind (reads_part_before spares first (closes_parenthesis spares))
      exact reads_mark reads_pure
    | cons y given =>
      have tail := hypothesis others (by simp)
      have shape : Expr.listed (Expr.writtenAll (x :: y :: given)) =
          x.enclosed ++ .symbol ',' :: Expr.listed (Expr.writtenAll (y :: given)) :=
        Expr.listed_cons_cons _ _ _
      rw [shape, List.append_assoc, List.cons_append]
      apply Reads.bind (reads_part_before spares first (closes_comma spares))
      apply reads_no_mark (sees_eq_false_of_cons (by simp))
      apply reads_mark
      exact tail.bind_nil rfl

/-- A call is read back. Arguments are told from none by their first token, which is no closing
parenthesis. -/
theorem reads_call {callee : String} {given : List Expr}
    (spares : after.operators.SparesPunctuation)
    (back : ∀ x ∈ given, x.ReadsBack after.operators) :
    operand.Reads (.identifier callee :: .symbol '(' ::
      (Expr.listed (Expr.writtenAll given) ++ [.symbol ')'])) (Expr.nestingAll given + 1)
      (.call callee given) after := by
  apply reads_named
  rw [read_eq]
  apply reads_mark
  cases given with
  | nil => exact reads_mark reads_pure
  | cons x given =>
    have tail : (read .arguments).Reads (Expr.listed (Expr.writtenAll (x :: given)) ++
        [.symbol ')']) (Expr.nestingAll (x :: given)) (x :: given) after.deeper :=
      reads_arguments spares back (by simp)
    obtain ⟨kind, row, start, differs⟩ := Expr.exists_arguments_eq_cons x given
    rw [start, List.cons_append] at tail ⊢
    apply reads_no_mark (sees_eq_false_of_cons differs)
    exact tail.bind_nil rfl

/-- A value that `mark` announces is read back, or that there is none. -/
theorem reads_optional {mark : Char} {value : Option Expr}
    (spares : after.operators.SparesPunctuation)
    (back : ∀ x ∈ value, x.ReadsBack after.operators) (closes : after.Closes)
    (ends : after.sees mark = false) :
    (Grammar.optional read mark).Reads (Expr.writtenOptional mark value)
      (Expr.nestingOptional value) value after := by
  cases value with
  | none =>
    apply reads_no_mark
    · intro tokens kinds
      rw [List.map_eq_nil_iff.1 kinds]
      exact ends
    · exact reads_pure
  | some x =>
    have inside : expression.Reads x.enclosed x.enclosedNesting x after :=
      reads_part spares (back x rfl) closes
    exact reads_mark (inside.bind_nil rfl)

theorem reads_optional_before {mark : Char} {value : Option Expr} {kind : Token.Kind}
    {rest : List Token.Kind} (spares : after.operators.SparesPunctuation)
    (back : ∀ x ∈ value, x.ReadsBack after.operators) (closes : kind.Closes after.operators)
    (differs : kind ≠ .symbol mark) (tokens : List Token)
    (kinds : tokens.map Token.kind = kind :: rest) :
    (Grammar.optional read mark).Reads (Expr.writtenOptional mark value)
      (Expr.nestingOptional value) value (after.prepend tokens) :=
  reads_optional spares back (closes_prepend kinds closes)
    (sees_eq_false_of_cons differs tokens kinds)

/-- The bindings of a scope are read back up to the word that ends them. -/
theorem reads_bindings {bound : List (String × Option Expr)} {later : Bool}
    (spares : after.operators.SparesPunctuation)
    (back : ∀ binding ∈ bound, ∀ x ∈ binding.2, x.ReadsBack after.operators) (present : bound ≠ [])
    (ends : after.current.kind = .keyword .inWord) :
    (read (.bindings later)).Reads (Expr.listed (Expr.writtenBindings bound))
      (Expr.nestingBindings bound) bound after := by
  induction bound generalizing later with
  | nil => exact absurd rfl present
  | cons binding bound hypothesis =>
    obtain ⟨name, initial⟩ := binding
    have first : ∀ x ∈ initial, x.ReadsBack after.operators := back (name, initial) (by simp)
    rw [read_eq]
    cases bound with
    | nil =>
      have closes : after.Closes := closes_of_kind ends (closes_keyword .inWord)
      have value : (Grammar.optional read '=').Reads (Expr.writtenOptional '=' initial)
          (max (Expr.nestingOptional initial) 0) initial after := by
        rw [Nat.max_zero]
        exact reads_optional spares first closes (by simp [sees, ends])
      have shape : Expr.listed (Expr.writtenBindings [(name, initial)]) =
          .identifier name :: Expr.writtenOptional '=' initial := Expr.listed_singleton _
      rw [shape]
      apply reads_expectName
      apply value.bind_nil
      simp only [Parser.behindMark_apply, sees, ends]
      rfl
    | cons next bound =>
      have others : ∀ binding ∈ next :: bound, ∀ x ∈ binding.2, x.ReadsBack after.operators :=
        fun binding inside => back binding (List.mem_cons_of_mem _ inside)
      have tail := @hypothesis true others (by simp)
      have shape : Expr.listed (Expr.writtenBindings ((name, initial) :: next :: bound)) =
          .identifier name :: (Expr.writtenOptional '=' initial ++
            .symbol ',' :: Expr.listed (Expr.writtenBindings (next :: bound))) :=
        Expr.listed_cons_cons _ _ _
      rw [shape]
      apply reads_expectName
      apply Reads.bind
        (reads_optional_before spares first (closes_comma spares) (by simp))
      apply reads_mark
      exact tail.bind_nil rfl

/-- What follows `if` is read back. -/
theorem reads_conditional {x y z : Expr} (spares : after.operators.SparesPunctuation)
    (condition : x.ReadsBack after.operators) (consequent : y.ReadsBack after.operators)
    (alternative : z.ReadsBack after.operators) (closes : after.Closes) :
    (read .conditional).Reads
      (x.enclosed ++ .keyword .thenWord :: (y.enclosed ++ .keyword .elseWord :: z.enclosed))
      (max x.enclosedNesting (max y.enclosedNesting z.enclosedNesting)) (.conditional x y z)
      after := by
  rw [read_eq]
  apply Reads.bind (reads_part_before spares condition (closes_keyword _))
  apply reads_expect _ (by simp)
  apply Reads.bind (reads_part_before spares consequent (closes_keyword _))
  apply reads_expect _ (by simp)
  exact (reads_part spares alternative closes).bind_nil rfl

/-- What follows `for` is read back, with a step or without one. -/
theorem reads_loop {counter : String} {start stop body : Expr} {step : Option Expr}
    (spares : after.operators.SparesPunctuation) (first : start.ReadsBack after.operators)
    (last : stop.ReadsBack after.operators) (stride : ∀ x ∈ step, x.ReadsBack after.operators)
    (inner : body.ReadsBack after.operators) (closes : after.Closes) :
    (read .loop).Reads (.identifier counter :: .symbol '=' :: (start.enclosed ++
      .symbol ',' :: (stop.enclosed ++ (Expr.writtenOptional ',' step ++
        .keyword .inWord :: body.enclosed))))
      (max start.enclosedNesting (max stop.enclosedNesting
        (max (Expr.nestingOptional step) body.enclosedNesting)))
      (.loop counter start stop step body) after := by
  rw [read_eq]
  apply reads_expectName
  apply reads_expect _ (by simp)
  apply Reads.bind (reads_part_before spares first (closes_comma spares))
  apply reads_expect _ (by simp)
  apply Reads.bind
  · -- The stop value ends before the comma of a step or before `in`.
    intro tokens kinds
    cases step with
    | none => exact reads_part_before spares last (closes_keyword _) tokens kinds
    | some x => exact reads_part_before spares last (closes_comma spares) tokens kinds
  apply Reads.bind (reads_optional_before spares stride (closes_keyword _) (by simp))
  apply reads_expect _ (by simp)
  exact (reads_part spares inner closes).bind_nil rfl

/-- What follows `var` is read back. -/
theorem reads_scope {bound : List (String × Option Expr)} {body : Expr}
    (spares : after.operators.SparesPunctuation)
    (back : ∀ binding ∈ bound, ∀ x ∈ binding.2, x.ReadsBack after.operators)
    (present : bound ≠ []) (inner : body.ReadsBack after.operators) (closes : after.Closes) :
    (read .scope).Reads
      (Expr.listed (Expr.writtenBindings bound) ++ .keyword .inWord :: body.enclosed)
      (max (Expr.nestingBindings bound) body.enclosedNesting) (.scope bound body) after := by
  rw [read_eq]
  apply Reads.bind
  · intro tokens kinds
    obtain ⟨token, tokens, rfl, ends, -⟩ := List.map_eq_cons_iff.1 kinds
    exact reads_bindings spares back present ends
  apply reads_expect _ (by simp)
  exact (reads_part spares inner closes).bind_nil rfl

end Session

namespace Expr

open Session

variable {operators : OperatorTable} {operator : Char → Prop}

/-- Every expression that can be written is read back from its rendering. -/
theorem readsBack (spares : operators.SparesPunctuation)
    (binds : ∀ symbol, operator symbol → 0 < operators.precedence symbol) (e : Expr)
    (writable : e.Writable operator) : e.ReadsBack operators := by
  induction e using parts_induction with
  | number value =>
    rintro after - closes
    exact reads_expression (reads_number value) closes
  | reference name =>
    rintro after - closes
    exact reads_expression (reads_reference name closes.sees_eq_false) closes
  | unary symbol x hypothesis =>
    rintro after rfl closes
    exact reads_expression
      (reads_unary spares (hypothesis writable.2) closes.sees_eq_false writable.1.2) closes
  | binary symbol x y left right =>
    rintro after rfl closes
    exact reads_binary spares (left writable.2.1) (right writable.2.2) closes
      (binds symbol writable.1)
  | call callee given hypothesis =>
    rintro after rfl closes
    have parts : ∀ x ∈ given, x.ReadsBack after.operators := fun x inside =>
      hypothesis x inside (writable_of_mem writable.2 x inside)
    exact reads_expression (reads_call spares parts) closes
  | conditional x y z condition consequent alternative =>
    rintro after rfl closes
    have shape : (conditional x y z).written = .keyword .ifWord :: (x.enclosed ++
        .keyword .thenWord :: (y.enclosed ++ .keyword .elseWord :: z.enclosed)) := by
      simp [written, enclosed]
    rw [shape]
    apply reads_expression _ closes
    refine reads_primary rfl ?_
    exact reads_conditional spares (condition writable.1) (consequent writable.2.1)
      (alternative writable.2.2) closes
  | loop counter start stop step body first last stride inner =>
    rintro after rfl closes
    have parts : ∀ x ∈ step, x.ReadsBack after.operators := fun x inside =>
      stride x inside (writable_of_mem_optional writable.2.2.2.1 x inside)
    have shape : (loop counter start stop step body).written = .keyword .forWord ::
        .identifier counter :: .symbol '=' :: (start.enclosed ++ .symbol ',' :: (stop.enclosed ++
          (writtenOptional ',' step ++ .keyword .inWord :: body.enclosed))) := by
      simp [written, enclosed]
    rw [shape]
    apply reads_expression _ closes
    refine reads_primary rfl ?_
    exact reads_loop spares (first writable.2.1) (last writable.2.2.1) parts
      (inner writable.2.2.2.2) closes
  | scope bound body hypothesis inner =>
    rintro after rfl closes
    have parts : ∀ binding ∈ bound, ∀ x ∈ binding.2, x.ReadsBack after.operators :=
      fun binding inside x part =>
        hypothesis binding inside x part
          (writable_of_mem_bindings writable.2.1 binding inside x part)
    have shape : (scope bound body).written = .keyword .varWord ::
        (listed (writtenBindings bound) ++ .keyword .inWord :: body.enclosed) := by
      simp [written, enclosed]
    rw [shape]
    apply reads_expression _ closes
    refine reads_primary rfl ?_
    exact reads_scope spares parts writable.1 (inner writable.2.2) closes

end Expr

namespace Session

/-- An expression written out in tokens is read back, with or without parentheses around it. -/
theorem reads_enclose {operator : Char → Prop} {after : Session} {e : Expr} (outer : Bool)
    (spares : after.operators.SparesPunctuation)
    (binds : ∀ symbol, operator symbol → 0 < after.operators.precedence symbol)
    (writable : e.Writable operator) (closes : after.Closes) :
    expression.Reads (Expr.enclose outer e.written) (e.nesting + outer.toNat) e after := by
  have back : e.ReadsBack after.operators := e.readsBack spares binds writable
  cases outer with
  | false => exact back after rfl closes
  | true => exact reads_expression (reads_parenthesized spares back) closes

theorem admits_start (tokens : TokenStream) (operators : OperatorTable) (count : Nat) :
    (start tokens operators).Admits count ↔ count ≤ nestingLimit := by
  simp [Admits, start]

/-- A text that spells an expression out, with every compound part in parentheses and a space
between two tokens, is read back as that expression and used up, as long as no more operands are
open at a time than the limit allows. Otherwise the reading fails for that reason. -/
theorem wrappedExpression_of_rendering {operators : OperatorTable} {e : Expr}
    {words : List (List Char)} (outer : Bool) (source : Option String)
    (spares : operators.SparesPunctuation)
    (writable : e.Writable fun symbol =>
      0 < operators.precedence symbol ∧ Text.isSymbol symbol = true)
    (spelled : List.Forall₂ Token.Kind.Spells words (Expr.enclose outer e.written)) :
    (e.nesting + outer.toNat ≤ nestingLimit → ∃ after,
      wrappedExpression (.start (.ofLexer (.ofInput (.ofText (Text.spaced words) none) source))
        operators) = (.parsed (.ofExpression e), after) ∧ after.current.kind = .endOfInput) ∧
    (nestingLimit < e.nesting + outer.toNat → ∃ position after,
      wrappedExpression (.start (.ofLexer (.ofInput (.ofText (Text.spaced words) none) source))
        operators) = (.failed ⟨.tooDeep nestingLimit, position⟩, after)) := by
  have lexable : Token.Kind.AllLexable (Expr.enclose outer e.written) :=
    Expr.allLexable_enclose outer (e.allLexable_written (fun _ holds => holds.2) writable)
  have kinds := TokenStream.kinds_ofLexer_spaced spelled (e.enclose_written_ne_nil outer) lexable
    source
  generalize TokenStream.ofLexer (.ofInput (.ofText (Text.spaced words) none) source) = stream
    at kinds ⊢
  let after : Session := .start ⟨[], stream.ending, stream.failure⟩ operators
  have begins : Session.start stream operators = after.prepend stream.ahead := by
    simp [after, start, prepend]
  have ended : after.current.kind = .endOfInput := rfl
  have closes : after.Closes := closes_of_kind ended (.of_not_symbol (by simp))
  have inside : expression.Reads (Expr.enclose outer e.written) (e.nesting + outer.toNat) e after :=
    reads_enclose outer spares (fun _ holds => holds.1) writable closes
  have whole : wrappedExpression.Reads (Expr.enclose outer e.written) (e.nesting + outer.toNat)
      (.ofExpression e) after := inside.bind_nil rfl
  obtain ⟨success, refusal⟩ := whole stream.ahead kinds
  rw [admits_start] at success
  rw [admits_start, admits_start] at refusal
  rw [begins]
  constructor
  · intro shallow
    exact ⟨after, success shallow, rfl⟩
  · intro deep
    obtain ⟨limit, position, final, bound, failed⟩ := refusal (by omega) (by omega)
    have same : nestingLimit = limit := Option.some.inj bound
    rw [← same] at failed
    exact ⟨position, final, failed⟩

/-- A closing parenthesis may be an operator before an operand, even at the start of an argument,
and the sign of assignment may stand beside the one of a loop. -/
theorem wrappedExpression_of_rendering_of_signs :
    ∃ after, wrappedExpression (.start (.ofLexer (.ofInput (.ofText (Text.spaced
        (["(", "f", "(", "(", ")", "x", ")", ")", ")", "=", "(", "for", "i", "=", "1", ",", "n",
          ",", ".5", "in", "y", ")"].map String.toList)) none) none)) .builtin) =
      (.parsed (.ofExpression (.binary '=' (.call "f" [.unary ')' (.reference "x")])
        (.loop "i" (.number (.ofNumeral ['1'])) (.reference "n")
          (some (.number (.ofNumeral ['.', '5']))) (.reference "y")))), after) ∧
      after.current.kind = .endOfInput := by
  apply (wrappedExpression_of_rendering false none _ _ _).1
  · decide
  · decide
  · exact ⟨by decide, ⟨rfl, ⟨by decide, rfl⟩, trivial⟩, ⟨rfl, trivial, rfl, trivial, rfl⟩⟩
  · decide +kernel

/-- A table may give a precedence to a character that starts a word. Its operators cannot be
written: the letter is read as a name, and the expression ends before it. -/
theorem not_rendering_of_letter :
    ¬ ∀ (operators : OperatorTable) (e : Expr) (words : List (List Char)) (outer : Bool)
      (source : Option String), operators.SparesPunctuation →
      (e.Writable fun symbol => 0 < operators.precedence symbol) →
      List.Forall₂ Token.Kind.Spells words (Expr.enclose outer e.written) →
      e.nesting + outer.toNat ≤ nestingLimit → ∃ after,
        wrappedExpression (.start (.ofLexer (.ofInput (.ofText (Text.spaced words) none) source))
          operators) = (.parsed (.ofExpression e), after) ∧ after.current.kind = .endOfInput := by
  intro claim
  let table := OperatorTable.empty.define 'a' 5
  let words := [['x'], ['a'], ['y']]
  obtain ⟨final, run, -⟩ := claim table (.binary 'a' (.reference "x") (.reference "y")) words
    false none (by decide) ⟨by decide, rfl, rfl⟩ (by decide) (by decide)
  have kinds : (TokenStream.ofLexer (.ofInput (.ofText (Text.spaced words) none) none)).ahead.map
      Token.kind = [.identifier "x", .identifier "a", .identifier "y"] :=
    TokenStream.kinds_ofLexer_spaced (by decide) (by simp)
      (by simp [Token.Kind.Lexable, show Text.isName "x" = true from rfl,
        show Text.isName "a" = true from rfl, show Text.isName "y" = true from rfl]) none
  generalize TokenStream.ofLexer (.ofInput (.ofText (Text.spaced words) none) none) = stream
    at kinds run
  obtain ⟨ahead, ending, failure⟩ := stream
  change ahead.map Token.kind = _ at kinds
  obtain ⟨first, rest, rfl, name, others⟩ := List.map_eq_cons_iff.1 kinds
  obtain ⟨second, rest, rfl, letter, -⟩ := List.map_eq_cons_iff.1 others
  let after : Session := .start ⟨second :: rest, ending, failure⟩ table
  have follows : after.current.kind = .identifier "a" := letter
  have closes : after.Closes := closes_of_kind follows (.of_not_symbol (by simp))
  have inside : expression.Reads [.identifier "x"] 1 (.reference "x") after :=
    reads_expression (reads_reference "x" closes.sees_eq_false) closes
  have whole : wrappedExpression.Reads [.identifier "x"] 1 (.ofExpression (.reference "x")) after :=
    inside.bind_nil rfl
  have result := (whole [first] (by simp [name])).1 ((admits_start _ _ 1).2 (by decide))
  have other : wrappedExpression (.start ⟨first :: second :: rest, ending, failure⟩ table) =
    (.parsed (.ofExpression (.reference "x")), after) := result
  rw [other] at run
  cases run

end Session

end Kaleidoscope
