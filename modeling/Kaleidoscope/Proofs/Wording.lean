import Kaleidoscope.Proofs.Announcement
import Kaleidoscope.Proofs.Printout

set_option autoImplicit false

/- Nothing is escaped in what the printer writes. But the lexer passes over line feeds, and no
wording of the grammar has one. -/

namespace Kaleidoscope

namespace Text

variable {first second text : String}

theorem OneLine.append (one : OneLine first) (other : OneLine second) :
    OneLine (first ++ second) := by
  unfold OneLine at one other ⊢
  simp [one, other]

theorem oneLine_of_test (test : Char → Bool) (inside : ∀ c ∈ text.toList, test c = true)
    (feed : test '\n' = false) : OneLine text := by
  intro there
  have passed := inside '\n' there
  rw [feed] at passed
  cases passed

theorem oneLine_of_isName (known : isName text = true) : OneLine text :=
  oneLine_of_test _ (isAlphanum_of_isWord (isWord_of_isName known)) (by decide)

theorem oneLine_singleton {symbol : Char} (known : isSymbol symbol = true) :
    OneLine (String.singleton symbol) := by
  refine oneLine_of_test isSymbol ?_ (by decide)
  simpa using known

theorem ne_feed_of_isSymbol {symbol : Char} (known : isSymbol symbol = true) : symbol ≠ '\n' := by
  rintro rfl
  cases known

theorem oneLine_number (value : Nat) : OneLine (toString value) := by
  refine oneLine_of_test Char.isDigit ?_ (by decide)
  intro c inside
  have digit : c ∈ Decimal.digits value := by simpa [Decimal.digits] using inside
  exact Decimal.isDigit_of_mem_digits digit

end Text

open Text

/-- A number that has no sign is written without a line feed. -/
theorem Number.Unsigned.oneLine {value : Number} (unsigned : value.Unsigned) :
    OneLine value.text := by
  by_cases finite : value.isFinite = true
  · obtain ⟨-, numerals, -⟩ := Number.spells_characters unsigned finite
    refine oneLine_of_test isNumeral ?_ (by decide)
    simpa [Number.text] using numerals
  · obtain ⟨magnitude, rfl⟩ := unsigned.exists_eq
    have infinite : magnitude.isInfinite = true := by simpa [Number.isFinite] using finite
    have written : (Number.signed false magnitude).text = "inf" := by
      simp [Number.text, Number.characters, Magnitude.characters, infinite]
    rw [written]
    decide

theorem Position.oneLine {position : Position} (source : OneLine position.source) :
    OneLine position.text := by
  have colon : OneLine ":" := by decide
  exact (((source.append colon).append (oneLine_number _)).append colon).append (oneLine_number _)

/-- The text of a token has no line feed. -/
theorem Token.Kind.Genuine.oneLine {kind : Token.Kind} (genuine : kind.Genuine) :
    OneLine kind.text := by
  cases kind with
  | endOfInput => exact genuine.elim
  | keyword word => cases word <;> decide
  | identifier name => exact oneLine_of_isName genuine
  | number value => exact Number.Unsigned.oneLine genuine
  | symbol character => exact oneLine_singleton genuine

namespace Expr

theorem feed_not_mem_spacedOut {α : Type} {write : α → List Char} {items : List α}
    (each : ∀ item ∈ items, '\n' ∉ write item) : '\n' ∉ spacedOut write items := by
  simpa [spacedOut] using each

/-- A list of parts is written in one line if its front and its parts are. -/
theorem feed_not_mem_list {front : List Char} {parts : List Expr} (plain : '\n' ∉ front)
    (each : ∀ part ∈ parts, '\n' ∉ part.characters) :
    '\n' ∉ front ++ spacedOut characters parts ++ [')'] := by
  have inside := feed_not_mem_spacedOut each
  simp [plain, inside]

theorem feed_not_mem_binding {binding : String × Option Expr} (name : OneLine binding.1)
    (initial : ∀ x ∈ binding.2, '\n' ∉ x.characters) : '\n' ∉ bindingCharacters binding := by
  refine feed_not_mem_list ?_ (by simpa using initial)
  simpa [OneLine] using name

/-- An expression is written in one line, whatever its operators are. -/
theorem Within.oneLine {operators : OperatorTable} {e : Expr}
    (within : e.Within operators.vocabulary) : OneLine e.text := by
  change '\n' ∉ e.characters
  induction within with
  | number known => exact Number.Unsigned.oneLine known
  | reference known => exact oneLine_of_isName known
  | unary known inside operand =>
    rw [characters_unary]
    refine feed_not_mem_list ?_ (List.forall_mem_singleton.2 operand)
    simpa using (ne_feed_of_isSymbol known.1).symm
  | binary known before behind left right =>
    rw [characters_binary]
    refine feed_not_mem_list ?_ (List.forall_mem_cons.2 ⟨left, List.forall_mem_singleton.2 right⟩)
    simpa using (ne_feed_of_isSymbol known.1).symm
  | call known inside given =>
    rw [characters_call]
    refine feed_not_mem_list ?_ given
    simpa [OneLine] using oneLine_of_isName known
  | conditional tested chosen otherwise condition consequent alternative =>
    rw [characters_conditional]
    refine feed_not_mem_list (by decide) ?_
    simpa using ⟨condition, consequent, alternative⟩
  | loop known begins ends steps repeated start stop step body =>
    rw [characters_loop]
    refine feed_not_mem_list (by simpa [OneLine] using oneLine_of_isName known) ?_
    rintro part there
    simp only [List.mem_cons, List.mem_append, Option.mem_toList, List.not_mem_nil, or_false]
      at there
    rcases there with rfl | rfl | given | rfl
    · exact start
    · exact stop
    · exact step part given
    · exact body
  | @scope bound body some known initial inside values last =>
    obtain ⟨binding, bound, rfl⟩ := List.exists_cons_of_ne_nil some
    have each : ∀ part ∈ binding :: bound, '\n' ∉ bindingCharacters part :=
      fun part there => feed_not_mem_binding (oneLine_of_isName (known part there))
        (values part there)
    obtain ⟨first, others⟩ := List.forall_mem_cons.1 each
    have rest := feed_not_mem_spacedOut others
    rw [characters_scope]
    simp [first, rest, last]

end Expr

namespace Prototype

variable {prototype : Prototype}

theorem Produced.oneLine_name (produced : prototype.Produced) : OneLine prototype.name := by
  rcases produced with regular | rfl
  · cases regular with
    | function known named => exact oneLine_of_isName known
    | unary known named => exact .append (by decide) (oneLine_singleton known)
    | binary known first second => exact .append (by decide) (oneLine_singleton known)
  · decide

theorem feed_not_mem_tail (prototype : Prototype) : '\n' ∉ prototype.tail := by
  unfold tail
  split
  next precedence _ =>
    have digits : '\n' ∉ Decimal.digits precedence.toNat := fun there =>
      Bool.noConfusion (Decimal.isDigit_of_mem_digits there)
    simp [digits]
  next => exact List.not_mem_nil

/-- A prototype is written in one line, even if it is that of an operator. -/
theorem Produced.oneLine (produced : prototype.Produced) : OneLine prototype.text := by
  have name := produced.oneLine_name
  have names : ∀ parameter ∈ prototype.parameters, '\n' ∉ parameter.toList :=
    fun parameter there => oneLine_of_isName (produced.named parameter there)
  have listed : '\n' ∉ [' '].intercalate (prototype.parameters.map String.toList) := by
    cases parameters : prototype.parameters with
    | nil => simp
    | cons parameter others =>
      rw [parameters, List.forall_mem_cons] at names
      rw [List.map_cons, intercalate_cons]
      simpa using names
  unfold OneLine at name ⊢
  rw [toList_text]
  simp [name, listed, prototype.feed_not_mem_tail]

theorem Produced.oneLine_registration (produced : prototype.Produced) :
    OneLine (Printer.registration prototype) := by
  have symbol : OneLine (String.ofList prototype.symbol?.toList) := by
    intro there
    rw [String.toList_ofList, Option.mem_toList, symbol?, Option.ite_none_right_eq_some] at there
    exact produced.oneLine_name (List.mem_of_getLast? there.2)
  exact .append (.append (.append (by decide) symbol) (by decide)) (oneLine_number _)

end Prototype

/-- The first line about a form is one line. -/
theorem Form.WellFormed.oneLine {operators : OperatorTable} {form : Form}
    (formed : form.WellFormed operators.vocabulary) : OneLine (Printer.announcement form) := by
  cases form with
  | definition given =>
    have prototype := Prototype.Produced.oneLine (.inl formed.1)
    have text : OneLine given.text :=
      .append (.append (.append (.append (by decide) prototype) (by decide)) formed.2.oneLine)
        (by decide)
    exact .append (by decide) text
  | declaration prototype => exact .append (by decide) (Prototype.Produced.oneLine (.inl formed))
  | expression wrapped => exact .append (by decide) formed.2.oneLine

theorem Form.WellFormed.oneLine_notices {operators : OperatorTable} {form : Form}
    (formed : form.WellFormed operators.vocabulary) :
    ∀ notice ∈ formNotices form, OneLine notice.line := by
  refine List.forall_mem_cons.2 ⟨formed.oneLine, ?_⟩
  cases form with
  | definition given =>
    dsimp only
    split
    · exact List.forall_mem_singleton.2 (Prototype.Produced.oneLine_registration (.inl formed.1))
    · exact List.forall_mem_nil _
  | _ => exact List.forall_mem_nil _

namespace Fault

/-- What was expected is said in one line. -/
def Worded : Fault → Prop
  | misplaced _ expectation => OneLine expectation
  | _ => True

theorem oneLine_title (fault : Fault) : OneLine fault.title := by
  cases fault <;> simp only [title] <;> decide

/-- Advice about a token that a lexer can give is one line. -/
theorem Concerns.oneLine {fault : Fault} {kind : Token.Kind} (concerns : fault.Concerns kind)
    (genuine : kind ≠ .endOfInput → kind.Genuine) (worded : fault.Worded) :
    OneLine (fault.tip?.getD fault.message) := by
  cases fault with
  | noExpression text =>
    obtain ⟨more, rfl⟩ := concerns
    exact .append (.append (by decide) (genuine more).oneLine) (by decide)
  | misplaced text expectation =>
    obtain ⟨more, rfl⟩ := concerns
    exact .append (.append (.append (by decide) (genuine more).oneLine) (by decide)) worded
  | noSymbol text =>
    obtain ⟨more, rfl⟩ := concerns
    exact .append (.append (by decide) (genuine more).oneLine) (by decide)
  | precedenceOutOfRange value =>
    have number : kind = .number value := concerns
    subst number
    exact .append (.append (by decide) (genuine Token.Kind.noConfusion).oneLine) (by decide)
  | repeatedParameter name =>
    have named : kind = .identifier name := concerns
    subst named
    exact .append (.append (by decide) (genuine Token.Kind.noConfusion).oneLine) (by decide)
  | tooDeep limit => exact .append (.append (by decide) (oneLine_number limit)) (by decide)
  | wrongArity symbol expected received => exact concerns.elim
  | backend reason => exact concerns.elim

end Fault

theorem Grammar.Miscounted.exists_word {row : List Token} {failure : Failure}
    (miscounted : Miscounted row failure) : ∃ word ∈ row, failure.position = word.position := by
  cases miscounted <;> exact ⟨_, List.mem_cons_self, rfl⟩

/-- Advice about the number of parameters is one line. -/
theorem Grammar.Miscounted.oneLine {row : List Token} {failure : Failure}
    (miscounted : Miscounted row failure) (genuine : ∀ token ∈ row, token.kind.Genuine) :
    OneLine (failure.fault.tip?.getD failure.fault.message) := by
  have known {symbol : Char} (there : .symbol symbol ∈ row.map Token.kind) :
      OneLine (String.singleton symbol) := by
    obtain ⟨token, inside, kind⟩ := List.mem_map.1 there
    have symbol := genuine token inside
    rw [kind] at symbol
    exact oneLine_singleton symbol
  have tip {symbol : Char} {expected received : Nat} (name : OneLine (String.singleton symbol)) :
      OneLine ((Fault.wrongArity symbol expected received).tip?.getD
        (Fault.wrongArity symbol expected received).message) :=
    .append (.append (.append (.append (.append (by decide) name) (by decide))
      (oneLine_number _)) (by decide)) (oneLine_number _)
  cases miscounted with
  | unary symbol names first spelled unlike => exact tip (known (by simp [spelled]))
  | binary symbol weight names first weighted spelled unlike =>
    exact tip (known (by simp [spelled]))

namespace Parser

variable {α β : Type}

/-- What the step expected where it fails is said in one line. -/
def Worded (step : Parser α) : Prop :=
  ∀ session failure after, step session = (.failed failure, after) → failure.fault.Worded

theorem worded_pure (value : α) : (pure value : Parser α).Worded := by
  intro session failure after run
  cases run

theorem Worded.bind {first : Parser α} {next : α → Parser β} (start : first.Worded)
    (further : ∀ value, (next value).Worded) : (first >>= next).Worded := by
  intro session failure after run
  change Parser.bind first next session = (.failed failure, after) at run
  unfold Parser.bind at run
  split at run
  next value middle _ => exact further value middle failure after run
  next => cases run
  next begun =>
    cases run
    exact start session failure after begun

theorem worded_unexpected {expectation : String} (wording : OneLine expectation) :
    (Session.unexpected expectation : Parser α).Worded := by
  intro session failure after run
  unfold Session.unexpected at run
  split at run
  · cases run
  · cases run
    exact wording

theorem worded_noExpression : (Session.noExpression : Parser α).Worded := by
  intro session failure after run
  unfold Session.noExpression at run
  split at run
  · cases run
  · cases run
    trivial

theorem worded_take : Session.take.Worded := by
  intro session failure after run
  cases run

theorem worded_expect (kind : Token.Kind) {expectation : String} (wording : OneLine expectation) :
    (Session.expect kind expectation).Worded := by
  intro session failure after run
  unfold Session.expect at run
  split at run
  · cases run
  · exact worded_unexpected wording session failure after run

theorem worded_expectName {expectation : String} (wording : OneLine expectation) :
    (Session.expectName expectation).Worded := by
  intro session failure after run
  unfold Session.expectName at run
  split at run
  · cases run
  · exact worded_unexpected wording session failure after run

end Parser

namespace BoundedParser

variable {α β : Type}

/-- What the step expected where it fails is said in one line. -/
def Worded (step : BoundedParser α) : Prop :=
  ∀ session failure after, step session = some (.failed failure, after) → failure.fault.Worded

theorem worded_starved : (starved : BoundedParser α).Worded := by
  intro session failure after run
  cases run

theorem worded_pure (value : α) : (pure value : BoundedParser α).Worded := by
  intro session failure after run
  cases run

theorem Worded.bind {first : BoundedParser α} {next : α → BoundedParser β} (start : first.Worded)
    (further : ∀ value, (next value).Worded) : (first >>= next).Worded := by
  intro session failure after run
  rcases bind_cases run with ⟨value, middle, -, rest⟩ | ⟨-, ended⟩ | ⟨_, failed, same⟩
  · exact further value middle failure after rest
  · cases ended
  · cases same
    exact start session failure after failed

theorem Worded.nested {inner : BoundedParser α} (inside : inner.Worded) :
    (nested inner).Worded := by
  intro session failure after run
  unfold BoundedParser.nested at run
  split at run
  next refused opened =>
    cases run
    obtain ⟨limit, again⟩ := Session.openOperand_error opened
    have same : failure = session.failure (.tooDeep limit) :=
      Except.error.inj (opened.symm.trans (again session.tokens))
    rw [same]
    trivial
  next deeper opened =>
    obtain ⟨⟨outcome, middle⟩, answer, same⟩ := Option.map_eq_some_iff.1 run
    cases same
    exact inside deeper failure middle answer

end BoundedParser

theorem Parser.Worded.lift {α : Type} {step : Parser α} (worded : step.Worded) :
    (BoundedParser.lift step).Worded := by
  intro session failure after run
  exact worded session failure after (Option.some.inj run)

namespace BoundedParser

/-- Every expectation of the grammar is one line. -/
theorem worded_compatible :
    Grammar.Compatible (P := BoundedParser) (Q := BoundedParser) fun {_} step _ => step.Worded where
  pure value := worded_pure value
  bind begins continues := begins.bind continues
  take := Parser.worded_take.lift
  expect _ wording := (Parser.worded_expect _ wording).lift
  name wording := (Parser.worded_expectName wording).lift
  unexpected _ _ wording := (Parser.worded_unexpected wording).lift
  noExpression _ := Parser.worded_noExpression.lift
  look related := fun session => related _ _ session
  nested inside := inside.nested
  called inside := inside

end BoundedParser

namespace Grammar

open Kaleidoscope.Parser hiding pure bind

theorem worded_operatorSymbol : operatorSymbol.Worded := by
  intro session failure after run
  cases kind : session.current.kind <;> simp only [operatorSymbol, kind] at run <;> cases run <;>
    trivial

theorem worded_operatorPrecedence : operatorPrecedence.Worded := by
  intro session failure after run
  unfold operatorPrecedence at run
  split at run
  · split at run
    · cases run
    · cases run
      trivial
  · cases run

theorem worded_heading : heading.Worded := by
  intro session failure after run
  unfold heading at run
  split at run
  · cases run
  · exact (worded_operatorSymbol.bind fun _ => worded_pure _) _ failure after run
  · exact (worded_operatorSymbol.bind fun _ => worded_operatorPrecedence.bind fun _ =>
      worded_pure _) _ failure after run
  · exact worded_unexpected (by decide) session failure after run

theorem worded_parameters (count : Nat) (taken : List String) :
    (parameters count taken).Worded := by
  induction count generalizing taken with
  | zero => exact worded_pure taken
  | succ count hypothesis =>
    intro session failure after run
    unfold parameters at run
    split at run
    next name _ =>
      split at run
      · cases run
        trivial
      · exact hypothesis (taken ++ [name]) _ failure after run
    next => cases run

theorem Heading.worded_finish (heading : Heading) (position : Position) (names : List String) :
    Parser.Worded fun after => (heading.finish position names, after) := by
  intro session failure after run
  have refused : heading.finish position names = .failed failure := congrArg Prod.fst run
  cases heading with
  | function name => cases refused
  | unary symbol =>
    rw [(finish_unary_refused refused).2]
    trivial
  | binary symbol precedence =>
    rw [(finish_binary_refused refused).2]
    trivial

end Grammar

namespace Session

open Kaleidoscope.Parser hiding pure bind

theorem worded_prototype : prototype.Worded := by
  intro session failure after run
  have parameters : Parser.Worded fun inside : Session =>
      Grammar.parameters inside.remaining [] inside := fun inside =>
    Grammar.worded_parameters inside.remaining [] inside
  exact (Grammar.worded_heading.bind fun heading => (worded_expect _ (by decide)).bind fun _ =>
    parameters.bind fun names => (worded_expect _ (by decide)).bind fun _ =>
      heading.worded_finish session.position names) session failure after run

theorem worded_expression : expression.Worded := by
  intro session failure after run
  have worded := BoundedParser.worded_compatible.read (fun _ => BoundedParser.worded_starved)
    session.enoughFuel .expression
  refine worded session failure after ?_
  rw [read_expression, run]

/-- Whatever form cannot be read, what was expected is said in one line. -/
theorem worded_form : form.Worded := by
  have definition : definition.Worded :=
    worded_take.bind fun _ => worded_prototype.bind fun _ =>
      worded_expression.bind fun _ => worded_pure _
  have declaration : declaration.Worded := worded_take.bind fun _ => worded_prototype
  have expression : wrappedExpression.Worded := worded_expression.bind fun _ => worded_pure _
  intro session failure after run
  unfold form at run
  split at run
  · exact (definition.bind fun _ => worded_pure _) session failure after run
  · exact (declaration.bind fun _ => worded_pure _) session failure after run
  · exact (expression.bind fun _ => worded_pure _) session failure after run

end Session

namespace Lexer

/-- Every token stands in the source of the lexer. -/
theorem Gives.source {lexer : Lexer} {pending : List (List Char)} {result : Token × Lexer}
    (gives : lexer.Gives pending result) :
    result.1.position.source = lexer.source ∧ result.2.source = lexer.source := by
  induction gives with
  | cut ahead solid found => exact ⟨rfl, rfl⟩
  | line gives hypothesis => exact hypothesis
  | ended used => exact ⟨rfl, rfl⟩

theorem Settled.source_takeTokens {lexer : Lexer} (settled : lexer.Settled) (count : Nat) :
    (∀ token ∈ (lexer.takeTokens count).1, token.position.source = lexer.source) ∧
      (lexer.takeTokens count).2.source = lexer.source := by
  induction count generalizing lexer with
  | zero => exact ⟨List.forall_mem_nil _, rfl⟩
  | succ count hypothesis =>
    obtain ⟨token, after⟩ := settled.gives.source
    have later := hypothesis settled.next
    rw [after] at later
    unfold takeTokens
    by_cases ended : lexer.next.1.isEnd = true
    · simp only [ended, ↓reduceIte]
      exact ⟨List.forall_mem_nil _, after⟩
    · simp only [ended, Bool.false_eq_true, ↓reduceIte]
      exact ⟨List.forall_mem_cons.2 ⟨token, later.1⟩, later.2⟩

end Lexer

/-- The tokens are such as a lexer can give, and all of them stand in the source of that name, the
end included. -/
structure TokenStream.Sourced (source : String) (stream : TokenStream) : Prop where
  genuine : stream.Genuine
  placed : ∀ token ∈ stream.toList, token.position.source = source

namespace TokenStream.Sourced

theorem ofLexer (input : Input) (source : Option String) :
    (TokenStream.ofLexer (.ofInput input source)).Sourced (source.getD Lexer.defaultSource) := by
  refine ⟨genuine_ofLexer input source, ?_⟩
  obtain ⟨tokens, final⟩ := (Lexer.settled_ofInput input source).source_takeTokens
    ((Lexer.ofInput input source).remaining + 1)
  exact List.forall_mem_append.2 ⟨tokens, List.forall_mem_singleton.2 final⟩

variable {source : String} {session after : Session} {row : List Token}

/-- What stands in front of a session and what is ahead of it. -/
theorem of_prepend (sourced : session.tokens.Sourced source) (same : session = after.prepend row) :
    (∀ token ∈ row, token.kind.Genuine ∧ token.position.source = source) ∧
      after.tokens.Sourced source := by
  obtain ⟨genuine, placed⟩ := sourced
  rw [same, Session.toList_prepend, List.forall_mem_append] at placed
  have known : ∀ token ∈ row ++ after.tokens.ahead, token.kind.Genuine := by
    rw [same] at genuine
    exact genuine
  rw [List.forall_mem_append] at known
  exact ⟨fun token inside => ⟨known.1 token inside, placed.1 token inside⟩, known.2, placed.2⟩

theorem current (sourced : session.tokens.Sourced source) :
    (session.current.kind ≠ .endOfInput → session.current.kind.Genuine) ∧
      session.position.source = source := by
  have first := List.mem_of_head? session.head_toList
  refine ⟨?_, sourced.placed _ first⟩
  intro more
  rcases List.mem_append.1 first with ahead | last
  · exact sourced.genuine _ ahead
  · rw [List.mem_singleton.1 last] at more
    exact absurd rfl more

end TokenStream.Sourced

/-- Both lines about a failure that was found in reading a form are single lines. -/
theorem Session.oneLine_of_failed {session after : Session} {failure : Failure} {source : String}
    (sourced : session.tokens.Sourced source) (named : OneLine source)
    (run : session.form = (.failed failure, after)) :
    OneLine (failure.fault.tip?.getD failure.fault.message) ∧ OneLine failure.position.text := by
  have worded := worded_form session failure after run
  have blames : failure.Blames session.advance after := form_diagnosed run
  cases blames with
  | token place concerns =>
    obtain ⟨row, same⟩ := session.exists_prepend_form
    rw [run] at same
    obtain ⟨genuine, source⟩ := (sourced.of_prepend same).2.current
    refine ⟨concerns.oneLine genuine worded, Position.oneLine ?_⟩
    rw [place, source]
    exact named
  | count same miscounted =>
    have behind := (sourced.of_prepend (eq_prepend_skipped sourced.genuine.regular)).2
    obtain ⟨known, -⟩ := behind.of_prepend same
    obtain ⟨word, inside, place⟩ := miscounted.exists_word
    refine ⟨miscounted.oneLine fun token there => (known token there).1, Position.oneLine ?_⟩
    rw [place, (known word inside).2]
    exact named

namespace Toplevel

variable {top : Toplevel Printer} {source : String}

theorem sourced_of_reachable {β : Type} [Backend β] {start top : Toplevel β} {source : String}
    (sourced : start.session.tokens.Sourced source) (reached : Reachable start top) :
    top.session.tokens.Sourced source := by
  induction reached with
  | start => exact sourced
  | @step top reached hypothesis =>
    obtain ⟨row, after, -, same, tokens⟩ := exists_takenBy hypothesis.genuine.regular
    rw [tokens]
    exact (hypothesis.of_prepend same).2
  | prompt reached hypothesis => exact hypothesis

/-- Every line that is written about a step is one line. -/
theorem oneLine_of_mem_notices (sourced : top.session.tokens.Sourced source)
    (named : OneLine source) : ∀ notice ∈ top.step.1.notices, OneLine notice.line := by
  cases step : top.step.1 with
  | accepted form =>
    obtain ⟨session, run⟩ := form_of_step (congrArg Step.form? step)
    obtain ⟨row, known, derived⟩ := Session.exists_genuine_row sourced.genuine run
    exact (derived.wellFormed known).oneLine_notices
  | failed failure skipped =>
    obtain ⟨-, -, after, run, -⟩ := form_of_failed step
    cases failure with
    | none => exact List.forall_mem_singleton.2 (by decide)
    | some failure =>
      obtain ⟨tip, place⟩ := Session.oneLine_of_failed sourced named run
      have title : OneLine ("Error: " ++ failure.fault.title ++ " (") :=
        .append (.append (by decide) failure.fault.oneLine_title) (by decide)
      have arrow : OneLine ("-> " ++ failure.position.text) := .append (by decide) place
      exact List.forall_mem_cons.2
        ⟨.append (.append title tip) (by decide), List.forall_mem_singleton.2 arrow⟩
  | _ => exact List.forall_mem_nil _

end Toplevel

end Kaleidoscope
