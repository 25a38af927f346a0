import Kaleidoscope.Proofs.Lookahead
import Kaleidoscope.Toplevel.Recorder

set_option autoImplicit false

/- A failure is about the token that is current when it is returned, or about the number of
parameters in the prototype that ends there, at the place of its first word. -/

namespace Kaleidoscope

open BoundedParser hiding pure bind

namespace Fault

/-- Whether one token is at fault, which does not belong where it stands. -/
def isOfToken : Fault → Bool
  | noExpression _ => true
  | misplaced _ _ => true
  | noSymbol _ => true
  | precedenceOutOfRange _ => true
  | repeatedParameter _ => true
  | wrongArity _ _ _ => false
  | tooDeep _ => false
  | backend _ => false

/-- Whether the number of parameters is at fault. -/
def isOfCount : Fault → Bool
  | wrongArity _ _ _ => true
  | _ => false

/-- The text of a token, or the name, that the fault quotes. -/
def quoted? : Fault → Option String
  | noExpression text => some text
  | misplaced text _ => some text
  | noSymbol text => some text
  | repeatedParameter name => some name
  | _ => none

variable {fault : Fault} {kind : Token.Kind}

theorem Concerns.quoted (concerns : fault.Concerns kind) :
    ∀ text ∈ fault.quoted?, text = kind.text := by
  intro text given
  cases fault <;> simp only [quoted?, Option.mem_def, Option.some.injEq, reduceCtorEq] at given
  case noExpression => exact given ▸ concerns.2
  case misplaced => exact given ▸ concerns.2
  case noSymbol => exact given ▸ concerns.2
  case repeatedParameter name =>
    have named : kind = .identifier name := concerns
    rw [← given, named]
    rfl

theorem Concerns.isOfCount_eq (concerns : fault.Concerns kind) : fault.isOfCount = false := by
  cases fault with
  | wrongArity symbol expected received => exact concerns.elim
  | _ => rfl

theorem Concerns.ne_backend (concerns : fault.Concerns kind) (reason : String) :
    fault ≠ .backend reason := by
  rintro rfl
  exact concerns

/-- At the end of the input only the number of open operands can be at fault. -/
theorem Concerns.tooDeep_of_ended (concerns : fault.Concerns .endOfInput) :
    ∃ limit, fault = .tooDeep limit := by
  cases fault with
  | tooDeep limit => exact ⟨limit, rfl⟩
  | noExpression text => exact absurd rfl concerns.1
  | misplaced text expectation => exact absurd rfl concerns.1
  | noSymbol text => exact absurd rfl concerns.1
  | precedenceOutOfRange value => cases concerns
  | repeatedParameter name => cases concerns
  | wrongArity symbol expected received => exact concerns.elim
  | backend reason => exact concerns.elim

/-- A token at fault is not the end of the input. -/
theorem Concerns.more (concerns : fault.Concerns kind) (single : fault.isOfToken = true) :
    kind ≠ .endOfInput := by
  rintro rfl
  obtain ⟨limit, rfl⟩ := concerns.tooDeep_of_ended
  cases single

end Fault

namespace Grammar

/-- The row is the prototype of an operator with the wrong number of parameters, and the failure
says so at the place of its first word. -/
inductive Miscounted : List Token → Failure → Prop where
  | unary {word : Token} {rest : List Token} (symbol : Char) (names : List String)
      (first : word.kind = .keyword .unaryWord)
      (spelled : rest.map Token.kind =
        .symbol symbol :: .symbol '(' :: names.map .identifier ++ [.symbol ')'])
      (unlike : names.length ≠ 1) :
      Miscounted (word :: rest) ⟨.wrongArity symbol 1 names.length, word.position⟩
  | binary {word : Token} {rest : List Token} (symbol : Char) (weight : List Token.Kind)
      (names : List String) (first : word.kind = .keyword .binaryWord)
      (weighted : weight = [] ∨ ∃ value, weight = [.number value] ∧ isDeclarable value = true)
      (spelled : rest.map Token.kind =
        .symbol symbol :: weight ++ .symbol '(' :: names.map .identifier ++ [.symbol ')'])
      (unlike : names.length ≠ 2) :
      Miscounted (word :: rest) ⟨.wrongArity symbol 2 names.length, word.position⟩

theorem Miscounted.isOfCount_eq {row : List Token} {failure : Failure}
    (miscounted : Miscounted row failure) : failure.fault.isOfCount = true := by
  cases miscounted <;> rfl

/-- Counting parameters needs no more input. -/
theorem Heading.finish_ne_incomplete (heading : Heading) (place : Position)
    (names : List String) : heading.finish place names ≠ .incomplete := by
  cases heading with
  | function name => simp [finish]
  | unary symbol =>
    rw [finish]
    split <;> simp
  | binary symbol precedence =>
    rw [finish]
    split <;> simp

theorem Heading.finish_unary_refused {symbol : Char} {place : Position} {names : List String}
    {failure : Failure} (refused : (unary symbol).finish place names = .failed failure) :
    names.length ≠ 1 ∧ failure = ⟨.wrongArity symbol 1 names.length, place⟩ := by
  rw [finish] at refused
  split at refused
  next => cases refused
  next unlike => exact ⟨unlike, (Outcome.failed.inj refused).symm⟩

theorem Heading.finish_binary_refused {symbol : Char} {precedence : UInt32} {place : Position}
    {names : List String} {failure : Failure}
    (refused : (binary symbol precedence).finish place names = .failed failure) :
    names.length ≠ 2 ∧ failure = ⟨.wrongArity symbol 2 names.length, place⟩ := by
  rw [finish] at refused
  split at refused
  next => cases refused
  next unlike => exact ⟨unlike, (Outcome.failed.inj refused).symm⟩

/-- A heading that refuses its parameters is that of an operator, and refuses their number. -/
theorem miscounted_of_finish {first : List Token.Kind} {word : Token} {rest : List Token}
    {heading : Heading} {names : List String} {failure : Failure}
    (derived : DerivesHeading first heading)
    (spelled : word.kind :: rest.map Token.kind =
      first ++ .symbol '(' :: names.map .identifier ++ [.symbol ')'])
    (refused : heading.finish word.position names = .failed failure) :
    Miscounted (word :: rest) failure := by
  cases derived with
  | function name => cases refused
  | unary symbol =>
    obtain ⟨unlike, rfl⟩ := Heading.finish_unary_refused refused
    simp only [List.cons_append, List.cons.injEq] at spelled
    exact .unary symbol names spelled.1 spelled.2 unlike
  | binary symbol =>
    obtain ⟨unlike, rfl⟩ := Heading.finish_binary_refused refused
    simp only [List.cons_append, List.cons.injEq] at spelled
    exact .binary symbol [] names spelled.1 (.inl rfl) spelled.2 unlike
  | @weighted symbol value declarable =>
    obtain ⟨unlike, rfl⟩ := Heading.finish_binary_refused refused
    simp only [List.cons_append, List.cons.injEq] at spelled
    exact .binary symbol [.number value] names spelled.1 (.inr ⟨value, rfl, declarable⟩)
      spelled.2 unlike

end Grammar

/-- What a failure is about that is returned in `after`: the token that is current there, or the
prototype that was read from `start` up to there. -/
inductive Failure.Blames (start after : Session) (failure : Failure) : Prop where
  | token (place : failure.position = after.position)
      (concerns : failure.fault.Concerns after.current.kind)
  | count {row : List Token} (same : start = after.prepend row)
      (miscounted : Grammar.Miscounted row failure)

namespace Failure.Blames

variable {start after : Session} {failure : Failure}

/-- A failure that is not about a number of parameters stands at the current token and quotes it. -/
theorem at_current (blames : failure.Blames start after)
    (single : failure.fault.isOfCount = false) :
    failure.position = after.current.span.start ∧
      ∀ text ∈ failure.fault.quoted?, text = after.current.text := by
  cases blames with
  | token place concerns => exact ⟨place, concerns.quoted⟩
  | count same miscounted =>
    rw [miscounted.isOfCount_eq] at single
    cases single

/-- A failure about a number of parameters is about the prototype that ends before the current
token. -/
theorem exists_miscounted (blames : failure.Blames start after)
    (several : failure.fault.isOfCount = true) :
    ∃ row, start = after.prepend row ∧ Grammar.Miscounted row failure := by
  cases blames with
  | token place concerns =>
    rw [concerns.isOfCount_eq] at several
    cases several
  | count same miscounted => exact ⟨_, same, miscounted⟩

theorem ne_backend (blames : failure.Blames start after) (reason : String) :
    failure.fault ≠ .backend reason := by
  cases blames with
  | token place concerns => exact concerns.ne_backend reason
  | count same miscounted => cases miscounted <;> simp

theorem of_ended (blames : failure.Blames start after)
    (ended : after.current.kind = .endOfInput) :
    failure.fault.isOfCount = true ∨ ∃ limit, failure.fault = .tooDeep limit := by
  cases blames with
  | token place concerns =>
    rw [ended] at concerns
    exact .inr concerns.tooDeep_of_ended
  | count same miscounted => exact .inl miscounted.isOfCount_eq

theorem more (blames : failure.Blames start after) (single : failure.fault.isOfToken = true) :
    after.current.kind ≠ .endOfInput := by
  cases blames with
  | token place concerns => exact concerns.more single
  | count same miscounted => cases miscounted <;> cases single

end Failure.Blames

namespace Outcome

variable {α : Type}

/-- What an outcome says of the session behind it. -/
def Diagnosed (start after : Session) : Outcome α → Prop
  | .parsed _ => True
  | .incomplete => after.current.kind = .endOfInput
  | .failed failure => failure.Blames start after

theorem Explained.diagnosed {outcome : Outcome α} {after : Session}
    (explained : outcome.Explained after) (start : Session) : outcome.Diagnosed start after := by
  cases outcome with
  | parsed value => exact trivial
  | incomplete => exact explained
  | failed failure => exact .token explained.1 explained.2

end Outcome

namespace Session

variable {session after : Session}

theorem prototype_diagnosed {outcome : Outcome Prototype}
    (run : session.prototype = (outcome, after)) : outcome.Diagnosed session after := by
  have heeds : HeedsAt .exact (lift signature) session := Grammar.heeds_signature session rfl
  have whole := (lift_prototype session).symm.trans (congrArg some run)
  rcases bind_cases whole with ⟨⟨heading, names⟩, middle, start, rest⟩ | ⟨start, rfl⟩ |
    ⟨failure, start, rfl⟩
  · obtain ⟨finished, rfl⟩ := Prod.mk.inj (Option.some.inj rest)
    have yields := signature_yields session
    unfold Parser.Yields at yields
    rw [Option.some.inj start] at yields
    obtain ⟨row, same, related⟩ := yields
    obtain ⟨-, first, headed, spelled⟩ := related _ rfl
    cases outcome with
    | parsed prototype => exact trivial
    | incomplete => exact absurd finished (heading.finish_ne_incomplete _ names)
    | failed failure =>
      cases row with
      | nil => simp at spelled
      | cons word others =>
        rw [same] at finished
        exact .count same (Grammar.miscounted_of_finish headed spelled finished)
  · exact (heeds.explained .incomplete after start).diagnosed session
  · exact (heeds.explained (.failed failure) after start).diagnosed session

/-- The prototype of a definition starts behind its first word. -/
theorem definition_diagnosed {outcome : Outcome Definition}
    (run : session.definition = (outcome, after)) : outcome.Diagnosed session.advance after := by
  have whole : (lift prototype >>= fun prototype =>
      lift (do
        let body ← expression
        pure ⟨prototype, body⟩ : Parser Definition)) session.advance = some (outcome, after) := by
    rw [← lift_bind]
    exact congrArg some run
  rcases bind_cases whole with ⟨prototype, middle, start, rest⟩ | ⟨start, rfl⟩ |
    ⟨failure, start, rfl⟩
  · rw [lift_bind] at rest
    have heeds := (heeds_expression (Tolerance.exact_closes middle.operators)).bind
      (fun body => heeds_pure (⟨prototype, body⟩ : Definition)) middle rfl
    exact (heeds.explained outcome after rest).diagnosed session.advance
  · exact prototype_diagnosed (Option.some.inj start)
  · exact prototype_diagnosed (Option.some.inj start)

theorem declaration_diagnosed {outcome : Outcome Prototype}
    (run : session.declaration = (outcome, after)) : outcome.Diagnosed session.advance after :=
  prototype_diagnosed run

theorem wrappedExpression_explained {outcome : Outcome Definition}
    (run : session.wrappedExpression = (outcome, after)) : outcome.Explained after := by
  have heeds := (heeds_expression (Tolerance.exact_closes session.operators)).bind
    (fun body => heeds_pure (Definition.ofExpression body)) session rfl
  refine heeds.explained outcome after ?_
  rw [← congrArg some run]
  exact (congrFun (lift_bind _ _) session).symm

/-- The prototype of a form starts behind its first word. -/
theorem form_diagnosed {outcome : Outcome Form} (run : session.form = (outcome, after)) :
    outcome.Diagnosed session.advance after := by
  have wrap {α : Type} {reader : Parser α} {make : α → Form}
      (diagnosed : ∀ found, reader session = (found, after) →
        found.Diagnosed session.advance after)
      (given : (do return make (← reader) : Parser Form) session = (outcome, after)) :
      outcome.Diagnosed session.advance after := by
    have whole : (lift reader >>= fun value => lift (pure (make value))) session =
        some (outcome, after) := by
      rw [← lift_bind]
      exact congrArg some given
    rcases bind_cases whole with ⟨value, middle, start, rest⟩ | ⟨start, rfl⟩ |
      ⟨failure, start, rfl⟩
    · cases rest
      exact trivial
    · exact diagnosed _ (Option.some.inj start)
    · exact diagnosed _ (Option.some.inj start)
  unfold form at run
  split at run
  next => exact wrap (fun _ => definition_diagnosed) run
  next => exact wrap (fun _ => declaration_diagnosed) run
  next => exact wrap (fun _ given => (wrappedExpression_explained given).diagnosed _) run

end Session

/-- The tokens before the end, with another end behind the first `count` of them. -/
def TokenStream.truncated (stream : TokenStream) (count : Nat) (ending : Position)
    (error : Option ReadError) : TokenStream :=
  ⟨stream.ahead.take count, ending, error⟩

/-- A form that fails at a token fails there in every longer input too. -/
theorem Session.form_of_truncated {session after : Session} {count : Nat} {ending : Position}
    {error : Option ReadError} {failure : Failure}
    (run : (session.upon (session.tokens.truncated count ending error)).form =
      (.failed failure, after))
    (more : (session.upon (session.tokens.truncated count ending error)).current.kind ≠ .endOfInput)
    (visible : after.current.kind ≠ .endOfInput) :
    ∃ behind, session.form = (.failed failure, after.upon behind) ∧
      session.current = (session.upon (session.tokens.truncated count ending error)).current ∧
      after.current = behind.current := by
  obtain ⟨row, same, again⟩ :=
    (form_repeats (Tolerance.exact_closes _) more).exists_row (congrArg some run)
  let behind : TokenStream :=
    { session.tokens with ahead := after.tokens.ahead ++ session.tokens.ahead.drop count }
  have front : session.tokens.ahead.take count = row ++ after.tokens.ahead :=
    congrArg (·.tokens.ahead) same
  have ahead : row ++ behind.ahead = session.tokens.ahead := by
    rw [← List.append_assoc, ← front, List.take_append_drop]
  have shown : after.tokens.ahead = after.current :: after.advance.tokens.ahead :=
    congrArg (·.tokens.ahead) (eq_prepend_advance visible)
  have last : (after.upon behind).current = after.current := by
    show (after.tokens.ahead ++ _).headD _ = after.current
    rw [shown]
    rfl
  have whole : (after.upon behind).prepend row = session := by
    rw [upon_of_prepend same]
    unfold prepend upon
    rw [ahead]
  have repeated := again behind last
  rw [whole] at repeated
  refine ⟨behind, Option.some.inj repeated, ?_, last.symm⟩
  calc session.current
      = ((after.upon behind).prepend row).current := by rw [whole]
    _ = (after.prepend row).current := current_prepend_congr last row
    _ = _ := by rw [same]

namespace Production

open Session

/-- A production ends with a value, at the end of the input, or with a failure that is about the
current token or about the prototype that was read, which starts at the first token or behind it. -/
theorem exists_diagnosed {α : Type} (production : Production α) {session after : Session}
    {outcome : Outcome α} (run : production.read session = (outcome, after)) :
    ∃ start, (start = session ∨ start = session.advance) ∧ outcome.Diagnosed start after := by
  have closes := Tolerance.exact_closes session.operators
  have found := congrArg some run
  cases production with
  | expression =>
    have explained := (heeds_expression closes session rfl).explained outcome after found
    exact ⟨session, .inl rfl, explained.diagnosed session⟩
  | operand =>
    have explained := (heeds_operand closes session rfl).explained outcome after found
    exact ⟨session, .inl rfl, explained.diagnosed session⟩
  | primary =>
    have explained := (heeds_primary closes session rfl).explained outcome after found
    exact ⟨session, .inl rfl, explained.diagnosed session⟩
  | operations minimum left =>
    have looser := Tolerance.exact_looser session.operators minimum
    have explained :=
      (heeds_operations closes minimum left looser session rfl).explained outcome after found
    exact ⟨session, .inl rfl, explained.diagnosed session⟩
  | prototype => exact ⟨session, .inl rfl, prototype_diagnosed run⟩
  | definition => exact ⟨session.advance, .inr rfl, definition_diagnosed run⟩
  | declaration => exact ⟨session.advance, .inr rfl, declaration_diagnosed run⟩
  | wrappedExpression =>
    exact ⟨session, .inl rfl, (wrappedExpression_explained run).diagnosed session⟩

end Production

namespace Toplevel

/-- The failure of a step is that of reading a form, and the token passed over is the one that is
current behind it. -/
theorem form_of_failed {β : Type} [Backend β] {top : Toplevel β} {failure : Option Failure}
    {skipped : Token} (failed : top.step.1 = .failed failure skipped) :
    top.session.current.kind ≠ .endOfInput ∧ top.session.current.kind ≠ .symbol ';' ∧
      ∃ after, top.session.form = (failure.elim .incomplete .failed, after) ∧
        skipped = after.current ∧ top.step.2.session = after.advance := by
  have taken := top.dispatch
  generalize top.step = result at failed taken ⊢
  cases taken with
  | finished ended => cases failed
  | separator seen => cases failed
  | @submitted form session more plain run =>
    rcases top.submit_cases session form with used | ⟨_, refused⟩
    · rw [used] at failed
      cases failed
    · rw [refused] at failed
      cases failed
  | @incomplete session more plain run =>
    cases failed
    exact ⟨more, plain, session, run, rfl, rfl⟩
  | @failed _ session more plain run =>
    cases failed
    exact ⟨more, plain, session, run, rfl, rfl⟩

/-- Every failure is found at the token at which reading has stopped, and no further one is taken
before it is returned. So, in every state and with every backend, the token that a failed step
passes over is the one at whose place the failure stands and which it quotes. A wrong number of
parameters stands at the first word of the operator's prototype, and the token that is passed over
is the one behind the closing parenthesis of that prototype. -/
theorem failures_point_at_skipped_token :
    (∀ (α : Type) (production : Production α) (session after : Session) (failure : Failure),
      production.read session = (.failed failure, after) →
        (failure.fault.isOfCount = false →
          failure.position = after.current.span.start ∧
          ∀ text ∈ failure.fault.quoted?, text = after.current.text) ∧
        (failure.fault.isOfCount = true →
          ∃ start row, (start = session ∨ start = session.advance) ∧
            start = after.prepend row ∧ Grammar.Miscounted row failure)) ∧
    (∀ (β : Type) [Backend β] (top after : Toplevel β) (failure : Failure) (skipped : Token),
      top.step = (.failed (some failure) skipped, after) →
        (failure.fault.isOfCount = false →
          failure.position = skipped.span.start ∧
          ∀ text ∈ failure.fault.quoted?, text = skipped.text) ∧
        (failure.fault.isOfCount = true →
          ∃ first row rest, top.session.tokens.toList = first :: row ++ skipped :: rest ∧
            Grammar.Miscounted row failure)) := by
  constructor
  · intro α production session after failure run
    obtain ⟨start, origin, blames⟩ := production.exists_diagnosed run
    constructor
    · exact Failure.Blames.at_current blames
    · intro several
      obtain ⟨row, same, miscounted⟩ := Failure.Blames.exists_miscounted blames several
      exact ⟨start, row, origin, same, miscounted⟩
  · intro β _ top after failure skipped stepped
    obtain ⟨more, -, final, run, rfl, -⟩ := form_of_failed (congrArg Prod.fst stepped)
    have blames : failure.Blames top.session.advance final := Session.form_diagnosed run
    constructor
    · exact blames.at_current
    · intro several
      obtain ⟨row, same, miscounted⟩ := blames.exists_miscounted several
      obtain ⟨rest, ahead⟩ := List.head?_eq_some_iff.1 final.head_toList
      refine ⟨top.session.current, row, rest, ?_, miscounted⟩
      have front := Session.eq_prepend_advance more
      rw [same, ← Session.prepend_append] at front
      rw [← ahead, front, Session.toList_prepend]
      rfl

theorem failures_point_at_skipped_token_of_prototype :
    let place (column : UInt32) : Position := ⟨"shell", 1, column⟩
    let token (column : UInt32) (kind : Token.Kind) : Token := ⟨kind, ⟨place column, place column⟩⟩
    let row : List Token := [token 5 (.keyword .binaryWord), token 12 (.symbol '|'),
      token 14 (.symbol '('), token 15 (.identifier "a"), token 16 (.symbol ')')]
    let top : Toplevel Recorder :=
      .start (.start ⟨token 1 (.keyword .defWord) :: row ++ [token 18 (.symbol '('),
        token 19 (.symbol ',')], place 20, none⟩ .builtin) (.fresh true []) none
    let count : Failure := ⟨.wrongArity '|' 2 1, place 5⟩
    let comma : Failure := ⟨.noExpression ",", place 19⟩
    let later := top.step.2
    top.step.1 = .failed (some count) (token 18 (.symbol '(')) ∧
      (∃ first front rest, top.session.tokens.toList =
        first :: front ++ token 18 (.symbol '(') :: rest ∧ Grammar.Miscounted front count) ∧
      later.step.1 = .failed (some comma) (token 19 (.symbol ',')) ∧
      comma.position = (token 19 (.symbol ',')).span.start ∧
      ∀ text ∈ comma.fault.quoted?, text = (token 19 (.symbol ',')).text := by
  intro place token row top count comma later
  obtain ⟨-, steps⟩ := failures_point_at_skipped_token
  have first : top.step = (.failed (some count) (token 18 (.symbol '(')), top.step.2) := by rfl
  have second : later.step = (.failed (some comma) (token 19 (.symbol ',')), later.step.2) := by rfl
  obtain ⟨position, text⟩ := (steps Recorder later _ comma _ second).1 rfl
  exact ⟨rfl, (steps Recorder top _ count _ first).2 rfl, rfl, position, text⟩

variable {β : Type} [Backend β] {start top : Toplevel β}

theorem regular_of_reachable (regular : start.session.tokens.Regular)
    (reached : Reachable start top) : top.session.tokens.Regular := by
  induction reached with
  | start => exact regular
  | step reached ih =>
    obtain ⟨row, -, next⟩ := exists_takes ih
    exact next
  | prompt reached ih => exact ih

/-- From the end of the input on, every step finishes and changes nothing. -/
theorem finished_of_reachable (ended : start.session.current.kind = .endOfInput)
    (reached : Reachable start top) : top.step = (.finished, top) := by
  have still : top.session.current.kind = .endOfInput := by
    induction reached with
    | start => exact ended
    | @step top reached ih =>
      rw [step_of_finished (finished_iff.2 ih)]
      exact ih
    | prompt reached ih => exact ih
  exact step_of_finished (finished_iff.2 still)

theorem step_of_failed {failure : Failure} {after : Session}
    (more : top.session.current.kind ≠ .endOfInput)
    (plain : top.session.current.kind ≠ .symbol ';')
    (run : top.session.form = (.failed failure, after)) :
    top.step = top.recover after (some failure) := by
  rw [step_of_form more plain, run]

/-- The top level on input that is cut short behind `count` tokens. -/
def truncated (top : Toplevel β) (count : Nat) (ending : Position) (error : Option ReadError) :
    Toplevel β :=
  { top with session := top.session.upon (top.session.tokens.truncated count ending error) }

/-- The fault of a token is found before the end of the input, so it is found in the whole input
too. -/
theorem step_of_truncated {count : Nat} {ending : Position} {error : Option ReadError}
    {failure : Failure} {skipped : Token}
    (failed : (top.truncated count ending error).step.1 = .failed (some failure) skipped)
    (single : failure.fault.isOfToken = true) : top.step.1 = .failed (some failure) skipped := by
  obtain ⟨more, plain, final, run, rfl, -⟩ := form_of_failed failed
  have visible := (Session.form_diagnosed run : failure.Blames _ final).more single
  obtain ⟨behind, whole, first, last⟩ := Session.form_of_truncated run more visible
  have stepped : top.step = top.recover (final.upon behind) (some failure) :=
    step_of_failed (by rw [first]; exact more) (by rw [first]; exact plain) whole
  rw [stepped, last]
  rfl

/-- Input that ends inside a form ends the run. -/
theorem ended_of_incomplete {skipped : Token} (regular : top.session.tokens.Regular)
    (failed : top.step.1 = .failed none skipped) :
    skipped.kind = .endOfInput ∧ top.step.2.session.current.kind = .endOfInput := by
  obtain ⟨-, -, final, run, rfl, next⟩ := form_of_failed failed
  have ended : final.current.kind = .endOfInput := Session.form_diagnosed run
  obtain ⟨row, same⟩ := top.session.exists_prepend_form
  rw [run] at same
  have none := (Session.regular_of_prepend regular same).2.ahead_of_ended ended
  refine ⟨ended, ?_⟩
  rw [next, Session.advance_of_ahead_nil none]
  exact ended

/-- The end of the input is told apart from every fault. A reading step is incomplete only there,
and fails there only for a wrong number of parameters or for too much nesting; the backend's fault
is never one of reading. So in every run a form that is incomplete is the last one, and the fault of
a token is found with that token still ahead. Input that is cut short anywhere brings no such fault
that the whole input does not bring in the same place. -/
theorem end_of_input_is_no_fault :
    (∀ (α : Type) (production : Production α) (session after : Session) (outcome : Outcome α),
      production.read session = (outcome, after) →
        (outcome = .incomplete → after.current.kind = .endOfInput) ∧
        ∀ failure, outcome = .failed failure →
          (∀ reason, failure.fault ≠ .backend reason) ∧
          (after.current.kind = .endOfInput →
            failure.fault.isOfCount = true ∨ ∃ limit, failure.fault = .tooDeep limit)) ∧
    (∀ (β : Type) [Backend β] (input : Input) (source : Option String) (operators : OperatorTable)
      (backend : β) (prompt : Option String) (top : Toplevel β),
      Reachable (.start (.start (.ofLexer (.ofInput input source)) operators) backend prompt) top →
        (∀ skipped, top.step.1 = .failed none skipped →
          skipped.kind = .endOfInput ∧
          ∀ later, Reachable top.step.2 later → later.step = (.finished, later)) ∧
        (∀ failure skipped, top.step.1 = .failed (some failure) skipped →
          failure.fault.isOfToken = true → skipped.kind ≠ .endOfInput) ∧
        ∀ count ending error failure skipped,
          (top.truncated count ending error).step.1 = .failed (some failure) skipped →
            failure.fault.isOfToken = true → top.step.1 = .failed (some failure) skipped) := by
  constructor
  · intro α production session after outcome run
    obtain ⟨begin, -, diagnosed⟩ := production.exists_diagnosed run
    constructor
    · rintro rfl
      exact diagnosed
    · rintro failure rfl
      have blames : failure.Blames begin after := diagnosed
      exact ⟨blames.ne_backend, blames.of_ended⟩
  · intro β _ input source operators backend prompt top reached
    have regular := regular_of_reachable (TokenStream.regular_ofLexer _) reached
    refine ⟨?_, ?_, ?_⟩
    · intro skipped failed
      obtain ⟨ended, still⟩ := ended_of_incomplete regular failed
      exact ⟨ended, fun later further => finished_of_reachable still further⟩
    · intro failure skipped failed single
      obtain ⟨-, -, final, run, rfl, -⟩ := form_of_failed failed
      have blames : failure.Blames _ final := Session.form_diagnosed run
      exact blames.more single
    · intro count ending error failure skipped failed single
      exact step_of_truncated failed single

theorem end_of_input_is_no_fault_of_parenthesis :
    let stream (row : List Char) : TokenStream := .ofLexer (.ofInput ⟨[row], none⟩ none)
    let start (tokens : TokenStream) : Toplevel Recorder :=
      .start (.start tokens .builtin) (.fresh true []) none
    let place (column : UInt32) : Position := ⟨"shell", 1, column⟩
    let token (column : UInt32) (kind : Token.Kind) : Token :=
      ⟨kind, ⟨place column, place (column + 1)⟩⟩
    let unclosed := start (stream ['(', 'x', '+'])
    let separated := start (stream ['(', 'x', ',', 'y'])
    let fault : Fault := .misplaced "," "expected `)`"
    unclosed.step.1 = .failed none (.endAt (place 4)) ∧
      unclosed.step.2.showPrompt.step = (.finished, unclosed.step.2.showPrompt) ∧
      (separated.truncated 3 .nowhere none).step.1 =
        .failed (some ⟨fault, place 3⟩) (token 3 (.symbol ',')) ∧
      separated.step.1 = .failed (some ⟨fault, place 3⟩) (token 3 (.symbol ',')) ∧
      (token 3 (.symbol ',')).kind ≠ .endOfInput := by
  intro stream start place token unclosed separated fault
  obtain ⟨-, runs⟩ := end_of_input_is_no_fault
  have first : stream ['(', 'x', '+'] = ⟨[token 1 (.symbol '('), token 2 (.identifier "x"),
      token 3 (.symbol '+')], place 4, none⟩ := by decide +kernel
  have second : stream ['(', 'x', ',', 'y'] = ⟨[token 1 (.symbol '('), token 2 (.identifier "x"),
      token 3 (.symbol ','), token 4 (.identifier "y")], place 5, none⟩ := by decide +kernel
  have incomplete : unclosed.step.1 = .failed none (.endAt (place 4)) := by
    show (start (stream ['(', 'x', '+'])).step.1 = _
    rw [first]
    rfl
  have cut : (separated.truncated 3 .nowhere none).step.1 =
      .failed (some ⟨fault, place 3⟩) (token 3 (.symbol ',')) := by
    show ((start (stream ['(', 'x', ',', 'y'])).truncated 3 .nowhere none).step.1 = _
    rw [second]
    rfl
  obtain ⟨last, -, -⟩ :=
    runs Recorder ⟨[['(', 'x', '+']], none⟩ none .builtin _ none unclosed .start
  obtain ⟨-, later⟩ := last _ incomplete
  obtain ⟨-, visible, whole⟩ :=
    runs Recorder ⟨[['(', 'x', ',', 'y']], none⟩ none .builtin _ none separated .start
  have failed := whole 3 .nowhere none _ _ cut rfl
  exact ⟨incomplete, later _ (.prompt .start), cut, failed, visible _ _ failed rfl⟩

end Toplevel

end Kaleidoscope
