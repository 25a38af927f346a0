import Kaleidoscope.Proofs.Derivation

set_option autoImplicit false

/- A step that cannot read its form takes what it has read, and one token more. -/

namespace Kaleidoscope

namespace TokenStream

/-- No token before the end of the input is an end itself. -/
def Regular (stream : TokenStream) : Prop :=
  ∀ token ∈ stream.ahead, token.kind ≠ .endOfInput

theorem regular_takeTokens (count : Nat) (lexer : Lexer) :
    ∀ token ∈ (lexer.takeTokens count).1, token.kind ≠ .endOfInput := by
  induction count generalizing lexer with
  | zero => simp [Lexer.takeTokens]
  | succ count ih =>
    unfold Lexer.takeTokens
    by_cases ended : lexer.next.1.isEnd
    · simp [ended]
    · have more : lexer.next.1.kind ≠ .endOfInput := by simpa using ended
      simp only [ended, Bool.false_eq_true, ↓reduceIte, List.forall_mem_cons]
      exact ⟨more, ih lexer.next.2⟩

theorem regular_ofLexer (lexer : Lexer) : (ofLexer lexer).Regular := by
  unfold Regular ofLexer
  exact regular_takeTokens _ lexer

/-- Without the end of the input, all tokens of a regular stream are those ahead. -/
theorem filter_toList {stream : TokenStream} (regular : stream.Regular) :
    stream.toList.filter (fun token => !token.isEnd) = stream.ahead := by
  rw [toList, List.filter_append, List.filter_eq_self.2]
  · simp [Token.isEnd]
  · intro token inside
    simpa [Token.isEnd] using regular token inside

theorem Regular.ahead_of_ended {stream : TokenStream} (regular : stream.Regular)
    (ended : stream.current.kind = .endOfInput) : stream.ahead = [] := by
  rcases stream with ⟨_ | ⟨token, ahead⟩, ending, failure⟩
  · rfl
  · exact absurd ended (regular token List.mem_cons_self)

end TokenStream

namespace Grammar

variable {operators : OperatorTable}

theorem Derives.ne_nil {level : Level} {row : List Token.Kind} {tree : Expr} :
    Derives operators level row tree → row ≠ []
  | .number _ | .reference _ | .call _ _ | .parenthesized _ | .conditional _ _ _
  | .loop _ _ _ _ _ | .scope _ _ | .prefixed _ _ _ | .binary _ _ _ => by simp
  | .plain only | .single only => only.ne_nil

theorem DerivesForm.ne_nil {row : List Token.Kind} {form : Form}
    (derived : DerivesForm operators row form) : row ≠ [] := by
  cases derived with
  | definition named inside => simp
  | declaration named => simp
  | expression only => exact only.ne_nil

end Grammar

namespace Session

variable {session after : Session} {row : List Token}

/-- A form that is read takes at least one token. -/
theorem ne_nil_of_form {form : Form} (run : session.form = (.parsed form, after))
    (same : session = after.prepend row) : row ≠ [] := by
  have yields := form_yields session
  unfold Parser.Yields at yields
  rw [run] at yields
  obtain ⟨taken, alike, derived⟩ := yields
  rintro rfl
  rw [prepend_nil] at same
  have level : session.tokens.ahead = taken ++ after.tokens.ahead :=
    congrArg (fun front : Session => front.tokens.ahead) alike
  have none : taken = [] := by simpa [same] using level
  exact (derived form rfl).ne_nil (by simp [none])

/-- Reading a form never goes back, whatever comes of it. -/
theorem exists_prepend_form (session : Session) : ∃ row, session = session.form.2.prepend row := by
  obtain ⟨row, same, -⟩ := form_yields session
  exact ⟨row, same⟩

theorem regular_of_prepend (regular : session.tokens.Regular) (same : session = after.prepend row) :
    (∀ token ∈ row, token.kind ≠ .endOfInput) ∧ after.tokens.Regular := by
  rw [same] at regular
  exact List.forall_mem_append.1 regular

/-- The current token as a row, which is empty at the end of the input. -/
def skipped (session : Session) : List Token :=
  [session.current].filter fun token => !token.isEnd

theorem skipped_of_more (more : session.current.kind ≠ .endOfInput) :
    session.skipped = [session.current] := by
  simp [skipped, Token.isEnd, more]

/-- Moving past the current token of a regular stream takes that token, if there is one. -/
theorem eq_prepend_skipped (regular : session.tokens.Regular) :
    session = session.advance.prepend session.skipped := by
  by_cases more : session.current.kind = .endOfInput
  · rcases session with ⟨⟨_ | ⟨token, ahead⟩, ending, failure⟩, operators, depth, limit⟩
    · rfl
    · exact absurd more (regular token List.mem_cons_self)
  · rw [skipped_of_more more]
    exact eq_prepend_advance more

/-- The row of tokens that a step takes from the session on, by what the step comes to. A form that
was read is all that is taken, whether it is used or refused. Behind what was read of a form that
could not be read, the token that is current there is taken too. -/
inductive TakenBy (session : Session) : Step → List Token → Prop where
  | finished : TakenBy session .finished []
  | separator : TakenBy session .separator [session.current]
  | accepted {form : Form} {after : Session} {row : List Token}
      (run : session.form = (.parsed form, after)) (same : session = after.prepend row) :
      TakenBy session (.accepted form) row
  | rejected {form : Form} {failure : Failure} {after : Session} {row : List Token}
      (run : session.form = (.parsed form, after)) (same : session = after.prepend row) :
      TakenBy session (.rejected form failure) row
  | failed {failure : Option Failure} {after : Session} {row : List Token}
      (run : session.form = (failure.elim .incomplete .failed, after))
      (same : session = after.prepend row) :
      TakenBy session (.failed failure after.current) (row ++ after.skipped)

theorem exists_takenBy_of_failed (failure : Option Failure) (regular : session.tokens.Regular)
    (run : session.form = (failure.elim .incomplete .failed, after)) :
    ∃ row, session.TakenBy (.failed failure after.current) row ∧
      session = after.advance.prepend row := by
  obtain ⟨row, same⟩ := session.exists_prepend_form
  rw [run] at same
  have behind := eq_prepend_skipped (regular_of_prepend regular same).2
  refine ⟨row ++ after.skipped, .failed run same, ?_⟩
  rw [prepend_append, ← behind]
  exact same

/-- Only a step that finishes takes nothing. -/
theorem TakenBy.ne_nil {step : Step} (taken : session.TakenBy step row)
    (more : session.current.kind ≠ .endOfInput) (continues : step ≠ .finished) : row ≠ [] := by
  cases taken with
  | finished => exact absurd rfl continues
  | separator => simp
  | accepted run same => exact ne_nil_of_form run same
  | rejected run same => exact ne_nil_of_form run same
  | @failed failure after front run same =>
    cases front with
    | cons token front => simp
    | nil =>
      rw [prepend_nil] at same
      rw [← same, skipped_of_more more]
      simp

end Session

namespace Toplevel

variable {β : Type} [Backend β]

/-- The row is what the step takes of the tokens ahead. A step finishes exactly at the end of the
input, and exactly the other steps take tokens. -/
structure Takes (top : Toplevel β) (row : List Token) : Prop where
  ahead : top.session.tokens.ahead = row ++ top.step.2.session.tokens.ahead
  regular : ∀ token ∈ row, token.kind ≠ .endOfInput
  origin : top.session.TakenBy top.step.1 row
  finished : top.step.1 = .finished ↔ top.session.current.kind = .endOfInput
  progress : top.step.1 ≠ .finished ↔ row ≠ []

variable {top : Toplevel β}

theorem finished_iff : top.step.1 = .finished ↔ top.session.current.kind = .endOfInput := by
  have taken := top.dispatch
  generalize top.step = result at taken ⊢
  cases taken with
  | finished ended => simp [ended]
  | separator seen => simp [seen]
  | @submitted form session more plain run =>
    rcases top.submit_cases session form with used | ⟨failure, refused⟩
    · simp [used, more]
    · simp [refused, more]
  | incomplete more plain run => simp [recover, more]
  | failed more plain run => simp [recover, more]

/-- The session from which a step reads is the one behind it with the row before it, up to the
operators in force, which the backend may change. -/
theorem exists_takenBy (regular : top.session.tokens.Regular) :
    ∃ row after, top.session.TakenBy top.step.1 row ∧ top.session = Session.prepend after row ∧
      top.step.2.session.tokens = after.tokens := by
  have taken := top.dispatch
  generalize top.step = result at taken ⊢
  cases taken with
  | finished ended => exact ⟨[], top.session, .finished, rfl, rfl⟩
  | separator seen =>
    have same := Session.eq_prepend_advance (Session.more_of_kind seen (by simp))
    exact ⟨[top.session.current], top.session.advance, .separator, same, rfl⟩
  | @submitted form session more plain run =>
    obtain ⟨row, same⟩ := top.session.exists_prepend_form
    rw [run] at same
    refine ⟨row, session, ?_, same, ?_⟩
    · rcases top.submit_cases session form with used | ⟨failure, refused⟩
      · rw [used]
        exact .accepted run same
      · rw [refused]
        exact .rejected run same
    · unfold submit
      split <;> rfl
  | @incomplete session more plain run =>
    obtain ⟨row, taken, same⟩ := Session.exists_takenBy_of_failed none regular run
    exact ⟨row, session.advance, taken, same, rfl⟩
  | @failed failure session more plain run =>
    obtain ⟨row, taken, same⟩ := Session.exists_takenBy_of_failed (some failure) regular run
    exact ⟨row, session.advance, taken, same, rfl⟩

theorem exists_takes (regular : top.session.tokens.Regular) :
    ∃ row, top.Takes row ∧ top.step.2.session.tokens.Regular := by
  obtain ⟨row, after, taken, same, tokens⟩ := exists_takenBy regular
  obtain ⟨front, behind⟩ := Session.regular_of_prepend regular same
  refine ⟨row, ?_, by rw [tokens]; exact behind⟩
  constructor
  · rw [tokens, ← Session.prepend_ahead, ← same]
  · exact front
  · exact taken
  · exact finished_iff
  · constructor
    · intro continues
      exact taken.ne_nil (fun ended => continues (finished_iff.2 ended)) continues
    · intro present finished
      rw [finished] at taken
      cases taken
      exact present rfl

theorem takes_nil_of_finished (finished : top.step.1 = .finished) : top.Takes [] := by
  have stays := step_of_finished finished
  constructor
  · rw [stays]
    rfl
  · simp
  · rw [finished]
    exact .finished
  · exact finished_iff
  · simp [finished]

/-- From any state on, the steps up to the end of the input take all tokens ahead, each of them at
least one. -/
theorem exists_rows (top : Toplevel β) (regular : top.session.tokens.Regular) :
    ∃ rows : List (List Token), rows.flatten = top.session.tokens.ahead ∧
      rows.length ≤ top.session.tokens.ahead.length ∧
      (∀ index row, rows[index]? = some row →
        (top.runFor index).step.1 ≠ .finished ∧ (top.runFor index).Takes row) ∧
      (top.runFor rows.length).step.1 = .finished := by
  induction size : top.session.tokens.ahead.length using Nat.strongRecOn generalizing top with
  | ind count ih =>
    obtain ⟨row, takes, next⟩ := exists_takes regular
    by_cases finished : top.step.1 = .finished
    · have none := regular.ahead_of_ended (finished_iff.1 finished)
      exact ⟨[], none.symm, by simp, by simp, finished⟩
    · have present := List.length_pos_iff.2 (takes.progress.1 finished)
      have moved : top.session.tokens.ahead = row ++ (top.runFor 1).session.tokens.ahead := by
        rw [(runFor_one top).1]
        exact takes.ahead
      have total := congrArg List.length moved
      rw [List.length_append] at total
      obtain ⟨rows, whole, bound, steps, last⟩ := ih _ (by omega) (top.runFor 1)
        (by rw [(runFor_one top).1]; exact next) rfl
      have later : ∀ index, top.runFor (index + 1) = (top.runFor 1).runFor index := by
        intro index
        rw [runFor_succ_of_not_finished finished, runFor_succ_of_not_finished finished]
        rfl
      refine ⟨row :: rows, ?_, ?_, ?_, ?_⟩
      · rw [List.flatten_cons, whole, moved]
      · rw [List.length_cons]
        omega
      · intro index taken inside
        cases index with
        | zero =>
          rw [List.getElem?_cons_zero, Option.some.injEq] at inside
          rw [← inside]
          exact ⟨finished, takes⟩
        | succ index =>
          rw [later]
          exact steps index taken (by simpa using inside)
      · rw [List.length_cons, later]
        exact last

/-- A run that has met the end of the input stays where it is. -/
theorem runFor_of_le {top : Toplevel β} {count more : Nat}
    (finished : (top.runFor count).step.1 = .finished) (le : count ≤ more) :
    top.runFor more = top.runFor count := by
  induction le with
  | refl => rfl
  | step _ ih => rw [runFor_succ, ih, runFor_of_finished finished]

/-- For every input, table of operators and backend, a run ends: after as many steps as there are
rows, and no more than there are tokens, the end of the input is current and every further step
finishes without taking anything. Every step before takes at least one token, and the rows that the
steps take are, in order, the tokens of the input. -/
theorem run_partitions_tokens (input : Input) (source : Option String) (operators : OperatorTable)
    (backend : β) (prompt : Option String) :
    let tokens := (input.tokens source).filter fun token => !token.isEnd
    let top : Toplevel β :=
      .start (.start (.ofLexer (.ofInput input source)) operators) backend prompt
    ∃ rows : List (List Token), rows.flatten = tokens ∧ rows.length ≤ tokens.length ∧
      (∀ index row, rows[index]? = some row →
        (top.runFor index).step.1 ≠ .finished ∧ (top.runFor index).Takes row) ∧
      ∀ count, rows.length ≤ count → top.runFor count = top.run ∧
        top.run.step = (.finished, top.run) ∧ top.run.Takes [] := by
  intro tokens top
  have regular : top.session.tokens.Regular := TokenStream.regular_ofLexer _
  have same : tokens = top.session.tokens.ahead := TokenStream.filter_toList regular
  obtain ⟨rows, whole, bound, steps, last⟩ := exists_rows top regular
  refine ⟨rows, by rw [same, whole], by rw [same]; exact bound, steps, ?_⟩
  have final : top.run = top.runFor rows.length :=
    runFor_of_le last (Nat.le_succ_of_le bound)
  rw [← final] at last
  intro count enough
  refine ⟨?_, step_of_finished last, takes_nil_of_finished last⟩
  rw [final]
  exact runFor_of_le (final ▸ last) enough

end Toplevel

end Kaleidoscope
