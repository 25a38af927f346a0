import Kaleidoscope.Toplevel.Run

set_option autoImplicit false

namespace Kaleidoscope

namespace Toplevel

variable {β : Type} [Backend β]

/-- What a step can do: nothing at the end of the input, pass over a semicolon, hand over a form
that was read, or pass over one token behind a form that was not. -/
inductive Dispatch (top : Toplevel β) : Step × Toplevel β → Prop where
  | finished (ended : top.session.current.kind = .endOfInput) : Dispatch top (.finished, top)
  | separator (seen : top.session.current.kind = .symbol ';') :
      Dispatch top (.separator, { top with session := top.session.advance })
  | submitted {form : Form} {session : Session}
      (more : top.session.current.kind ≠ .endOfInput)
      (plain : top.session.current.kind ≠ .symbol ';')
      (run : top.session.form = (.parsed form, session)) : Dispatch top (top.submit session form)
  | incomplete {session : Session} (more : top.session.current.kind ≠ .endOfInput)
      (plain : top.session.current.kind ≠ .symbol ';')
      (run : top.session.form = (.incomplete, session)) : Dispatch top (top.recover session none)
  | failed {failure : Failure} {session : Session}
      (more : top.session.current.kind ≠ .endOfInput)
      (plain : top.session.current.kind ≠ .symbol ';')
      (run : top.session.form = (.failed failure, session)) :
      Dispatch top (top.recover session (some failure))

theorem dispatch (top : Toplevel β) : Dispatch top top.step := by
  unfold step
  by_cases ended : top.session.atEnd
  · simp only [ended, ↓reduceIte]
    exact .finished (by simpa [Session.atEnd] using ended)
  by_cases seen : top.session.sees ';'
  · simp only [ended, seen, Bool.false_eq_true, ↓reduceIte]
    exact .separator (by simpa [Session.sees] using seen)
  have more : top.session.current.kind ≠ .endOfInput := by simpa [Session.atEnd] using ended
  have plain : top.session.current.kind ≠ .symbol ';' := by simpa [Session.sees] using seen
  simp only [ended, seen, Bool.false_eq_true, ↓reduceIte]
  split
  next run => exact .submitted more plain run
  next run => exact .incomplete more plain run
  next run => exact .failed more plain run

theorem step_of_separator {top : Toplevel β} (seen : top.session.current.kind = .symbol ';') :
    top.step = (.separator, { top with session := top.session.advance }) := by
  have unended : top.session.atEnd = false := by simp [Session.atEnd, Token.isEnd, seen]
  have separated : top.session.sees ';' = true := by simp [Session.sees, seen]
  simp [step, unended, separated]

/-- Where a form starts, the step is settled by reading it. -/
theorem step_of_form {top : Toplevel β} (more : top.session.current.kind ≠ .endOfInput)
    (plain : top.session.current.kind ≠ .symbol ';') :
    top.step = match top.session.form with
      | (.parsed form, session) => top.submit session form
      | (.incomplete, session) => top.recover session none
      | (.failed failure, session) => top.recover session (some failure) := by
  have unended : top.session.atEnd = false := by simpa [Session.atEnd, Token.isEnd] using more
  have unseparated : top.session.sees ';' = false := by simpa [Session.sees] using plain
  rcases run : top.session.form with ⟨outcome, session⟩
  cases outcome <;> simp [step, unended, unseparated, run]

theorem submit_of_used {top : Toplevel β} {session : Session} {form : Form}
    (used : (Backend.accept top.backend form session.operators).refusal = none) :
    top.submit session form = (.accepted form,
      { top with
        session := { session with
          operators := (Backend.accept top.backend form session.operators).operators }
        backend := (Backend.accept top.backend form session.operators).backend
        summary := top.summary.countForm form }) := by
  unfold submit
  generalize Backend.accept top.backend form session.operators = reaction at used ⊢
  obtain ⟨refusal, backend, operators⟩ := reaction
  subst used
  rfl

/-- A step that hands a form over ends in one of two ways. -/
theorem submit_cases (top : Toplevel β) (session : Session) (form : Form) :
    (top.submit session form).1 = .accepted form ∨
      ∃ failure, (top.submit session form).1 = .rejected form failure := by
  unfold submit
  split
  · exact .inl rfl
  next failure _ _ _ => exact .inr ⟨failure, rfl⟩

theorem operators_submit (top : Toplevel β) (session : Session) (form : Form) :
    (top.submit session form).2.session.operators =
      (Backend.accept top.backend form session.operators).operators := by
  unfold submit
  split <;> simp [*]

/-- Only the end of the input finishes a run, and it changes nothing. -/
theorem step_of_finished {top : Toplevel β} (finished : top.step.1 = .finished) :
    top.step = (.finished, top) := by
  have taken := top.dispatch
  generalize top.step = result at finished taken ⊢
  cases taken with
  | finished ended => rfl
  | separator seen => cases finished
  | submitted more plain run =>
    rcases top.submit_cases _ _ with used | ⟨failure, refused⟩
    · rw [used] at finished
      cases finished
    · rw [refused] at finished
      cases finished
  | incomplete more plain run => cases finished
  | failed more plain run => cases finished

theorem runFor_of_finished {top : Toplevel β} (finished : top.step.1 = .finished) (count : Nat) :
    top.runFor count = top := by
  cases count with
  | zero => rfl
  | succ count => simp [runFor, step_of_finished finished]

/-- The state behind a step that does not finish the run, as the next step finds it. -/
theorem runFor_succ_of_not_finished {top : Toplevel β} (continues : top.step.1 ≠ .finished)
    (count : Nat) :
    top.runFor (count + 1) =
      (if top.step.1.wantsPrompt then top.step.2.showPrompt else top.step.2).runFor count := by
  rw [runFor]
  split
  next after run =>
    rw [run] at continues
    exact absurd rfl continues
  next step after _ run => simp [run]

/-- A run is one step more than the run before it. -/
theorem runFor_succ (top : Toplevel β) (count : Nat) :
    top.runFor (count + 1) = (top.runFor count).runFor 1 := by
  induction count generalizing top with
  | zero => rfl
  | succ count hypothesis =>
    by_cases finished : top.step.1 = .finished
    · simp only [runFor_of_finished finished]
    · rw [runFor_succ_of_not_finished finished, hypothesis, ← runFor_succ_of_not_finished finished]

theorem runFor_add (top : Toplevel β) (count more : Nat) :
    top.runFor (count + more) = (top.runFor count).runFor more := by
  induction more with
  | zero => rfl
  | succ more hypothesis => rw [← Nat.add_assoc, runFor_succ, hypothesis, ← runFor_succ]

/-- The prompt shows, and changes nothing else. -/
theorem runFor_one (top : Toplevel β) :
    (top.runFor 1).session = top.step.2.session ∧ (top.runFor 1).backend = top.step.2.backend ∧
      (top.runFor 1).summary = top.step.2.summary := by
  by_cases finished : top.step.1 = .finished
  · simp [runFor_of_finished finished, step_of_finished finished]
  · rw [runFor_succ_of_not_finished finished]
    split <;> exact ⟨rfl, rfl, rfl⟩

theorem session_runFor_succ (top : Toplevel β) (count : Nat) :
    (top.runFor (count + 1)).session = (top.runFor count).step.2.session := by
  rw [runFor_succ, (runFor_one _).1]

theorem backend_runFor_succ (top : Toplevel β) (count : Nat) :
    (top.runFor (count + 1)).backend = (top.runFor count).step.2.backend := by
  rw [runFor_succ, (runFor_one _).2.1]

theorem summary_runFor_succ (top : Toplevel β) (count : Nat) :
    (top.runFor (count + 1)).summary = (top.runFor count).step.2.summary := by
  rw [runFor_succ, (runFor_one _).2.2]

/-- The first steps of a run. -/
def history (top : Toplevel β) (count : Nat) : List Step :=
  (List.range count).map fun index => (top.runFor index).step.1

@[simp]
theorem history_zero (top : Toplevel β) : top.history 0 = [] := rfl

theorem history_succ (top : Toplevel β) (count : Nat) :
    top.history (count + 1) = top.history count ++ [(top.runFor count).step.1] := by
  simp [history, List.range_succ]

theorem history_add (top : Toplevel β) (count more : Nat) :
    top.history (count + more) = top.history count ++ (top.runFor count).history more := by
  induction more with
  | zero => simp
  | succ more hypothesis =>
    rw [← Nat.add_assoc, history_succ, hypothesis, history_succ, runFor_add, List.append_assoc]

theorem history_of_finished {top : Toplevel β} (finished : top.step.1 = .finished) (count : Nat) :
    top.history count = List.replicate count .finished := by
  simp [history, runFor_of_finished finished, finished, List.map_const']

end Toplevel

end Kaleidoscope
