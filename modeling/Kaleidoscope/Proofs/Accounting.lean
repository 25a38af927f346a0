import Kaleidoscope.Proofs.Partition
import Mathlib.Algebra.BigOperators.Group.List.Basic

set_option autoImplicit false

namespace Kaleidoscope

attribute [ext] Summary

namespace Summary

instance : Zero Summary := ⟨.none⟩

instance : Add Summary where
  add summary other :=
    { definitions := summary.definitions + other.definitions
      declarations := summary.declarations + other.declarations
      expressions := summary.expressions + other.expressions
      rejected := summary.rejected + other.rejected
      failures := summary.failures + other.failures }

instance : AddCommMonoid Summary where
  add_assoc _ _ _ := by ext <;> exact Nat.add_assoc _ _ _
  zero_add _ := by ext <;> exact Nat.zero_add _
  add_zero _ := by ext <;> exact Nat.add_zero _
  add_comm _ _ := by ext <;> exact Nat.add_comm _ _
  nsmul := nsmulRec

theorem countForm_eq (summary : Summary) (form : Form) :
    summary.countForm form = summary + none.countForm form := by
  cases form <;> rfl

end Summary

namespace Step

/-- What a step adds to the summary. -/
def tally : Step → Summary
  | separator => 0
  | accepted form => Summary.none.countForm form
  | rejected _ _ => Summary.none.countRejected
  | failed _ _ => Summary.none.countFailure
  | finished => 0

/-- The form that a step hands to the backend. -/
def form? : Step → Option Form
  | accepted form => some form
  | rejected form _ => some form
  | _ => none

end Step

namespace Toplevel

variable {β : Type} [Backend β]

theorem summary_submit (top : Toplevel β) (session : Session) (form : Form) :
    (top.submit session form).2.summary = top.summary + (top.submit session form).1.tally := by
  unfold submit
  split
  · exact top.summary.countForm_eq form
  · rfl

theorem summary_step (top : Toplevel β) :
    top.step.2.summary = top.summary + top.step.1.tally := by
  have taken := top.dispatch
  generalize top.step = result at taken ⊢
  cases taken with
  | finished ended => rfl
  | separator seen => rfl
  | submitted more plain run => exact top.summary_submit _ _
  | incomplete more plain run => rfl
  | failed more plain run => rfl

theorem summary_runFor (top : Toplevel β) (count : Nat) :
    (top.runFor count).summary = top.summary + ((top.history count).map Step.tally).sum := by
  induction count with
  | zero => rfl
  | succ count hypothesis =>
    rw [summary_runFor_succ, summary_step, hypothesis, history_succ, List.map_append,
      List.sum_append, List.map_singleton, List.sum_singleton, add_assoc]

/-- The steps of a run to the end of the input. -/
def steps (top : Toplevel β) : List Step :=
  top.history (top.session.remaining + 1)

/-- The forms that a run to the end of the input hands to the backend, in order. -/
def forms (top : Toplevel β) : List Form :=
  top.steps.filterMap Step.form?

variable {top : Toplevel β} {count : Nat}

/-- A run meets the end of the input for the first time after some number of steps, and there are no
more of them than tokens. -/
theorem exists_finished (regular : top.session.tokens.Regular) :
    ∃ count ≤ top.session.remaining, (top.runFor count).step.1 = .finished ∧
      ∀ index < count, (top.runFor index).step.1 ≠ .finished := by
  obtain ⟨rows, -, bound, steps, last⟩ := exists_rows top regular
  refine ⟨rows.length, bound, last, ?_⟩
  intro index less
  exact (steps index _ (List.getElem?_eq_getElem less)).1

/-- However long a run goes on, it takes no step but those up to the end of the input. -/
theorem mem_steps (regular : top.session.tokens.Regular) (index : Nat) :
    (top.runFor index).step.1 ∈ top.steps := by
  obtain ⟨count, bound, last, -⟩ := exists_finished regular
  have reached : top.runFor index = top.runFor (min index count) := by
    rcases Nat.le_total index count with le | le
    · rw [Nat.min_eq_left le]
    · rw [Nat.min_eq_right le, runFor_of_le last le]
  rw [reached]
  exact List.mem_map_of_mem (List.mem_range.2 (by omega))

theorem run_of_finished (finished : (top.runFor count).step.1 = .finished)
    (enough : count ≤ top.session.remaining + 1) : top.run = top.runFor count :=
  runFor_of_le finished enough

theorem steps_of_finished (finished : (top.runFor count).step.1 = .finished)
    (enough : count ≤ top.session.remaining + 1) :
    ∃ more, top.steps = top.history count ++ List.replicate more .finished := by
  obtain ⟨more, whole⟩ := Nat.exists_eq_add_of_le enough
  exact ⟨more, by rw [steps, whole, history_add, history_of_finished finished]⟩

theorem forms_of_finished (finished : (top.runFor count).step.1 = .finished)
    (enough : count ≤ top.session.remaining + 1) :
    top.forms = (top.history count).filterMap Step.form? := by
  obtain ⟨more, whole⟩ := steps_of_finished finished enough
  rw [forms, whole, List.filterMap_append, List.filterMap_replicate_of_none rfl, List.append_nil]

end Toplevel

end Kaleidoscope
