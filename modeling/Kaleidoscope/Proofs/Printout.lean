import Kaleidoscope.Proofs.Lockstep

set_option autoImplicit false

namespace Kaleidoscope

/-- One line of what the printer writes. -/
inductive Notice where
  | statement (text : String)
  /-- Where a form could not be read. -/
  | place (position : Position)
  deriving DecidableEq

namespace Notice

def line : Notice → String
  | statement text => text
  | place position => "-> " ++ position.text

/-- Notices as they are written, each with its line feed. -/
def printout (notices : List Notice) : String :=
  String.join (notices.map fun notice => notice.line ++ "\n")

@[simp]
theorem printout_nil : printout [] = "" := rfl

@[simp]
theorem printout_cons (notice : Notice) (notices : List Notice) :
    printout (notice :: notices) = notice.line ++ "\n" ++ printout notices := by
  simp [printout]

theorem printout_append (first second : List Notice) :
    printout (first ++ second) = printout first ++ printout second := by
  simp [printout]

end Notice

open Notice

/-- What is written about a form that was not used. -/
def failureNotices : Option Failure → List Notice
  | none => [statement unfinishedReport]
  | some failure =>
    [statement ("Error: " ++ failure.fault.title ++ " (" ++
        failure.fault.tip?.getD failure.fault.message ++ ")"),
      place failure.position]

theorem printout_failureNotices (failure : Option Failure) :
    printout (failureNotices failure) = failureReport failure ++ "\n" := by
  cases failure with
  | none => rfl
  | some failure =>
    have joined (text : String) : ")\n" ++ ("-> " ++ text) = ")\n-> " ++ text := by
      rw [← String.append_assoc]
      rfl
    simp [failureNotices, failureReport, Failure.report, line, String.append_assoc, joined]

/-- What is written about a form that is used. -/
def formNotices (form : Form) : List Notice :=
  statement (Printer.announcement form) ::
    match form with
    | .definition given =>
      if (OperatorTable.empty.declare? given.prototype).isSome then
        [statement (Printer.registration given.prototype)]
      else []
    | _ => []

/-- What is written about a step when no form is refused. -/
def Step.notices : Step → List Notice
  | accepted form => formNotices form
  | failed failure _ => failureNotices failure
  | _ => []

/-- Whether a prototype declares an operator does not hang on the table. -/
theorem OperatorTable.isSome_declare? (table other : OperatorTable) (prototype : Prototype) :
    (table.declare? prototype).isSome = (other.declare? prototype).isSome := by
  unfold declare?
  split <;> rfl

namespace Sink

variable {sink : Sink}

theorem contents_writeLine (free : sink.capacity = none) (line : String) :
    (sink.writeLine line).2.contents = sink.contents ++ (line ++ "\n").toUTF8 := by
  simp [writeLine, write, free]

end Sink

namespace Printer

variable {printer : Printer}

theorem contents_report (free : printer.sink.capacity = none) (failure : Option Failure) :
    (printer.report failure).sink.contents =
      printer.sink.contents ++ (printout (failureNotices failure)).toUTF8 := by
  rw [printout_failureNotices]
  exact Sink.contents_writeLine free _

theorem contents_accept (free : printer.sink.capacity = none) (form : Form)
    (operators : OperatorTable) :
    (printer.accept form operators).backend.sink.contents =
      printer.sink.contents ++ (printout (formNotices form)).toUTF8 := by
  have first := Sink.contents_writeLine free (announcement form)
  obtain ⟨written, still⟩ := Sink.writeLine_of_unlimited free (announcement form)
  unfold accept
  generalize printer.sink.writeLine (announcement form) = result at first written still
  obtain ⟨refusal, sink⟩ := result
  subst written
  have once : sink.contents =
      printer.sink.contents ++ (printout [statement (announcement form)]).toUTF8 := by
    simpa [line] using first
  cases form with
  | declaration prototype => exact once
  | expression wrapped => exact once
  | definition given =>
    have table := operators.isSome_declare? .empty given.prototype
    have second := Sink.contents_writeLine still (registration given.prototype)
    simp only [introduce]
    cases declared : operators.declare? given.prototype with
    | none =>
      rw [declared] at table
      simpa [formNotices, ← table] using once
    | some extended =>
      rw [declared] at table
      simp only [formNotices, ← table, Option.isSome_some, ↓reduceIte]
      rw [second, once]
      simp [line, String.append_assoc, ByteArray.append_assoc]

end Printer

namespace Toplevel

variable {top : Toplevel Printer}

theorem contents_step (free : top.backend.sink.capacity = none) :
    top.step.2.backend.sink.contents =
      top.backend.sink.contents ++ (printout top.step.1.notices).toUTF8 := by
  have taken := top.dispatch
  generalize top.step = result at taken ⊢
  cases taken with
  | finished ended => simp [Step.notices]
  | separator seen => simp [Step.notices]
  | @submitted form session more plain run =>
    obtain ⟨used, -⟩ := Printer.accept_of_unlimited free form session.operators
    rw [submit_of_used used]
    exact Printer.contents_accept free form session.operators
  | incomplete more plain run => exact Printer.contents_report free none
  | failed more plain run => exact Printer.contents_report free (some _)

/-- Over a run the printer writes about its steps in order. -/
theorem contents_runFor (free : top.backend.sink.capacity = none) (count : Nat) :
    (top.runFor count).backend.sink.contents =
      top.backend.sink.contents ++
        (printout ((top.history count).flatMap Step.notices)).toUTF8 := by
  induction count with
  | zero => simp [runFor]
  | succ count hypothesis =>
    rw [backend_runFor_succ, contents_step (operators_of_runFor free count).2, hypothesis,
      history_succ, List.flatMap_append, List.flatMap_singleton, printout_append]
    simp [ByteArray.append_assoc]

section Prompt

variable {β : Type} [Backend β]

theorem prompt_step (top : Toplevel β) :
    top.step.2.prompt = top.prompt ∧ top.step.2.shown = top.shown := by
  have taken := top.dispatch
  generalize top.step = result at taken ⊢
  cases taken with
  | submitted more plain run =>
    unfold submit
    split <;> exact ⟨rfl, rfl⟩
  | _ => exact ⟨rfl, rfl⟩

theorem prompt_runFor_one (top : Toplevel β) :
    (top.runFor 1).prompt = top.prompt ∧
      (top.runFor 1).shown =
        top.shown ++ if top.step.1.wantsPrompt then top.prompt.getD "" else "" := by
  obtain ⟨prompt, shown⟩ := top.prompt_step
  by_cases finished : top.step.1 = .finished
  · rw [runFor_of_finished finished, finished]
    exact ⟨rfl, String.append_empty.symm⟩
  · rw [runFor_succ_of_not_finished finished]
    by_cases awaited : top.step.1.wantsPrompt
    · simp [runFor, awaited, showPrompt, prompt, shown]
    · simp [runFor, awaited, prompt, shown]

/-- The prompt is shown once for every step after which a form is awaited. -/
theorem shown_runFor (top : Toplevel β) (count : Nat) :
    (top.runFor count).prompt = top.prompt ∧
      (top.runFor count).shown = top.shown ++
        String.join (List.replicate ((top.history count).countP Step.wantsPrompt)
          (top.prompt.getD "")) := by
  induction count with
  | zero => simp [runFor]
  | succ count hypothesis =>
    obtain ⟨prompt, shown⟩ := (top.runFor count).prompt_runFor_one
    rw [hypothesis.1] at prompt shown
    rw [runFor_succ, shown, hypothesis.2, history_succ, List.countP_append, List.countP_singleton,
      List.replicate_add, String.join_append, String.append_assoc]
    refine ⟨prompt, ?_⟩
    split <;> simp

end Prompt

end Toplevel

end Kaleidoscope
