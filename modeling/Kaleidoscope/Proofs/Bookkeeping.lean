import Kaleidoscope.CommandLine.Run
import Kaleidoscope.Proofs.Printout
import Kaleidoscope.Proofs.Refusal
import Kaleidoscope.Proofs.Truncation

set_option autoImplicit false

/- Counters, calls to the backend, prompts and the exit code are kept in different places, and all
of them follow from the steps of a run. The calls of any backend are seen by putting a logged one in
its place, which does the same and writes down what it is asked for. -/

namespace Kaleidoscope

/-- What the top level asks of its backend. -/
inductive Call where
  | accept (form : Form)
  | report (failure : Option Failure)

namespace Call

def isAccept : Call → Bool
  | accept _ => true
  | report _ => false

def report? : Call → Option (Option Failure)
  | accept _ => none
  | report failure => some failure

end Call

/-- A backend with the calls that it has been given, in order. -/
structure Logged (β : Type) where
  inner : β
  calls : List Call

namespace Logged

variable {β : Type} [Backend β]

instance : Backend (Logged β) where
  accept logged form operators :=
    let reaction := Backend.accept logged.inner form operators
    ⟨reaction.refusal, ⟨reaction.backend, logged.calls ++ [.accept form]⟩, reaction.operators⟩
  report logged failure :=
    ⟨Backend.report logged.inner failure, logged.calls ++ [.report failure]⟩

end Logged

namespace Step

/-- The calls that a step makes. -/
def calls : Step → List Call
  | accepted form => [.accept form]
  | rejected form failure => [.accept form, .report (some failure)]
  | failed failure _ => [.report failure]
  | _ => []

/-- What a step reports: the failure with which a form was refused, or what kept it from being
read. -/
def report? : Step → Option (Option Failure)
  | rejected _ failure => some (some failure)
  | failed failure _ => some failure
  | _ => none

def isDefinition : Step → Bool
  | accepted (.definition _) => true
  | _ => false

def isDeclaration : Step → Bool
  | accepted (.declaration _) => true
  | _ => false

def isExpression : Step → Bool
  | accepted (.expression _) => true
  | _ => false

def isRejected : Step → Bool
  | rejected _ _ => true
  | _ => false

def isFailed : Step → Bool
  | failed _ _ => true
  | _ => false

end Step

/-- The steps of each kind, counted. -/
def Summary.ofSteps (steps : List Step) : Summary where
  definitions := steps.countP Step.isDefinition
  declarations := steps.countP Step.isDeclaration
  expressions := steps.countP Step.isExpression
  rejected := steps.countP Step.isRejected
  failures := steps.countP Step.isFailed

namespace Summary

/-- The forms that were handed over. -/
def submitted (summary : Summary) : Nat :=
  summary.definitions + summary.declarations + summary.expressions + summary.rejected

/-- The forms that were refused or could not be read. -/
def reported (summary : Summary) : Nat :=
  summary.rejected + summary.failures

theorem ofSteps_cons (step : Step) (steps : List Step) :
    ofSteps (step :: steps) = step.tally + ofSteps steps := by
  rw [add_comm]
  ext <;> simp only [ofSteps, List.countP_cons] <;>
    rcases step with _ | (_ | _ | _) | _ | _ | _ <;> rfl

theorem sum_tally (steps : List Step) : (steps.map Step.tally).sum = ofSteps steps := by
  induction steps with
  | nil => rfl
  | cons step steps hypothesis =>
    rw [List.map_cons, List.sum_cons, hypothesis, ofSteps_cons]

theorem submitted_add (summary other : Summary) :
    (summary + other).submitted = summary.submitted + other.submitted := by
  change summary.definitions + other.definitions + (summary.declarations + other.declarations) +
    (summary.expressions + other.expressions) + (summary.rejected + other.rejected) = _
  unfold submitted
  omega

theorem reported_add (summary other : Summary) :
    (summary + other).reported = summary.reported + other.reported :=
  Nat.add_add_add_comm ..

/-- The forms that were met, read or not. -/
def met (summary : Summary) : Nat :=
  summary.submitted + summary.failures

theorem met_add (summary other : Summary) :
    (summary + other).met = summary.met + other.met := by
  unfold met
  rw [submitted_add]
  exact Nat.add_add_add_comm ..

theorem countP_isAccept (steps : List Step) :
    (steps.flatMap Step.calls).countP Call.isAccept = (ofSteps steps).submitted := by
  induction steps with
  | nil => rfl
  | cons step steps hypothesis =>
    rw [List.flatMap_cons, List.countP_append, hypothesis, ofSteps_cons, submitted_add]
    congr 1
    rcases step with _ | (_ | _ | _) | _ | _ | _ <;> rfl

theorem filterMap_report? (steps : List Step) :
    (steps.flatMap Step.calls).filterMap Call.report? = steps.filterMap Step.report? := by
  induction steps with
  | nil => rfl
  | cons step steps hypothesis =>
    rw [List.flatMap_cons, List.filterMap_append, hypothesis]
    cases step <;> rfl

theorem length_filterMap_report? (steps : List Step) :
    (steps.filterMap Step.report?).length = (ofSteps steps).reported := by
  induction steps with
  | nil => rfl
  | cons step steps hypothesis =>
    rw [← List.singleton_append, List.filterMap_append, List.length_append, hypothesis,
      List.singleton_append, ofSteps_cons, reported_add]
    congr 1
    rcases step with _ | (_ | _ | _) | _ | _ | _ <;> rfl

theorem countP_wantsPrompt (steps : List Step) :
    steps.countP Step.wantsPrompt = (ofSteps steps).met := by
  induction steps with
  | nil => rfl
  | cons step steps hypothesis =>
    rw [List.countP_cons, ofSteps_cons, met_add, hypothesis, Nat.add_comm]
    congr 1
    rcases step with _ | (_ | _ | _) | _ | _ | _ <;> rfl

theorem isClean_ofSteps (steps : List Step) :
    (ofSteps steps).isClean = true ↔
      ∀ step ∈ steps, step.isRejected = false ∧ step.isFailed = false := by
  simp only [isClean, ofSteps, beq_iff_eq, Nat.add_eq_zero_iff, List.countP_eq_zero,
    Bool.not_eq_true]
  constructor
  · rintro ⟨failed, rejected⟩ step inside
    exact ⟨rejected step inside, failed step inside⟩
  · intro clean
    exact ⟨fun step inside => (clean step inside).2, fun step inside => (clean step inside).1⟩

end Summary

namespace Toplevel

section Steps

variable {β : Type} [Backend β]

/-- The state behind the given number of steps. -/
def stepped (top : Toplevel β) : (count : Nat) → Toplevel β
  | 0 => top
  | count + 1 => (top.stepped count).step.2

/-- The first steps that are taken from a state on. -/
def taken (top : Toplevel β) (count : Nat) : List Step :=
  (List.range count).map fun index => (top.stepped index).step.1

theorem taken_succ (top : Toplevel β) (count : Nat) :
    top.taken (count + 1) = top.taken count ++ [(top.stepped count).step.1] := by
  simp [taken, List.range_succ]

theorem summary_stepped (top : Toplevel β) (count : Nat) :
    (top.stepped count).summary = top.summary + .ofSteps (top.taken count) := by
  rw [← Summary.sum_tally]
  induction count with
  | zero => rfl
  | succ count hypothesis =>
    rw [stepped, summary_step, hypothesis, taken_succ, List.map_append, List.sum_append,
      List.map_singleton, List.sum_singleton, add_assoc]

end Steps

section Log

variable {β : Type} [Backend β]

/-- The same state without the log. -/
def forget (top : Toplevel (Logged β)) : Toplevel β :=
  ⟨top.session, top.backend.inner, top.summary, top.prompt, top.shown⟩

theorem submit_logged (top : Toplevel (Logged β)) (session : Session) (form : Form) :
    top.forget.submit session form =
        ((top.submit session form).1, (top.submit session form).2.forget) ∧
      (top.submit session form).2.backend.calls =
        top.backend.calls ++ (top.submit session form).1.calls := by
  unfold submit
  simp only [forget, Backend.accept]
  generalize Backend.accept top.backend.inner form session.operators = reaction
  obtain ⟨_ | failure, backend, operators⟩ := reaction
  · exact ⟨rfl, rfl⟩
  · exact ⟨rfl, List.append_assoc ..⟩

/-- Logging changes nothing, and the log of a step is what the step says. -/
theorem step_logged (top : Toplevel (Logged β)) :
    top.forget.step = (top.step.1, top.step.2.forget) ∧
      top.step.2.backend.calls = top.backend.calls ++ top.step.1.calls := by
  have session : top.forget.session = top.session := rfl
  unfold step
  rw [session]
  split
  · exact ⟨rfl, (List.append_nil _).symm⟩
  split
  · exact ⟨rfl, (List.append_nil _).symm⟩
  split
  · exact top.submit_logged _ _
  · exact ⟨rfl, rfl⟩
  · exact ⟨rfl, rfl⟩

/-- A logged run does what the run itself does, and its log is what its steps say. -/
theorem stepped_logged (top : Toplevel (Logged β)) (count : Nat) :
    (top.stepped count).forget = top.forget.stepped count ∧
      (top.stepped count).backend.calls =
        top.backend.calls ++ (top.forget.taken count).flatMap Step.calls := by
  induction count with
  | zero => exact ⟨rfl, (List.append_nil _).symm⟩
  | succ count hypothesis =>
    obtain ⟨same, calls⟩ := hypothesis
    obtain ⟨step, added⟩ := (top.stepped count).step_logged
    rw [same] at step
    refine ⟨?_, ?_⟩
    · rw [stepped, stepped, step]
    · rw [stepped, added, calls, taken_succ, step, List.flatMap_append, List.flatMap_singleton,
        List.append_assoc]

/-- The books of a state that the given steps have led to. -/
structure Accounted (top : Toplevel (Logged β)) (steps : List Step) : Prop where
  /-- The counters count the steps of each kind. -/
  summary : top.summary = .ofSteps steps
  /-- Every form that was read has been handed over once. -/
  accepts : top.backend.calls.countP Call.isAccept = top.summary.submitted
  /-- Every form that was not used has been reported once, in order. -/
  reports : top.backend.calls.filterMap Call.report? = steps.filterMap Step.report?
  reported : (top.backend.calls.filterMap Call.report?).length = top.summary.reported

theorem accounted_stepped (session : Session) (backend : β) (prompt : Option String)
    (count : Nat) :
    ((start session (Logged.mk backend []) prompt).stepped count).Accounted
      ((start session backend prompt).taken count) := by
  obtain ⟨same, calls⟩ := (start session (Logged.mk backend []) prompt).stepped_logged count
  have plain := (start session backend prompt).summary_stepped count
  have summary : ((start session (Logged.mk backend []) prompt).stepped count).summary =
      .ofSteps ((start session backend prompt).taken count) := by
    rw [← zero_add (Summary.ofSteps _)]
    exact (congrArg Toplevel.summary same).trans plain
  have log : ((start session (Logged.mk backend []) prompt).stepped count).backend.calls =
      ((start session backend prompt).taken count).flatMap Step.calls := calls
  constructor
  · exact summary
  · rw [log, summary, Summary.countP_isAccept]
  · rw [log, Summary.filterMap_report?]
  · rw [log, summary, Summary.filterMap_report?, Summary.length_filterMap_report?]

end Log

section Run

variable {β : Type} [Backend β]

theorem summary_run (session : Session) (backend : β) (prompt : Option String) :
    (start session backend prompt).run.summary =
      .ofSteps (start session backend prompt).steps := by
  rw [run, summary_runFor, Summary.sum_tally]
  exact zero_add _

/-- A run shows the prompt once for every form that it meets. -/
theorem shown_run (session : Session) (backend : β) (text : String) :
    (start session backend (some text)).run.shown =
      String.join (List.replicate (start session backend (some text)).run.summary.met text) := by
  rw [summary_run, ← Summary.countP_wantsPrompt, run, (shown_runFor _ _).2]
  exact String.empty_append

/-- A run to the end of the input refuses no form, leaves none unread, and meets no read error. -/
def Succeeds (top : Toplevel β) : Prop :=
  (∀ step ∈ top.steps, step.isRejected = false ∧ step.isFailed = false) ∧
    top.run.session.tokens.readError = none

variable {top : Toplevel β}

theorem failure_runFor (regular : top.session.tokens.Regular) (count : Nat) :
    (top.runFor count).session.tokens.failure = top.session.tokens.failure := by
  induction count with
  | zero => rfl
  | succ count hypothesis =>
    have here := regular_of_reachable regular (reachable_runFor top count)
    obtain ⟨row, after, -, same, tokens⟩ := exists_takenBy here
    rw [session_runFor_succ, tokens, ← hypothesis, same]
    rfl

/-- At the end of a run it is known whether the input was read to its end. -/
theorem readError_run (regular : top.session.tokens.Regular) :
    top.run.session.tokens.readError = top.session.tokens.failure := by
  obtain ⟨count, bound, finished, -⟩ := exists_finished regular
  have final := run_of_finished finished (Nat.le_succ_of_le bound)
  rw [← final, finished_iff] at finished
  have here := regular_of_reachable regular (reachable_runFor top (top.session.remaining + 1))
  have none : top.run.session.tokens.ahead = [] := here.ahead_of_ended finished
  have known : top.run.session.tokens.atEnd = true := by rw [TokenStream.atEnd, none]; rfl
  rw [TokenStream.readError, known]
  exact failure_runFor regular _

end Run

end Toplevel

namespace Sink

variable {sink : Sink} {line : String} {lines : List String}

/-- Whether lines, each with a line feed, fit into what is left of the sink. -/
def Holds (sink : Sink) (lines : List String) : Prop :=
  lines = [] ∨ ∀ capacity ∈ sink.capacity,
    sink.contents.size + (lines.map fun line => line.utf8ByteSize + 1).sum ≤ capacity

instance (sink : Sink) (lines : List String) : Decidable (sink.Holds lines) :=
  inferInstanceAs (Decidable (_ ∨ ∀ capacity ∈ sink.capacity, _))

/-- The sink with a line that fits. -/
def including (sink : Sink) (line : String) : Sink :=
  { sink with contents := sink.contents ++ (line ++ "\n").toUTF8 }

theorem size_including (sink : Sink) (line : String) :
    (sink.including line).contents.size = sink.contents.size + (line.utf8ByteSize + 1) := by
  have feed : "\n".utf8ByteSize = 1 := rfl
  simp [including, feed]

theorem writeLine_of_fits (fits : sink.Fits line) :
    sink.writeLine line = (none, sink.including line) := by
  have feed : "\n".utf8ByteSize = 1 := rfl
  cases limit : sink.capacity with
  | none => simp [writeLine, write, including, limit]
  | some capacity =>
    have room : sink.contents.size + (line.utf8ByteSize + 1) ≤ capacity := fits capacity limit
    simp [writeLine, write, including, limit, feed, room]

theorem holds_cons :
    sink.Holds (line :: lines) ↔ sink.Fits line ∧ (sink.including line).Holds lines := by
  have same : (sink.including line).capacity = sink.capacity := rfl
  unfold Holds Fits
  rw [size_including, same]
  cases sink.capacity with
  | none => simp
  | some capacity =>
    cases lines <;> simp
    omega

end Sink

namespace CommandLine

theorem printLines_iff {sink : Sink} {lines : List String} :
    (printLines sink lines).1 = true ↔ sink.Holds lines := by
  induction lines generalizing sink with
  | nil => exact iff_of_true rfl (.inl rfl)
  | cons line lines hypothesis =>
    rw [Sink.holds_cons, printLines]
    by_cases fits : sink.Fits line
    · rw [Sink.writeLine_of_fits fits, and_iff_right fits]
      exact hypothesis
    · have refused : (sink.writeLine line).1 ≠ none := mt Sink.writeLine_eq_none_iff.1 fits
      split
      next written => exact absurd (congrArg Prod.fst written) refused
      next => simp [fits]

variable {settings : Settings} {output : Sink} {input : Input} {interactive : Bool}

/-- The listing of the operators, if they are asked for, fits behind what was printed. -/
def Settings.Lists (settings : Settings) (final : Toplevel Printer) : Prop :=
  final.backend.sink.Holds (settings.listing final.session.operators)

theorem ending_run_of_lists (forms : settings.listTokens = false)
    (listed : settings.Lists (settings.printing output input interactive).run) :
    ∃ code, (settings.run output input interactive).ending = .exit code ∧
      (code = 0 ↔ (settings.printing output input interactive).Succeeds) := by
  have summary : (settings.printing output input interactive).run.summary =
      .ofSteps (settings.printing output input interactive).steps := Toplevel.summary_run _ _ _
  rw [Toplevel.Succeeds, ← Summary.isClean_ofSteps, ← summary, Settings.run, forms]
  rw [Settings.Lists, ← printLines_iff] at listed
  simp only [printForms, Bool.false_eq_true, if_false]
  split
  next cut => simp [cut] at listed
  next =>
    refine ⟨_, rfl, ?_⟩
    cases (settings.printing output input interactive).run.session.tokens.readError <;>
      cases Summary.isClean _ <;> simp

theorem ending_run_of_not_lists (forms : settings.listTokens = false)
    (cut : ¬ settings.Lists (settings.printing output input interactive).run) :
    (settings.run output input interactive).ending = .panic := by
  rw [Settings.Lists, ← printLines_iff] at cut
  simp only [Settings.run, forms, printForms, Bool.false_eq_true, if_false]
  split
  next => rfl
  next listed => simp [listed] at cut

theorem ending_run_eq_panic_iff (forms : settings.listTokens = false) :
    (settings.run output input interactive).ending = .panic ↔
      ¬ settings.Lists (settings.printing output input interactive).run := by
  refine ⟨fun panicked listed => ?_, ending_run_of_not_lists forms⟩
  obtain ⟨code, exited, -⟩ := ending_run_of_lists forms listed
  rw [panicked] at exited
  cases exited

theorem eq_zero_iff_of_exit {code : UInt8} (forms : settings.listTokens = false)
    (exited : (settings.run output input interactive).ending = .exit code) :
    code = 0 ↔ (settings.printing output input interactive).Succeeds := by
  have listed : settings.Lists (settings.printing output input interactive).run := by
    by_contra cut
    rw [ending_run_of_not_lists forms cut] at exited
    cases exited
  obtain ⟨other, same, succeeds⟩ := ending_run_of_lists forms listed
  rw [exited] at same
  cases same
  exact succeeds

end CommandLine

end Kaleidoscope
