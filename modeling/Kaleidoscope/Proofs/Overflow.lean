import Kaleidoscope.Proofs.Bookkeeping
import Kaleidoscope.Proofs.Refusal

set_option autoImplicit false

/- From the first write that fails on no form is used any more, so the run may read other forms than
one whose sink never fails. But a full sink stays as it is: the front of all that the other run
writes. -/

namespace Kaleidoscope

open Notice

theorem ByteArray.extract_of_size_le {bytes : ByteArray} {count : Nat}
    (short : bytes.size ≤ count) : bytes.extract 0 count = bytes := by
  rw [← Nat.max_eq_left short]
  exact ByteArray.extract_zero_max_size

/-- What stands behind the first bytes does not matter for them. -/
theorem ByteArray.extract_append_of_le {bytes : ByteArray} {count : Nat} (long : count ≤ bytes.size)
    (more : ByteArray) : (bytes ++ more).extract 0 count = bytes.extract 0 count := by
  rw [ByteArray.extract_append, Nat.sub_eq_zero_of_le long, Nat.zero_sub, ByteArray.extract_same,
    ByteArray.append_empty]

theorem ByteArray.extract_min_size (bytes : ByteArray) (count : Nat) :
    bytes.extract 0 (min count bytes.size) = bytes.extract 0 count := by
  rcases Nat.le_total bytes.size count with short | long
  · rw [Nat.min_eq_right short, ByteArray.extract_of_size_le short, ByteArray.extract_zero_size]
  · rw [Nat.min_eq_left long]

theorem ByteArray.extract_extract_append (bytes more : ByteArray) (count : Nat) :
    (bytes.extract 0 count ++ more).extract 0 count = (bytes ++ more).extract 0 count := by
  rcases Nat.le_total bytes.size count with short | long
  · rw [ByteArray.extract_of_size_le short]
  · have size : (bytes.extract 0 count).size = count := by
      rw [ByteArray.size_extract, Nat.min_eq_left long, Nat.sub_zero]
    rw [ByteArray.extract_append_of_le long, ByteArray.extract_append_of_le size.ge,
      ByteArray.extract_of_size_le size.le]

namespace Sink

/-- The sink holds no more than it can. -/
def Bounded (sink : Sink) : Prop :=
  ∀ capacity ∈ sink.capacity, sink.contents.size ≤ capacity

/-- The sink holds all that it can. -/
def Full (sink : Sink) : Prop :=
  sink.capacity = some sink.contents.size

/-- What a sink says to a line that it cannot take. -/
def refusal (sink : Sink) : Failure :=
  ⟨.backend sink.complaint, .nowhere⟩

variable {sink : Sink} {bytes : ByteArray}

theorem write_of_limited {capacity : Nat} (limited : sink.capacity = some capacity)
    (bytes : ByteArray) :
    sink.write bytes = (decide ((sink.contents ++ bytes).size ≤ capacity),
      { sink with contents := (sink.contents ++ bytes).extract 0 capacity }) := by
  unfold write
  simp only [limited]
  split
  next room => rw [decide_eq_true room, ByteArray.extract_of_size_le room]
  next full => rw [decide_eq_false full]

/-- Nothing but the contents is changed. -/
theorem write_keeps (sink : Sink) (bytes : ByteArray) :
    (sink.write bytes).2.capacity = sink.capacity ∧
      (sink.write bytes).2.complaint = sink.complaint := by
  cases limit : sink.capacity with
  | none => simp [write, limit]
  | some capacity => simp [write_of_limited limit, limit]

theorem write_empty (bounded : sink.Bounded) : sink.write .empty = (true, sink) := by
  obtain ⟨contents, _ | capacity, complaint⟩ := sink
  · simp [write]
  · have room : contents.size ≤ capacity := bounded capacity rfl
    simp [write, room]

theorem full_of_write (sink : Sink) (bytes : ByteArray) (cut : (sink.write bytes).1 = false) :
    (sink.write bytes).2.Full := by
  cases limit : sink.capacity with
  | none => simp [write, limit] at cut
  | some capacity =>
    simp only [write_of_limited limit, decide_eq_false_iff_not, Nat.not_le] at cut
    simp only [Full, write_of_limited limit, limit, ByteArray.size_extract,
      Nat.min_eq_left cut.le, Nat.sub_zero]

theorem Full.write (full : sink.Full) (bytes : ByteArray) : (sink.write bytes).2 = sink := by
  rw [write_of_limited full, ByteArray.extract_append_of_le le_rfl,
    ByteArray.extract_of_size_le le_rfl]

theorem Full.bounded (full : sink.Full) : sink.Bounded := by
  intro capacity limit
  exact (Option.some.inj (full.symm.trans limit)).le

theorem contents_write (fits : (sink.write bytes).1 = true) :
    (sink.write bytes).2.contents = sink.contents ++ bytes := by
  cases limit : sink.capacity with
  | none => simp [write, limit]
  | some capacity =>
    simp only [write_of_limited limit, decide_eq_true_eq] at fits ⊢
    exact ByteArray.extract_of_size_le fits

/-- Writing in two pieces is writing at once. -/
theorem write_append (sink : Sink) (first second : ByteArray) :
    sink.write (first ++ second) =
      ((sink.write first).1 && ((sink.write first).2.write second).1,
        ((sink.write first).2.write second).2) := by
  cases limit : sink.capacity with
  | none => simp [Sink.write, limit, ByteArray.append_assoc]
  | some capacity =>
    have still := (sink.write_keeps first).1.trans limit
    rw [write_of_limited still, write_of_limited limit, write_of_limited limit,
      ByteArray.extract_extract_append, ByteArray.append_assoc]
    congr 1
    by_cases room : (sink.contents ++ first).size ≤ capacity
    · rw [ByteArray.extract_of_size_le room, decide_eq_true room, Bool.true_and,
        ByteArray.append_assoc]
    · rw [decide_eq_false room, Bool.false_and, decide_eq_false_iff_not]
      simp only [ByteArray.size_append] at room ⊢
      omega

theorem write_text_append (sink : Sink) (first second : String) :
    sink.write (first ++ second).toUTF8 =
      ((sink.write first.toUTF8).1 && ((sink.write first.toUTF8).2.write second.toUTF8).1,
        ((sink.write first.toUTF8).2.write second.toUTF8).2) := by
  rw [← write_append]
  exact congrArg sink.write (String.toByteArray_append ..)

theorem writeLine_eq (sink : Sink) (line : String) :
    sink.writeLine line =
      (if (sink.write (line ++ "\n").toUTF8).1 then none else some sink.refusal,
        (sink.write (line ++ "\n").toUTF8).2) := by
  unfold writeLine
  rcases sink.write (line ++ "\n").toUTF8 with ⟨_ | _, after⟩ <;> rfl

theorem bounded_write (sink : Sink) (bytes : ByteArray) : (sink.write bytes).2.Bounded := by
  intro capacity limit
  rw [(sink.write_keeps bytes).1] at limit
  rw [write_of_limited limit, ByteArray.size_extract]
  exact (Nat.sub_le ..).trans (Nat.min_le_left ..)

theorem writeLine_ne_none_iff {line : String} :
    (sink.writeLine line).1 ≠ none ↔ (sink.write (line ++ "\n").toUTF8).1 = false := by
  rw [writeLine_eq]
  cases (sink.write (line ++ "\n").toUTF8).1 <;> simp

theorem Full.writeLine_ne_none (full : sink.Full) (line : String) :
    (sink.writeLine line).1 ≠ none := by
  have feed : "\n".utf8ByteSize = 1 := rfl
  simp [writeLine_ne_none_iff, write_of_limited full, feed]

end Sink

namespace Printer

/-- What is written about a form: one line, and one more if it introduces an operator. -/
theorem printout_formNotices (form : Form) (operators : OperatorTable) :
    printout (formNotices form) = announcement form ++ "\n" ++
      match form with
      | .definition given =>
        if (operators.declare? given.prototype).isSome then registration given.prototype ++ "\n"
        else ""
      | _ => "" := by
  unfold formNotices
  rw [printout_cons]
  congr 1
  cases form with
  | declaration prototype => rfl
  | expression wrapped => rfl
  | definition given =>
    simp only [OperatorTable.isSome_declare? .empty operators]
    split <;> simp [line]

/-- The printer takes a form as its sink takes all that is written about the form at once. -/
theorem accept_eq_write (printer : Printer) (form : Form) (operators : OperatorTable) :
    let written := printer.sink.write (printout (formNotices form)).toUTF8
    (printer.accept form operators).refusal =
        (if written.1 then none else some printer.sink.refusal) ∧
      (printer.accept form operators).backend.sink = written.2 := by
  intro written
  have pieces : written = printer.sink.write _ := rfl
  rw [printout_formNotices form operators, Sink.write_text_append] at pieces
  have complaint := (printer.sink.write_keeps (announcement form ++ "\n").toUTF8).2
  have bounded := printer.sink.bounded_write (announcement form ++ "\n").toUTF8
  have full := printer.sink.full_of_write (announcement form ++ "\n").toUTF8
  unfold accept
  rw [Sink.writeLine_eq, pieces]
  generalize printer.sink.write (announcement form ++ "\n").toUTF8 = first at *
  obtain ⟨_ | _, sink⟩ := first
  · -- A full sink takes nothing of what would follow.
    exact ⟨rfl, ((full rfl).write _).symm⟩
  · have nothing : sink.write .empty = (true, sink) := Sink.write_empty bounded
    have same : sink.refusal = printer.sink.refusal := by
      rw [Sink.refusal, Sink.refusal, ← complaint]
    cases form with
    | declaration prototype => simp [nothing]
    | expression wrapped => simp [nothing]
    | definition given =>
      cases declared : operators.declare? given.prototype with
      | none => simp [introduce, declared, nothing]
      | some extended => simp [introduce, declared, Sink.writeLine_eq, same]

theorem operators_accept_of_used {printer : Printer} {form : Form} {operators : OperatorTable}
    (used : (printer.accept form operators).refusal = none) :
    (printer.accept form operators).operators = operators.enter form := by
  refine (printer.operators_accept form operators).1 ?_
  rw [← Sink.writeLine_eq_none_iff]
  unfold accept at used
  split at used
  next refusal sink run => cases used
  next sink run => rw [run]

end Printer

namespace Step

/-- The step in which the form that it would use is refused. -/
def refuse (failure : Failure) : Step → Step
  | accepted form => rejected form failure
  | step => step

theorem refuse_ne_accepted (failure : Failure) (step : Step) (form : Form) :
    step.refuse failure ≠ accepted form := by
  cases step <;> exact Step.noConfusion

end Step

/-- The session behind the next step, if every form is used. -/
def Session.settled (session : Session) : Session :=
  match Step.ofSession session, session.form with
  | .finished, _ => session
  | .separator, _ => session.advance
  | .accepted form, (_, after) => { after with operators := after.operators.enter form }
  | _, (_, after) => after.advance

namespace Toplevel

/-- A write fails in the next step: that of the first line about a form, that of the line about the
operator which a definition introduces, or that of the report about a form that cannot be read. -/
inductive WriteFails (top : Toplevel Printer) : Prop where
  | announcement {form : Form} (plan : Step.ofSession top.session = .accepted form)
      (cut : (top.backend.sink.writeLine (Printer.announcement form)).1 ≠ none)
  | registration {given : Definition}
      (plan : Step.ofSession top.session = .accepted (.definition given))
      (declares : (top.session.operators.declare? given.prototype).isSome)
      (written : (top.backend.sink.writeLine (Printer.announcement (.definition given))).1 = none)
      (cut : ((top.backend.sink.writeLine (Printer.announcement (.definition given))).2.writeLine
        (Printer.registration given.prototype)).1 ≠ none)
  | report {failure : Option Failure} {skipped : Token}
      (plan : Step.ofSession top.session = .failed failure skipped)
      (cut : (top.backend.sink.writeLine (failureReport failure)).1 ≠ none)

variable {top : Toplevel Printer}

theorem WriteFails.not_finished (cut : top.WriteFails) : top.step.1 ≠ .finished := by
  intro finished
  have plan : Step.ofSession top.session = .finished := by
    simp [Step.ofSession, finished_iff.1 finished]
  cases cut <;> simp_all

/-- What the next step writes if no write fails. -/
def pending (top : Toplevel Printer) : ByteArray :=
  (printout (Step.ofSession top.session).notices).toUTF8

theorem sink_recover (session : Session) (failure : Option Failure) :
    (top.recover session failure).2.backend.sink =
      (top.backend.sink.write (printout (failureNotices failure)).toUTF8).2 := by
  rw [printout_failureNotices]
  exact congrArg Prod.snd (Sink.writeLine_eq ..)

theorem submit_of_refused {session : Session} {form : Form} {failure : Failure}
    (refused : (Backend.accept top.backend form session.operators).refusal = some failure) :
    (top.submit session form).1 = .rejected form failure ∧
      (top.submit session form).2.backend = Backend.report
        (Backend.accept top.backend form session.operators).backend (some failure) := by
  unfold submit
  generalize Backend.accept top.backend form session.operators = reaction at refused ⊢
  obtain ⟨refusal, backend, operators⟩ := reaction
  subst refused
  exact ⟨rfl, rfl⟩

theorem submit_eq_write (top : Toplevel Printer) (session : Session) (form : Form) :
    let written := top.backend.sink.write (printout (formNotices form)).toUTF8
    (top.submit session form).1 =
        (if written.1 then .accepted form else .rejected form top.backend.sink.refusal) ∧
      (top.submit session form).2.backend.sink = written.2 := by
  intro written
  obtain ⟨refusal, left⟩ := top.backend.accept_eq_write form session.operators
  cases fits : written.1 with
  | true =>
    rw [submit_of_used (refusal.trans (if_pos fits))]
    exact ⟨rfl, left⟩
  | false =>
    have full : written.2.Full := Sink.full_of_write _ _ fits
    obtain ⟨rejected, behind⟩ := submit_of_refused
      (refusal.trans (if_neg (Bool.eq_false_iff.1 fits)))
    refine ⟨rejected, ?_⟩
    -- A full sink takes nothing of the report.
    rw [behind]
    simp only [Backend.report, Backend.accept, Printer.report, Sink.writeLine_eq, left]
    exact full.write _

/-- A step writes as if all that it has to write were written at once. If that fails, the form that
it reads is refused. -/
theorem step_eq_write (bounded : top.backend.sink.Bounded) :
    let written := top.backend.sink.write top.pending
    top.step.1 = (if written.1 then Step.ofSession top.session
      else (Step.ofSession top.session).refuse top.backend.sink.refusal) ∧
    top.step.2.backend.sink = written.2 := by
  intro written
  have all : written = top.backend.sink.write (printout _).toUTF8 := rfl
  have nothing := Sink.write_empty bounded
  have taken := top.dispatch
  generalize top.step = result at taken ⊢
  cases taken with
  | finished ended =>
    have plan : Step.ofSession top.session = .finished := by simp [Step.ofSession, ended]
    rw [all, plan]
    exact ⟨by split <;> rfl, congrArg Prod.snd nothing.symm⟩
  | separator seen =>
    have plan : Step.ofSession top.session = .separator := by simp [Step.ofSession, seen]
    rw [all, plan]
    exact ⟨by split <;> rfl, congrArg Prod.snd nothing.symm⟩
  | @submitted form session more plain run =>
    have plan : Step.ofSession top.session = .accepted form := by
      rw [Step.ofSession_eq more plain, run]
      rfl
    rw [all, plan]
    exact top.submit_eq_write session form
  | @incomplete session more plain run =>
    have plan : Step.ofSession top.session = .failed none session.current := by
      rw [Step.ofSession_eq more plain, run]
      rfl
    rw [all, plan]
    exact ⟨by split <;> rfl, sink_recover session none⟩
  | @failed failure session more plain run =>
    have plan : Step.ofSession top.session = .failed (some failure) session.current := by
      rw [Step.ofSession_eq more plain, run]
      rfl
    rw [all, plan]
    exact ⟨by split <;> rfl, sink_recover session (some failure)⟩

/-- If not all that is written about a form can be written, one of its lines fails. -/
theorem writeFails_of_accepted {form : Form} (plan : Step.ofSession top.session = .accepted form)
    (cut : (top.backend.sink.write (printout (formNotices form)).toUTF8).1 = false) :
    top.WriteFails := by
  by_cases first : (top.backend.sink.writeLine (Printer.announcement form)).1 = none
  · rw [Printer.printout_formNotices _ top.session.operators, Sink.write_text_append,
      Bool.and_eq_false_iff, ← Sink.writeLine_ne_none_iff] at cut
    have rest := cut.resolve_left (not_not.2 first)
    have nothing := congrArg Prod.fst (Sink.write_empty (top.backend.sink.bounded_write
      (Printer.announcement form ++ "\n").toUTF8))
    cases form with
    | declaration prototype => exact Bool.noConfusion (nothing.symm.trans rest)
    | expression wrapped => exact Bool.noConfusion (nothing.symm.trans rest)
    | definition given =>
      by_cases declares : (top.session.operators.declare? given.prototype).isSome
      · refine .registration plan declares first ?_
        rw [Sink.writeLine_ne_none_iff, Sink.writeLine_eq]
        simpa only [declares, ↓reduceIte] using rest
      · simp only [declares, Bool.false_eq_true, ↓reduceIte] at rest
        exact Bool.noConfusion (nothing.symm.trans rest)
  · exact .announcement plan first

theorem writeFails_iff (bounded : top.backend.sink.Bounded) :
    top.WriteFails ↔ (top.backend.sink.write top.pending).1 = false := by
  unfold pending
  constructor
  · rintro (⟨plan, cut⟩ | ⟨plan, declares, written, cut⟩ | ⟨plan, cut⟩) <;> rw [plan, Step.notices]
    · rw [Sink.writeLine_ne_none_iff] at cut
      rw [Printer.printout_formNotices _ top.session.operators, Sink.write_text_append, cut,
        Bool.false_and]
    · rw [Sink.writeLine_ne_none_iff, Sink.writeLine_eq] at cut
      rw [Printer.printout_formNotices _ top.session.operators, Sink.write_text_append]
      simp only [declares, ↓reduceIte]
      rw [cut, Bool.and_false]
    · rw [printout_failureNotices, ← Sink.writeLine_ne_none_iff]
      exact cut
  · intro cut
    cases plan : Step.ofSession top.session with
    | accepted form =>
      rw [plan] at cut
      exact writeFails_of_accepted plan cut
    | failed failure skipped =>
      refine .report plan ?_
      rw [Sink.writeLine_ne_none_iff, ← printout_failureNotices]
      rwa [plan] at cut
    | _ =>
      rw [plan] at cut
      exact Bool.noConfusion ((congrArg Prod.fst (Sink.write_empty bounded)).symm.trans cut)

theorem session_submit_of_written {session : Session} {form : Form}
    (fits : (top.backend.sink.write (printout (formNotices form)).toUTF8).1 = true) :
    (top.submit session form).2.session =
      { session with operators := session.operators.enter form } := by
  have used := (top.backend.accept_eq_write form session.operators).1.trans (if_pos fits)
  have entered : (Backend.accept top.backend form session.operators).operators =
      session.operators.enter form := Printer.operators_accept_of_used used
  rw [submit_of_used used, entered]

/-- A step in which no write fails is settled by what is ahead. -/
theorem step_of_not_writeFails (bounded : top.backend.sink.Bounded) (fits : ¬ top.WriteFails) :
    top.step.1 = Step.ofSession top.session ∧ top.step.2.session = top.session.settled ∧
      top.step.2.backend.sink.contents = top.backend.sink.contents ++ top.pending := by
  rw [writeFails_iff bounded, Bool.not_eq_false] at fits
  obtain ⟨plan, written⟩ := step_eq_write bounded
  rw [if_pos fits] at plan
  refine ⟨plan, ?_, written ▸ Sink.contents_write fits⟩
  have taken := top.dispatch
  generalize top.step = result at taken ⊢
  unfold Session.settled
  cases taken with
  | finished ended => simp [Step.ofSession, ended]
  | separator seen => simp [Step.ofSession, seen]
  | @submitted form session more plain run =>
    have used : Step.ofSession top.session = .accepted form := by
      rw [Step.ofSession_eq more plain, run]
      rfl
    unfold pending at fits
    rw [used] at fits ⊢
    rw [session_submit_of_written fits, run]
  | @incomplete session more plain run =>
    rw [Step.ofSession_eq more plain, run]
    rfl
  | @failed failure session more plain run =>
    rw [Step.ofSession_eq more plain, run]
    rfl

/-- A step in which a write fails uses no form, and fills the sink. -/
theorem step_of_writeFails (bounded : top.backend.sink.Bounded) (cut : top.WriteFails) :
    top.step.1 = (Step.ofSession top.session).refuse top.backend.sink.refusal ∧
      top.step.2.backend.sink.Full := by
  rw [writeFails_iff bounded] at cut
  obtain ⟨plan, written⟩ := step_eq_write bounded
  rw [if_neg (Bool.eq_false_iff.1 cut)] at plan
  exact ⟨plan, written ▸ Sink.full_of_write _ _ cut⟩

/-- A step with a full sink uses no form, and leaves the sink as it is. -/
theorem step_of_full (full : top.backend.sink.Full) :
    top.step.1 = (Step.ofSession top.session).refuse top.backend.sink.refusal ∧
      top.step.2.backend.sink = top.backend.sink := by
  have bounded := full.bounded
  obtain ⟨-, written⟩ := step_eq_write bounded
  refine ⟨?_, written.trans (full.write _)⟩
  by_cases cut : top.WriteFails
  · exact (step_of_writeFails bounded cut).1
  · rw [(step_of_not_writeFails bounded cut).1]
    cases plan : Step.ofSession top.session with
    | accepted form => exact absurd (.announcement plan (full.writeLine_ne_none _)) cut
    | _ => rfl

/-- A sink without a limit takes every line, so the step is settled by what is ahead. -/
theorem settled_of_unlimited (free : top.backend.sink.capacity = none) :
    top.step.1 = Step.ofSession top.session ∧ top.step.2.session = top.session.settled ∧
      top.step.2.backend.sink.contents = top.backend.sink.contents ++ top.pending := by
  have bounded : top.backend.sink.Bounded := by simp [Sink.Bounded, free]
  refine step_of_not_writeFails bounded ?_
  rw [writeFails_iff bounded]
  simp [Sink.write, free]

/-- The first of two printers has a limited sink, and the second one that never fails. The first
sink holds the front of what the second does, and the two are at the same place unless the first is
full. -/
structure Tracks (capacity : Nat) (complaint : String) (limited whole : Toplevel Printer) :
    Prop where
  limit : limited.backend.sink.capacity = some capacity
  complaint : limited.backend.sink.complaint = complaint
  free : whole.backend.sink.capacity = none
  front : limited.backend.sink.contents = whole.backend.sink.contents.extract 0 capacity
  level : limited.session = whole.session ∨ limited.backend.sink.Full

namespace Tracks

variable {capacity : Nat} {complaint : String} {limited whole : Toplevel Printer}

theorem bounded (tracks : Tracks capacity complaint limited whole) :
    limited.backend.sink.Bounded := by
  intro bound given
  obtain rfl := Option.some.inj (tracks.limit.symm.trans given)
  rw [tracks.front, ByteArray.size_extract]
  exact (Nat.sub_le ..).trans (Nat.min_le_left ..)

theorem le_of_full (tracks : Tracks capacity complaint limited whole)
    (full : limited.backend.sink.Full) : capacity ≤ whole.backend.sink.contents.size := by
  have size := Option.some.inj (tracks.limit.symm.trans full)
  rw [tracks.front, ByteArray.size_extract, Nat.sub_zero] at size
  exact size.le.trans (Nat.min_le_right ..)

/-- As long as no write fails, the two take the same step. -/
theorem step_eq (tracks : Tracks capacity complaint limited whole)
    (same : limited.session = whole.session) (fits : ¬ limited.WriteFails) :
    limited.step.1 = whole.step.1 ∧ limited.step.2.session = whole.step.2.session := by
  obtain ⟨first, behind, -⟩ := step_of_not_writeFails tracks.bounded fits
  obtain ⟨second, beyond, -⟩ := settled_of_unlimited tracks.free
  rw [first, second, behind, beyond, same]
  exact ⟨rfl, rfl⟩

theorem front_step (tracks : Tracks capacity complaint limited whole) :
    limited.step.2.backend.sink.contents =
      whole.step.2.backend.sink.contents.extract 0 capacity := by
  rw [(settled_of_unlimited tracks.free).2.2]
  rcases tracks.level with same | full
  · have pending : limited.pending = whole.pending := by rw [pending, same, Toplevel.pending]
    rw [(step_eq_write tracks.bounded).2, Sink.write_of_limited tracks.limit, tracks.front,
      ByteArray.extract_extract_append, pending]
  · rw [(step_of_full full).2, tracks.front,
      ByteArray.extract_append_of_le (tracks.le_of_full full)]

/-- One step. -/
theorem step (tracks : Tracks capacity complaint limited whole) :
    Tracks capacity complaint limited.step.2 whole.step.2 := by
  have kept := limited.backend.sink.write_keeps limited.pending
  rw [← (step_eq_write tracks.bounded).2] at kept
  refine ⟨kept.1.trans tracks.limit, kept.2.trans tracks.complaint,
    (step_of_unlimited tracks.free).2.2, tracks.front_step, ?_⟩
  by_cases cut : limited.WriteFails
  · exact .inr (step_of_writeFails tracks.bounded cut).2
  · rcases tracks.level with same | full
    · exact .inl (tracks.step_eq same cut).2
    · exact .inr ((step_of_full full).2 ▸ full)

theorem runFor (tracks : Tracks capacity complaint limited whole) (count : Nat) :
    Tracks capacity complaint (limited.runFor count) (whole.runFor count) := by
  induction count with
  | zero => exact tracks
  | succ count hypothesis =>
    obtain ⟨limit, complaint, free, front, level⟩ := hypothesis.step
    constructor <;> simpa only [backend_runFor_succ, session_runFor_succ]

/-- Up to the first write that fails, the two runs are the same. -/
theorem history_eq (tracks : Tracks capacity complaint limited whole)
    (same : limited.session = whole.session)
    (held : limited.backend.sink.contents = whole.backend.sink.contents) (count : Nat)
    (fits : ∀ index < count, ¬ (limited.runFor index).WriteFails) :
    limited.history count = whole.history count ∧
      (limited.runFor count).session = (whole.runFor count).session ∧
      (limited.runFor count).backend.sink.contents =
        (whole.runFor count).backend.sink.contents := by
  induction count with
  | zero =>
    rw [history_zero, history_zero]
    exact ⟨rfl, same, held⟩
  | succ count hypothesis =>
    obtain ⟨steps, level, contents⟩ := hypothesis fun index less => fits index (by omega)
    have reached := tracks.runFor count
    have last := fits count (by omega)
    obtain ⟨step, next⟩ := reached.step_eq level last
    rw [history_succ, history_succ, session_runFor_succ, session_runFor_succ, backend_runFor_succ,
      backend_runFor_succ, steps, step, (step_of_not_writeFails reached.bounded last).2.2,
      (settled_of_unlimited reached.free).2.2, contents, pending, level]
    exact ⟨rfl, next, rfl⟩

theorem size_mono (tracks : Tracks capacity complaint limited whole) {count later : Nat}
    (le : count ≤ later) :
    (whole.runFor count).backend.sink.contents.size ≤
      (whole.runFor later).backend.sink.contents.size := by
  induction le with
  | refl => exact le_rfl
  | @step later _ hypothesis =>
    rw [backend_runFor_succ, (settled_of_unlimited (tracks.runFor later).free).2.2,
      ByteArray.size_append]
    exact hypothesis.trans (Nat.le_add_right ..)

/-- A write fails in the run exactly if not all of the output fits. -/
theorem exists_writeFails_iff (tracks : Tracks capacity complaint limited whole)
    (same : limited.session = whole.session)
    (held : limited.backend.sink.contents = whole.backend.sink.contents)
    (regular : limited.session.tokens.Regular) :
    (∃ index, (limited.runFor index).WriteFails) ↔
      capacity < whole.run.backend.sink.contents.size := by
  classical
  constructor
  · intro failing
    have cut := Nat.find_spec failing
    have first : ∀ index < Nat.find failing, ¬ (limited.runFor index).WriteFails :=
      fun _ less => Nat.find_min failing less
    generalize Nat.find failing = index at cut first
    obtain ⟨-, level, contents⟩ := tracks.history_eq same held index first
    have reached := tracks.runFor index
    -- What does not fit is part of what the other run has written behind the same step.
    have long : capacity < (whole.runFor (index + 1)).backend.sink.contents.size := by
      rw [writeFails_iff reached.bounded, Sink.write_of_limited reached.limit,
        decide_eq_false_iff_not, Nat.not_le, contents, pending, level] at cut
      rwa [backend_runFor_succ, (settled_of_unlimited reached.free).2.2]
    refine long.trans_le (tracks.size_mono ?_)
    obtain ⟨count, bound, finished, -⟩ := exists_finished regular
    by_contra beyond
    rw [← same] at beyond
    have ended : limited.runFor index = limited.runFor count := runFor_of_le finished (by omega)
    exact cut.not_finished (ended ▸ finished)
  · intro long
    by_contra none
    rw [not_exists] at none
    obtain ⟨-, -, contents⟩ :=
      tracks.history_eq same held (whole.session.remaining + 1) fun index _ => none index
    have reached := tracks.runFor (whole.session.remaining + 1)
    have bounded := reached.bounded capacity reached.limit
    rw [contents] at bounded
    exact absurd long (Nat.not_lt.2 bounded)

/-- From the first write that fails on, the sink is full. -/
theorem full_of_writeFails (tracks : Tracks capacity complaint limited whole) {index : Nat}
    (cut : (limited.runFor index).WriteFails) (more : Nat) :
    (limited.runFor (index + 1 + more)).backend.sink.Full := by
  induction more with
  | zero =>
    rw [Nat.add_zero, backend_runFor_succ]
    exact (step_of_writeFails (tracks.runFor index).bounded cut).2
  | succ more full =>
    rw [← Nat.add_assoc, backend_runFor_succ, (step_of_full full).2]
    exact full

theorem step_of_later (tracks : Tracks capacity complaint limited whole) {index later : Nat}
    (cut : (limited.runFor index).WriteFails) (le : index ≤ later) :
    (limited.runFor later).step.1 =
      (Step.ofSession (limited.runFor later).session).refuse ⟨.backend complaint, .nowhere⟩ := by
  have reached := tracks.runFor later
  have refusal : (limited.runFor later).backend.sink.refusal = ⟨.backend complaint, .nowhere⟩ := by
    rw [Sink.refusal, reached.complaint]
  rw [← refusal]
  rcases Nat.eq_or_lt_of_le le with rfl | less
  · exact (step_of_writeFails reached.bounded cut).1
  · obtain ⟨more, rfl⟩ := Nat.exists_eq_add_of_le (Nat.succ_le_of_lt less)
    exact (step_of_full (tracks.full_of_writeFails cut more)).1

end Tracks

/-- A run takes the whole input, whatever its backend does. -/
theorem finished_run {β : Type} [Backend β] {top : Toplevel β}
    (regular : top.session.tokens.Regular) :
    top.run.session.tokens.ahead = [] ∧ top.run.step = (.finished, top.run) := by
  obtain ⟨count, bound, finished, -⟩ := exists_finished regular
  rw [← run_of_finished finished (Nat.le_succ_of_le bound)] at finished
  have here : top.run.session.tokens.Regular :=
    regular_of_reachable regular (reachable_runFor top (top.session.remaining + 1))
  exact ⟨here.ahead_of_ended (finished_iff.1 finished), step_of_finished finished⟩

/-- A printer that writes to a sink of limited capacity degrades cleanly, compared to one whose sink
never fails and that reads the same input. Up to the first step in which a write fails, both take
the same steps. At the end the sink holds the first bytes of the whole output, as many as it can.
From the step in which a write fails on, no form is used: every form that is read is refused with
the complaint of the sink, and all else is as what is ahead says. There is such a step exactly if
the output does not fit. The run takes the whole input, and finishes. -/
theorem full_sink_degrades_cleanly (input : Input) (source : Option String)
    (operators : OperatorTable) (capacity : Nat) (complaint other : String)
    (prompt : Option String) :
    let session : Session := .start (.ofLexer (.ofInput input source)) operators
    let limited : Toplevel Printer := .start session ⟨⟨.empty, some capacity, complaint⟩⟩ prompt
    let unlimited : Toplevel Printer := .start session ⟨⟨.empty, none, other⟩⟩ prompt
    let output := unlimited.run.backend.sink.contents
    (∀ count, (∀ index < count, ¬ (limited.runFor index).WriteFails) →
      limited.history count = unlimited.history count ∧
        (limited.runFor count).session = (unlimited.runFor count).session) ∧
    limited.run.backend.sink.contents = output.extract 0 (min capacity output.size) ∧
    (∀ index later, (limited.runFor index).WriteFails → index ≤ later →
      (∀ form, (limited.runFor later).step.1 ≠ .accepted form) ∧
        (limited.runFor later).step.1 = (Step.ofSession (limited.runFor later).session).refuse
          ⟨.backend complaint, .nowhere⟩) ∧
    ((∃ index, (limited.runFor index).WriteFails) ↔ capacity < output.size) ∧
    limited.run.session.tokens.ahead = [] ∧ limited.run.step = (.finished, limited.run) := by
  intro session limited unlimited output
  have tracks : Tracks capacity complaint limited unlimited :=
    ⟨rfl, rfl, rfl, (ByteArray.extract_of_size_le (Nat.zero_le _)).symm, .inl rfl⟩
  have regular : limited.session.tokens.Regular := TokenStream.regular_ofLexer _
  refine ⟨?_, ?_, ?_, tracks.exists_writeFails_iff rfl rfl regular, ?_⟩
  · intro count fits
    obtain ⟨steps, level, -⟩ := tracks.history_eq rfl rfl count fits
    exact ⟨steps, level⟩
  · have front : limited.run.backend.sink.contents = output.extract 0 capacity :=
      (tracks.runFor (session.remaining + 1)).front
    rw [front, ByteArray.extract_min_size]
  · intro index later cut le
    have refused := tracks.step_of_later cut le
    refine ⟨?_, refused⟩
    intro form
    rw [refused]
    exact Step.refuse_ne_accepted _ _ form
  · exact finished_run regular

/-- The first line about the definition takes 67 bytes. Cut inside it, the run does not know the
operator, and reads two forms behind the definition where the other run reads one. -/
theorem full_sink_degrades_cleanly_of_first_line :
    let input : Input := .ofText "def binary|(x y)x a|b" none
    let session : Session := .start (.ofLexer (.ofInput input none)) .builtin
    let limited : Toplevel Printer := .start session ⟨⟨.empty, some 50, "full"⟩⟩ none
    let unlimited : Toplevel Printer := .start session ⟨⟨.empty, none, ""⟩⟩ none
    limited.run.summary = ⟨0, 0, 0, 3, 0⟩ ∧ unlimited.run.summary = ⟨1, 0, 1, 0, 0⟩ ∧
      (limited.runFor 0).WriteFails ∧
      (∀ later form, (limited.runFor later).step.1 ≠ .accepted form) ∧
      limited.run.backend.sink.contents = unlimited.run.backend.sink.contents.extract 0
        (min 50 unlimited.run.backend.sink.contents.size) := by
  intro input session limited unlimited
  obtain ⟨-, contents, later, -⟩ :=
    full_sink_degrades_cleanly input none .builtin 50 "full" "" none
  let token (column : UInt32) (width : UInt32) (kind : Token.Kind) : Token :=
    ⟨kind, ⟨⟨"shell", 1, column⟩, ⟨"shell", 1, column + width⟩⟩⟩
  have listed : TokenStream.ofLexer (.ofInput input none) =
      ⟨[token 1 3 (.keyword .defWord), token 5 6 (.keyword .binaryWord), token 11 1 (.symbol '|'),
        token 12 1 (.symbol '('), token 13 1 (.identifier "x"), token 15 1 (.identifier "y"),
        token 16 1 (.symbol ')'), token 17 1 (.identifier "x"), token 19 1 (.identifier "a"),
        token 20 1 (.symbol '|'), token 21 1 (.identifier "b")],
        ⟨"shell", 1, 22⟩, none⟩ := by decide +kernel
  have plan : Step.ofSession session =
      .accepted (.definition ⟨.binary '|' ["x", "y"] 30, .reference "x"⟩) := by
    simp only [session, listed]
    rfl
  have cut : (limited.runFor 0).WriteFails := by
    refine .announcement plan ?_
    rw [Ne, Sink.writeLine_eq_none_iff]
    decide +kernel
  have forms : limited.run.summary = ⟨0, 0, 0, 3, 0⟩ := by decide +kernel
  have used : unlimited.run.summary = ⟨1, 0, 1, 0, 0⟩ := by decide +kernel
  exact ⟨forms, used, cut, fun index => (later 0 index cut (Nat.zero_le index)).1, contents⟩

end Toplevel

end Kaleidoscope
