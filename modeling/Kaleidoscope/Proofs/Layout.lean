import Kaleidoscope.Proofs.Printout

set_option autoImplicit false

/- Blanks, comments, line breaks and the name of a source show in the places of tokens and nowhere
else. -/

namespace Kaleidoscope

/-- Notices that differ at most in places. -/
inductive Notice.Alike : Notice → Notice → Prop where
  | statement (text : String) : Alike (.statement text) (.statement text)
  | place (position other : Position) : Alike (.place position) (.place other)

namespace Notice

theorem forall₂_alike_statements (texts : List String) :
    List.Forall₂ Alike (texts.map statement) (texts.map statement) := by
  rw [List.forall₂_map_left_iff, List.forall₂_map_right_iff]
  exact List.forall₂_same.2 fun text _ => .statement text

end Notice

theorem formNotices_eq_statements (form : Form) :
    ∃ texts : List String, formNotices form = texts.map .statement := by
  cases form with
  | declaration prototype => exact ⟨[_], rfl⟩
  | expression wrapped => exact ⟨[_], rfl⟩
  | definition given =>
    unfold formNotices
    by_cases declared : (OperatorTable.empty.declare? given.prototype).isSome
    · exact ⟨[_, _], by simp only [declared, ↓reduceIte]; rfl⟩
    · exact ⟨[_], by simp only [declared, Bool.false_eq_true, ↓reduceIte]; rfl⟩

theorem failureNotices_alike {failure other : Option Failure}
    (fault : failure.map Failure.fault = other.map Failure.fault) :
    List.Forall₂ Notice.Alike (failureNotices failure) (failureNotices other) := by
  cases failure with
  | none =>
    cases other with
    | none => exact Notice.forall₂_alike_statements [unfinishedReport]
    | some second => cases fault
  | some first =>
    cases other with
    | none => cases fault
    | some second =>
      have same : first.fault = second.fault := Option.some.inj fault
      simp only [failureNotices, same]
      exact .cons (.statement _) (.cons (.place _ _) .nil)

namespace Step.Alike

variable {step other : Step} {steps others : List Step}

theorem notices (alike : step.Alike other) :
    List.Forall₂ Notice.Alike step.notices other.notices := by
  cases alike with
  | separator => exact .nil
  | finished => exact .nil
  | accepted form =>
    obtain ⟨texts, same⟩ := formNotices_eq_statements form
    simp only [Step.notices, same]
    exact Notice.forall₂_alike_statements texts
  | failed fault kind => exact failureNotices_alike fault

theorem flatMap_notices (alike : List.Forall₂ Step.Alike steps others) :
    List.Forall₂ Notice.Alike (steps.flatMap Step.notices) (others.flatMap Step.notices) := by
  induction alike with
  | nil => exact .nil
  | cons first _ hypothesis =>
    rw [List.flatMap_cons, List.flatMap_cons]
    exact List.rel_append first.notices hypothesis

theorem countP_wantsPrompt (alike : List.Forall₂ Step.Alike steps others) :
    steps.countP Step.wantsPrompt = others.countP Step.wantsPrompt := by
  induction alike with
  | nil => rfl
  | cons first _ hypothesis =>
    rw [List.countP_cons, List.countP_cons, hypothesis]
    cases first <;> rfl

end Step.Alike

namespace Toplevel

variable {top other : Toplevel Printer}

/-- One step on tokens of the same kinds, also where the input ends. -/
theorem step_of_same_kinds (free : top.backend.sink.capacity = none)
    (unlimited : other.backend.sink.capacity = none)
    (alike : top.session.ExtendedBy [] other.session) :
    top.step.1.Alike other.step.1 ∧ top.step.2.session.ExtendedBy [] other.step.2.session := by
  by_cases finished : top.step.1 = .finished
  · have ended := finished_iff.1 finished
    rw [← alike.kind_current fun _ => rfl] at ended
    rw [step_of_finished finished, step_of_finished (finished_iff.2 ended)]
    exact ⟨.finished, alike⟩
  · exact step_of_extendedBy free unlimited alike (Tolerance.before_nil_closes _) (by simp)
      (fun _ _ _ _ => rfl) finished

theorem history_of_same_kinds (free : top.backend.sink.capacity = none)
    (unlimited : other.backend.sink.capacity = none)
    (alike : top.session.ExtendedBy [] other.session) (count : Nat) :
    List.Forall₂ Step.Alike (top.history count) (other.history count) ∧
      (top.runFor count).session.ExtendedBy [] (other.runFor count).session := by
  induction count with
  | zero => exact ⟨.nil, alike⟩
  | succ count hypothesis =>
    obtain ⟨steps, reached⟩ := hypothesis
    obtain ⟨last, next⟩ := step_of_same_kinds (operators_of_runFor free count).2
      (operators_of_runFor unlimited count).2 reached
    rw [history_succ, history_succ, session_runFor_succ, session_runFor_succ]
    exact ⟨List.rel_append steps (.cons last .nil), next⟩

end Toplevel

/-- Inputs whose tokens are of the same kinds give sessions that differ in places only. -/
theorem Session.extendedBy_nil_of_kinds {first second : Input} {one two : Option String}
    (same : (first.tokens one).map Token.kind = (second.tokens two).map Token.kind)
    (operators : OperatorTable) :
    (Session.start (.ofLexer (.ofInput first one)) operators).ExtendedBy []
      (.start (.ofLexer (.ofInput second two)) operators) := by
  constructor
  · rfl
  · rw [List.append_nil]
    simp only [Input.tokens, TokenStream.toList, List.map_append, List.map_singleton,
      Token.endAt_kind] at same
    exact (List.append_cancel_right same).symm

namespace Toplevel

/-- Two inputs whose tokens are of the same kinds, under the same operators and with printers whose
sinks never fail: any number of steps of the one are like those of the other, with the same forms,
the same faults and tokens of the same kinds passed over. At the end the operators, the summaries
and the prompts shown are the same, and what was printed differs at most in the lines that say where
a form could not be read. -/
theorem layout_is_immaterial (first second : Input) (one two : Option String)
    (operators : OperatorTable) (sink other : Sink) (prompt : Option String)
    (same : (first.tokens one).map Token.kind = (second.tokens two).map Token.kind)
    (free : sink.capacity = none) (unlimited : other.capacity = none) :
    let left : Toplevel Printer :=
      .start (.start (.ofLexer (.ofInput first one)) operators) ⟨sink⟩ prompt
    let right : Toplevel Printer :=
      .start (.start (.ofLexer (.ofInput second two)) operators) ⟨other⟩ prompt
    (∀ count, List.Forall₂ Step.Alike (left.history count) (right.history count)) ∧
      left.run.session.operators = right.run.session.operators ∧
      left.run.summary = right.run.summary ∧ left.run.shown = right.run.shown ∧
      ∃ notices others, List.Forall₂ Notice.Alike notices others ∧
        left.run.backend.sink.contents = sink.contents ++ (Notice.printout notices).toUTF8 ∧
        right.run.backend.sink.contents = other.contents ++ (Notice.printout others).toUTF8 := by
  intro left right
  have alike := Session.extendedBy_nil_of_kinds same operators
  have level : right.session.remaining = left.session.remaining := by
    have length := congrArg List.length alike.ahead
    rw [List.append_nil, List.length_map, List.length_map] at length
    exact length
  have steps (count : Nat) := @history_of_same_kinds left right free unlimited alike count
  obtain ⟨all, reached⟩ := steps (left.session.remaining + 1)
  have ending : right.run = right.runFor (left.session.remaining + 1) := by rw [run, level]
  rw [ending]
  refine ⟨fun count => (steps count).1, ?_, ?_, ?_, _, _, Step.Alike.flatMap_notices all,
    contents_runFor free _, contents_runFor unlimited _⟩
  · rw [reached.same]
    rfl
  · rw [run, summary_runFor, summary_runFor, Step.Alike.tallies_eq all]
    rfl
  · rw [run, (shown_runFor _ _).2, (shown_runFor _ _).2, Step.Alike.countP_wantsPrompt all]
    rfl

/-- Two texts with comments, line breaks and names of their own. Both have a call that cannot be
read, at different places, and the definition of an operator behind it. -/
theorem layout_is_immaterial_of_comments :
    let first : Input := .ofText "f(,;def binary|(a b)a" none
    let second : Input := .ofText "f # call\n  (\t,\r\n;def binary | (a b)\n# body\n\na\n" none
    let left : Toplevel Printer :=
      .start (.start (.ofLexer (.ofInput first none)) .builtin) ⟨.unlimited⟩ (some "> ")
    let right : Toplevel Printer :=
      .start (.start (.ofLexer (.ofInput second (some "b.ks"))) .builtin) ⟨.unlimited⟩ (some "> ")
    let form : Form := .definition ⟨.binary '|' ["a", "b"] 30, .reference "a"⟩
    (first.tokens none).map Token.kind = (second.tokens (some "b.ks")).map Token.kind ∧
      left.history 3 = [
        .failed (some ⟨.noExpression ",", ⟨"shell", 1, 3⟩⟩)
          ⟨.symbol ',', ⟨"shell", 1, 3⟩, ⟨"shell", 1, 4⟩⟩, .separator, .accepted form] ∧
      right.history 3 = [
        .failed (some ⟨.noExpression ",", ⟨"b.ks", 2, 5⟩⟩)
          ⟨.symbol ',', ⟨"b.ks", 2, 5⟩, ⟨"b.ks", 2, 6⟩⟩, .separator, .accepted form] ∧
      List.Forall₂ Step.Alike (left.history 3) (right.history 3) ∧
      left.run.session.operators = right.run.session.operators ∧
      left.run.summary = right.run.summary ∧ left.run.shown = right.run.shown ∧
      ∃ notices others, List.Forall₂ Notice.Alike notices others ∧
        left.run.backend.sink.contents = .empty ++ (Notice.printout notices).toUTF8 ∧
        right.run.backend.sink.contents = .empty ++ (Notice.printout others).toUTF8 := by
  intro first second left right form
  have same : (first.tokens none).map Token.kind =
      (second.tokens (some "b.ks")).map Token.kind := by
    decide +kernel
  obtain ⟨steps, operators, summary, shown, printed⟩ := layout_is_immaterial first second none
    (some "b.ks") .builtin .unlimited .unlimited (some "> ") same rfl rfl
  let token (source : String) (line column width : UInt32) (kind : Token.Kind) : Token :=
    ⟨kind, ⟨⟨source, line, column⟩, ⟨source, line, column + width⟩⟩⟩
  have tight : TokenStream.ofLexer (.ofInput first none) =
      let spot := token "shell" 1
      ⟨[spot 1 1 (.identifier "f"), spot 2 1 (.symbol '('), spot 3 1 (.symbol ','),
        spot 4 1 (.symbol ';'), spot 5 3 (.keyword .defWord), spot 9 6 (.keyword .binaryWord),
        spot 15 1 (.symbol '|'), spot 16 1 (.symbol '('), spot 17 1 (.identifier "a"),
        spot 19 1 (.identifier "b"), spot 20 1 (.symbol ')'), spot 21 1 (.identifier "a")],
        ⟨"shell", 1, 22⟩, none⟩ := by decide +kernel
  have loose : TokenStream.ofLexer (.ofInput second (some "b.ks")) =
      let spot := token "b.ks"
      ⟨[spot 1 1 1 (.identifier "f"), spot 2 3 1 (.symbol '('), spot 2 5 1 (.symbol ','),
        spot 3 1 1 (.symbol ';'), spot 3 2 3 (.keyword .defWord), spot 3 6 6 (.keyword .binaryWord),
        spot 3 13 1 (.symbol '|'), spot 3 15 1 (.symbol '('), spot 3 16 1 (.identifier "a"),
        spot 3 18 1 (.identifier "b"), spot 3 19 1 (.symbol ')'), spot 6 1 1 (.identifier "a")],
        ⟨"b.ks", 6, 3⟩, none⟩ := by decide +kernel
  refine ⟨same, ?_, ?_, steps 3, operators, summary, shown, printed⟩
  · show (Toplevel.start (.start (TokenStream.ofLexer _) _) _ _).history 3 = _
    rw [tight]
    rfl
  · show (Toplevel.start (.start (TokenStream.ofLexer _) _) _ _).history 3 = _
    rw [loose]
    rfl

end Toplevel

end Kaleidoscope
