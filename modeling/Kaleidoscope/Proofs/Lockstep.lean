import Kaleidoscope.Proofs.Accounting
import Kaleidoscope.Proofs.Diagnosis
import Kaleidoscope.Proofs.Visibility

set_option autoImplicit false

/- Two runs on tokens of the same kinds take like steps. If the second has more tokens behind those
of the first, and the next of them is a symbol that takes part in no expression, then a form that
ends with the first input ends at that symbol in the second. -/

namespace Kaleidoscope

open BoundedParser hiding pure bind

/-- Places do not matter, and the first of the further tokens may stand where the input ends. -/
def Tolerance.before (extra : List Token.Kind) : Tolerance where
  places _ _ := True
  closing symbol := extra.head? = some (.symbol symbol)

theorem Tolerance.before_nil_closes (operators : OperatorTable) :
    (before []).Closes operators where
  looser _ none := by cases none
  plain _ none := by cases none

namespace Session

/-- The other session has tokens of the same kinds ahead, and then the `extra` ones. All but the
tokens is the same. -/
structure ExtendedBy (session : Session) (extra : List Token.Kind) (other : Session) : Prop where
  same : other = session.upon other.tokens
  ahead : other.tokens.ahead.map Token.kind = session.tokens.ahead.map Token.kind ++ extra

variable {session after other : Session} {extra : List Token.Kind}

theorem current_of_ahead_cons {token : Token} {ahead : List Token}
    (shown : session.tokens.ahead = token :: ahead) : session.current = token := by
  simp [current, TokenStream.current, shown]

namespace ExtendedBy

/-- At the end of the first input the first of the further tokens is current. -/
theorem kind_current_of_ended {kind : Token.Kind} {rest : List Token.Kind}
    (extended : session.ExtendedBy (kind :: rest) other) (none : session.tokens.ahead = []) :
    other.current.kind = kind := by
  have ahead := extended.ahead
  rw [none, List.map_nil, List.nil_append, List.map_eq_cons_iff] at ahead
  obtain ⟨first, others, shown, same, -⟩ := ahead
  rw [current_of_ahead_cons shown, same]

theorem kind_current (extended : session.ExtendedBy extra other)
    (inside : session.tokens.ahead = [] → extra = []) :
    other.current.kind = session.current.kind := by
  have ahead := extended.ahead
  cases row : session.tokens.ahead with
  | nil =>
    rw [row, inside row, List.map_nil, List.append_nil, List.map_eq_nil_iff] at ahead
    rw [ended_of_ahead_nil row, ended_of_ahead_nil ahead]
  | cons token rest =>
    rw [row, List.map_cons, List.cons_append, List.map_eq_cons_iff] at ahead
    obtain ⟨first, others, shown, kind, -⟩ := ahead
    rw [current_of_ahead_cons row, current_of_ahead_cons shown, kind]

theorem advance (extended : session.ExtendedBy extra other)
    (inside : session.tokens.ahead = [] → extra = []) :
    session.advance.ExtendedBy extra other.advance := by
  constructor
  · rw [extended.same]
    rfl
  · rw [advance_ahead, advance_ahead, List.map_tail, extended.ahead, List.map_tail]
    cases row : session.tokens.ahead with
    | nil => rw [inside row]; rfl
    | cons token rest => rfl

/-- Other operators on both sides leave the tokens as they are. -/
theorem withOperators (extended : session.ExtendedBy extra other) (operators : OperatorTable) :
    { session with operators := operators }.ExtendedBy extra
      { other with operators := operators } := by
  constructor
  · rw [extended.same]
    rfl
  · exact extended.ahead

/-- The other session has a row like that of the first before what is left. -/
theorem exists_prepend (extended : session.ExtendedBy extra other) {row : List Token}
    (same : session = after.prepend row) :
    ∃ (like : List Token) (behind : TokenStream), other = (after.upon behind).prepend like ∧
      List.Forall₂ (Token.Alike (.before extra)) row like ∧
        after.ExtendedBy extra (after.upon behind) := by
  have ahead := extended.ahead
  rw [same, prepend_ahead, List.map_append, List.append_assoc, List.map_eq_append_iff] at ahead
  obtain ⟨like, rest, split, kinds, left⟩ := ahead
  refine ⟨like, { other.tokens with ahead := rest }, ?_, ?_, rfl, left⟩
  · rw [extended.same, upon_of_prepend same]
    unfold prepend upon
    rw [← split]
  · have alike : List.Forall₂ Eq (row.map Token.kind) (like.map Token.kind) := by
      rw [kinds, List.forall₂_eq_eq_eq]
    rw [List.forall₂_map_left_iff, List.forall₂_map_right_iff] at alike
    exact alike.imp fun _ _ kind => ⟨kind, trivial⟩

end ExtendedBy

/-- A form is read alike in the extended session. If it cannot be read and the input ends there,
nothing further may follow. -/
theorem form_of_extendedBy {outcome : Outcome Form} (extended : session.ExtendedBy extra other)
    (closes : (Tolerance.before extra).Closes session.operators)
    (starts : ∀ kind ∈ extra.head?, ∃ symbol, kind = .symbol symbol)
    (more : session.current.kind ≠ .endOfInput) (run : session.form = (outcome, after))
    (settled : (∃ form, outcome = .parsed form) ∨ (after.tokens.ahead = [] → extra = [])) :
    ∃ result final, other.form = (result, final) ∧ outcome.Alike (.before extra) result ∧
      after.ExtendedBy extra final := by
  obtain ⟨row, same, again⟩ := form_repeats closes more outcome after (congrArg some run)
  obtain ⟨like, behind, whole, alike, left⟩ := extended.exists_prepend same
  have bears : outcome.Bears (.before extra) after.current behind.current := by
    by_cases inside : after.tokens.ahead = [] → extra = []
    · exact .alike ⟨(left.kind_current inside).symm, trivial⟩
    · -- The form is complete where the first input ends, and a further token stands there.
      obtain ⟨form, rfl⟩ := settled.resolve_right inside
      rw [Classical.not_imp] at inside
      obtain ⟨kind, rest, rfl⟩ := List.exists_cons_of_ne_nil inside.2
      obtain ⟨symbol, rfl⟩ := starts kind rfl
      exact .closed (ended_of_ahead_nil inside.1) (left.kind_current_of_ended inside.1) rfl
  obtain ⟨result, repeated, similar⟩ := again like behind alike bears
  rw [← whole] at repeated
  exact ⟨result, after.upon behind, Option.some.inj repeated, similar, left⟩

end Session

/-- Steps that differ at most in places. -/
inductive Step.Alike : Step → Step → Prop where
  | separator : Alike .separator .separator
  | accepted (form : Form) : Alike (.accepted form) (.accepted form)
  | failed {failure other : Option Failure} {skipped token : Token}
      (fault : failure.map Failure.fault = other.map Failure.fault)
      (kind : skipped.kind = token.kind) : Alike (.failed failure skipped) (.failed other token)
  | finished : Alike .finished .finished

namespace Step.Alike

variable {step other : Step} {steps others : List Step}

theorem form?_eq (alike : step.Alike other) : step.form? = other.form? := by
  cases alike <;> rfl

theorem tally_eq (alike : step.Alike other) : step.tally = other.tally := by
  cases alike <;> rfl

theorem forms_eq (alike : List.Forall₂ Step.Alike steps others) :
    steps.filterMap form? = others.filterMap form? := by
  induction alike with
  | nil => rfl
  | cons first _ hypothesis =>
    rw [List.filterMap_cons, List.filterMap_cons, first.form?_eq, hypothesis]

theorem tallies_eq (alike : List.Forall₂ Step.Alike steps others) :
    steps.map tally = others.map tally := by
  rw [← List.forall₂_eq_eq_eq, List.forall₂_map_left_iff, List.forall₂_map_right_iff]
  exact alike.imp fun _ _ same => same.tally_eq

end Step.Alike

namespace Toplevel

variable {top other : Toplevel Printer} {extra : List Token.Kind}

/-- A printer whose sink never fails uses the form, and enters its operator. -/
theorem submit_of_unlimited (free : top.backend.sink.capacity = none) (session : Session)
    (form : Form) :
    (top.submit session form).1 = .accepted form ∧
    (top.submit session form).2.session =
      { session with operators := session.operators.enter form } := by
  obtain ⟨used, -, entered⟩ := Printer.accept_of_unlimited free form session.operators
  rw [submit_of_used used]
  refine ⟨rfl, ?_⟩
  have table : (Backend.accept top.backend form session.operators).operators =
      session.operators.enter form := entered
  rw [table]

/-- A form that cannot be read in the first run cannot be read in the second. -/
theorem recover_of_extendedBy {session : Session} {failure : Option Failure}
    (extended : top.session.ExtendedBy extra other.session)
    (closes : (Tolerance.before extra).Closes top.session.operators)
    (starts : ∀ kind ∈ extra.head?, ∃ symbol, kind = .symbol symbol)
    (more : top.session.current.kind ≠ .endOfInput)
    (plain : top.session.current.kind ≠ .symbol ';')
    (run : top.session.form = (failure.elim .incomplete .failed, session))
    (settled : session.tokens.ahead = [] → extra = []) :
    (top.recover session failure).1.Alike other.step.1 ∧
      (top.recover session failure).2.session.ExtendedBy extra other.step.2.session := by
  obtain ⟨outcome, final, repeated, alike, left⟩ :=
    Session.form_of_extendedBy extended closes starts more run (.inr settled)
  have same := extended.kind_current fun none => absurd (Session.ended_of_ahead_nil none) more
  have again : ∃ second, other.step = other.recover final second ∧
      failure.map Failure.fault = second.map Failure.fault := by
    rw [step_of_form (same ▸ more) (same ▸ plain), repeated]
    cases failure with
    | none =>
      cases alike
      exact ⟨none, rfl, rfl⟩
    | some failure =>
      cases alike
      exact ⟨some _, rfl, rfl⟩
  obtain ⟨second, stepped, fault⟩ := again
  rw [stepped]
  exact ⟨.failed fault (left.kind_current settled).symm, left.advance settled⟩

/-- One step: as long as the first run is not at its end, the second does the like. -/
theorem step_of_extendedBy (free : top.backend.sink.capacity = none)
    (unlimited : other.backend.sink.capacity = none)
    (extended : top.session.ExtendedBy extra other.session)
    (closes : (Tolerance.before extra).Closes top.session.operators)
    (starts : ∀ kind ∈ extra.head?, ∃ symbol, kind = .symbol symbol)
    (visible : ∀ failure skipped, top.step.1 = .failed failure skipped →
      skipped.kind = .endOfInput → extra = [])
    (continues : top.step.1 ≠ .finished) :
    top.step.1.Alike other.step.1 ∧
      top.step.2.session.ExtendedBy extra other.step.2.session := by
  have more : top.session.current.kind ≠ .endOfInput := fun ended =>
    continues (finished_iff.2 ended)
  have inside : top.session.tokens.ahead = [] → extra = [] := fun none =>
    absurd (Session.ended_of_ahead_nil none) more
  have same := extended.kind_current inside
  have taken := top.dispatch
  generalize top.step = result at visible continues taken ⊢
  cases taken with
  | finished ended => exact absurd ended more
  | separator seen =>
    rw [step_of_separator (same.trans seen)]
    exact ⟨.separator, extended.advance inside⟩
  | @submitted form session _ plain run =>
    obtain ⟨outcome, final, repeated, alike, left⟩ :=
      Session.form_of_extendedBy extended closes starts more run (.inl ⟨form, rfl⟩)
    cases alike
    rw [step_of_form (same ▸ more) (same ▸ plain), repeated]
    obtain ⟨used, behind⟩ := submit_of_unlimited free session form
    obtain ⟨again, beyond⟩ := submit_of_unlimited unlimited final form
    have level : final.operators = session.operators := by rw [left.same]; rfl
    rw [used, again, behind, beyond, level]
    exact ⟨.accepted form, left.withOperators _⟩
  | incomplete _ plain run =>
    exact recover_of_extendedBy extended closes starts more plain run fun none =>
      visible _ _ rfl (Session.ended_of_ahead_nil none)
  | failed _ plain run =>
    exact recover_of_extendedBy extended closes starts more plain run fun none =>
      visible _ _ rfl (Session.ended_of_ahead_nil none)

/-- Any number of steps, with the induction on it: up to the end of the first run the two go in
lockstep. -/
theorem history_of_extendedBy (free : top.backend.sink.capacity = none)
    (unlimited : other.backend.sink.capacity = none)
    (extended : top.session.ExtendedBy extra other.session)
    (starts : ∀ kind ∈ extra.head?, ∃ symbol, kind = .symbol symbol) (count : Nat)
    (closes : ∀ index, (Tolerance.before extra).Closes (top.runFor index).session.operators)
    (visible : ∀ index failure skipped, (top.runFor index).step.1 = .failed failure skipped →
      skipped.kind = .endOfInput → extra = [])
    (continues : ∀ index < count, (top.runFor index).step.1 ≠ .finished) :
    List.Forall₂ Step.Alike (top.history count) (other.history count) ∧
      (top.runFor count).session.ExtendedBy extra (other.runFor count).session := by
  induction count with
  | zero => exact ⟨.nil, extended⟩
  | succ count hypothesis =>
    obtain ⟨alike, reached⟩ := hypothesis fun index less => continues index (by omega)
    obtain ⟨last, next⟩ := step_of_extendedBy (operators_of_runFor free count).2
      (operators_of_runFor unlimited count).2 reached (closes count) starts (visible count)
      (continues count (by omega))
    rw [history_succ, history_succ, session_runFor_succ, session_runFor_succ]
    exact ⟨List.rel_append alike (.cons last .nil), next⟩

end Toplevel

end Kaleidoscope
