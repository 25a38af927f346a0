import Kaleidoscope.Proofs.Derivation

set_option autoImplicit false

/- Every operand that was opened is closed again, whatever the outcome is, and no reading step
touches the table of operators. -/

namespace Kaleidoscope

/-- The reading steps that start at a token of a session, by the value that they give. -/
inductive Production : Type → Type where
  | expression : Production Expr
  | operand : Production Expr
  | primary : Production Expr
  | operations (minimum : Int32) (left : Expr) : Production Expr
  | prototype : Production Prototype
  | definition : Production Definition
  | declaration : Production Prototype
  | wrappedExpression : Production Definition

def Production.read {α : Type} : Production α → Parser α
  | expression => Session.expression
  | operand => Session.operand
  | primary => Session.primary
  | operations minimum left => Session.operations minimum left
  | prototype => Session.prototype
  | definition => Session.definition
  | declaration => Session.declaration
  | wrappedExpression => Session.wrappedExpression

namespace Parser

open Session

variable {α β : Type} {session : Session}

/-- The step takes a row of tokens off the front of the session and leaves the rest of it alone,
with every outcome. -/
def Keeps (step : Parser α) (session : Session) : Prop :=
  step.Yields session fun _ _ => True

theorem Yields.keeps {step : Parser α} {relation : List Token.Kind → α → Prop}
    (yields : step.Yields session relation) : step.Keeps session :=
  yields.mono fun _ _ _ => trivial

theorem Keeps.bind {first : Parser α} {next : α → Parser β} (begins : first.Keeps session)
    (continues : ∀ value after, (next value).Keeps after) : (first >>= next).Keeps session := by
  apply Yields.bind begins
  intro row value after _ _
  exact continues value after

theorem keeps_take (session : Session) : take.Keeps session := by
  obtain ⟨row, same⟩ := session.exists_prepend_advance
  exact ⟨row, same, fun _ _ => trivial⟩

theorem keeps_expect (kind : Token.Kind) (expectation : String) (session : Session) :
    (expect kind expectation).Keeps session := by
  unfold Keeps Yields expect
  split
  · exact keeps_take session
  · exact yields_unexpected expectation session _

theorem keeps_expectName (expectation : String) (session : Session) :
    (expectName expectation).Keeps session :=
  (yields_expectName expectation session).keeps

theorem keeps_unexpected (expectation : String) (session : Session) :
    (unexpected expectation : Parser α).Keeps session :=
  yields_unexpected expectation session _

theorem keeps_noExpression (session : Session) : (noExpression : Parser α).Keeps session :=
  yields_noExpression session _

theorem Keeps.depth_eq {step : Parser α} (keeps : step.Keeps session) :
    (step session).2.depth = session.depth := by
  obtain ⟨row, same, -⟩ := keeps
  exact (congrArg Session.depth same).symm

theorem Keeps.limit_eq {step : Parser α} (keeps : step.Keeps session) :
    (step session).2.limit = session.limit := by
  obtain ⟨row, same, -⟩ := keeps
  exact (congrArg Session.limit same).symm

end Parser

namespace Session

/-- What is read inside an operand is closed at the depth at which it was opened, so closing never
goes below the depth of the session outside. -/
theorem depth_of_prefixed {fuel : Nat} {session deeper after : Session} {outcome : Outcome Expr}
    (opened : session.openOperand = .ok deeper)
    (run : (Grammar.read fuel .prefixed : BoundedParser Expr) deeper = some (outcome, after)) :
    after.depth = session.depth + 1 := by
  obtain ⟨row, same, -⟩ := Grammar.sound fuel .prefixed deeper outcome after run
  have depth : deeper.depth = session.depth + 1 := by rw [eq_of_openOperand opened]
  rw [← depth, same, prepend_depth]

end Session

namespace Production

open Kaleidoscope.Parser

/-- No reading step changes more of a session than the tokens ahead. -/
theorem keeps {α : Type} (production : Production α) (session : Session) :
    production.read.Keeps session := by
  cases production with
  | expression => exact (Session.expression_yields session).keeps
  | operand => exact (Session.operand_yields session).keeps
  | primary => exact (Session.read_yields .primary session).keeps
  | operations minimum left => exact (Session.read_yields (.operations minimum left) session).keeps
  | prototype => exact (Session.prototype_yields session).keeps
  | definition =>
    apply (keeps_take session).bind
    intro _ second
    apply (Session.prototype_yields second).keeps.bind
    intro _ third
    apply (Session.expression_yields third).keeps.bind
    intro _ final
    exact yields_pure trivial
  | declaration =>
    apply (keeps_take session).bind
    intro _ second
    exact (Session.prototype_yields second).keeps
  | wrappedExpression => exact (Session.wrappedExpression_yields session).keeps

end Production

namespace Session

/-- No operand is open, and as many may be as at the start of an input. -/
def Fresh (session : Session) : Prop :=
  session.depth = 0 ∧ session.limit = some nestingLimit

theorem Fresh.eq_start {session : Session} (fresh : session.Fresh) :
    session = .start session.tokens session.operators := by
  rcases session with ⟨tokens, operators, depth, limit⟩
  obtain ⟨rfl, rfl⟩ := fresh
  rfl

end Session

namespace Toplevel

variable {β : Type} [Backend β]

/-- The states that steps and prompts lead to, in any order. -/
inductive Reachable (start : Toplevel β) : Toplevel β → Prop where
  | start : Reachable start start
  | step {top : Toplevel β} (reached : Reachable start top) : Reachable start top.step.2
  | prompt {top : Toplevel β} (reached : Reachable start top) : Reachable start top.showPrompt

theorem reachable_runFor (top : Toplevel β) (count : Nat) : Reachable top (top.runFor count) := by
  induction count with
  | zero => exact .start
  | succ count ih =>
    rw [runFor_succ]
    by_cases finished : (top.runFor count).step.1 = .finished
    · rw [runFor_of_finished finished]
      exact ih
    · rw [runFor_succ_of_not_finished finished]
      change Reachable top (ite _ _ _)
      split
      · exact .prompt (.step ih)
      · exact .step ih

/-- A step leaves the depth of the session and the limit on it as they were. -/
theorem depth_of_step (top : Toplevel β) :
    top.step.2.session.depth = top.session.depth ∧
    top.step.2.session.limit = top.session.limit := by
  have keeps := (Session.form_yields top.session).keeps
  have depth := keeps.depth_eq
  have limit := keeps.limit_eq
  have taken := top.dispatch
  generalize top.step = result at taken ⊢
  cases taken with
  | finished ended => exact ⟨rfl, rfl⟩
  | separator seen => exact ⟨rfl, rfl⟩
  | submitted more plain run =>
    rw [run] at depth limit
    unfold submit
    split <;> exact ⟨depth, limit⟩
  | incomplete more plain run =>
    rw [run] at depth limit
    exact ⟨depth, limit⟩
  | failed more plain run =>
    rw [run] at depth limit
    exact ⟨depth, limit⟩

theorem fresh_of_reachable {start top : Toplevel β} (fresh : start.session.Fresh)
    (reached : Reachable start top) : top.session.Fresh := by
  induction reached with
  | start => exact fresh
  | @step top reached ih =>
    obtain ⟨depth, limit⟩ := top.depth_of_step
    exact ⟨depth.trans ih.1, limit.trans ih.2⟩
  | prompt reached ih => exact ih

/-- What the next step does is settled by the session and the backend. -/
theorem step_of_same {top other : Toplevel β} (session : top.session = other.session)
    (backend : top.backend = other.backend) :
    top.step.1 = other.step.1 ∧ top.step.2.session = other.step.2.session ∧
      top.step.2.backend = other.step.2.backend := by
  unfold step
  rw [session]
  split
  · exact ⟨rfl, session, backend⟩
  split
  · exact ⟨rfl, rfl, backend⟩
  split
  · unfold submit
    rw [backend]
    split <;> exact ⟨rfl, rfl, rfl⟩
  · exact ⟨rfl, rfl, congrArg (Backend.report · _) backend⟩
  · exact ⟨rfl, rfl, congrArg (Backend.report · _) backend⟩

theorem runFor_of_same {top other : Toplevel β} (session : top.session = other.session)
    (backend : top.backend = other.backend) (count : Nat) :
    (top.runFor count).session = (other.runFor count).session ∧
      (top.runFor count).backend = (other.runFor count).backend := by
  induction count with
  | zero => exact ⟨session, backend⟩
  | succ count ih =>
    obtain ⟨-, next, following⟩ := step_of_same ih.1 ih.2
    rw [session_runFor_succ, session_runFor_succ, backend_runFor_succ, backend_runFor_succ]
    exact ⟨next, following⟩

theorem history_of_same {top other : Toplevel β} (session : top.session = other.session)
    (backend : top.backend = other.backend) (count : Nat) :
    top.history count = other.history count := by
  apply List.map_congr_left
  intro index _
  obtain ⟨same, alike⟩ := runFor_of_same session backend index
  exact (step_of_same same alike).1

end Toplevel

namespace Session

/-- No reading step leaves a mark on the session beside the tokens that it takes: the depth and the
operators behind it are those before it, with every outcome, and an operand is closed at the depth
at which it was opened. Between the steps of the top level no operand is open, and what the steps
to come do is what they would do in a fresh session on the tokens that are left, with the operators
that are in force. -/
theorem reading_is_history_free :
    (∀ (α : Type) (production : Production α) (session : Session),
      (production.read session).2.depth = session.depth ∧
      (production.read session).2.operators = session.operators) ∧
    (∀ (fuel : Nat) (session deeper after : Session) (outcome : Outcome Expr),
      session.openOperand = .ok deeper →
        (Grammar.read fuel .prefixed : BoundedParser Expr) deeper = some (outcome, after) →
          0 < after.depth ∧ after.closeOperand.depth = session.depth) ∧
    (∀ (β : Type) [Backend β] (tokens : TokenStream) (operators : OperatorTable) (backend : β)
      (prompt : Option String) (top : Toplevel β),
      Toplevel.Reachable (.start (.start tokens operators) backend prompt) top →
        top.session.depth = 0 ∧
        ∀ (other : Option String) (count : Nat),
          top.history count =
            (Toplevel.start (.start top.session.tokens top.session.operators) top.backend
              other).history count) := by
  refine ⟨?_, ?_, ?_⟩
  · intro α production session
    have keeps := production.keeps session
    exact ⟨keeps.depth_eq, keeps.operators_eq⟩
  · intro fuel session deeper after outcome opened run
    have depth := depth_of_prefixed opened run
    constructor
    · omega
    · show after.depth - 1 = session.depth
      omega
  · intro β _ tokens operators backend prompt top reached
    have fresh := Toplevel.fresh_of_reachable ⟨rfl, rfl⟩ reached
    refine ⟨fresh.1, ?_⟩
    intro other count
    apply Toplevel.history_of_same
    · exact fresh.eq_start
    · rfl

theorem reading_is_history_free_of_failures :
    let place (kind : Token.Kind) : Token := ⟨kind, ⟨.nowhere, .nowhere⟩⟩
    let stream (kinds : List Token.Kind) : TokenStream := ⟨kinds.map place, .nowhere, none⟩
    let full : Session := ⟨stream [.identifier "x"], .builtin, nestingLimit, some nestingLimit⟩
    let inner : Session := ⟨stream [.symbol '(', .symbol ','], .builtin, 5, some nestingLimit⟩
    let inside : Session := { inner with depth := 6 }
    let behind : Session := { inside with tokens := stream [.symbol ','] }
    let top : Toplevel Recorder :=
      .start (.start (stream [.symbol '(', .symbol ',', .identifier "y"]) .builtin)
        (.fresh true []) none
    let later := top.step.2
    full.operand.1 = .failed ⟨.tooDeep nestingLimit, .nowhere⟩ ∧
      full.operand.2.depth = nestingLimit ∧
      (Grammar.read 7 .prefixed : BoundedParser Expr) inside =
        some (.failed ⟨.noExpression ",", .nowhere⟩, behind) ∧
      behind.closeOperand.depth = 5 ∧
      top.step.1 = .failed (some ⟨.noExpression ",", .nowhere⟩) (place (.symbol ',')) ∧
      later.session.depth = 0 ∧
      later.history 2 = (Toplevel.start (.start later.session.tokens later.session.operators)
        later.backend (some "> ")).history 2 := by
  intro place stream full inner inside behind top later
  obtain ⟨kept, balanced, fresh⟩ := reading_is_history_free
  have opened : inner.openOperand = .ok inside := by rfl
  have read : (Grammar.read 7 .prefixed : BoundedParser Expr) inside =
      some (.failed ⟨.noExpression ",", .nowhere⟩, behind) := by rfl
  obtain ⟨depth, steps⟩ := fresh Recorder _ _ _ _ later (.step .start)
  exact ⟨rfl, (kept Expr .operand full).1, read, (balanced 7 inner inside behind _ opened read).2,
    rfl, depth, steps (some "> ") 2⟩

end Session

end Kaleidoscope
