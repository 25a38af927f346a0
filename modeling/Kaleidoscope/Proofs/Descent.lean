import Kaleidoscope.Proofs.Activations
import Kaleidoscope.Proofs.Height

set_option autoImplicit false

/- Nothing counts the calls for operations. But such a call inside another one of the same operand
stands behind an operator that binds tighter than all that wait outside of it. -/

namespace Kaleidoscope

namespace OperatorTable

variable {operators : OperatorTable}

/-- The precedences of the operators of a table. -/
def ranks (operators : OperatorTable) : Finset Int32 :=
  operators.precedences.filter (0 < ·)

/-- Those of them that are not below `minimum`. -/
def ranksFrom (operators : OperatorTable) (minimum : Int32) : Finset Int32 :=
  operators.ranks.filter (minimum ≤ ·)

theorem ranksFrom_subset {low high : Int32} (less : low ≤ high) :
    operators.ranksFrom high ⊆ operators.ranksFrom low := by
  intro precedence inside
  rw [ranksFrom, Finset.mem_filter] at inside ⊢
  exact ⟨inside.1, Int32.le_trans less inside.2⟩

/-- The precedence of an operator does not count among those above it. -/
theorem card_ranksFrom_succ_lt {symbol : Char} {high : Int32}
    (positive : 0 < operators.precedence symbol) (below : operators.precedence symbol < high) :
    (operators.ranksFrom (operators.precedence symbol + 1)).card <
      (operators.ranksFrom (operators.precedence symbol)).card := by
  have successor := toInt_succ_of_lt below
  have inside : operators.precedence symbol ∈ operators.ranks :=
    Finset.mem_filter.2 ⟨precedence_mem_precedences positive, positive⟩
  apply Finset.card_lt_card
  rw [Finset.ssubset_iff_of_subset]
  · refine ⟨operators.precedence symbol, Finset.mem_filter.2 ⟨inside, Int32.le_refl _⟩, ?_⟩
    intro among
    have above := Int32.le_iff_toInt_le.1 (Finset.mem_filter.1 among).2
    omega
  · apply ranksFrom_subset
    rw [Int32.le_iff_toInt_le]
    omega

/-- The calls for operations that may be open at the same time, when so many operands may be. -/
def allowance (operators : OperatorTable) (room : Nat) : Nat :=
  room * (operators.ranks.card + 1)

/-- Those of them that may be open inside of a call for operations from `minimum` on. -/
def allowanceFrom (operators : OperatorTable) (minimum : Int32) (room : Nat) : Nat :=
  (operators.ranksFrom minimum).card + operators.allowance (room - 1)

theorem allowance_pred_le (room : Nat) :
    operators.allowance (room - 1) ≤ operators.allowance room :=
  Nat.mul_le_mul_right _ (Nat.sub_le room 1)

/-- An operand that was read has left room for the operations behind it. -/
theorem allowanceFrom_lt {room : Nat} (positive : 0 < room) (minimum : Int32) :
    operators.allowanceFrom minimum room < operators.allowance room := by
  have few : (operators.ranksFrom minimum).card ≤ operators.ranks.card :=
    Finset.card_le_card (Finset.filter_subset _ _)
  obtain ⟨less, rfl⟩ := Nat.exists_eq_add_one.2 positive
  simp only [allowanceFrom, allowance, Nat.add_sub_cancel, Nat.succ_mul]
  omega

theorem allowanceFrom_le {low high : Int32} (less : low ≤ high) (room : Nat) :
    operators.allowanceFrom high room ≤ operators.allowanceFrom low room :=
  Nat.add_le_add_right (Finset.card_le_card (ranksFrom_subset less)) _

theorem allowanceFrom_succ_lt {symbol : Char} {high : Int32}
    (positive : 0 < operators.precedence symbol) (below : operators.precedence symbol < high)
    (room : Nat) : operators.allowanceFrom (operators.precedence symbol + 1) room <
      operators.allowanceFrom (operators.precedence symbol) room :=
  Nat.add_lt_add_right (card_ranksFrom_succ_lt positive below) _

end OperatorTable

/-- Among these open calls are at most so many for operands that were entered, one for an operand
that is being refused, and so many for operations. -/
structure Activation.Fit (room allowed : Nat) (stack : List Activation) : Prop where
  entered : stack.count (.operand true) ≤ room
  refused : stack.count (.operand false) ≤ 1
  operations : stack.count .operations ≤ allowed

namespace Activation

variable {room allowed : Nat} {stack : List Activation}

theorem fit_nil : Fit room allowed [] := by
  constructor <;> simp

theorem fit_refused : Fit room allowed [operand false] := by
  constructor <;> simp

theorem Fit.mono {more : Nat} (fit : Fit room allowed stack) (less : allowed ≤ more) :
    Fit room more stack :=
  ⟨fit.entered, fit.refused, Nat.le_trans fit.operations less⟩

theorem Fit.cons_operand (fit : Fit room allowed stack) :
    Fit (room + 1) allowed (operand true :: stack) := by
  obtain ⟨entered, refused, operations⟩ := fit
  constructor <;> simpa

theorem Fit.cons_operations (fit : Fit room allowed stack) :
    Fit room (allowed + 1) (.operations :: stack) := by
  obtain ⟨entered, refused, operations⟩ := fit
  constructor <;> simpa

theorem countP_isOperand (stack : List Activation) :
    stack.countP isOperand = stack.count (operand true) + stack.count (operand false) := by
  induction stack with
  | nil => rfl
  | cons call rest ih =>
    rcases call with ⟨_ | _⟩ | _ <;> simp [List.countP_cons, isOperand, ih] <;> omega

end Activation

theorem Trace.forall_mem_during {α : Type} {call : Activation} {inner : Trace α}
    {property : List Activation → Prop} (alone : property [call])
    (inside : ∀ stack ∈ inner.calls, property (call :: stack)) :
    ∀ stack ∈ (inner.during call).calls, property stack := by
  intro stack given
  simp only [during, List.map_cons, List.mem_cons, List.mem_map] at given
  obtain rfl | ⟨rest, member, rfl⟩ := given
  · exact alone
  · exact inside rest member

/-- The table is in force, `opened` operands are open, and the limit leaves `room` for more. -/
structure Session.Leaves (session : Session) (operators : OperatorTable) (opened room : Nat) :
    Prop where
  operators : session.operators = operators
  depth : session.depth = opened
  limit : session.limit = some (opened + room)

namespace Session

variable {session : Session} {operators : OperatorTable} {opened room : Nat}

theorem Leaves.advance (leaves : session.Leaves operators opened room) :
    session.advance.Leaves operators opened room :=
  ⟨leaves.operators, leaves.depth, leaves.limit⟩

theorem Leaves.of_keeps {α : Type} {step : Parser α} (leaves : session.Leaves operators opened room)
    (keeps : step.Keeps session) : (step session).2.Leaves operators opened room :=
  ⟨keeps.operators_eq.trans leaves.operators, keeps.depth_eq.trans leaves.depth,
    keeps.limit_eq.trans leaves.limit⟩

/-- What is opened takes one of the room that there is. -/
theorem Leaves.openOperand {deeper : Session} (leaves : session.Leaves operators opened room)
    (opens : session.openOperand = .ok deeper) :
    ∃ less, room = less + 1 ∧ deeper.Leaves operators (opened + 1) less := by
  have below := depth_lt_of_openOperand leaves.limit opens
  rw [leaves.depth] at below
  refine ⟨room - 1, by omega, ?_⟩
  rw [eq_of_openOperand opens]
  refine ⟨leaves.operators, by rw [leaves.depth], ?_⟩
  rw [leaves.limit, show opened + room = opened + 1 + (room - 1) by omega]

theorem Leaves.closeOperand (leaves : session.Leaves operators (opened + 1) room) :
    session.closeOperand.Leaves operators opened (room + 1) := by
  refine ⟨leaves.operators, ?_, ?_⟩
  · rw [Session.closeOperand, leaves.depth, Nat.add_sub_cancel]
  · rw [Session.closeOperand, leaves.limit, show opened + 1 + room = opened + (room + 1) by omega]

end Session

namespace TracedParser

open Activation Session Kaleidoscope.Parser

variable {α β : Type} {operators : OperatorTable} {opened room allowed : Nat}

/-- The trace ends in the answer, which leaves as much room as before, and the calls that are open
on the way fit into that room. -/
structure Recorded (operators : OperatorTable) (opened room allowed : Nat) (trace : Trace α)
    (plain : Option (Outcome α × Session)) : Prop where
  answer : trace.answer = plain
  leaves (outcome : Outcome α) (after : Session) :
    plain = some (outcome, after) → after.Leaves operators opened room
  fit : ∀ stack ∈ trace.calls, Fit room allowed stack

theorem Recorded.mono {more : Nat} {trace : Trace α} {plain : Option (Outcome α × Session)}
    (recorded : Recorded operators opened room allowed trace plain) (less : allowed ≤ more) :
    Recorded operators opened room more trace plain :=
  ⟨recorded.answer, recorded.leaves, fun stack inside => (recorded.fit stack inside).mono less⟩

theorem recorded_after (outcome : Outcome α) {after : Session} {calls : List (List Activation)}
    (leaves : after.Leaves operators opened room)
    (fit : ∀ stack ∈ calls, Fit room allowed stack) :
    Recorded operators opened room allowed ⟨some (outcome, after), calls⟩
      (some (outcome, after)) := by
  refine ⟨rfl, ?_, fit⟩
  rintro _ _ ⟨⟩
  exact leaves

theorem recorded_outcome (outcome : Outcome α) {after : Session}
    (leaves : after.Leaves operators opened room) :
    Recorded operators opened room allowed ⟨some (outcome, after), []⟩ (some (outcome, after)) :=
  recorded_after outcome leaves (by simp)

/-- The second step is known to begin where the first has succeeded. -/
theorem Recorded.bind {first : TracedParser α} {plain : BoundedParser α}
    {next : α → TracedParser β} {following : α → BoundedParser β} {session : Session}
    (begins : Recorded operators opened room allowed (first session) (plain session))
    (continues : ∀ value after, plain session = some (.parsed value, after) →
      after.Leaves operators opened room →
      Recorded operators opened room allowed (next value after) (following value after)) :
    Recorded operators opened room allowed ((first >>= next) session)
      ((plain >>= following) session) := by
  obtain ⟨same, leaves, fit⟩ := begins
  change Recorded _ _ _ _ (TracedParser.bind first next session)
    (BoundedParser.bind plain following session)
  unfold TracedParser.bind BoundedParser.bind
  generalize first session = trace at same fit ⊢
  obtain ⟨answer, calls⟩ := trace
  subst same
  rcases run : plain session with _ | ⟨value | _ | failure, after⟩
  · exact ⟨rfl, by simp, fit⟩
  · obtain ⟨same, further, fitting⟩ := continues value after run (leaves _ _ run)
    refine ⟨same, further, ?_⟩
    intro stack inside
    exact (List.mem_append.1 inside).elim (fit stack) (fitting stack)
  · exact recorded_after .incomplete (leaves _ _ run) fit
  · exact recorded_after (.failed failure) (leaves _ _ run) fit

theorem Recorded.called {inner : TracedParser α} {session : Session}
    {plain : Option (Outcome α × Session)}
    (recorded : Recorded operators opened room allowed (inner session) plain) :
    Recorded operators opened room (allowed + 1) (called inner session) plain := by
  refine ⟨recorded.answer, recorded.leaves, ?_⟩
  apply Trace.forall_mem_during
  · exact fit_nil.cons_operations
  · intro stack inside
    exact (recorded.fit stack inside).cons_operations

/-- The step records what the plain one does, and has no more calls for operations open than the
budget gives for the room at its start. -/
def Records (operators : OperatorTable) (budget : Nat → Nat) {α : Type} (step : TracedParser α)
    (plain : BoundedParser α) : Prop :=
  ∀ opened room session, session.Leaves operators opened room →
    Recorded operators opened room (budget room) (step session) (plain session)

variable {budget more : Nat → Nat}

theorem Records.mono {step : TracedParser α} {plain : BoundedParser α}
    (records : Records operators budget step plain) (less : ∀ room, budget room ≤ more room) :
    Records operators more step plain :=
  fun opened room session leaves => (records opened room session leaves).mono (less room)

theorem records_pure (value : α) :
    Records operators budget (Pure.pure value) (Pure.pure value) :=
  fun _ _ _ leaves => recorded_outcome (.parsed value) leaves

theorem records_starved :
    Records operators budget (starved : TracedParser α) BoundedParser.starved :=
  fun _ _ _ _ => ⟨rfl, by simp [BoundedParser.starved], by simp [starved]⟩

theorem records_lift {step : Parser α} (keeps : ∀ session, step.Keeps session) :
    Records operators budget (lift step) (BoundedParser.lift step) := by
  intro opened room session leaves
  exact recorded_outcome (step session).1 (leaves.of_keeps (keeps session))

theorem Records.bind {first : TracedParser α} {plain : BoundedParser α}
    {next : α → TracedParser β} {following : α → BoundedParser β}
    (begins : Records operators budget first plain)
    (continues : ∀ value, Records operators budget (next value) (following value)) :
    Records operators budget (first >>= next) (plain >>= following) := by
  intro opened room session leaves
  apply (begins opened room session leaves).bind
  intro value after _ leaves
  exact continues value opened room after leaves

theorem Records.behind {next : Token.Kind → OperatorTable → Option (TracedParser α)}
    {following : Token.Kind → OperatorTable → Option (BoundedParser α)}
    {otherwise : TracedParser α} {plain : BoundedParser α}
    (related : ∀ kind, Option.Rel (Records operators budget) (next kind operators)
      (following kind operators))
    (left : Records operators budget otherwise plain) :
    Records operators budget (Grammar.behind next otherwise) (Grammar.behind following plain) := by
  intro opened room session leaves
  simp only [Grammar.behind, BoundedParser.look_apply, look_apply, leaves.operators]
  have both := related session.current.kind
  generalize next session.current.kind operators = choice at both
  generalize following session.current.kind operators = other at both
  cases both with
  | none => exact left opened room session leaves
  | some inside =>
    have taken := (records_lift keeps_take).bind fun _ => inside
    exact taken opened room session leaves

theorem Records.nested {inner : TracedParser α} {plain : BoundedParser α}
    (inside : Records operators budget inner plain) :
    Records operators (fun room => budget (room - 1)) (nested inner)
      (BoundedParser.nested plain) := by
  intro opened room session leaves
  unfold TracedParser.nested BoundedParser.nested
  cases opens : session.openOperand with
  | error failure =>
    -- The call is open while it is being refused, and makes no other.
    exact recorded_after (.failed failure) leaves
      (Trace.forall_mem_during fit_refused (by simp))
  | ok deeper =>
    obtain ⟨less, rfl, further⟩ := leaves.openOperand opens
    obtain ⟨answer, returns, fit⟩ := inside (opened + 1) less deeper further
    refine ⟨by simp only [Trace.during, answer], ?_, ?_⟩
    · intro outcome after run
      obtain ⟨⟨outcome, final⟩, ran, same⟩ := Option.map_eq_some_iff.1 run
      cases same
      exact (returns outcome final ran).closeOperand
    · apply Trace.forall_mem_during
      · exact fit_nil.cons_operand
      · intro stack member
        exact (fit stack member).cons_operand

/-- What a construct has open is open in one of its parts. -/
theorem records_congruent :
    Grammar.Congruent (P := TracedParser) (Q := BoundedParser) Grammar.everywhere
      fun _ {_} => Records operators budget where
  pure _ _ value := records_pure value
  bind _ _ _ _ _ _ _ begins continues := begins.bind continues
  expect _ _ kind expectation _ _ _ _ related :=
    (records_lift (keeps_expect kind expectation)).bind fun _ => related
  name _ expectation _ := records_lift (keeps_expectName expectation)
  unexpected _ _ expectation _ := records_lift (keeps_unexpected expectation)
  noExpression _ _ := records_lift keeps_noExpression
  behind _ _ _ _ _ _ _ _ related left := by
    simp only [Grammar.everywhere, forall_const] at related
    exact .behind related left

end TracedParser

namespace Grammar

open TracedParser hiding pure bind

/-- How many calls for operations each production may have open. -/
structure Recorded (operators : OperatorTable) (fuel : Nat) : Prop where
  operations (minimum : Int32) (left : Expr) : 0 ≤ minimum →
    Records operators (operators.allowanceFrom minimum) (read fuel (.operations minimum left))
      (read fuel (.operations minimum left))
  tighter (symbol : Char) (right : Expr) : 0 < operators.precedence symbol →
    Records operators (operators.allowanceFrom (operators.precedence symbol))
      (read fuel (.tighter (operators.precedence symbol) right))
      (read fuel (.tighter (operators.precedence symbol) right))
  operand :
    Records operators (fun room => operators.allowance (room - 1)) (read fuel .operand)
      (read fuel .operand)
  prefixed : Records operators operators.allowance (read fuel .prefixed) (read fuel .prefixed)
  closed {α : Type} (rule : Rule α) : rule.isClosed = true →
    Records operators operators.allowance (read fuel rule) (read fuel rule)

variable {operators : OperatorTable} {fuel : Nat}

theorem room_of_operand {opened room : Nat} {session after : Session} {value : Expr}
    (leaves : session.Leaves operators opened room)
    (run : (read fuel .operand : BoundedParser Expr) session = some (.parsed value, after)) :
    0 < room := by
  cases fuel with
  | zero => cases run
  | succ fuel =>
    change BoundedParser.nested (read fuel .prefixed) session = _ at run
    unfold BoundedParser.nested at run
    cases opens : session.openOperand with
    | error failure => simp [opens] at run
    | ok deeper =>
      obtain ⟨less, rfl, -⟩ := leaves.openOperand opens
      exact Nat.succ_pos less

/-- The call for operations comes on top of what may be open inside of it, and only after an
operand was read. -/
theorem expression_recorded (ih : Recorded operators fuel) :
    Records operators operators.allowance (read (fuel + 1) .expression)
      (read (fuel + 1) .expression) := by
  intro opened room session leaves
  apply ((ih.operand opened room session leaves).mono (operators.allowance_pred_le room)).bind
  intro left after run leaves'
  have inner := ih.operations 0 left (Int32.le_refl 0) opened room after leaves'
  exact inner.called.mono (OperatorTable.allowanceFrom_lt (room_of_operand leaves run) 0)

theorem operations_recorded (ih : Recorded operators fuel) {minimum : Int32}
    (natural : 0 ≤ minimum) (left : Expr) :
    Records operators (operators.allowanceFrom minimum) (read (fuel + 1) (.operations minimum left))
      (read (fuel + 1) (.operations minimum left)) := by
  refine .behind (fun kind => ?_) (records_pure left)
  cases kind with
  | symbol symbol =>
    by_cases low : operators.precedence symbol < minimum
    · simp only [low, ↓reduceIte]
      exact .none
    · simp only [low, ↓reduceIte]
      -- The three readers of a turn are open one after the other, so none adds to another's budget.
      have first := ih.operand.mono fun room => Nat.le_add_left (operators.allowance (room - 1))
        (operators.ranksFrom minimum).card
      have further (right : Expr) :=
        (ih.tighter symbol right (OperatorTable.precedence_pos natural low)).mono
          (OperatorTable.allowanceFrom_le (Int32.not_lt.1 low))
      exact .some (first.bind fun value => (further value).bind fun right =>
        ih.operations minimum (.binary symbol left right) natural)
  | _ => exact .none

/-- One precedence less is left to the call for what binds tighter. -/
theorem tighter_recorded (ih : Recorded operators fuel) {symbol : Char}
    (positive : 0 < operators.precedence symbol) (right : Expr) :
    Records operators (operators.allowanceFrom (operators.precedence symbol))
      (read (fuel + 1) (.tighter (operators.precedence symbol) right))
      (read (fuel + 1) (.tighter (operators.precedence symbol) right)) := by
  intro opened room session leaves
  simp only [read, body, look_apply, BoundedParser.look_apply]
  by_cases above :
      operators.precedence symbol < session.operators.precedenceOf session.current.kind
  · rw [if_pos above, if_pos above]
    have natural : 0 ≤ operators.precedence symbol + 1 := by
      have successor := toInt_succ_of_lt above
      have positive := Int32.lt_iff_toInt_lt.1 positive
      rw [Int32.le_iff_toInt_le]
      omega
    have inner := ih.operations _ right natural opened room session leaves
    exact inner.called.mono (OperatorTable.allowanceFrom_succ_lt positive above room)
  · rw [if_neg above, if_neg above]
    exact recorded_outcome (.parsed right) leaves

theorem prefixed_recorded (ih : Recorded operators fuel) :
    Records operators operators.allowance (read (fuel + 1) .prefixed)
      (read (fuel + 1) .prefixed) := by
  refine .behind (fun kind => ?_) (ih.closed .primary rfl)
  cases kind with
  | symbol symbol =>
    by_cases plain : symbol = '(' ∨ symbol = ','
    · simp only [plain, ↓reduceIte]
      exact .none
    · simp only [plain, ↓reduceIte]
      exact .some ((ih.operand.mono operators.allowance_pred_le).bind fun inner =>
        records_pure (Expr.unary symbol inner))
  | _ => exact .none

theorem recorded_succ (ih : Recorded operators fuel) : Recorded operators (fuel + 1) where
  operations _ left natural := operations_recorded ih natural left
  tighter _ right positive := tighter_recorded ih positive right
  operand := ih.prefixed.nested
  prefixed := prefixed_recorded ih
  closed _ closed :=
    records_congruent.closed (read fuel) (read fuel) (expression_recorded ih) ih.closed closed

theorem recorded (operators : OperatorTable) (fuel : Nat) : Recorded operators fuel := by
  induction fuel with
  | zero => constructor <;> intros <;> exact records_starved
  | succ fuel ih => exact recorded_succ ih

end Grammar

namespace Session

/-- However long the input is, a bounded number of calls is open at a time: those for operands by
the limit, with one more that is being refused, and those for operations by the limit and the number
of precedences. -/
theorem open_calls_are_bounded (tokens : TokenStream) (operators : OperatorTable) :
    let session := start tokens operators
    let run := (Grammar.read session.enoughFuel .expression : TracedParser Expr) session
    run.answer = some session.expression ∧
      ∀ stack ∈ run.calls,
        stack.countP Activation.isOperand ≤ nestingLimit + 1 ∧
        stack.count (.operand true) ≤ nestingLimit ∧
        stack.count (.operand false) ≤ 1 ∧
        stack.count .operations ≤ nestingLimit * (operators.ranks.card + 1) := by
  intro session run
  have leaves : session.Leaves operators 0 nestingLimit := ⟨rfl, rfl, rfl⟩
  obtain ⟨answer, -, fit⟩ := (Grammar.recorded operators session.enoughFuel).closed .expression rfl
    0 nestingLimit session leaves
  refine ⟨answer.trans session.read_expression, ?_⟩
  intro stack inside
  obtain ⟨entered, refused, within⟩ := fit stack inside
  have operands := Activation.countP_isOperand stack
  exact ⟨by omega, entered, refused, within⟩

-- In `a + b * c` the product is read by a call for operations inside of another.
example :
    let place (kind : Token.Kind) : Token := ⟨kind, ⟨.nowhere, .nowhere⟩⟩
    let kinds : List Token.Kind := [.identifier "a", .symbol '+', .identifier "b", .symbol '*',
      .identifier "c"]
    let session : Session := .start ⟨kinds.map place, .nowhere, none⟩ .builtin
    ((Grammar.read session.enoughFuel .expression : TracedParser Expr) session).calls =
      [[.operand true], [.operations], [.operations, .operand true], [.operations, .operations],
        [.operations, .operations, .operand true]] := by
  rfl

end Session

end Kaleidoscope
