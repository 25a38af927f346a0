import Kaleidoscope.Grammar.Traversal

set_option autoImplicit false

/- Between two tokens a reading goes at most five calls down. So five units of fuel for every token
that is left, and as many for the last descent, bring an answer, and more of them the same one. -/

namespace Kaleidoscope

namespace Parser

variable {α : Type}

/-- The step never goes back. -/
def Forward (step : Parser α) : Prop :=
  ∀ session, (step session).2.remaining ≤ session.remaining

theorem forward_unexpected (expectation : String) :
    (Session.unexpected expectation : Parser α).Forward := by
  intro session
  unfold Session.unexpected
  split <;> exact Nat.le_refl _

theorem forward_noExpression : (Session.noExpression : Parser α).Forward := by
  intro session
  unfold Session.noExpression
  split <;> exact Nat.le_refl _

theorem forward_expect (kind : Token.Kind) (expectation : String) :
    (Session.expect kind expectation).Forward := by
  intro session
  unfold Session.expect
  split
  · exact session.remaining_advance_le
  · exact forward_unexpected expectation session

theorem forward_expectName (expectation : String) :
    (Session.expectName expectation).Forward := by
  intro session
  unfold Session.expectName
  split
  · exact session.remaining_advance_le
  · exact forward_unexpected expectation session

end Parser

namespace BoundedParser

/-- With at most `bound` tokens left both steps bring the same answer, and do not go back. -/
def Agree (bound : Nat) {α : Type} (step other : BoundedParser α) : Prop :=
  ∀ session : Session, session.remaining ≤ bound →
    ∃ outcome after, step session = some (outcome, after) ∧ other session = some (outcome, after) ∧
      after.remaining ≤ session.remaining

variable {α β : Type} {bound : Nat}

theorem Agree.eq {step other : BoundedParser α} {session : Session} (agree : Agree bound step other)
    (within : session.remaining ≤ bound) : step session = other session := by
  obtain ⟨outcome, after, run, same, _⟩ := agree session within
  rw [run, same]

theorem agree_lift {step : Parser α} (forward : step.Forward) :
    Agree bound (lift step) (lift step) :=
  fun session _ => ⟨_, _, rfl, rfl, forward session⟩

theorem Agree.bind {first other : BoundedParser α} {next following : α → BoundedParser β}
    (begins : Agree bound first other)
    (continues : ∀ value, Agree bound (next value) (following value)) :
    Agree bound (first >>= next) (other >>= following) := by
  intro session within
  obtain ⟨outcome, middle, run, same, less⟩ := begins session within
  change ∃ outcome after, BoundedParser.bind first next session = some (outcome, after) ∧
    BoundedParser.bind other following session = some (outcome, after) ∧ _
  simp only [BoundedParser.bind, run, same]
  cases outcome with
  | parsed value =>
    obtain ⟨outcome, after, run, same, further⟩ := continues value middle (by omega)
    exact ⟨outcome, after, run, same, by omega⟩
  | incomplete => exact ⟨.incomplete, middle, rfl, rfl, less⟩
  | failed failure => exact ⟨.failed failure, middle, rfl, rfl, less⟩

/-- Behind a token fewer are left. -/
theorem Agree.behind {next following : Token.Kind → OperatorTable → Option (BoundedParser α)}
    {otherwise other : BoundedParser α} (ended : ∀ operators, next .endOfInput operators = none)
    (related : ∀ kind operators, Option.Rel (fun inner last => ∀ lower, lower < bound →
      Agree lower inner last) (next kind operators) (following kind operators))
    (left : Agree bound otherwise other) :
    Agree bound (Grammar.behind next otherwise) (Grammar.behind following other) := by
  intro session within
  have both := related session.current.kind session.operators
  generalize seen : next session.current.kind session.operators = choice at both
  generalize met : following session.current.kind session.operators = reflected at both
  cases both with
  | none =>
    rw [behind_of_none seen, behind_of_none met]
    exact left session within
  | @some inner last inside =>
    have more : session.current.kind ≠ .endOfInput := by
      intro same
      rw [same, ended] at seen
      cases seen
    have moved := Session.remaining_advance more
    rw [behind_of_some seen, behind_of_some met]
    obtain ⟨outcome, after, run, same, less⟩ :=
      inside session.advance.remaining (by omega) session.advance (Nat.le_refl _)
    exact ⟨outcome, after, run, same, by omega⟩

theorem Agree.nested {inner other : BoundedParser α} (inside : Agree bound inner other) :
    Agree bound (nested inner) (nested other) := by
  intro session within
  unfold BoundedParser.nested
  cases opened : session.openOperand with
  | error failure => exact ⟨.failed failure, session, rfl, rfl, Nat.le_refl _⟩
  | ok deeper =>
    have level : deeper.remaining = session.remaining := by
      rw [Session.eq_of_openOperand opened]
      rfl
    obtain ⟨outcome, after, run, same, less⟩ := inside deeper (by omega)
    simp only [run, same, Option.map_some]
    exact ⟨outcome, after.closeOperand, rfl, rfl, by rw [← level]; exact less⟩

theorem agree_uniform : Grammar.Uniform (· < ·) @Agree where
  pure _ _ value := fun session _ => ⟨.parsed value, session, rfl, rfl, Nat.le_refl _⟩
  bind _ _ _ _ _ _ _ begins continues := begins.bind continues
  expect _ _ kind expectation _ _ _ _ related :=
    (agree_lift (Parser.forward_expect kind expectation)).bind fun _ => related
  name _ expectation _ := agree_lift (Parser.forward_expectName expectation)
  unexpected _ _ expectation _ := agree_lift (Parser.forward_unexpected expectation)
  noExpression _ _ := agree_lift Parser.forward_noExpression
  behind _ _ _ _ _ _ plain _ related left :=
    Agree.behind (fun _ => plain.ended) (fun kind _ => related kind) left
  look _ _ _ _ related := fun session within => related _ _ session within
  taken _ _ _ _ _ _ ended related left := Agree.behind ended related left
  nested _ _ _ _ inside := inside.nested
  called _ _ _ _ inside := inside

end BoundedParser

namespace Grammar

open BoundedParser

theorem Rule.rank_le {α : Type} (rule : Rule α) : rule.rank ≤ 4 := by
  cases rule <;> simp [Rule.rank]

/-- Every amount of fuel that is enough brings the same answer. -/
theorem agree_read {fuel more bound : Nat} {α : Type} (rule : Rule α)
    (enough : 5 * bound + rule.rank < fuel) (others : 5 * bound + rule.rank < more) :
    Agree bound (read fuel rule) (read more rule) := by
  induction fuel generalizing more bound α with
  | zero => exact absurd enough (Nat.not_lt_zero _)
  | succ fuel ih =>
    cases more with
    | zero => exact absurd others (Nat.not_lt_zero _)
    | succ more =>
      refine agree_uniform.body rule (fun callee sooner => ?_) fun lower less _ callee => ?_
      · exact ih callee (by omega) (by omega)
      · have := callee.rank_le
        exact ih callee (by omega) (by omega)

end Grammar

namespace Session

open BoundedParser

variable {α : Type}

theorem lt_enoughFuel (rule : Grammar.Rule α) (session : Session) :
    5 * session.remaining + rule.rank < session.enoughFuel := by
  have low := rule.rank_le
  unfold enoughFuel
  omega

/-- Reading never starves. -/
theorem read_of_enough (rule : Grammar.Rule α) (session : Session) :
    (Grammar.read session.enoughFuel rule : BoundedParser α) session =
      some (read rule session) := by
  have enough := session.lt_enoughFuel rule
  obtain ⟨outcome, after, run, _⟩ := Grammar.agree_read rule enough enough session (Nat.le_refl _)
  simp [read, run]

theorem read_expression (session : Session) :
    (Grammar.read session.enoughFuel .expression : BoundedParser Expr) session =
      some session.expression :=
  read_of_enough .expression session

/-- What is read with enough fuel is read with no fuel. -/
theorem agree_of_enough {fuel bound : Nat} (rule : Grammar.Rule α)
    (enough : 5 * bound + rule.rank < fuel) :
    Agree bound (Grammar.read fuel rule) (lift (read rule)) := by
  intro session within
  have here : 5 * session.remaining + rule.rank < fuel := by omega
  obtain ⟨outcome, after, run, same, less⟩ :=
    Grammar.agree_read rule here (session.lt_enoughFuel rule) session (Nat.le_refl _)
  refine ⟨outcome, after, run, ?_, less⟩
  rw [read_of_enough] at same
  exact same

end Session

namespace BoundedParser

/-- The step needs no fuel and does what the plain one does. -/
def Lifts {α : Type} (step : BoundedParser α) (plain : Parser α) : Prop :=
  ∀ session, step session = some (plain session)

variable {α β : Type}

theorem Lifts.bind {first : BoundedParser α} {next : α → BoundedParser β} {start : Parser α}
    {continued : α → Parser β} (begins : Lifts first start)
    (goes : ∀ value, Lifts (next value) (continued value)) :
    Lifts (first >>= next) (start >>= continued) := by
  intro session
  change BoundedParser.bind first next session = some (Parser.bind start continued session)
  unfold BoundedParser.bind Parser.bind
  rw [begins session]
  generalize start session = result
  obtain ⟨outcome, after⟩ := result
  cases outcome with
  | parsed value => exact goes value after
  | incomplete => rfl
  | failed failure => rfl

theorem Lifts.nested {inner : BoundedParser α} {plain : Parser α} (inside : Lifts inner plain) :
    Lifts (nested inner) (Parser.nested plain) := by
  intro session
  unfold BoundedParser.nested Parser.nested
  cases session.openOperand with
  | error failure => rfl
  | ok deeper => simp only [inside deeper, Option.map_some]

theorem lifts_compatible : Grammar.Compatible @Lifts where
  pure _ _ := rfl
  bind begins goes := begins.bind goes
  take _ := rfl
  expect _ _ _ := rfl
  name _ _ := rfl
  unexpected _ _ _ _ := rfl
  noExpression _ _ := rfl
  look related session := related _ _ session
  nested inside := inside.nested
  called inside := inside

end BoundedParser

namespace Session

open BoundedParser

variable {α : Type}

/-- What a production reads is what it takes, with no fuel that runs out. -/
theorem read_eq (rule : Grammar.Rule α) : read rule = Grammar.body read rule := by
  funext session
  have enough := Nat.lt_succ_of_lt (session.lt_enoughFuel rule)
  have whole : Agree session.remaining (Grammar.read (session.enoughFuel + 1) rule)
      (lift (read rule)) := agree_of_enough rule enough
  have parts : Agree session.remaining (Grammar.read (session.enoughFuel + 1) rule)
      (Grammar.body (fun callee => lift (read callee)) rule) := by
    refine agree_uniform.body rule (fun callee sooner => ?_) fun lower less _ callee => ?_
    · exact agree_of_enough callee (by omega)
    · have low := callee.rank_le
      exact agree_of_enough callee (by omega)
  have plain : Lifts (Grammar.body (fun callee => lift (read callee)) rule)
      (Grammar.body read rule) := lifts_compatible.body (fun _ _ => rfl) rule
  have same := (whole.eq (Nat.le_refl _)).symm.trans (parts.eq (Nat.le_refl _))
  exact Option.some.inj (same.trans (plain session))

theorem expression_eq : expression = operand >>= operations 0 :=
  read_eq .expression

theorem operand_eq : operand = Parser.nested (read .prefixed) :=
  read_eq .operand

theorem tighter_eq (precedence : Int32) (right : Expr) (session : Session) :
    tighter precedence right session =
      if precedence < session.currentPrecedence then operations (precedence + 1) right session
      else (.parsed right, session) := by
  rw [tighter, read_eq]
  change (if precedence < session.currentPrecedence then _ else _ : Parser Expr) session = _
  split <;> rfl

theorem primary_of_some {session : Session} {inner : Parser Expr}
    (given : Grammar.begun read session.current.kind = some inner) :
    primary session = inner session.advance := by
  rw [primary, read_eq]
  exact Parser.behind_of_some given

theorem primary_of_none {session : Session}
    (given : Grammar.begun read session.current.kind = (none : Option (Parser Expr))) :
    primary session = noExpression session := by
  rw [primary, read_eq]
  exact Parser.behind_of_none given

theorem prefixed_of_sign {session : Session} {symbol : Char}
    (seen : session.current.kind = .symbol symbol) (closed : symbol ≠ '(') (single : symbol ≠ ',') :
    read .prefixed session =
      (operand >>= fun inner => pure (.unary symbol inner)) session.advance := by
  rw [read_eq]
  apply Parser.behind_of_some
  simp only [seen, closed, single, or_self, ↓reduceIte]
  rfl

theorem prefixed_of_primary {session : Session}
    (plain : ∀ symbol, session.current.kind = .symbol symbol → symbol = '(' ∨ symbol = ',') :
    read .prefixed session = primary session := by
  rw [read_eq]
  apply Parser.behind_of_none
  cases kind : session.current.kind with
  | symbol symbol => simp only [plain symbol kind, ↓reduceIte]
  | _ => rfl

/-- One turn: an operator, its right operand and all that binds tighter. -/
theorem operations_of_passes {session : Session} {minimum : Int32} {left : Expr} {symbol : Char}
    (seen : session.current.kind = .symbol symbol)
    (passes : ¬ session.operators.precedence symbol < minimum) :
    operations minimum left session = (do
      let first ← operand
      let right ← tighter (session.operators.precedence symbol) first
      operations minimum (.binary symbol left right) : Parser Expr) session.advance := by
  rw [operations, read_eq]
  apply Parser.behind_of_some
  simp only [seen, passes, ↓reduceIte]
  rfl

theorem operations_of_stops {session : Session} {minimum : Int32} {left : Expr}
    (stops : ∀ symbol, session.current.kind = .symbol symbol →
      session.operators.precedence symbol < minimum) :
    operations minimum left session = (.parsed left, session) := by
  rw [operations, read_eq]
  refine (Parser.behind_of_none ?_).trans rfl
  cases kind : session.current.kind with
  | symbol symbol => simp only [stops symbol kind, ↓reduceIte]
  | _ => rfl

end Session

end Kaleidoscope
