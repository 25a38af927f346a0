import Kaleidoscope.Grammar.Fuel
import Kaleidoscope.Proofs.Rows

set_option autoImplicit false

namespace Kaleidoscope

theorem Token.Kind.agrees_self {kind : Token.Kind} (plain : ∀ value, kind ≠ .number value) :
    kind.agrees kind = true := by
  cases kind with
  | number value => exact absurd rfl (plain value)
  | _ => simp [agrees]

namespace Session

variable {session : Session} {count other : Nat}

/-- Whether that many more operands may be open at a time. -/
def Admits (session : Session) (count : Nat) : Prop :=
  ∀ limit ∈ session.limit, session.depth + count ≤ limit

@[simp]
theorem admits_prepend (tokens : List Token) :
    (session.prepend tokens).Admits count ↔ session.Admits count :=
  Iff.rfl

theorem Admits.of_le (room : session.Admits count) (less : other ≤ count) :
    session.Admits other := by
  intro limit given
  have within := room limit given
  omega

theorem admits_max : session.Admits (max count other) ↔
    session.Admits count ∧ session.Admits other := by
  constructor
  · intro room
    exact ⟨room.of_le (by omega), room.of_le (by omega)⟩
  · rintro ⟨left, right⟩ limit given
    have first := left limit given
    have second := right limit given
    omega

/-- The session with one more operand open. -/
def deeper (session : Session) : Session :=
  { session with depth := session.depth + 1 }

@[simp]
theorem closeOperand_deeper : session.deeper.closeOperand = session := rfl

theorem admits_deeper : session.deeper.Admits count ↔ session.Admits (count + 1) := by
  constructor <;> intro room limit given <;> have within := room limit given
  · simp only [deeper] at within
    omega
  · simp only [deeper]
    omega

theorem openOperand_of_admits (room : session.Admits 1) :
    session.openOperand = .ok session.deeper := by
  unfold openOperand
  cases bound : session.limit with
  | none => simp [deeper, bound]
  | some limit =>
    have within := room limit bound
    have below : ¬ limit ≤ session.depth := by omega
    simp [below, deeper, bound]

/-- The step has met the bound on open operands. -/
def TooDeep {α : Type} (session : Session) (result : Outcome α × Session) : Prop :=
  ∃ limit position final, session.limit = some limit ∧
    result = (.failed ⟨.tooDeep limit, position⟩, final)

theorem openOperand_of_not_admits (full : ¬ session.Admits 1) :
    ∃ limit, session.limit = some limit ∧
      session.openOperand = .error ⟨.tooDeep limit, session.position⟩ := by
  unfold Admits at full
  cases bound : session.limit with
  | none => simp [bound] at full
  | some limit =>
    have reached : limit ≤ session.depth := by
      simp only [bound, Option.mem_def, Option.some.injEq, forall_eq'] at full
      omega
    exact ⟨limit, rfl, by simp [openOperand, bound, reached, failure]⟩

end Session

namespace Parser

open Session

variable {α β : Type} {row rest : List Token.Kind} {count other : Nat} {value : α} {result : β}
  {after : Session} {kind : Token.Kind}

/-- The step reads the row as the value, up to the session `after`, with `count` operands open at a
time. -/
def Reads (step : Parser α) (row : List Token.Kind) (count : Nat) (value : α)
    (after : Session) : Prop :=
  ∀ tokens : List Token, tokens.map Token.kind = row →
    (after.Admits count → step (after.prepend tokens) = (.parsed value, after)) ∧
    (after.Admits 0 → ¬ after.Admits count → after.TooDeep (step (after.prepend tokens)))

/-- A step that takes nothing opens nothing. -/
theorem reads_nil {step : Parser α} (stays : step after = (.parsed value, after)) :
    step.Reads [] 0 value after := by
  intro tokens kinds
  rw [List.map_eq_nil_iff.1 kinds, prepend_nil]
  exact ⟨fun _ => stays, fun room full => absurd room full⟩

theorem reads_pure : (Pure.pure value : Parser α).Reads [] 0 value after :=
  reads_nil rfl

theorem Reads.of_eq {step outer : Parser α} (reads : step.Reads row count value after)
    (same : ∀ tokens : List Token, tokens.map Token.kind = row →
      outer (after.prepend tokens) = step (after.prepend tokens)) :
    outer.Reads row count value after := by
  intro tokens kinds
  rw [same tokens kinds]
  exact reads tokens kinds

/-- A step that goes on behind the current token has read that token too. -/
theorem Reads.behind {step outer : Parser α} (reads : step.Reads row count value after)
    (enters : ∀ before : Session, before.operators = after.operators →
      before.current.kind = kind → outer before = step before.advance) :
    outer.Reads (kind :: row) count value after := by
  intro tokens kinds
  obtain ⟨token, tokens, rfl, seen, kinds⟩ := List.map_eq_cons_iff.1 kinds
  rw [enters (after.prepend (token :: tokens)) rfl seen, advance_prepend]
  exact reads tokens kinds

/-- Steps in sequence need the room of the one that needs more. -/
theorem Reads.bind {first : Parser α} {next : α → Parser β}
    (begins : ∀ tokens : List Token, tokens.map Token.kind = rest →
      first.Reads row count value (after.prepend tokens))
    (continues : (next value).Reads rest other result after) :
    (first >>= next).Reads (row ++ rest) (max count other) result after := by
  intro tokens kinds
  obtain ⟨front, back, rfl, ahead, behind⟩ := List.map_eq_append_iff.1 kinds
  have start := begins back behind front ahead
  have finish := continues back behind
  simp only [← prepend_append, admits_prepend] at start
  change (_ → Parser.bind first next _ = _) ∧ (_ → _ → after.TooDeep (Parser.bind first next _))
  unfold Parser.bind
  constructor
  · intro room
    obtain ⟨left, right⟩ := admits_max.1 room
    rw [start.1 left]
    exact finish.1 right
  · intro empty full
    by_cases left : after.Admits count
    · have right : ¬ after.Admits other := fun right => full (admits_max.2 ⟨left, right⟩)
      rw [start.1 left]
      exact finish.2 empty right
    · obtain ⟨limit, position, final, bound, failed⟩ := start.2 empty left
      rw [failed]
      exact ⟨limit, position, final, bound, rfl⟩

theorem Reads.bind_nil {first : Parser α} {next : α → Parser β}
    (begins : first.Reads row count value after)
    (stays : next value after = (.parsed result, after)) :
    (first >>= next).Reads row count result after := by
  have start : ∀ tokens : List Token, tokens.map Token.kind = [] →
      first.Reads row count value (after.prepend tokens) := by
    intro tokens kinds
    rw [List.map_eq_nil_iff.1 kinds, prepend_nil]
    exact begins
  have sequence := Reads.bind start (reads_nil stays)
  rw [List.append_nil, Nat.max_zero] at sequence
  exact sequence

theorem reads_expect {next : Parser β} (expectation : String)
    (plain : ∀ value, kind ≠ .number value) (reads : next.Reads rest count result after) :
    (Session.expect kind expectation >>= fun _ => next).Reads (kind :: rest) count result
      after := by
  apply reads.behind
  intro before _ seen
  change Parser.bind (Session.expect kind expectation) (fun _ => next) before = _
  simp [Parser.bind, Session.expect, seen, Token.Kind.agrees_self plain, Session.take]

theorem reads_expectName {next : String → Parser β} {name : String} (expectation : String)
    (reads : (next name).Reads rest count result after) :
    (Session.expectName expectation >>= next).Reads (.identifier name :: rest) count result
      after := by
  apply reads.behind
  intro before _ seen
  change Parser.bind (Session.expectName expectation) next before = _
  simp [Parser.bind, Session.expectName, seen]

end Parser

namespace Session

open Kaleidoscope.Parser

variable {row : List Token.Kind} {count : Nat} {after : Session}

/-- An operand needs room for itself and, inside, for what it holds. -/
theorem reads_operand {value : Expr}
    (reads : (read .prefixed).Reads row count value after.deeper) :
    operand.Reads row (count + 1) value after := by
  intro tokens kinds
  have inside := reads tokens kinds
  simp only [admits_deeper] at inside
  rw [operand_eq]
  unfold Parser.nested
  by_cases room : after.Admits 1
  · have opened : (after.prepend tokens).openOperand = .ok (after.deeper.prepend tokens) :=
      openOperand_of_admits ((admits_prepend tokens).2 room)
    simp only [opened]
    constructor
    · intro enough
      rw [inside.1 enough, closeOperand_deeper]
    · intro _ full
      obtain ⟨limit, position, final, bound, failed⟩ := inside.2 room full
      rw [failed]
      exact ⟨limit, position, final.closeOperand, bound, rfl⟩
  · have full : ¬ (after.prepend tokens).Admits 1 := room
    obtain ⟨limit, bound, refused⟩ := openOperand_of_not_admits full
    simp only [refused]
    constructor
    · intro enough
      exact absurd (enough.of_le (by omega)) room
    · intro _ _
      exact ⟨limit, _, _, bound, rfl⟩

end Session

end Kaleidoscope
