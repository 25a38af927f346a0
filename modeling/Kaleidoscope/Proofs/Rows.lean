import Kaleidoscope.Grammar.Expression

set_option autoImplicit false

namespace Kaleidoscope

theorem Token.Kind.eq_of_agrees {left right : Token.Kind} (plain : ∀ value, right ≠ .number value)
    (agrees : left.agrees right = true) : left = right := by
  cases right with
  | number value => exact absurd rfl (plain value)
  | _ => cases left <;> simp_all [Token.Kind.agrees]

namespace Session

/-- The session in which the tokens `row` are still to be read, before all that is ahead. -/
def prepend (session : Session) (row : List Token) : Session :=
  { session with tokens := { session.tokens with ahead := row ++ session.tokens.ahead } }

@[simp]
theorem prepend_nil (session : Session) : session.prepend [] = session := rfl

theorem prepend_append (session : Session) (row more : List Token) :
    session.prepend (row ++ more) = (session.prepend more).prepend row := by
  simp [prepend]

@[simp]
theorem prepend_operators (session : Session) (row : List Token) :
    (session.prepend row).operators = session.operators := rfl

@[simp]
theorem prepend_depth (session : Session) (row : List Token) :
    (session.prepend row).depth = session.depth := rfl

@[simp]
theorem prepend_limit (session : Session) (row : List Token) :
    (session.prepend row).limit = session.limit := rfl

@[simp]
theorem prepend_ahead (session : Session) (row : List Token) :
    (session.prepend row).tokens.ahead = row ++ session.tokens.ahead := rfl

@[simp]
theorem current_prepend (session : Session) (token : Token) (row : List Token) :
    (session.prepend (token :: row)).current = token := rfl

@[simp]
theorem advance_prepend (session : Session) (token : Token) (row : List Token) :
    (session.prepend (token :: row)).advance = session.prepend row := rfl

/-- A token that is not the end of the input is what moving past it takes. -/
theorem eq_prepend_advance {session : Session} (more : session.current.kind ≠ .endOfInput) :
    session = session.advance.prepend [session.current] := by
  rcases session with ⟨⟨_ | ⟨token, ahead⟩, ending, failure⟩, operators, depth, limit⟩
  · exact absurd rfl more
  · rfl

/-- Moving past the current token takes at most one token. -/
theorem exists_prepend_advance (session : Session) :
    ∃ row, session = session.advance.prepend row := by
  rcases session with ⟨⟨_ | ⟨token, ahead⟩, ending, failure⟩, operators, depth, limit⟩
  · exact ⟨[], rfl⟩
  · exact ⟨[token], rfl⟩

theorem operators_of_prepend {session after : Session} {row : List Token}
    (same : session = after.prepend row) : after.operators = session.operators := by
  rw [same, prepend_operators]

/-- Closing the operand that was opened gives back the depth. -/
theorem eq_prepend_closeOperand {session deeper final : Session} {row : List Token}
    (opened : session.openOperand = .ok deeper) (taken : deeper = final.prepend row) :
    session = final.closeOperand.prepend row := by
  have same := eq_of_openOperand opened
  have depth : final.depth = session.depth + 1 := by
    rw [← prepend_depth final row, ← taken, same]
  have back : session = { deeper with depth := session.depth } := by rw [same]
  rw [back, taken]
  simp [prepend, closeOperand, depth]

theorem more_of_kind {session : Session} {kind : Token.Kind} (seen : session.current.kind = kind)
    (regular : kind ≠ .endOfInput) : session.current.kind ≠ .endOfInput := by
  rw [seen]
  exact regular

/-- A row of tokens lies between the sessions, nothing else differs, and the value of a success
stands to the kinds of the row as `relation` says. -/
def Reaches {α : Type} (session : Session) (relation : List Token.Kind → α → Prop)
    (outcome : Outcome α) (after : Session) : Prop :=
  ∃ row, session = after.prepend row ∧
    ∀ value, outcome = .parsed value → relation (row.map Token.kind) value

variable {α β : Type} {relation : List Token.Kind → α → Prop} {session after : Session}

theorem reaches_failed (failure : Failure) : session.Reaches relation (.failed failure) session :=
  ⟨[], rfl, by simp⟩

theorem reaches_incomplete : session.Reaches relation .incomplete session :=
  ⟨[], rfl, by simp⟩

theorem reaches_parsed {value : α} (holds : relation [] value) :
    session.Reaches relation (.parsed value) session := by
  refine ⟨[], rfl, ?_⟩
  intro other same
  cases same
  exact holds

/-- A step that reads on behind the current token has taken that token too. -/
theorem Reaches.behind {inner : List Token.Kind → α → Prop} {kind : Token.Kind}
    {outcome : Outcome α} (reached : session.advance.Reaches inner outcome after)
    (seen : session.current.kind = kind) (regular : kind ≠ .endOfInput)
    (holds : ∀ row value, inner row value → relation (kind :: row) value) :
    session.Reaches relation outcome after := by
  obtain ⟨row, same, related⟩ := reached
  refine ⟨session.current :: row, ?_, ?_⟩
  · have moved := eq_prepend_advance (more_of_kind seen regular)
    rw [same, ← prepend_append] at moved
    exact moved
  · intro value success
    rw [List.map_cons, seen]
    exact holds _ value (related value success)

theorem reaches_advance {kind : Token.Kind} {value : α} (seen : session.current.kind = kind)
    (regular : kind ≠ .endOfInput) (holds : relation [kind] value) :
    session.Reaches relation (.parsed value) session.advance := by
  refine ⟨[session.current], eq_prepend_advance (more_of_kind seen regular), ?_⟩
  intro other same
  cases same
  rw [List.map_singleton, seen]
  exact holds

theorem Reaches.mono {other : List Token.Kind → α → Prop} {outcome : Outcome α}
    (reached : session.Reaches relation outcome after)
    (holds : ∀ row value, relation row value → other row value) :
    session.Reaches other outcome after := by
  obtain ⟨row, same, related⟩ := reached
  exact ⟨row, same, fun value success => holds _ value (related value success)⟩

/-- Two rows in sequence are one row. -/
theorem Reaches.append {whole : List Token.Kind → β → Prop} {middle : Session} {row : List Token}
    {outcome : Outcome β} (taken : session = middle.prepend row)
    (reached : middle.Reaches (fun rest => whole (row.map Token.kind ++ rest)) outcome after) :
    session.Reaches whole outcome after := by
  obtain ⟨rest, same, related⟩ := reached
  refine ⟨row ++ rest, ?_, ?_⟩
  · rw [taken, same, prepend_append]
  · intro value success
    rw [List.map_append]
    exact related value success

end Session

namespace Parser

open Session

variable {α β : Type}

def Yields (step : Parser α) (session : Session) (relation : List Token.Kind → α → Prop) : Prop :=
  session.Reaches relation (step session).1 (step session).2

theorem Yields.operators_eq {step : Parser α} {session : Session}
    {relation : List Token.Kind → α → Prop} (yields : step.Yields session relation) :
    (step session).2.operators = session.operators := by
  obtain ⟨row, same, -⟩ := yields
  exact operators_of_prepend same

theorem Yields.bind {first : Parser α} {next : α → Parser β} {session : Session}
    {relation : List Token.Kind → α → Prop} {whole : List Token.Kind → β → Prop}
    (begins : first.Yields session relation)
    (continues : ∀ row value after, session = Session.prepend after row →
      relation (row.map Token.kind) value →
      (next value).Yields after fun rest => whole (row.map Token.kind ++ rest)) :
    (first >>= next).Yields session whole := by
  change session.Reaches whole (Parser.bind first next session).1
    (Parser.bind first next session).2
  unfold Parser.bind
  unfold Yields at begins
  generalize first session = result at begins ⊢
  obtain ⟨outcome, middle⟩ := result
  obtain ⟨row, taken, related⟩ := begins
  cases outcome with
  | parsed value => exact .append taken (continues row value middle taken (related value rfl))
  | incomplete => exact .append taken reaches_incomplete
  | failed failure => exact .append taken (reaches_failed failure)

theorem bind_assoc {γ : Type} (first : Parser α) (next : α → Parser β)
    (last : β → Parser γ) :
    first >>= next >>= last = first >>= fun value => next value >>= last := by
  funext session
  change Parser.bind (Parser.bind first next) last session =
    Parser.bind first (fun value => Parser.bind (next value) last) session
  unfold Parser.bind
  generalize first session = result
  obtain ⟨outcome, after⟩ := result
  cases outcome <;> rfl

/-- A sequence that succeeds is a first step that succeeds and a second one behind it. -/
theorem exists_of_bind {first : Parser α} {next : α → Parser β} {session after : Session}
    {result : β} (run : (first >>= next) session = (.parsed result, after)) :
    ∃ value middle, first session = (.parsed value, middle) ∧
      next value middle = (.parsed result, after) := by
  change Parser.bind first next session = (.parsed result, after) at run
  unfold Parser.bind at run
  split at run
  next value middle start => exact ⟨value, middle, start, run⟩
  · cases run
  · cases run

theorem yields_pure {relation : List Token.Kind → α → Prop} {session : Session} {value : α}
    (holds : relation [] value) : (Pure.pure value : Parser α).Yields session relation :=
  reaches_parsed holds

theorem yields_unexpected (expectation : String) (session : Session)
    (relation : List Token.Kind → α → Prop) :
    (Session.unexpected expectation : Parser α).Yields session relation := by
  unfold Yields Session.unexpected
  by_cases ended : session.atEnd
  · simp only [ended, ↓reduceIte]
    exact reaches_incomplete
  · simp only [ended, Bool.false_eq_true, ↓reduceIte]
    exact reaches_failed _

theorem yields_noExpression (session : Session) (relation : List Token.Kind → α → Prop) :
    (Session.noExpression : Parser α).Yields session relation := by
  unfold Yields Session.noExpression
  by_cases ended : session.atEnd
  · simp only [ended, ↓reduceIte]
    exact reaches_incomplete
  · simp only [ended, Bool.false_eq_true, ↓reduceIte]
    exact reaches_failed _

theorem yields_take {session : Session} {kind : Token.Kind} (seen : session.current.kind = kind)
    (regular : kind ≠ .endOfInput) :
    Session.take.Yields session fun row _ => row = [kind] :=
  reaches_advance seen regular rfl

theorem yields_expect {kind : Token.Kind} (plain : ∀ value, kind ≠ .number value)
    (regular : kind ≠ .endOfInput) (expectation : String) (session : Session) :
    (Session.expect kind expectation).Yields session fun row _ => row = [kind] := by
  unfold Yields Session.expect
  by_cases agrees : session.current.kind.agrees kind
  · simp only [agrees, ↓reduceIte]
    exact reaches_advance (Token.Kind.eq_of_agrees plain agrees) regular rfl
  · simp only [agrees, Bool.false_eq_true, ↓reduceIte]
    exact yields_unexpected expectation session _

theorem yields_expectName (expectation : String) (session : Session) :
    (Session.expectName expectation).Yields session fun row name => row = [.identifier name] := by
  unfold Yields Session.expectName
  cases kind : session.current.kind with
  | identifier name => exact reaches_advance kind (by simp) rfl
  | _ => exact yields_unexpected expectation session _

end Parser

namespace BoundedParser

open Session

variable {α β : Type}

def Yields (step : BoundedParser α) (session : Session)
    (relation : List Token.Kind → α → Prop) : Prop :=
  ∀ outcome after, step session = some (outcome, after) → session.Reaches relation outcome after

theorem Yields.mono {step : BoundedParser α} {session : Session}
    {relation other : List Token.Kind → α → Prop} (yields : step.Yields session relation)
    (holds : ∀ row value, relation row value → other row value) : step.Yields session other :=
  fun outcome after run => (yields outcome after run).mono holds

theorem yields_lift {step : Parser α} {session : Session} {relation : List Token.Kind → α → Prop}
    (yields : step.Yields session relation) : (lift step).Yields session relation := by
  intro outcome after run
  have same : step session = (outcome, after) := Option.some.inj run
  unfold Parser.Yields at yields
  rw [same] at yields
  exact yields

theorem yields_pure {relation : List Token.Kind → α → Prop} {session : Session} {value : α}
    (holds : relation [] value) : (Pure.pure value : BoundedParser α).Yields session relation := by
  intro outcome after run
  cases run
  exact reaches_parsed holds

theorem Yields.bind {first : BoundedParser α} {next : α → BoundedParser β} {session : Session}
    {relation : List Token.Kind → α → Prop} {whole : List Token.Kind → β → Prop}
    (begins : first.Yields session relation)
    (continues : ∀ row value after, first session = some (.parsed value, after) →
      session = Session.prepend after row → relation (row.map Token.kind) value →
      (next value).Yields after fun rest => whole (row.map Token.kind ++ rest)) :
    (first >>= next).Yields session whole := by
  intro outcome after run
  change BoundedParser.bind first next session = some (outcome, after) at run
  unfold BoundedParser.bind at run
  cases start : first session with
  | none => simp [start] at run
  | some result =>
    obtain ⟨initial, middle⟩ := result
    obtain ⟨row, taken, related⟩ := begins initial middle start
    rw [start] at run
    cases initial with
    | parsed value =>
      have further := continues row value middle start taken (related value rfl)
      exact .append taken (further outcome after run)
    | incomplete =>
      cases run
      exact .append taken reaches_incomplete
    | failed failure =>
      cases run
      exact .append taken (reaches_failed failure)

theorem lift_bind (first : Parser α) (next : α → Parser β) :
    lift (first >>= next) = (lift first >>= fun value => lift (next value)) := by
  funext session
  change some (Parser.bind first next session) =
    BoundedParser.bind (lift first) (fun value => lift (next value)) session
  unfold Parser.bind BoundedParser.bind lift
  generalize first session = result
  obtain ⟨outcome, after⟩ := result
  cases outcome <;> rfl

/-- What goes on behind the current token has taken that token too. -/
theorem yields_behind {next : Token.Kind → OperatorTable → Option (BoundedParser α)}
    {otherwise : BoundedParser α} {session : Session} {relation : List Token.Kind → α → Prop}
    (ended : next .endOfInput session.operators = none)
    (present : ∀ kind inner, next kind session.operators = some inner →
      inner.Yields session.advance fun row => relation (kind :: row))
    (absent : otherwise.Yields session relation) :
    (Grammar.behind next otherwise).Yields session relation := by
  intro outcome after run
  cases given : next session.current.kind session.operators with
  | none =>
    rw [behind_of_none given] at run
    exact absent outcome after run
  | some inner =>
    have regular : session.current.kind ≠ .endOfInput := by
      intro same
      rw [same, ended] at given
      cases given
    rw [behind_of_some given] at run
    exact (present _ inner given outcome after run).behind rfl regular fun _ _ holds => holds

theorem yields_behindMark {mark : Char} {inner otherwise : BoundedParser α} {session : Session}
    {relation : List Token.Kind → α → Prop}
    (present : inner.Yields session.advance fun row => relation (.symbol mark :: row))
    (absent : otherwise.Yields session relation) :
    (Grammar.behindMark mark inner otherwise).Yields session relation := by
  refine yields_behind rfl (fun kind found given => ?_) absent
  by_cases seen : kind = .symbol mark
  · subst seen
    rw [if_pos (beq_self_eq_true _)] at given
    cases given
    exact present
  · simp [seen] at given

/-- A sequence that succeeds is a first step that succeeds and a second one behind it. -/
theorem exists_of_bind {first : BoundedParser α} {next : α → BoundedParser β}
    {session after : Session} {result : β}
    (run : (first >>= next) session = some (.parsed result, after)) :
    ∃ value middle, first session = some (.parsed value, middle) ∧
      next value middle = some (.parsed result, after) := by
  change BoundedParser.bind first next session = some (.parsed result, after) at run
  unfold BoundedParser.bind at run
  split at run
  · cases run
  next value middle start => exact ⟨value, middle, start, run⟩
  · cases run
  · cases run

theorem yields_nested {inner : BoundedParser α} {session : Session}
    {relation : List Token.Kind → α → Prop}
    (yields : ∀ deeper : Session, deeper.operators = session.operators →
      inner.Yields deeper relation) :
    (nested inner).Yields session relation := by
  intro outcome after run
  unfold nested at run
  cases opened : session.openOperand with
  | error failure =>
    rw [opened] at run
    cases run
    exact reaches_failed failure
  | ok deeper =>
    rw [opened] at run
    simp only [Option.map_eq_some_iff, Prod.mk.injEq, Prod.exists] at run
    obtain ⟨reached, final, inside, rfl, rfl⟩ := run
    have level : deeper.operators = session.operators := by rw [eq_of_openOperand opened]
    obtain ⟨row, taken, related⟩ := yields deeper level reached final inside
    exact ⟨row, eq_prepend_closeOperand opened taken, related⟩

end BoundedParser

end Kaleidoscope
