import Kaleidoscope.Proofs.Openings

set_option autoImplicit false

/- A session with a limit reads what a session without one reads, up to the first operand for which
there is no room. -/

namespace Kaleidoscope

namespace Session

variable {session : Session} {limit : Nat}

/-- The session with a limit on the operands that may be open. -/
def under (session : Session) (limit : Nat) : Session :=
  { session with limit := some limit }

@[simp]
theorem current_under : (session.under limit).current = session.current := rfl

@[simp]
theorem operators_under : (session.under limit).operators = session.operators := rfl

@[simp]
theorem advance_under : (session.under limit).advance = session.advance.under limit := rfl

@[simp]
theorem sees_under (symbol : Char) : (session.under limit).sees symbol = session.sees symbol := rfl

@[simp]
theorem atEnd_under : (session.under limit).atEnd = session.atEnd := rfl

@[simp]
theorem currentPrecedence_under :
    (session.under limit).currentPrecedence = session.currentPrecedence := rfl

@[simp]
theorem failure_under (fault : Fault) :
    (session.under limit).failure fault = session.failure fault := rfl

theorem eq_of_prepend {after : Session} {row : List Token} (same : session = after.prepend row) :
    after = { session with tokens := after.tokens } := by
  rw [same]
  rfl

end Session

namespace Parser

open Session

variable {α β : Type}

/-- The step does the same under every limit. -/
def Blind (step : Parser α) : Prop :=
  ∀ session limit, step (session.under limit) = ((step session).1, (step session).2.under limit)

theorem blind_pure (value : α) : (Pure.pure value : Parser α).Blind :=
  fun _ _ => rfl

theorem Blind.bind {first : Parser α} {next : α → Parser β} (begins : first.Blind)
    (continues : ∀ value, (next value).Blind) : (first >>= next).Blind := by
  intro session limit
  change Parser.bind first next _ =
    ((Parser.bind first next session).1, (Parser.bind first next session).2.under limit)
  unfold Parser.bind
  rw [begins session limit]
  generalize first session = result
  obtain ⟨outcome, after⟩ := result
  cases outcome with
  | parsed value => exact continues value after limit
  | incomplete => rfl
  | failed failure => rfl

theorem blind_take : take.Blind :=
  fun _ _ => rfl

theorem blind_unexpected (expectation : String) :
    (unexpected expectation : Parser α).Blind := by
  intro session limit
  by_cases ended : session.atEnd <;> simp [unexpected, ended]

theorem blind_noExpression : (noExpression : Parser α).Blind := by
  intro session limit
  by_cases ended : session.atEnd <;> simp [noExpression, ended]

theorem blind_expect (kind : Token.Kind) (expectation : String) :
    (expect kind expectation).Blind := by
  intro session limit
  by_cases agrees : session.current.kind.agrees kind
  · simp only [expect, current_under, agrees, ↓reduceIte]
    exact blind_take session limit
  · simp only [expect, current_under, agrees, Bool.false_eq_true, ↓reduceIte]
    exact blind_unexpected expectation session limit

theorem blind_expectName (expectation : String) : (expectName expectation).Blind := by
  intro session limit
  cases kind : session.current.kind with
  | identifier name => simp [expectName, kind]
  | _ =>
    simp only [expectName, current_under, kind]
    exact blind_unexpected expectation session limit

theorem blind_operatorSymbol : Grammar.operatorSymbol.Blind := by
  intro session limit
  cases kind : session.current.kind <;> simp [Grammar.operatorSymbol, kind]

theorem blind_operatorPrecedence : Grammar.operatorPrecedence.Blind := by
  intro session limit
  cases kind : session.current.kind with
  | number value =>
    by_cases declarable : Grammar.isDeclarable value <;>
      simp [Grammar.operatorPrecedence, kind, declarable]
  | _ => simp [Grammar.operatorPrecedence, kind]

theorem blind_heading : Grammar.heading.Blind := by
  intro session limit
  cases kind : session.current.kind with
  | identifier name => simp [Grammar.heading, kind]
  | keyword word =>
    cases word <;> simp only [Grammar.heading, current_under, kind, advance_under]
    case unaryWord =>
      exact (blind_operatorSymbol.bind fun _ => blind_pure _) session.advance limit
    case binaryWord =>
      exact (blind_operatorSymbol.bind fun _ => blind_operatorPrecedence.bind fun _ =>
        blind_pure _) session.advance limit
    all_goals exact blind_unexpected _ session limit
  | _ =>
    simp only [Grammar.heading, current_under, kind]
    exact blind_unexpected _ session limit

theorem blind_parameters (count : Nat) (taken : List String) :
    (Grammar.parameters count taken).Blind := by
  induction count generalizing taken with
  | zero => exact blind_pure taken
  | succ count ih =>
    intro session limit
    cases kind : session.current.kind with
    | identifier name =>
      by_cases repeated : name ∈ taken
      · simp [Grammar.parameters, kind, repeated]
      · simp only [Grammar.parameters, current_under, kind, repeated, ↓reduceIte, advance_under]
        exact ih (taken ++ [name]) session.advance limit
    | _ => simp [Grammar.parameters, kind]

theorem blind_prototype : prototype.Blind := by
  intro session limit
  have inside : (do
      let heading ← Grammar.heading
      let _ ← expect (.symbol '(') "expected '(' in prototype"
      let parameters ← fun inside => Grammar.parameters inside.remaining [] inside
      let _ ← expect (.symbol ')') "expected ')' in prototype"
      fun after => (heading.finish session.position parameters, after) : Parser Prototype).Blind :=
    blind_heading.bind fun _ => (blind_expect _ _).bind fun _ =>
      Blind.bind (fun inner limit => blind_parameters inner.remaining [] inner limit) fun _ =>
        (blind_expect _ _).bind fun _ => fun _ _ => rfl
  exact inside session limit

end Parser

/-- What the record of a reading without a limit says of the answer under a limit. -/
inductive Settles {α : Type} (limit : Nat) (session : Session) :
    Option (Outcome α × Session) × List Opening → Option (Outcome α × Session) → Prop where
  /-- There is room for every operand, and the answer is the same. -/
  | fits {answer : Option (Outcome α × Session)} {openings : List Opening}
      (room : ∀ opening ∈ openings, session.depth + opening.count ≤ limit) :
      Settles limit session (answer, openings)
        (answer.map fun (outcome, after) => (outcome, after.under limit))
  /-- The first operand for which there is no room ends the reading where it is opened. -/
  | exceeds {answer : Option (Outcome α × Session)} {before behind : List Opening}
      {opening : Opening} (room : ∀ earlier ∈ before, session.depth + earlier.count ≤ limit)
      (full : session.depth + opening.count = limit + 1) :
      Settles limit session (answer, before ++ opening :: behind)
        (some (.failed ⟨.tooDeep limit, opening.tokens.current.position⟩,
          { session with tokens := opening.tokens, limit := some limit }))

namespace Settles

variable {α : Type} {limit : Nat} {session : Session}
  {watched : Option (Outcome α × Session) × List Opening} {bounded : Option (Outcome α × Session)}

/-- What is settled behind operands that had room is settled from them on. -/
theorem behind {after : Session} {openings : List Opening}
    (same : after = { session with tokens := after.tokens })
    (room : ∀ opening ∈ openings, session.depth + opening.count ≤ limit)
    (settled : Settles limit after watched bounded) :
    Settles limit session (watched.1, openings ++ watched.2) bounded := by
  have depth : after.depth = session.depth := by rw [same]
  have operators : after.operators = session.operators := by rw [same]
  cases settled with
  | fits more =>
    rw [depth] at more
    exact .fits (List.forall_mem_append.2 ⟨room, more⟩)
  | exceeds more full =>
    rw [depth] at more full
    simp only [depth, operators, ← List.append_assoc]
    exact .exceeds (List.forall_mem_append.2 ⟨room, more⟩) full

/-- What is settled inside an operand that had room is settled outside, where one more is open. -/
theorem outside (room : session.depth < limit)
    (settled : Settles limit session.deeper watched bounded) :
    Settles limit session
      (watched.1.map fun (outcome, after) => (outcome, after.closeOperand),
        ⟨1, session.tokens⟩ :: watched.2.map Opening.inside)
      (bounded.map fun (outcome, after) => (outcome, after.closeOperand)) := by
  have counted : ∀ openings : List Opening,
      (∀ opening ∈ openings, session.deeper.depth + opening.count ≤ limit) →
        ∀ opening ∈ ⟨1, session.tokens⟩ :: openings.map Opening.inside,
          session.depth + opening.count ≤ limit := by
    intro openings inside
    rw [List.forall_mem_cons, List.forall_mem_map]
    refine ⟨room, ?_⟩
    intro opening given
    have deeper := inside opening given
    simp only [Session.deeper, Opening.inside] at deeper ⊢
    omega
  cases settled with
  | @fits answer openings room =>
    have same : (answer.map fun (outcome, after) => (outcome, after.under limit)).map
          (fun (outcome, after) => (outcome, Session.closeOperand after)) =
        (answer.map fun (outcome, after) => (outcome, after.closeOperand)).map
          fun (outcome, after) => (outcome, Session.under after limit) := by
      cases answer <;> rfl
    rw [same]
    exact .fits (counted openings room)
  | @exceeds answer before behind opening room full =>
    have full : session.depth + opening.inside.count = limit + 1 := by
      simp only [Session.deeper, Opening.inside] at full ⊢
      omega
    rw [List.map_append, List.map_cons, ← List.cons_append]
    exact .exceeds (counted before room) full

/-- A record in which every operand has room settles that the answer is the same. -/
theorem eq_of_room {free answer : Outcome α × Session}
    (settled : Settles limit session watched (some answer)) (same : watched.1 = some free)
    (room : ∀ opening ∈ watched.2, session.depth + opening.count ≤ limit) :
    answer = (free.1, free.2.under limit) := by
  generalize reached : some answer = bounded at settled
  cases settled with
  | @fits given _ _ =>
    have whole : given = some free := same
    rw [whole] at reached
    exact Option.some.inj reached
  | @exceeds _ before behind opening _ full =>
    have within := room opening (by simp)
    omega

/-- A record in which some operand has no room settles that the first of them is the last that is
opened. -/
theorem exists_of_full {answer : Outcome α × Session}
    (settled : Settles limit session watched (some answer))
    (full : ∃ opening ∈ watched.2, limit < session.depth + opening.count) :
    ∃ before opening behind, watched.2 = before ++ opening :: behind ∧
      (∀ earlier ∈ before, session.depth + earlier.count ≤ limit) ∧
      session.depth + opening.count = limit + 1 ∧
      answer = (.failed ⟨.tooDeep limit, opening.tokens.current.position⟩,
        { session with tokens := opening.tokens, limit := some limit }) := by
  generalize reached : some answer = bounded at settled
  cases settled with
  | fits room =>
    obtain ⟨opening, inside, beyond⟩ := full
    have within := room opening inside
    omega
  | @exceeds _ before behind opening room level =>
    exact ⟨before, opening, behind, rfl, room, level, Option.some.inj reached⟩

end Settles

/-- The watched answer is the one without a limit, it leaves all but the tokens of the session as it
was, and it tells the answers under all limits that are not exceeded at the start. -/
structure Accounts {α : Type} (session : Session)
    (watched : Option (Outcome α × Session) × List Opening) (free : Option (Outcome α × Session))
    (bounded : Nat → Option (Outcome α × Session)) : Prop where
  answer : watched.1 = free
  level : ∀ outcome after, free = some (outcome, after) →
    after = { session with tokens := after.tokens }
  settles : ∀ limit, session.depth ≤ limit → Settles limit session watched (bounded limit)

namespace Accounts

variable {α : Type} {session : Session} {watched : Option (Outcome α × Session) × List Opening}
  {free : Option (Outcome α × Session)} {bounded : Nat → Option (Outcome α × Session)}

/-- A reading that goes on behind the current token. -/
theorem behind (accounts : Accounts session.advance watched free bounded) :
    Accounts session watched free bounded where
  answer := accounts.answer
  level := accounts.level
  settles limit shallow := by
    have settled := accounts.settles limit shallow
    generalize bounded limit = answer at settled ⊢
    cases settled with
    | fits room => exact .fits room
    | exceeds room full => exact .exceeds room full

/-- A reading that stays where it is. -/
theorem of_outcome (outcome : Outcome α) :
    Accounts session (some (outcome, session), []) (some (outcome, session))
      fun limit => some (outcome, session.under limit) where
  answer := rfl
  level _ _ run := by
    cases run
    rfl
  settles _ _ := .fits (by simp)

/-- A reading that opens nothing. -/
theorem of_blind {step : Parser α} (blind : step.Blind) (keeps : step.Keeps session) :
    Accounts session (some (step session), []) (some (step session))
      fun limit => some (step (session.under limit)) where
  answer := rfl
  level outcome after run := by
    obtain ⟨row, same, -⟩ := keeps
    rw [Option.some.inj run] at same
    exact Session.eq_of_prepend same
  settles limit _ := by
    rw [blind session limit]
    exact .fits (by simp)

end Accounts

namespace WatchedParser

variable {α β : Type}

/-- The watched step accounts for the reader in every session without a limit. -/
def Governs (watched : WatchedParser α) (reader : BoundedParser α) : Prop :=
  ∀ session : Session, session.limit = none →
    Accounts session (watched session) (reader session) fun limit => reader (session.under limit)

theorem governs_lift {step : Parser α} (blind : step.Blind)
    (keeps : ∀ session, step.Keeps session) : (lift step).Governs (.lift step) :=
  fun session _ => .of_blind blind (keeps session)

theorem governs_pure (value : α) :
    (Pure.pure value : WatchedParser α).Governs (Pure.pure value) :=
  fun _ _ => .of_outcome (.parsed value)

theorem governs_starved : (starved : WatchedParser α).Governs .starved := by
  intro session _
  refine ⟨rfl, ?_, fun _ _ => .fits (by simp)⟩
  intro outcome after run
  cases run

theorem Governs.bind {first : WatchedParser α} {next : α → WatchedParser β}
    {reader : BoundedParser α} {continued : α → BoundedParser β} (begins : first.Governs reader)
    (continues : ∀ value, (next value).Governs (continued value)) :
    (first >>= next).Governs (reader >>= continued) := by
  intro session unlimited
  obtain ⟨answer, level, settles⟩ := begins session unlimited
  change Accounts session (WatchedParser.bind first next session)
    (BoundedParser.bind reader continued session)
    fun limit => BoundedParser.bind reader continued (session.under limit)
  unfold WatchedParser.bind BoundedParser.bind
  generalize first session = watched at answer settles ⊢
  obtain ⟨reached, openings⟩ := watched
  rw [← answer] at level ⊢
  rcases reached with _ | ⟨value | _ | failure, after⟩
  case parsed =>
    have same := level _ _ rfl
    have depth : after.depth = session.depth := by rw [same]
    obtain ⟨answer, further, settlesNext⟩ := continues value after (by rw [same]; exact unlimited)
    refine ⟨answer, ?_, ?_⟩
    · intro outcome final run
      rw [further outcome final run, same]
    · intro limit shallow
      have settled := settles limit shallow
      have settledNext := settlesNext limit (by rw [depth]; exact shallow)
      generalize reader (session.under limit) = bounded at settled ⊢
      cases settled with
      | fits room => exact settledNext.behind same room
      | @exceeds _ before behind opening room full =>
        change Settles limit session (_, before ++ opening :: behind ++ _) _
        rw [List.append_assoc, List.cons_append]
        exact .exceeds room full
  -- The first step gives no value, without a limit or under one, and nothing follows it.
  all_goals
    refine ⟨rfl, ?_, ?_⟩
    · intro outcome final run
      cases run <;> exact level _ _ rfl
    · intro limit shallow
      have settled := settles limit shallow
      generalize reader (session.under limit) = bounded at settled ⊢
      cases settled with
      | fits room => exact .fits room
      | exceeds room full => exact .exceeds room full

theorem Governs.nested {inner : WatchedParser α} {reader : BoundedParser α}
    (inside : inner.Governs reader) : (nested inner).Governs (.nested reader) := by
  intro session unlimited
  obtain ⟨answer, level, settles⟩ := inside session.deeper unlimited
  have opened : session.openOperand = .ok session.deeper := by
    simp [Session.openOperand, unlimited, Session.deeper]
  unfold WatchedParser.nested BoundedParser.nested
  simp only [opened, ← answer] at level ⊢
  refine ⟨rfl, ?_, ?_⟩
  · intro outcome final run
    obtain ⟨⟨outcome, after⟩, given, closed⟩ := Option.map_eq_some_iff.1 run
    cases closed
    rw [level _ _ given]
    rfl
  · intro limit shallow
    by_cases room : session.depth < limit
    · have entered : (session.under limit).openOperand = .ok (session.deeper.under limit) := by
        have below : ¬ limit ≤ session.depth := by omega
        simp [Session.openOperand, Session.under, Session.deeper, below]
      simp only [entered]
      exact (settles limit room).outside room
    · have reached : session.depth = limit := by omega
      have refused : (session.under limit).openOperand =
          .error ⟨.tooDeep limit, session.tokens.current.position⟩ := by
        simp [Session.openOperand, Session.under, reached]
        rfl
      simp only [refused]
      have none : ∀ earlier ∈ ([] : List Opening), session.depth + earlier.count ≤ limit := by simp
      have full : session.depth + 1 = limit + 1 := by omega
      exact .exceeds none full

theorem governs_take : (lift Session.take).Governs (.lift Session.take) :=
  governs_lift Parser.blind_take Parser.keeps_take

/-- No step of a production makes the record or the limit go astray. -/
theorem governs_compatible : Grammar.Compatible @Governs where
  pure := governs_pure
  bind := Governs.bind
  take := governs_take
  expect _ _ := governs_lift (Parser.blind_expect _ _) (Parser.keeps_expect _ _)
  name _ := governs_lift (Parser.blind_expectName _) (Parser.keeps_expectName _)
  unexpected _ _ _ := governs_lift (Parser.blind_unexpected _) (Parser.keeps_unexpected _)
  noExpression _ := governs_lift Parser.blind_noExpression Parser.keeps_noExpression
  look related session unlimited := related _ _ session unlimited
  nested inside := inside.nested
  called inside := inside

/-- Each watched production accounts for the production. -/
theorem governs_read (rule : Grammar.Rule α) : (read rule).Governs (.lift (Session.read rule)) := by
  intro session unlimited
  have accounts :=
    governs_compatible.read (fun _ => governs_starved) session.enoughFuel rule session unlimited
  have bounded (limit : Nat) :
      (Grammar.read session.enoughFuel rule : BoundedParser α) (session.under limit) =
        some (Session.read rule (session.under limit)) :=
    Session.read_of_enough rule (session.under limit)
  simp only [bounded, Session.read_of_enough] at accounts
  exact accounts

end WatchedParser

namespace Production

open WatchedParser hiding pure bind

variable {α : Type}

theorem governs_prototype : (lift Session.prototype).Governs (.lift Session.prototype) :=
  governs_lift Parser.blind_prototype fun session => (Session.prototype_yields session).keeps

/-- The record of every reading step accounts for the step under every limit. -/
theorem governs (production : Production α) : production.watch.Governs (.lift production.read) := by
  have inner : (WatchedParser.read .expression).Governs (.lift Session.expression) :=
    governs_read .expression
  cases production with
  | expression => exact inner
  | operand => exact governs_read .operand
  | primary => exact governs_read .primary
  | operations minimum left => exact governs_read (.operations minimum left)
  | prototype => exact governs_prototype
  | definition =>
    unfold Production.read Session.definition
    simp only [BoundedParser.lift_bind]
    exact governs_take.bind fun _ => governs_prototype.bind fun _ => inner.bind fun _ =>
      governs_pure _
  | declaration =>
    exact governs_lift (Parser.blind_take.bind fun _ => Parser.blind_prototype) declaration.keeps
  | wrappedExpression =>
    unfold Production.read Session.wrappedExpression
    simp only [BoundedParser.lift_bind]
    exact inner.bind fun _ => governs_pure _

end Production

namespace Session

/-- The limit on open operands is exact and changes nothing else. If reading without a limit never
has more operands open at a time than there is room for, reading under the limit comes to the same
and takes the same tokens. Otherwise it fails for too much nesting at the first operand that is one
too many, whose token is still current. -/
theorem nesting_limit_is_exact {α : Type} (production : Production α) (tokens : TokenStream)
    (operators : OperatorTable) (depth : Nat) (shallow : depth ≤ nestingLimit) :
    let free : Session := ⟨tokens, operators, depth, none⟩
    let session : Session := ⟨tokens, operators, depth, some nestingLimit⟩
    let openings := (production.watch free).2
    (production.watch free).1 = some (production.read free) ∧
    ((∀ opening ∈ openings, opening.count ≤ nestingLimit - depth) →
      production.read session =
        ((production.read free).1, (production.read free).2.under nestingLimit)) ∧
    ((∃ opening ∈ openings, nestingLimit - depth < opening.count) →
      ∃ before opening behind, openings = before ++ opening :: behind ∧
        (∀ earlier ∈ before, earlier.count ≤ nestingLimit - depth) ∧
        opening.count = nestingLimit - depth + 1 ∧
        production.read session =
          (.failed ⟨.tooDeep nestingLimit, opening.tokens.current.position⟩,
            { session with tokens := opening.tokens })) := by
  intro free session openings
  obtain ⟨answer, -, settles⟩ := production.governs free rfl
  have settled :
      Settles nestingLimit free (production.watch free) (some (production.read session)) :=
    settles nestingLimit shallow
  refine ⟨answer, ?_, ?_⟩
  · intro room
    apply settled.eq_of_room answer
    intro opening inside
    have within := room opening inside
    show depth + opening.count ≤ nestingLimit
    omega
  · rintro ⟨opening, inside, beyond⟩
    have full : nestingLimit < free.depth + opening.count := by
      show nestingLimit < depth + opening.count
      omega
    obtain ⟨before, first, behind, split, room, level, failed⟩ :=
      settled.exists_of_full ⟨opening, inside, full⟩
    refine ⟨before, first, behind, split, ?_, ?_, failed⟩
    · intro earlier given
      have within : depth + earlier.count ≤ nestingLimit := room earlier given
      omega
    · have level : depth + first.count = nestingLimit + 1 := level
      omega

theorem nesting_limit_is_exact_of_signs :
    let place (kind : Token.Kind) (column : UInt32) : Token :=
      ⟨kind, ⟨⟨"shell", 1, column⟩, ⟨"shell", 1, column + 1⟩⟩⟩
    let tokens : TokenStream :=
      ⟨[place (.symbol '-') 1, place (.symbol '-') 2, place (.identifier "x") 3],
        ⟨"shell", 1, 4⟩, none⟩
    let free (depth : Nat) : Session := ⟨tokens, .builtin, depth, none⟩
    let session (depth : Nat) : Session := ⟨tokens, .builtin, depth, some nestingLimit⟩
    (session 253).operand = ((free 253).operand.1, (free 253).operand.2.under nestingLimit) ∧
      ∃ before opening behind,
        (Production.operand.watch (free 254)).2 = before ++ opening :: behind ∧
        (∀ earlier ∈ before, earlier.count ≤ 2) ∧ opening.count = 3 ∧
        (session 254).operand =
          (.failed ⟨.tooDeep nestingLimit, opening.tokens.current.position⟩,
            { session 254 with tokens := opening.tokens }) := by
  intro place tokens free session
  obtain ⟨-, same, -⟩ := nesting_limit_is_exact .operand tokens .builtin 253 (by decide)
  obtain ⟨-, -, fails⟩ := nesting_limit_is_exact .operand tokens .builtin 254 (by decide)
  exact ⟨same (by decide), fails (by decide)⟩

-- Operands beside each other are not inside each other: in `-(a)+b` the last operand is alone.
example :
    let place (kind : Token.Kind) : Token := ⟨kind, ⟨.nowhere, .nowhere⟩⟩
    let kinds : List Token.Kind := [.symbol '-', .symbol '(', .identifier "a", .symbol ')',
      .symbol '+', .identifier "b"]
    (Production.expression.watch ⟨⟨kinds.map place, .nowhere, none⟩, .builtin, 0, none⟩).2.map
      Opening.count = [1, 2, 3, 1] := by
  rfl

end Session

end Kaleidoscope
