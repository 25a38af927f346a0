import Kaleidoscope.Proofs.Derivation
import Kaleidoscope.Grammar.Fuel
import Mathlib.Data.List.Forall2

set_option autoImplicit false

/- A reading step heeds no token behind the one that is current after it. How far two readings may
differ is a parameter: the tokens may stand at other places, and behind a value, where the first
input ends, a symbol that takes part in no expression may follow in the second. -/

namespace Kaleidoscope

/-- The fault is to be found at a token of the given kind, and quotes that token if it quotes one.
What is wrong with a whole prototype, or with the backend, is not found at a token. -/
def Fault.Concerns (kind : Token.Kind) : Fault → Prop
  | noExpression text => kind ≠ .endOfInput ∧ text = kind.text
  | misplaced text _ => kind ≠ .endOfInput ∧ text = kind.text
  | noSymbol text => kind ≠ .endOfInput ∧ text = kind.text
  | precedenceOutOfRange value => kind = .number value
  | repeatedParameter name => kind = .identifier name
  | tooDeep _ => True
  | wrongArity _ _ _ => False
  | backend _ => False

/-- How two readings may differ. -/
structure Tolerance where
  /-- Which places a token may have in the second reading. -/
  places : Position → Position → Prop
  /-- The symbols that may stand in the second reading where the input of the first ends. -/
  closing : Char → Prop

namespace Tolerance

/-- The readings are of the same tokens. -/
def exact : Tolerance := ⟨Eq, fun _ => False⟩

/-- No closing symbol binds as tightly as `minimum`. -/
def Looser (tolerance : Tolerance) (operators : OperatorTable) (minimum : Int32) : Prop :=
  ∀ symbol, tolerance.closing symbol → operators.precedence symbol < minimum

/-- A closing symbol continues no expression, and no part of one. -/
structure Closes (tolerance : Tolerance) (operators : OperatorTable) : Prop where
  looser : tolerance.Looser operators 0
  plain (symbol : Char) : tolerance.closing symbol →
    symbol ≠ '(' ∧ symbol ≠ ')' ∧ symbol ≠ ',' ∧ symbol ≠ '='

theorem exact_looser (operators : OperatorTable) (minimum : Int32) :
    exact.Looser operators minimum :=
  fun _ none => none.elim

theorem exact_closes (operators : OperatorTable) : exact.Closes operators :=
  ⟨exact_looser operators 0, fun _ none => none.elim⟩

end Tolerance

/-- Tokens of one kind, at places that may differ. -/
structure Token.Alike (tolerance : Tolerance) (token other : Token) : Prop where
  kind : token.kind = other.kind
  place : tolerance.places token.position other.position

namespace Outcome

variable {α : Type}

/-- Outcomes that differ at most in the place of a failure. -/
inductive Alike (tolerance : Tolerance) : Outcome α → Outcome α → Prop where
  | parsed (value : α) : Alike tolerance (.parsed value) (.parsed value)
  | incomplete : Alike tolerance .incomplete .incomplete
  | failed (fault : Fault) {place other : Position} (related : tolerance.places place other) :
      Alike tolerance (.failed ⟨fault, place⟩) (.failed ⟨fault, other⟩)

/-- What a reading came to is settled by its last look alike, whether it is at the one token or the
other. -/
inductive Bears (tolerance : Tolerance) (token other : Token) : Outcome α → Prop where
  | alike {outcome : Outcome α} (same : token.Alike tolerance other) :
      Bears tolerance token other outcome
  | closed {value : α} {symbol : Char} (ended : token.kind = .endOfInput)
      (shown : other.kind = .symbol symbol) (closes : tolerance.closing symbol) :
      Bears tolerance token other (.parsed value)

/-- The token at which the reading stops is what its outcome is about. -/
def Explained (after : Session) : Outcome α → Prop
  | .parsed _ => True
  | .incomplete => after.current.kind = .endOfInput
  | .failed failure =>
    failure.position = after.position ∧ failure.fault.Concerns after.current.kind

end Outcome

namespace Session

/-- The session on other tokens. -/
def upon (session : Session) (tokens : TokenStream) : Session :=
  { session with tokens := tokens }

theorem upon_of_prepend {session after : Session} {row : List Token}
    (same : session = after.prepend row) (tokens : TokenStream) :
    after.upon tokens = session.upon tokens := by
  rw [same]
  rfl

theorem prepend_injective {session : Session} {row other : List Token}
    (same : session.prepend row = session.prepend other) : row = other :=
  List.append_cancel_right (congrArg (fun given => given.tokens.ahead) same)

theorem current_prepend_congr {session other : Session} (same : session.current = other.current)
    (row : List Token) : (session.prepend row).current = (other.prepend row).current := by
  cases row with
  | nil => exact same
  | cons token row => rfl

theorem openOperand_upon {session deeper : Session} (opened : session.openOperand = .ok deeper)
    (tokens : TokenStream) : (session.upon tokens).openOperand = .ok (deeper.upon tokens) := by
  have same := eq_of_openOperand opened
  unfold openOperand at opened ⊢
  cases bound : session.limit with
  | none => simp [upon, bound, same]
  | some limit =>
    rw [bound] at opened
    by_cases full : limit ≤ session.depth
    · simp [full] at opened
    · simp [upon, bound, full, same]

/-- Where no operand can be opened the failure is at the current token. -/
theorem openOperand_error {session : Session} {failure : Failure}
    (full : session.openOperand = .error failure) :
    ∃ limit, ∀ tokens, (session.upon tokens).openOperand =
      .error ((session.upon tokens).failure (.tooDeep limit)) := by
  unfold openOperand at full
  split at full
  next limit bound =>
    split at full
    next reached => exact ⟨limit, fun tokens => by simp [openOperand, upon, bound, reached]⟩
    next => cases full
  next => cases full

end Session

namespace BoundedParser

variable {α β : Type} {tolerance : Tolerance} {operators : OperatorTable} {session : Session}

theorem bind_of_parsed {first : BoundedParser α} {next : α → BoundedParser β} {value : α}
    {middle : Session} (start : first session = some (.parsed value, middle)) :
    (first >>= next) session = next value middle := by
  change BoundedParser.bind first next session = _
  simp only [BoundedParser.bind, start]

theorem bind_of_incomplete {first : BoundedParser α} {next : α → BoundedParser β}
    {after : Session} (start : first session = some (.incomplete, after)) :
    (first >>= next) session = some (.incomplete, after) := by
  change BoundedParser.bind first next session = _
  simp only [BoundedParser.bind, start]

theorem bind_of_failed {first : BoundedParser α} {next : α → BoundedParser β} {failure : Failure}
    {after : Session} (start : first session = some (.failed failure, after)) :
    (first >>= next) session = some (.failed failure, after) := by
  change BoundedParser.bind first next session = _
  simp only [BoundedParser.bind, start]

/-- A sequence comes to what its second step does, or its first step ends it. -/
theorem bind_cases {first : BoundedParser α} {next : α → BoundedParser β} {outcome : Outcome β}
    {after : Session} (run : (first >>= next) session = some (outcome, after)) :
    (∃ value middle, first session = some (.parsed value, middle) ∧
      next value middle = some (outcome, after)) ∨
    (first session = some (.incomplete, after) ∧ outcome = .incomplete) ∨
    ∃ failure, first session = some (.failed failure, after) ∧ outcome = .failed failure := by
  change BoundedParser.bind first next session = some (outcome, after) at run
  unfold BoundedParser.bind at run
  split at run
  · cases run
  next value middle start => exact .inl ⟨value, middle, start, run⟩
  next middle start =>
    cases run
    exact .inr (.inl ⟨start, rfl⟩)
  next failure middle start =>
    cases run
    exact .inr (.inr ⟨failure, start, rfl⟩)

/-- On a row of tokens like the one that the step takes, and with a current token behind it that
serves as well, the step does the like: it takes the row and no more. -/
def Repeats (tolerance : Tolerance) (step : BoundedParser α) (session : Session) : Prop :=
  ∀ outcome after, step session = some (outcome, after) →
    ∃ row, session = after.prepend row ∧ ∀ (other : List Token) (behind : TokenStream),
      List.Forall₂ (Token.Alike tolerance) row other →
      outcome.Bears tolerance after.current behind.current →
        ∃ result, step ((after.upon behind).prepend other) = some (result, after.upon behind) ∧
          outcome.Alike tolerance result

/-- All that a step makes of a session shows in the tokens up to the one that is current behind
it. -/
structure HeedsAt (tolerance : Tolerance) (step : BoundedParser α) (session : Session) : Prop where
  explained : ∀ outcome after, step session = some (outcome, after) → outcome.Explained after
  repeats : step.Repeats tolerance session

/-- The step heeds no further token wherever the operators are in force. -/
def Heeds (tolerance : Tolerance) (operators : OperatorTable) (step : BoundedParser α) : Prop :=
  ∀ session : Session, session.operators = operators → step.HeedsAt tolerance session

theorem heeds_starved : (starved : BoundedParser α).Heeds tolerance operators := by
  intro session _
  constructor
  · intro outcome after run
    cases run
  · intro outcome after run
    cases run

/-- A step that stays where it is has looked at the current token at most. -/
theorem HeedsAt.of_stays {step : BoundedParser α} {outcome : Outcome α}
    (here : step session = some (outcome, session)) (explained : outcome.Explained session)
    (again : ∀ behind : TokenStream, outcome.Bears tolerance session.current behind.current →
      ∃ result, step (session.upon behind) = some (result, session.upon behind) ∧
        outcome.Alike tolerance result) : step.HeedsAt tolerance session := by
  constructor
  · intro found after given
    rw [here] at given
    cases given
    exact explained
  · intro found after given
    rw [here] at given
    cases given
    refine ⟨[], rfl, ?_⟩
    intro other behind alike bears
    cases alike
    exact again behind bears

/-- A step that gives a value where it is. Where that is the end of the input, it looks at a closing
symbol in the same way. -/
theorem HeedsAt.stay {step : BoundedParser α} (value : α)
    (run : ∀ front : Session, front.operators = session.operators →
      (front.current.kind = session.current.kind ∨ session.current.kind = .endOfInput ∧
        ∃ symbol, front.current.kind = .symbol symbol ∧ tolerance.closing symbol) →
      step front = some (.parsed value, front)) : step.HeedsAt tolerance session := by
  refine .of_stays (run session rfl (.inl rfl)) trivial fun behind bears => ?_
  refine ⟨.parsed value, run _ rfl ?_, .parsed value⟩
  cases bears with
  | alike same => exact .inl same.kind.symm
  | closed ended shown closes => exact .inr ⟨ended, _, shown, closes⟩

theorem heeds_pure (value : α) : (Pure.pure value : BoundedParser α).Heeds tolerance operators :=
  fun _ _ => .stay value fun _ _ _ => rfl

/-- Where the input ends, so does the step. -/
theorem HeedsAt.halt {step : BoundedParser α} (ended : session.current.kind = .endOfInput)
    (run : ∀ front : Session, front.current.kind = .endOfInput →
      step front = some (.incomplete, front)) : step.HeedsAt tolerance session := by
  refine .of_stays (run session ended) ended fun behind bears => ?_
  cases bears with
  | alike same => exact ⟨.incomplete, run _ (same.kind.symm.trans ended), .incomplete⟩

/-- A failure at the current token. -/
theorem HeedsAt.refuse {step : BoundedParser α} {fault : Fault}
    (concerns : fault.Concerns session.current.kind)
    (run : ∀ front : Session, front.current.kind = session.current.kind →
      step front = some (.failed (front.failure fault), front)) :
    step.HeedsAt tolerance session := by
  refine .of_stays (run session rfl) ⟨rfl, concerns⟩ fun behind bears => ?_
  cases bears with
  | alike same => exact ⟨_, run _ same.kind.symm, .failed fault same.place⟩

theorem Repeats.behind {step inner : BoundedParser α} {kind : Token.Kind}
    (repeats : inner.Repeats tolerance session.advance) (seen : session.current.kind = kind)
    (regular : kind ≠ .endOfInput)
    (run : ∀ front : Session, front.operators = session.operators → front.current.kind = kind →
      step front = inner front.advance) : step.Repeats tolerance session := by
  intro outcome after given
  rw [run session rfl seen] at given
  obtain ⟨row, same, again⟩ := repeats outcome after given
  refine ⟨session.current :: row, ?_, ?_⟩
  · have moved := Session.eq_prepend_advance (Session.more_of_kind seen regular)
    rw [same, ← Session.prepend_append] at moved
    exact moved
  · intro other behind alike bears
    obtain ⟨token, others, first, rest, rfl⟩ := List.forall₂_cons_left_iff.1 alike
    obtain ⟨result, repeated, like⟩ := again others behind rest bears
    refine ⟨result, ?_, like⟩
    have level : after.operators = session.advance.operators :=
      Session.operators_of_prepend same
    rw [run ((after.upon behind).prepend (token :: others)) level (first.kind.symm.trans seen)]
    exact repeated

/-- A step that goes on behind the current token. -/
theorem HeedsAt.behind {step inner : BoundedParser α} {kind : Token.Kind}
    (heeds : inner.HeedsAt tolerance session.advance) (seen : session.current.kind = kind)
    (regular : kind ≠ .endOfInput)
    (run : ∀ front : Session, front.operators = session.operators → front.current.kind = kind →
      step front = inner front.advance) : step.HeedsAt tolerance session := by
  constructor
  · intro outcome after given
    rw [run session rfl seen] at given
    exact heeds.explained outcome after given
  · exact heeds.repeats.behind seen regular run

theorem Repeats.of_eq {step inner : BoundedParser α} (repeats : inner.Repeats tolerance session)
    (closed : session.current.kind = .endOfInput →
      ∀ value after, inner session = some (.parsed value, after) →
        ∀ (front : Session) (symbol : Char), front.operators = session.operators →
          front.current.kind = .symbol symbol → tolerance.closing symbol →
            step front = inner front)
    (run : ∀ front : Session, front.operators = session.operators →
      front.current.kind = session.current.kind → step front = inner front) :
    step.Repeats tolerance session := by
  intro outcome after given
  rw [run session rfl rfl] at given
  obtain ⟨row, same, again⟩ := repeats outcome after given
  refine ⟨row, same, ?_⟩
  intro other behind alike bears
  have level : after.operators = session.operators := Session.operators_of_prepend same
  have second : step ((after.upon behind).prepend other) =
      inner ((after.upon behind).prepend other) := by
    cases alike with
    | nil =>
      rw [Session.prepend_nil] at same
      cases bears with
      | alike first => exact run _ level (same ▸ first.kind.symm)
      | closed ended shown closes => exact closed (same ▸ ended) _ _ given _ _ level shown closes
    | cons first =>
      refine run ((after.upon behind).prepend _) level ?_
      rw [same]
      exact first.kind.symm
  rw [second]
  exact again other behind alike bears

/-- A step that is another one, wherever the current token is of the same kind. If the other gives
a value at the end of the input, it has to be the same at a closing symbol. -/
theorem HeedsAt.of_eq {step inner : BoundedParser α} (heeds : inner.HeedsAt tolerance session)
    (closed : session.current.kind = .endOfInput →
      ∀ value after, inner session = some (.parsed value, after) →
        ∀ (front : Session) (symbol : Char), front.operators = session.operators →
          front.current.kind = .symbol symbol → tolerance.closing symbol →
            step front = inner front)
    (run : ∀ front : Session, front.operators = session.operators →
      front.current.kind = session.current.kind → step front = inner front) :
    step.HeedsAt tolerance session := by
  constructor
  · intro outcome after given
    rw [run session rfl rfl] at given
    exact heeds.explained outcome after given
  · exact heeds.repeats.of_eq closed run

theorem heeds_unexpected (expectation : String) :
    (lift (Session.unexpected expectation) : BoundedParser α).Heeds tolerance operators := by
  intro session _
  by_cases ended : session.current.kind = .endOfInput
  · refine .halt ended fun front same => ?_
    simp [lift, Session.unexpected, Session.atEnd, same]
  · have concerns : (Fault.misplaced session.current.text expectation).Concerns
        session.current.kind := ⟨ended, rfl⟩
    refine .refuse concerns fun front same => ?_
    simp [lift, Session.unexpected, Session.atEnd, same, ended, Token.text]

/-- A step that finds nothing expected at the current token. -/
theorem HeedsAt.of_unexpected {step : BoundedParser α} (expectation : String)
    (run : ∀ front : Session, front.current.kind = session.current.kind →
      step front = lift (Session.unexpected expectation) front) :
    step.HeedsAt tolerance session := by
  refine (heeds_unexpected expectation session rfl).of_eq ?_ fun front _ same => run front same
  intro _ value after given
  simp only [lift, Session.unexpected] at given
  split at given <;> cases given

theorem heeds_noExpression :
    (lift Session.noExpression : BoundedParser α).Heeds tolerance operators := by
  intro session _
  by_cases ended : session.current.kind = .endOfInput
  · refine .halt ended fun front same => ?_
    simp [lift, Session.noExpression, Session.atEnd, same]
  · have concerns : (Fault.noExpression session.current.text).Concerns session.current.kind :=
      ⟨ended, rfl⟩
    refine .refuse concerns fun front same => ?_
    simp [lift, Session.noExpression, Session.atEnd, same, ended, Token.text]

theorem heeds_expectName (expectation : String) :
    (lift (Session.expectName expectation)).Heeds tolerance operators := by
  intro session level
  cases kind : session.current.kind with
  | identifier name =>
    refine (heeds_pure name session.advance level).behind kind (by simp) fun front _ same => ?_
    simp only [lift, Session.expectName, same]
    rfl
  | _ =>
    refine .of_unexpected expectation fun front same => ?_
    simp only [lift, Session.expectName, same, kind]

/-- A token of a given kind and then more. The token itself, and with it its place, is lost. -/
theorem Heeds.expect {kind : Token.Kind} {next : BoundedParser α}
    (heeds : next.Heeds tolerance operators) (plain : ∀ value, kind ≠ .number value)
    (regular : kind ≠ .endOfInput) (expectation : String) :
    (lift (Session.expect kind expectation) >>= fun _ => next).Heeds tolerance operators := by
  intro session level
  by_cases agrees : session.current.kind.agrees kind
  · have seen := Token.Kind.eq_of_agrees plain agrees
    rw [seen] at agrees
    refine (heeds session.advance level).behind seen regular fun front _ same => ?_
    apply bind_of_parsed
    simp only [lift, Session.expect, same, agrees, ↓reduceIte, Session.take]
    rfl
  by_cases ended : session.current.kind = .endOfInput
  · refine .halt ended fun front same => bind_of_incomplete ?_
    rw [ended] at agrees
    simp [lift, Session.expect, agrees, Session.unexpected, Session.atEnd, same]
  · have concerns : (Fault.misplaced session.current.text expectation).Concerns
        session.current.kind := ⟨ended, rfl⟩
    refine .refuse concerns fun front same => bind_of_failed ?_
    simp [lift, Session.expect, agrees, Session.unexpected, Session.atEnd, ended, Token.text, same]

/-- A second reading of two rows finds, behind the first of them, a token that serves as well. -/
theorem bears_between {after : Session} {rest other : List Token} {behind : TokenStream}
    {outcome : Outcome β} (value : α) (alike : List.Forall₂ (Token.Alike tolerance) rest other)
    (bears : outcome.Bears tolerance after.current behind.current) :
    (Outcome.parsed value).Bears tolerance (after.prepend rest).current
      ((after.upon behind).prepend other).current := by
  cases alike with
  | nil =>
    cases bears with
    | alike same => exact .alike same
    | closed ended shown closes => exact .closed ended shown closes
  | cons first => exact .alike first

/-- A first step that gives no value ends every sequence in the same way. -/
theorem Repeats.interrupt {first : BoundedParser α} (begins : first.Repeats tolerance session)
    {outcome : Outcome β} {after : Session}
    (start : first session = some (.incomplete, after) ∧ outcome = .incomplete ∨
      ∃ failure, first session = some (.failed failure, after) ∧ outcome = .failed failure) :
    ∃ row, session = after.prepend row ∧ ∀ (other : List Token) (behind : TokenStream),
      List.Forall₂ (Token.Alike tolerance) row other →
      outcome.Bears tolerance after.current behind.current →
        ∃ result, (∀ next : α → BoundedParser β,
          (first >>= next) ((after.upon behind).prepend other) =
            some (result, after.upon behind)) ∧ outcome.Alike tolerance result := by
  rcases start with ⟨start, rfl⟩ | ⟨failure, start, rfl⟩
  · obtain ⟨row, taken, again⟩ := begins _ _ start
    refine ⟨row, taken, ?_⟩
    intro other behind alike bears
    cases bears with
    | alike same =>
      obtain ⟨_, ended, kept⟩ := again other behind alike (.alike same)
      cases kept
      exact ⟨.incomplete, fun _ => bind_of_incomplete ended, .incomplete⟩
  · obtain ⟨row, taken, again⟩ := begins _ _ start
    refine ⟨row, taken, ?_⟩
    intro other behind alike bears
    cases bears with
    | alike same =>
      obtain ⟨_, refused, kept⟩ := again other behind alike (.alike same)
      cases kept with
      | failed fault related => exact ⟨_, fun _ => bind_of_failed refused, .failed fault related⟩

theorem Repeats.bind {first : BoundedParser α} {next : α → BoundedParser β}
    (begins : first.Repeats tolerance session)
    (continues : ∀ value middle, first session = some (.parsed value, middle) →
      (next value).Repeats tolerance middle) : (first >>= next).Repeats tolerance session := by
  intro outcome after run
  rcases bind_cases run with ⟨value, middle, start, rest⟩ | stopped
  · obtain ⟨row, taken, again⟩ := begins _ _ start
    obtain ⟨more, rfl, further⟩ := continues value middle start outcome after rest
    refine ⟨row ++ more, by rw [taken, Session.prepend_append], ?_⟩
    intro other behind alike bears
    have front := List.forall₂_take row.length alike
    have back := List.forall₂_drop row.length alike
    rw [List.take_left] at front
    rw [List.drop_left] at back
    obtain ⟨result, second, like⟩ := further _ behind back bears
    obtain ⟨_, begun, kept⟩ := again _ ((after.upon behind).prepend _).tokens front
      (bears_between value back bears)
    cases kept
    refine ⟨result, ?_, like⟩
    rw [← List.take_append_drop row.length other, Session.prepend_append]
    exact (bind_of_parsed begun).trans second
  · obtain ⟨row, taken, again⟩ := begins.interrupt stopped
    refine ⟨row, taken, ?_⟩
    intro other behind alike bears
    obtain ⟨result, ended, like⟩ := again other behind alike bears
    exact ⟨result, ended next, like⟩

/-- Steps in sequence heed what each of them heeds. -/
theorem HeedsAt.bind {first : BoundedParser α} {next : α → BoundedParser β}
    (begins : first.HeedsAt tolerance session)
    (continues : ∀ value middle, first session = some (.parsed value, middle) →
      (next value).HeedsAt tolerance middle) : (first >>= next).HeedsAt tolerance session := by
  constructor
  · intro outcome after run
    rcases bind_cases run with ⟨value, middle, start, rest⟩ | ⟨start, rfl⟩ | ⟨failure, start, rfl⟩
    · exact (continues value middle start).explained outcome after rest
    · exact begins.explained .incomplete after start
    · exact begins.explained (.failed failure) after start
  · exact begins.repeats.bind fun value middle start => (continues value middle start).repeats

theorem Heeds.bind {first : BoundedParser α} {next : α → BoundedParser β}
    (begins : first.Heeds tolerance operators)
    (continues : ∀ value, (next value).Heeds tolerance operators) :
    (first >>= next).Heeds tolerance operators := by
  intro session level
  refine (begins session level).bind fun value middle run => ?_
  obtain ⟨row, same, -⟩ := (begins session level).repeats _ _ run
  exact continues value middle ((Session.operators_of_prepend same).trans level)

/-- An operand that is opened and closed again. -/
theorem Heeds.nested {inner : BoundedParser α} (heeds : inner.Heeds tolerance operators) :
    (nested inner).Heeds tolerance operators := by
  intro session level
  cases opened : session.openOperand with
  | error failure =>
    obtain ⟨limit, full⟩ := Session.openOperand_error opened
    have refused (tokens : TokenStream) : BoundedParser.nested inner (session.upon tokens) =
        some (.failed ((session.upon tokens).failure (.tooDeep limit)), session.upon tokens) := by
      simp only [BoundedParser.nested, full]
    refine .of_stays (refused session.tokens) ⟨rfl, trivial⟩ fun behind bears => ?_
    cases bears with
    | alike same => exact ⟨_, refused behind, .failed _ same.place⟩
  | ok deeper =>
    have same := Session.eq_of_openOperand opened
    have inside := heeds deeper (by rw [same]; exact level)
    have entered (tokens : TokenStream) : BoundedParser.nested inner (session.upon tokens) =
        (inner (deeper.upon tokens)).map (Prod.map id Session.closeOperand) := by
      simp only [BoundedParser.nested, Session.openOperand_upon opened]
      rfl
    have closed {outcome : Outcome α} {after : Session}
        (run : BoundedParser.nested inner session = some (outcome, after)) :
        ∃ final, inner deeper = some (outcome, final) ∧ after = final.closeOperand := by
      have opening : deeper.upon session.tokens = deeper := by rw [same, Session.upon]
      have through := (entered session.tokens).symm.trans run
      rw [opening] at through
      obtain ⟨⟨_, final⟩, read, whole⟩ := Option.map_eq_some_iff.1 through
      cases whole
      exact ⟨final, read, rfl⟩
    constructor
    · intro outcome after run
      obtain ⟨final, read, rfl⟩ := closed run
      exact inside.explained outcome final read
    · intro outcome after run
      obtain ⟨final, read, rfl⟩ := closed run
      obtain ⟨row, taken, again⟩ := inside.repeats outcome final read
      have outside := Session.eq_prepend_closeOperand opened taken
      refine ⟨row, outside, ?_⟩
      intro other behind alike bears
      obtain ⟨result, repeated, like⟩ := again other behind alike bears
      refine ⟨result, ?_, like⟩
      have second := entered ((final.upon behind).prepend other).tokens
      rw [outside, taken] at second
      refine second.trans ?_
      change (inner ((final.upon behind).prepend other)).map _ = _
      rw [repeated]
      rfl

/-- What may go on behind the current token. If it can end with a value before the end of the input,
it has to stop before a closing symbol too. -/
theorem Heeds.behind {next : Token.Kind → OperatorTable → Option (BoundedParser α)}
    {otherwise : BoundedParser α} (ended : next .endOfInput operators = none)
    (stops : ∀ session : Session, session.current.kind = .endOfInput →
      ∀ value after, otherwise session = some (.parsed value, after) →
        ∀ symbol, tolerance.closing symbol → next (.symbol symbol) operators = none)
    (inside : ∀ kind inner, next kind operators = some inner → inner.Heeds tolerance operators)
    (left : otherwise.Heeds tolerance operators) :
    (Grammar.behind next otherwise).Heeds tolerance operators := by
  intro session level
  subst level
  cases given : next session.current.kind session.operators with
  | none =>
    refine (left session rfl).of_eq ?_ fun front level same => ?_
    · intro final value after run front symbol level shown closing
      apply behind_of_none
      rw [shown, level]
      exact stops session final value after run symbol closing
    · apply behind_of_none
      rw [same, level]
      exact given
  | some inner =>
    have regular : session.current.kind ≠ .endOfInput := by
      intro same
      rw [same, ended] at given
      cases given
    refine (inside _ inner given session.advance rfl).behind rfl regular fun front level same => ?_
    apply behind_of_some
    rw [same, level]
    exact given

/-- What concerns one reading only is a relation that leaves out the other. -/
theorem heeds_congruent (closes : tolerance.Closes operators) :
    Grammar.Congruent (P := BoundedParser) (Q := BoundedParser) Grammar.everywhere
      fun _ {_} step _ => step.Heeds tolerance operators where
  pure _ _ value := heeds_pure value
  bind _ _ _ _ _ _ _ begins continues := begins.bind continues
  expect _ _ kind expectation _ _ fixed _ heeds := by
    refine Heeds.expect heeds ?_ ?_ expectation
    · rintro value rfl
      cases fixed
    · rintro rfl
      cases fixed
  name _ expectation _ := heeds_expectName expectation
  unexpected _ _ expectation _ := heeds_unexpected expectation
  noExpression _ _ := heeds_noExpression
  behind _ _ next following _ _ plain _ related left := by
    refine .behind plain.ended (fun _ _ _ _ _ symbol closing => ?_) (fun kind inner given => ?_)
      left
    · apply plain.other
      obtain ⟨opening, closed, comma, equals⟩ := closes.plain symbol closing
      simp [opening, closed, comma, equals]
    · have both := related kind
      rw [given] at both
      generalize following kind = reflected at both
      cases both with
      | some inside => exact inside () trivial

end BoundedParser

namespace Grammar

open BoundedParser hiding pure bind

/-- No production heeds a token behind the one that is current after it. -/
structure Heeding (tolerance : Tolerance) (operators : OperatorTable) (fuel : Nat) : Prop where
  operations (minimum : Int32) (left : Expr) : tolerance.Looser operators minimum →
    BoundedParser.Heeds tolerance operators (read fuel (.operations minimum left))
  tighter (precedence : Int32) (right : Expr) : OperatorTable.noPrecedence ≤ precedence →
    (∀ symbol, tolerance.closing symbol → ¬ precedence < operators.precedence symbol) →
    BoundedParser.Heeds tolerance operators (read fuel (.tighter precedence right))
  operand : BoundedParser.Heeds tolerance operators (read fuel .operand)
  prefixed : BoundedParser.Heeds tolerance operators (read fuel .prefixed)
  closed {α : Type} (rule : Rule α) : rule.isClosed = true →
    BoundedParser.Heeds tolerance operators (read fuel rule)

variable {tolerance : Tolerance} {operators : OperatorTable} {fuel : Nat}

theorem operations_heeding (ih : Heeding tolerance operators fuel) (minimum : Int32) (left : Expr)
    (looser : tolerance.Looser operators minimum) :
    BoundedParser.Heeds tolerance operators (read (fuel + 1) (.operations minimum left)) := by
  refine .behind rfl (fun _ _ _ _ _ symbol closing => ?_) (fun kind inner given => ?_)
    (heeds_pure left)
  · simp only [looser symbol closing, ↓reduceIte]
  · cases kind with
    | symbol symbol =>
      by_cases low : operators.precedence symbol < minimum
      · simp [low] at given
      · simp only [low, ↓reduceIte, Option.some.injEq] at given
        rw [← given]
        have tight : ∀ other, tolerance.closing other →
            ¬ operators.precedence symbol < operators.precedence other := by
          intro other closing above
          exact low (Int32.lt_trans above (looser other closing))
        exact ih.operand.bind fun first =>
          (ih.tighter _ first (operators.noPrecedence_le symbol) tight).bind fun right =>
            ih.operations minimum (.binary symbol left right) looser
    | _ => cases given

theorem tighter_heeding (ih : Heeding tolerance operators fuel) (precedence : Int32) (right : Expr)
    (least : OperatorTable.noPrecedence ≤ precedence)
    (looser : ∀ symbol, tolerance.closing symbol → ¬ precedence < operators.precedence symbol) :
    BoundedParser.Heeds tolerance operators (read (fuel + 1) (.tighter precedence right)) := by
  intro session level
  subst level
  have entered (front : Session) :
      (read (fuel + 1) (.tighter precedence right) : BoundedParser Expr) front =
        (if precedence < front.currentPrecedence then
          read fuel (.operations (precedence + 1) right)
        else pure right : BoundedParser Expr) front := rfl
  have alike (front : Session) (level : front.operators = session.operators)
      (same : front.current.kind = session.current.kind) :
      front.currentPrecedence = session.currentPrecedence := by
    simp [Session.currentPrecedence, level, same]
  by_cases above : precedence < session.currentPrecedence
  · have next : tolerance.Looser session.operators (precedence + 1) := by
      intro symbol closes
      have below := looser symbol closes
      have exact := toInt_succ_of_lt above
      rw [Int32.lt_iff_toInt_lt] at below ⊢
      omega
    have more : session.current.kind ≠ .endOfInput := by
      intro ended
      rw [Session.currentPrecedence, ended] at above
      exact Int32.lt_irrefl (Int32.lt_of_le_of_lt least above)
    refine (ih.operations (precedence + 1) right next session rfl).of_eq
      (fun ended => absurd ended more) fun front level same => ?_
    rw [entered, if_pos (by rw [alike front level same]; exact above)]
  · apply HeedsAt.stay right
    rintro front level (same | ⟨ended, symbol, shown, closes⟩)
    · rw [entered, if_neg (by rw [alike front level same]; exact above)]
      rfl
    · have low : ¬ precedence < front.currentPrecedence := by
        simpa [Session.currentPrecedence, shown, level, OperatorTable.precedenceOf] using
          looser symbol closes
      rw [entered, if_neg low]
      rfl

theorem not_parsed_of_primary {session after : Session} {value : Expr}
    (ended : session.current.kind = .endOfInput) :
    (read fuel .primary : BoundedParser Expr) session ≠ some (.parsed value, after) := by
  intro run
  cases fuel with
  | zero => cases run
  | succ fuel =>
    have here : (read (fuel + 1) .primary : BoundedParser Expr) session =
        lift Session.noExpression session := behind_of_none (by rw [ended]; rfl)
    rw [here] at run
    simp [lift, Session.noExpression, Session.atEnd, ended] at run

theorem prefixed_heeding (ih : Heeding tolerance operators fuel) :
    BoundedParser.Heeds tolerance operators (read (fuel + 1) .prefixed) := by
  refine .behind rfl (fun _ ended _ _ run => absurd run (not_parsed_of_primary ended))
    (fun kind inner given => ?_) (ih.closed .primary rfl)
  cases kind with
  | symbol symbol =>
    by_cases plain : symbol = '(' ∨ symbol = ','
    · simp [plain] at given
    · simp only [plain, ↓reduceIte, Option.some.injEq] at given
      rw [← given]
      exact ih.operand.bind fun inner => heeds_pure (Expr.unary symbol inner)
  | _ => cases given

theorem heeding_succ (closes : tolerance.Closes operators) (ih : Heeding tolerance operators fuel) :
    Heeding tolerance operators (fuel + 1) where
  operations := operations_heeding ih
  tighter := tighter_heeding ih
  operand := ih.prefixed.nested
  prefixed := prefixed_heeding ih
  closed _ closed := by
    refine (heeds_congruent closes).closed (read fuel) (read fuel) ?_ ih.closed closed
    exact ih.operand.bind fun left => ih.operations 0 left closes.looser

theorem heeding (closes : tolerance.Closes operators) (fuel : Nat) :
    Heeding tolerance operators fuel := by
  induction fuel with
  | zero => constructor <;> intros <;> exact heeds_starved
  | succ fuel ih => exact heeding_succ closes ih

end Grammar

namespace Session

open BoundedParser hiding pure bind

variable {α : Type} {tolerance : Tolerance} {operators : OperatorTable}

/-- What is heeded with every fuel is heeded with none: there is fuel that is enough for both
readings. -/
theorem heeds_read {rule : Grammar.Rule α}
    (heeds : ∀ fuel, BoundedParser.Heeds tolerance operators (Grammar.read fuel rule)) :
    (lift (read rule)).Heeds tolerance operators := by
  intro session level
  have enough (bound : Nat) : Agree bound (Grammar.read (5 * bound + 5) rule) (lift (read rule)) :=
    agree_of_enough rule (by have := rule.rank_le; omega)
  have run := (enough session.remaining).eq (Nat.le_refl _)
  have first := heeds (5 * session.remaining + 5) session level
  constructor
  · intro outcome after given
    exact first.explained outcome after (run.trans given)
  · intro outcome after given
    obtain ⟨row, same, -⟩ := first.repeats outcome after (run.trans given)
    refine ⟨row, same, ?_⟩
    intro other behind alike bears
    let second := (after.upon behind).prepend other
    let bound := max session.remaining second.remaining
    have run := (enough bound).eq (Nat.le_max_left session.remaining second.remaining)
    obtain ⟨taken, whole, again⟩ :=
      (heeds (5 * bound + 5) session level).repeats outcome after (run.trans given)
    obtain rfl : row = taken := prepend_injective (same.symm.trans whole)
    obtain ⟨result, repeated, like⟩ := again other behind alike bears
    have run := (enough bound).eq (Nat.le_max_right session.remaining second.remaining)
    exact ⟨result, run.symm.trans repeated, like⟩

theorem heeds_expression (closes : tolerance.Closes operators) :
    (lift expression).Heeds tolerance operators :=
  heeds_read fun fuel => (Grammar.heeding closes fuel).closed .expression rfl

theorem heeds_operand (closes : tolerance.Closes operators) :
    (lift operand).Heeds tolerance operators :=
  heeds_read fun fuel => (Grammar.heeding closes fuel).operand

theorem heeds_primary (closes : tolerance.Closes operators) :
    (lift primary).Heeds tolerance operators :=
  heeds_read fun fuel => (Grammar.heeding closes fuel).closed .primary rfl

theorem heeds_operations (closes : tolerance.Closes operators) (minimum : Int32) (left : Expr)
    (looser : tolerance.Looser operators minimum) :
    (lift (operations minimum left)).Heeds tolerance operators :=
  heeds_read fun fuel => (Grammar.heeding closes fuel).operations minimum left looser

end Session

end Kaleidoscope
