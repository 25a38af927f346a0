import Kaleidoscope.Grammar.Fuel
import Kaleidoscope.Proofs.Entries
import Kaleidoscope.Proofs.Rows

set_option autoImplicit false

/- Both readings run side by side. The precedence that an operator must have at least is a different
number in the two; what they share is which of the symbols ahead fall short of it. -/

namespace Kaleidoscope

/-- Above a number that is not the last one, the next is its successor. -/
theorem lt_succ_iff_of_lt {low high other : Int32} (below : low < high) :
    other < low + 1 ↔ ¬ low < other := by
  have successor := toInt_succ_of_lt below
  rw [Int32.lt_iff_toInt_lt, Int32.lt_iff_toInt_lt]
  omega

namespace OperatorTable

variable {among : Char → Prop} {table other : OperatorTable}

/-- The tables make the same of these symbols operators, and of each two of them the same one binds
tighter. -/
structure RanksAlike (table : OperatorTable) (among : Char → Prop) (other : OperatorTable) :
    Prop where
  operator (symbol : Char) : among symbol →
    (0 < table.precedence symbol ↔ 0 < other.precedence symbol)
  order (left right : Char) : among left → among right →
    (table.precedence left < table.precedence right ↔
      other.precedence left < other.precedence right)

/-- The same symbols fall short of `minimum` under the one table and of `bound` under the other. -/
def CutsAlike (table : OperatorTable) (among : Char → Prop) (other : OperatorTable)
    (minimum bound : Int32) : Prop :=
  ∀ symbol, among symbol → (table.precedence symbol < minimum ↔ other.precedence symbol < bound)

theorem precedence_neg_iff (table : OperatorTable) (symbol : Char) :
    table.precedence symbol < 0 ↔ ¬ 0 < table.precedence symbol :=
  ⟨Int32.lt_asymm, precedence_neg⟩

theorem RanksAlike.cutsAlike_zero (alike : table.RanksAlike among other) :
    table.CutsAlike among other 0 0 := by
  intro symbol inside
  rw [precedence_neg_iff, precedence_neg_iff, alike.operator symbol inside]

/-- What binds tighter than a symbol does so under both tables. -/
theorem RanksAlike.cutsAlike_succ (alike : table.RanksAlike among other) {symbol next : Char}
    (known : among symbol) (following : among next)
    (tighter : table.precedence symbol < table.precedence next) :
    table.CutsAlike among other (table.precedence symbol + 1) (other.precedence symbol + 1) := by
  intro given inside
  have above := (alike.order symbol next known following).1 tighter
  rw [lt_succ_iff_of_lt tighter, lt_succ_iff_of_lt above, alike.order symbol given known inside]

end OperatorTable

namespace Session

/-- The session with another table of operators. -/
def ruledBy (session : Session) (operators : OperatorTable) : Session :=
  { session with operators := operators }

/-- The symbol is among the tokens ahead. -/
def Mentions (session : Session) (symbol : Char) : Prop :=
  ∃ token ∈ session.tokens.ahead, token.kind = .symbol symbol

/-- The table is in force, and the symbols ahead are among the given ones. -/
structure Confined (among : Char → Prop) (table : OperatorTable) (session : Session) : Prop where
  operators : session.operators = table
  mentions (symbol : Char) : session.Mentions symbol → among symbol

variable {session : Session} {operators table : OperatorTable} {among : Char → Prop}

@[simp]
theorem current_ruledBy : (session.ruledBy operators).current = session.current := rfl

@[simp]
theorem operators_ruledBy : (session.ruledBy operators).operators = operators := rfl

@[simp]
theorem advance_ruledBy :
    (session.ruledBy operators).advance = session.advance.ruledBy operators := rfl

@[simp]
theorem sees_ruledBy (symbol : Char) :
    (session.ruledBy operators).sees symbol = session.sees symbol := rfl

@[simp]
theorem atEnd_ruledBy : (session.ruledBy operators).atEnd = session.atEnd := rfl

@[simp]
theorem failure_ruledBy (fault : Fault) :
    (session.ruledBy operators).failure fault = session.failure fault := rfl

theorem mentions_of_kind {symbol : Char} (seen : session.current.kind = .symbol symbol) :
    session.Mentions symbol := by
  rcases session with ⟨⟨_ | ⟨token, ahead⟩, ending, failure⟩, operators, depth, limit⟩
  · cases seen
  · exact ⟨token, List.mem_cons_self, seen⟩

theorem Confined.advance (confined : session.Confined among table) :
    session.advance.Confined among table := by
  refine ⟨confined.operators, ?_⟩
  rintro symbol ⟨token, inside, seen⟩
  exact confined.mentions symbol ⟨token, List.mem_of_mem_tail inside, seen⟩

theorem Confined.openOperand {deeper : Session} (confined : session.Confined among table)
    (opened : session.openOperand = .ok deeper) : deeper.Confined among table := by
  rw [eq_of_openOperand opened]
  exact ⟨confined.operators, confined.mentions⟩

/-- Only a symbol can bind tighter than a symbol: what is no operator binds no tighter than
anything. -/
theorem lt_currentPrecedence_iff {symbol : Char} :
    session.operators.precedence symbol < session.currentPrecedence ↔
      ∃ next, session.current.kind = .symbol next ∧
        session.operators.precedence symbol < session.operators.precedence next := by
  have stops : ¬ session.operators.precedence symbol < OperatorTable.noPrecedence :=
    Int32.not_lt.2 (session.operators.noPrecedence_le symbol)
  unfold currentPrecedence
  cases session.current.kind <;> simp [OperatorTable.precedenceOf, stops]

/-- The current token binds tighter than a symbol under both tables or under none. -/
theorem Confined.lt_currentPrecedence_iff {other : OperatorTable} {symbol : Char}
    (confined : session.Confined among table) (alike : table.RanksAlike among other)
    (known : among symbol) :
    table.precedence symbol < session.currentPrecedence ↔
      other.precedence symbol < (session.ruledBy other).currentPrecedence := by
  obtain ⟨rfl, mentions⟩ := confined
  have reflected := @Session.lt_currentPrecedence_iff (session.ruledBy other) symbol
  simp only [operators_ruledBy, current_ruledBy] at reflected
  rw [Session.lt_currentPrecedence_iff, reflected]
  apply exists_congr
  intro next
  apply and_congr_right
  intro kind
  exact alike.order symbol next known (mentions next (mentions_of_kind kind))

/-- Whether an operand may be opened does not depend on the table. -/
theorem openOperand_ruledBy (session : Session) (operators : OperatorTable) :
    (session.ruledBy operators).openOperand =
      session.openOperand.map fun deeper => deeper.ruledBy operators := by
  rcases session with ⟨tokens, table, depth, _ | limit⟩
  · rfl
  · by_cases full : limit ≤ depth <;> simp [openOperand, ruledBy, full] <;> rfl

end Session

namespace BoundedParser

open Session

/-- The answers are the same but for the table in force, and what is still ahead is confined. -/
inductive Mirrored {α : Type} (among : Char → Prop) (table other : OperatorTable) :
    Option (Outcome α × Session) → Option (Outcome α × Session) → Prop where
  | starved : Mirrored among table other none none
  | answered (outcome : Outcome α) {after : Session} (confined : after.Confined among table) :
      Mirrored among table other (some (outcome, after)) (some (outcome, after.ruledBy other))

/-- The second step does under the other table what the first does under the first table. -/
def Mirrors (among : Char → Prop) (table other : OperatorTable) {α : Type}
    (step mirror : BoundedParser α) : Prop :=
  ∀ session : Session, session.Confined among table →
    Mirrored among table other (step session) (mirror (session.ruledBy other))

variable {α β : Type} {among : Char → Prop} {table other : OperatorTable}

theorem mirrors_pure (value : α) :
    Mirrors among table other (Pure.pure value) (Pure.pure value) :=
  fun _ confined => .answered (.parsed value) confined

theorem mirrors_starved : Mirrors among table other (starved : BoundedParser α) starved :=
  fun _ _ => .starved

theorem Mirrors.bind {first mirror : BoundedParser α} {next following : α → BoundedParser β}
    (begins : Mirrors among table other first mirror)
    (continues : ∀ value, Mirrors among table other (next value) (following value)) :
    Mirrors among table other (first >>= next) (mirror >>= following) := by
  intro session confined
  change Mirrored among table other (BoundedParser.bind first next session)
    (BoundedParser.bind mirror following (session.ruledBy other))
  unfold BoundedParser.bind
  have start := begins session confined
  generalize first session = plain at start ⊢
  generalize mirror (session.ruledBy other) = reflected at start ⊢
  cases start with
  | starved => exact .starved
  | @answered outcome after confined =>
    cases outcome with
    | parsed value => exact continues value after confined
    | incomplete => exact .answered .incomplete confined
    | failed failure => exact .answered (.failed failure) confined

theorem Mirrors.nested {inner mirror : BoundedParser α}
    (inside : Mirrors among table other inner mirror) :
    Mirrors among table other (nested inner) (nested mirror) := by
  intro session confined
  unfold BoundedParser.nested
  rw [openOperand_ruledBy]
  cases opened : session.openOperand with
  | error failure => exact .answered (.failed failure) confined
  | ok deeper =>
    have answer := inside deeper (confined.openOperand opened)
    simp only [Except.map]
    generalize inner deeper = plain at answer ⊢
    generalize mirror (deeper.ruledBy other) = reflected at answer ⊢
    cases answer with
    | starved => exact .starved
    | answered outcome confined => exact .answered outcome ⟨confined.operators, confined.mentions⟩

theorem mirrors_unexpected (expectation : String) :
    Mirrors among table other (lift (unexpected expectation) : BoundedParser α)
      (lift (unexpected expectation)) := by
  intro session confined
  unfold lift unexpected
  by_cases ended : session.atEnd
  · simp only [atEnd_ruledBy, ended, ↓reduceIte]
    exact .answered .incomplete confined
  · simp only [atEnd_ruledBy, ended, Bool.false_eq_true, ↓reduceIte]
    exact .answered (.failed _) confined

theorem mirrors_expect (kind : Token.Kind) (expectation : String) :
    Mirrors among table other (lift (expect kind expectation))
      (lift (expect kind expectation)) := by
  intro session confined
  unfold lift expect
  by_cases agrees : session.current.kind.agrees kind
  · simp only [current_ruledBy, agrees, ↓reduceIte]
    exact .answered (.parsed session.current) confined.advance
  · simp only [current_ruledBy, agrees, Bool.false_eq_true, ↓reduceIte]
    exact mirrors_unexpected expectation session confined

theorem mirrors_expectName (expectation : String) :
    Mirrors among table other (lift (expectName expectation)) (lift (expectName expectation)) := by
  intro session confined
  unfold lift expectName
  cases kind : session.current.kind with
  | identifier name =>
    simp only [current_ruledBy, kind, advance_ruledBy]
    exact .answered (.parsed name) confined.advance
  | _ =>
    simp only [current_ruledBy, kind]
    exact mirrors_unexpected expectation session confined

theorem mirrors_noExpression :
    Mirrors among table other (lift noExpression : BoundedParser α) (lift noExpression) := by
  intro session confined
  unfold lift noExpression
  by_cases ended : session.atEnd
  · simp only [atEnd_ruledBy, ended, ↓reduceIte]
    exact .answered .incomplete confined
  · simp only [atEnd_ruledBy, ended, Bool.false_eq_true, ↓reduceIte]
    exact .answered (.failed _) confined

/-- Both readings go on behind the current token, or neither does. -/
theorem Mirrors.behind {next following : Token.Kind → OperatorTable → Option (BoundedParser α)}
    {otherwise missing : BoundedParser α}
    (related : ∀ kind, (∀ symbol, kind = .symbol symbol → among symbol) →
      Option.Rel (Mirrors among table other) (next kind table) (following kind other))
    (left : Mirrors among table other otherwise missing) :
    Mirrors among table other (Grammar.behind next otherwise)
      (Grammar.behind following missing) := by
  intro session confined
  have both := related session.current.kind fun symbol seen =>
    confined.mentions symbol (mentions_of_kind seen)
  generalize seen : next session.current.kind table = choice at both
  generalize met : following session.current.kind other = reflected at both
  rw [← confined.operators] at seen
  cases both with
  | none =>
    rw [behind_of_none seen, behind_of_none met]
    exact left session confined
  | some inside =>
    rw [behind_of_some seen, behind_of_some met]
    exact inside session.advance confined.advance

/-- Constructs do not look at the table. -/
theorem mirrors_congruent :
    Grammar.Congruent (P := BoundedParser) (Q := BoundedParser) Grammar.everywhere
      fun _ {_} => Mirrors among table other where
  pure _ _ value := mirrors_pure value
  bind _ _ _ _ _ _ _ begins continues := begins.bind continues
  expect _ _ kind expectation _ _ _ _ related :=
    (mirrors_expect kind expectation).bind fun _ => related
  name _ expectation _ := mirrors_expectName expectation
  unexpected _ _ expectation _ := mirrors_unexpected expectation
  noExpression _ _ := mirrors_noExpression
  behind _ _ _ _ _ _ _ _ related left := by
    simp only [Grammar.everywhere, forall_const] at related
    exact Mirrors.behind (fun kind _ => related kind) left

end BoundedParser

namespace Grammar

open BoundedParser hiding pure bind

/-- Every production does the same under both tables. -/
structure Ranked (among : Char → Prop) (table other : OperatorTable) (fuel : Nat) : Prop where
  operations (minimum bound : Int32) (left : Expr) : table.CutsAlike among other minimum bound →
    Mirrors among table other (read fuel (.operations minimum left))
      (read fuel (.operations bound left))
  tighter (symbol : Char) (right : Expr) : among symbol →
    Mirrors among table other (read fuel (.tighter (table.precedence symbol) right))
      (read fuel (.tighter (other.precedence symbol) right))
  operand : Mirrors among table other (read fuel .operand) (read fuel .operand)
  prefixed : Mirrors among table other (read fuel .prefixed) (read fuel .prefixed)
  closed {α : Type} (rule : Rule α) : rule.isClosed = true →
    Mirrors among table other (read fuel rule) (read fuel rule)

variable {among : Char → Prop} {table other : OperatorTable} {fuel : Nat}

theorem operations_ranked (ih : Ranked among table other fuel) {minimum bound : Int32}
    (cuts : table.CutsAlike among other minimum bound) (left : Expr) :
    Mirrors among table other (read (fuel + 1) (.operations minimum left))
      (read (fuel + 1) (.operations bound left)) := by
  refine .behind (fun kind known => ?_) (mirrors_pure left)
  cases kind with
  | symbol symbol =>
    have known := known symbol rfl
    by_cases low : table.precedence symbol < minimum
    · simp only [low, (cuts symbol known).1 low, ↓reduceIte]
      exact .none
    · have passes : ¬ other.precedence symbol < bound := mt (cuts symbol known).2 low
      simp only [low, passes, ↓reduceIte]
      exact .some (ih.operand.bind fun first => (ih.tighter symbol first known).bind fun right =>
        ih.operations minimum bound (.binary symbol left right) cuts)
  | _ => exact .none

/-- Both readings of the right operand go on, or neither does. -/
theorem tighter_ranked (alike : table.RanksAlike among other) (ih : Ranked among table other fuel)
    {symbol : Char} (known : among symbol) (right : Expr) :
    Mirrors among table other (read (fuel + 1) (.tighter (table.precedence symbol) right))
      (read (fuel + 1) (.tighter (other.precedence symbol) right)) := by
  intro session confined
  change Mirrored among table other
    ((if table.precedence symbol < session.currentPrecedence then _ else _ : BoundedParser Expr)
      session)
    ((if other.precedence symbol < (session.ruledBy other).currentPrecedence then _ else _ :
      BoundedParser Expr) (session.ruledBy other))
  by_cases above : table.precedence symbol < session.currentPrecedence
  · rw [if_pos above, if_pos ((confined.lt_currentPrecedence_iff alike known).1 above)]
    rw [← confined.operators, Session.lt_currentPrecedence_iff, confined.operators] at above
    obtain ⟨next, kind, binds⟩ := above
    have following := confined.mentions next (Session.mentions_of_kind kind)
    exact ih.operations _ _ right (alike.cutsAlike_succ known following binds) session confined
  · rw [if_neg above, if_neg (mt (confined.lt_currentPrecedence_iff alike known).2 above)]
    exact .answered (.parsed right) confined

theorem prefixed_ranked (ih : Ranked among table other fuel) :
    Mirrors among table other (read (fuel + 1) .prefixed) (read (fuel + 1) .prefixed) := by
  refine .behind (fun kind _ => ?_) (ih.closed .primary rfl)
  cases kind with
  | symbol symbol =>
    by_cases plain : symbol = '(' ∨ symbol = ','
    · simp only [plain, ↓reduceIte]
      exact .none
    · simp only [plain, ↓reduceIte]
      exact .some (ih.operand.bind fun inner => mirrors_pure (Expr.unary symbol inner))
  | _ => exact .none

theorem ranked_succ (alike : table.RanksAlike among other) (ih : Ranked among table other fuel) :
    Ranked among table other (fuel + 1) where
  operations _ _ left cuts := operations_ranked ih cuts left
  tighter _ right known := tighter_ranked alike ih known right
  operand := (ih.prefixed).nested
  prefixed := prefixed_ranked ih
  closed _ closed := by
    refine mirrors_congruent.closed (read fuel) (read fuel) ?_ ih.closed closed
    exact ih.operand.bind fun left => ih.operations 0 0 left alike.cutsAlike_zero

theorem ranked (alike : table.RanksAlike among other) (fuel : Nat) :
    Ranked among table other fuel := by
  induction fuel with
  | zero => constructor <;> intros <;> exact mirrors_starved
  | succ fuel ih => exact ranked_succ alike ih

end Grammar

namespace OperatorTable

variable {table : OperatorTable}

/-- The table without the entries that fail a test. -/
def restrict (table : OperatorTable) (keep : Operator → Bool) : OperatorTable where
  entries := table.entries.filter keep
  ordered := table.ordered.filter keep
  distinct := table.distinct.filter keep

theorem get?_restrict (table : OperatorTable) (keep : Operator → Bool) (symbol : Char) :
    (table.restrict keep).get? symbol =
      (table.get? symbol).filter fun precedence => keep ⟨symbol, precedence⟩ := by
  ext precedence
  have listed (given : OperatorTable) :
      given.get? symbol = some precedence ↔ ⟨symbol, precedence⟩ ∈ given.entries :=
    (@mem_entries_iff given ⟨symbol, precedence⟩).symm
  rw [listed, restrict, List.mem_filter, Option.filter_eq_some_iff, listed]

/-- An entry may go if it makes no operator. -/
theorem precedence_restrict {keep : Operator → Bool} {symbol : Char}
    (kept : ∀ entry ∈ table.entries, 0 < entry.precedence → entry.symbol = symbol →
      keep entry = true) :
    (table.restrict keep).precedence symbol = table.precedence symbol := by
  unfold precedence
  rw [get?_restrict]
  cases found : table.get? symbol with
  | none => rfl
  | some precedence =>
    by_cases positive : 0 < precedence
    · have stays := kept ⟨symbol, precedence⟩ (mem_entries_iff.2 found) positive rfl
      simp [Option.filter, stays]
    · by_cases stays : keep ⟨symbol, precedence⟩ = true <;> simp [Option.filter, stays, positive]

theorem ranksAlike_of_precedence {among : Char → Prop} {other : OperatorTable}
    (same : ∀ symbol, among symbol → other.precedence symbol = table.precedence symbol) :
    table.RanksAlike among other := by
  constructor
  · intro symbol inside
    rw [same symbol inside]
  · intro left right first second
    rw [same left first, same right second]

end OperatorTable

namespace Session

open BoundedParser

theorem expression_ruledBy {session : Session} {other : OperatorTable}
    (alike : session.operators.RanksAlike session.Mentions other) :
    (session.ruledBy other).expression =
      (session.expression.1, session.expression.2.ruledBy other) := by
  have ranked := (Grammar.ranked alike session.enoughFuel).closed .expression rfl session
    ⟨rfl, fun _ => id⟩
  have reflected : (Grammar.read session.enoughFuel .expression : BoundedParser Expr)
      (session.ruledBy other) = some (session.ruledBy other).expression :=
    read_expression (session.ruledBy other)
  rw [read_expression, reflected] at ranked
  generalize session.expression = answer at ranked ⊢
  generalize (session.ruledBy other).expression = mirrored at ranked ⊢
  cases ranked
  rfl

/-- Of a table only the order of its operators matters for reading an expression, at whatever depth:
two tables that make the same of the symbols ahead operators, and of each two of them let the same
one bind tighter, lead to the same outcome behind the same tokens. So entries that are not positive
count as absent, and operators that are not among the tokens ahead have no bearing: the table may
lose any entry but those of the operators ahead. -/
theorem only_ranks_matter (session : Session) :
    (∀ other, session.operators.RanksAlike session.Mentions other →
      (session.ruledBy other).expression =
        (session.expression.1, session.expression.2.ruledBy other)) ∧
    ∀ keep : Operator → Bool,
      (∀ entry ∈ session.operators.entries, 0 < entry.precedence →
        session.Mentions entry.symbol → keep entry = true) →
      (session.ruledBy (session.operators.restrict keep)).expression =
        (session.expression.1,
          session.expression.2.ruledBy (session.operators.restrict keep)) := by
  refine ⟨fun other => expression_ruledBy, ?_⟩
  intro keep kept
  apply expression_ruledBy
  apply OperatorTable.ranksAlike_of_precedence
  intro symbol inside
  apply OperatorTable.precedence_restrict
  rintro entry entered positive rfl
  exact kept entry entered positive inside

/-- The expression `a < b + (c * d) * e` under the operators of the language, under the highest and
lowest precedences there are, and under a table without the operators that it does not use. -/
theorem only_ranks_matter_of_extremes :
    let place (kind : Token.Kind) : Token := ⟨kind, ⟨.nowhere, .nowhere⟩⟩
    let kinds : List Token.Kind := [.identifier "a", .symbol '<', .identifier "b", .symbol '+',
      .symbol '(', .identifier "c", .symbol '*', .identifier "d", .symbol ')', .symbol '*',
      .identifier "e"]
    let session : Session := .start ⟨kinds.map place, .nowhere, none⟩ .builtin
    let other := OperatorTable.empty.defineAll
      [⟨'<', 1⟩, ⟨'+', 2147483646⟩, ⟨'*', 2147483647⟩, ⟨'|', 7⟩, ⟨')', 0⟩, ⟨'(', -2147483648⟩]
    let used (entry : Operator) : Bool := "<+*".toList.contains entry.symbol
    let result : Expr := .binary '<' (.reference "a") (.binary '+' (.reference "b")
      (.binary '*' (.binary '*' (.reference "c") (.reference "d")) (.reference "e")))
    session.expression.1 = .parsed result ∧
      (session.ruledBy other).expression =
        (session.expression.1, session.expression.2.ruledBy other) ∧
      (OperatorTable.builtin.restrict used).entries = [⟨'<', 10⟩, ⟨'+', 20⟩, ⟨'*', 40⟩] ∧
      (session.ruledBy (OperatorTable.builtin.restrict used)).expression =
        (session.expression.1,
          session.expression.2.ruledBy (OperatorTable.builtin.restrict used)) := by
  intro place kinds session other used result
  let signs : List Char := ['<', '+', '(', '*', ')', '*']
  have mentioned : ∀ symbol, session.Mentions symbol → symbol ∈ signs := by
    rintro symbol ⟨token, inside, seen⟩
    have listed : token.kind ∈ kinds := by
      obtain ⟨kind, given, rfl⟩ := List.mem_map.1 inside
      exact given
    rw [seen] at listed
    simpa [kinds, signs] using listed
  have operators : signs.all fun symbol =>
      decide (0 < OperatorTable.builtin.precedence symbol ↔ 0 < other.precedence symbol) := by
    decide
  have order : signs.all fun left => signs.all fun right =>
      decide (OperatorTable.builtin.precedence left < OperatorTable.builtin.precedence right ↔
        other.precedence left < other.precedence right) := by
    decide
  simp only [List.all_eq_true, decide_eq_true_eq] at operators order
  have kept : ∀ entry ∈ OperatorTable.builtin.entries,
      entry.symbol ∈ signs → used entry = true := by decide
  obtain ⟨ranks, restricted⟩ := only_ranks_matter session
  refine ⟨rfl, ranks other ⟨?_, ?_⟩, by decide, restricted used ?_⟩
  · intro symbol inside
    exact operators symbol (mentioned symbol inside)
  · intro left right first second
    exact order left (mentioned left first) right (mentioned right second)
  · intro entry entered _ inside
    exact kept entry entered (mentioned entry.symbol inside)

end Session

end Kaleidoscope
