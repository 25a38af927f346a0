import Kaleidoscope.Proofs.Derivation
import Kaleidoscope.Grammar.Fuel

set_option autoImplicit false

/- A chain of operators and operands has one tree in which every operator binds the operators left
of it at least as tightly as itself, and those right of it more tightly. -/

namespace Kaleidoscope

/-- A tree of binary operators. The operands at its leaves are not looked into. -/
inductive OperatorTree where
  | leaf (operand : Expr)
  | node (symbol : Char) (left right : OperatorTree)

namespace OperatorTree

def expr : OperatorTree → Expr
  | leaf operand => operand
  | node symbol left right => .binary symbol left.expr right.expr

/-- The leftmost operand. -/
def first : OperatorTree → Expr
  | leaf operand => operand
  | node _ left _ => left.first

/-- The operators from left to right, each with the operand that follows it. -/
def chain : OperatorTree → List (Char × Expr)
  | leaf _ => []
  | node symbol left right => left.chain ++ (symbol, right.first) :: right.chain

/-- At every node the operators on the left bind at least as tightly as the node's own, and those
on the right bind tighter. -/
def Respects (operators : OperatorTable) : OperatorTree → Prop
  | leaf _ => True
  | node symbol left right =>
    (∀ entry ∈ left.chain, operators.precedence symbol ≤ operators.precedence entry.1) ∧
    (∀ entry ∈ right.chain, operators.precedence symbol < operators.precedence entry.1) ∧
    left.Respects operators ∧ right.Respects operators

variable {operators : OperatorTable}

/-- Two trees over one chain do not have the root of one left of the root of the other. -/
theorem root_not_before {symbol other : Char} {left right left' right' : OperatorTree}
    (respects : (node symbol left right).Respects operators)
    (respects' : (node other left' right').Respects operators) {entry : Char × Expr}
    {between : List (Char × Expr)} (behind : left'.chain = left.chain ++ entry :: between)
    (ahead : (symbol, right.first) :: right.chain =
      (entry :: between) ++ (other, right'.first) :: right'.chain) : False := by
  simp only [List.cons_append, List.cons.injEq] at ahead
  obtain ⟨same, rest⟩ := ahead
  have inside : (symbol, right.first) ∈ left'.chain := by
    rw [behind, ← same]
    simp
  have outside : (other, right'.first) ∈ right.chain := by
    rw [rest]
    simp
  have low := respects'.1 _ inside
  have high := respects.2.1 _ outside
  exact Int32.not_lt.2 low high

/-- A chain has at most one tree that respects the precedences. -/
theorem eq_of_respects {tree other : OperatorTree} (start : tree.first = other.first)
    (same : tree.chain = other.chain) (respects : tree.Respects operators)
    (respects' : other.Respects operators) : tree = other := by
  induction tree generalizing other with
  | leaf operand =>
    cases other with
    | leaf operand' => exact congrArg leaf start
    | node symbol' left' right' => simp [chain] at same
  | node symbol left right leftIh rightIh =>
    cases other with
    | leaf operand' => simp [chain] at same
    | node symbol' left' right' =>
      change left.first = left'.first at start
      rcases List.append_eq_append_iff.1 same with
        ⟨between, behind, ahead⟩ | ⟨between, behind, ahead⟩
      · cases between with
        | cons entry between => exact (root_not_before respects respects' behind ahead).elim
        | nil =>
          simp only [List.nil_append, List.cons.injEq, Prod.mk.injEq] at ahead
          obtain ⟨⟨rfl, next⟩, rest⟩ := ahead
          rw [List.append_nil] at behind
          rw [leftIh start behind.symm respects.2.2.1 respects'.2.2.1,
            rightIh next rest respects.2.2.2 respects'.2.2.2]
      · cases between with
        | cons entry between => exact (root_not_before respects' respects behind ahead).elim
        | nil =>
          simp only [List.nil_append, List.cons.injEq, Prod.mk.injEq] at ahead
          obtain ⟨⟨rfl, next⟩, rest⟩ := ahead
          rw [List.append_nil] at behind
          rw [leftIh start behind respects.2.2.1 respects'.2.2.1,
            rightIh next.symm rest.symm respects.2.2.2 respects'.2.2.2]

end OperatorTree

namespace Session

/-- Each operator of the chain is the current token in its turn, and the operand with it is what is
read behind it. -/
inductive Consumes : Session → List (Char × Expr) → Session → Prop where
  | done (session : Session) : Consumes session [] session
  | more {session middle after : Session} {symbol : Char} {operand : Expr}
      {rest : List (Char × Expr)} (seen : session.current.kind = .symbol symbol)
      (read : session.advance.operand = (.parsed operand, middle))
      (others : Consumes middle rest after) :
      Consumes session ((symbol, operand) :: rest) after

theorem Consumes.append {session middle after : Session} {chain others : List (Char × Expr)}
    (first : Consumes session chain middle) (second : Consumes middle others after) :
    Consumes session (chain ++ others) after := by
  induction first with
  | done session => exact second
  | more seen read rest ih => exact .more seen read (ih second)

theorem prepend_of_operand {session middle : Session} {operand : Expr}
    (read : session.operand = (.parsed operand, middle)) :
    ∃ row, session = middle.prepend row := by
  have yields := operand_yields session
  unfold Parser.Yields at yields
  rw [read] at yields
  obtain ⟨row, same, _⟩ := yields
  exact ⟨row, same⟩

/-- A chain is a row of tokens. -/
theorem Consumes.exists_prepend {session after : Session} {chain : List (Char × Expr)}
    (consumed : Consumes session chain after) : ∃ row, session = after.prepend row := by
  induction consumed with
  | done session => exact ⟨[], rfl⟩
  | @more session middle after symbol operand rest seen read others ih =>
    obtain ⟨first, same⟩ := session.exists_prepend_advance
    obtain ⟨second, moved⟩ := prepend_of_operand read
    obtain ⟨third, final⟩ := ih
    refine ⟨first ++ (second ++ third), ?_⟩
    rw [same, moved, final, prepend_append, prepend_append]

theorem Consumes.operators_eq {session after : Session} {chain : List (Char × Expr)}
    (consumed : Consumes session chain after) : after.operators = session.operators := by
  obtain ⟨row, same⟩ := consumed.exists_prepend
  exact operators_of_prepend same

theorem Consumes.remaining_le {session after : Session} {chain : List (Char × Expr)}
    (consumed : Consumes session chain after) : after.remaining ≤ session.remaining := by
  obtain ⟨row, same⟩ := consumed.exists_prepend
  rw [same]
  simp [remaining]

/-- The tree `grown` extends `tree` by a chain of operators that bind at least as tightly as
`minimum`, read from the session; the token behind it is no such operator. -/
structure Extends (session : Session) (minimum : Int32) (tree grown : OperatorTree)
    (after : Session) : Prop where
  first : grown.first = tree.first
  respects : grown.Respects session.operators
  added : ∃ chain, grown.chain = tree.chain ++ chain ∧ Consumes session chain after ∧
    ∀ entry ∈ chain, minimum ≤ session.operators.precedence entry.1
  stops : ∀ symbol, after.current.kind = .symbol symbol →
    session.operators.precedence symbol < minimum

/-- The current token, if it is a symbol, binds no tighter than any operator of the tree. -/
def Bounds (session : Session) (tree : OperatorTree) : Prop :=
  ∀ symbol, session.current.kind = .symbol symbol → ∀ entry ∈ tree.chain,
    session.operators.precedence symbol ≤ session.operators.precedence entry.1

/-- The right operand of an operator: a tree of all the operators that bind tighter, and behind it
no such operator. -/
theorem tighter_extends {session after : Session} {precedence : Int32} {operand right : Expr}
    (climbs : ∀ minimum result, session.operations minimum operand = (.parsed result, after) →
      ∃ grown, grown.expr = result ∧ Extends session minimum (.leaf operand) grown after)
    (run : session.tighter precedence operand = (.parsed right, after)) :
    ∃ grown : OperatorTree, grown.first = operand ∧ grown.expr = right ∧
      grown.Respects session.operators ∧ Consumes session grown.chain after ∧
      (∀ entry ∈ grown.chain, precedence < session.operators.precedence entry.1) ∧
      ∀ symbol, after.current.kind = .symbol symbol →
        session.operators.precedence symbol ≤ precedence := by
  rw [tighter_eq] at run
  by_cases above : precedence < session.currentPrecedence
  · simp only [above, ↓reduceIte] at run
    have successor := toInt_succ_of_lt above
    obtain ⟨grown, same, extended⟩ := climbs _ _ run
    obtain ⟨chain, whole, consumed, tight⟩ := extended.added
    rw [OperatorTree.chain, List.nil_append] at whole
    refine ⟨grown, extended.first, same, extended.respects, whole ▸ consumed, ?_, ?_⟩
    · intro entry inside
      have bound := tight entry (whole ▸ inside)
      rw [Int32.le_iff_toInt_le] at bound
      rw [Int32.lt_iff_toInt_lt]
      omega
    · intro symbol seen
      have bound := extended.stops symbol seen
      rw [Int32.lt_iff_toInt_lt] at bound
      rw [Int32.le_iff_toInt_le]
      omega
  · simp only [above, ↓reduceIte, Prod.mk.injEq, Outcome.parsed.injEq] at run
    obtain ⟨rfl, rfl⟩ := run
    refine ⟨.leaf operand, rfl, rfl, trivial, .done session, by simp [OperatorTree.chain], ?_⟩
    intro symbol seen
    rw [currentPrecedence, seen] at above
    exact Int32.not_lt.1 above

/-- One turn of the loop: the operator, its operand and what binds tighter become a node over all
that came before. -/
theorem Extends.turn {session middle final after : Session} {minimum : Int32} {symbol : Char}
    {operand : Expr} {tree right grown : OperatorTree}
    (seen : session.current.kind = .symbol symbol)
    (binds : minimum ≤ session.operators.precedence symbol)
    (read : session.advance.operand = (.parsed operand, middle))
    (start : right.first = operand) (consumed : Consumes middle right.chain final)
    (tight : ∀ entry ∈ right.chain,
      session.operators.precedence symbol < session.operators.precedence entry.1)
    (level : final.operators = session.operators)
    (rest : Extends final minimum (.node symbol tree right) grown after) :
    Extends session minimum tree grown after := by
  obtain ⟨chain, whole, others, bound⟩ := rest.added
  rw [level] at bound
  refine ⟨rest.first, level ▸ rest.respects, ?_, level ▸ rest.stops⟩
  refine ⟨(symbol, operand) :: (right.chain ++ chain), ?_, ?_, ?_⟩
  · rw [whole, OperatorTree.chain, start]
    simp
  · exact .more seen read (consumed.append others)
  · intro entry inside
    rcases List.mem_cons.1 inside with rfl | inside
    · exact binds
    rcases List.mem_append.1 inside with inside | inside
    · exact Int32.le_of_lt (Int32.lt_of_le_of_lt binds (tight entry inside))
    · exact bound entry inside

/-- A new node keeps the bound: the token behind it binds no tighter than the operator of the node,
which bounds the left side, and the right side binds tighter still. -/
theorem Bounds.node {session final : Session} {symbol : Char} {tree right : OperatorTree}
    (bounds : session.Bounds tree) (seen : session.current.kind = .symbol symbol)
    (tight : ∀ entry ∈ right.chain,
      session.operators.precedence symbol < session.operators.precedence entry.1)
    (stops : ∀ other, final.current.kind = .symbol other →
      session.operators.precedence other ≤ session.operators.precedence symbol)
    (level : final.operators = session.operators) :
    final.Bounds (.node symbol tree right) := by
  intro other current entry inside
  have lowest := stops other current
  rw [level]
  rw [OperatorTree.chain, List.mem_append, List.mem_cons] at inside
  rcases inside with inside | rfl | inside
  · exact Int32.le_trans lowest (bounds symbol seen entry inside)
  · exact lowest
  · exact Int32.le_of_lt (Int32.lt_of_le_of_lt lowest (tight entry inside))

theorem operations_extends (session after : Session) (minimum : Int32) (tree : OperatorTree)
    (result : Expr) (respects : tree.Respects session.operators) (bounds : session.Bounds tree)
    (run : session.operations minimum tree.expr = (.parsed result, after)) :
    ∃ grown, grown.expr = result ∧ Extends session minimum tree grown after := by
  induction size : session.remaining using Nat.strongRecOn
    generalizing session after minimum tree result with
  | ind count ih =>
    by_cases stops : ∀ symbol, session.current.kind = .symbol symbol →
        session.operators.precedence symbol < minimum
    · rw [operations_of_stops stops] at run
      cases run
      exact ⟨tree, rfl, rfl, respects, ⟨[], by simp, .done session, by simp⟩, stops⟩
    · obtain ⟨symbol, stays⟩ := Classical.not_forall.1 stops
      obtain ⟨kind, low⟩ := Classical.not_imp.1 stays
      rw [operations_of_passes kind low] at run
      obtain ⟨operand, middle, read, run⟩ := Parser.exists_of_bind run
      obtain ⟨right, final, tightened, run⟩ := Parser.exists_of_bind run
      have once : Consumes session [(symbol, operand)] middle := .more kind read (.done middle)
      have moved := remaining_advance (more_of_kind kind (by simp))
      have less : middle.remaining < count := by
        obtain ⟨row, same⟩ := prepend_of_operand read
        have shorter : middle.remaining ≤ session.advance.remaining := by
          rw [same]
          simp [remaining]
        omega
      obtain ⟨grown, start, rfl, fine, consumed, tight, stops⟩ := tighter_extends
        (fun minimum result given => ih _ less middle final minimum (.leaf operand) result
          trivial (by simp [Bounds, OperatorTree.chain]) given rfl) tightened
      have level := once.operators_eq
      have further := consumed.operators_eq.trans level
      rw [level] at fine tight stops
      have node : (OperatorTree.node symbol tree grown).Respects session.operators :=
        ⟨bounds symbol kind, tight, respects, fine⟩
      have shorter := consumed.remaining_le
      obtain ⟨whole, same, extended⟩ := ih _ (by omega : final.remaining < count) final after
        minimum (.node symbol tree grown) result (further ▸ node)
        (bounds.node kind tight stops further) run rfl
      exact ⟨whole, same, .turn kind (Int32.not_lt.1 low) read start consumed tight further
        extended⟩

/-- The operands `left` and those read behind the operators form the one tree that respects the
precedences. All operators bind at least as tightly as `minimum`, and the token behind them is no
such operator. -/
structure Climbs (session : Session) (minimum : Int32) (left result : Expr) (after : Session)
    (tree : OperatorTree) : Prop where
  first : tree.first = left
  expr : tree.expr = result
  consumed : Consumes session tree.chain after
  binds : ∀ entry ∈ tree.chain, minimum ≤ session.operators.precedence entry.1
  respects : tree.Respects session.operators
  unique : ∀ other : OperatorTree, other.first = left → other.chain = tree.chain →
    other.Respects session.operators → other = tree
  stops : ∀ symbol, after.current.kind = .symbol symbol →
    session.operators.precedence symbol < minimum

theorem operations_climbs {session after : Session} {minimum : Int32} {left result : Expr}
    (run : session.operations minimum left = (.parsed result, after)) :
    ∃ tree, Climbs session minimum left result after tree := by
  obtain ⟨tree, same, extended⟩ := operations_extends session after minimum (.leaf left) result
    trivial (by simp [Bounds, OperatorTree.chain]) run
  obtain ⟨chain, whole, consumed, binds⟩ := extended.added
  rw [OperatorTree.chain, List.nil_append] at whole
  rw [← whole] at consumed binds
  refine ⟨tree, extended.first, same, consumed, binds, extended.respects, ?_, extended.stops⟩
  intro other start rest respects
  exact OperatorTree.eq_of_respects (start.trans extended.first.symm) rest respects
    extended.respects

/-- Reading operations, from any minimum on, and reading expressions, from zero on, build the tree
that respects the precedences. The next higher precedence is only ever asked for where there is
one, so it never overflows. -/
theorem climbing_builds_tree (session : Session) :
    (∀ minimum left result after,
      session.operations minimum left = (.parsed result, after) →
        ∃ tree, Climbs session minimum left result after tree) ∧
    (∀ result after, session.expression = (.parsed result, after) →
      ∃ first middle tree, session.operand = (.parsed first, middle) ∧
        Climbs middle 0 first result after tree) ∧
    (∀ precedence right, session.tighter precedence right =
      if precedence < session.currentPrecedence then session.operations (precedence + 1) right
      else (.parsed right, session)) ∧
    ∀ precedence : Int32, precedence < session.currentPrecedence →
      (precedence + 1).toInt = precedence.toInt + 1 := by
  refine ⟨fun _ _ _ _ run => operations_climbs run, ?_, ?_, fun _ => toInt_succ_of_lt⟩
  · intro result after run
    rw [expression_eq] at run
    obtain ⟨first, middle, read, run⟩ := Parser.exists_of_bind run
    obtain ⟨tree, climbs⟩ := operations_climbs run
    exact ⟨first, middle, tree, read, climbs⟩
  · exact fun precedence right => tighter_eq precedence right session

theorem climbing_builds_tree_of_mixed_chain :
    let place (kind : Token.Kind) : Token := ⟨kind, ⟨.nowhere, .nowhere⟩⟩
    let kinds : List Token.Kind := [.symbol '+', .identifier "b", .symbol '*', .identifier "c",
      .symbol '*', .identifier "d", .symbol '-', .identifier "e", .symbol ')']
    let session : Session := .start ⟨kinds.map place, .nowhere, none⟩ .builtin
    let result : Expr := .binary '+' (.reference "a") (.binary '-'
      (.binary '*' (.binary '*' (.reference "b") (.reference "c")) (.reference "d"))
      (.reference "e"))
    (session.operations 20 (.reference "a")).1 = .parsed result ∧
      ∃ tree, Climbs session 20 (.reference "a") result
        (session.operations 20 (.reference "a")).2 tree := by
  intro place kinds session result
  have success : (session.operations 20 (.reference "a")).1 = .parsed result := by rfl
  exact ⟨success, (climbing_builds_tree session).1 20 _ result _ (Prod.ext success rfl)⟩

end Session

end Kaleidoscope
