import Kaleidoscope.Proofs.Climbing
import Kaleidoscope.Proofs.Entries
import Kaleidoscope.Proofs.RoundTrip
import Kaleidoscope.Proofs.Vocabulary

set_option autoImplicit false

/- Operators of one precedence in a row lean to the left, and there may be any number of them. If
such a row counts as one level, the limit on open operands bounds the height of a tree. -/

namespace Kaleidoscope

namespace Expr

/-- Whether the expression, as the left operand of an operator, is merged into its level. -/
def joins (merges : Char → Char → Bool) (symbol : Char) : Expr → Bool
  | binary other _ _ => merges symbol other
  | _ => false

mutual

/-- The levels of an expression, where an operator stands on the level of the one at the root of
its left operand if the two merge. -/
def levels (merges : Char → Char → Bool) : Expr → Nat
  | number _ => 1
  | reference _ => 1
  | unary _ operand => operand.levels merges + 1
  | binary symbol left right =>
    max (left.levels merges + (!left.joins merges symbol).toNat) (right.levels merges + 1)
  | call _ arguments => levelsEach merges arguments + 1
  | conditional condition consequent alternative =>
    max (condition.levels merges) (max (consequent.levels merges) (alternative.levels merges)) + 1
  | loop _ start stop step body =>
    max (start.levels merges)
      (max (stop.levels merges) (max (levelsOptional merges step) (body.levels merges))) + 1
  | scope bindings body => max (levelsBindings merges bindings) (body.levels merges) + 1

def levelsEach (merges : Char → Char → Bool) : List Expr → Nat
  | [] => 0
  | expression :: rest => max (expression.levels merges) (levelsEach merges rest)

def levelsOptional (merges : Char → Char → Bool) : Option Expr → Nat
  | none => 0
  | some expression => expression.levels merges

def levelsBindings (merges : Char → Char → Bool) : List (String × Option Expr) → Nat
  | [] => 0
  | (_, initial) :: rest => max (levelsOptional merges initial) (levelsBindings merges rest)

end

/-- The height of the tree: nothing is merged. -/
def height (expression : Expr) : Nat :=
  expression.levels fun _ _ => false

theorem height_binary (symbol : Char) (left right : Expr) :
    (binary symbol left right).height = max left.height right.height + 1 := by
  have apart : left.joins (fun _ _ => false) symbol = false := by cases left <;> rfl
  simp only [height, levels, apart, Bool.not_false, Bool.toNat_true]
  omega

theorem levels_pos (merges : Char → Char → Bool) (expression : Expr) :
    0 < expression.levels merges := by
  cases expression <;> rw [levels] <;> omega

end Expr

namespace OperatorTable

/-- The precedences that occur in a table. -/
def precedences (operators : OperatorTable) : Finset Int32 :=
  (operators.entries.map Operator.precedence).toFinset

/-- Operators of the same precedence merge. -/
def merges (operators : OperatorTable) (symbol other : Char) : Bool :=
  operators.precedence symbol == operators.precedence other

theorem precedence_mem_precedences {operators : OperatorTable} {symbol : Char}
    (positive : 0 < operators.precedence symbol) :
    operators.precedence symbol ∈ operators.precedences := by
  unfold precedence at positive ⊢
  cases found : operators.get? symbol with
  | none => simp [found, noPrecedence] at positive
  | some given =>
    simp only [found] at positive ⊢
    split at positive
    next above =>
      have inside : ⟨symbol, given⟩ ∈ operators.entries := mem_entries_iff.2 found
      rw [if_pos above, precedences, List.mem_toFinset]
      exact List.mem_map_of_mem inside
    next => simp [noPrecedence] at positive

end OperatorTable

namespace OperatorTree

variable {operators : OperatorTable}

/-- The precedences of the operators of a tree. -/
def ranks (operators : OperatorTable) (tree : OperatorTree) : Finset Int32 :=
  (tree.chain.map fun entry => operators.precedence entry.1).toFinset

theorem mem_ranks {tree : OperatorTree} {precedence : Int32} :
    precedence ∈ tree.ranks operators ↔
      ∃ entry ∈ tree.chain, operators.precedence entry.1 = precedence := by
  simp [ranks]

theorem ranks_subset {side tree : OperatorTree} (part : side.chain ⊆ tree.chain) :
    side.ranks operators ⊆ tree.ranks operators := by
  intro precedence inside
  rw [mem_ranks] at inside ⊢
  obtain ⟨entry, inside, same⟩ := inside
  exact ⟨entry, part inside, same⟩

theorem left_chain_subset (symbol : Char) (left right : OperatorTree) :
    left.chain ⊆ (node symbol left right).chain := by
  intro entry inside
  simp [chain, inside]

theorem right_chain_subset (symbol : Char) (left right : OperatorTree) :
    right.chain ⊆ (node symbol left right).chain := by
  intro entry inside
  simp [chain, inside]

/-- No operator of a tree binds looser than the one at its root. -/
theorem Respects.root_le {symbol : Char} {left right : OperatorTree}
    (respects : (node symbol left right).Respects operators) :
    ∀ entry ∈ (node symbol left right).chain,
      operators.precedence symbol ≤ operators.precedence entry.1 := by
  intro entry inside
  rw [chain, List.mem_append, List.mem_cons] at inside
  rcases inside with inside | rfl | inside
  · exact respects.1 entry inside
  · exact Int32.le_refl _
  · exact Int32.le_of_lt (respects.2.1 entry inside)

/-- A side without operators of the root's own precedence has one precedence less. -/
theorem card_ranks_lt {symbol : Char} {left right side : OperatorTree}
    (part : side.chain ⊆ (node symbol left right).chain)
    (above : ∀ entry ∈ side.chain, operators.precedence symbol < operators.precedence entry.1) :
    (side.ranks operators).card < ((node symbol left right).ranks operators).card := by
  apply Finset.card_lt_card
  rw [Finset.ssubset_iff_of_subset (ranks_subset part)]
  refine ⟨operators.precedence symbol, ?_, ?_⟩
  · rw [mem_ranks]
    exact ⟨(symbol, right.first), by simp [chain], rfl⟩
  · rw [mem_ranks]
    rintro ⟨entry, inside, same⟩
    exact Int32.lt_irrefl (same ▸ above entry inside)

/-- The left side of a node adds a level only if it has one precedence less. -/
theorem levels_left_le {symbol : Char} {left right : OperatorTree} {bound : Nat}
    (respects : (node symbol left right).Respects operators)
    (low : left.expr.levels operators.merges ≤ bound + (left.ranks operators).card) :
    left.expr.levels operators.merges + (!left.expr.joins operators.merges symbol).toNat ≤
      bound + ((node symbol left right).ranks operators).card := by
  have part := left_chain_subset symbol left right
  have wide : (left.ranks operators).card ≤ ((node symbol left right).ranks operators).card :=
    Finset.card_le_card (ranks_subset part)
  cases joined : left.expr.joins operators.merges symbol with
  | true =>
    rw [Bool.not_true, Bool.toNat_false]
    omega
  | false =>
    have above : ∀ entry ∈ left.chain,
        operators.precedence symbol < operators.precedence entry.1 := by
      cases left with
      | leaf operand => simp [chain]
      | node other first second =>
        have differs : operators.precedence symbol ≠ operators.precedence other := by
          simpa [expr, Expr.joins, OperatorTable.merges] using joined
        have looser := respects.1 (other, second.first) (by simp [chain])
        intro entry inside
        have lowest := respects.2.2.1.root_le entry inside
        exact Int32.lt_of_lt_of_le (Int32.lt_of_le_of_ne looser differs) lowest
    have narrow := card_ranks_lt part above
    rw [Bool.not_false, Bool.toNat_true]
    omega

/-- Over operands of some number of levels, a tree that respects the precedences has at most one
level more for every precedence in it. -/
theorem levels_expr_le {tree : OperatorTree} {bound : Nat}
    (respects : tree.Respects operators)
    (first : tree.first.levels operators.merges ≤ bound)
    (others : ∀ entry ∈ tree.chain, entry.2.levels operators.merges ≤ bound) :
    tree.expr.levels operators.merges ≤ bound + (tree.ranks operators).card := by
  induction tree with
  | leaf operand => exact Nat.le_trans first (Nat.le_add_right _ _)
  | node symbol left right leftIh rightIh =>
    simp only [chain, List.forall_mem_append, List.forall_mem_cons] at others
    obtain ⟨before, next, behind⟩ := others
    have low := levels_left_le respects (leftIh respects.2.2.1 first before)
    have high := rightIh respects.2.2.2 next behind
    have narrow := card_ranks_lt (right_chain_subset symbol left right) respects.2.1
    rw [expr, Expr.levels]
    exact Nat.max_le.2 ⟨low, by omega⟩

end OperatorTree

namespace Session

open Kaleidoscope.Parser hiding pure bind

variable {α β : Type} {step : Parser Expr} {merges : Char → Char → Bool} {bound : Nat}
  {session later after : Session} {e : Expr}

/-- What the step reads here, or behind any row of tokens from here on, has at most that many
levels. -/
def Caps (step : Parser Expr) (merges : Char → Char → Bool) (bound : Nat)
    (session : Session) : Prop :=
  ∀ row later e after, session = prepend later row → step later = (.parsed e, after) →
    e.levels merges ≤ bound

theorem Caps.here (caps : session.Caps step merges bound)
    (run : step session = (.parsed e, after)) : e.levels merges ≤ bound :=
  caps [] session e after rfl run

theorem Caps.mono {more : Nat} (caps : session.Caps step merges bound) (less : bound ≤ more) :
    session.Caps step merges more := by
  intro row later e after same run
  exact Nat.le_trans (caps row later e after same run) less

theorem Caps.behind {row : List Token} (caps : session.Caps step merges bound)
    (same : session = later.prepend row) : later.Caps step merges bound := by
  intro more last e after final run
  exact caps (row ++ more) last e after (by rw [same, final, prepend_append]) run

theorem Caps.advance (caps : session.Caps step merges bound) :
    session.advance.Caps step merges bound := by
  obtain ⟨row, same⟩ := session.exists_prepend_advance
  exact caps.behind same

theorem Caps.bind {first : Parser α} {next : α → Parser β} {value : β}
    (caps : session.Caps step merges bound) (keeps : first.Keeps session)
    (run : (first >>= next) session = (.parsed value, after)) :
    ∃ given middle, first session = (.parsed given, middle) ∧
      middle.Caps step merges bound ∧ next given middle = (.parsed value, after) := by
  obtain ⟨given, middle, start, rest⟩ := exists_of_bind run
  obtain ⟨row, same, -⟩ := keeps
  rw [start] at same
  exact ⟨given, middle, start, caps.behind same, rest⟩

theorem Caps.bind_expression {next : Expr → Parser β} {value : β}
    (caps : session.Caps expression merges bound)
    (run : (expression >>= next) session = (.parsed value, after)) :
    ∃ e middle, e.levels merges ≤ bound ∧ middle.Caps expression merges bound ∧
      next e middle = (.parsed value, after) := by
  obtain ⟨e, middle, start, caps', rest⟩ := caps.bind (expression_yields session).keeps run
  exact ⟨e, middle, caps.here start, caps', rest⟩

theorem not_parsed_of_unexpected {value : α} (expectation : String) :
    unexpected expectation session ≠ (.parsed value, after) := by
  unfold unexpected
  split <;> simp

theorem not_parsed_of_noExpression {value : α} (session : Session) :
    noExpression session ≠ (.parsed value, after) := by
  unfold noExpression
  split <;> simp

theorem Caps.bind_expect {kind : Token.Kind} {expectation : String} {next : Token → Parser β}
    {value : β} (caps : session.Caps step merges bound)
    (run : (expect kind expectation >>= next) session = (.parsed value, after)) :
    ∃ token middle, middle.Caps step merges bound ∧ next token middle = (.parsed value, after) := by
  obtain ⟨token, middle, -, caps', rest⟩ := caps.bind (keeps_expect kind expectation session) run
  exact ⟨token, middle, caps', rest⟩

theorem levels_of_parenthesized (caps : session.Caps expression merges bound)
    (run : read .parenthesized session = (.parsed e, after)) : e.levels merges ≤ bound := by
  rw [read_eq] at run
  obtain ⟨inner, second, low, caps, run⟩ := caps.bind_expression run
  obtain ⟨_, third, -, run⟩ := caps.bind_expect run
  cases run
  exact low

theorem levels_of_conditional (caps : session.Caps expression merges bound)
    (run : read .conditional session = (.parsed e, after)) : e.levels merges ≤ bound + 1 := by
  rw [read_eq] at run
  obtain ⟨condition, _, first, caps, run⟩ := caps.bind_expression run
  obtain ⟨_, _, caps, run⟩ := caps.bind_expect run
  obtain ⟨consequent, _, second, caps, run⟩ := caps.bind_expression run
  obtain ⟨_, _, caps, run⟩ := caps.bind_expect run
  obtain ⟨alternative, _, third, caps, run⟩ := caps.bind_expression run
  cases run
  rw [Expr.levels]
  omega

theorem levels_of_optional {mark : Char} {value : Option Expr}
    (caps : session.Caps expression merges bound)
    (run : Grammar.optional read mark session = (.parsed value, after)) :
    Expr.levelsOptional merges value ≤ bound ∧ after.Caps expression merges bound := by
  rw [Grammar.optional, behindMark_apply] at run
  split at run
  · obtain ⟨e, middle, low, caps, run⟩ := caps.advance.bind_expression run
    cases run
    exact ⟨low, caps⟩
  · cases run
    exact ⟨Nat.zero_le _, caps⟩

theorem Caps.bind_optional {mark : Char} {next : Option Expr → Parser β} {value : β}
    (caps : session.Caps expression merges bound)
    (run : (Grammar.optional read mark >>= next) session = (.parsed value, after)) :
    ∃ given middle, Expr.levelsOptional merges given ≤ bound ∧
      middle.Caps expression merges bound ∧ next given middle = (.parsed value, after) := by
  obtain ⟨given, middle, start, rest⟩ := exists_of_bind run
  obtain ⟨low, caps⟩ := levels_of_optional caps start
  exact ⟨given, middle, low, caps, rest⟩

theorem Caps.bind_expectName {expectation : String} {next : String → Parser β} {value : β}
    (caps : session.Caps step merges bound)
    (run : (expectName expectation >>= next) session = (.parsed value, after)) :
    ∃ name middle, middle.Caps step merges bound ∧ next name middle = (.parsed value, after) := by
  have keeps := (yields_expectName expectation session).keeps
  obtain ⟨name, middle, -, caps', rest⟩ := caps.bind keeps run
  exact ⟨name, middle, caps', rest⟩

theorem levels_of_loop (caps : session.Caps expression merges bound)
    (run : read .loop session = (.parsed e, after)) : e.levels merges ≤ bound + 1 := by
  rw [read_eq] at run
  obtain ⟨counter, _, caps, run⟩ := caps.bind_expectName run
  obtain ⟨_, _, caps, run⟩ := caps.bind_expect run
  obtain ⟨start, _, first, caps, run⟩ := caps.bind_expression run
  obtain ⟨_, _, caps, run⟩ := caps.bind_expect run
  obtain ⟨stop, _, second, caps, run⟩ := caps.bind_expression run
  obtain ⟨step, _, third, caps, run⟩ := caps.bind_optional run
  obtain ⟨_, _, caps, run⟩ := caps.bind_expect run
  obtain ⟨body, _, fourth, caps, run⟩ := caps.bind_expression run
  cases run
  rw [Expr.levels]
  omega

/-- Arguments are read one behind the other, so their number does not matter. -/
theorem levels_of_arguments {given : List Expr} (caps : session.Caps expression merges bound)
    (run : read .arguments session = (.parsed given, after)) :
    Expr.levelsEach merges given ≤ bound := by
  induction given generalizing session after with
  | nil => exact Nat.zero_le _
  | cons first others hypothesis =>
    rw [read_eq] at run
    obtain ⟨e, middle, low, caps, run⟩ := caps.bind_expression run
    simp only [behindMark_apply] at run
    split at run
    · cases run
      exact Nat.max_le.2 ⟨low, Nat.zero_le _⟩
    split at run
    · obtain ⟨rest, last, start, run⟩ := exists_of_bind run
      cases run
      exact Nat.max_le.2 ⟨low, hypothesis caps.advance start⟩
    · exact absurd run (not_parsed_of_unexpected _)

theorem levels_of_bindings {more : Bool} {given : List (String × Option Expr)}
    (caps : session.Caps expression merges bound)
    (run : read (.bindings more) session = (.parsed given, after)) :
    Expr.levelsBindings merges given ≤ bound ∧ after.Caps expression merges bound := by
  induction given generalizing session after more with
  | nil =>
    -- There is no list of bindings without a binding in it.
    rw [read_eq] at run
    obtain ⟨name, _, caps, run⟩ := caps.bind_expectName run
    obtain ⟨initial, middle, -, -, run⟩ := caps.bind_optional run
    simp only [behindMark_apply] at run
    split at run
    · obtain ⟨rest, last, -, run⟩ := exists_of_bind run
      cases run
    · cases run
  | cons binding others hypothesis =>
    rw [read_eq] at run
    obtain ⟨name, _, caps, run⟩ := caps.bind_expectName run
    obtain ⟨initial, middle, low, caps, run⟩ := caps.bind_optional run
    simp only [behindMark_apply] at run
    split at run
    · obtain ⟨rest, last, start, run⟩ := exists_of_bind run
      cases run
      obtain ⟨further, caps⟩ := hypothesis caps.advance start
      exact ⟨Nat.max_le.2 ⟨low, further⟩, caps⟩
    · cases run
      exact ⟨Nat.max_le.2 ⟨low, Nat.zero_le _⟩, caps⟩

theorem levels_of_scope (caps : session.Caps expression merges bound)
    (run : read .scope session = (.parsed e, after)) : e.levels merges ≤ bound + 1 := by
  rw [read_eq] at run
  obtain ⟨given, middle, start, run⟩ := exists_of_bind run
  obtain ⟨first, caps⟩ := levels_of_bindings caps start
  obtain ⟨_, _, caps, run⟩ := caps.bind_expect run
  obtain ⟨body, _, second, caps, run⟩ := caps.bind_expression run
  cases run
  rw [Expr.levels]
  omega

theorem levels_of_named {name : String} (caps : session.Caps expression merges bound)
    (run : read (.named name) session = (.parsed e, after)) : e.levels merges ≤ bound + 1 := by
  rw [read_eq] at run
  simp only [Grammar.body, behindMark_apply] at run
  split at run
  · split at run
    · cases run
      exact Nat.succ_le_succ (Nat.zero_le _)
    · obtain ⟨given, middle, start, run⟩ := exists_of_bind run
      cases run
      exact Nat.succ_le_succ (levels_of_arguments caps.advance start)
  · cases run
    exact Nat.succ_le_succ (Nat.zero_le _)

theorem levels_of_primary (caps : session.advance.Caps expression merges bound)
    (run : session.primary = (.parsed e, after)) : e.levels merges ≤ bound + 1 := by
  cases given : (Grammar.begun read session.current.kind : Option (Parser Expr)) with
  | none =>
    rw [primary_of_none given] at run
    exact absurd run (not_parsed_of_noExpression _)
  | some inner =>
    rw [primary_of_some given] at run
    unfold Grammar.begun at given
    split at given <;> try cases given
    · exact levels_of_named caps run
    · cases run
      exact Nat.succ_le_succ (Nat.zero_le _)
    · exact levels_of_conditional caps run
    · exact levels_of_loop caps run
    · exact levels_of_scope caps run
    · split at given <;> cases given
      exact Nat.le_succ_of_le (levels_of_parenthesized caps run)

theorem levels_of_prefixed (operands : session.advance.Caps operand merges bound)
    (caps : session.advance.Caps expression merges bound)
    (run : read .prefixed session = (.parsed e, after)) : e.levels merges ≤ bound + 1 := by
  by_cases plain : ∀ symbol, session.current.kind = .symbol symbol → symbol = '(' ∨ symbol = ','
  · rw [prefixed_of_primary plain] at run
    exact levels_of_primary caps run
  · push Not at plain
    obtain ⟨symbol, seen, closed, single⟩ := plain
    rw [prefixed_of_sign seen closed single] at run
    obtain ⟨inner, middle, start, run⟩ := exists_of_bind run
    cases run
    exact Nat.succ_le_succ (operands.here start)

/-- The operands of a chain are read one behind the other. -/
theorem Consumes.levels_le {chain : List (Char × Expr)} (consumed : Consumes session chain after)
    (caps : session.Caps operand merges bound) :
    ∀ entry ∈ chain, entry.2.levels merges ≤ bound := by
  induction consumed with
  | done session => simp
  | @more session middle after symbol given rest seen read others hypothesis =>
    obtain ⟨row, same⟩ := prepend_of_operand read
    rw [List.forall_mem_cons]
    exact ⟨caps.advance.here read, hypothesis (caps.advance.behind same)⟩

/-- An expression adds to the levels of its operands at most one for every precedence. -/
theorem levels_of_expression (caps : session.Caps operand session.operators.merges bound)
    (run : session.expression = (.parsed e, after)) :
    0 < bound ∧
      e.levels session.operators.merges ≤ bound + session.operators.precedences.card := by
  rw [expression_eq] at run
  obtain ⟨first, middle, start, run⟩ := exists_of_bind run
  obtain ⟨row, same⟩ := prepend_of_operand start
  obtain ⟨tree, climbs⟩ := operations_climbs run
  have level : middle.operators = session.operators := operators_of_prepend same
  have lowest := caps.here start
  have others := climbs.consumed.levels_le (caps.behind same)
  have known : tree.ranks session.operators ⊆ session.operators.precedences := by
    intro precedence inside
    obtain ⟨entry, member, rfl⟩ := OperatorTree.mem_ranks.1 inside
    have binds := climbs.binds entry member
    rw [level] at binds
    exact OperatorTable.precedence_mem_precedences
      (OperatorTable.precedence_pos (Int32.le_refl 0) (Int32.not_lt.2 binds))
  have whole := OperatorTree.levels_expr_le (level ▸ climbs.respects)
    (climbs.first ▸ lowest) others
  rw [climbs.expr] at whole
  have few := Finset.card_le_card known
  exact ⟨Nat.lt_of_lt_of_le (first.levels_pos _) lowest, by omega⟩

theorem depth_lt_of_openOperand {limit : Nat} {deeper : Session}
    (limited : session.limit = some limit) (opened : session.openOperand = .ok deeper) :
    session.depth < limit := by
  rw [openOperand, limited] at opened
  by_contra full
  simp [Nat.le_of_not_lt full] at opened

theorem more_of_prefixed (run : read .prefixed session = (.parsed e, after)) :
    session.current.kind ≠ .endOfInput := by
  intro ended
  rw [prefixed_of_primary (by simp [ended]), primary_of_none (by rw [ended]; rfl)] at run
  exact not_parsed_of_noExpression session run

/-- The levels of expressions follow from those of operands. -/
theorem caps_expression {room : Nat} (operators : OperatorTable)
    (level : session.operators = operators)
    (caps : session.Caps operand operators.merges (room - operators.precedences.card)) :
    session.Caps expression operators.merges room := by
  intro row later e after same run
  have behind := caps.behind same
  obtain rfl : later.operators = operators := (operators_of_prepend same).trans level
  obtain ⟨positive, low⟩ := levels_of_expression behind run
  omega

/-- What may be open inside an operand sets its levels. The induction is on the tokens that are
left, of which there are fewer inside. -/
theorem levels_of_operand {limit : Nat} (limited : session.limit = some limit)
    (run : session.operand = (.parsed e, after)) :
    e.levels session.operators.merges ≤
      (limit - session.depth) * (session.operators.precedences.card + 1) -
        session.operators.precedences.card := by
  induction size : session.remaining using Nat.strongRecOn generalizing session e after with
  | ind count hypothesis =>
    rw [operand_eq] at run
    unfold nested at run
    cases opened : session.openOperand with
    | error failure =>
      simp only [opened] at run
      cases run
    | ok inside =>
      simp only [opened] at run
      have room := depth_lt_of_openOperand limited opened
      obtain rfl : inside = session.deeper := eq_of_openOperand opened
      have inner : read .prefixed session.deeper = (.parsed e, (read .prefixed session.deeper).2) :=
        Prod.ext (Prod.mk.inj run).1 rfl
      have more := more_of_prefixed inner
      have moved : session.deeper.advance.remaining + 1 = session.remaining :=
        remaining_advance more
      have operands : session.deeper.advance.Caps operand session.operators.merges
          ((limit - (session.depth + 1)) * (session.operators.precedences.card + 1) -
            session.operators.precedences.card) := by
        intro row later e after same run
        have level : later.operators = session.operators := (congrArg Session.operators same).symm
        have depth : later.depth = session.depth + 1 := (congrArg Session.depth same).symm
        have bounded : later.limit = some limit := (congrArg Session.limit same).symm.trans limited
        have whole := congrArg Session.remaining same
        have shorter : later.remaining ≤ (later.prepend row).remaining := by simp [remaining]
        have low := hypothesis later.remaining (by omega) bounded run rfl
        rwa [level, depth] at low
      have level : session.deeper.advance.operators = session.operators := rfl
      have expressions := caps_expression session.operators level operands
      have whole := levels_of_prefixed (operands.mono (Nat.sub_le _ _)) expressions inner
      have one : limit - session.depth = limit - (session.depth + 1) + 1 := by omega
      rw [one, Nat.add_one_mul]
      omega

/-- The levels that the limit on open operands leaves to the expressions under a table with the
given precedences. -/
def levelLimit (precedences : Finset Int32) : Nat :=
  nestingLimit * (precedences.card + 1)

theorem caps_of_limit (limited : session.limit = some nestingLimit) :
    session.Caps expression session.operators.merges
      (levelLimit session.operators.precedences) := by
  apply caps_expression session.operators rfl
  intro row later e after same run
  have level : later.operators = session.operators := (congrArg Session.operators same).symm
  have bounded : later.limit = some nestingLimit := (congrArg Session.limit same).symm.trans limited
  have low := levels_of_operand bounded run
  rw [level] at low
  have room : (nestingLimit - later.depth) * (session.operators.precedences.card + 1) ≤
      levelLimit session.operators.precedences :=
    Nat.mul_le_mul_right _ (Nat.sub_le _ _)
  omega

end Session

/-- The expression in a form. -/
def Form.body? : Form → Option Expr
  | definition given => some given.body
  | declaration _ => none
  | expression wrapped => some wrapped.body

namespace Session

variable {merges : Char → Char → Bool} {bound : Nat} {session after : Session}

theorem levels_of_definition {given : Definition} (caps : session.Caps expression merges bound)
    (run : session.definition = (.parsed given, after)) : given.body.levels merges ≤ bound := by
  obtain ⟨_, second, -, caps, run⟩ := caps.bind (Parser.keeps_take session) run
  obtain ⟨prototype, third, -, caps, run⟩ := caps.bind (prototype_yields second).keeps run
  obtain ⟨body, _, low, -, run⟩ := caps.bind_expression run
  cases run
  exact low

theorem levels_of_wrappedExpression {wrapped : Definition}
    (caps : session.Caps expression merges bound)
    (run : session.wrappedExpression = (.parsed wrapped, after)) :
    wrapped.body.levels merges ≤ bound := by
  obtain ⟨body, _, low, -, run⟩ := caps.bind_expression run
  cases run
  exact low

theorem levels_of_form {form : Form} (caps : session.Caps expression merges bound)
    (run : session.form = (.parsed form, after)) :
    ∀ body ∈ form.body?, body.levels merges ≤ bound := by
  unfold Session.form at run
  split at run
  · obtain ⟨given, middle, read, run⟩ := Parser.exists_of_bind run
    cases run
    rintro body ⟨rfl⟩
    exact levels_of_definition caps read
  · obtain ⟨prototype, middle, -, run⟩ := Parser.exists_of_bind run
    cases run
    rintro body ⟨⟩
  · obtain ⟨wrapped, middle, read, run⟩ := Parser.exists_of_bind run
    cases run
    rintro body ⟨rfl⟩
    exact levels_of_wrappedExpression caps read

/-- Whatever the source is and however long, no expression that is read, and none that is handed to
a backend, has more levels than the limit on open operands and the precedences of the table under
which it was read allow, if operators of one precedence that lean to the left count as one
level. -/
theorem levels_are_bounded :
    (∀ (session after : Session) (e : Expr), session.limit = some nestingLimit →
      session.expression = (.parsed e, after) →
      e.levels session.operators.merges ≤ levelLimit session.operators.precedences) ∧
    ∀ (β : Type) [Backend β] (input : Input) (source : Option String) (operators : OperatorTable)
      (backend : β) (prompt : Option String) (top : Toplevel β) (form : Form) (body : Expr),
      Toplevel.Reachable
        (.start (.start (.ofLexer (.ofInput input source)) operators) backend prompt) top →
      top.step.1.form? = some form → form.body? = some body →
      body.levels top.session.operators.merges ≤
        levelLimit top.session.operators.precedences := by
  constructor
  · intro session after e limited run
    exact (caps_of_limit limited).here run
  · intro β _ input source operators backend prompt top form body reached handed inside
    have fresh := Toplevel.fresh_of_reachable ⟨rfl, rfl⟩ reached
    obtain ⟨after, run⟩ := Toplevel.form_of_step handed
    exact levels_of_form (caps_of_limit fresh.2) run body inside

/-- Three additions are three levels of the tree and count as one. -/
theorem levels_are_bounded_of_additions :
    let input : Input := .ofText "x+x+x+x" none
    let session : Session := .start (.ofLexer (.ofInput input none)) .builtin
    let sum (e : Expr) : Expr := .binary '+' e (.reference "x")
    let e := sum (sum (sum (.reference "x")))
    let top : Toplevel Recorder := .start session (.fresh false []) none
    session.expression.1 = .parsed e ∧ top.step.1.form? = some (.expression (.ofExpression e)) ∧
      e.height = 4 ∧ e.levels OperatorTable.builtin.merges = 2 ∧
      levelLimit OperatorTable.builtin.precedences = 1536 ∧
      e.levels session.operators.merges ≤ levelLimit session.operators.precedences ∧
      e.levels top.session.operators.merges ≤ levelLimit top.session.operators.precedences := by
  intro input session sum e top
  let token (column : UInt32) (kind : Token.Kind) : Token :=
    ⟨kind, ⟨⟨"shell", 1, column⟩, ⟨"shell", 1, column + 1⟩⟩⟩
  have listed : TokenStream.ofLexer (.ofInput input none) =
      ⟨[token 1 (.identifier "x"), token 2 (.symbol '+'), token 3 (.identifier "x"),
        token 4 (.symbol '+'), token 5 (.identifier "x"), token 6 (.symbol '+'),
        token 7 (.identifier "x")], ⟨"shell", 1, 8⟩, none⟩ := by decide +kernel
  have read : session.expression.1 = .parsed e := by
    simp only [session, listed]
    rfl
  have handed : top.step.1.form? = some (.expression (.ofExpression e)) := by
    simp only [top, session, listed]
    rfl
  obtain ⟨reads, hands⟩ := levels_are_bounded
  refine ⟨read, handed, by decide, by decide, by decide, ?_, ?_⟩
  · exact reads session _ e rfl (Prod.ext read rfl)
  · exact hands Recorder input none .builtin _ none top _ e .start handed rfl

end Session

/-- The expression, extended to the right by that many additions. -/
def Expr.plus (left : Expr) : (count : Nat) → Expr
  | 0 => left
  | count + 1 => (Expr.binary '+' left (.reference "x")).plus count

theorem Expr.height_plus (left : Expr) (count : Nat) :
    (left.plus count).height = left.height + count := by
  induction count generalizing left with
  | zero => rfl
  | succ count hypothesis =>
    have positive : 0 < left.height := left.levels_pos _
    have single : (Expr.reference "x").height = 1 := rfl
    rw [plus, hypothesis, height_binary, single]
    omega

/-- That many additions, in tokens. -/
def plusKinds : (count : Nat) → List Token.Kind
  | 0 => []
  | count + 1 => .symbol '+' :: .identifier "x" :: plusKinds count

namespace Session

open Kaleidoscope.Parser hiding pure bind

variable {after : Session}

theorem current_of_plusKinds {count : Nat} {tokens : List Token}
    (kinds : tokens.map Token.kind = plusKinds count) (ended : after.current.kind = .endOfInput) :
    (after.prepend tokens).current.kind = .symbol '+' ∨
      (after.prepend tokens).current.kind = .endOfInput := by
  cases count with
  | zero =>
    rw [List.map_eq_nil_iff.1 kinds, prepend_nil]
    exact .inr ended
  | succ count =>
    obtain ⟨token, tokens, rfl, seen, -⟩ := List.map_eq_cons_iff.1 kinds
    exact .inl seen

theorem operand_of_plusKinds {count : Nat} {name : Token} {rest : List Token}
    (ended : after.current.kind = .endOfInput) (room : after.Admits 1)
    (named : name.kind = .identifier "x") (kinds : rest.map Token.kind = plusKinds count) :
    operand (after.prepend (name :: rest)) = (.parsed (.reference "x"), after.prepend rest) := by
  have ends : (after.prepend rest).sees '(' = false := by
    rcases current_of_plusKinds kinds ended with plus | final
    · exact sees_eq_false (by simp [plus])
    · exact sees_eq_false (by simp [final])
  exact (reads_reference "x" ends [name] (by simp [named])).1 room

/-- Additions are read with one operand open at a time, however many there are. -/
theorem operations_of_plusKinds (builtin : after.operators = .builtin)
    (ended : after.current.kind = .endOfInput) (room : after.Admits 1) (count : Nat)
    (left : Expr) (tokens : List Token) (kinds : tokens.map Token.kind = plusKinds count) :
    operations 0 left (after.prepend tokens) = (.parsed (left.plus count), after) := by
  induction count generalizing left tokens with
  | zero =>
    rw [List.map_eq_nil_iff.1 kinds, prepend_nil]
    exact operations_of_closes left (closes_of_kind ended (.of_not_symbol (by simp)))
  | succ count hypothesis =>
    obtain ⟨token, others, rfl, seen, kinds⟩ := List.map_eq_cons_iff.1 kinds
    obtain ⟨name, rest, rfl, named, kinds⟩ := List.map_eq_cons_iff.1 kinds
    have next := current_of_plusKinds kinds ended
    have read := operand_of_plusKinds ended room named kinds
    have level : (after.prepend rest).operators = .builtin := builtin
    have stays : tighter (OperatorTable.builtin.precedence '+') (.reference "x")
        (after.prepend rest) = (.parsed (.reference "x"), after.prepend rest) := by
      have low : ¬ OperatorTable.builtin.precedence '+' <
          (after.prepend rest).currentPrecedence := by
        rw [currentPrecedence, level]
        rcases next with plus | final
        · rw [plus]
          exact Int32.lt_irrefl
        · rw [final]
          decide
      simp [tighter_eq, low]
    have shown : (after.prepend (token :: name :: rest)).current.kind = .symbol '+' := seen
    have passes : ¬ (after.prepend (token :: name :: rest)).operators.precedence '+' < 0 := by
      rw [prepend_operators, builtin]
      decide
    rw [operations_of_passes shown passes, advance_prepend, prepend_operators, builtin]
    change Parser.bind _ _ _ = _
    rw [Parser.bind, read]
    change Parser.bind _ _ _ = _
    rw [Parser.bind, stays]
    exact hypothesis _ rest kinds

theorem exists_words_of_plusKinds (count : Nat) :
    Token.Kind.AllLexable (.identifier "x" :: plusKinds count) ∧
      ∃ words, List.Forall₂ Token.Kind.Spells words (.identifier "x" :: plusKinds count) := by
  have name : Text.isName "x" = true := by decide
  have sign : Text.isSymbol '+' = true := by decide
  induction count with
  | zero =>
    exact ⟨(Token.Kind.allLexable_cons _ _).2 ⟨name, Token.Kind.allLexable_nil⟩, [['x']],
      .cons rfl .nil⟩
  | succ count hypothesis =>
    obtain ⟨lexable, words, spelled⟩ := hypothesis
    refine ⟨?_, ['x'] :: ['+'] :: words, .cons rfl (.cons rfl spelled)⟩
    rw [plusKinds, Token.Kind.allLexable_cons, Token.Kind.allLexable_cons]
    exact ⟨name, sign, lexable⟩

/-- The height itself has no bound: a sum of any number of names is read with one operand open at a
time, and every addition is a level of its tree. -/
theorem height_is_unbounded :
    ¬ ∀ operators : OperatorTable, ∃ bound, ∀ (input : Input) (source : Option String) (e : Expr)
      (after : Session), expression (.start (.ofLexer (.ofInput input source)) operators) =
        (.parsed e, after) → e.height ≤ bound := by
  intro bounded
  obtain ⟨bound, low⟩ := bounded .builtin
  obtain ⟨lexable, words, spelled⟩ := exists_words_of_plusKinds bound
  have kinds := TokenStream.kinds_ofLexer_spaced spelled (by simp) lexable none
  have low := low (.ofText (Text.spaced words) none) none
  generalize TokenStream.ofLexer (.ofInput (.ofText (Text.spaced words) none) none) = stream
    at kinds low
  let after : Session := .start ⟨[], stream.ending, stream.failure⟩ .builtin
  have begins : Session.start stream .builtin = after.prepend stream.ahead := by
    simp [after, start, prepend]
  obtain ⟨name, rest, ahead, named, kinds⟩ := List.map_eq_cons_iff.1 kinds
  have room : after.Admits 1 := (admits_start _ _ 1).2 (by decide)
  have read : expression (after.prepend (name :: rest)) =
      (.parsed ((Expr.reference "x").plus bound), after) := by
    rw [expression_eq]
    change Parser.bind _ _ _ = _
    rw [Parser.bind, operand_of_plusKinds rfl room named kinds]
    exact operations_of_plusKinds rfl rfl room bound (.reference "x") rest kinds
  rw [begins, ahead] at low
  have height := low _ after read
  have single : (Expr.reference "x").height = 1 := rfl
  rw [Expr.height_plus, single] at height
  omega

end Session

end Kaleidoscope
