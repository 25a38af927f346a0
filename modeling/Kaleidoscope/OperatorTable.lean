import Kaleidoscope.Prototype
import Kaleidoscope.Token.Basic

set_option autoImplicit false

/- A table lists each of its symbols once, loosest first, and symbols that bind alike in the order
of their code points. Two tables that hold the same entries are therefore equal. -/

namespace Kaleidoscope

/-- A binary operator: the higher the precedence, the tighter it binds. -/
structure Operator where
  symbol : Char
  precedence : Int32
  deriving DecidableEq

/-- The order of a table's entries. -/
def Operator.before (left right : Operator) : Prop :=
  left.precedence < right.precedence ∨
    (left.precedence = right.precedence ∧ left.symbol < right.symbol)

namespace Operator

instance (left right : Operator) : Decidable (left.before right) :=
  inferInstanceAs (Decidable (_ ∨ _))

theorem before_trans {a b c : Operator} (first : a.before b) (second : b.before c) :
    a.before c := by
  rcases first with first | ⟨sameFirst, first⟩ <;> rcases second with second | ⟨sameSecond, second⟩
  · exact .inl (Int32.lt_trans first second)
  · exact .inl (sameSecond ▸ first)
  · exact .inl (sameFirst ▸ second)
  · exact .inr ⟨sameFirst.trans sameSecond, Char.lt_trans first second⟩

/-- Entries of different symbols stand one before the other. -/
theorem before_of_not_before {a b : Operator} (different : a.symbol ≠ b.symbol)
    (later : ¬ a.before b) : b.before a := by
  simp only [before, not_or, not_and] at later
  rcases Int.lt_trichotomy a.precedence.toInt b.precedence.toInt with below | same | above
  · exact absurd (Int32.lt_iff_toInt_lt.2 below) later.1
  · have same := Int32.toInt_inj.1 same
    rcases Nat.lt_trichotomy a.symbol.toNat b.symbol.toNat with less | equal | more
    · exact absurd (Char.lt_def.2 less) (later.2 same)
    · exact absurd (Char.toNat_inj.1 equal) different
    · exact .inr ⟨same.symm, Char.lt_def.2 more⟩
  · exact .inl (Int32.lt_iff_toInt_lt.2 above)

/-- Puts an entry in its place among entries that are in order. -/
def insertOrdered (entry : Operator) : List Operator → List Operator
  | [] => [entry]
  | head :: rest =>
    if entry.before head then entry :: head :: rest else head :: insertOrdered entry rest

theorem mem_insertOrdered {entry other : Operator} {entries : List Operator} :
    other ∈ insertOrdered entry entries ↔ other = entry ∨ other ∈ entries := by
  induction entries with
  | nil => simp [insertOrdered]
  | cons head rest ih =>
    unfold insertOrdered
    split
    · simp
    · simp only [List.mem_cons, ih]
      constructor
      · rintro (same | same | inside)
        · exact .inr (.inl same)
        · exact .inl same
        · exact .inr (.inr inside)
      · rintro (same | same | inside)
        · exact .inr (.inl same)
        · exact .inl same
        · exact .inr (.inr inside)

theorem insertOrdered_ordered {entry : Operator} {entries : List Operator}
    (fresh : ∀ other ∈ entries, entry.symbol ≠ other.symbol)
    (ordered : entries.Pairwise before) : (insertOrdered entry entries).Pairwise before := by
  induction entries with
  | nil => simp [insertOrdered]
  | cons head rest ih =>
    have parts := List.pairwise_cons.1 ordered
    unfold insertOrdered
    split
    next first =>
      refine List.pairwise_cons.2 ⟨fun other inside => ?_, ordered⟩
      rcases List.mem_cons.1 inside with same | inside
      · exact same ▸ first
      · exact before_trans first (parts.1 other inside)
    next later =>
      refine List.pairwise_cons.2 ⟨fun other inside => ?_, ?_⟩
      · rcases mem_insertOrdered.1 inside with same | inside
        · exact same ▸ before_of_not_before (fresh head List.mem_cons_self) later
        · exact parts.1 other inside
      · exact ih (fun other inside => fresh other (List.mem_cons_of_mem _ inside)) parts.2

theorem insertOrdered_distinct {entry : Operator} {entries : List Operator}
    (fresh : ∀ other ∈ entries, entry.symbol ≠ other.symbol)
    (distinct : entries.Pairwise fun left right => left.symbol ≠ right.symbol) :
    (insertOrdered entry entries).Pairwise fun left right => left.symbol ≠ right.symbol := by
  induction entries with
  | nil => simp [insertOrdered]
  | cons head rest ih =>
    have parts := List.pairwise_cons.1 distinct
    unfold insertOrdered
    split
    · exact List.pairwise_cons.2 ⟨fresh, distinct⟩
    · refine List.pairwise_cons.2 ⟨fun other inside => ?_, ?_⟩
      · rcases mem_insertOrdered.1 inside with same | inside
        · exact same ▸ (fresh head List.mem_cons_self).symm
        · exact parts.1 other inside
      · exact ih (fun other inside => fresh other (List.mem_cons_of_mem _ inside)) parts.2

end Operator

structure OperatorTable where
  entries : List Operator
  ordered : entries.Pairwise Operator.before
  distinct : entries.Pairwise fun left right => left.symbol ≠ right.symbol
  deriving DecidableEq

namespace OperatorTable

def empty : OperatorTable := ⟨[], .nil, .nil⟩

/-- The entries of all symbols but one. -/
def others (table : OperatorTable) (symbol : Char) : List Operator :=
  table.entries.filter fun entry => entry.symbol ≠ symbol

theorem fresh_others (table : OperatorTable) (symbol : Char) :
    ∀ other ∈ table.others symbol, symbol ≠ other.symbol := by
  intro other inside
  have different : other.symbol ≠ symbol := by simpa using (List.mem_filter.1 inside).2
  exact different.symm

/-- Gives a symbol its precedence, in place of any it had. -/
def define (table : OperatorTable) (symbol : Char) (precedence : Int32) : OperatorTable where
  entries := Operator.insertOrdered ⟨symbol, precedence⟩ (table.others symbol)
  ordered := Operator.insertOrdered_ordered (table.fresh_others symbol) (table.ordered.filter _)
  distinct := Operator.insertOrdered_distinct (table.fresh_others symbol) (table.distinct.filter _)

def defineAll (table : OperatorTable) (operators : List Operator) : OperatorTable :=
  operators.foldl (fun table entry => table.define entry.symbol entry.precedence) table

/-- The operators of the language itself. -/
def builtinOperators : List Operator :=
  [⟨'=', 2⟩, ⟨'<', 10⟩, ⟨'+', 20⟩, ⟨'-', 30⟩, ⟨'*', 40⟩]

def builtin : OperatorTable :=
  empty.defineAll builtinOperators

/-- The precedence written for a symbol. -/
def get? (table : OperatorTable) (symbol : Char) : Option Int32 :=
  (table.entries.find? fun entry => entry.symbol == symbol).map Operator.precedence

def contains (table : OperatorTable) (symbol : Char) : Bool :=
  (table.get? symbol).isSome

def size (table : OperatorTable) : Nat :=
  table.entries.length

def isEmpty (table : OperatorTable) : Bool :=
  table.entries.isEmpty

/-- The precedence of what is no operator. -/
def noPrecedence : Int32 := -1

/-- The precedence of a symbol. Only a positive one makes a symbol an operator. -/
def precedence (table : OperatorTable) (symbol : Char) : Int32 :=
  match table.get? symbol with
  | some precedence => if 0 < precedence then precedence else noPrecedence
  | none => noPrecedence

def precedenceOf (table : OperatorTable) : Token.Kind → Int32
  | .symbol character => table.precedence character
  | _ => noPrecedence

/-- Enters the operator that a prototype declares; none for a prototype that is not that of a
binary operator. -/
def declare? (table : OperatorTable) (prototype : Prototype) : Option OperatorTable :=
  match prototype.symbol?, prototype.binaryPrecedence? with
  | some symbol, some precedence => some (table.define symbol precedence.toInt32)
  | _, _ => none

/-- The table with the operator that a prototype declares, or as it was. -/
def declare (table : OperatorTable) (prototype : Prototype) : OperatorTable :=
  (table.declare? prototype).getD table

end OperatorTable

end Kaleidoscope
