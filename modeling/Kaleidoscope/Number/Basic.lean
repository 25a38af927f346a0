set_option autoImplicit false

/- The 64-bit binary floating-point values, held as exact data: a sign, and the rank of the absolute
value among all non-negative values. -/

namespace Kaleidoscope

/-- A non-negative value, by its rank among all of them. -/
structure Magnitude where
  rank : Nat
  rank_le : rank ≤ 0x7FF0000000000000
  deriving DecidableEq

namespace Magnitude

def zero : Magnitude := ⟨0, by decide⟩

def infinity : Magnitude := ⟨0x7FF0000000000000, Nat.le_refl _⟩

/-- The value of the given rank; ranks past the last one all stand for infinity. -/
def ofRank (rank : Nat) : Magnitude :=
  ⟨min rank 0x7FF0000000000000, Nat.min_le_right _ _⟩

@[simp]
theorem ofRank_rank (magnitude : Magnitude) : ofRank magnitude.rank = magnitude := by
  cases magnitude with
  | mk rank bound => simp [ofRank, Nat.min_eq_left bound]

def isInfinite (magnitude : Magnitude) : Bool :=
  magnitude.rank == infinity.rank

/-- The value counted in units of `2 ^ (-1074)`, the smallest positive value. The first `2 ^ 52`
ranks are equally spaced; each further block of `2 ^ 52` ranks doubles the spacing. Infinity counts
as the power of two that follows the largest finite value. -/
def units (magnitude : Magnitude) : Nat :=
  let block := Nat.pow 2 52
  if magnitude.rank < block then
    magnitude.rank
  else
    (block + magnitude.rank % block) * Nat.pow 2 (magnitude.rank / block - 1)

/-- The value without its fraction. -/
def floor (magnitude : Magnitude) : Nat :=
  magnitude.units / Nat.pow 2 1074

end Magnitude

/-- A number: not a number, or a sign with a magnitude. The two zeros are different data. -/
inductive Number where
  | nan
  | signed (negative : Bool) (magnitude : Magnitude)
  deriving DecidableEq

namespace Number

def zero : Number := .signed false .zero

instance : Inhabited Number := ⟨zero⟩

/-- The place of a number on the number line, which both zeros share. -/
def place? : Number → Option Int
  | nan => none
  | signed false magnitude => some magnitude.rank
  | signed true magnitude => some (-(magnitude.rank : Int))

/-- Numeric equality: not a number equals nothing, and the two zeros are equal. -/
def equals (left right : Number) : Bool :=
  match left.place?, right.place? with
  | some a, some b => a == b
  | _, _ => false

/-- Numeric order: not a number is neither below nor above anything. -/
def below (left right : Number) : Bool :=
  match left.place?, right.place? with
  | some a, some b => decide (a < b)
  | _, _ => false

def isFinite : Number → Bool
  | nan => false
  | signed _ magnitude => !magnitude.isInfinite

def isNegative : Number → Bool
  | nan => false
  | signed negative _ => negative

/-- The whole part of a number that is at least zero; zero for all others. -/
def wholePart : Number → Nat
  | signed false magnitude => magnitude.floor
  | _ => 0

theorem equals_self_iff (number : Number) : number.equals number = true ↔ number ≠ .nan := by
  cases number with
  | nan => simp [equals, place?]
  | signed negative magnitude => cases negative <;> simp [equals, place?]

end Number

end Kaleidoscope
