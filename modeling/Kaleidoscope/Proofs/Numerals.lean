import Kaleidoscope.Number.Printer
import Kaleidoscope.Proofs.Genuine
import Kaleidoscope.Proofs.Magnitudes
import Mathlib.Data.List.DropRight

set_option autoImplicit false

/- The digits that are chosen for a finite magnitude round to it. Written out in full they are
another decimal of the same value, and the nearest magnitude depends on the value only. -/

namespace Kaleidoscope

namespace Decimal

theorem ofDigits_append (row more : List Char) :
    ofDigits (row ++ more) = ofDigits row * 10 ^ more.length + ofDigits more := by
  simp only [ofDigits, ← Nat.ofDigitChars_eq_foldl, Nat.ofDigitChars_append]
  rw [Nat.ofDigitChars_eq_ofDigitChars_zero, Nat.mul_comm]

@[simp]
theorem ofDigits_zeros (count : Nat) : ofDigits (List.replicate count '0') = 0 := by
  rw [ofDigits, ← Nat.ofDigitChars_eq_foldl, Nat.ofDigitChars_replicate_zero, Nat.mul_zero]

@[simp]
theorem ofDigits_digits (value : Nat) : ofDigits (digits value) = value := by
  rw [ofDigits, ← Nat.ofDigitChars_eq_foldl, digits, Nat.ofDigitChars_ten_toDigits]

theorem isDigit_of_mem_digits {value : Nat} {c : Char} (inside : c ∈ digits value) :
    c.isDigit = true :=
  Nat.isDigit_of_mem_toDigits (by decide) (by decide) inside

/-- A power of ten puts zeros at the end. -/
theorem digits_mul_pow {value : Nat} (positive : 0 < value) (places : Nat) :
    digits (value * 10 ^ places) = digits value ++ List.replicate places '0' := by
  induction places with
  | zero => simp
  | succ places hypothesis =>
    have more : 0 < value * 10 ^ places := Nat.mul_pos positive (Nat.pow_pos (by decide))
    have next : value * 10 ^ (places + 1) = 10 * (value * 10 ^ places) + 0 := by
      rw [Nat.pow_succ, ← Nat.mul_assoc, Nat.mul_comm, Nat.add_zero]
    unfold digits at hypothesis ⊢
    rw [next, ← Nat.toDigits_append_toDigits (by decide) more (by decide), hypothesis,
      Nat.toDigits_zero, List.append_assoc, List.replicate_succ']

/-- The value of a decimal as a fraction, whatever the sign of its exponent is. -/
theorem nearest_eq (coefficient : Nat) (exponent : Int) :
    nearest ⟨coefficient, exponent⟩ =
      if coefficient = 0 then .zero
      else if (digits coefficient).length + exponent > 310 then .infinity
      else if (digits coefficient).length + exponent < -330 then .zero
      else .nearest (coefficient * 10 ^ exponent.toNat) (10 ^ (-exponent).toNat) := by
  unfold nearest
  by_cases natural : exponent ≥ 0
  · have flat : (-exponent).toNat = 0 := by omega
    simp [natural, flat]
  · have flat : exponent.toNat = 0 := by omega
    simp [natural, flat]

/-- Zeros at the end of the coefficient can be counted in the exponent. -/
theorem nearest_shift (coefficient places : Nat) (exponent : Int) :
    nearest ⟨coefficient * 10 ^ places, exponent - places⟩ = nearest ⟨coefficient, exponent⟩ := by
  have ten (count : Nat) : 0 < 10 ^ count := Nat.pow_pos (by decide)
  rcases Nat.eq_zero_or_pos coefficient with rfl | positive
  · simp [nearest_eq]
  have present : coefficient * 10 ^ places ≠ 0 := Nat.ne_of_gt (Nat.mul_pos positive (ten places))
  have leading : ((digits (coefficient * 10 ^ places)).length : Int) + (exponent - places) =
      (digits coefficient).length + exponent := by
    rw [digits_mul_pow positive, List.length_append, List.length_replicate]
    omega
  have balance : places + (exponent - places).toNat + (-exponent).toNat =
      exponent.toNat + (-(exponent - places)).toNat := by omega
  have fraction : Magnitude.nearest (coefficient * 10 ^ places * 10 ^ (exponent - places).toNat)
      (10 ^ (-(exponent - places)).toNat) =
        .nearest (coefficient * 10 ^ exponent.toNat) (10 ^ (-exponent).toNat) := by
    rw [← Magnitude.nearest_mul _ _ (ten (-exponent).toNat),
      ← Magnitude.nearest_mul (coefficient * _) _ (ten (-(exponent - places)).toNat)]
    simp only [Nat.mul_assoc, ← Nat.pow_add]
    rw [← balance, Nat.add_comm (-exponent).toNat, Nat.add_assoc]
  rw [nearest_eq, nearest_eq, if_neg present, if_neg (Nat.ne_of_gt positive), leading, fraction]

end Decimal

namespace Magnitude

variable {magnitude : Magnitude}

theorem one_le_units (present : magnitude ≠ zero) : 1 ≤ magnitude.units := by
  have positive : 1 ≤ magnitude.rank := by
    by_contra none
    apply present
    rw [← ofRank_rank magnitude, Nat.lt_one_iff.1 (Nat.not_le.1 none)]
    rfl
  have one : (ofRank 1).units = 1 := by decide +kernel
  calc 1 = (ofRank 1).units := one.symm
    _ ≤ magnitude.units := units_le positive

/-- All digits of a magnitude are a decimal of its value, and it is not so large or so small that
its power of ten is left out. -/
theorem nearest_exactly (present : magnitude ≠ zero) : magnitude.exactly.nearest = magnitude := by
  have small : infinity.units * Nat.pow 5 1074 < 10 ^ 1383 := by decide +kernel
  have large : 10 ^ 743 ≤ 1 * Nat.pow 5 1074 := by decide +kernel
  have product : 10 ^ 1074 = Nat.pow 2 1074 * Nat.pow 5 1074 := by decide +kernel
  have five : 0 < Nat.pow 5 1074 := by decide +kernel
  unfold exactly
  generalize Nat.pow 5 1074 = factor at small large product five ⊢
  have upper : (Decimal.digits (magnitude.units * factor)).length ≤ 1383 := by
    apply (Nat.length_toDigits_le_iff (by decide) (by decide)).2
    calc magnitude.units * factor ≤ infinity.units * factor :=
          Nat.mul_le_mul_right _ (units_le magnitude.rank_le)
      _ < 10 ^ 1383 := small
  have lower : ¬ (Decimal.digits (magnitude.units * factor)).length ≤ 743 := by
    rw [Decimal.digits, Nat.length_toDigits_le_iff (by decide) (by decide), Nat.not_lt]
    calc 10 ^ 743 ≤ 1 * factor := large
      _ ≤ magnitude.units * factor := Nat.mul_le_mul_right _ (one_le_units present)
  have filled : magnitude.units * factor ≠ 0 :=
    Nat.ne_of_gt (Nat.mul_pos (one_le_units present) five)
  have none : (-1074 : Int).toNat = 0 := rfl
  have places : (-(-1074) : Int).toNat = 1074 := rfl
  rw [Decimal.nearest_eq, if_neg filled, if_neg (by omega), if_neg (by omega), none, places,
    Nat.pow_zero, Nat.mul_one, product, nearest_mul _ (Nat.pow 2 1074) five,
    nearest_units]

theorem nearest_of_onGrid {place : Int} {decimal : Decimal}
    (found : magnitude.onGrid? place = some decimal) : decimal.nearest = magnitude := by
  unfold onGrid? at found
  simp only [readsBack, Bool.and_eq_true, beq_iff_eq] at found
  split at found
  next upper => exact Option.some.inj found ▸ upper.1
  next =>
    split at found
    next lower => exact Option.some.inj found ▸ lower
    next => cases found

theorem nearest_shortestFrom (present : magnitude ≠ zero) (place : Int) (tries : Nat) :
    (magnitude.shortestFrom place tries).nearest = magnitude := by
  induction tries generalizing place with
  | zero => exact nearest_exactly present
  | succ tries hypothesis =>
    unfold shortestFrom
    split
    next decimal found => exact nearest_of_onGrid found
    next => exact hypothesis (place - 1)

/-- The digits that are chosen for a magnitude round to it. -/
theorem nearest_shortest (magnitude : Magnitude) : magnitude.shortest.nearest = magnitude := by
  unfold shortest
  split
  next none =>
    rw [none]
    rfl
  next present => exact nearest_shortestFrom present _ _

end Magnitude

namespace Text

variable {test : Char → Bool} {word row : List Char}

/-- A word of characters that meet a test ends in front of one that does not. -/
theorem takeWhile_append_of_head (inside : ∀ c ∈ word, test c = true)
    (stops : ∀ c ∈ row.head?, test c = false) : (word ++ row).takeWhile test = word := by
  rw [List.takeWhile_append_of_pos inside]
  cases row with
  | nil => simp
  | cons c row => simp [stops c rfl]

theorem dropWhile_append_of_head (inside : ∀ c ∈ word, test c = true)
    (stops : ∀ c ∈ row.head?, test c = false) : (word ++ row).dropWhile test = row := by
  rw [List.dropWhile_append_of_pos inside]
  cases row with
  | nil => simp
  | cons c row => simp [stops c rfl]

end Text

section Numerals

open Text Decimal

/-- Digits, and behind a point the digits of a fraction, if there are any. -/
def pointed (whole fraction : List Char) : List Char :=
  if fraction.isEmpty then whole else whole ++ '.' :: fraction

variable {whole fraction : List Char}

theorem isNumeral_of_mem_pointed (digits : ∀ c ∈ whole ++ fraction, c.isDigit = true) :
    ∀ c ∈ pointed whole fraction, isNumeral c = true := by
  intro c inside
  have among : c ∈ whole ++ fraction ∨ c = '.' := by
    unfold pointed at inside
    split at inside
    · exact .inl (List.mem_append_left _ inside)
    · rcases List.mem_append.1 inside with first | second
      · exact .inl (List.mem_append_left _ first)
      · rcases List.mem_cons.1 second with point | second
        · exact .inr point
        · exact .inl (List.mem_append_right _ second)
  rcases among with digit | rfl
  · simp [isNumeral, digits c digit]
  · rfl

/-- Digits pass before a second point. -/
theorem beforeSecondPoint_append {row : List Char} (digits : ∀ c ∈ row, c.isDigit = true)
    (seen : Bool) (more : List Char) :
    beforeSecondPoint seen (row ++ more) = row ++ beforeSecondPoint seen more := by
  induction row with
  | nil => rfl
  | cons c row hypothesis =>
    obtain ⟨digit, rest⟩ := List.forall_mem_cons.1 digits
    have plain : c ≠ '.' := by
      rintro rfl
      cases digit
    simp [beforeSecondPoint, plain, hypothesis rest]

theorem beforeSecondPoint_pointed (digits : ∀ c ∈ whole ++ fraction, c.isDigit = true) :
    beforeSecondPoint false (pointed whole fraction) = pointed whole fraction := by
  obtain ⟨first, second⟩ := List.forall_mem_append.1 digits
  have passed (row : List Char) (digits : ∀ c ∈ row, c.isDigit = true) (seen : Bool) :
      beforeSecondPoint seen row = row := by
    simpa [beforeSecondPoint] using beforeSecondPoint_append digits seen []
  unfold pointed
  split
  · exact passed whole first false
  · rw [beforeSecondPoint_append first]
    simp [beforeSecondPoint, passed fraction second]

theorem spanDigits_append {row more : List Char} (digits : ∀ c ∈ row, c.isDigit = true)
    (stops : ∀ c ∈ more.head?, c.isDigit = false) : spanDigits (row ++ more) = (row, more) := by
  rw [spanDigits, takeWhile_append_of_head digits stops, dropWhile_append_of_head digits stops]

theorem spanDigits_of_digits {row : List Char} (digits : ∀ c ∈ row, c.isDigit = true) :
    spanDigits row = (row, []) := by
  simpa using @spanDigits_append row [] digits (by simp)

/-- The digits before the point and behind it together are the coefficient, and each behind it
counts as a tenth of the one before. -/
theorem ofCharacters?_pointed (filled : whole ≠ [])
    (digits : ∀ c ∈ whole ++ fraction, c.isDigit = true) :
    Decimal.ofCharacters? (pointed whole fraction) =
      some ⟨ofDigits (whole ++ fraction), -fraction.length⟩ := by
  obtain ⟨first, second⟩ := List.forall_mem_append.1 digits
  unfold pointed
  split
  next none =>
    rw [List.isEmpty_iff] at none
    simp [Decimal.ofCharacters?, spanDigits_of_digits first, none, filled, readExponent?]
  next some =>
    have span : spanDigits (whole ++ '.' :: fraction) = (whole, '.' :: fraction) :=
      spanDigits_append first (by simp)
    simp [Decimal.ofCharacters?, span, spanDigits_of_digits second, filled, readExponent?]

theorem exists_dropTrailingZeros (row : List Char) :
    ∃ count, row = dropTrailingZeros row ++ List.replicate count '0' := by
  have whole : dropTrailingZeros row ++ row.rtakeWhile (· == '0') = row :=
    List.rdropWhile_append_rtakeWhile
  refine ⟨(row.rtakeWhile (· == '0')).length, ?_⟩
  have zeros : row.rtakeWhile (· == '0') =
      List.replicate (row.rtakeWhile (· == '0')).length '0' := by
    apply List.eq_replicate_of_mem
    intro c inside
    simpa using List.mem_rtakeWhile_imp inside
  rw [← zeros, whole]

/-- The last `places` of a row are a fraction and the zeros behind it. -/
theorem exists_cut {row : List Char} {places : Nat} (long : places < row.length) :
    row.take (row.length - places) ≠ [] ∧
      ∃ count, row = row.take (row.length - places) ++
          dropTrailingZeros (row.drop (row.length - places)) ++ List.replicate count '0' ∧
        places = (dropTrailingZeros (row.drop (row.length - places))).length + count := by
  constructor
  · apply List.ne_nil_of_length_pos
    rw [List.length_take]
    omega
  · obtain ⟨count, cut⟩ := exists_dropTrailingZeros (row.drop (row.length - places))
    refine ⟨count, ?_, ?_⟩
    · rw [List.append_assoc, ← cut, List.take_append_drop]
    · have lengths := congrArg List.length cut
      rw [List.length_drop, List.length_append, List.length_replicate] at lengths
      omega

/-- A decimal written out in full has the value of the decimal. -/
theorem exists_positional (decimal : Decimal) :
    ∃ whole fraction, decimal.positional = pointed whole fraction ∧ whole ≠ [] ∧
      (∀ c ∈ whole ++ fraction, c.isDigit = true) ∧
      nearest ⟨ofDigits (whole ++ fraction), -fraction.length⟩ = decimal.nearest := by
  obtain ⟨coefficient, exponent⟩ := decimal
  unfold positional
  have zeros (count : Nat) : ∀ c ∈ List.replicate count '0', c.isDigit = true := by
    intro c inside
    rw [List.eq_of_mem_replicate inside]
    rfl
  by_cases natural : exponent ≥ 0
  · simp only [natural, ↓reduceIte]
    split
    next none =>
      refine ⟨['0'], [], rfl, by simp, by simp, ?_⟩
      simp [nearest_eq, none, ofDigits]
    next present =>
      refine ⟨digits coefficient ++ List.replicate exponent.toNat '0', [], rfl, ?_, ?_, ?_⟩
      · simp [digits, Nat.toDigits_ne_nil]
      · rw [List.append_nil, List.forall_mem_append]
        exact ⟨fun c => isDigit_of_mem_digits, zeros _⟩
      · have shifted := nearest_shift coefficient exponent.toNat exponent
        rw [Int.toNat_of_nonneg natural, Int.sub_self] at shifted
        simpa [ofDigits_append] using shifted
  · simp only [natural, ↓reduceIte]
    generalize shape : List.replicate ((-exponent).toNat + 1 - (digits coefficient).length) '0' ++
      digits coefficient = padded
    have long : (-exponent).toNat < padded.length := by
      rw [← shape, List.length_append, List.length_replicate]
      omega
    have numerals : ∀ c ∈ padded, c.isDigit = true := by
      rw [← shape]
      exact List.forall_mem_append.2 ⟨zeros _, fun c => isDigit_of_mem_digits⟩
    have total : ofDigits padded = coefficient := by simp [← shape, ofDigits_append]
    obtain ⟨filled, count, parts, behind⟩ := exists_cut long
    refine ⟨_, _, rfl, filled, ?_, ?_⟩
    · rw [parts] at numerals
      exact (List.forall_mem_append.1 numerals).1
    · generalize padded.take (padded.length - (-exponent).toNat) = whole at parts ⊢
      generalize dropTrailingZeros (padded.drop (padded.length - (-exponent).toNat)) = fraction
        at parts behind ⊢
      have scale : -(fraction.length : Int) - count = exponent := by omega
      rw [parts, ofDigits_append, ofDigits_zeros, Nat.add_zero, List.length_replicate] at total
      rw [← total, ← scale]
      exact (nearest_shift (ofDigits (whole ++ fraction)) count (-fraction.length)).symm

/-- What is written for a finite number that has no sign is a numeral of that number. -/
theorem Number.spells_characters {value : Number} (unsigned : value.Unsigned)
    (finite : value.isFinite = true) : Token.Kind.Spells value.characters (.number value) := by
  obtain ⟨magnitude, rfl⟩ := unsigned.exists_eq
  obtain ⟨whole, fraction, written, filled, digits, same⟩ := exists_positional magnitude.shortest
  have numerals := isNumeral_of_mem_pointed digits
  have row : (Number.signed false magnitude).characters = pointed whole fraction := by
    have bounded : magnitude.isInfinite = false := by simpa [Number.isFinite] using finite
    rw [← written]
    simp [Number.characters, Magnitude.characters, bounded]
  rw [row]
  refine ⟨?_, List.all_eq_true.2 numerals, ?_⟩
  · unfold pointed
    split <;> simp [filled]
  · rw [Number.ofNumeral, beforeSecondPoint_pointed digits,
      Number.ofCharacters?_of_isNumeral numerals, ofCharacters?_pointed filled digits,
      Option.map_some, Option.getD_some, same, Magnitude.nearest_shortest]

end Numerals

end Kaleidoscope
