import Kaleidoscope.Proofs.Numerals

set_option autoImplicit false

namespace Kaleidoscope

open Text

section Points

variable {row front digits whole fraction more : List Char} {seen : Bool}

/-- A row of digits and points is digits up to its first point. -/
theorem exists_digits_append (numeral : ∀ c ∈ row, isNumeral c = true) :
    ∃ digits more, row = digits ++ more ∧ (∀ c ∈ digits, c.isDigit = true) ∧
      ∀ c ∈ more.head?, c = '.' := by
  refine ⟨row.takeWhile Char.isDigit, row.dropWhile Char.isDigit,
    List.takeWhile_append_dropWhile.symm, fun c inside => List.mem_takeWhile_imp inside, ?_⟩
  intro c first
  have other : c.isDigit = false := by
    have fails := List.head?_dropWhile_not Char.isDigit row
    rw [first] at fails
    simpa using fails
  have among : isNumeral c = true :=
    numeral c ((List.dropWhile_sublist _).subset (List.mem_of_head? first))
  simpa [isNumeral, other] using among

theorem count_point_of_digits (plain : ∀ c ∈ digits, c.isDigit = true) : digits.count '.' = 0 := by
  rw [List.count_eq_zero]
  intro inside
  cases plain '.' inside

/-- Digits alone are a decimal, if there are any. -/
theorem isSome_ofCharacters?_of_digits (plain : ∀ c ∈ digits, c.isDigit = true) :
    (Decimal.ofCharacters? digits).isSome = true ↔ digits ≠ [] := by
  by_cases none : digits = []
  · simp [none, Decimal.ofCharacters?, spanDigits]
  · simp [Decimal.ofCharacters?, spanDigits_of_digits plain, none, readExponent?]

/-- Behind the digits of a fraction nothing may follow, and there must be a digit on one of the two
sides of the point. -/
theorem isSome_ofCharacters?_of_point (first : ∀ c ∈ whole, c.isDigit = true)
    (second : ∀ c ∈ fraction, c.isDigit = true) (stops : ∀ c ∈ more.head?, c = '.') :
    (Decimal.ofCharacters? (whole ++ '.' :: (fraction ++ more))).isSome = true ↔
      more = [] ∧ whole ++ fraction ≠ [] := by
  have before : spanDigits (whole ++ '.' :: (fraction ++ more)) =
      (whole, '.' :: (fraction ++ more)) := spanDigits_append first (by simp)
  have behind : spanDigits (fraction ++ more) = (fraction, more) := by
    apply spanDigits_append second
    intro c inside
    rw [stops c inside]
    rfl
  unfold Decimal.ofCharacters?
  simp only [before, behind]
  cases more with
  | nil =>
    by_cases none : whole = [] ∧ fraction = []
    · simp [none]
    · simp [none, readExponent?]
  | cons c rest =>
    have point : c = '.' := stops c rfl
    simp [point, readExponent?]

/-- Digits and points are read as a number exactly if at most one is a point and one is a digit. -/
theorem Number.isSome_ofCharacters?_iff (numeral : ∀ c ∈ row, isNumeral c = true) :
    (Number.ofCharacters? row).isSome = true ↔
      row.count '.' ≤ 1 ∧ ∃ c ∈ row, c.isDigit = true := by
  rw [Number.ofCharacters?_of_isNumeral numeral, Option.isSome_map]
  obtain ⟨whole, rest, rfl, first, stops⟩ := exists_digits_append numeral
  have some_digit {digits : List Char} (plain : ∀ c ∈ digits, c.isDigit = true) :
      (∃ c ∈ digits, c.isDigit = true) ↔ digits ≠ [] := by
    constructor
    · rintro ⟨c, inside, -⟩
      exact List.ne_nil_of_mem inside
    · intro present
      obtain ⟨c, inside⟩ := List.exists_mem_of_ne_nil digits present
      exact ⟨c, inside, plain c inside⟩
  cases rest with
  | nil =>
    rw [List.append_nil, isSome_ofCharacters?_of_digits first, count_point_of_digits first,
      some_digit first]
    simp
  | cons c rest =>
    obtain rfl : c = '.' := stops c rfl
    obtain ⟨fraction, more, rfl, second, further⟩ := exists_digits_append
      (fun c inside => numeral c (List.mem_append_right _ (List.mem_cons_of_mem _ inside)))
    rw [isSome_ofCharacters?_of_point first second further]
    have points : (whole ++ '.' :: (fraction ++ more)).count '.' = 1 + more.count '.' := by
      simp [List.count_append, count_point_of_digits first, count_point_of_digits second,
        Nat.add_comm]
    cases more with
    | nil =>
      have point : Char.isDigit '.' = false := rfl
      rw [points, ← some_digit (List.forall_mem_append.2 ⟨first, second⟩)]
      simp [or_and_right, exists_or, point]
    | cons c more =>
      obtain rfl : c = '.' := further c rfl
      rw [List.count_cons_self] at points
      simp [points]

/-- A start of a row has at most one point exactly if it does not reach the second point. -/
theorem start_beforeSecondPoint_iff :
    front <+: beforeSecondPoint seen row ↔ front <+: row ∧ front.count '.' + seen.toNat ≤ 1 := by
  induction row generalizing front seen with
  | nil =>
    rw [beforeSecondPoint, List.prefix_nil]
    constructor
    · rintro rfl
      exact ⟨rfl, by simpa using seen.toNat_le⟩
    · exact And.left
  | cons c rest hypothesis =>
    cases front with
    | nil => simpa using seen.toNat_le
    | cons first front =>
      unfold beforeSecondPoint
      by_cases point : c = '.'
      · subst point
        cases seen with
        | true =>
          simp only [↓reduceIte, List.prefix_nil, reduceCtorEq, false_iff]
          rintro ⟨start, few⟩
          obtain ⟨rfl, -⟩ := List.cons_prefix_cons.1 start
          simp at few
        | false =>
          simp only [↓reduceIte, Bool.false_eq_true, List.cons_prefix_cons, hypothesis, and_assoc]
          refine and_congr_right fun same => ?_
          subst same
          simp
      · simp only [point, ↓reduceIte, List.cons_prefix_cons, hypothesis, and_assoc]
        refine and_congr_right fun same => ?_
        subst same
        simp [point]

end Points

namespace Number

variable {row front : List Char}

/-- Of the starts of a row that are written forms of a number, `front` is the longest, and `value`
is its number. -/
structure ReadsLongest (row front : List Char) (value : Number) : Prop where
  start : front <+: row
  reads : ofCharacters? front = some value
  longest : ∀ other, other <+: row → (ofCharacters? other).isSome = true →
    other.length ≤ front.length

theorem beforeSecondPoint_spec (row : List Char) :
    beforeSecondPoint false row <+: row ∧ (beforeSecondPoint false row).count '.' ≤ 1 :=
  start_beforeSecondPoint_iff.1 (List.prefix_refl _)

/-- A start of a numeral that can be read ends before the second point. -/
theorem start_beforeSecondPoint_of_isSome (numeral : ∀ c ∈ row, isNumeral c = true)
    (start : front <+: row) (reads : (ofCharacters? front).isSome = true) :
    front <+: beforeSecondPoint false row := by
  have among : ∀ c ∈ front, isNumeral c = true := fun c inside => numeral c (start.subset inside)
  exact start_beforeSecondPoint_iff.2 ⟨start, ((isSome_ofCharacters?_iff among).1 reads).1⟩

/-- The value of a row of digits and points is that of the longest start of the row that can be read
as a number, and zero if none can. It is never negative, and never the value that is no number. A
start can be read exactly if it has at most one point and at least one digit. -/
theorem numeral_reads_longest_start (row : List Char) (numeral : ∀ c ∈ row, isNumeral c = true) :
    ((∃ front, ReadsLongest row front (ofNumeral row)) ∨
      (∀ front, front <+: row → ofCharacters? front = none) ∧ ofNumeral row = zero) ∧
    ofNumeral row ≠ nan ∧ (ofNumeral row).isNegative = false ∧
    ∀ front, front <+: row → ((ofCharacters? front).isSome = true ↔
      front.count '.' ≤ 1 ∧ ∃ c ∈ front, c.isDigit = true) := by
  have among {front : List Char} (start : front <+: row) : ∀ c ∈ front, isNumeral c = true :=
    fun c inside => numeral c (start.subset inside)
  obtain ⟨number, positive⟩ := unsigned_ofNumeral numeral
  refine ⟨?_, number, positive, fun front start => isSome_ofCharacters?_iff (among start)⟩
  obtain ⟨cut, few⟩ := beforeSecondPoint_spec row
  cases read : ofCharacters? (beforeSecondPoint false row) with
  | some value =>
    have same : ofNumeral row = value := by rw [ofNumeral, read, Option.getD_some]
    refine .inl ⟨beforeSecondPoint false row, cut, by rw [read, same], ?_⟩
    intro other start reads
    exact (start_beforeSecondPoint_of_isSome numeral start reads).length_le
  | none =>
    refine .inr ⟨?_, by rw [ofNumeral, read, Option.getD_none]⟩
    intro front start
    -- A start that could be read would have a digit before the second point.
    rw [← Option.not_isSome_iff_eq_none]
    intro reads
    have within := start_beforeSecondPoint_of_isSome numeral start reads
    obtain ⟨-, c, inside, digit⟩ := (isSome_ofCharacters?_iff (among start)).1 reads
    have whole := (isSome_ofCharacters?_iff (among cut)).2 ⟨few, c, within.subset inside, digit⟩
    rw [read] at whole
    cases whole

/-- Of the first numeral two points are cut off with what stands between them, and the second one
has no digit before its second point. -/
theorem numeral_reads_longest_start_of_many_points :
    let many := ['.', '5', '0', '.', '1', '.', '.']
    let early := ['.', '.', '1']
    (∀ c ∈ many, isNumeral c = true) ∧ (∀ c ∈ early, isNumeral c = true) ∧
      (∃ front, ReadsLongest many front (ofNumeral many)) ∧
      ofNumeral many = .signed false (.nearest 1 2) ∧
      (∀ front, front <+: early → ofCharacters? front = none) ∧ ofNumeral early = zero := by
  intro many early
  have first : ∀ c ∈ many, isNumeral c = true := List.all_eq_true.1 rfl
  have second : ∀ c ∈ early, isNumeral c = true := List.all_eq_true.1 rfl
  have half : ofNumeral many = .signed false (.nearest 1 2) := by decide +kernel
  have nothing : ofNumeral early = zero := by decide +kernel
  refine ⟨first, second, ?_, half, ?_, nothing⟩
  · rcases (numeral_reads_longest_start many first).1 with reads | ⟨-, none⟩
    · exact reads
    · rw [half] at none
      exact absurd none (by decide +kernel)
  · intro front start
    have accepts := (numeral_reads_longest_start early second).2.2.2 front start
    rw [← Option.not_isSome_iff_eq_none, accepts]
    simp only [early, List.prefix_cons_iff, List.prefix_nil] at start
    rcases start with rfl | ⟨_, rfl, rfl | ⟨_, rfl, rfl | ⟨_, rfl, rfl⟩⟩⟩ <;> simp [Char.isDigit]

end Number

end Kaleidoscope
