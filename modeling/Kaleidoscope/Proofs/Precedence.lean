import Kaleidoscope.Session

set_option autoImplicit false

/- Wherever an operator binds tighter than a precedence there is room above that precedence, so the
next one is no overflow. -/

namespace Kaleidoscope

/-- The successor of a number that has another one above it is exact. -/
theorem toInt_succ_of_lt {low high : Int32} (below : low < high) :
    (low + 1).toInt = low.toInt + 1 := by
  have lower := Int32.le_toInt low
  have upper := Int32.toInt_lt high
  have order := Int32.lt_iff_toInt_lt.1 below
  have one : (1 : Int32).toInt = 1 := rfl
  rw [Int32.toInt_add, one]
  apply Int.bmod_eq_of_le_mul_two <;> omega

namespace OperatorTable

theorem precedence_cases (table : OperatorTable) (symbol : Char) :
    table.precedence symbol = noPrecedence ∨ 0 < table.precedence symbol := by
  unfold precedence
  split
  · split
    next positive => exact .inr positive
    next => exact .inl rfl
  · exact .inl rfl

/-- A symbol that binds at least as tightly as a precedence from zero on is an operator. -/
theorem precedence_pos {table : OperatorTable} {symbol : Char} {minimum : Int32}
    (natural : 0 ≤ minimum) (binds : ¬ table.precedence symbol < minimum) :
    0 < table.precedence symbol := by
  rcases table.precedence_cases symbol with none | positive
  · have below : noPrecedence < 0 := by decide
    rw [none] at binds
    exact absurd (Int32.lt_of_lt_of_le below natural) binds
  · exact positive

theorem noPrecedence_le (table : OperatorTable) (symbol : Char) :
    noPrecedence ≤ table.precedence symbol := by
  rcases table.precedence_cases symbol with none | positive
  · rw [none]
    exact Int32.le_refl _
  · exact Int32.le_of_lt (Int32.lt_trans (by decide) positive)

theorem precedence_neg {table : OperatorTable} {symbol : Char}
    (loose : ¬ 0 < table.precedence symbol) : table.precedence symbol < 0 := by
  rcases table.precedence_cases symbol with none | positive
  · rw [none]
    decide
  · exact absurd positive loose

theorem defineAll_append (table : OperatorTable) (first second : List Operator) :
    table.defineAll (first ++ second) = (table.defineAll first).defineAll second := by
  simp [defineAll]

theorem get?_define (table : OperatorTable) (symbol : Char) (precedence : Int32) :
    (table.define symbol precedence).get? symbol = some precedence := by
  have inside : ⟨symbol, precedence⟩ ∈ (table.define symbol precedence).entries :=
    Operator.mem_insertOrdered.2 (.inl rfl)
  have found : ((table.define symbol precedence).entries.find?
      fun entry => entry.symbol == symbol).isSome = true := by
    rw [List.find?_isSome]
    exact ⟨_, inside, by simp⟩
  obtain ⟨entry, first⟩ := Option.isSome_iff_exists.1 found
  have same : entry.symbol = symbol := by simpa using List.find?_some first
  have only : entry = ⟨symbol, precedence⟩ := by
    rcases Operator.mem_insertOrdered.1 (List.mem_of_find?_eq_some first) with new | old
    · exact new
    · exact absurd same.symm (table.fresh_others symbol entry old)
  rw [get?, first, only]
  rfl

/-- An entry of another symbol does not bear on what is found for a symbol. -/
theorem find?_insertOrdered {entry : Operator} {symbol : Char} (differs : entry.symbol ≠ symbol)
    (entries : List Operator) :
    (Operator.insertOrdered entry entries).find? (fun other => other.symbol == symbol) =
      entries.find? fun other => other.symbol == symbol := by
  have passed : (entry.symbol == symbol) = false := by simpa using differs
  induction entries with
  | nil => simp [Operator.insertOrdered, passed]
  | cons head rest hypothesis =>
    unfold Operator.insertOrdered
    split
    · rw [List.find?_cons, passed]
    · rw [List.find?_cons, List.find?_cons, hypothesis]

theorem get?_define_of_ne (table : OperatorTable) {symbol other : Char} (differs : symbol ≠ other)
    (precedence : Int32) : (table.define symbol precedence).get? other = table.get? other := by
  have kept : (fun entry : Operator =>
      decide (decide (entry.symbol ≠ symbol) = true ∧ (entry.symbol == other) = true)) =
        fun entry => entry.symbol == other := by
    funext entry
    by_cases same : entry.symbol = other
    · simp [same, differs.symm]
    · simp [same]
  rw [get?, define, find?_insertOrdered differs, others, List.find?_filter, kept, get?]

/-- Entering other symbols leaves the precedence of a symbol alone. -/
theorem precedence_defineAll (table : OperatorTable) {symbol : Char} (operators : List Operator)
    (differ : ∀ operator ∈ operators, operator.symbol ≠ symbol) :
    (table.defineAll operators).precedence symbol = table.precedence symbol := by
  induction operators generalizing table with
  | nil => rfl
  | cons operator operators hypothesis =>
    rw [List.forall_mem_cons] at differ
    have entered : (table.define operator.symbol operator.precedence).precedence symbol =
        table.precedence symbol := by
      rw [precedence, get?_define_of_ne table differ.1, precedence]
    exact (hypothesis _ differ.2).trans entered

end OperatorTable

end Kaleidoscope
