import Kaleidoscope.Proofs.Precedence
import Mathlib.Data.List.Pairwise

set_option autoImplicit false

namespace Kaleidoscope

theorem Operator.not_before_of_before {a b : Operator} (first : a.before b) : ¬ b.before a := by
  rintro (below | ⟨same, less⟩)
  · rcases first with above | ⟨same, -⟩
    · exact Int32.lt_asymm above below
    · exact Int32.lt_irrefl (same ▸ below)
  · rcases first with above | ⟨-, more⟩
    · exact Int32.lt_irrefl (same ▸ above)
    · exact Char.lt_asymm more less

namespace OperatorTable

variable {table other : OperatorTable} {entry : Operator} {symbol : Char} {precedence : Int32}

/-- No two entries of a table are about the same symbol. -/
theorem eq_of_mem_entries {a b : Operator} (first : a ∈ table.entries) (second : b ∈ table.entries)
    (same : a.symbol = b.symbol) : a = b := by
  have symmetric : Std.Symm fun left right : Operator => left.symbol ≠ right.symbol :=
    ⟨fun _ _ => Ne.symm⟩
  by_contra different
  exact table.distinct.forall first second different same

theorem mem_entries_iff :
    entry ∈ table.entries ↔ table.get? entry.symbol = some entry.precedence := by
  constructor
  · intro inside
    have found : (table.entries.find? fun given => given.symbol == entry.symbol).isSome = true :=
      List.find?_isSome.2 ⟨entry, inside, by simp⟩
    obtain ⟨given, first⟩ := Option.isSome_iff_exists.1 found
    have same : given.symbol = entry.symbol := by simpa using List.find?_some first
    rw [get?, first, eq_of_mem_entries (List.mem_of_find?_eq_some first) inside same]
    rfl
  · intro found
    obtain ⟨given, first, same⟩ := Option.map_eq_some_iff.1 found
    have alike : given.symbol = entry.symbol := by simpa using List.find?_some first
    have whole : given = entry := by
      cases given
      cases entry
      simp_all
    rw [← whole]
    exact List.mem_of_find?_eq_some first

/-- A table is settled by what is found for each symbol. -/
theorem ext_get? (alike : ∀ symbol, table.get? symbol = other.get? symbol) : table = other := by
  have members : ∀ entry, entry ∈ table.entries ↔ entry ∈ other.entries := by
    intro entry
    rw [mem_entries_iff, mem_entries_iff, alike]
  have single : ∀ given : OperatorTable, given.entries.Nodup := fun given =>
    given.distinct.imp fun differs same => differs (congrArg Operator.symbol same)
  have same : table.entries = other.entries := by
    apply List.Perm.eq_of_pairwise _ table.ordered other.ordered
    · exact (List.perm_ext_iff_of_nodup (single table) (single other)).2 members
    · intro a b _ _ first second
      exact absurd second (Operator.not_before_of_before first)
  cases table
  cases other
  cases same
  rfl

/-- Entering an operator changes nothing exactly if the table has it already. -/
theorem define_eq_self_iff :
    table.define symbol precedence = table ↔ table.get? symbol = some precedence := by
  constructor
  · intro same
    rw [← same]
    exact get?_define table symbol precedence
  · intro held
    apply ext_get?
    intro given
    by_cases same : symbol = given
    · rw [← same, get?_define, held]
    · rw [get?_define_of_ne table same]

theorem mem_define {given : Operator} :
    given ∈ (table.define symbol precedence).entries ↔
      given = ⟨symbol, precedence⟩ ∨ given ∈ table.entries ∧ given.symbol ≠ symbol := by
  simp [define, Operator.mem_insertOrdered, others]

theorem contains_iff :
    table.contains symbol = true ↔ ∃ precedence, ⟨symbol, precedence⟩ ∈ table.entries := by
  simp [contains, Option.isSome_iff_exists, mem_entries_iff]

end OperatorTable

end Kaleidoscope
