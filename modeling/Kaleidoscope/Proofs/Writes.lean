import Kaleidoscope.Proofs.Entries
import Mathlib.Data.Finset.Card
import Mathlib.Data.List.Basic

set_option autoImplicit false

/- Giving a symbol a precedence and entering a prototype both write one entry, and what a table
holds is settled by the entries written so far. -/

namespace Kaleidoscope

namespace Prototype

/-- Whether the prototype can be entered into a table: it is an operator of two operands and has a
name. -/
def Enterable (prototype : Prototype) : Prop :=
  prototype.isOperator = true ∧ prototype.parameters.length = 2 ∧ prototype.name ≠ ""

instance : DecidablePred Enterable :=
  fun _ => inferInstanceAs (Decidable (_ ∧ _))

theorem Enterable.exists_last {prototype : Prototype} (enterable : prototype.Enterable) :
    ∃ symbol, prototype.name.toList.getLast? = some symbol := by
  have filled : prototype.name.toList ≠ [] := by simpa using enterable.2.2
  exact ⟨_, List.getLast?_eq_some_getLast filled⟩

end Prototype

/-- What can be asked of a table. -/
inductive Request where
  | define (symbol : Char) (precedence : Int32)
  | declare (prototype : Prototype)

/-- The entry that a request writes, if it writes one. For a prototype it is about the last
character of the name, and the precedence is wrapped around to 32 bits with a sign. -/
def Request.write? : Request → Option Operator
  | define symbol precedence => some ⟨symbol, precedence⟩
  | declare prototype =>
    if prototype.Enterable then
      prototype.name.toList.getLast?.map fun symbol =>
        ⟨symbol, Int32.ofNat prototype.precedence.toNat⟩
    else none

/-- The precedence that was written last for a symbol. -/
def lastWritten (writes : List Operator) (symbol : Char) : Option Int32 :=
  (writes.reverse.find? fun entry => entry.symbol == symbol).map Operator.precedence

section Writes

variable {writes : List Operator} {symbol : Char}

theorem lastWritten_concat (writes : List Operator) (entry : Operator) (symbol : Char) :
    lastWritten (writes ++ [entry]) symbol =
      if entry.symbol = symbol then some entry.precedence else lastWritten writes symbol := by
  unfold lastWritten
  rw [List.reverse_concat, List.find?_cons]
  by_cases same : entry.symbol = symbol
  · simp [same]
  · have passed : (entry.symbol == symbol) = false := by simpa using same
    rw [passed, if_neg same]

theorem isSome_lastWritten_iff :
    (lastWritten writes symbol).isSome = true ↔ symbol ∈ writes.map Operator.symbol := by
  simp [lastWritten, List.find?_isSome]

end Writes

namespace OperatorTable

variable {table : OperatorTable} {writes : List Operator} {symbol : Char}

/-- The table that a request leads to. -/
def after (table : OperatorTable) : Request → OperatorTable
  | .define symbol precedence => table.define symbol precedence
  | .declare prototype => table.declare prototype

/-- The table that requests lead to, one after the other. -/
def afterAll (table : OperatorTable) (requests : List Request) : OperatorTable :=
  requests.foldl after table

/-- What cannot be entered lacks the symbol or the precedence of a binary operator. -/
theorem declare?_of_not_enterable {prototype : Prototype}
    (refused : ¬ prototype.Enterable) : table.declare? prototype = none := by
  have lacks : prototype.symbol? = none ∨ prototype.binaryPrecedence? = none := by
    by_cases two : prototype.isBinary = true
    · left
      simp only [Prototype.isBinary, Prototype.arity, Bool.and_eq_true, beq_iff_eq] at two
      have unnamed : prototype.name = "" := by
        by_contra named
        exact refused ⟨two.1, two.2, named⟩
      simp [Prototype.symbol?, unnamed]
    · right
      simp [Prototype.binaryPrecedence?, two]
  unfold declare?
  rcases lacks with none | none <;> rw [none]
  cases prototype.symbol? <;> rfl

theorem declare?_of_enterable {prototype : Prototype} (enterable : prototype.Enterable)
    (last : prototype.name.toList.getLast? = some symbol) :
    table.declare? prototype =
      some (table.define symbol (Int32.ofNat prototype.precedence.toNat)) := by
  obtain ⟨operator, two, -⟩ := enterable
  have named : prototype.symbol? = some symbol := by
    simp [Prototype.symbol?, operator, last]
  have binary : prototype.binaryPrecedence? = some prototype.precedence := by
    simp [Prototype.binaryPrecedence?, Prototype.isBinary, Prototype.arity, operator, two]
  have wrapped : prototype.precedence.toInt32 = Int32.ofNat prototype.precedence.toNat := by
    rw [← UInt32.toInt32_ofNat', UInt32.ofNat_toNat]
  rw [declare?, named, binary, ← wrapped]

/-- Entering a prototype is writing its entry, if it has one. -/
theorem declare?_eq (table : OperatorTable) (prototype : Prototype) :
    table.declare? prototype =
      (Request.declare prototype).write?.map fun entry =>
        table.define entry.symbol entry.precedence := by
  unfold Request.write?
  by_cases enterable : prototype.Enterable
  · obtain ⟨symbol, last⟩ := enterable.exists_last
    rw [declare?_of_enterable enterable last]
    simp [enterable, last]
  · rw [declare?_of_not_enterable enterable]
    simp [enterable]

theorem after_eq (table : OperatorTable) (request : Request) :
    table.after request = table.defineAll request.write?.toList := by
  cases request with
  | define symbol precedence => rfl
  | declare prototype =>
    change (table.declare? prototype).getD table = _
    rw [declare?_eq]
    cases (Request.declare prototype).write? <;> rfl

theorem afterAll_eq (table : OperatorTable) (requests : List Request) :
    table.afterAll requests = table.defineAll (requests.filterMap Request.write?) := by
  induction requests generalizing table with
  | nil => rfl
  | cons request requests hypothesis =>
    change (table.after request).afterAll requests = _
    rw [hypothesis, after_eq, ← defineAll_append]
    cases written : request.write? <;> simp [written]

/-- For each symbol the last write counts. -/
theorem get?_defineAll (writes : List Operator) (symbol : Char) :
    (empty.defineAll writes).get? symbol = lastWritten writes symbol := by
  induction writes using List.reverseRecOn with
  | nil => rfl
  | append_singleton writes entry hypothesis =>
    have last : empty.defineAll (writes ++ [entry]) =
        (empty.defineAll writes).define entry.symbol entry.precedence :=
      defineAll_append empty writes [entry]
    rw [last, lastWritten_concat]
    by_cases same : entry.symbol = symbol
    · rw [if_pos same, ← same, get?_define]
    · rw [if_neg same, get?_define_of_ne _ same, hypothesis]

theorem contains_defineAll (writes : List Operator) (symbol : Char) :
    (empty.defineAll writes).contains symbol = true ↔ symbol ∈ writes.map Operator.symbol := by
  rw [contains, get?_defineAll, isSome_lastWritten_iff]

theorem nodup_symbols (table : OperatorTable) : (table.entries.map Operator.symbol).Nodup :=
  List.pairwise_map.2 table.distinct

/-- A table has one entry for every symbol that was written. -/
theorem size_defineAll (writes : List Operator) :
    (empty.defineAll writes).size = (writes.map Operator.symbol).toFinset.card := by
  have written : ((empty.defineAll writes).entries.map Operator.symbol).toFinset =
      (writes.map Operator.symbol).toFinset := by
    ext symbol
    rw [List.mem_toFinset, List.mem_toFinset, ← contains_defineAll writes, contains_iff,
      List.mem_map]
    constructor
    · rintro ⟨entry, inside, rfl⟩
      exact ⟨entry.precedence, inside⟩
    · rintro ⟨precedence, inside⟩
      exact ⟨_, inside, rfl⟩
  rw [← written, List.toFinset_card_of_nodup (nodup_symbols _), List.length_map, size]

theorem mem_entries_defineAll (writes : List Operator) (entry : Operator) :
    entry ∈ (empty.defineAll writes).entries ↔
      lastWritten writes entry.symbol = some entry.precedence := by
  rw [mem_entries_iff, get?_defineAll]

theorem ext_entries {other : OperatorTable} (same : table.entries = other.entries) :
    table = other := by
  cases table
  cases other
  cases same
  rfl

/-- Tables list the same entries exactly if the same writes count. -/
theorem entries_defineAll_eq_iff (writes others : List Operator) :
    (empty.defineAll writes).entries = (empty.defineAll others).entries ↔
      ∀ symbol, lastWritten writes symbol = lastWritten others symbol := by
  simp only [← get?_defineAll]
  constructor
  · intro same symbol
    rw [ext_entries same]
  · intro alike
    rw [ext_get? alike]

end OperatorTable

/-- The tables to start from: without operators, or with those of the language. -/
inductive Origin where
  | bare
  | builtin

namespace Origin

def table : Origin → OperatorTable
  | bare => .empty
  | builtin => .builtin

/-- What counts as written at the start. -/
def writes : Origin → List Operator
  | bare => []
  | builtin => OperatorTable.builtinOperators

theorem table_eq (origin : Origin) :
    origin.table = OperatorTable.empty.defineAll origin.writes := by
  cases origin <;> rfl

/-- Everything written from the start on. -/
def history (origin : Origin) (requests : List Request) : List Operator :=
  origin.writes ++ requests.filterMap Request.write?

theorem afterAll_table (origin : Origin) (requests : List Request) :
    origin.table.afterAll requests = OperatorTable.empty.defineAll (origin.history requests) := by
  rw [OperatorTable.afterAll_eq, table_eq, history, OperatorTable.defineAll_append]

end Origin

namespace OperatorTable

/-- What an attempt to enter a prototype comes to: the write of its entry, or nothing. -/
theorem declare?_cases (table : OperatorTable) (prototype : Prototype) :
    match table.declare? prototype with
    | some grown => prototype.Enterable ∧ table.declare prototype = grown ∧
        ∃ symbol, prototype.name.toList.getLast? = some symbol ∧
          grown = table.define symbol (Int32.ofNat prototype.precedence.toNat)
    | none => ¬ prototype.Enterable ∧ table.declare prototype = table := by
  by_cases enterable : prototype.Enterable
  · obtain ⟨symbol, last⟩ := enterable.exists_last
    simp only [declare, declare?_of_enterable enterable last]
    exact ⟨enterable, rfl, symbol, last, rfl⟩
  · simp only [declare, declare?_of_not_enterable enterable]
    exact ⟨enterable, rfl⟩

/-- A table is a map in which the last write for a symbol counts, however many requests there were
and in whatever order. The precedence of a symbol is what was written last for it, if that is
positive; a table contains the symbols that were ever written, and no other; a prototype is entered
exactly if it is an operator of two operands with a name, and else leaves the table as it was. The
entries list every symbol that was written once, with what was written last for it, loosest first
and symbols that bind alike in their order; so they tell what counts, and nothing more. -/
theorem last_write_wins (origin : Origin) (requests : List Request) :
    let table := origin.table.afterAll requests
    let writes := origin.history requests
    (∀ symbol, table.precedence symbol =
      match lastWritten writes symbol with
      | some precedence => if 0 < precedence then precedence else -1
      | none => -1) ∧
    (∀ symbol, table.contains symbol = true ↔ symbol ∈ writes.map Operator.symbol) ∧
    table.size = (writes.map Operator.symbol).toFinset.card ∧
    (∀ prototype, match table.declare? prototype with
      | some grown => prototype.Enterable ∧ table.declare prototype = grown ∧
          ∃ symbol, prototype.name.toList.getLast? = some symbol ∧
            grown = table.define symbol (Int32.ofNat prototype.precedence.toNat)
      | none => ¬ prototype.Enterable ∧ table.declare prototype = table) ∧
    (∀ entry, entry ∈ table.entries ↔
      lastWritten writes entry.symbol = some entry.precedence) ∧
    (table.entries.map Operator.symbol).Nodup ∧ table.entries.Pairwise Operator.before ∧
    ∀ (otherOrigin : Origin) (otherRequests : List Request),
      let other := otherOrigin.table.afterAll otherRequests
      (table.entries = other.entries ↔ ∀ symbol,
        lastWritten writes symbol = lastWritten (otherOrigin.history otherRequests) symbol) ∧
      (table = other ↔ table.entries = other.entries) := by
  intro table writes
  have built : table = empty.defineAll writes := origin.afterAll_table requests
  refine ⟨?_, ?_, ?_, table.declare?_cases, ?_, table.nodup_symbols, table.ordered, ?_⟩
  · intro symbol
    rw [built, precedence, get?_defineAll]
    rfl
  · intro symbol
    rw [built]
    exact contains_defineAll writes symbol
  · rw [built]
    exact size_defineAll writes
  · intro entry
    rw [built]
    exact mem_entries_defineAll writes entry
  · intro otherOrigin otherRequests other
    have matching : other = empty.defineAll (otherOrigin.history otherRequests) :=
      otherOrigin.afterAll_table otherRequests
    refine ⟨?_, congrArg entries, ext_entries⟩
    rw [built, matching]
    exact entries_defineAll_eq_iff writes _

-- A precedence of 32 bits without a sign can wrap around to a negative one: the symbol is then in
-- the table and no operator.
example :
    let table := Origin.builtin.table.afterAll
      [.define '<' 50, .declare (.binary '+' ["x", "y"] 4294967295), .declare (.unary '*' ["x"])]
    table.entries = [⟨'+', -1⟩, ⟨'=', 2⟩, ⟨'-', 30⟩, ⟨'*', 40⟩, ⟨'<', 50⟩] ∧
      table.contains '+' = true ∧ table.precedence '+' = -1 := by
  decide

end OperatorTable

end Kaleidoscope
