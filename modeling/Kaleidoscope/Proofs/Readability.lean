import Kaleidoscope.Proofs.Numerals
import Kaleidoscope.Proofs.Vocabulary

set_option autoImplicit false

/- Nothing is escaped, and an operator may itself be a parenthesis. But an operator stands only at
the front of a list, where no part can stand, so what follows a written form in a row can be told
from it. -/

namespace Kaleidoscope

/-- All words that a lexer can give, with finite numbers. -/
def Vocabulary.finite : Vocabulary where
  name word := Text.isName word = true
  number value := value.Unsigned ∧ value.isFinite = true
  unary symbol := Text.isSymbol symbol = true
  binary symbol := Text.isSymbol symbol = true

namespace Text

/-- What ends a part of a list: the end of the row, a space or a closing parenthesis. -/
def Ends (row : List Char) : Prop :=
  ∀ c ∈ row.head?, c = ' ' ∨ c = ')'

theorem ends_nil : Ends [] := by
  simp [Ends]

theorem ends_space (row : List Char) : Ends (' ' :: row) := by
  simp [Ends]

theorem ends_closing (row : List Char) : Ends (')' :: row) := by
  simp [Ends]

variable {first second row other : List Char}

theorem append_inj_of_test {test : Char → Bool} (inside : ∀ c ∈ first, test c = true)
    (within : ∀ c ∈ second, test c = true) (stops : ∀ c ∈ row.head?, test c = false)
    (ends : ∀ c ∈ other.head?, test c = false) (same : first ++ row = second ++ other) :
    first = second ∧ row = other := by
  have word : first = second := by
    rw [← takeWhile_append_of_head inside stops, same, takeWhile_append_of_head within ends]
  subst word
  exact ⟨rfl, List.append_cancel_left same⟩

section Writing

variable {α : Type} {write : α → List Char} {known : α → Prop}

/-- Where the item is written in front of a row that ends a part, no other known item can be. -/
def Readable (write : α → List Char) (known : α → Prop) (item : α) : Prop :=
  ∀ other, known other → ∀ row rest, Ends row → Ends rest →
    write item ++ row = write other ++ rest → item = other ∧ row = rest

/-- All items with a space in front of each. -/
def spacedOut (write : α → List Char) (items : List α) : List Char :=
  items.flatMap (' ' :: write ·)

@[simp]
theorem spacedOut_nil : spacedOut write [] = [] := rfl

@[simp]
theorem spacedOut_cons (item : α) (items : List α) :
    spacedOut write (item :: items) = ' ' :: write item ++ spacedOut write items := rfl

theorem ends_spacedOut (items : List α) (row : List Char) :
    Ends (spacedOut write items ++ ')' :: row) := by
  cases items with
  | nil => exact ends_closing row
  | cons item items => exact ends_space _

/-- Items that are readable one by one are readable in a list that is closed. -/
theorem spacedOut_inj {items others : List α} {row rest : List Char}
    (readable : ∀ item ∈ items, Readable write known item) (among : ∀ item ∈ others, known item)
    (same : spacedOut write items ++ ')' :: row = spacedOut write others ++ ')' :: rest) :
    items = others ∧ row = rest := by
  induction items generalizing others with
  | nil =>
    cases others with
    | nil => exact ⟨rfl, (List.cons.inj same).2⟩
    | cons other others => exact absurd (List.cons.inj same).1 (by decide)
  | cons item items hypothesis =>
    cases others with
    | nil => exact absurd (List.cons.inj same).1 (by decide)
    | cons other others =>
      obtain ⟨alone, each⟩ := List.forall_mem_cons.1 readable
      obtain ⟨one, all⟩ := List.forall_mem_cons.1 among
      simp only [spacedOut_cons, List.cons_append, List.append_assoc, List.cons.injEq, true_and]
        at same
      obtain ⟨rfl, behind⟩ := alone other one _ _ (ends_spacedOut items row)
        (ends_spacedOut others rest) same
      obtain ⟨rfl, last⟩ := hypothesis each all behind
      exact ⟨rfl, last⟩

end Writing

theorem Ends.head_eq_false {test : Char → Bool} (ends : Ends row) (space : test ' ' = false)
    (closing : test ')' = false) : ∀ c ∈ row.head?, test c = false := by
  intro c first
  rcases ends c first with rfl | rfl
  · exact space
  · exact closing

theorem readable_name {name : String} (known : isName name = true) :
    Readable String.toList (fun name => isName name = true) name := by
  intro other among row rest ends stops same
  obtain ⟨word, behind⟩ := append_inj_of_test (isAlphanum_of_isWord (isWord_of_isName known))
    (isAlphanum_of_isWord (isWord_of_isName among)) (ends.head_eq_false rfl rfl)
    (stops.head_eq_false rfl rfl) same
  exact ⟨String.toList_inj.1 word, behind⟩

end Text

namespace Expr

open Text

/-- The characters of the written form. -/
def characters (e : Expr) : List Char :=
  e.text.toList

/-- The characters of a binding. -/
def bindingCharacters (binding : String × Option Expr) : List Char :=
  ['('] ++ binding.1.toList ++ spacedOut characters binding.2.toList ++ [')']

theorem toList_textEach (given : List Expr) :
    (textEach given).toList = spacedOut characters given := by
  induction given with
  | nil => rfl
  | cons x given hypothesis => simp [textEach, characters, hypothesis]

theorem toList_textOptional (value : Option Expr) :
    (textOptional value).toList = spacedOut characters value.toList := by
  cases value with
  | none => rfl
  | some x => simp [textOptional, characters]

theorem toList_textBindings (binding : String × Option Expr) (bound : List (String × Option Expr)) :
    (textBindings (binding :: bound)).toList =
      bindingCharacters binding ++ spacedOut bindingCharacters bound := by
  induction bound generalizing binding with
  | nil => simp [textBindings, bindingCharacters, toList_textOptional]
  | cons next bound hypothesis =>
    rw [textBindings]
    simp [hypothesis, bindingCharacters, toList_textOptional]

theorem characters_unary (symbol : Char) (operand : Expr) :
    (unary symbol operand).characters =
      ['(', 'u', 'n', 'a', 'r', 'y', symbol] ++ spacedOut characters [operand] ++ [')'] := by
  simp [characters, text]

theorem characters_binary (symbol : Char) (left right : Expr) :
    (binary symbol left right).characters =
      ['(', symbol] ++ spacedOut characters [left, right] ++ [')'] := by
  simp [characters, text]

theorem characters_call (callee : String) (given : List Expr) :
    (call callee given).characters =
      ['(', 'c', 'a', 'l', 'l', ' '] ++ callee.toList ++ spacedOut characters given ++ [')'] := by
  simp [characters, text, toList_textEach]

theorem characters_conditional (condition consequent alternative : Expr) :
    (conditional condition consequent alternative).characters =
      ['(', 'i', 'f'] ++ spacedOut characters [condition, consequent, alternative] ++ [')'] := by
  simp [characters, text]

theorem characters_loop (counter : String) (start stop : Expr) (step : Option Expr) (body : Expr) :
    (loop counter start stop step body).characters =
      ['(', 'f', 'o', 'r', ' '] ++ counter.toList ++
        spacedOut characters (start :: stop :: (step.toList ++ [body])) ++ [')'] := by
  cases step <;> simp [characters, text, textOptional]

theorem characters_scope (binding : String × Option Expr) (bound : List (String × Option Expr))
    (body : Expr) :
    (scope (binding :: bound) body).characters =
      ['(', 'v', 'a', 'r', ' ', '('] ++ bindingCharacters binding ++
        spacedOut bindingCharacters bound ++ ')' :: spacedOut characters [body] ++ [')'] := by
  simp [characters, text, toList_textBindings]

theorem characters_number (value : Number) : (number value).characters = value.characters := by
  simp [characters, text, Number.text]

theorem characters_reference (name : String) : (reference name).characters = name.toList := rfl

/-- What the front of a written form tells of the expression. -/
inductive Shape where
  | number
  | reference
  | unary (symbol : Char)
  | binary (symbol : Char)
  | call
  | conditional
  | loop
  | scope

def shape : Expr → Shape
  | number _ => .number
  | reference _ => .reference
  | unary symbol _ => .unary symbol
  | binary symbol _ _ => .binary symbol
  | call _ _ => .call
  | conditional _ _ _ => .conditional
  | loop _ _ _ _ _ => .loop
  | scope _ _ => .scope

namespace Shape

/-- The shape of a list, by its first word. -/
def ofWord : List Char → Shape
  | [symbol] => binary symbol
  | ['u', 'n', 'a', 'r', 'y', symbol] => unary symbol
  | ['c', 'a', 'l', 'l'] => call
  | ['i', 'f'] => conditional
  | ['f', 'o', 'r'] => loop
  | _ => scope

/-- The shape of a row that starts with a written form. -/
def ofRow : List Char → Shape
  | [] => number
  | c :: row =>
    if c = '(' then ofWord (row.takeWhile (· != ' '))
    else if c.isAlpha then reference
    else number

theorem ofRow_list {word : List Char} (solid : ' ' ∉ word) (row : List Char) :
    ofRow ('(' :: word ++ ' ' :: row) = ofWord word := by
  have inside : ∀ c ∈ word, (c != ' ') = true := by
    intro c there
    simpa using fun space : c = ' ' => solid (space ▸ there)
  show ofWord ((word ++ ' ' :: row).takeWhile (· != ' ')) = _
  rw [takeWhile_append_of_head inside (by simp)]

theorem ofRow_word {c : Char} (plain : c ≠ '(') (row : List Char) :
    ofRow (c :: row) = if c.isAlpha then reference else number := by
  simp [ofRow, plain]

end Shape

/-- The front of a written form tells its shape, whatever follows it. -/
theorem ofRow_characters {e : Expr} (within : e.Within .finite) (row : List Char) :
    Shape.ofRow (e.characters ++ row) = e.shape := by
  have solid {symbol : Char} (known : isSymbol symbol = true) : ' ' ≠ symbol := by
    rintro rfl
    exact absurd known (by decide)
  cases within with
  | @number value known =>
    obtain ⟨filled, numerals, -⟩ := Number.spells_characters known.1 known.2
    obtain ⟨c, rest, row⟩ := List.exists_cons_of_ne_nil filled
    have numeral : isNumeral c = true := List.all_eq_true.1 numerals c (by simp [row])
    rw [characters_number, row, List.cons_append, Shape.ofRow_word (by rintro rfl; cases numeral)]
    simp [not_isAlpha_of_isNumeral numeral, shape]
  | @reference name known =>
    have word := isWord_of_isName known
    rw [characters_reference]
    cases letters : name.toList with
    | nil => simp [letters, isWord] at word
    | cons c rest =>
      have letter : c.isAlpha = true := by
        rw [letters] at word
        exact (Bool.and_eq_true_iff.1 word).1
      rw [List.cons_append, Shape.ofRow_word (by rintro rfl; cases letter)]
      simp [letter, shape]
  | @unary symbol operand known inside =>
    have word : ' ' ∉ ['u', 'n', 'a', 'r', 'y', symbol] := by simp [solid known]
    rw [characters_unary]
    exact Shape.ofRow_list word _
  | @binary symbol left right known before behind =>
    have word : ' ' ∉ [symbol] := by simp [solid known]
    rw [characters_binary]
    exact Shape.ofRow_list word _
  | @call callee given known inside =>
    have word : ' ' ∉ ['c', 'a', 'l', 'l'] := by decide
    rw [characters_call]
    exact Shape.ofRow_list word _
  | @conditional condition consequent alternative tested chosen otherwise =>
    have word : ' ' ∉ ['i', 'f'] := by decide
    rw [characters_conditional]
    exact Shape.ofRow_list word _
  | @loop counter start stop body step known begins ends steps repeated =>
    have word : ' ' ∉ ['f', 'o', 'r'] := by decide
    rw [characters_loop]
    exact Shape.ofRow_list word _
  | @scope bound body some known initial inside =>
    have word : ' ' ∉ ['v', 'a', 'r'] := by decide
    obtain ⟨binding, bound, rfl⟩ := List.exists_cons_of_ne_nil some
    rw [characters_scope]
    exact Shape.ofRow_list word _

theorem shape_eq {e other : Expr} {row rest : List Char} (within : e.Within .finite)
    (among : other.Within .finite) (same : e.characters ++ row = other.characters ++ rest) :
    e.shape = other.shape := by
  rw [← ofRow_characters within row, same, ofRow_characters among]

section Lists

variable {head row rest : List Char} {given others : List Expr} {name other : String}

theorem parts_inj (readable : ∀ x ∈ given, Readable characters (Within .finite) x)
    (among : ∀ x ∈ others, Within .finite x)
    (same : head ++ spacedOut characters given ++ [')'] ++ row =
      head ++ spacedOut characters others ++ [')'] ++ rest) :
    given = others ∧ row = rest := by
  simp only [List.append_assoc, List.append_cancel_left_eq] at same
  exact spacedOut_inj readable among same

/-- The same for a list that has a name behind its head. -/
theorem named_parts_inj (known : isName name = true) (alike : isName other = true)
    (readable : ∀ x ∈ given, Readable characters (Within .finite) x)
    (among : ∀ x ∈ others, Within .finite x)
    (same : head ++ name.toList ++ spacedOut characters given ++ [')'] ++ row =
      head ++ other.toList ++ spacedOut characters others ++ [')'] ++ rest) :
    name = other ∧ given = others ∧ row = rest := by
  simp only [List.append_assoc, List.append_cancel_left_eq] at same
  obtain ⟨rfl, behind⟩ := readable_name known other alike _ _ (ends_spacedOut given row)
    (ends_spacedOut others rest) same
  exact ⟨rfl, spacedOut_inj readable among behind⟩

end Lists

theorem eq_of_toList_eq {value other : Option Expr} (same : value.toList = other.toList) :
    value = other := by
  cases value <;> cases other <;> simp_all

/-- A binding that can be read: its name and its initial value can. -/
def Bindable (binding : String × Option Expr) : Prop :=
  isName binding.1 = true ∧ ∀ x ∈ binding.2, Within .finite x

theorem readable_binding {binding : String × Option Expr} (known : isName binding.1 = true)
    (initial : ∀ x ∈ binding.2, Readable characters (Within .finite) x) :
    Readable bindingCharacters Bindable binding := by
  intro other among row rest _ _ same
  unfold bindingCharacters at same
  obtain ⟨name, values, behind⟩ := named_parts_inj known among.1
    (fun x inside => initial x (Option.mem_toList.1 inside))
    (fun x inside => among.2 x (Option.mem_toList.1 inside)) same
  exact ⟨Prod.ext name (eq_of_toList_eq values), behind⟩

theorem loop_inj {counter other : String} {start stop body first second last : Expr}
    {step third : Option Expr} {row rest : List Char} (known : isName counter = true)
    (alike : isName other = true)
    (readable : ∀ x ∈ start :: stop :: (step.toList ++ [body]),
      Readable characters (Within .finite) x)
    (among : ∀ x ∈ first :: second :: (third.toList ++ [last]), Within .finite x)
    (same : (loop counter start stop step body).characters ++ row =
      (loop other first second third last).characters ++ rest) :
    loop counter start stop step body = loop other first second third last ∧ row = rest := by
  rw [characters_loop, characters_loop] at same
  obtain ⟨rfl, parts, behind⟩ := named_parts_inj known alike readable among same
  simp only [List.cons.injEq] at parts
  obtain ⟨rfl, rfl, tail⟩ := parts
  obtain ⟨middle, final⟩ := List.append_inj' tail rfl
  cases eq_of_toList_eq middle
  cases final
  exact ⟨rfl, behind⟩

theorem scope_inj {bound others : List (String × Option Expr)} {body last : Expr}
    {row rest : List Char} (some : bound ≠ []) (present : others ≠ [])
    (told : ∀ binding ∈ bound, Readable bindingCharacters Bindable binding)
    (bindable : ∀ binding ∈ others, Bindable binding)
    (readable : Readable characters (Within .finite) body) (within : last.Within .finite)
    (same : (scope bound body).characters ++ row = (scope others last).characters ++ rest) :
    scope bound body = scope others last ∧ row = rest := by
  obtain ⟨binding, bound, rfl⟩ := List.exists_cons_of_ne_nil some
  obtain ⟨next, others, rfl⟩ := List.exists_cons_of_ne_nil present
  rw [List.forall_mem_cons] at told bindable
  rw [characters_scope, characters_scope] at same
  simp only [List.append_assoc, List.append_cancel_left_eq] at same
  obtain ⟨rfl, behind⟩ := told.1 next bindable.1 _ _ (ends_spacedOut bound _)
    (ends_spacedOut others _) same
  obtain ⟨rfl, further⟩ := spacedOut_inj told.2 bindable.2 behind
  obtain ⟨parts, finished⟩ := spacedOut_inj (List.forall_mem_singleton.2 readable)
    (List.forall_mem_singleton.2 within) further
  cases parts
  exact ⟨rfl, finished⟩

/-- Every expression can be told from what follows it. The induction is on the expression; the
shapes leave one case for the other expression, which is then taken apart the same way. -/
theorem Within.readable {e : Expr} (within : e.Within .finite) :
    Readable characters (Within .finite) e := by
  induction within with
  | number known =>
    intro other among row rest ends stops same
    have shapes := shape_eq (.number known) among same
    cases among with
    | number alike =>
      obtain ⟨-, numerals, value⟩ := Number.spells_characters known.1 known.2
      obtain ⟨-, others, further⟩ := Number.spells_characters alike.1 alike.2
      rw [characters_number, characters_number] at same
      obtain ⟨word, behind⟩ := append_inj_of_test (List.all_eq_true.1 numerals)
        (List.all_eq_true.1 others) (ends.head_eq_false rfl rfl) (stops.head_eq_false rfl rfl) same
      rw [← value, word, further]
      exact ⟨rfl, behind⟩
    | _ => cases shapes
  | reference known =>
    intro other among row rest ends stops same
    have shapes := shape_eq (.reference known) among same
    cases among with
    | reference alike =>
      obtain ⟨rfl, behind⟩ := readable_name known _ alike row rest ends stops same
      exact ⟨rfl, behind⟩
    | _ => cases shapes
  | unary known inside readable =>
    intro other among row rest _ _ same
    have shapes := shape_eq (.unary known inside) among same
    cases among with
    | unary alike within =>
      cases shapes
      rw [characters_unary, characters_unary] at same
      obtain ⟨parts, behind⟩ := parts_inj (by simpa using readable) (by simpa using within) same
      cases parts
      exact ⟨rfl, behind⟩
    | _ => cases shapes
  | binary known before behind left right =>
    intro other among row rest _ _ same
    have shapes := shape_eq (.binary known before behind) among same
    cases among with
    | binary alike first second =>
      cases shapes
      rw [characters_binary, characters_binary] at same
      obtain ⟨parts, further⟩ := parts_inj (by simpa using ⟨left, right⟩)
        (by simpa using ⟨first, second⟩) same
      cases parts
      exact ⟨rfl, further⟩
    | _ => cases shapes
  | call known inside readable =>
    intro other among row rest _ _ same
    have shapes := shape_eq (.call known inside) among same
    cases among with
    | call alike within =>
      rw [characters_call, characters_call] at same
      obtain ⟨rfl, rfl, behind⟩ := named_parts_inj known alike readable within same
      exact ⟨rfl, behind⟩
    | _ => cases shapes
  | conditional tested chosen otherwise condition consequent alternative =>
    intro other among row rest _ _ same
    have shapes := shape_eq (.conditional tested chosen otherwise) among same
    cases among with
    | conditional first second third =>
      rw [characters_conditional, characters_conditional] at same
      obtain ⟨parts, behind⟩ := parts_inj (by simpa using ⟨condition, consequent, alternative⟩)
        (by simpa using ⟨first, second, third⟩) same
      cases parts
      exact ⟨rfl, behind⟩
    | _ => cases shapes
  | loop known begins ends steps repeated start stop step body =>
    intro other among row rest _ _ same
    have shapes := shape_eq (.loop known begins ends steps repeated) among same
    cases among with
    | loop alike starts stops optional last =>
      exact loop_inj known alike (by simpa [or_imp, forall_and] using ⟨start, stop, step, body⟩)
        (by simpa [or_imp, forall_and] using ⟨starts, stops, optional, last⟩) same
    | _ => cases shapes
  | scope some known initial inside readable last =>
    intro other among row rest _ _ same
    have shapes := shape_eq (.scope some known initial inside) among same
    cases among with
    | scope present alike values within =>
      exact scope_inj some present
        (fun binding there => readable_binding (known binding there) (readable binding there))
        (fun binding there => ⟨alike binding there, values binding there⟩) last within same
    | _ => cases shapes

end Expr

end Kaleidoscope
