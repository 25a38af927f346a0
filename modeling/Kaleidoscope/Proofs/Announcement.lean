import Kaleidoscope.Proofs.Readability
import Kaleidoscope.Toplevel.Printer

set_option autoImplicit false

/- The name of an operator's function may end in a parenthesis, and the parameters stand between
parentheses too. But a name that has a parenthesis ends in it, behind a word that is reserved, so
where one name ends in a row no other name can end. -/

namespace Kaleidoscope

namespace Prototype

open Text

/-- The prototypes of forms: those that can be read, and that of an expression. -/
def Produced (prototype : Prototype) : Prop :=
  prototype.Regular ∨ prototype = .anonymous

variable {prototype other : Prototype} {row rest : List Char}

/-- What stands behind the parameters. -/
def tail (prototype : Prototype) : List Char :=
  match prototype.binaryPrecedence? with
  | some precedence => " [precedence ".toList ++ Decimal.digits precedence.toNat ++ [']']
  | none => []

theorem toList_text (prototype : Prototype) :
    prototype.text.toList = prototype.name.toList ++
      '(' :: ([' '].intercalate (prototype.parameters.map String.toList) ++
        ')' :: prototype.tail) := by
  unfold text tail
  cases prototype.binaryPrecedence? with
  | none => simp
  | some precedence => simp [Decimal.digits]

/-- In a word with one more character behind it, a parenthesis is that character. -/
theorem eq_of_append_parenthesis {word front more : List Char} {c : Char} (plain : '(' ∉ word)
    (split : word ++ [c] = front ++ '(' :: more) : front = word := by
  rcases List.append_eq_append_iff.1 split with ⟨between, rfl, last⟩ | ⟨between, rfl, last⟩
  · cases between with
    | nil => exact List.append_nil word
    | cons d between => simp at last
  · cases between with
    | nil => exact (List.append_nil front).symm
    | cons d between =>
      obtain ⟨rfl, -⟩ := List.cons.inj last
      exact absurd (List.mem_append_right _ List.mem_cons_self) plain

/-- A name with a parenthesis in it is a reserved word up to there. -/
theorem reserved_of_parenthesis {front more : List Char} (produced : prototype.Produced)
    (split : prototype.name.toList = front ++ '(' :: more) :
    front = "unary".toList ∨ front = "binary".toList := by
  have inside : '(' ∈ prototype.name.toList := by simp [split]
  rcases produced with regular | rfl
  · cases regular with
    | function known named =>
      cases isAlphanum_of_isWord (isWord_of_isName known) '(' inside
    | @unary symbol parameter known named =>
      have shape : "unary".toList ++ [symbol] = front ++ '(' :: more := by
        rw [← split]
        simp [unary]
      exact .inl (eq_of_append_parenthesis (by decide) shape)
    | @binary symbol left right precedence known first second =>
      have shape : "binary".toList ++ [symbol] = front ++ '(' :: more := by
        rw [← split]
        simp [binary]
      exact .inr (eq_of_append_parenthesis (by decide) shape)
  · exact absurd inside (by decide)

theorem Produced.not_reserved (produced : prototype.Produced) :
    ¬ (prototype.name.toList = "unary".toList ∨ prototype.name.toList = "binary".toList) := by
  rcases produced with regular | rfl
  · cases regular with
    | @function name parameters known named =>
      have free (word : String) (reserved : isName word = false) : name.toList ≠ word.toList := by
        intro same
        rw [String.toList_inj.1 same, reserved] at known
        cases known
      exact not_or.2 ⟨free "unary" (by decide), free "binary" (by decide)⟩
    | unary known named => simp [unary]
    | binary known first second => simp [binary]
  · decide

/-- Where a name ends in front of a parenthesis, no other name does. -/
theorem name_inj (produced : prototype.Produced) (alike : other.Produced)
    (same : prototype.name.toList ++ '(' :: row = other.name.toList ++ '(' :: rest) :
    prototype.name = other.name ∧ row = rest := by
  rcases List.append_eq_append_iff.1 same with ⟨between, longer, last⟩ | ⟨between, longer, last⟩
  · cases between with
    | nil =>
      rw [List.append_nil] at longer
      exact ⟨String.toList_inj.1 longer.symm, (List.cons.inj last).2⟩
    | cons c between =>
      obtain ⟨rfl, -⟩ := List.cons.inj last
      exact absurd (reserved_of_parenthesis alike longer) produced.not_reserved
  · cases between with
    | nil =>
      rw [List.append_nil] at longer
      exact ⟨String.toList_inj.1 longer, (List.cons.inj last).2.symm⟩
    | cons c between =>
      obtain ⟨rfl, -⟩ := List.cons.inj last
      exact absurd (reserved_of_parenthesis produced longer) alike.not_reserved

theorem Produced.named (produced : prototype.Produced) :
    ∀ parameter ∈ prototype.parameters, isName parameter = true := by
  rcases produced with regular | rfl
  · cases regular with
    | function known named => exact named
    | unary known named => exact List.forall_mem_singleton.2 named
    | binary known first second => simpa [binary] using ⟨first, second⟩
  · exact List.forall_mem_nil _

theorem parameters_inj {names others : List String} (known : ∀ name ∈ names, isName name = true)
    (alike : ∀ name ∈ others, isName name = true)
    (same : [' '].intercalate (names.map String.toList) ++ ')' :: row =
      [' '].intercalate (others.map String.toList) ++ ')' :: rest) :
    names = others ∧ row = rest := by
  have spread (name : String) (names : List String) :
      [' '].intercalate ((name :: names).map String.toList) =
        name.toList ++ spacedOut String.toList names := by
    rw [List.map_cons, intercalate_cons, spacedOut, List.flatMap_map]
  have differ (name : String) (names : List String) (known : isName name = true)
      (row rest : List Char) :
      ')' :: row ≠ name.toList ++ spacedOut String.toList names ++ ')' :: rest := by
    have word := isWord_of_isName known
    intro same
    cases letters : name.toList with
    | nil => simp [letters, isWord] at word
    | cons c letters' =>
      rw [letters] at word same
      obtain ⟨rfl, -⟩ := List.cons.inj same
      cases word
  cases names with
  | nil =>
    cases others with
    | nil => exact ⟨rfl, (List.cons.inj same).2⟩
    | cons other others =>
      rw [spread] at same
      exact absurd same (differ other others (alike other List.mem_cons_self) row rest)
  | cons name names =>
    cases others with
    | nil =>
      rw [spread] at same
      exact absurd same.symm (differ name names (known name List.mem_cons_self) rest row)
    | cons other others =>
      rw [spread, spread, List.append_assoc, List.append_assoc] at same
      rw [List.forall_mem_cons] at known alike
      obtain ⟨rfl, behind⟩ := readable_name known.1 other alike.1 _ _ (ends_spacedOut names row)
        (ends_spacedOut others rest) same
      obtain ⟨rfl, last⟩ :=
        spacedOut_inj (fun name inside => readable_name (known.2 name inside)) alike.2 behind
      exact ⟨rfl, last⟩

/-- Operators are those whose name ends in a character that no word has. -/
theorem Produced.isOperator_eq (produced : prototype.Produced) :
    prototype.isOperator = prototype.name.toList.getLast?.any (!·.isAlphanum) := by
  have sign {symbol : Char} (known : isSymbol symbol = true) : symbol.isAlphanum = false := by
    simp only [isSymbol, isNumeral, Bool.and_eq_true, Bool.not_eq_true', Bool.or_eq_false_iff]
      at known
    simp [Char.isAlphanum, known]
  rcases produced with regular | rfl
  · cases regular with
    | @function name parameters known named =>
      have letters := isAlphanum_of_isWord (isWord_of_isName known)
      show false = name.toList.getLast?.any _
      cases last : name.toList.getLast? with
      | none => rfl
      | some c => simp [letters c (List.mem_of_getLast? last)]
    | unary known named => simp [unary, sign known]
    | binary known first second => simp [binary, sign known]
  · decide

theorem Produced.precedence_eq_zero (produced : prototype.Produced)
    (loose : prototype.isBinary = false) : prototype.precedence = 0 := by
  rcases produced with regular | rfl
  · cases regular with
    | function known named => rfl
    | unary known named => rfl
    | binary known first second => cases loose
  · rfl

theorem tail_inj (produced : prototype.Produced) (alike : other.Produced)
    (binary : prototype.isBinary = other.isBinary)
    (same : prototype.tail ++ row = other.tail ++ rest) :
    prototype.precedence = other.precedence ∧ row = rest := by
  unfold tail binaryPrecedence? at same
  cases tight : prototype.isBinary with
  | false =>
    rw [tight] at binary
    rw [produced.precedence_eq_zero tight, alike.precedence_eq_zero binary.symm]
    simp only [tight, ← binary, Bool.false_eq_true, ↓reduceIte, List.nil_append] at same
    exact ⟨rfl, same⟩
  | true =>
    rw [tight] at binary
    simp only [tight, ← binary, ↓reduceIte, List.append_assoc, List.append_cancel_left_eq] at same
    obtain ⟨digits, last⟩ := append_inj_of_test (fun _ => Decimal.isDigit_of_mem_digits)
      (fun _ => Decimal.isDigit_of_mem_digits) (by simp) (by simp) same
    have value : prototype.precedence.toNat = other.precedence.toNat := by
      rw [← Decimal.ofDigits_digits prototype.precedence.toNat, digits, Decimal.ofDigits_digits]
    exact ⟨UInt32.toNat_inj.1 value, (List.cons.inj last).2⟩

/-- A prototype can be told from what follows it. -/
theorem text_append_inj (produced : prototype.Produced) (alike : other.Produced)
    (same : prototype.text.toList ++ row = other.text.toList ++ rest) :
    prototype = other ∧ row = rest := by
  simp only [toList_text, List.append_assoc, List.cons_append] at same
  obtain ⟨name, behind⟩ := name_inj produced alike same
  obtain ⟨parameters, further⟩ := parameters_inj produced.named alike.named behind
  have operator : prototype.isOperator = other.isOperator := by
    rw [produced.isOperator_eq, alike.isOperator_eq, name]
  have binary : prototype.isBinary = other.isBinary := by
    rw [isBinary, isBinary, arity, arity, operator, parameters]
  obtain ⟨precedence, last⟩ := tail_inj produced alike binary further
  cases prototype
  cases other
  cases name
  cases parameters
  cases operator
  cases precedence
  exact ⟨rfl, last⟩

end Prototype

theorem Expr.eq_of_text_eq {e other : Expr} (within : e.Within .finite)
    (alike : other.Within .finite) (same : e.text = other.text) : e = other := by
  have rows : e.characters ++ [] = other.characters ++ [] := by
    rw [characters, same]
    rfl
  exact (within.readable other alike [] [] Text.ends_nil Text.ends_nil rows).1

theorem Prototype.eq_of_text_eq {prototype other : Prototype} (produced : prototype.Produced)
    (alike : other.Produced) (same : prototype.text = other.text) : prototype = other := by
  have rows : prototype.text.toList ++ [] = other.text.toList ++ [] := by rw [same]
  exact (text_append_inj produced alike rows).1

theorem Definition.eq_of_text_eq {definition other : Definition}
    (produced : definition.prototype.Produced) (within : definition.body.Within .finite)
    (alike : other.prototype.Produced) (among : other.body.Within .finite)
    (same : definition.text = other.text) : definition = other := by
  have rows := congrArg String.toList same
  simp only [text, String.toList_append, List.append_assoc, List.append_cancel_left_eq] at rows
  obtain ⟨prototype, behind⟩ := Prototype.text_append_inj produced alike rows
  rw [List.append_cancel_left_eq] at behind
  obtain ⟨body, -⟩ := within.readable other.body among _ _ (Text.ends_closing [])
    (Text.ends_closing []) behind
  cases definition
  cases other
  cases prototype
  cases body
  rfl

namespace Printer

/-- The character that tells which kind of form a first line is about. -/
def mark : Form → Char
  | .definition _ => 'f'
  | .declaration _ => ' '
  | .expression _ => 't'

theorem mark_of_announcement (form : Form) :
    (announcement form).toList[9]? = some (mark form) := by
  have carried {title : String} {c : Char} (there : title.toList[9]? = some c) (text : String) :
      (title ++ text).toList[9]? = some c := by
    obtain ⟨inside, -⟩ := List.getElem?_eq_some_iff.1 there
    rw [String.toList_append, List.getElem?_append_left inside, there]
  have definition : "Parsed a function definition: ".toList[9]? = some 'f' := by decide +kernel
  have declaration : "Parsed an extern: ".toList[9]? = some ' ' := by decide +kernel
  have expression : "Parsed a top-level expression: ".toList[9]? = some 't' := by decide +kernel
  cases form with
  | definition given => exact carried definition given.text
  | declaration prototype => exact carried declaration prototype.text
  | expression wrapped => exact carried expression wrapped.body.text

theorem eq_of_announcement_eq {form other : Form} (formed : form.WellFormed .finite)
    (alike : other.WellFormed .finite) (same : announcement form = announcement other) :
    form = other := by
  have marks : some (mark form) = some (mark other) := by
    rw [← mark_of_announcement, same, mark_of_announcement]
  cases form with
  | definition given =>
    cases other with
    | definition second =>
      have texts : given.text = second.text := String.append_right_inj _ |>.1 same
      rw [Definition.eq_of_text_eq (.inl formed.1) formed.2 (.inl alike.1) alike.2 texts]
    | declaration prototype => simp [mark] at marks
    | expression wrapped => simp [mark] at marks
  | declaration prototype =>
    cases other with
    | definition given => simp [mark] at marks
    | declaration second =>
      have texts : prototype.text = second.text := String.append_right_inj _ |>.1 same
      rw [Prototype.eq_of_text_eq (.inl formed) (.inl alike) texts]
    | expression wrapped => simp [mark] at marks
  | expression wrapped =>
    cases other with
    | definition given => simp [mark] at marks
    | declaration prototype => simp [mark] at marks
    | expression second =>
      have texts : wrapped.body.text = second.body.text := String.append_right_inj _ |>.1 same
      have bodies := Expr.eq_of_text_eq formed.2 alike.2 texts
      have prototypes : wrapped.prototype = second.prototype := formed.1.trans alike.1.symm
      cases wrapped
      cases second
      cases bodies
      cases prototypes
      rfl

/-- Forms that can be read, with finite numbers, have the same first line only if they are equal.
The written forms of expressions, prototypes and definitions are unambiguous as well, also where a
definition wraps an expression. -/
theorem announcement_unambiguous :
    Set.InjOn announcement {form | form.WellFormed .finite} ∧
    Set.InjOn Expr.text {e | e.Within .finite} ∧
    Set.InjOn Prototype.text {prototype | prototype.Produced} ∧
    Set.InjOn Definition.text
      {definition | definition.prototype.Produced ∧ definition.body.Within .finite} := by
  refine ⟨?_, ?_, ?_, ?_⟩
  · intro form formed other alike same
    exact eq_of_announcement_eq formed alike same
  · intro e within other alike same
    exact Expr.eq_of_text_eq within alike same
  · intro prototype produced other alike same
    exact Prototype.eq_of_text_eq produced alike same
  · intro definition readable other alike same
    exact Definition.eq_of_text_eq readable.1 readable.2 alike.1 alike.2 same

/-- Parentheses as operators, and the same words in another order of nesting. -/
theorem announcement_unambiguous_of_parentheses :
    let inner : Form :=
      .expression (.ofExpression (.binary '(' (.unary ')' (.reference "x")) (.call "f" [])))
    let outer : Form :=
      .expression (.ofExpression (.unary ')' (.binary '(' (.reference "x") (.call "f" []))))
    inner.WellFormed .finite ∧ outer.WellFormed .finite ∧
      announcement inner ≠ announcement outer := by
  intro inner outer
  have argument : Text.isName "x" = true := by decide
  have callee : Text.isName "f" = true := by decide
  have closing : Text.isSymbol ')' = true := by decide
  have opening : Text.isSymbol '(' = true := by decide
  have reference : (Expr.reference "x").Within .finite := .reference argument
  have call : (Expr.call "f" []).Within .finite := .call callee (by simp)
  have first : inner.WellFormed .finite :=
    ⟨rfl, .binary opening (.unary closing reference) call⟩
  have second : outer.WellFormed .finite :=
    ⟨rfl, .unary closing (.binary opening reference call)⟩
  refine ⟨first, second, fun same => ?_⟩
  have equal : inner = outer := announcement_unambiguous.1 first second same
  simp [inner, outer, Definition.ofExpression] at equal

end Printer

end Kaleidoscope
