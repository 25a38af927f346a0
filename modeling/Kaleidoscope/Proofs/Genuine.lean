import Kaleidoscope.Proofs.Spelling

set_option autoImplicit false

namespace Kaleidoscope

namespace Number

/-- A number that is not negative, and not the value that is no number. -/
def Unsigned (value : Number) : Prop :=
  value ≠ .nan ∧ value.isNegative = false

theorem unsigned_signed (magnitude : Magnitude) : (signed false magnitude).Unsigned :=
  ⟨Number.noConfusion, rfl⟩

theorem Unsigned.exists_eq {value : Number} (unsigned : value.Unsigned) :
    ∃ magnitude, value = .signed false magnitude := by
  cases value with
  | nan => exact absurd rfl unsigned.1
  | signed negative magnitude =>
    have positive : negative = false := unsigned.2
    exact ⟨magnitude, by rw [positive]⟩

end Number

section Numerals

open Text

variable {row : List Char} {seen : Bool}

theorem mem_of_mem_beforeSecondPoint {c : Char} (inside : c ∈ beforeSecondPoint seen row) :
    c ∈ row := by
  induction row generalizing seen with
  | nil => exact inside
  | cons first rest hypothesis =>
    have behind : ∀ seen, c ∈ first :: beforeSecondPoint seen rest → c ∈ first :: rest := by
      intro seen inside
      rcases List.mem_cons.1 inside with rfl | inside
      · exact List.mem_cons_self
      · exact List.mem_cons_of_mem _ (hypothesis inside)
    unfold beforeSecondPoint at inside
    split at inside
    · split at inside
      · cases inside
      · exact behind true inside
    · exact behind seen inside

theorem readSign_of_isNumeral (inside : ∀ c ∈ row, isNumeral c = true) :
    readSign row = (false, row) := by
  cases row with
  | nil => rfl
  | cons first rest =>
    have numeral := inside first List.mem_cons_self
    unfold readSign
    split
    next same =>
      obtain ⟨rfl, -⟩ := List.cons.inj same
      cases numeral
    next same =>
      obtain ⟨rfl, -⟩ := List.cons.inj same
      cases numeral
    next => rfl

theorem toLower_of_isNumeral {c : Char} (numeral : isNumeral c = true) : c.toLower = c := by
  have small : c.isUpper = false := by
    have letter := not_isAlpha_of_isNumeral numeral
    simp only [Char.isAlpha, Bool.or_eq_false_iff] at letter
    exact letter.1
  simp only [Char.isUpper, decide_eq_false_iff_not] at small
  simp only [Char.toLower, small, ↓reduceDIte]

/-- Among digits and points no sign, no word and no exponent can stand. -/
theorem Number.ofCharacters?_of_isNumeral (inside : ∀ c ∈ row, isNumeral c = true) :
    Number.ofCharacters? row =
      (Decimal.ofCharacters? row).map fun decimal => .signed false decimal.nearest := by
  have lower : row.map Char.toLower = row := by
    rw [List.map_congr_left fun c there => toLower_of_isNumeral (inside c there), List.map_id']
  have plain (word : List Char) (start : 'n' ∈ word) : row ≠ word := by
    rintro rfl
    exact absurd (inside 'n' start) (by decide)
  have infinite : ¬ (row = "inf".toList ∨ row = "infinity".toList) :=
    not_or.2 ⟨plain _ (by decide), plain _ (by decide)⟩
  have number : row ≠ "nan".toList := plain _ (by decide)
  simp only [Number.ofCharacters?, readSign_of_isNumeral inside, lower, infinite, number,
    ↓reduceIte]

/-- The value of a numeral has no sign. -/
theorem Number.unsigned_ofNumeral (inside : ∀ c ∈ row, isNumeral c = true) :
    (Number.ofNumeral row).Unsigned := by
  have cut : ∀ c ∈ beforeSecondPoint false row, isNumeral c = true :=
    fun c there => inside c (mem_of_mem_beforeSecondPoint there)
  unfold Number.ofNumeral
  rw [ofCharacters?_of_isNumeral cut]
  cases Decimal.ofCharacters? (beforeSecondPoint false row) <;> exact unsigned_signed _

end Numerals

namespace Token.Kind

open Text

/-- What the lexer can make of a text. -/
def Genuine : Token.Kind → Prop
  | endOfInput => False
  | number value => value.Unsigned
  | kind => kind.Lexable

theorem Genuine.ne_endOfInput {kind : Token.Kind} (genuine : kind.Genuine) :
    kind ≠ .endOfInput := by
  rintro rfl
  exact genuine

/-- The lexer can make every token of the row. -/
def AllGenuine (row : List Token.Kind) : Prop :=
  ∀ kind ∈ row, kind.Genuine

@[simp]
theorem allGenuine_cons (kind : Token.Kind) (row : List Token.Kind) :
    AllGenuine (kind :: row) ↔ kind.Genuine ∧ AllGenuine row :=
  List.forall_mem_cons

@[simp]
theorem allGenuine_append (row more : List Token.Kind) :
    AllGenuine (row ++ more) ↔ AllGenuine row ∧ AllGenuine more :=
  List.forall_mem_append

theorem genuine_ofWord {word : List Char} (regular : isWord word = true) :
    (ofWord (String.ofList word)).Genuine := by
  unfold ofWord
  cases found : Keyword.ofSpelling? (String.ofList word) with
  | some reserved => exact trivial
  | none =>
    show isName (String.ofList word) = true
    simp only [Keyword.ofSpelling?, List.find?_eq_none, beq_iff_eq] at found
    simpa [isName, regular] using found

/-- Where a token starts, a genuine one is cut off the front of the row. -/
theorem genuine_of_read? {row word : List Char} {kind : Token.Kind}
    (solid : ∀ c ∈ row.head?, isSolid c = true) (read : read? row = some (kind, word)) :
    kind.Genuine := by
  obtain ⟨c, rest, rfl, started⟩ := exists_readFrom read
  cases started with
  | word letter =>
    apply genuine_ofWord
    simp [isWord, letter, isAlphanum_of_isAlpha letter]
  | numeral numeral =>
    exact Number.unsigned_ofNumeral fun c inside => List.mem_takeWhile_imp inside
  | symbol other strange =>
    have solid := solid c rfl
    simp only [isSolid, Bool.and_eq_true] at solid
    show isSymbol c = true
    simp [isSymbol, other, strange, solid]

end Token.Kind

namespace Lexer

open Text

variable {lexer : Lexer} {row : List Char}

theorem Gives.genuine {pending : List (List Char)} {result : Token × Lexer}
    (gives : lexer.Gives pending result) (more : result.1.isEnd = false) :
    result.1.kind.Genuine := by
  induction gives with
  | cut ahead solid found => exact Token.Kind.genuine_of_read? solid found
  | line gives hypothesis => exact hypothesis more
  | ended used => cases more

theorem takeTokens_genuine (settled : lexer.Settled) (count : Nat) :
    ∀ token ∈ (lexer.takeTokens count).1, token.kind.Genuine := by
  induction count generalizing lexer with
  | zero => simp [takeTokens]
  | succ count hypothesis =>
    unfold takeTokens
    by_cases ended : lexer.next.1.isEnd = true
    · simp [ended]
    · simp only [ended, Bool.false_eq_true, ↓reduceIte, List.forall_mem_cons]
      exact ⟨settled.gives.genuine (Bool.eq_false_iff.2 ended), hypothesis settled.next⟩

end Lexer

namespace TokenStream

/-- All tokens ahead are tokens that a lexer can give. -/
def Genuine (stream : TokenStream) : Prop :=
  ∀ token ∈ stream.ahead, token.kind.Genuine

/-- The tokens of an input are genuine, whatever its lines are. -/
theorem genuine_ofLexer (input : Input) (source : Option String) :
    (ofLexer (.ofInput input source)).Genuine := by
  unfold Genuine ofLexer
  exact Lexer.takeTokens_genuine (Lexer.settled_ofInput input source) _

end TokenStream

end Kaleidoscope
