import Kaleidoscope.Token.Settled
import Kaleidoscope.Token.Stream
import Mathlib

set_option autoImplicit false

/- A word of letters and digits and a numeral end at the space behind them, so nothing runs together
in a text that has a space between two words. -/

namespace Kaleidoscope

namespace Text

/-- Whether the character is a token by itself. -/
def isSymbol (c : Char) : Bool :=
  !c.isAlpha && !isNumeral c && !isBlank c && c != '#'

/-- Whether the characters are a letter followed by letters and digits. -/
def isWord : List Char → Bool
  | [] => false
  | c :: rest => c.isAlpha && rest.all Char.isAlphanum

/-- Whether the text is a word that is not reserved. -/
def isName (name : String) : Bool :=
  isWord name.toList && Keyword.all.all fun keyword => keyword.spelling != name

/-- The words with a space between each two of them. -/
def spaced (words : List (List Char)) : String :=
  String.ofList ([' '].intercalate words)

end Text

namespace Token.Kind

/-- The ways to write a token. A number has many: every numeral of its value. -/
def Spells (word : List Char) : Token.Kind → Prop
  | endOfInput => False
  | keyword reserved => word = reserved.spelling.toList
  | identifier name => word = name.toList
  | number value =>
    word ≠ [] ∧ word.all Text.isNumeral = true ∧ Number.ofNumeral word = value
  | symbol character => word = [character]

instance (word : List Char) : DecidablePred (Spells word)
  | endOfInput => inferInstanceAs (Decidable False)
  | keyword reserved => inferInstanceAs (Decidable (word = reserved.spelling.toList))
  | identifier name => inferInstanceAs (Decidable (word = name.toList))
  | number value => inferInstanceAs
      (Decidable (word ≠ [] ∧ word.all Text.isNumeral = true ∧ Number.ofNumeral word = value))
  | symbol character => inferInstanceAs (Decidable (word = [character]))

/-- Whether the lexer can give a token with this name or character. -/
def Lexable : Token.Kind → Prop
  | identifier name => Text.isName name = true
  | symbol character => Text.isSymbol character = true
  | _ => True

@[simp]
theorem lexable_keyword (word : Keyword) : (keyword word).Lexable := trivial

@[simp]
theorem lexable_number (value : Number) : (number value).Lexable := trivial

/-- Whether the lexer can give every token of the row. -/
def AllLexable (row : List Token.Kind) : Prop :=
  ∀ kind ∈ row, kind.Lexable

@[simp]
theorem allLexable_nil : AllLexable [] := by
  simp [AllLexable]

@[simp]
theorem allLexable_cons (kind : Token.Kind) (row : List Token.Kind) :
    AllLexable (kind :: row) ↔ kind.Lexable ∧ AllLexable row :=
  List.forall_mem_cons

@[simp]
theorem allLexable_append (row more : List Token.Kind) :
    AllLexable (row ++ more) ↔ AllLexable row ∧ AllLexable more :=
  List.forall_mem_append

end Token.Kind

namespace Text

/-- What ends a word: the end of the row, or a space. -/
def Stops (row : List Char) : Prop :=
  ∀ c ∈ row.head?, c = ' '

theorem stops_flatMap (words : List (List Char)) : Stops (words.flatMap (' ' :: ·)) := by
  cases words with
  | nil => simp [Stops]
  | cons word words => simp [Stops]

theorem takeWhile_of_stops {test : Char → Bool} {word row : List Char}
    (inside : ∀ c ∈ word, test c = true) (stops : Stops row) (outside : test ' ' = false) :
    (word ++ row).takeWhile test = word := by
  rw [List.takeWhile_append_of_pos inside]
  cases row with
  | nil => simp
  | cons c rest =>
    have space : c = ' ' := stops c (by simp)
    simp [space, outside]

/-- Words with a space between two of them are the first word and, behind it, a space and a word
each time. -/
theorem intercalate_cons (word : List Char) (words : List (List Char)) :
    [' '].intercalate (word :: words) = word ++ words.flatMap (' ' :: ·) := by
  induction words generalizing word with
  | nil => simp
  | cons next words hypothesis =>
    rw [List.intercalate_cons_cons, hypothesis]
    simp

theorem isSolid_of_test {test : Char → Bool} {c : Char} (holds : test c = true)
    (space : test ' ' = false) (tab : test '\t' = false) (back : test '\r' = false)
    (feed : test '\n' = false) (sign : test '#' = false) : isSolid c = true := by
  have differs : ∀ other, test other = false → c ≠ other := by
    rintro other fails rfl
    rw [holds] at fails
    cases fails
  simp [isSolid, isBlank, differs ' ' space, differs '\t' tab, differs '\r' back,
    differs '\n' feed, differs '#' sign]

theorem isSolid_of_isAlphanum {c : Char} (holds : c.isAlphanum = true) : isSolid c = true :=
  isSolid_of_test holds (by decide) (by decide) (by decide) (by decide) (by decide)

theorem isSolid_of_isNumeral {c : Char} (holds : isNumeral c = true) : isSolid c = true :=
  isSolid_of_test holds (by decide) (by decide) (by decide) (by decide) (by decide)

theorem isSolid_of_isSymbol {c : Char} (holds : isSymbol c = true) : isSolid c = true := by
  simp only [isSymbol, Bool.and_eq_true] at holds
  simp [isSolid, holds.1.2, holds.2]

/-- No character starts both a word and a numeral. -/
theorem not_isAlpha_of_isNumeral {c : Char} (numeral : isNumeral c = true) :
    c.isAlpha = false := by
  simp only [isNumeral, Bool.or_eq_true, beq_iff_eq] at numeral
  rcases numeral with digit | rfl
  · rw [Bool.eq_false_iff]
    intro letter
    simp only [Char.isDigit, Char.isAlpha, Char.isUpper, Char.isLower, Bool.or_eq_true,
      Bool.and_eq_true, decide_eq_true_eq, ge_iff_le, UInt32.le_iff_toNat_le] at digit letter
    change 48 ≤ c.toNat ∧ c.toNat ≤ 57 at digit
    change (65 ≤ c.toNat ∧ c.toNat ≤ 90) ∨ (97 ≤ c.toNat ∧ c.toNat ≤ 122) at letter
    omega
  · decide

theorem isAlphanum_of_isWord {word : List Char} (regular : isWord word = true) :
    ∀ c ∈ word, c.isAlphanum = true := by
  cases word with
  | nil => simp
  | cons first rest =>
    simp only [isWord, Bool.and_eq_true, List.all_eq_true] at regular
    exact List.forall_mem_cons.2 ⟨isAlphanum_of_isAlpha regular.1, regular.2⟩

theorem isWord_spelling (keyword : Keyword) : isWord keyword.spelling.toList = true := by
  cases keyword <;> decide

theorem isWord_of_isName {name : String} (regular : isName name = true) :
    isWord name.toList = true := by
  simp only [isName, Bool.and_eq_true] at regular
  exact regular.1

end Text

namespace Token.Kind

open Text

variable {kind : Token.Kind} {word row : List Char}

theorem ofWord_spelling (reserved : Keyword) : ofWord reserved.spelling = .keyword reserved := by
  cases reserved <;> rfl

theorem ofWord_of_isName {name : String} (regular : isName name = true) :
    ofWord name = .identifier name := by
  have unknown : Keyword.ofSpelling? name = none := by
    simp only [isName, Bool.and_eq_true, List.all_eq_true, bne_iff_ne] at regular
    simp only [Keyword.ofSpelling?, List.find?_eq_none, beq_iff_eq]
    exact regular.2
  simp [ofWord, unknown]

theorem read?_of_isWord (regular : isWord word = true) (stops : Stops row) :
    read? (word ++ row) = some (ofWord (String.ofList word), word) := by
  have taken : (word ++ row).takeWhile Char.isAlphanum = word :=
    takeWhile_of_stops (isAlphanum_of_isWord regular) stops (by decide)
  cases word with
  | nil => cases regular
  | cons first rest =>
    simp only [isWord, Bool.and_eq_true] at regular
    rw [List.cons_append] at taken ⊢
    simp only [read?, regular.1, ↓reduceIte, taken]

theorem read?_of_isNumeral (present : word ≠ []) (inside : ∀ c ∈ word, isNumeral c = true)
    (stops : Stops row) : read? (word ++ row) = some (.number (.ofNumeral word), word) := by
  have taken : (word ++ row).takeWhile isNumeral = word :=
    takeWhile_of_stops inside stops (by decide)
  obtain ⟨first, rest, rfl⟩ := List.exists_cons_of_ne_nil present
  have numeral : isNumeral first = true := inside first (by simp)
  rw [List.cons_append] at taken ⊢
  simp only [read?, not_isAlpha_of_isNumeral numeral, Bool.false_eq_true, ↓reduceIte, numeral,
    taken]

/-- A word is read as the token that it spells, up to the space behind it. -/
theorem read?_of_spells (lexable : kind.Lexable) (spells : kind.Spells word)
    (stops : Stops row) : read? (word ++ row) = some (kind, word) := by
  cases kind with
  | endOfInput => exact absurd spells id
  | keyword reserved =>
    have same : word = reserved.spelling.toList := spells
    rw [same, read?_of_isWord (isWord_spelling reserved) stops, String.ofList_toList,
      ofWord_spelling]
  | identifier name =>
    have same : word = name.toList := spells
    have regular : isName name = true := lexable
    rw [same, read?_of_isWord (isWord_of_isName regular) stops, String.ofList_toList,
      ofWord_of_isName regular]
  | number value =>
    obtain ⟨present, inside, rfl⟩ := spells
    exact read?_of_isNumeral present (List.all_eq_true.1 inside) stops
  | symbol character =>
    have same : word = [character] := spells
    have regular : isSymbol character = true := lexable
    simp only [isSymbol, Bool.and_eq_true, Bool.not_eq_true'] at regular
    simp [same, read?, regular.1.1.1, regular.1.1.2]

theorem isSolid_of_spells (lexable : kind.Lexable) (spells : kind.Spells word) :
    ∀ c ∈ word, isSolid c = true := by
  intro c inside
  cases kind with
  | endOfInput => exact absurd spells id
  | keyword reserved =>
    have same : word = reserved.spelling.toList := spells
    rw [same] at inside
    exact isSolid_of_isAlphanum (isAlphanum_of_isWord (isWord_spelling reserved) c inside)
  | identifier name =>
    have same : word = name.toList := spells
    rw [same] at inside
    exact isSolid_of_isAlphanum (isAlphanum_of_isWord (isWord_of_isName lexable) c inside)
  | number value => exact isSolid_of_isNumeral (List.all_eq_true.1 spells.2.1 c inside)
  | symbol character =>
    have same : word = [character] := spells
    rw [same, List.mem_singleton] at inside
    rw [inside]
    exact isSolid_of_isSymbol lexable

theorem ne_nil_of_spells (lexable : kind.Lexable) (spells : kind.Spells word) : word ≠ [] := by
  rintro rfl
  have stops : Stops [] := by simp [Stops]
  have read := read?_of_spells lexable spells stops
  simp [read?] at read

end Token.Kind

namespace Lexer

open Text

variable {lexer place : Lexer} {row word gap : List Char} {kind : Token.Kind}

/-- At most a space stands before a word, and it is passed over. -/
theorem Holds.passTrivia (holds : lexer.Holds (gap ++ (word ++ row)))
    (narrow : gap = [] ∨ gap = [' ']) (present : word ≠ [])
    (solid : ∀ c ∈ word, isSolid c = true) : lexer.passTrivia.Holds (word ++ row) := by
  obtain ⟨first, rest, rfl⟩ := List.exists_cons_of_ne_nil present
  have none : leadingTrivia false ((first :: rest) ++ row) = [] :=
    leadingTrivia_of_isSolid _ (solid first (by simp))
  have trivia : leadingTrivia false (gap ++ ((first :: rest) ++ row)) = gap := by
    rcases narrow with rfl | rfl
    · exact none
    · rw [List.singleton_append, leadingTrivia, none]
      simp [isBlank]
  rw [Lexer.passTrivia, holds.rest, trivia]
  exact holds.pass

/-- The next token is the one that the next word spells. -/
theorem nextAmong_of_spells (holds : lexer.Holds (gap ++ (word ++ row)))
    (narrow : gap = [] ∨ gap = [' ']) (stops : Stops row) (lexable : kind.Lexable)
    (spells : kind.Spells word) :
    ∃ span after, lexer.nextAmong [] = (⟨kind, span⟩, after) ∧
      after.pending = [] ∧ after.Holds row := by
  have ahead := holds.passTrivia narrow (Token.Kind.ne_nil_of_spells lexable spells)
    (Token.Kind.isSolid_of_spells lexable spells)
  have read := Token.Kind.read?_of_spells lexable spells stops
  refine ⟨⟨lexer.passTrivia.position, (lexer.passTrivia.pass word).position⟩,
    { lexer.passTrivia.pass word with pending := [] }, ?_, rfl, ahead.pass⟩
  rw [nextAmong]
  simp only [cutToken?, ahead.rest, read, Option.map_some]

/-- Behind the last word there is only the end of the input. -/
theorem nextAmong_of_holds_nil (holds : lexer.Holds []) :
    (lexer.nextAmong []).1.isEnd = true := by
  rw [nextAmong, holds.cutToken?_eq_none]
  simp

/-- One more word gives one more token. -/
theorem exists_takeTokens_of_spells (settled : lexer.Settled)
    (begins : lexer.nextAmong lexer.pending = place.nextAmong [])
    (holds : place.Holds (gap ++ (word ++ row))) (narrow : gap = [] ∨ gap = [' '])
    (stops : Stops row) (lexable : kind.Lexable) (spells : kind.Spells word) :
    ∃ after : Lexer, after.Settled ∧ after.pending = [] ∧ after.Holds row ∧ ∀ count,
      (lexer.takeTokens (count + 1)).1.map Token.kind =
        kind :: (after.takeTokens count).1.map Token.kind := by
  obtain ⟨span, after, found, done, left⟩ :=
    nextAmong_of_spells holds narrow stops lexable spells
  have next : lexer.next = (⟨kind, span⟩, after) :=
    settled.next_eq.trans (begins.trans found)
  have further := settled.next
  rw [next] at further
  refine ⟨after, further, done, left, ?_⟩
  intro count
  have regular : kind ≠ .endOfInput := by
    rintro rfl
    exact spells
  simp [takeTokens, next, Token.isEnd, regular]

/-- Words that follow, each behind a space, are read as the tokens that they spell. -/
theorem kinds_of_spells {kinds : List Token.Kind} {words : List (List Char)}
    (spelled : List.Forall₂ Token.Kind.Spells words kinds)
    (lexable : Token.Kind.AllLexable kinds) (count : Nat) (enough : words.length ≤ count)
    (settled : lexer.Settled) (done : lexer.pending = [])
    (holds : lexer.Holds (words.flatMap (' ' :: ·))) :
    (lexer.takeTokens (count + 1)).1.map Token.kind = kinds := by
  induction spelled generalizing lexer count with
  | nil =>
    have ended : lexer.next.1.isEnd = true := by
      rw [settled.next_eq, done]
      exact nextAmong_of_holds_nil holds
    simp [takeTokens, ended]
  | @cons word kind words kinds spells _ hypothesis =>
    have shape : lexer.Holds ([' '] ++ (word ++ words.flatMap (' ' :: ·))) := by
      simpa using holds
    obtain ⟨regular, others⟩ := (Token.Kind.allLexable_cons kind kinds).1 lexable
    have begins : lexer.nextAmong lexer.pending = lexer.nextAmong [] := by rw [done]
    obtain ⟨after, further, empty, left, tokens⟩ :=
      exists_takeTokens_of_spells settled begins shape (.inr rfl) (stops_flatMap words) regular
        spells
    rw [List.length_cons] at enough
    obtain ⟨less, rfl⟩ : ∃ less, count = less + 1 := ⟨count - 1, by omega⟩
    rw [tokens, hypothesis others less (by omega) further empty left]

end Lexer

namespace Input

theorem cut_of_not_mem {α : Type} [DecidableEq α] {feed : α} {row : List α}
    (absent : feed ∉ row) : cut feed row = ([], row) := by
  induction row with
  | nil => rfl
  | cons c row hypothesis =>
    rw [List.mem_cons, not_or] at absent
    have differs : c ≠ feed := fun same => absent.1 same.symm
    simp [cut, hypothesis absent.2, differs]

/-- A text without line feeds is one line. -/
theorem ofText_of_not_mem {row : List Char} (present : row ≠ []) (absent : '\n' ∉ row) :
    ofText (String.ofList row) none = ⟨[row], none⟩ := by
  simp [ofText, cut_of_not_mem absent, present]

end Input

namespace TokenStream

open Text

theorem length_le_length_flatMap (words : List (List Char)) :
    words.length ≤ (words.flatMap (' ' :: ·)).length := by
  induction words with
  | nil => simp
  | cons word words hypothesis =>
    simp only [List.length_cons, List.flatMap_cons, List.length_append]
    omega

theorem feed_not_mem_spaced {kinds : List Token.Kind} {words : List (List Char)}
    (spelled : List.Forall₂ Token.Kind.Spells words kinds)
    (lexable : Token.Kind.AllLexable kinds) : ∀ word ∈ words, '\n' ∉ word := by
  induction spelled with
  | nil => simp
  | @cons word kind words kinds spells _ hypothesis =>
    obtain ⟨regular, others⟩ := (Token.Kind.allLexable_cons kind kinds).1 lexable
    rw [List.forall_mem_cons]
    refine ⟨?_, hypothesis others⟩
    intro feed
    have solid := Token.Kind.isSolid_of_spells regular spells '\n' feed
    exact absurd solid (by decide)

/-- The text that spells lexable tokens out, word by word, is read as these tokens. -/
theorem kinds_ofLexer_spaced {kinds : List Token.Kind} {words : List (List Char)}
    (spelled : List.Forall₂ Token.Kind.Spells words kinds) (present : kinds ≠ [])
    (lexable : Token.Kind.AllLexable kinds) (source : Option String) :
    (ofLexer (.ofInput (.ofText (spaced words) none) source)).ahead.map Token.kind = kinds := by
  have absent := feed_not_mem_spaced spelled lexable
  cases spelled with
  | nil => exact absurd rfl present
  | @cons word kind words kinds spells spelled =>
    obtain ⟨regular, others⟩ := (Token.Kind.allLexable_cons kind kinds).1 lexable
    let line := word ++ words.flatMap (' ' :: ·)
    have first : word ≠ [] := Token.Kind.ne_nil_of_spells regular spells
    have filled : line ≠ [] := by simp [line, first]
    have single : '\n' ∉ line := by simpa [line] using absent
    rw [spaced, intercalate_cons, Input.ofText_of_not_mem filled single]
    let initial : Lexer := .ofInput ⟨[line], none⟩ source
    -- The lexer starts before the first line, with nothing of a line at hand.
    have before : initial.Holds [] := ⟨[], rfl, rfl⟩
    have begins : initial.nextAmong initial.pending =
        (initial.passTrivia.startLine line).nextAmong [] :=
      Lexer.nextAmong_cons_of_holds_nil before line []
    have holds : (initial.passTrivia.startLine line).Holds ([] ++ line) := ⟨[], rfl, rfl⟩
    obtain ⟨after, settled, done, left, tokens⟩ :=
      Lexer.exists_takeTokens_of_spells (Lexer.settled_ofInput _ source) begins holds (.inl rfl)
        (stops_flatMap words) regular spells
    have size : initial.remaining = line.length := by
      rw [Lexer.remaining, before.rest]
      simp [initial, Lexer.ofInput]
    have enough : words.length + 1 ≤ line.length := by
      have positive := List.length_pos_iff.2 first
      have behind := length_le_length_flatMap words
      simp only [line, List.length_append]
      omega
    obtain ⟨count, steps⟩ : ∃ count, line.length = count + 1 := ⟨line.length - 1, by omega⟩
    change (initial.takeTokens (initial.remaining + 1)).1.map Token.kind = _
    rw [tokens, size, steps,
      Lexer.kinds_of_spells spelled others count (by omega) settled done left]

end TokenStream

end Kaleidoscope
