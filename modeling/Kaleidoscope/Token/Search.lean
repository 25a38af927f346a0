import Kaleidoscope.Token.Lexer

set_option autoImplicit false

/- The token behind the blanks and comments, which may go over any number of lines, found without
turns. -/

namespace Kaleidoscope

namespace Text

/-- The blanks and comments at the start of a row. A comment runs from a number sign up to the
next line feed. -/
def leadingTrivia (inComment : Bool) : List Char → List Char
  | [] => []
  | c :: rest =>
    if inComment && c != '\n' then c :: leadingTrivia true rest
    else if isBlank c then c :: leadingTrivia false rest
    else if c == '#' then c :: leadingTrivia true rest
    else []

/-- Whether the character belongs to a token wherever it stands outside of comments. -/
def isSolid (c : Char) : Bool :=
  !isBlank c && c != '#'

theorem isAlphanum_of_isAlpha {c : Char} (letter : c.isAlpha = true) : c.isAlphanum = true := by
  simp [Char.isAlphanum, letter]

theorem leadingTrivia_of_isSolid {c : Char} (rest : List Char) (solid : isSolid c = true) :
    leadingTrivia false (c :: rest) = [] := by
  simp only [isSolid, Bool.and_eq_true, Bool.not_eq_true', bne_iff_ne] at solid
  simp [leadingTrivia, solid.1, solid.2]

/-- Blanks and comments at the start of a row are its front, and a token starts behind them. -/
theorem exists_leadingTrivia_append (inComment : Bool) (row : List Char) :
    ∃ tail, row = leadingTrivia inComment row ++ tail ∧ ∀ c ∈ tail.head?, isSolid c = true := by
  induction row generalizing inComment with
  | nil => exact ⟨[], rfl, by simp⟩
  | cons c rest hypothesis =>
    have further : ∀ inside, leadingTrivia inComment (c :: rest) = c :: leadingTrivia inside rest →
        ∃ tail, c :: rest = leadingTrivia inComment (c :: rest) ++ tail ∧
          ∀ c ∈ tail.head?, isSolid c = true := by
      intro inside passed
      obtain ⟨tail, split, solid⟩ := hypothesis inside
      exact ⟨tail, by rw [passed, List.cons_append, ← split], solid⟩
    by_cases commented : (inComment && c != '\n') = true
    · exact further true (by simp [leadingTrivia, commented])
    by_cases blank : isBlank c = true
    · exact further false (by simp [leadingTrivia, commented, blank])
    by_cases sign : c = '#'
    · exact further true (by simp [leadingTrivia, sign, isBlank])
    · have solid : isSolid c = true := by simp [isSolid, blank, sign]
      exact ⟨c :: rest, by simp [leadingTrivia, commented, blank, sign], by simpa using solid⟩

theorem dropBytes_byteLength (passed row : List Char) :
    dropBytes (byteLength passed) (passed ++ row) = row := by
  induction passed with
  | nil => simp [byteLength, dropBytes]
  | cons c passed hypothesis =>
    obtain ⟨count, size⟩ : ∃ count, c.utf8Size = count + 1 :=
      ⟨c.utf8Size - 1, by have := c.utf8Size_pos; omega⟩
    have step : byteLength (c :: passed) = (count + byteLength passed) + 1 := by
      rw [byteLength, size]
      omega
    rw [step, List.cons_append, dropBytes]
    have left : count + byteLength passed + 1 - c.utf8Size = byteLength passed := by omega
    rw [left, hypothesis]

theorem byteLength_append (row more : List Char) :
    byteLength (row ++ more) = byteLength row + byteLength more := by
  induction row with
  | nil => simp [byteLength]
  | cons c row hypothesis =>
    simp only [List.cons_append, byteLength, hypothesis]
    omega

end Text

open Text

namespace Token.Kind

/-- The token at the very start of a row, with the characters it takes. -/
def read? : List Char → Option (Token.Kind × List Char)
  | [] => none
  | c :: rest =>
    if c.isAlpha then
      let word := (c :: rest).takeWhile Char.isAlphanum
      some (.ofWord (String.ofList word), word)
    else if isNumeral c then
      let numeral := (c :: rest).takeWhile isNumeral
      some (.number (.ofNumeral numeral), numeral)
    else some (.symbol c, [c])

variable {kind : Token.Kind} {row word : List Char}

theorem read?_eq_none_iff : read? row = none ↔ row = [] := by
  cases row with
  | nil => simp [read?]
  | cons c rest =>
    simp only [read?]
    split
    · simp
    · split <;> simp

/-- A word, a numeral, or a character that is a token by itself stands at the start of a row. -/
inductive ReadFrom (c : Char) (rest : List Char) : Token.Kind → List Char → Prop where
  | word (letter : c.isAlpha = true) :
      ReadFrom c rest (.ofWord (String.ofList ((c :: rest).takeWhile Char.isAlphanum)))
        ((c :: rest).takeWhile Char.isAlphanum)
  | numeral (numeral : isNumeral c = true) :
      ReadFrom c rest (.number (.ofNumeral ((c :: rest).takeWhile isNumeral)))
        ((c :: rest).takeWhile isNumeral)
  | symbol (other : ¬ c.isAlpha = true) (strange : ¬ isNumeral c = true) :
      ReadFrom c rest (.symbol c) [c]

theorem exists_readFrom (read : read? row = some (kind, word)) :
    ∃ c rest, row = c :: rest ∧ ReadFrom c rest kind word := by
  cases row with
  | nil => cases read
  | cons c rest =>
    refine ⟨c, rest, rfl, ?_⟩
    simp only [read?] at read
    split at read
    next letter =>
      obtain ⟨rfl, rfl⟩ := Prod.mk.inj (Option.some.inj read)
      exact .word letter
    split at read
    next numeral =>
      obtain ⟨rfl, rfl⟩ := Prod.mk.inj (Option.some.inj read)
      exact .numeral numeral
    next other strange =>
      obtain ⟨rfl, rfl⟩ := Prod.mk.inj (Option.some.inj read)
      exact .symbol other strange

theorem exists_of_read? (read : read? row = some (kind, word)) :
    word ≠ [] ∧ ∃ tail, row = word ++ tail := by
  obtain ⟨c, rest, rfl, started⟩ := exists_readFrom read
  have run (test : Char → Bool) (holds : test c = true) :
      (c :: rest).takeWhile test ≠ [] ∧ ∃ tail, c :: rest = (c :: rest).takeWhile test ++ tail :=
    ⟨by simp [holds], _, List.takeWhile_append_dropWhile.symm⟩
  cases started with
  | word letter => exact run Char.isAlphanum (isAlphanum_of_isAlpha letter)
  | numeral numeral => exact run isNumeral numeral
  | symbol other strange => exact ⟨by simp, rest, rfl⟩

theorem ofWord_ne_endOfInput (word : String) : ofWord word ≠ .endOfInput := by
  unfold ofWord
  split <;> simp

theorem ne_endOfInput_of_read? (read : read? row = some (kind, word)) : kind ≠ .endOfInput := by
  obtain ⟨c, rest, -, started⟩ := exists_readFrom read
  cases started with
  | word letter => exact ofWord_ne_endOfInput _
  | numeral numeral => exact Token.Kind.noConfusion
  | symbol other strange => exact Token.Kind.noConfusion

end Token.Kind

namespace Lexer

/-- Moves past the given characters of the line. -/
def pass (lexer : Lexer) (row : List Char) : Lexer :=
  lexer.advance (byteLength row) row.length

def passTrivia (lexer : Lexer) : Lexer :=
  lexer.pass (leadingTrivia false lexer.rest)

/-- The token at the very place where the lexer stands, if the line is not used up. -/
def cutToken? (lexer : Lexer) : Option (Token × Lexer) :=
  (Token.Kind.read? lexer.rest).map fun (kind, row) =>
    let after := lexer.pass row
    (⟨kind, ⟨lexer.position, after.position⟩⟩, after)

/-- The token that the search comes to, where the lines still to come are given. -/
def nextAmong (pending : List (List Char)) (lexer : Lexer) : Token × Lexer :=
  let ahead := lexer.passTrivia
  match ahead.cutToken? with
  | some (token, after) => (token, { after with pending := pending })
  | none =>
    match pending with
    | [] => (.endAt ahead.position, { ahead with pending := [], exhausted := true })
    | line :: pending => nextAmong pending (ahead.startLine line)

/-- The row is what is left of the line. -/
def Holds (lexer : Lexer) (row : List Char) : Prop :=
  ∃ passed, lexer.line = passed ++ row ∧ lexer.offset = byteLength passed

variable {lexer after : Lexer} {passed row word : List Char}

theorem pass_nil (lexer : Lexer) : lexer.pass [] = lexer := by
  have still : lexer.column + UInt32.ofNat 0 = lexer.column := UInt32.add_zero _
  simp only [pass, advance, byteLength, Nat.add_zero, List.length_nil, still]

theorem pass_pass (lexer : Lexer) (word row : List Char) :
    (lexer.pass word).pass row = lexer.pass (word ++ row) := by
  simp only [Lexer.pass, advance, byteLength_append, List.length_append, UInt32.ofNat_add,
    UInt32.add_assoc, Nat.add_assoc]

theorem Holds.rest (holds : lexer.Holds row) : lexer.rest = row := by
  obtain ⟨passed, line, offset⟩ := holds
  rw [Lexer.rest, line, offset, dropBytes_byteLength]

theorem Holds.pass (holds : lexer.Holds (word ++ row)) : (lexer.pass word).Holds row := by
  obtain ⟨passed, line, offset⟩ := holds
  refine ⟨passed ++ word, ?_, ?_⟩
  · simp [Lexer.pass, Lexer.advance, line]
  · simp [Lexer.pass, Lexer.advance, offset, byteLength_append]

theorem Holds.passTrivia_eq (used : lexer.Holds []) : lexer.passTrivia = lexer := by
  rw [Lexer.passTrivia, used.rest, leadingTrivia, pass_nil]

theorem Holds.cutToken?_eq_none (used : lexer.Holds []) : lexer.passTrivia.cutToken? = none := by
  rw [used.passTrivia_eq, cutToken?, used.rest]
  rfl

theorem nextAmong_of_cutToken? {token : Token}
    (cut : lexer.passTrivia.cutToken? = some (token, after)) (pending : List (List Char)) :
    lexer.nextAmong pending = (token, { after with pending := pending }) := by
  cases pending with
  | nil => rw [nextAmong, cut]
  | cons line pending => rw [nextAmong, cut]

theorem nextAmong_cons_of_holds_nil (used : lexer.Holds []) (line : List Char)
    (pending : List (List Char)) :
    lexer.nextAmong (line :: pending) = (lexer.passTrivia.startLine line).nextAmong pending := by
  rw [nextAmong, used.cutToken?_eq_none]

theorem nextAmong_of_passTrivia (same : lexer.passTrivia = after.passTrivia)
    (pending : List (List Char)) : lexer.nextAmong pending = after.nextAmong pending := by
  cases pending with
  | nil => rw [nextAmong, nextAmong, same]
  | cons line pending => rw [nextAmong, nextAmong, same]

/-- The lines to come are those that are given, not those that the lexer knows of. -/
theorem nextAmong_upon (lexer : Lexer) (lines pending : List (List Char)) :
    { lexer with pending := lines }.nextAmong pending = lexer.nextAmong pending := by
  have ahead (lexer : Lexer) : { lexer with pending := lines }.passTrivia.cutToken? =
      lexer.passTrivia.cutToken?.map fun cut => (cut.1, { cut.2 with pending := lines }) := by
    unfold cutToken?
    rw [Option.map_map]
    rfl
  induction pending generalizing lexer with
  | nil =>
    rw [nextAmong, nextAmong, ahead]
    cases lexer.passTrivia.cutToken? <;> rfl
  | cons line pending hypothesis =>
    rw [nextAmong, nextAmong, ahead]
    cases lexer.passTrivia.cutToken? with
    | none => exact hypothesis (lexer.passTrivia.startLine line)
    | some cut => rfl

/-- How the search goes: a token is cut off the line at hand behind blanks and comments, or nothing
else is left of this line, and the next line or the end of the input follows. -/
inductive Gives : Lexer → List (List Char) → Token × Lexer → Prop where
  | cut {lexer : Lexer} {pending : List (List Char)} {kind : Token.Kind} {word tail : List Char}
      (ahead : lexer.passTrivia.Holds (word ++ tail))
      (solid : ∀ c ∈ (word ++ tail).head?, isSolid c = true)
      (found : Token.Kind.read? (word ++ tail) = some (kind, word)) :
      Gives lexer pending
        (⟨kind, ⟨lexer.passTrivia.position, (lexer.passTrivia.pass word).position⟩⟩,
          { lexer.passTrivia.pass word with pending := pending })
  | line {lexer : Lexer} {line : List Char} {pending : List (List Char)} {result : Token × Lexer}
      (gives : Gives (lexer.passTrivia.startLine line) pending result) :
      Gives lexer (line :: pending) result
  | ended {lexer : Lexer} (used : lexer.passTrivia.Holds []) :
      Gives lexer [] (.endAt lexer.passTrivia.position,
        { lexer.passTrivia with pending := [], exhausted := true })

/-- Blanks and comments are the front of what is left of the line. A token starts behind them. -/
theorem Holds.exists_passTrivia (holds : lexer.Holds row) :
    ∃ tail, row = leadingTrivia false row ++ tail ∧ lexer.passTrivia.Holds tail ∧
      ∀ c ∈ tail.head?, isSolid c = true := by
  obtain ⟨tail, split, solid⟩ := exists_leadingTrivia_append false row
  refine ⟨tail, split, ?_, solid⟩
  rw [Lexer.passTrivia, holds.rest]
  exact Holds.pass (split ▸ holds)

/-- Behind blanks and comments a token takes some of the line, or nothing of it is left. -/
theorem Holds.gives_or_used (holds : lexer.Holds row) (pending : List (List Char)) :
    lexer.Gives pending (lexer.nextAmong pending) ∨
      lexer.passTrivia.cutToken? = none ∧ lexer.passTrivia.Holds [] := by
  obtain ⟨tail, -, ahead, solid⟩ := holds.exists_passTrivia
  cases found : Token.Kind.read? tail with
  | none =>
    rw [Token.Kind.read?_eq_none_iff] at found
    subst found
    refine .inr ⟨?_, ahead⟩
    rw [cutToken?, ahead.rest]
    rfl
  | some token =>
    obtain ⟨kind, word⟩ := token
    obtain ⟨-, left, rfl⟩ := Token.Kind.exists_of_read? found
    have cut : lexer.passTrivia.cutToken? =
        some (⟨kind, ⟨lexer.passTrivia.position, (lexer.passTrivia.pass word).position⟩⟩,
          lexer.passTrivia.pass word) := by
      rw [cutToken?, ahead.rest, found, Option.map_some]
    rw [nextAmong_of_cutToken? cut]
    exact .inl (.cut ahead solid found)

theorem Holds.gives_nextAmong (holds : lexer.Holds row) (pending : List (List Char)) :
    lexer.Gives pending (lexer.nextAmong pending) := by
  induction pending generalizing lexer row with
  | nil =>
    rcases holds.gives_or_used [] with gives | ⟨none, used⟩
    · exact gives
    · rw [nextAmong, none]
      exact .ended used
  | cons line pending hypothesis =>
    rcases holds.gives_or_used (line :: pending) with gives | ⟨none, -⟩
    · exact gives
    · have started : (lexer.passTrivia.startLine line).Holds line := ⟨[], rfl, rfl⟩
      rw [nextAmong, none]
      exact .line (hypothesis started)

end Lexer

end Kaleidoscope
