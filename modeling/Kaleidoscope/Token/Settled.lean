import Kaleidoscope.Token.Search

set_option autoImplicit false

/- The turns of a lexer come to the token that the search comes to. The offset and the column always
count the same characters, so no turn slips. -/

namespace Kaleidoscope

namespace Text

/-- Blanks are passed over one by one, so a row of them may be passed at once. -/
theorem leadingTrivia_false (row : List Char) :
    leadingTrivia false row =
      row.takeWhile isBlank ++ leadingTrivia false (row.dropWhile isBlank) := by
  induction row with
  | nil => rfl
  | cons c rest hypothesis =>
    by_cases blank : isBlank c = true
    · rw [List.takeWhile_cons_of_pos blank, List.dropWhile_cons_of_pos blank, List.cons_append,
        ← hypothesis]
      simp [leadingTrivia, blank]
    · rw [List.takeWhile_cons_of_neg blank, List.dropWhile_cons_of_neg blank, List.nil_append]

/-- A comment is what stands before the next line feed, and blanks may follow it. -/
theorem leadingTrivia_true (row : List Char) :
    leadingTrivia true row =
      row.takeWhile (· != '\n') ++ leadingTrivia false (row.dropWhile (· != '\n')) := by
  induction row with
  | nil => rfl
  | cons c rest hypothesis =>
    by_cases feed : c = '\n'
    · simp [leadingTrivia, feed]
    · simp [leadingTrivia, feed, hypothesis]

theorem byteLength_eq_zero_iff {row : List Char} : byteLength row = 0 ↔ row = [] := by
  cases row with
  | nil => simp [byteLength]
  | cons c rest =>
    have positive := c.utf8Size_pos
    simp only [byteLength, reduceCtorEq, iff_false]
    omega

theorem utf8ByteSize_ofList (row : List Char) :
    (String.ofList row).utf8ByteSize = byteLength row := by
  induction row with
  | nil => rfl
  | cons c rest hypothesis =>
    rw [String.ofList_cons, String.utf8ByteSize_append, String.utf8ByteSize_singleton, hypothesis,
      byteLength]

end Text

open Text

namespace Piece

variable {c : Char} {row : List Char}

/-- The piece at the start of a row is a part of the blanks and comments there, or the token where
there are none. Its bytes and its characters are counted from the same word. -/
inductive Starts : List Char → List Char → Option Token.Kind → Prop where
  | trivia {word tail : List Char} (present : word ≠ [])
      (read : Piece.read? (word ++ tail) = some (ofRow word none))
      (passed : leadingTrivia false (word ++ tail) = word ++ leadingTrivia false tail) :
      Starts (word ++ tail) word none
  | token {word tail : List Char} {kind : Token.Kind}
      (read : Piece.read? (word ++ tail) = some (ofRow word (some kind)))
      (solid : leadingTrivia false (word ++ tail) = [])
      (found : Token.Kind.read? (word ++ tail) = some (kind, word)) :
      Starts (word ++ tail) word (some kind)

theorem starts_of_isBlank (blank : isBlank c = true) (rest : List Char) :
    Starts (c :: rest) (c :: rest.takeWhile isBlank) none := by
  have whole : c :: rest = c :: rest.takeWhile isBlank ++ rest.dropWhile isBlank := by simp
  have read : read? (c :: rest) = some (ofRow (c :: rest.takeWhile isBlank) none) := by
    simp [read?, Pattern.all, Pattern.match?, blank]
  have passed := leadingTrivia_false (c :: rest)
  rw [List.takeWhile_cons_of_pos blank, List.dropWhile_cons_of_pos blank] at passed
  rw [whole] at read passed ⊢
  exact .trivia (by simp) read passed

theorem starts_of_sign (rest : List Char) :
    Starts ('#' :: rest) ('#' :: rest.takeWhile (· != '\n')) none := by
  have whole : '#' :: rest = '#' :: rest.takeWhile (· != '\n') ++ rest.dropWhile (· != '\n') := by
    simp
  have read : read? ('#' :: rest) = some (ofRow ('#' :: rest.takeWhile (· != '\n')) none) := by
    simp [read?, Pattern.all, Pattern.match?, isBlank]
  have passed : leadingTrivia false ('#' :: rest) = '#' :: leadingTrivia true rest := by
    simp [leadingTrivia, isBlank]
  rw [leadingTrivia_true, ← List.cons_append] at passed
  rw [whole] at read passed ⊢
  exact .trivia (by simp) read passed

/-- Where no blank and no comment starts, the piece is the token. -/
theorem read?_of_isSolid (solid : isSolid c = true) (rest : List Char) :
    read? (c :: rest) =
      (Token.Kind.read? (c :: rest)).map fun (kind, word) => ofRow word (some kind) := by
  simp only [isSolid, Bool.and_eq_true, Bool.not_eq_true', bne_iff_ne] at solid
  by_cases letter : c.isAlpha = true
  · simp [read?, Pattern.all, Pattern.match?, Token.Kind.read?, solid, letter,
      isAlphanum_of_isAlpha letter]
  by_cases numeral : isNumeral c = true
  · simp [read?, Pattern.all, Pattern.match?, Token.Kind.read?, solid, letter, numeral]
  · simp [read?, Pattern.all, Pattern.match?, Token.Kind.read?, solid, letter, numeral, ofRow,
      byteLength]

theorem exists_starts_of_isSolid (solid : isSolid c = true) (rest : List Char) :
    ∃ word kind, Starts (c :: rest) word (some kind) := by
  have read := read?_of_isSolid solid rest
  have none := leadingTrivia_of_isSolid rest solid
  cases found : Token.Kind.read? (c :: rest) with
  | none => cases Token.Kind.read?_eq_none_iff.1 found
  | some token =>
    obtain ⟨kind, word⟩ := token
    obtain ⟨-, tail, split⟩ := Token.Kind.exists_of_read? found
    rw [found, Option.map_some] at read
    refine ⟨word, kind, ?_⟩
    rw [split] at read found none ⊢
    exact .token read none found

theorem exists_starts (present : row ≠ []) : ∃ word kind?, Starts row word kind? := by
  obtain ⟨c, rest, rfl⟩ := List.exists_cons_of_ne_nil present
  by_cases blank : isBlank c = true
  · exact ⟨_, _, starts_of_isBlank blank rest⟩
  by_cases sign : c = '#'
  · subst sign
    exact ⟨_, _, starts_of_sign rest⟩
  · have solid : isSolid c = true := by simp [isSolid, blank, sign]
    obtain ⟨word, kind, starts⟩ := exists_starts_of_isSolid solid rest
    exact ⟨word, some kind, starts⟩

end Piece

namespace Lexer

variable {lexer after : Lexer} {passed row word : List Char}

/-- The end of the input has been met, and there is nothing left to read. -/
structure Finished (lexer : Lexer) : Prop where
  known : lexer.exhausted = true
  used : lexer.Holds []
  last : lexer.pending = []

/-- The lexer stands in its line between what it has passed and the row that is left. The offset
counts the bytes that it has passed and the column the characters. -/
structure Past (lexer : Lexer) (passed row : List Char) : Prop where
  line : lexer.line = passed ++ row
  offset : lexer.offset = byteLength passed
  column : lexer.column = UInt32.ofNat (1 + passed.length)

namespace Past

theorem holds (past : lexer.Past passed row) : lexer.Holds row :=
  ⟨passed, past.line, past.offset⟩

theorem pass (past : lexer.Past passed (word ++ row)) :
    (lexer.pass word).Past (passed ++ word) row where
  line := by
    rw [List.append_assoc]
    exact past.line
  offset := by
    rw [byteLength_append, ← past.offset]
    rfl
  column := by
    rw [List.length_append, ← Nat.add_assoc, UInt32.ofNat_add, ← past.column]
    rfl

theorem byteLength_line (past : lexer.Past passed row) :
    byteLength lexer.line = lexer.offset + byteLength row := by
  rw [past.line, byteLength_append, past.offset]

theorem used_iff (past : lexer.Past passed row) :
    byteLength lexer.line ≤ lexer.offset ↔ row = [] := by
  rw [past.byteLength_line, ← byteLength_eq_zero_iff]
  omega

/-- The place is between two characters of the line as bytes. -/
theorem isValid (past : lexer.Past passed row) :
    String.Pos.Raw.IsValid (String.ofList lexer.line) ⟨lexer.offset⟩ := by
  rw [String.Pos.Raw.isValid_iff_exists_append]
  refine ⟨String.ofList passed, String.ofList row, ?_, ?_⟩
  · rw [past.line, String.ofList_append]
  · rw [String.Pos.Raw.ext_iff, String.byteIdx_rawEndPos, utf8ByteSize_ofList, past.offset]

theorem slice_eq (past : lexer.Past passed row) : lexer.slice = .ok row := by
  rw [slice, if_pos (String.Pos.Raw.isValid_eq_true_iff.2 past.isValid), past.holds.rest]

theorem bytesLeft_eq (past : lexer.Past passed row) : lexer.bytesLeft = .ok (byteLength row) := by
  have whole := past.byteLength_line
  rw [bytesLeft, if_pos (by omega), whole, Nat.add_sub_cancel_left]

end Past

/-- What holds between two turns. Behind the end of the input there is nothing left to read. -/
structure Settled (lexer : Lexer) : Prop where
  past : ∃ passed row, lexer.Past passed row
  final : lexer.exhausted = true → lexer.Finished

theorem settled_ofInput (input : Input) (source : Option String) :
    (ofInput input source).Settled where
  past := ⟨[], [], rfl, rfl, rfl⟩
  final := by
    intro known
    cases known

/-- The end has not been met where some of the line is left. -/
theorem Settled.unended_of_row (settled : lexer.Settled) (past : lexer.Past passed row)
    (more : row ≠ []) : lexer.exhausted = false := by
  rw [Bool.eq_false_iff]
  intro known
  have none := (settled.final known).used.rest
  rw [past.holds.rest] at none
  exact more none

/-- The end has not been met where a line is still to come. -/
theorem Settled.unended_of_pending {line : List Char} {pending : List (List Char)}
    (settled : lexer.Settled) (more : lexer.pending = line :: pending) :
    lexer.exhausted = false := by
  rw [Bool.eq_false_iff]
  intro known
  rw [(settled.final known).last] at more
  cases more

/-- What a turn does: it passes over blanks or a comment, cuts off a token, starts another line, or
gives the end of the input. -/
inductive Turned (lexer : Lexer) : Option Token × Lexer → Prop where
  | trivia {passed word tail : List Char} (past : lexer.Past passed (word ++ tail))
      (present : word ≠ [])
      (trivia : leadingTrivia false (word ++ tail) = word ++ leadingTrivia false tail) :
      Turned lexer (none, lexer.pass word)
  | token {passed word tail : List Char} {kind : Token.Kind}
      (past : lexer.Past passed (word ++ tail))
      (solid : leadingTrivia false (word ++ tail) = [])
      (found : Token.Kind.read? (word ++ tail) = some (kind, word)) :
      Turned lexer
        (some ⟨kind, ⟨lexer.position, (lexer.pass word).position⟩⟩, lexer.pass word)
  | line {line : List Char} {pending : List (List Char)} (used : lexer.Holds [])
      (more : lexer.pending = line :: pending) :
      Turned lexer (none, { lexer.startLine line with pending := pending })
  | ended {passed : List Char} (past : lexer.Past passed []) (last : lexer.pending = []) :
      Turned lexer (some (.endAt lexer.position), { lexer with exhausted := true })

/-- With some of the line left, a turn cuts a piece off it. -/
theorem Past.exists_turned_of_ne_nil (past : lexer.Past passed row) (more : row ≠ []) :
    ∃ outcome, lexer.turn = .ok outcome ∧ lexer.Turned outcome := by
  obtain ⟨word, kind?, starts⟩ := Piece.exists_starts more
  have unused := mt past.used_iff.1 more
  cases starts with
  | trivia present read trivia =>
    refine ⟨_, ?_, .trivia past present trivia⟩
    simp only [turn, unused, ↓reduceIte, past.slice_eq, bind, Except.bind, read]
    rfl
  | token read solid found =>
    refine ⟨_, ?_, .token past solid found⟩
    simp only [turn, unused, ↓reduceIte, past.slice_eq, bind, Except.bind, read]
    rfl

theorem Past.fillLine_of_last (past : lexer.Past passed []) (last : lexer.pending = []) :
    lexer.fillLine = .ok (false, { lexer with exhausted := true }) := by
  cases known : lexer.exhausted with
  | true =>
    have same : { lexer with exhausted := true } = lexer := by
      rw [← known]
    rw [fillLine, if_pos known, same]
  | false =>
    cases failure : lexer.failure with
    | none => simp only [fillLine, known, Bool.false_eq_true, ↓reduceIte, last, failure]
    | some error =>
      -- Nothing is left to be used up when a line cannot be read.
      have still : lexer.advance (byteLength []) ([] : List Char).length = lexer := lexer.pass_nil
      simp only [fillLine, known, Bool.false_eq_true, ↓reduceIte, last, failure, past.bytesLeft_eq,
        past.slice_eq, bind, Except.bind, still]
      rfl

/-- With nothing of the line left, a turn takes the next line, or the input ends. -/
theorem Settled.exists_turned_of_nil (settled : lexer.Settled) (past : lexer.Past passed []) :
    ∃ outcome, lexer.turn = .ok outcome ∧ lexer.Turned outcome := by
  have used : byteLength lexer.line ≤ lexer.offset := past.used_iff.2 rfl
  cases pending : lexer.pending with
  | cons line rest =>
    refine ⟨_, ?_, .line past.holds pending⟩
    simp only [turn, used, ↓reduceIte, fillLine, settled.unended_of_pending pending, pending]
    rfl
  | nil =>
    refine ⟨_, ?_, .ended past pending⟩
    simp only [turn, used, ↓reduceIte, past.fillLine_of_last pending]
    rfl

/-- A turn does not slip. -/
theorem Settled.exists_turned (settled : lexer.Settled) :
    ∃ outcome, lexer.turn = .ok outcome ∧ lexer.Turned outcome := by
  obtain ⟨passed, row, past⟩ := settled.past
  by_cases used : row = []
  · subst used
    exact settled.exists_turned_of_nil past
  · exact past.exists_turned_of_ne_nil used

theorem Settled.turned {outcome : Option Token × Lexer} (settled : lexer.Settled)
    (run : lexer.turn = .ok outcome) : lexer.Turned outcome := by
  obtain ⟨other, same, turned⟩ := settled.exists_turned
  rw [run] at same
  cases same
  exact turned

theorem Settled.pass (settled : lexer.Settled) (past : lexer.Past passed (word ++ row))
    (present : word ≠ []) : (lexer.pass word).Settled where
  past := ⟨_, _, past.pass⟩
  final := by
    intro known
    have unended := settled.unended_of_row past (by simp [present])
    cases unended.symm.trans known

/-- A turn keeps what holds between turns. -/
theorem Turned.settled {outcome : Option Token × Lexer} (turned : lexer.Turned outcome)
    (settled : lexer.Settled) : outcome.2.Settled := by
  cases turned with
  | trivia past present trivia => exact settled.pass past present
  | token past solid found => exact settled.pass past (Token.Kind.exists_of_read? found).1
  | @line line pending used more =>
    refine ⟨⟨[], line, rfl, rfl, rfl⟩, ?_⟩
    intro known
    cases (settled.unended_of_pending more).symm.trans known
  | ended past last =>
    exact ⟨⟨_, _, past.line, past.offset, past.column⟩, fun _ => ⟨rfl, past.holds, last⟩⟩

/-- The token that a turn gives is the one that the search comes to, and a turn without a token
leaves the search where it was. -/
theorem Turned.nextAmong_eq {token : Option Token} (turned : lexer.Turned (token, after)) :
    lexer.nextAmong lexer.pending =
      token.elim (after.nextAmong after.pending) fun token => (token, after) := by
  generalize whole : (token, after) = outcome at turned
  cases turned with
  | @trivia passed word tail past present trivia =>
    obtain ⟨rfl, rfl⟩ := Prod.mk.inj whole
    have same : lexer.passTrivia = (lexer.pass word).passTrivia := by
      rw [passTrivia, passTrivia, past.holds.rest, past.pass.holds.rest, pass_pass, trivia]
    exact nextAmong_of_passTrivia same lexer.pending
  | @token passed word tail kind past solid found =>
    obtain ⟨rfl, rfl⟩ := Prod.mk.inj whole
    have still : lexer.passTrivia = lexer := by
      rw [passTrivia, past.holds.rest, solid, pass_nil]
    have cut : lexer.passTrivia.cutToken? =
        some (⟨kind, ⟨lexer.position, (lexer.pass word).position⟩⟩, lexer.pass word) := by
      rw [still, cutToken?, past.holds.rest, found, Option.map_some]
    rw [nextAmong_of_cutToken? cut]
    rfl
  | @line line pending used more =>
    obtain ⟨rfl, rfl⟩ := Prod.mk.inj whole
    rw [more, nextAmong_cons_of_holds_nil used, used.passTrivia_eq]
    exact (nextAmong_upon _ _ _).symm
  | ended past last =>
    obtain ⟨rfl, rfl⟩ := Prod.mk.inj whole
    rw [last, nextAmong, past.holds.cutToken?_eq_none, past.holds.passTrivia_eq]
    rfl

/-- A turn that gives no token leaves fewer characters and lines to be read, counted together. -/
theorem Turned.less (turned : lexer.Turned (none, after)) :
    after.remaining + after.pending.length < lexer.remaining + lexer.pending.length := by
  generalize whole : (none, after) = outcome at turned
  cases turned with
  | @trivia passed word tail past present trivia =>
    obtain ⟨-, rfl⟩ := Prod.mk.inj whole
    have positive := List.length_pos_iff.2 present
    have same : (lexer.pass word).pending = lexer.pending := rfl
    simp only [remaining, past.holds.rest, past.pass.holds.rest, same, List.length_append]
    omega
  | token past solid found => cases whole
  | @line line pending used more =>
    obtain ⟨-, rfl⟩ := Prod.mk.inj whole
    have started : ({ lexer.startLine line with pending := pending } : Lexer).Holds line :=
      ⟨[], rfl, rfl⟩
    simp only [remaining, used.rest, started.rest, more, List.flatten_cons, List.length_append,
      List.length_cons, List.length_nil]
    omega
  | ended past last => cases whole

/-- The turns come to a token. There are enough of them, since each that gives none uses up a
character or a line. -/
theorem Settled.exists_turns {count : Nat} (settled : lexer.Settled)
    (enough : lexer.remaining + lexer.pending.length < count) :
    ∃ token after, lexer.turns count = .ok (some token, after) ∧
      lexer.nextAmong lexer.pending = (token, after) ∧ after.Settled := by
  induction count generalizing lexer with
  | zero => omega
  | succ count hypothesis =>
    obtain ⟨⟨_ | token, after⟩, run, turned⟩ := settled.exists_turned
    · have less := turned.less
      have found := turned.nextAmong_eq
      rw [turns, run, found]
      exact hypothesis (turned.settled settled) (by omega)
    · refine ⟨token, after, ?_, turned.nextAmong_eq, turned.settled settled⟩
      rw [turns, run]

theorem Settled.next_eq (settled : lexer.Settled) :
    lexer.next = lexer.nextAmong lexer.pending := by
  obtain ⟨token, after, turns, found, -⟩ := settled.exists_turns (Nat.lt_succ_self _)
  rw [next, turns, found]

theorem Settled.gives (settled : lexer.Settled) : lexer.Gives lexer.pending lexer.next := by
  obtain ⟨passed, row, past⟩ := settled.past
  rw [settled.next_eq]
  exact past.holds.gives_nextAmong lexer.pending

/-- A lexer that goes from token to token remains one whose turns do not slip. -/
theorem Settled.next (settled : lexer.Settled) : lexer.next.2.Settled := by
  obtain ⟨token, after, -, found, further⟩ := settled.exists_turns (Nat.lt_succ_self _)
  rw [settled.next_eq, found]
  exact further

theorem Settled.turns_eq {count : Nat} (settled : lexer.Settled)
    (enough : lexer.remaining + lexer.pending.length < count) :
    lexer.turns count = .ok (some lexer.next.1, lexer.next.2) := by
  obtain ⟨token, after, turns, found, -⟩ := settled.exists_turns enough
  rw [turns, settled.next_eq, found]

end Lexer

end Kaleidoscope
