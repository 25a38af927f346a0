import Kaleidoscope.Proofs.Scanner

set_option autoImplicit false

namespace Kaleidoscope

namespace Input

section Feeds

variable {α : Type} [DecidableEq α] {feed : α} {row : List α}

/-- A sequence has no feed, or it is a row without one, a feed, and another sequence. -/
theorem feed_induction {motive : List α → Prop} (feed : α)
    (last : ∀ row, feed ∉ row → motive row)
    (line : ∀ row rest, feed ∉ row → motive rest → motive (row ++ feed :: rest))
    (items : List α) : motive items := by
  induction size : items.length using Nat.strongRecOn generalizing items with
  | ind length hypothesis =>
    by_cases inside : feed ∈ items
    · obtain ⟨row, rest, rfl, plain⟩ := List.eq_append_cons_of_mem inside
      refine line row rest plain (hypothesis rest.length ?_ rest rfl)
      simp only [List.length_append, List.length_cons] at size
      omega
    · exact last items inside

theorem cut_append (plain : feed ∉ row) (rest : List α) :
    cut feed (row ++ feed :: rest) = ((row ++ [feed]) :: (cut feed rest).1, (cut feed rest).2) := by
  induction row with
  | nil => simp [cut]
  | cons item row hypothesis =>
    rw [List.mem_cons, not_or] at plain
    rw [List.cons_append, cut, hypothesis plain.2]
    simp [Ne.symm plain.1]

theorem isChain_of_not_mem (plain : feed ∉ row) (item : α) :
    (row ++ [item]).IsChain fun before _ => (before != feed) = true := by
  induction row with
  | nil => simp
  | cons first row hypothesis =>
    rw [List.mem_cons, not_or] at plain
    rw [List.cons_append, List.isChain_cons]
    exact ⟨fun _ _ => by simpa using Ne.symm plain.1, hypothesis plain.2⟩

theorem splitBy_of_not_mem (plain : feed ∉ row) (present : row ≠ []) :
    row.splitBy (fun item _ => item != feed) = [row] := by
  apply List.splitBy_of_isChain present
  rw [← List.dropLast_append_getLast present]
  exact isChain_of_not_mem (fun inside => plain (List.mem_of_mem_dropLast inside)) _

theorem splitBy_append_feed (plain : feed ∉ row) (rest : List α) :
    (row ++ feed :: rest).splitBy (fun item _ => item != feed) =
      (row ++ [feed]) :: rest.splitBy fun item _ => item != feed := by
  rw [← List.singleton_append, ← List.append_assoc, List.splitBy_append (by simp),
    List.splitBy_of_isChain (by simp) (isChain_of_not_mem plain feed), List.singleton_append]

end Feeds

/-- The lines of a sequence of bytes, each with its line feed. -/
def byteLines (bytes : List UInt8) : List (List UInt8) :=
  bytes.splitBy fun byte _ => byte != 0x0A

/-- Why a line cannot be read. An unfinished line is read together with what follows the bytes. -/
def lineError (broken : Option String) (line : List UInt8) : Option ReadError :=
  if line.getLast? ≠ some 0x0A ∧ broken.isSome then broken.map .broken
  else if ByteArray.IsValidUTF8 ⟨line.toArray⟩ then none
  else some .invalidUtf8

/-- The lines before the first that cannot be read. -/
def readable (bytes : List UInt8) (broken : Option String) : List (List UInt8) :=
  (byteLines bytes).takeWhile fun line => (lineError broken line).isNone

/-- The first error that is met, behind the last line at the latest. -/
def firstError (bytes : List UInt8) (broken : Option String) : Option ReadError :=
  ((byteLines bytes).findSome? (lineError broken)).or (broken.map .broken)

/-- The bytes of characters in UTF-8. -/
def encode (text : List Char) : List UInt8 :=
  text.flatMap String.utf8EncodeChar

section Encoding

variable {text : List Char} {bytes row : List UInt8}

theorem toUTF8_eq_iff {text : String} :
    text.toUTF8 = ⟨bytes.toArray⟩ ↔ encode text.toList = bytes := by
  rw [String.toUTF8_eq_toByteArray, ← String.utf8Encode_toList, List.utf8Encode, encode,
    ByteArray.ext_iff, ← Array.toList_inj, List.toList_data_toByteArray]

theorem decode?_eq_some_iff : decode? bytes = some text ↔ encode text = bytes := by
  rw [decode?, Option.map_eq_some_iff]
  constructor
  · rintro ⟨read, found, rfl⟩
    rw [String.fromUTF8?, Option.dite_none_right_eq_some] at found
    obtain ⟨valid, same⟩ := found
    rw [← toUTF8_eq_iff, ← Option.some.inj same]
    rfl
  · intro same
    have whole := toUTF8_eq_iff.2 (same ▸ congrArg encode String.toList_ofList)
    refine ⟨String.ofList text, ?_, String.toList_ofList⟩
    rw [← whole, String.fromUTF8?, String.toUTF8_eq_toByteArray,
      dif_pos (String.ofList text).isValidUTF8]
    rfl

theorem decode?_eq_none_iff : decode? bytes = none ↔ ¬ ByteArray.IsValidUTF8 ⟨bytes.toArray⟩ := by
  rw [decode?, Option.map_eq_none_iff, String.fromUTF8?, dite_eq_right_iff]
  simp

theorem isValidUTF8_of_decode? (decoded : decode? bytes = some text) :
    ByteArray.IsValidUTF8 ⟨bytes.toArray⟩ := by
  by_contra invalid
  rw [decode?_eq_none_iff.2 invalid] at decoded
  cases decoded

/-- The bytes of a character outside of ASCII are outside of it, too. -/
theorem le_of_mem_utf8EncodeChar {c : Char} {byte : UInt8} (wide : 127 < c.val.toNat)
    (inside : byte ∈ String.utf8EncodeChar c) : 128 ≤ byte.toNat := by
  rw [String.utf8EncodeChar] at inside
  split at inside
  · omega
  split at inside
  · fin_cases inside <;> simp only [UInt8.toNat_ofNat'] <;> omega
  split at inside
  · fin_cases inside <;> simp only [UInt8.toNat_ofNat'] <;> omega
  · fin_cases inside <;> simp only [UInt8.toNat_ofNat'] <;> omega

theorem feed_mem_utf8EncodeChar {c : Char} : 0x0A ∈ String.utf8EncodeChar c ↔ c = '\n' := by
  constructor
  · intro inside
    by_cases wide : 127 < c.val.toNat
    · have high := le_of_mem_utf8EncodeChar wide inside
      simp at high
    · rw [String.utf8EncodeChar, if_pos (by omega), List.mem_singleton, ← UInt8.toNat_inj,
        UInt8.toNat_ofNat', Nat.mod_eq_of_lt (by omega)] at inside
      exact Char.ext (UInt32.toNat_inj.1 inside.symm)
  · rintro rfl
    decide

theorem feed_mem_encode : 0x0A ∈ encode text ↔ '\n' ∈ text := by
  simp [encode, feed_mem_utf8EncodeChar]

/-- What ends in a line feed as bytes does so as text. -/
theorem exists_of_encode_line (same : encode text = row ++ [0x0A]) :
    ∃ front, text = front ++ ['\n'] ∧ encode front = row := by
  rcases List.eq_nil_or_concat text with rfl | ⟨front, c, rfl⟩
  · simp [encode] at same
  · have split : encode front ++ String.utf8EncodeChar c = row ++ [0x0A] := by
      simpa [encode] using same
    have last := congrArg List.getLast? split
    rw [List.getLast?_append_of_ne_nil _ String.utf8EncodeChar_ne_nil,
      List.getLast?_concat] at last
    obtain rfl := feed_mem_utf8EncodeChar.1 (List.mem_of_getLast? last)
    exact ⟨front, by simp, List.append_cancel_right split⟩

end Encoding

section Lines

variable {row : List UInt8} {broken : Option String}

theorem lineError_feed (row : List UInt8) (broken : Option String) :
    lineError broken (row ++ [0x0A]) =
      if ByteArray.IsValidUTF8 ⟨(row ++ [0x0A]).toArray⟩ then none else some .invalidUtf8 := by
  simp [lineError]

theorem lineError_of_not_mem (plain : 0x0A ∉ row) (message : String) :
    lineError (some message) row = some (.broken message) := by
  have unfinished : row.getLast? ≠ some 0x0A := fun last => plain (List.mem_of_getLast? last)
  simp [lineError, unfinished]

theorem lines_ofText_append {front : List Char} (plain : '\n' ∉ front) (text : List Char) :
    (ofText (String.ofList (front ++ '\n' :: text)) none).lines =
      (front ++ ['\n']) :: (ofText (String.ofList text) none).lines := by
  simp only [ofText, String.toList_ofList, cut_append plain]
  split <;> rfl

theorem ofBytes_append (plain : 0x0A ∉ row) (rest : List UInt8) (broken : Option String) :
    ofBytes (row ++ 0x0A :: rest) broken =
      match decode? (row ++ [0x0A]) with
      | none => ⟨[], some .invalidUtf8⟩
      | some line => ⟨line :: (ofBytes rest broken).lines, (ofBytes rest broken).failure⟩ := by
  simp only [ofBytes, cut_append plain]
  cases broken with
  | some message => rfl
  | none =>
    dsimp only
    split <;> rfl

theorem readable_append (plain : 0x0A ∉ row) (rest : List UInt8) (broken : Option String) :
    readable (row ++ 0x0A :: rest) broken =
      if ByteArray.IsValidUTF8 ⟨(row ++ [0x0A]).toArray⟩ then
        (row ++ [0x0A]) :: readable rest broken
      else [] := by
  rw [readable, byteLines, splitBy_append_feed plain, List.takeWhile_cons, lineError_feed]
  split <;> rfl

theorem firstError_append (plain : 0x0A ∉ row) (rest : List UInt8) (broken : Option String) :
    firstError (row ++ 0x0A :: rest) broken =
      if ByteArray.IsValidUTF8 ⟨(row ++ [0x0A]).toArray⟩ then firstError rest broken
      else some .invalidUtf8 := by
  rw [firstError, byteLines, splitBy_append_feed plain, List.findSome?_cons, lineError_feed]
  by_cases valid : ByteArray.IsValidUTF8 ⟨(row ++ [0x0A]).toArray⟩
  · rw [if_pos valid, if_pos valid]
    rfl
  · rw [if_neg valid, if_neg valid]
    rfl

theorem firstError_eq_none_iff {bytes : List UInt8} :
    firstError bytes broken = none ↔
      readable bytes broken = byteLines bytes ∧ broken = none := by
  rw [firstError, Option.or_eq_none_iff, List.findSome?_eq_none_iff, Option.map_eq_none_iff,
    readable, List.takeWhile_eq_self_iff]
  simp

/-- Bytes are read as the text of the lines before the first that cannot be read. -/
theorem exists_text (bytes : List UInt8) (broken : Option String) :
    ∃ text, encode text = (readable bytes broken).flatten ∧
      ofBytes bytes broken =
        ⟨(ofText (String.ofList text) none).lines, firstError bytes broken⟩ := by
  induction bytes using feed_induction (0x0A : UInt8) with
  | last row plain =>
    by_cases present : row = []
    · subst present
      exact ⟨[], rfl, by cases broken <;> rfl⟩
    have only : byteLines row = [row] := splitBy_of_not_mem plain present
    rw [readable, firstError, ofBytes, only, cut_of_not_mem plain]
    cases broken with
    | some message =>
      have lost := lineError_of_not_mem plain message
      exact ⟨[], by simp [lost, encode], by simp [lost, decodeLines, ofText, cut]⟩
    | none =>
      cases decoded : decode? row with
      | none =>
        have invalid := decode?_eq_none_iff.1 decoded
        exact ⟨[], by simp [lineError, invalid, encode],
          by simp [lineError, invalid, present, decodeLines, decoded, ofText, cut]⟩
      | some text =>
        have valid := isValidUTF8_of_decode? decoded
        have same := decode?_eq_some_iff.1 decoded
        rw [← same, feed_mem_encode] at plain
        have shown : text ≠ [] := by
          rintro rfl
          exact present same.symm
        refine ⟨text, by simp [lineError, valid, same], ?_⟩
        rw [ofText_of_not_mem shown plain]
        simp [lineError, valid, present, decodeLines, decoded]
  | line row rest plain hypothesis =>
    obtain ⟨text, same, read⟩ := hypothesis
    rw [readable_append plain, firstError_append plain, ofBytes_append plain]
    cases decoded : decode? (row ++ [0x0A]) with
    | none =>
      have invalid := decode?_eq_none_iff.1 decoded
      exact ⟨[], by simp [invalid, encode], by simp [invalid, ofText, cut]⟩
    | some line =>
      have valid := isValidUTF8_of_decode? decoded
      have whole := decode?_eq_some_iff.1 decoded
      obtain ⟨front, rfl, begins⟩ := exists_of_encode_line whole
      rw [← begins, feed_mem_encode] at plain
      refine ⟨front ++ '\n' :: text, ?_, ?_⟩
      · rw [if_pos valid, List.flatten_cons, ← same, ← whole, List.append_cons]
        exact List.flatMap_append
      · rw [lines_ofText_append plain, if_pos valid, read]

end Lines

end Input

namespace Lexer

/-- The lexer behind the given number of tokens, ends of the input included. -/
def behind (lexer : Lexer) : (count : Nat) → Lexer
  | 0 => lexer
  | count + 1 => lexer.next.2.behind count

variable {lexer : Lexer}

theorem behind_add (lexer : Lexer) (count more : Nat) :
    lexer.behind (count + more) = (lexer.behind count).behind more := by
  induction count generalizing lexer with
  | zero => rw [Nat.zero_add, behind]
  | succ count hypothesis => rw [Nat.succ_add, behind, hypothesis, behind]

theorem Settled.behind (settled : lexer.Settled) (count : Nat) : (lexer.behind count).Settled := by
  induction count generalizing lexer with
  | zero => exact settled
  | succ count hypothesis => exact hypothesis settled.next

/-- The same lexer on an input that ends with the given failure, or with none. -/
def endingWith (lexer : Lexer) (failure : Option ReadError) : Lexer :=
  { lexer with failure := failure }

theorem cutToken?_endingWith (lexer : Lexer) (failure : Option ReadError) :
    (lexer.endingWith failure).cutToken? =
      lexer.cutToken?.map fun (token, after) => (token, after.endingWith failure) := by
  unfold cutToken?
  rw [Option.map_map]
  rfl

/-- Reading does not look at what the input ends with. -/
theorem nextAmong_endingWith (pending : List (List Char)) (lexer : Lexer)
    (failure : Option ReadError) :
    nextAmong pending (lexer.endingWith failure) =
      ((nextAmong pending lexer).1, (nextAmong pending lexer).2.endingWith failure) := by
  have ahead (lexer : Lexer) : (lexer.endingWith failure).passTrivia.cutToken? = _ :=
    lexer.passTrivia.cutToken?_endingWith failure
  induction pending generalizing lexer with
  | nil =>
    rw [nextAmong, nextAmong, ahead]
    cases lexer.passTrivia.cutToken? <;> rfl
  | cons line pending hypothesis =>
    rw [nextAmong, nextAmong, ahead]
    cases lexer.passTrivia.cutToken? with
    | none => exact hypothesis (lexer.passTrivia.startLine line)
    | some cut => rfl

theorem Settled.endingWith (settled : lexer.Settled) (failure : Option ReadError) :
    (lexer.endingWith failure).Settled where
  past := by
    obtain ⟨passed, row, past⟩ := settled.past
    exact ⟨passed, row, past.line, past.offset, past.column⟩
  final := by
    intro known
    obtain ⟨same, used, last⟩ := settled.final known
    exact ⟨same, used, last⟩

theorem Settled.next_endingWith (settled : lexer.Settled) (failure : Option ReadError) :
    (lexer.endingWith failure).next = (lexer.next.1, lexer.next.2.endingWith failure) := by
  rw [(settled.endingWith failure).next_eq, settled.next_eq]
  exact nextAmong_endingWith lexer.pending lexer failure

theorem Settled.behind_endingWith (settled : lexer.Settled) (failure : Option ReadError)
    (count : Nat) :
    (lexer.endingWith failure).behind count = (lexer.behind count).endingWith failure := by
  induction count generalizing lexer with
  | zero => rfl
  | succ count hypothesis =>
    rw [Lexer.behind, settled.next_endingWith, hypothesis settled.next, Lexer.behind]

theorem Settled.takeTokens_endingWith (settled : lexer.Settled) (failure : Option ReadError)
    (count : Nat) :
    (lexer.endingWith failure).takeTokens count =
      ((lexer.takeTokens count).1, (lexer.takeTokens count).2.endingWith failure) := by
  induction count generalizing lexer with
  | zero => rfl
  | succ count hypothesis =>
    rw [takeTokens, takeTokens, settled.next_endingWith]
    dsimp only
    split
    · rfl
    · rw [hypothesis settled.next]

theorem Settled.toList_endingWith (settled : lexer.Settled) (failure : Option ReadError) :
    TokenStream.toList (.ofLexer (lexer.endingWith failure)) =
      TokenStream.toList (.ofLexer lexer) := by
  have same := settled.takeTokens_endingWith failure (lexer.remaining + 1)
  exact congrArg (fun result => result.1 ++ [.endAt result.2.position]) same

theorem Settled.failure_behind (settled : lexer.Settled) (count : Nat) :
    (lexer.behind count).failure = lexer.failure := by
  have same := congrArg Lexer.failure (settled.behind_endingWith lexer.failure count)
  exact same

theorem Settled.failure_ofLexer (settled : lexer.Settled) :
    (TokenStream.ofLexer lexer).failure = lexer.failure := by
  have same := settled.takeTokens_endingWith lexer.failure (lexer.remaining + 1)
  exact congrArg (fun result => result.2.failure) same

/-- The end of the input is met with the first token that is an end. -/
theorem Gives.exhausted_eq {pending : List (List Char)} {result : Token × Lexer}
    (gives : lexer.Gives pending result) :
    result.2.exhausted = (lexer.exhausted || result.1.isEnd) := by
  induction gives with
  | @cut lexer pending kind word tail ahead solid found =>
    have regular := Token.Kind.ne_endOfInput_of_read? found
    have still : (lexer.passTrivia.pass word).exhausted = lexer.exhausted := rfl
    simp [Token.isEnd, regular, still]
  | line gives hypothesis => exact hypothesis
  | ended used => simp [Token.isEnd]

theorem Settled.exhausted_behind (settled : lexer.Settled) (known : lexer.exhausted = true)
    (count : Nat) : (lexer.behind count).exhausted = true := by
  induction count generalizing lexer with
  | zero => exact known
  | succ count hypothesis =>
    apply hypothesis settled.next
    rw [settled.gives.exhausted_eq, known, Bool.true_or]

/-- Behind the end of the input it is known what the input ended with. -/
theorem Settled.readError_behind {count more : Nat} (settled : lexer.Settled)
    (ended : (lexer.behind count).next.1.isEnd = true) (further : count < more) :
    (lexer.behind more).readError = lexer.failure := by
  obtain ⟨rest, rfl⟩ := Nat.exists_eq_add_of_lt further
  have known : (lexer.behind (count + rest + 1)).exhausted = true := by
    rw [Nat.add_assoc, behind_add, Lexer.behind]
    apply (settled.behind count).next.exhausted_behind
    rw [(settled.behind count).gives.exhausted_eq]
    exact Bool.or_eq_true_iff.2 (.inr ended)
  rw [readError, if_pos known, settled.failure_behind]

/-- The end of the input is met. -/
theorem exists_end {counted : Prop} {source : String} {before ahead : List Char}
    (settled : lexer.Settled) (agrees : Agrees counted source before ahead lexer.next) :
    ∃ count, (lexer.behind count).next.1.isEnd = true := by
  induction size : ahead.length using Nat.strongRecOn generalizing lexer before ahead with
  | ind length hypothesis =>
    have settled := settled.next
    generalize result : lexer.next = met at agrees settled
    cases agrees with
    | @token lexeme token after further left scans same regular shorter name stands =>
      obtain ⟨earlier, passed, row, within, rfl, rfl⟩ := stands
      have following := nextAmong_agrees within
      rw [name, ← settled.next_eq] at following
      obtain ⟨count, ended⟩ := hypothesis _ (size ▸ shorter) settled following rfl
      exact ⟨count + 1, by rw [behind, result]; exact ended⟩
    | @ended mark position after scans final place => exact ⟨0, by rw [behind, result]; rfl⟩

end Lexer

namespace Input

end Input

end Kaleidoscope
