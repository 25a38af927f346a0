import Kaleidoscope.Proofs.Lines
import Kaleidoscope.Proofs.Spelling

set_option autoImplicit false

/- A scanner that has the whole text before it, looks one character ahead and knows nothing of
lines. It counts the place of a token from the text before the token. -/

namespace Kaleidoscope

/-- A token with the places where it starts and where it ends. -/
structure Lexeme where
  kind : Token.Kind
  start : Mark
  stop : Mark
  deriving DecidableEq

namespace Lexeme

open Text

/-- The token that the lexeme is in a source. -/
def token (source : String) (lexeme : Lexeme) : Token :=
  ⟨lexeme.kind, lexeme.start.position source, lexeme.stop.position source⟩

/-- The token is of the lexeme's kind, and if lines are `counted` exactly it is the lexeme. -/
structure Matches (counted : Prop) (source : String) (lexeme : Lexeme) (token : Token) : Prop where
  kind : lexeme.kind = token.kind
  place : counted → lexeme.token source = token

/-- The tokens of a text, where `before` is what has been read of it and the rest is to come. -/
def scan (before : List Char) : List Char → List Lexeme
  | [] => [⟨.endOfInput, .ending before, .ending before⟩]
  | c :: rest =>
    if isBlank c then scan (before ++ [c]) rest
    else if c = '#' then
      let comment := c :: rest.takeWhile (· != '\n')
      scan (before ++ comment) (rest.dropWhile (· != '\n'))
    else if c.isAlpha then
      let word := c :: rest.takeWhile Char.isAlphanum
      ⟨.ofWord (String.ofList word), .behind before, .behind (before ++ word)⟩ ::
        scan (before ++ word) (rest.dropWhile Char.isAlphanum)
    else if isNumeral c then
      let numeral := c :: rest.takeWhile isNumeral
      ⟨.number (.ofNumeral numeral), .behind before, .behind (before ++ numeral)⟩ ::
        scan (before ++ numeral) (rest.dropWhile isNumeral)
    else ⟨.symbol c, .behind before, .behind (before ++ [c])⟩ :: scan (before ++ [c]) rest
termination_by ahead => ahead.length
decreasing_by all_goals grind [List.dropWhile_sublist, List.Sublist.length_le]

end Lexeme

namespace Text

variable {test : Char → Bool} {row more : List Char} {lines : List (List Char)} {c : Char}

/-- A run of characters ends before a character that is not of its class. -/
theorem takeWhile_append_cons (fails : test c = false) (row more : List Char) :
    (row ++ c :: more).takeWhile test = row.takeWhile test := by
  induction row with
  | nil => simp [fails]
  | cons first row hypothesis => simp [List.takeWhile_cons, hypothesis]

theorem dropWhile_append_cons (fails : test c = false) (row more : List Char) :
    (row ++ c :: more).dropWhile test = row.dropWhile test ++ c :: more := by
  induction row with
  | nil => simp [fails]
  | cons first row hypothesis =>
    simp only [List.cons_append, List.dropWhile_cons, hypothesis]
    split <;> rfl

/-- A run of characters ends at a line feed, and does not see what follows it. -/
theorem takeWhile_append_of_feed (ends : more = [] ∨ '\n' ∈ row) (fails : test '\n' = false) :
    (row ++ more).takeWhile test = row.takeWhile test := by
  rcases ends with rfl | feed
  · rw [List.append_nil]
  · obtain ⟨front, back, rfl⟩ := List.append_of_mem feed
    rw [List.append_assoc, List.cons_append, takeWhile_append_cons fails,
      takeWhile_append_cons fails]

theorem dropWhile_append_of_feed (ends : more = [] ∨ '\n' ∈ row) (fails : test '\n' = false) :
    (row ++ more).dropWhile test = row.dropWhile test ++ more := by
  rcases ends with rfl | feed
  · rw [List.append_nil, List.append_nil]
  · obtain ⟨front, back, rfl⟩ := List.append_of_mem feed
    rw [List.append_assoc, List.cons_append, dropWhile_append_cons fails,
      dropWhile_append_cons fails, List.append_assoc, List.cons_append]

theorem ne_feed_of_not_isBlank (solid : isBlank c ≠ true) : '\n' ≠ c := by
  rintro rfl
  exact solid (by decide)

theorem not_mem_cons_takeWhile (differs : '\n' ≠ c) (fails : test '\n' = false) :
    '\n' ∉ c :: row.takeWhile test := by
  rw [List.mem_cons, not_or]
  refine ⟨differs, ?_⟩
  intro inside
  have holds : test '\n' = true := List.mem_takeWhile_imp inside
  rw [holds] at fails
  cases fails

/-- A line that does not end the text ends with a line feed. -/
theorem Lined.ends (lined : Lined (row :: lines)) : lines.flatten = [] ∨ '\n' ∈ row := by
  cases lined with
  | last _ _ => exact .inl rfl
  | cons full _ =>
    obtain ⟨body, _, rfl⟩ := full
    exact .inr (by simp)

end Text

namespace Lexeme

open Text

variable {before row rest more word : List Char} {pending : List (List Char)} {c : Char}

/-- A token stands at the start of the row. It takes the word and leaves the tail, both where the
row is read alone and where more follows it. -/
structure Cuts (row more word tail : List Char) (kind : Token.Kind) : Prop where
  read : Token.Kind.read? row = some (kind, word)
  scan : ∀ before, scan before (row ++ more) =
    ⟨kind, .behind before, .behind (before ++ word)⟩ :: scan (before ++ word) (tail ++ more)
  split : row = word ++ tail
  present : word ≠ []
  plain : '\n' ∉ word
  regular : kind ≠ .endOfInput

/-- The longest run of characters of a class to which line feeds do not belong. -/
theorem exists_cuts_of_run (test : Char → Bool) (kind : List Char → Token.Kind)
    (read : ∀ rest, Token.Kind.read? (c :: rest) =
      some (kind (c :: rest.takeWhile test), c :: rest.takeWhile test))
    (scans : ∀ before rest, scan before (c :: rest) =
      ⟨kind (c :: rest.takeWhile test), .behind before,
          .behind (before ++ c :: rest.takeWhile test)⟩ ::
        scan (before ++ c :: rest.takeWhile test) (rest.dropWhile test))
    (regular : ∀ word, kind word ≠ .endOfInput) (differs : '\n' ≠ c) (fails : test '\n' = false)
    (ends : more = [] ∨ '\n' ∈ c :: rest) :
    ∃ kind word tail, Cuts (c :: rest) more word tail kind := by
  have later : more = [] ∨ '\n' ∈ rest :=
    ends.imp_right fun feed => (List.mem_cons.1 feed).resolve_left differs
  refine ⟨kind (c :: rest.takeWhile test), c :: rest.takeWhile test, rest.dropWhile test, read rest,
    ?_, by simp, by simp, not_mem_cons_takeWhile differs fails, regular _⟩
  intro before
  rw [List.cons_append, scans, takeWhile_append_of_feed later fails,
    dropWhile_append_of_feed later fails]

/-- Where a token starts, the rest of the line is enough to read it. -/
theorem exists_cuts (solid : isSolid c = true) (ends : more = [] ∨ '\n' ∈ c :: rest) :
    ∃ kind word tail, Cuts (c :: rest) more word tail kind := by
  simp only [isSolid, Bool.and_eq_true, Bool.not_eq_true', bne_iff_ne] at solid
  have differs := ne_feed_of_not_isBlank (Bool.eq_false_iff.1 solid.1)
  by_cases letter : c.isAlpha = true
  · have first := isAlphanum_of_isAlpha letter
    refine exists_cuts_of_run Char.isAlphanum (fun word => .ofWord (String.ofList word)) ?_ ?_
      (fun word => Token.Kind.ofWord_ne_endOfInput _) differs (by decide) ends
    · intro rest
      simp [Token.Kind.read?, letter, first]
    · intro before rest
      rw [scan]
      simp [solid, letter]
  by_cases numeral : isNumeral c = true
  · refine exists_cuts_of_run isNumeral (fun word => .number (.ofNumeral word)) ?_ ?_
      (by simp) differs (by decide) ends
    · intro rest
      simp [Token.Kind.read?, letter, numeral]
    · intro before rest
      rw [scan]
      simp [solid, letter, numeral]
  · refine ⟨.symbol c, [c], rest, by simp [Token.Kind.read?, letter, numeral], ?_, by simp,
      by simp, by simpa using differs, by simp⟩
    intro before
    rw [List.cons_append, scan]
    simp [solid, letter, numeral]

theorem scan_of_isBlank (blank : isBlank c = true) (before rest : List Char) :
    scan before (c :: rest) = scan (before ++ [c]) rest := by
  rw [scan]
  simp [blank]

/-- A comment ends at the line feed of its line, if there is one. -/
theorem scan_comment (ends : more = [] ∨ '\n' ∈ rest) (before : List Char) :
    scan before ('#' :: rest ++ more) =
      scan (before ++ '#' :: rest.takeWhile (· != '\n')) (rest.dropWhile (· != '\n') ++ more) := by
  rw [List.cons_append, scan, takeWhile_append_of_feed ends (by decide),
    dropWhile_append_of_feed ends (by decide)]
  simp [isBlank]

/-- Blanks and comments at the start of a line are passed over. -/
theorem scan_leadingTrivia (lined : row ≠ [] → Lined (row :: pending)) (before : List Char) :
    ∃ tail, row = leadingTrivia false row ++ tail ∧ (∀ c ∈ tail.head?, isSolid c = true) ∧
      scan before (row ++ pending.flatten) =
        scan (before ++ leadingTrivia false row) (tail ++ pending.flatten) := by
  -- A comment is passed over in one step, so the induction is on the length of the row.
  induction size : row.length using Nat.strong_induction_on generalizing row before with
  | _ length hypothesis =>
  cases row with
  | nil => exact ⟨[], rfl, by simp, by simp [leadingTrivia]⟩
  | cons c rest =>
    have line := lined (by simp)
    rw [List.length_cons] at size
    by_cases blank : isBlank c = true
    · have whole : Lined (([c] ++ rest) :: pending) := line
      have trivia : leadingTrivia false (c :: rest) = [c] ++ leadingTrivia false rest := by
        simp [leadingTrivia, blank]
      obtain ⟨tail, split, solid, same⟩ := hypothesis rest.length (by omega)
        (fun present => (whole.of_append present).2) (before ++ [c]) rfl
      refine ⟨tail, by rw [trivia, List.append_assoc, ← split, List.singleton_append], solid, ?_⟩
      rw [List.cons_append, scan_of_isBlank blank, same, trivia, List.append_assoc]
    by_cases sign : c = '#'
    · subst sign
      let comment := '#' :: rest.takeWhile (· != '\n')
      let left := rest.dropWhile (· != '\n')
      have split : '#' :: rest = comment ++ left := by simp [comment, left]
      have whole : Lined ((comment ++ left) :: pending) := split ▸ line
      have trivia : leadingTrivia false ('#' :: rest) = comment ++ leadingTrivia false left := by
        simp [leadingTrivia, leadingTrivia_true, comment, left, isBlank]
      have shorter : left.length ≤ rest.length := (List.dropWhile_sublist _).length_le
      have later : pending.flatten = [] ∨ '\n' ∈ rest :=
        line.ends.imp_right fun feed => (List.mem_cons.1 feed).resolve_left (by decide)
      obtain ⟨tail, behind, solid, same⟩ := hypothesis left.length (by omega)
        (fun present => (whole.of_append present).2) (before ++ comment) rfl
      refine ⟨tail, by rw [trivia, List.append_assoc, ← behind, split], solid, ?_⟩
      rw [scan_comment later, same, trivia, List.append_assoc]
    · have solid : isSolid c = true := by simp [isSolid, blank, sign]
      refine ⟨c :: rest, ?_, by simpa using solid, ?_⟩
      · rw [leadingTrivia_of_isSolid rest solid, List.nil_append]
      · rw [leadingTrivia_of_isSolid rest solid, List.append_nil]

end Lexeme

namespace Lexer

open Text Lexeme

/-- The lexer stands in a line behind what it has passed of it. The earlier lines are used up, and
the pending ones are still to come. Only where lines are `counted` need there be few of them. -/
structure Within (lexer : Lexer) (counted : Prop) (earlier pending : List (List Char))
    (passed row : List Char) : Prop extends Past lexer passed row where
  lineNumber : lexer.lineNumber = UInt32.ofNat (earlier.length + 1)
  few : counted → earlier.length + 1 + pending.length < 2 ^ 32
  full : ∀ line ∈ earlier, Full line
  lined : Lined ((passed ++ row) :: pending)

variable {lexer : Lexer} {counted : Prop} {earlier pending : List (List Char)}
  {line passed row word : List Char}

namespace Within

theorem pass (within : lexer.Within counted earlier pending passed (word ++ row)) :
    (lexer.pass word).Within counted earlier pending (passed ++ word) row where
  toPast := within.toPast.pass
  lineNumber := within.lineNumber
  few := within.few
  full := within.full
  lined := by simpa using within.lined

theorem position (within : lexer.Within counted earlier pending passed row) (exact : counted) :
    lexer.position = Mark.position lexer.source ⟨earlier.length + 1, passed.length + 1⟩ := by
  have few := within.few exact
  have started : UInt32.ofNat (earlier.length + 1) ≠ 0 := by
    intro zero
    have same := congrArg UInt32.toNat zero
    rw [UInt32.toNat_ofNat_of_lt' (by simp [UInt32.size]; omega)] at same
    simp at same
  simp only [Lexer.position, Mark.position, within.lineNumber, within.column, started, ↓reduceIte,
    Nat.add_comm 1]

/-- Before the line feed, the place is counted from the text that has been passed. -/
theorem position_of_not_mem (within : lexer.Within counted earlier pending passed row)
    (exact : counted) (plain : '\n' ∉ passed) :
    lexer.position = (Mark.behind (earlier.flatten ++ passed)).position lexer.source := by
  rw [within.position exact, Mark.behind_of_full within.full plain]

/-- At the end of the last line, the place is the end of the text. -/
theorem position_of_used (within : lexer.Within counted earlier [] passed []) (exact : counted) :
    lexer.position = (Mark.ending (earlier.flatten ++ passed)).position lexer.source := by
  have lined := within.lined
  rw [List.append_nil] at lined
  have present := lined.ne_nil
  rw [← List.dropLast_append_getLast present] at lined
  have plain := (lined.of_append (by simp)).1
  rw [within.position exact, Mark.ending_of_full within.full present plain]

/-- When a line is used up the next one starts. -/
theorem startLine (within : lexer.Within counted earlier (line :: pending) passed []) :
    (lexer.startLine line).Within counted (earlier ++ [passed]) pending [] line := by
  have lined := within.lined
  rw [List.append_nil] at lined
  obtain ⟨full, rest⟩ := lined.full_of_ne_nil (by simp)
  exact {
    toPast := ⟨rfl, rfl, rfl⟩
    lineNumber := by
      simp only [Lexer.startLine, within.lineNumber, List.length_append, List.length_singleton]
      rw [UInt32.ofNat_add (earlier.length + 1) 1]
      rfl
    few := by
      intro exact
      have few := within.few exact
      rw [List.length_cons] at few
      rw [List.length_append, List.length_singleton]
      omega
    full := by
      rw [List.forall_mem_append]
      exact ⟨within.full, by simpa using full⟩
    lined := rest }

/-- The lexer passes over blanks and comments as a scan of the text does. -/
theorem passTrivia (within : lexer.Within counted earlier pending passed row) :
    ∃ trivia tail, lexer.passTrivia.Within counted earlier pending (passed ++ trivia) tail ∧
      row = trivia ++ tail ∧ (∀ c ∈ tail.head?, isSolid c = true) ∧
        scan (earlier.flatten ++ passed) (row ++ pending.flatten) =
          scan (earlier.flatten ++ (passed ++ trivia)) (tail ++ pending.flatten) := by
  obtain ⟨tail, split, solid, same⟩ := scan_leadingTrivia
    (fun present => (within.lined.of_append present).2) (earlier.flatten ++ passed)
  refine ⟨leadingTrivia false row, tail, ?_, split, solid, by rw [same, List.append_assoc]⟩
  rw [Lexer.passTrivia, within.holds.rest]
  exact pass (split ▸ within)

/-- The lexer cuts the same token off the line as a scan cuts off the text. -/
theorem cutToken? {c : Char} {rest : List Char}
    (within : lexer.Within counted earlier pending passed (c :: rest)) (solid : isSolid c = true) :
    ∃ lexeme token word tail, lexer.cutToken? = some (token, lexer.pass word) ∧
      lexeme.Matches counted lexer.source token ∧ token.kind ≠ .endOfInput ∧
        tail.length < (c :: rest).length ∧
        (lexer.pass word).Within counted earlier pending (passed ++ word) tail ∧
          scan (earlier.flatten ++ passed) (c :: rest ++ pending.flatten) =
            lexeme :: scan (earlier.flatten ++ (passed ++ word)) (tail ++ pending.flatten) := by
  obtain ⟨plain, line⟩ := within.lined.of_append (by simp)
  obtain ⟨kind, word, tail, cuts⟩ := exists_cuts solid line.ends
  have moved : (lexer.pass word).Within counted earlier pending (passed ++ word) tail :=
    pass (cuts.split ▸ within)
  have clear : '\n' ∉ passed ++ word := by
    rw [List.mem_append, not_or]
    exact ⟨plain, cuts.plain⟩
  let lexeme : Lexeme :=
    ⟨kind, .behind (earlier.flatten ++ passed), .behind (earlier.flatten ++ (passed ++ word))⟩
  let token : Token := ⟨kind, lexer.position, (lexer.pass word).position⟩
  have place : counted → lexeme.token lexer.source = token := by
    intro exact
    simp only [token, within.position_of_not_mem exact plain, moved.position_of_not_mem exact clear]
    rfl
  refine ⟨lexeme, token, word, tail, ?_, ⟨rfl, place⟩, cuts.regular, ?_, moved, ?_⟩
  · simp only [Lexer.cutToken?, within.holds.rest, cuts.read, Option.map_some, token]
  · have size := congrArg List.length cuts.split
    have positive := List.length_pos_iff.2 cuts.present
    rw [List.length_append] at size
    omega
  · rw [cuts.scan, List.append_assoc]

theorem cutToken?_eq_none (within : lexer.Within counted earlier pending passed []) :
    lexer.cutToken? = none := by
  rw [Lexer.cutToken?, within.holds.rest, Token.Kind.read?, Option.map_none]

/-- The lines still to come do not bear on where the lexer stands in its line. -/
theorem keep (within : lexer.Within counted earlier pending passed row) (lines : List (List Char)) :
    { lexer with pending := lines }.Within counted earlier pending passed row :=
  ⟨⟨within.line, within.offset, within.column⟩, within.lineNumber, within.few, within.full,
    within.lined⟩

end Within

/-- The lexer stands in a text behind what it has read of it, with the rest ahead. -/
def Stands (lexer : Lexer) (counted : Prop) (pending : List (List Char))
    (before ahead : List Char) : Prop :=
  ∃ earlier passed row, lexer.Within counted earlier pending passed row ∧
    earlier.flatten ++ passed = before ∧ row ++ pending.flatten = ahead

/-- A step of the lexer gives the token that comes next in a scan of the text, or the end where
the scan meets it too. -/
inductive Agrees (counted : Prop) (source : String) (before ahead : List Char) :
    Token × Lexer → Prop where
  | token {lexeme : Lexeme} {token : Token} {after : Lexer} {further left : List Char}
      (scans : scan before ahead = lexeme :: scan further left)
      (same : lexeme.Matches counted source token) (regular : token.kind ≠ .endOfInput)
      (shorter : left.length < ahead.length) (name : after.source = source)
      (stands : after.Stands counted after.pending further left) :
      Agrees counted source before ahead (token, after)
  | ended {mark : Mark} {position : Position} {after : Lexer}
      (scans : scan before ahead = [⟨.endOfInput, mark, mark⟩]) (same : after.position = position)
      (place : counted → position = mark.position source) :
      Agrees counted source before ahead (.endAt position, after)

/-- What a scan passes over before the next token changes nothing. -/
theorem Agrees.of_scan {source : String} {before ahead further left : List Char}
    {result : Token × Lexer} (agrees : Agrees counted source further left result)
    (same : scan before ahead = scan further left) (shorter : left.length ≤ ahead.length) :
    Agrees counted source before ahead result := by
  cases agrees with
  | token scans alike regular less name stands =>
    exact .token (same.trans scans) alike regular (by omega) name stands
  | ended scans final place => exact .ended (same.trans scans) final place

/-- A token in the line at hand is the next one, so only the case of a line without one is left. -/
theorem agrees_of_used (within : lexer.Within counted earlier pending passed row)
    (used : ∀ trivia, lexer.passTrivia.Within counted earlier pending (passed ++ trivia) [] →
      Agrees counted lexer.source (earlier.flatten ++ (passed ++ trivia)) pending.flatten
        (lexer.nextAmong pending)) :
    Agrees counted lexer.source (earlier.flatten ++ passed) (row ++ pending.flatten)
      (lexer.nextAmong pending) := by
  obtain ⟨trivia, tail, ahead, split, solid, scans⟩ := within.passTrivia
  have shorter : (tail ++ pending.flatten).length ≤ (row ++ pending.flatten).length := by
    simp [split]
  refine Agrees.of_scan ?_ scans shorter
  cases tail with
  | nil => exact used trivia ahead
  | cons c rest =>
    obtain ⟨lexeme, token, word, left, cut, same, regular, less, moved, scans⟩ :=
      ahead.cutToken? (solid c (by simp))
    rw [nextAmong_of_cutToken? cut]
    refine .token scans same regular ?_ rfl ⟨_, _, _, moved.keep pending, rfl, rfl⟩
    rw [List.length_append, List.length_append]
    omega

/-- One step of the lexer is one step of a scan. The induction is on the lines still to come, of
which any number may hold no token. -/
theorem nextAmong_agrees (within : lexer.Within counted earlier pending passed row) :
    Agrees counted lexer.source (earlier.flatten ++ passed) (row ++ pending.flatten)
      (lexer.nextAmong pending) := by
  induction pending generalizing lexer earlier passed row with
  | nil =>
    refine agrees_of_used within ?_
    intro trivia ahead
    simp only [nextAmong, ahead.cutToken?_eq_none]
    exact .ended (by rw [List.flatten_nil, scan]) rfl ahead.position_of_used
  | cons line pending hypothesis =>
    refine agrees_of_used within ?_
    intro trivia ahead
    have same : (lexer.passTrivia.startLine line).source = lexer.source := rfl
    have next := hypothesis ahead.startLine
    rw [same] at next
    rw [nextAmong, ahead.cutToken?_eq_none]
    simpa using next

/-- All steps: the tokens up to the end, and the end, are those of a scan. -/
theorem takeTokens_matches_scan {source : String} {before ahead : List Char}
    (settled : lexer.Settled) (agrees : Agrees counted source before ahead lexer.next)
    (count : Nat) (enough : ahead.length < count) :
    List.Forall₂ (Lexeme.Matches counted source) (scan before ahead)
      ((lexer.takeTokens count).1 ++ [.endAt (lexer.takeTokens count).2.position]) := by
  induction count generalizing lexer before ahead with
  | zero => omega
  | succ count hypothesis =>
    rw [takeTokens]
    have settled := settled.next
    generalize lexer.next = result at agrees settled
    cases agrees with
    | @token lexeme token after further left scans same regular shorter name stands =>
      obtain ⟨earlier, passed, row, within, rfl, rfl⟩ := stands
      have going : token.isEnd = false := by simpa [Token.isEnd] using regular
      have following := nextAmong_agrees within
      rw [name, ← settled.next_eq] at following
      have later := hypothesis settled following (by omega)
      simpa [going, scans] using And.intro same later
    | @ended mark position after scans same place =>
      have last : (Lexeme.mk .endOfInput mark mark).Matches counted source (.endAt position) := by
        refine ⟨rfl, fun exact => ?_⟩
        rw [place exact]
        rfl
      simpa [scans, same, Token.isEnd] using last

/-- Before the first line the lexer stands where the text starts. -/
theorem agrees_ofInput {input : Input} (source : Option String) (lined : Lined input.lines)
    (few : counted → input.lines.length < 2 ^ 32) :
    Agrees counted (source.getD defaultSource) [] input.lines.flatten
      (ofInput input source).next := by
  obtain ⟨lines, failure⟩ := input
  let initial := ofInput ⟨lines, failure⟩ source
  have before : initial.Holds [] := ⟨[], rfl, rfl⟩
  rw [(settled_ofInput _ source).next_eq]
  change Agrees counted _ [] lines.flatten (initial.nextAmong lines)
  cases lines with
  | nil =>
    simp only [nextAmong, before.cutToken?_eq_none]
    exact .ended (by rw [List.flatten_nil, scan]) rfl fun _ => rfl
  | cons line pending =>
    have first : (initial.passTrivia.startLine line).Within counted [] pending [] line :=
      { toPast := ⟨rfl, rfl, rfl⟩
        lineNumber := rfl
        few := by
          intro exact
          have few := few exact
          rw [List.length_cons] at few
          rw [List.length_nil]
          omega
        full := by simp
        lined := lined }
    rw [nextAmong_cons_of_holds_nil before]
    exact nextAmong_agrees first

end Lexer

namespace Lexeme

open Text

variable {before ahead : List Char} {lexeme : Lexeme}

theorem of_mem_cons {kind : Token.Kind} {word tail : List Char} (present : word ≠ [])
    (plain : '\n' ∉ word) {later : List Lexeme}
    (inside : lexeme ∈ ⟨kind, .behind before, .behind (before ++ word)⟩ :: later)
    (following : lexeme ∈ later →
      lexeme.start.Of (before ++ word ++ tail) ∧ lexeme.stop.Of (before ++ word ++ tail)) :
    lexeme.start.Of (before ++ (word ++ tail)) ∧ lexeme.stop.Of (before ++ (word ++ tail)) := by
  rcases List.mem_cons.1 inside with rfl | inside
  · exact ⟨Mark.of_start (by simp [present]), Mark.of_stop present plain⟩
  · simpa using following inside

/-- Every token of a scan starts and stops at a place of the text. -/
theorem of_mem_scan (inside : lexeme ∈ scan before ahead) :
    lexeme.start.Of (before ++ ahead) ∧ lexeme.stop.Of (before ++ ahead) := by
  fun_induction scan before ahead with
  | case1 before =>
    rw [List.mem_singleton] at inside
    rw [inside, List.append_nil]
    exact ⟨.inl rfl, .inl rfl⟩
  | case2 before c rest blank hypothesis => simpa using hypothesis inside
  | case3 before rest solid comment hypothesis => simpa [comment] using hypothesis inside
  | case4 before c rest solid sign letter word hypothesis =>
    have plain : '\n' ∉ word := not_mem_cons_takeWhile (ne_feed_of_not_isBlank solid) (by decide)
    simpa [word] using of_mem_cons (by simp) plain inside hypothesis
  | case5 before c rest solid sign letter first numeral hypothesis =>
    have plain : '\n' ∉ numeral := not_mem_cons_takeWhile (ne_feed_of_not_isBlank solid) (by decide)
    simpa [numeral] using of_mem_cons (by simp) plain inside hypothesis
  | case6 before c rest solid sign letter numeral hypothesis =>
    have plain : '\n' ∉ [c] := by simpa using ne_feed_of_not_isBlank solid
    exact of_mem_cons (by simp) plain inside hypothesis

end Lexeme

namespace Input

open Text Lexeme

/-- An input of lines gives the tokens of the text that the lines make up. -/
theorem tokens_match_scan {input : Input} {counted : Prop} (source : Option String)
    (lined : Lined input.lines) (few : counted → input.lines.length < 2 ^ 32) :
    List.Forall₂ (Lexeme.Matches counted (source.getD Lexer.defaultSource))
      (scan [] input.lines.flatten) (input.tokens source) := by
  let initial : Lexer := .ofInput input source
  have before : initial.Holds [] := ⟨[], rfl, rfl⟩
  have size : initial.remaining = input.lines.flatten.length := by
    rw [Lexer.remaining, before.rest]
    simp [initial, Lexer.ofInput]
  exact Lexer.takeTokens_matches_scan (Lexer.settled_ofInput input source)
    (Lexer.agrees_ofInput source lined few) (initial.remaining + 1) (by omega)

theorem tokens_of_lined {input : Input} (source : Option String) (lined : Lined input.lines)
    (few : input.lines.length < 2 ^ 32) :
    input.tokens source = (scan [] input.lines.flatten).map
      (Lexeme.token (source.getD Lexer.defaultSource)) := by
  have whole := tokens_match_scan source lined fun _ : True => few
  symm
  rw [← List.forall₂_eq_eq_eq, List.forall₂_map_left_iff]
  exact whole.imp fun _ _ same => same.place trivial

/-- The places of tokens wrap around in a text of very many lines, their kinds do not. -/
theorem kinds_of_lined {input : Input} (source : Option String) (lined : Lined input.lines) :
    (input.tokens source).map Token.kind = (scan [] input.lines.flatten).map Lexeme.kind := by
  have whole := tokens_match_scan source lined (False.elim : False → _)
  symm
  rw [← List.forall₂_eq_eq_eq, List.forall₂_map_left_iff, List.forall₂_map_right_iff]
  exact whole.imp fun _ _ same => same.kind

/-- The lexer, which reads a text line by line, gives the tokens of a scan of the whole text, with
the same places. If no line is too long for a column number, the numbers of all these places are
exact, up to the end of a text whose last line is as long as can be. -/
theorem tokens_eq_scan (text : String) (source : Option String)
    (few : (ofText text none).lines.length < 2 ^ 32) :
    (ofText text none).tokens source =
        (scan [] text.toList).map (Lexeme.token (source.getD Lexer.defaultSource)) ∧
      ((∀ line ∈ (ofText text none).lines, line.length < 2 ^ 32) →
        ∀ lexeme ∈ scan [] text.toList, ∀ mark ∈ [lexeme.start, lexeme.stop], ∀ name,
          (mark.position name).line.toNat = mark.line ∧
            ((mark.position name).column.toNat = mark.column ∨
              mark = .ending text.toList ∧ mark.column = 2 ^ 32)) := by
  obtain ⟨lined, whole⟩ := lined_ofText text
  constructor
  · have same := tokens_of_lined source lined few
    rw [whole] at same
    exact same
  · intro short lexeme inside mark either name
    have places := of_mem_scan inside
    rw [List.nil_append, ← whole] at places
    have place : mark.Of (ofText text none).lines.flatten := by
      rcases List.mem_pair.1 either with rfl | rfl
      · exact places.1
      · exact places.2
    rw [← whole]
    exact place.fits lined few short name

/-- A text with a character of two bytes, a comment before a carriage return, an empty line, and a
last line without a line feed. -/
theorem tokens_eq_scan_of_mixed_text :
    (ofText "é=1.2.3 # é\r\n\n\tdef x1" none).lines.length < 2 ^ 32 ∧
      (∀ line ∈ (ofText "é=1.2.3 # é\r\n\n\tdef x1" none).lines, line.length < 2 ^ 32) ∧
      (ofText "é=1.2.3 # é\r\n\n\tdef x1" none).tokens none =
        [⟨.symbol 'é', ⟨1, 1⟩, ⟨1, 2⟩⟩, ⟨.symbol '=', ⟨1, 2⟩, ⟨1, 3⟩⟩,
          ⟨.number (.ofNumeral "1.2".toList), ⟨1, 3⟩, ⟨1, 8⟩⟩, ⟨.keyword .defWord, ⟨3, 2⟩, ⟨3, 5⟩⟩,
          ⟨.identifier "x1", ⟨3, 6⟩, ⟨3, 8⟩⟩, ⟨.endOfInput, ⟨3, 8⟩, ⟨3, 8⟩⟩].map
            (Lexeme.token "shell") ∧
      ∀ lexeme ∈ scan [] "é=1.2.3 # é\r\n\n\tdef x1".toList,
        ∀ mark ∈ [lexeme.start, lexeme.stop], ∀ name,
          (mark.position name).line.toNat = mark.line ∧
            ((mark.position name).column.toNat = mark.column ∨
              mark = .ending "é=1.2.3 # é\r\n\n\tdef x1".toList ∧ mark.column = 2 ^ 32) := by
  have few : (ofText "é=1.2.3 # é\r\n\n\tdef x1" none).lines.length < 2 ^ 32 := by decide
  have short : ∀ line ∈ (ofText "é=1.2.3 # é\r\n\n\tdef x1" none).lines, line.length < 2 ^ 32 := by
    decide
  have agrees := tokens_eq_scan "é=1.2.3 # é\r\n\n\tdef x1" none few
  refine ⟨few, short, agrees.1.trans ?_, agrees.2 short⟩
  exact congrArg (List.map (Lexeme.token "shell")) (by decide +kernel)

end Input

end Kaleidoscope
