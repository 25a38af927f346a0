import Kaleidoscope.Proofs.Finality

set_option autoImplicit false

/- In no state of a lexer, also within the search for a token, does a turn slip. -/

namespace Kaleidoscope

open Text

namespace Lexer

/-- The states that a lexer goes through, also those within the search for a token. -/
inductive Visits (origin : Lexer) : Lexer → Prop where
  | start : Visits origin origin
  | turn {lexer after : Lexer} {token : Option Token} (visited : Visits origin lexer)
      (turned : lexer.turn = .ok (token, after)) : Visits origin after

variable {lexer after : Lexer} {passed row : List Char}

theorem Past.toNat_column (past : lexer.Past passed row) (short : 1 + passed.length < 2 ^ 32) :
    lexer.column.toNat = 1 + passed.length := by
  rw [past.column, UInt32.toNat_ofNat_of_lt' short]

/-- What holds between two turns on the lines of an input, of which none is empty. -/
structure Sound (lexer : Lexer) : Prop extends Settled lexer where
  filled : ∀ line ∈ lexer.pending, line ≠ []

/-- A turn keeps what holds between turns. -/
theorem Turned.sound {outcome : Option Token × Lexer} (turned : lexer.Turned outcome)
    (sound : lexer.Sound) : outcome.2.Sound := by
  refine ⟨turned.settled sound.toSettled, ?_⟩
  cases turned with
  | trivia past present trivia => exact sound.filled
  | token past solid found => exact sound.filled
  | @line line pending used more =>
    have filled := sound.filled
    rw [more, List.forall_mem_cons] at filled
    exact filled.2
  | ended past last => exact sound.filled

/-- A turn that gives no token uses up some of the line, or starts another one that is not empty. -/
theorem Turned.progress {outcome : Option Token × Lexer} (turned : lexer.Turned outcome)
    (sound : lexer.Sound) (going : outcome.1 = none) :
    (outcome.2.line = lexer.line ∧ outcome.2.pending = lexer.pending ∧
        lexer.offset < outcome.2.offset) ∨
      (lexer.pending = outcome.2.line :: outcome.2.pending ∧ outcome.2.line ≠ [] ∧
        outcome.2.offset = 0) := by
  cases turned with
  | @trivia passed word tail past present trivia =>
    have positive := Nat.pos_of_ne_zero (mt byteLength_eq_zero_iff.1 present)
    exact .inl ⟨rfl, rfl, Nat.lt_add_of_pos_right positive⟩
  | token past solid found => cases going
  | @line line pending used more => exact .inr ⟨more, sound.filled line (by simp [more]), rfl⟩
  | ended past last => cases going

theorem Visits.sound {origin : Lexer} (visited : origin.Visits lexer) (sound : origin.Sound) :
    lexer.Sound := by
  induction visited with
  | start => exact sound
  | turn visited run hypothesis => exact (hypothesis.turned run).sound hypothesis

theorem Visits.turns {origin : Lexer} {count : Nat} {token : Option Token}
    (visited : origin.Visits lexer) (run : lexer.turns count = .ok (token, after)) :
    origin.Visits after := by
  induction count generalizing lexer with
  | zero =>
    cases run
    exact visited
  | succ count hypothesis =>
    rw [Lexer.turns] at run
    split at run
    next turned => exact hypothesis (visited.turn turned) run
    next => exact visited.turn run

theorem Sound.visits_behind (sound : lexer.Sound) (count : Nat) :
    lexer.Visits (lexer.behind count) := by
  induction count with
  | zero => exact .start
  | succ count hypothesis =>
    rw [behind_succ]
    exact hypothesis.turns ((hypothesis.sound sound).turns_eq (Nat.lt_succ_self _))

end Lexer

namespace Input

theorem ne_nil_of_lined {lines : List (List Char)} (lined : Lined lines) :
    ∀ line ∈ lines, line ≠ [] := by
  induction lined with
  | nil => simp
  | last present plain => simpa using present
  | cons full rest hypothesis =>
    rw [List.forall_mem_cons]
    exact ⟨(Lined.cons full rest).ne_nil, hypothesis⟩

theorem sound_ofBytes (bytes : List UInt8) (broken : Option String) (source : Option String) :
    (Lexer.ofInput (ofBytes bytes broken) source).Sound where
  toSettled := Lexer.settled_ofInput _ source
  filled := by
    obtain ⟨text, -, read⟩ := exists_text bytes broken
    have lined := (lined_ofText (String.ofList text)).1
    rw [read]
    exact ne_nil_of_lined lined

/-- For every input, in every state that the lexer goes through, within the search for a token as
well as between two of them: the offset is within the line and between two characters of it, and the
column is one more than the characters before it. So a turn goes wrong nowhere. It gives a token,
uses up some bytes of the line, or starts a line that is not empty; and the turns come to the next
token, after no more of them than there are characters and lines left and one. -/
theorem turns_are_safe (bytes : List UInt8) (broken : Option String) (source : Option String) :
    (∀ count, (Lexer.ofInput (ofBytes bytes broken) source).Visits
      ((Lexer.ofInput (ofBytes bytes broken) source).behind count)) ∧
    ∀ lexer, (Lexer.ofInput (ofBytes bytes broken) source).Visits lexer →
      (lexer.offset ≤ byteLength lexer.line ∧
        String.Pos.Raw.IsValid (String.ofList lexer.line) ⟨lexer.offset⟩ ∧
        ∃ passed row, lexer.line = passed ++ row ∧ lexer.offset = byteLength passed ∧
          lexer.column = UInt32.ofNat (1 + passed.length) ∧
          (1 + passed.length < 2 ^ 32 → lexer.column.toNat = 1 + passed.length)) ∧
      (∃ token after, lexer.turn = .ok (token, after) ∧
        (token = none →
          (after.line = lexer.line ∧ after.pending = lexer.pending ∧ lexer.offset < after.offset) ∨
          (lexer.pending = after.line :: after.pending ∧ after.line ≠ [] ∧ after.offset = 0))) ∧
      lexer.turns (lexer.remaining + lexer.pending.length + 1) =
        .ok (some lexer.next.1, lexer.next.2) := by
  have start := sound_ofBytes bytes broken source
  refine ⟨start.visits_behind, ?_⟩
  intro lexer visited
  have sound := visited.sound start
  obtain ⟨passed, row, past⟩ := sound.past
  obtain ⟨⟨token, after⟩, run, turned⟩ := sound.exists_turned
  have within : lexer.offset ≤ byteLength lexer.line := by
    rw [past.byteLength_line]
    exact Nat.le_add_right _ _
  refine ⟨⟨within, past.isValid, passed, row, past.line, past.offset, past.column, ?_⟩,
    ⟨token, after, run, turned.progress sound⟩, sound.turns_eq (Nat.lt_succ_self _)⟩
  exact past.toNat_column

/-- A line whose comment holds a character of two bytes, and a line that is not valid. Behind the
comment the lexer stands six bytes and four characters into its line; the fifth byte is within a
character. One turn passes the line feed, and the next one meets the failure. -/
theorem turns_are_safe_of_damage :
    let origin := Lexer.ofInput
      (ofBytes [0xC3, 0xA9, 0x20, 0x23, 0xC3, 0xA9, 0x0A, 0xFF, 0x0A] none) none
    let place (offset : Nat) (column : UInt32) : Lexer :=
      { origin.startLine ['é', ' ', '#', 'é', '\n'] with
        pending := [], offset := offset, column := column }
    origin.Visits (place 6 5) ∧
      (String.Pos.Raw.IsValid (String.ofList (place 6 5).line) ⟨6⟩ ∧
        (place 5 5).slice = .error .boundary ∧
        ∃ passed row, (place 6 5).line = passed ++ row ∧ 6 = byteLength passed ∧
          5 = 1 + passed.length) ∧
      ((place 6 5).turn = .ok (none, place 7 6) ∧ (place 6 5).offset < (place 7 6).offset) ∧
      (place 6 5).turns 2 =
        .ok (some (.endAt ⟨"shell", 1, 6⟩), { place 7 6 with exhausted := true }) := by
  intro origin place
  obtain ⟨between, safe⟩ :=
    turns_are_safe [0xC3, 0xA9, 0x20, 0x23, 0xC3, 0xA9, 0x0A, 0xFF, 0x0A] none none
  have line : origin.behind 1 = place 2 2 := by decide +kernel
  have blank : (place 2 2).turn = .ok (none, place 3 3) := by decide +kernel
  have comment : (place 3 3).turn = .ok (none, place 6 5) := by decide +kernel
  have feed : (place 6 5).turn = .ok (none, place 7 6) := by decide +kernel
  have split : (place 5 5).slice = .error .boundary := by decide +kernel
  have ended : (place 6 5).next =
      (.endAt ⟨"shell", 1, 6⟩, { place 7 6 with exhausted := true }) := by decide +kernel
  have visited : origin.Visits (place 6 5) := ((line ▸ between 1).turn blank).turn comment
  obtain ⟨⟨-, valid, passed, row, whole, offset, -, exact⟩, ⟨token, after, run, progress⟩, turns⟩ :=
    safe (place 6 5) visited
  have short : passed.length ≤ 5 := by
    have size : 5 = (passed ++ row).length := congrArg List.length whole
    rw [List.length_append] at size
    omega
  refine ⟨visited, ⟨valid, split, passed, row, whole, offset, exact (by omega)⟩, ⟨feed, ?_⟩, ?_⟩
  · obtain ⟨rfl, rfl⟩ := Prod.mk.inj (Except.ok.inj (run.symm.trans feed))
    rcases progress rfl with ⟨-, -, further⟩ | ⟨none, -, -⟩
    · exact further
    · cases none
  · rw [ended] at turns
    exact turns

end Input

end Kaleidoscope
