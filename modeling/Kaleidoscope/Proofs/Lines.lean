import Kaleidoscope.Input
import Kaleidoscope.Position
import Mathlib

set_option autoImplicit false

/- A place in a text is counted from the text before it: one line more than there are line feeds,
and one column more than there are characters behind the last of them. -/

namespace Kaleidoscope

namespace Text

/-- A line feed ends the line, and there is no other in it. -/
def Full (line : List Char) : Prop :=
  ∃ row, '\n' ∉ row ∧ line = row ++ ['\n']

/-- Lines of a text: all are full, but the last may also be any row without a line feed that is
not empty. -/
inductive Lined : List (List Char) → Prop where
  | nil : Lined []
  | last {row : List Char} (present : row ≠ []) (plain : '\n' ∉ row) : Lined [row]
  | cons {line : List Char} {lines : List (List Char)} (full : Full line) (rest : Lined lines) :
      Lined (line :: lines)

variable {line passed row : List Char} {lines : List (List Char)}

theorem Full.of_append (full : Full (passed ++ row)) (present : row ≠ []) :
    '\n' ∉ passed ∧ Full row := by
  obtain ⟨body, plain, whole⟩ := full
  have front : passed ++ row.dropLast = body := by
    rw [← List.dropLast_append_of_ne_nil present, whole, List.dropLast_concat]
  have final : passed ++ row = passed ++ (row.dropLast ++ ['\n']) := by
    rw [whole, ← List.append_assoc, front]
  rw [← front, List.mem_append, not_or] at plain
  exact ⟨plain.1, row.dropLast, plain.2, List.append_cancel_left final⟩

/-- A line feed stands nowhere but at the end of a line, and what is left of a line is one. -/
theorem Lined.of_append (lined : Lined ((passed ++ row) :: lines)) (present : row ≠ []) :
    '\n' ∉ passed ∧ Lined (row :: lines) := by
  generalize whole : passed ++ row = line at lined
  cases lined with
  | last _ plain =>
    rw [← whole, List.mem_append, not_or] at plain
    exact ⟨plain.1, .last present plain.2⟩
  | cons full rest =>
    rw [← whole] at full
    exact ⟨(full.of_append present).1, .cons (full.of_append present).2 rest⟩

theorem Lined.full_of_ne_nil (lined : Lined (line :: lines)) (more : lines ≠ []) :
    Full line ∧ Lined lines := by
  cases lined with
  | last _ _ => exact absurd rfl more
  | cons full rest => exact ⟨full, rest⟩

theorem Lined.ne_nil (lined : Lined (line :: lines)) : line ≠ [] := by
  cases lined with
  | last present _ => exact present
  | cons full _ =>
    obtain ⟨row, _, rfl⟩ := full
    simp

theorem Lined.append {earlier : List (List Char)} (full : ∀ line ∈ earlier, Full line)
    (lined : Lined lines) : Lined (earlier ++ lines) := by
  induction earlier with
  | nil => exact lined
  | cons line earlier hypothesis =>
    rw [List.forall_mem_cons] at full
    exact .cons full.1 (hypothesis full.2)

end Text

open Text

/-- A place in a text. Lines and columns count from one. -/
structure Mark where
  line : Nat
  column : Nat
  deriving DecidableEq

namespace Mark

/-- Where a character stands that has the given text before it. -/
def behind (before : List Char) : Mark :=
  ⟨before.count '\n' + 1, (before.rtakeWhile (· != '\n')).length + 1⟩

/-- Where a text ends: just past its last character, on the line of that character. -/
def ending (text : List Char) : Mark :=
  if text = [] then ⟨1, 1⟩
  else ⟨(behind text.dropLast).line, (behind text.dropLast).column + 1⟩

/-- The place as a position in a source. -/
def position (source : String) (mark : Mark) : Position :=
  ⟨source, UInt32.ofNat mark.line, UInt32.ofNat mark.column⟩

variable {line row front text : List Char} {earlier lines : List (List Char)} {width : Nat}

theorem behind_of_not_mem (plain : '\n' ∉ row) : behind row = ⟨1, row.length + 1⟩ := by
  have whole : row.rtakeWhile (· != '\n') = row := by
    rw [List.rtakeWhile_eq_self_iff]
    intro c inside
    exact bne_iff_ne.2 (ne_of_mem_of_not_mem inside plain)
  rw [behind, whole, List.count_eq_zero.2 plain]

/-- A full line in front adds a line and leaves the column alone. -/
theorem behind_append_of_full (full : Full line) (row : List Char) :
    behind (line ++ row) = ⟨(behind row).line + 1, (behind row).column⟩ := by
  obtain ⟨body, plain, rfl⟩ := full
  have feeds : (body ++ ['\n'] ++ row).count '\n' = row.count '\n' + 1 := by
    simp [List.count_append, List.count_eq_zero.2 plain]
  have column : (body ++ ['\n'] ++ row).rtakeWhile (· != '\n') = row.rtakeWhile (· != '\n') := by
    clear feeds
    induction row using List.reverseRecOn with
    | nil => simp
    | append_singleton row c hypothesis =>
      rw [← List.append_assoc, List.rtakeWhile_concat, List.rtakeWhile_concat, hypothesis]
  rw [behind, feeds, column, behind]

theorem ending_concat (front : List Char) (c : Char) :
    ending (front ++ [c]) = ⟨(behind front).line, (behind front).column + 1⟩ := by
  simp [ending]

theorem behind_concat {c : Char} (front : List Char) (differs : c ≠ '\n') :
    behind (front ++ [c]) = ending (front ++ [c]) := by
  have inside : (c != '\n') = true := bne_iff_ne.2 differs
  have absent : [c].count '\n' = 0 := List.count_eq_zero.2 (by simpa using differs.symm)
  rw [ending_concat, behind, List.rtakeWhile_concat, if_pos inside, List.count_append, absent,
    List.length_append, List.length_singleton, Nat.add_zero, behind]

/-- A place in a line without line feeds before it, where all earlier lines are full. -/
theorem behind_of_full (full : ∀ line ∈ earlier, Full line) (plain : '\n' ∉ row) :
    behind (earlier.flatten ++ row) = ⟨earlier.length + 1, row.length + 1⟩ := by
  induction earlier with
  | nil => exact behind_of_not_mem plain
  | cons line earlier hypothesis =>
    rw [List.forall_mem_cons] at full
    rw [List.flatten_cons, List.append_assoc, behind_append_of_full full.1, hypothesis full.2,
      List.length_cons]

/-- The end of a line, with its line feed or without, where all earlier lines are full. -/
theorem ending_of_full (full : ∀ line ∈ earlier, Full line) (present : row ≠ [])
    (plain : '\n' ∉ row.dropLast) :
    ending (earlier.flatten ++ row) = ⟨earlier.length + 1, row.length + 1⟩ := by
  obtain ⟨front, c, rfl⟩ := (List.eq_nil_or_concat row).resolve_left present
  rw [List.concat_eq_append] at plain ⊢
  rw [List.dropLast_concat] at plain
  rw [← List.append_assoc, ending_concat, behind_of_full full plain, List.length_append,
    List.length_singleton]

-- The end of a text stays behind its last line feed, and does not go on to a line of its own.
example : ending "x\n".toList = ⟨1, 3⟩ := by
  decide

/-- A character of a text stands neither beyond the last line nor beyond the end of the longest. -/
theorem behind_le {c : Char} {rest : List Char} (lined : Lined lines)
    (narrow : ∀ line ∈ lines, line.length ≤ width) (split : lines.flatten = front ++ c :: rest) :
    (behind front).line ≤ lines.length ∧ (behind front).column ≤ width := by
  induction lined generalizing front with
  | nil => simp at split
  | @last row present plain =>
    have whole : row = front ++ c :: rest := by simpa using split
    have size : row.length = front.length + (rest.length + 1) := by simp [whole]
    have short := narrow row (by simp)
    rw [whole, List.mem_append, not_or] at plain
    rw [behind_of_not_mem plain.1]
    exact ⟨le_rfl, by simp only; omega⟩
  | @cons line lines full lined hypothesis =>
    rw [List.forall_mem_cons] at narrow
    rw [List.flatten_cons, List.append_eq_append_iff] at split
    rcases split with ⟨passed, rfl, split⟩ | ⟨ahead, rfl, split⟩
    · have bound := hypothesis narrow.2 split
      rw [behind_append_of_full full, List.length_cons]
      exact ⟨by simp only; omega, bound.2⟩
    · cases ahead with
      | nil =>
        -- The character is the first of the next line.
        have bound := @hypothesis [] narrow.2 (by simpa using split.symm)
        rw [List.append_nil] at full
        rw [← List.append_nil front, behind_append_of_full full, List.length_cons]
        exact ⟨by simp only; omega, bound.2⟩
      | cons first ahead =>
        have plain := (full.of_append (by simp)).1
        have short := narrow.1
        rw [List.length_append, List.length_cons] at short
        rw [behind_of_not_mem plain, List.length_cons]
        exact ⟨by simp, by simp only; omega⟩

/-- A text ends on its last line, and at most one place beyond the longest. -/
theorem ending_le (lined : Lined lines) (narrow : ∀ line ∈ lines, line.length ≤ width) :
    (ending lines.flatten).line ≤ max 1 lines.length ∧
      (ending lines.flatten).column ≤ width + 1 := by
  rcases List.eq_nil_or_concat lines.flatten with empty | ⟨front, c, split⟩
  · have origin : ending [] = ⟨1, 1⟩ := rfl
    rw [empty, origin]
    exact ⟨by simp only; omega, by simp⟩
  · rw [List.concat_eq_append] at split
    have bound := behind_le lined narrow split
    rw [split, ending_concat]
    exact ⟨by simp only; omega, by simp only; omega⟩

/-- The place of a character of the text, or the end of the text. -/
def Of (text : List Char) (mark : Mark) : Prop :=
  mark = ending text ∨ ∃ front c rest, text = front ++ c :: rest ∧ mark = behind front

theorem of_start {before ahead : List Char} (present : ahead ≠ []) :
    (behind before).Of (before ++ ahead) := by
  obtain ⟨c, rest, rfl⟩ := List.exists_cons_of_ne_nil present
  exact .inr ⟨before, c, rest, rfl, rfl⟩

/-- Behind the last word of a text, if it has no line feed, is the end of the text. -/
theorem of_stop {before word tail : List Char} (present : word ≠ []) (plain : '\n' ∉ word) :
    (behind (before ++ word)).Of (before ++ (word ++ tail)) := by
  cases tail with
  | cons c rest => exact .inr ⟨before ++ word, c, rest, by simp, rfl⟩
  | nil =>
    obtain ⟨front, last, rfl⟩ := (List.eq_nil_or_concat word).resolve_left present
    rw [List.concat_eq_append, List.mem_append, not_or, List.mem_singleton] at plain
    rw [List.append_nil, List.concat_eq_append, ← List.append_assoc,
      behind_concat _ (Ne.symm plain.2)]
    exact .inl rfl

/-- The lines and columns of a text fit into words, if its lines do. Only the end of the text may
be one column too far. -/
theorem Of.fits {mark : Mark} (lined : Lined lines) (few : lines.length < 2 ^ 32)
    (short : ∀ line ∈ lines, line.length < 2 ^ 32) (place : mark.Of lines.flatten)
    (source : String) :
    (mark.position source).line.toNat = mark.line ∧
      ((mark.position source).column.toNat = mark.column ∨
        mark = ending lines.flatten ∧ mark.column = 2 ^ 32) := by
  have narrow : ∀ line ∈ lines, line.length ≤ 2 ^ 32 - 1 := by
    intro line inside
    have := short line inside
    omega
  have word : ∀ n, n < 2 ^ 32 → (UInt32.ofNat n).toNat = n := by
    intro n small
    exact UInt32.toNat_ofNat_of_lt' small
  rcases place with rfl | ⟨front, c, rest, split, rfl⟩
  · have bound := ending_le lined narrow
    refine ⟨word _ (by omega), ?_⟩
    by_cases far : (ending lines.flatten).column = 2 ^ 32
    · exact .inr ⟨rfl, far⟩
    · exact .inl (word _ (by omega))
  · have bound := behind_le lined narrow split
    exact ⟨word _ (by omega), .inl (word _ (by omega))⟩

end Mark

namespace Input

/-- Cutting a text behind its line feeds keeps all of it, and what stands behind the last of them
has none. -/
theorem cut_feed (text : List Char) :
    (cut '\n' text).1.flatten ++ (cut '\n' text).2 = text ∧ '\n' ∉ (cut '\n' text).2 ∧
      ∀ line ∈ (cut '\n' text).1, Full line := by
  induction text with
  | nil => simp [cut]
  | cons c rest hypothesis =>
    rw [cut]
    generalize cut '\n' rest = result at hypothesis ⊢
    obtain ⟨lines, last⟩ := result
    obtain ⟨whole, plain, full⟩ := hypothesis
    by_cases feed : c = '\n'
    · simp only [feed, ↓reduceIte, List.flatten_cons, List.forall_mem_cons]
      exact ⟨by simpa using whole, plain, ⟨[], by simp, rfl⟩, full⟩
    · have differs : '\n' ≠ c := fun same => feed same.symm
      simp only [feed, ↓reduceIte]
      cases lines with
      | nil => exact ⟨by simpa using whole, by simpa [differs] using plain, full⟩
      | cons line lines =>
        rw [List.forall_mem_cons] at full
        obtain ⟨row, free, rfl⟩ := full.1
        refine ⟨by simpa using whole, plain, ?_⟩
        rw [List.forall_mem_cons]
        exact ⟨⟨c :: row, by simpa [differs] using free, rfl⟩, full.2⟩

/-- The lines of an input made from a text are lines of this text, and all of it. -/
theorem lined_ofText (text : String) :
    Lined (ofText text none).lines ∧ (ofText text none).lines.flatten = text.toList := by
  obtain ⟨whole, plain, full⟩ := cut_feed text.toList
  by_cases finished : (cut '\n' text.toList).2 = []
  · rw [finished, List.append_nil] at whole
    simp only [ofText, finished, List.isEmpty_nil, ↓reduceIte]
    refine ⟨?_, whole⟩
    rw [← List.append_nil (cut '\n' text.toList).1]
    exact Lined.append full .nil
  · simp only [ofText, List.isEmpty_iff, finished, ↓reduceIte]
    exact ⟨Lined.append full (.last finished plain), by simpa using whole⟩

end Input

end Kaleidoscope
