import Kaleidoscope.Proofs.Numerals
import Kaleidoscope.Proofs.Partition

set_option autoImplicit false

/- A number past all finite ones is written as a word, and read as a name. -/

namespace Kaleidoscope

namespace Token.Kind

open Text

/-- What the text of a token is read as. -/
def reread : Token.Kind → Token.Kind
  | number value => if value.isFinite = true then .number value else .identifier "inf"
  | kind => kind

variable {kind : Token.Kind}

theorem spells_text (genuine : kind.Genuine) : Spells kind.text.toList kind.reread := by
  cases kind with
  | endOfInput => exact genuine.elim
  | keyword word => rfl
  | identifier name => rfl
  | symbol character => exact String.toList_singleton character
  | number value =>
    by_cases finite : value.isFinite = true
    · simp only [reread, finite, ↓reduceIte, text, Number.text, String.toList_ofList]
      exact Number.spells_characters genuine finite
    · obtain ⟨magnitude, rfl⟩ := Number.Unsigned.exists_eq genuine
      have infinite : magnitude.isInfinite = true := by simpa [Number.isFinite] using finite
      simp only [reread, finite, text, Number.text, Number.characters, Magnitude.characters,
        infinite]
      rfl

theorem lexable_reread (genuine : kind.Genuine) : kind.reread.Lexable := by
  cases kind with
  | endOfInput => exact genuine.elim
  | keyword word => exact trivial
  | identifier name => exact genuine
  | symbol character => exact genuine
  | number value =>
    by_cases finite : value.isFinite = true
    · simp only [reread, finite, ↓reduceIte, lexable_number]
    · simp only [reread, finite, Bool.false_eq_true, ↓reduceIte]
      show isName "inf" = true
      decide

theorem reread_eq_self_iff :
    kind.reread = kind ↔ ∀ value, kind = .number value → value.isFinite = true := by
  cases kind with
  | number value => by_cases finite : value.isFinite = true <;> simp [reread, finite]
  | _ => simp [reread]

end Token.Kind

/-- The texts of tokens with a space between each two of them. -/
def Token.transcript (tokens : List Token) : String :=
  " ".intercalate (tokens.map Token.text)

namespace TokenStream

open Text

theorem transcript_eq_spaced (tokens : List Token) :
    Token.transcript tokens = spaced (tokens.map fun token => token.text.toList) := by
  rw [← String.toList_inj, Token.transcript, spaced, String.toList_intercalate, List.map_map]
  exact String.toList_ofList.symm

/-- A transcript is read as what its texts are read as one by one. -/
theorem kinds_transcript {tokens : List Token} (genuine : ∀ token ∈ tokens, token.kind.Genuine)
    (source : Option String) :
    (ofLexer (.ofInput (.ofText (Token.transcript tokens) none) source)).ahead.map Token.kind =
      tokens.map fun token => token.kind.reread := by
  cases tokens with
  | nil =>
    have empty : Input.ofText (Token.transcript []) none = ⟨[], none⟩ := by
      simp [Input.ofText, Token.transcript, Input.cut]
    rw [empty]
    have settled := Lexer.settled_ofInput ⟨[], none⟩ source
    exact Lexer.kinds_of_spells .nil (by simp) 0 (Nat.le_refl 0) settled rfl ⟨[], rfl, rfl⟩
  | cons first rest =>
    rw [transcript_eq_spaced]
    apply kinds_ofLexer_spaced
    · rw [List.forall₂_map_left_iff, List.forall₂_map_right_iff, List.forall₂_same]
      intro token inside
      exact Token.Kind.spells_text (genuine token inside)
    · simp
    · refine List.forall_mem_map.2 ?_
      intro token inside
      exact Token.Kind.lexable_reread (genuine token inside)

theorem kinds_toList (stream : TokenStream) :
    stream.toList.map Token.kind = stream.ahead.map Token.kind ++ [.endOfInput] := by
  simp [toList]

end TokenStream

namespace Input

/-- The transcript of an input's tokens is read as tokens of the same kinds, the end of the input
included, exactly if all numbers of the input are finite. -/
theorem transcript_reads_back_iff (input : Input) (source other : Option String) :
    let tokens := input.tokens source
    let transcript := Token.transcript (tokens.filter fun token => !token.isEnd)
    ((Input.ofText transcript none).tokens other).map Token.kind = tokens.map Token.kind ↔
      ∀ token ∈ tokens, ∀ value, token.kind = .number value → value.isFinite = true := by
  intro tokens transcript
  let stream : TokenStream := .ofLexer (.ofInput input source)
  have genuine : stream.Genuine := TokenStream.genuine_ofLexer input source
  have ahead : tokens.filter (fun token => !token.isEnd) = stream.ahead :=
    TokenStream.filter_toList (TokenStream.regular_ofLexer _)
  have kinds : tokens.map Token.kind = stream.ahead.map Token.kind ++ [.endOfInput] :=
    stream.kinds_toList
  have read : ((Input.ofText transcript none).tokens other).map Token.kind =
      (stream.ahead.map fun token => token.kind.reread) ++ [.endOfInput] := by
    simp only [transcript, ahead, Input.tokens]
    rw [TokenStream.kinds_toList, TokenStream.kinds_transcript genuine]
  have members : ∀ token ∈ tokens, token.kind = .endOfInput ∨ token ∈ stream.ahead := by
    intro token inside
    rcases List.mem_append.1 inside with before | last
    · exact .inr before
    · rw [List.mem_singleton.1 last]
      exact .inl rfl
  rw [kinds, read, List.append_cancel_right_eq, List.map_inj_left]
  constructor
  · intro same token inside value number
    rcases members token inside with ended | before
    · rw [ended] at number
      cases number
    · exact Token.Kind.reread_eq_self_iff.1 (same token before) value number
  · intro finite token inside
    exact Token.Kind.reread_eq_self_iff.2 (finite token (List.mem_append_left _ inside))

-- Malformed numerals, a comment and a blank that is none of the language's.
example :
    let tokens := (Input.ofText "1.2.3(x\t.5..)# c\n\u00a0def" none).tokens none
    Token.transcript (tokens.filter fun token => !token.isEnd) = "1.2 ( x 0.5 ) \u00a0 def" := by
  decide +kernel

end Input

end Kaleidoscope
