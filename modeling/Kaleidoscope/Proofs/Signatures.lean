import Kaleidoscope.Proofs.Genuine
import Kaleidoscope.Proofs.Lookahead
import Kaleidoscope.Proofs.Magnitudes
import Kaleidoscope.Proofs.Nesting

set_option autoImplicit false

namespace Kaleidoscope

namespace Magnitude

variable {magnitude other : Magnitude}

theorem units_inj (same : magnitude.units = other.units) : magnitude = other := by
  rw [← nearest_units magnitude, same, nearest_units]

theorem units_le_iff : magnitude.units ≤ other.units ↔ magnitude.rank ≤ other.rank := by
  constructor
  · intro less
    by_contra above
    have same : magnitude.units = other.units :=
      Nat.le_antisymm less (units_le (Nat.le_of_not_le above))
    exact above (by rw [units_inj same])
  · exact units_le

/-- The rational number that a magnitude is. -/
def value (magnitude : Magnitude) : ℚ :=
  magnitude.units / (Nat.pow 2 1074 : ℕ)

theorem value_nonneg (magnitude : Magnitude) : 0 ≤ magnitude.value :=
  div_nonneg (Nat.cast_nonneg _) (Nat.cast_nonneg _)

theorem floor_value (magnitude : Magnitude) : ⌊magnitude.value⌋₊ = magnitude.floor :=
  Nat.floor_div_eq_div _ _

/-- A natural number that is held without loss stands in the order of values where its rank is. -/
theorem cast_le_value (magnitude : Magnitude) {count : Nat}
    (held : (nearest count 1).units = count * Nat.pow 2 1074) :
    (count : ℚ) ≤ magnitude.value ↔ (nearest count 1).rank ≤ magnitude.rank := by
  have positive : (0 : ℚ) < (Nat.pow 2 1074 : ℕ) := Nat.cast_pos.2 one_units_pos
  rw [← units_le_iff, held, value, le_div_iff₀ positive, ← Nat.cast_mul, Nat.cast_le]

theorem value_le_cast (magnitude : Magnitude) {count : Nat}
    (held : (nearest count 1).units = count * Nat.pow 2 1074) :
    magnitude.value ≤ count ↔ magnitude.rank ≤ (nearest count 1).rank := by
  have positive : (0 : ℚ) < (Nat.pow 2 1074 : ℕ) := Nat.cast_pos.2 one_units_pos
  rw [← units_le_iff, held, value, div_le_iff₀ positive, ← Nat.cast_mul, Nat.cast_le]

end Magnitude

namespace Number

/-- The rational number that a number is, if it is finite. -/
def value? : Number → Option ℚ
  | nan => none
  | signed negative magnitude =>
    if magnitude.isInfinite then none
    else some (if negative then -magnitude.value else magnitude.value)

theorem value?_eq_some_iff {negative : Bool} {magnitude : Magnitude} {value : ℚ} :
    (signed negative magnitude).value? = some value ↔
      magnitude.isInfinite = false ∧
        (if negative then -magnitude.value else magnitude.value) = value := by
  unfold value?
  cases finite : magnitude.isInfinite <;> simp [finite]

end Number

namespace Grammar

open Magnitude

theorem units_lowestPrecedence :
    (nearest lowestPrecedence 1).units = lowestPrecedence * Nat.pow 2 1074 := by
  decide +kernel

theorem units_highestPrecedence :
    (nearest highestPrecedence 1).units = highestPrecedence * Nat.pow 2 1074 := by
  decide +kernel

/-- A magnitude within the bounds is finite. -/
theorem isInfinite_of_le_highest {magnitude : Magnitude}
    (upper : magnitude.rank ≤ (nearest highestPrecedence 1).rank) :
    magnitude.isInfinite = false := by
  have below : (nearest highestPrecedence 1).rank < infinity.rank := by decide +kernel
  have differs : magnitude.rank ≠ infinity.rank := by omega
  simpa [isInfinite] using differs

theorem isDeclarable_unsigned (magnitude : Magnitude) :
    isDeclarable (.signed false magnitude) = true ↔
      (nearest lowestPrecedence 1).rank ≤ magnitude.rank ∧
        magnitude.rank ≤ (nearest highestPrecedence 1).rank := by
  simp only [isDeclarable, Number.below, Number.place?, Number.ofNat, Bool.and_eq_true,
    Bool.not_eq_true', decide_eq_false_iff_not, Int.not_lt, Int.ofNat_le]

theorem isDeclarable_negative (magnitude : Magnitude) :
    isDeclarable (.signed true magnitude) = false := by
  have positive : 0 < (nearest lowestPrecedence 1).rank := by decide +kernel
  have below : -(magnitude.rank : Int) < (nearest lowestPrecedence 1).rank := by omega
  simp only [isDeclarable, Number.below, Number.place?, Number.ofNat, below, decide_true,
    Bool.not_true, Bool.false_and]

/-- The precedences that can be declared are the rational numbers within the bounds. -/
theorem isDeclarable_iff {number : Number} (ordered : number ≠ .nan) :
    isDeclarable number = true ↔
      ∃ value : ℚ, number.value? = some value ∧ 1 ≤ value ∧ value ≤ 100 := by
  cases number with
  | nan => exact absurd rfl ordered
  | signed negative magnitude =>
    simp only [Number.value?_eq_some_iff]
    cases negative with
    | true =>
      rw [isDeclarable_negative]
      refine ⟨fun refused => absurd refused (by decide), ?_⟩
      rintro ⟨value, ⟨-, rfl⟩, lower, -⟩
      have natural := magnitude.value_nonneg
      simp only [↓reduceIte] at lower
      linarith
    | false =>
      have lowest := magnitude.cast_le_value units_lowestPrecedence
      have highest := magnitude.value_le_cast units_highestPrecedence
      rw [show ((lowestPrecedence : ℕ) : ℚ) = 1 from Nat.cast_one] at lowest
      rw [show ((highestPrecedence : ℕ) : ℚ) = 100 from Nat.cast_ofNat] at highest
      rw [isDeclarable_unsigned, ← lowest, ← highest]
      constructor
      · rintro ⟨lower, upper⟩
        have finite := isInfinite_of_le_highest (highest.1 upper)
        exact ⟨magnitude.value, ⟨finite, rfl⟩, lower, upper⟩
      · rintro ⟨value, ⟨-, rfl⟩, lower, upper⟩
        exact ⟨lower, upper⟩

/-- What is left of such a number when its fraction is cut off. -/
theorem wholePart_eq_floor {number : Number} {value : ℚ} (finite : number.value? = some value)
    (lower : 1 ≤ value) : number.wholePart = ⌊value⌋₊ := by
  cases number with
  | nan => cases finite
  | signed negative magnitude =>
    obtain ⟨-, rfl⟩ := Number.value?_eq_some_iff.1 finite
    cases negative with
    | true =>
      have natural := magnitude.value_nonneg
      simp only [↓reduceIte] at lower
      linarith
    | false => exact magnitude.floor_value.symm

/-- How the precedence of a binary operator may be given, and what it then is. -/
inductive SpellsPrecedence : List Token.Kind → UInt32 → Prop where
  | absent : SpellsPrecedence [] 30
  | given {number : Number} {value : ℚ} (finite : number.value? = some value) (lower : 1 ≤ value)
      (upper : value ≤ 100) : SpellsPrecedence [.number number] (UInt32.ofNat ⌊value⌋₊)

/-- The rows of tokens that spell a prototype. The symbol of an operator is any character, also a
parenthesis. -/
inductive SpellsPrototype : List Token.Kind → Prototype → Prop where
  | function {name : String} {parameters : List String} (distinct : parameters.Nodup) :
      SpellsPrototype
        (.identifier name :: .symbol '(' :: parameters.map .identifier ++ [.symbol ')'])
        { name := name, parameters := parameters, isOperator := false, precedence := 0 }
  | unary {symbol : Char} {parameter : String} :
      SpellsPrototype
        [.keyword .unaryWord, .symbol symbol, .symbol '(', .identifier parameter, .symbol ')']
        { name := "unary" ++ String.singleton symbol, parameters := [parameter]
          isOperator := true, precedence := 0 }
  | binary {symbol : Char} {weight : List Token.Kind} {precedence : UInt32} {left right : String}
      (weighs : SpellsPrecedence weight precedence) (distinct : left ≠ right) :
      SpellsPrototype
        (.keyword .binaryWord :: .symbol symbol :: weight ++
          [.symbol '(', .identifier left, .identifier right, .symbol ')'])
        { name := "binary" ++ String.singleton symbol, parameters := [left, right]
          isOperator := true, precedence := precedence }

variable {row : List Token.Kind} {prototype : Prototype}

theorem spellsPrototype_of_derives (ordered : .number .nan ∉ row)
    (derived : DerivesPrototype row prototype) : SpellsPrototype row prototype := by
  cases derived with
  | function name distinct => exact .function distinct
  | unary symbol parameter => exact .unary
  | binary symbol distinct => exact .binary .absent distinct
  | @weighted symbol left right number declarable distinct =>
    have number_ne : number ≠ .nan := by
      rintro rfl
      exact ordered (by simp)
    obtain ⟨value, finite, lower, upper⟩ := (isDeclarable_iff number_ne).1 declarable
    rw [wholePart_eq_floor finite lower]
    exact .binary (.given finite lower upper) distinct

theorem derives_of_spellsPrototype (spelled : SpellsPrototype row prototype) :
    DerivesPrototype row prototype := by
  cases spelled with
  | @function name _ distinct => exact .function name distinct
  | @unary symbol parameter => exact .unary symbol parameter
  | @binary symbol _ _ _ _ weighs distinct =>
    cases weighs with
    | absent => exact .binary symbol distinct
    | @given number value finite lower upper =>
      have ordered : number ≠ .nan := by
        rintro rfl
        cases finite
      have declarable := (isDeclarable_iff ordered).2 ⟨value, finite, lower, upper⟩
      rw [← wholePart_eq_floor finite lower]
      exact .weighted symbol declarable distinct

/-- A prototype is a heading and as many different parameters as the heading asks for. -/
theorem exists_heading_of_derives (derived : DerivesPrototype row prototype) (place : Position) :
    ∃ first heading names, row = first ++ .symbol '(' :: names.map .identifier ++ [.symbol ')'] ∧
      DerivesHeading first heading ∧ names.Nodup ∧
      heading.finish place names = .parsed prototype := by
  cases derived with
  | @function name parameters distinct =>
    exact ⟨_, _, parameters, rfl, .function name, distinct, rfl⟩
  | unary symbol parameter =>
    exact ⟨_, _, [parameter], rfl, .unary symbol, List.nodup_singleton _, rfl⟩
  | @binary symbol left right distinct =>
    exact ⟨_, _, [left, right], rfl, .binary symbol, by simpa using distinct, rfl⟩
  | @weighted symbol left right number declarable distinct =>
    exact ⟨_, _, [left, right], rfl, .weighted symbol declarable, by simpa using distinct, rfl⟩

end Grammar

theorem Parser.bind_of_parsed {α β : Type} {first : Parser α} {next : α → Parser β}
    {session middle : Session} {value : α} (start : first session = (.parsed value, middle)) :
    (first >>= next) session = next value middle := by
  change Parser.bind first next session = _
  simp only [Parser.bind, start]

namespace Grammar

variable {after : Session} {row : List Token}

theorem operatorSymbol_prepend {token : Token} {symbol : Char}
    (shown : token.kind = .symbol symbol) (session : Session) (row : List Token) :
    operatorSymbol (session.prepend (token :: row)) = (.parsed symbol, session.prepend row) := by
  simp only [operatorSymbol, Session.current_prepend, shown, Session.advance_prepend]

theorem operatorPrecedence_of_absent (stops : ∀ value, after.current.kind ≠ .number value) :
    operatorPrecedence after = (.parsed defaultPrecedence, after) := by
  unfold operatorPrecedence
  split
  next value shown => exact absurd shown (stops value)
  next => rfl

theorem operatorPrecedence_prepend {token : Token} {number : Number}
    (shown : token.kind = .number number) (declarable : isDeclarable number = true)
    (session : Session) (row : List Token) :
    operatorPrecedence (session.prepend (token :: row)) =
      (.parsed (UInt32.ofNat number.wholePart), session.prepend row) := by
  simp only [operatorPrecedence, Session.current_prepend, shown, declarable, ↓reduceIte,
    Session.advance_prepend]

/-- A heading is read where its row stands, unless a number follows that would belong to it. -/
theorem heading_of_derives {first : List Token.Kind} {heading : Heading}
    (derived : DerivesHeading first heading) (spelled : row.map Token.kind = first)
    (stops : ∀ value, after.current.kind ≠ .number value) :
    Grammar.heading (after.prepend row) = (.parsed heading, after) := by
  cases derived with
  | function name =>
    obtain ⟨token, rfl, seen⟩ := List.map_eq_singleton_iff.1 spelled
    simp only [Grammar.heading, Session.current_prepend, seen, Session.advance_prepend,
      Session.prepend_nil]
  | unary symbol =>
    obtain ⟨word, rest, rfl, seen, spelled⟩ := List.map_eq_cons_iff.1 spelled
    obtain ⟨token, rfl, shown⟩ := List.map_eq_singleton_iff.1 spelled
    simp only [Grammar.heading, Session.current_prepend, seen, Session.advance_prepend]
    exact Parser.bind_of_parsed (operatorSymbol_prepend shown after [])
  | binary symbol =>
    obtain ⟨word, rest, rfl, seen, spelled⟩ := List.map_eq_cons_iff.1 spelled
    obtain ⟨token, rfl, shown⟩ := List.map_eq_singleton_iff.1 spelled
    simp only [Grammar.heading, Session.current_prepend, seen, Session.advance_prepend]
    rw [Parser.bind_of_parsed (operatorSymbol_prepend shown after [])]
    exact Parser.bind_of_parsed (operatorPrecedence_of_absent stops)
  | @weighted symbol number declarable =>
    obtain ⟨word, rest, rfl, seen, spelled⟩ := List.map_eq_cons_iff.1 spelled
    obtain ⟨token, others, rfl, shown, spelled⟩ := List.map_eq_cons_iff.1 spelled
    obtain ⟨weight, rfl, given⟩ := List.map_eq_singleton_iff.1 spelled
    simp only [Grammar.heading, Session.current_prepend, seen, Session.advance_prepend]
    rw [Parser.bind_of_parsed (operatorSymbol_prepend shown after [weight])]
    exact Parser.bind_of_parsed (operatorPrecedence_prepend given declarable after [])

/-- Names are read up to the first token that is none. The induction is on the names, which are
taken one by one. -/
theorem parameters_of_names {names taken : List String} {count : Nat}
    (spelled : row.map Token.kind = names.map .identifier) (enough : names.length ≤ count)
    (distinct : (taken ++ names).Nodup) (stops : ∀ name, after.current.kind ≠ .identifier name) :
    parameters count taken (after.prepend row) = (.parsed (taken ++ names), after) := by
  induction names generalizing taken row count with
  | nil =>
    rw [List.map_eq_nil_iff.1 spelled, List.append_nil, Session.prepend_nil]
    cases count with
    | zero => rfl
    | succ count =>
      unfold parameters
      split
      next name shown => exact absurd shown (stops name)
      next => rfl
  | cons name names hypothesis =>
    obtain ⟨token, rest, rfl, shown, spelled⟩ := List.map_eq_cons_iff.1 spelled
    obtain ⟨count, rfl⟩ := Nat.exists_eq_succ_of_ne_zero
      (by simp at enough; omega : count ≠ 0)
    have fresh : name ∉ taken := by
      intro inside
      exact (List.nodup_append.1 distinct).2.2 name inside name List.mem_cons_self rfl
    rw [List.append_cons] at distinct ⊢
    have further := hypothesis spelled (by simpa using enough) distinct
    simpa only [parameters, Session.current_prepend, shown, fresh, ↓reduceIte,
      Session.advance_prepend] using further

end Grammar

namespace Session

variable {after : Session} {row : List Token}

theorem expect_prepend {token : Token} {kind : Token.Kind} (plain : ∀ value, kind ≠ .number value)
    (shown : token.kind = kind) (expectation : String) (session : Session) (row : List Token) :
    expect kind expectation (session.prepend (token :: row)) =
      (.parsed token, session.prepend row) := by
  have agrees : token.kind.agrees kind = true := by
    rw [shown]
    exact Token.Kind.agrees_self plain
  simp only [expect, current_prepend, agrees, ↓reduceIte, take, advance_prepend]

/-- Names between two sessions are all that the parameters take. -/
theorem parameters_of_names {names : List String} {closing : Token}
    (spelled : row.map Token.kind = names.map .identifier) (distinct : names.Nodup)
    (closes : closing.kind = .symbol ')') :
    parameters [] ((after.prepend [closing]).prepend row) =
      (.parsed names, after.prepend [closing]) := by
  have length : row.length = names.length := by
    simpa using congrArg List.length spelled
  apply Grammar.parameters_of_names spelled
  · simp only [remaining, prepend_ahead, List.length_append]
    omega
  · exact distinct
  · intro name shown
    rw [current_prepend, closes] at shown
    cases shown

/-- Where a row stands that derives a prototype, the prototype is read and the row is taken. -/
theorem prototype_of_derives {prototype : Prototype}
    (derived : Grammar.DerivesPrototype (row.map Token.kind) prototype) :
    (after.prepend row).prototype = (.parsed prototype, after) := by
  obtain ⟨first, heading, names, spelled, headed, distinct, finished⟩ :=
    Grammar.exists_heading_of_derives derived (after.prepend row).position
  rw [List.append_assoc, List.cons_append, List.map_eq_append_iff] at spelled
  obtain ⟨front, rest, rfl, head, spelled⟩ := spelled
  obtain ⟨opening, rest, rfl, opens, spelled⟩ := List.map_eq_cons_iff.1 spelled
  obtain ⟨middle, last, rfl, named, spelled⟩ := List.map_eq_append_iff.1 spelled
  obtain ⟨closing, rfl, closes⟩ := List.map_eq_singleton_iff.1 spelled
  have begins : Grammar.heading
      ((after.prepend (opening :: (middle ++ [closing]))).prepend front) =
        (.parsed heading, after.prepend (opening :: (middle ++ [closing]))) := by
    apply Grammar.heading_of_derives headed head
    intro value shown
    rw [current_prepend, opens] at shown
    cases shown
  have read : signature (after.prepend (front ++ opening :: (middle ++ [closing]))) =
      (.parsed (heading, names), after) := by
    rw [prepend_append, signature, Parser.bind_of_parsed begins,
      Parser.bind_of_parsed (expect_prepend (by simp) opens _ after _), prepend_append,
      Parser.bind_of_parsed (parameters_of_names named distinct closes),
      Parser.bind_of_parsed (expect_prepend (by simp) closes _ after [])]
    rfl
  rw [prototype_eq, Parser.bind_of_parsed read, counted, finished]

end Session

/-- No number ahead is the one that is no number. -/
def TokenStream.Ordered (stream : TokenStream) : Prop :=
  ∀ token ∈ stream.ahead, token.kind ≠ .number .nan

instance (stream : TokenStream) : Decidable stream.Ordered :=
  inferInstanceAs (Decidable (∀ token ∈ stream.ahead, _))

theorem TokenStream.Genuine.ordered {stream : TokenStream} (genuine : stream.Genuine) :
    stream.Ordered := by
  intro token inside number
  have unsigned := genuine token inside
  rw [number] at unsigned
  exact unsigned.1 rfl

namespace Session

/-- The tokens of an input, whatever it is, are ordered. Wherever the tokens ahead are, a prototype
is read exactly if they start with a row that spells it, and then exactly the row is taken and
nothing else of the session changes. -/
theorem prototype_accepts_exactly :
    (∀ (input : Input) (source : Option String),
      (TokenStream.ofLexer (.ofInput input source)).Ordered) ∧
    ∀ (session after : Session) (prototype : Prototype), session.tokens.Ordered →
      (session.prototype = (.parsed prototype, after) ↔
        ∃ row : List Token, session = after.prepend row ∧
          Grammar.SpellsPrototype (row.map Token.kind) prototype) := by
  refine ⟨fun input source => (TokenStream.genuine_ofLexer input source).ordered, ?_⟩
  intro session after prototype ordered
  constructor
  · intro run
    have yields := prototype_yields session
    unfold Parser.Yields at yields
    rw [run] at yields
    obtain ⟨row, same, derived⟩ := yields
    refine ⟨row, same, Grammar.spellsPrototype_of_derives ?_ (derived prototype rfl)⟩
    intro inside
    obtain ⟨token, there, number⟩ := List.mem_map.1 inside
    rw [same] at ordered
    exact ordered token (List.mem_append_left _ there) number
  · rintro ⟨row, rfl, spelled⟩
    exact prototype_of_derives (Grammar.derives_of_spellsPrototype spelled)

/-- A parenthesis as a binary operator, with a fraction for its precedence and a body behind it. -/
theorem prototype_accepts_exactly_of_fraction :
    let place (kind : Token.Kind) : Token := ⟨kind, ⟨.nowhere, .nowhere⟩⟩
    let row : List Token := [place (.keyword .binaryWord), place (.symbol '('),
      place (.number (.ofNumeral "99.5".toList)), place (.symbol '('), place (.identifier "a"),
      place (.identifier "b"), place (.symbol ')')]
    let after : Session := .start ⟨[place (.identifier "a")], .nowhere, none⟩ .builtin
    let prototype : Prototype := ⟨"binary(", ["a", "b"], true, 99⟩
    (after.prepend row).tokens.Ordered ∧
      Grammar.SpellsPrototype (row.map Token.kind) prototype ∧
      (after.prepend row).prototype = (.parsed prototype, after) := by
  intro place row after prototype
  have ordered : (after.prepend row).tokens.Ordered := by decide +kernel
  have finite : (Number.ofNumeral "99.5".toList).value? = some (199 / 2) := by decide +kernel
  have floor : ⌊(199 / 2 : ℚ)⌋₊ = 99 := by norm_num
  have spelled : Grammar.SpellsPrototype (row.map Token.kind) prototype := by
    have weighs := Grammar.SpellsPrecedence.given finite (by norm_num) (by norm_num)
    rw [floor] at weighs
    exact .binary weighs (by decide)
  exact ⟨ordered, spelled,
    (prototype_accepts_exactly.2 _ after prototype ordered).2 ⟨row, rfl, spelled⟩⟩

end Session

end Kaleidoscope
