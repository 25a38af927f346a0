import Kaleidoscope.Proofs.Entries
import Kaleidoscope.Proofs.Magnitudes
import Kaleidoscope.Proofs.Refusal
import Kaleidoscope.Proofs.Vocabulary

set_option autoImplicit false

/- A backend may enter the operators of the forms it is given, used or refused, at once or later. -/

namespace Kaleidoscope

namespace Grammar

/-- A fraction is cut off, and what is left is within the bounds that the whole number was. -/
theorem wholePart_of_isDeclarable {value : Number} (unsigned : value.Unsigned)
    (declarable : isDeclarable value = true) :
    lowestPrecedence ≤ value.wholePart ∧ value.wholePart ≤ highestPrecedence := by
  obtain ⟨magnitude, rfl⟩ := unsigned.exists_eq
  have lowest : (Magnitude.nearest lowestPrecedence 1).floor = lowestPrecedence := by
    decide +kernel
  have highest : (Magnitude.nearest highestPrecedence 1).floor = highestPrecedence := by
    decide +kernel
  simp only [isDeclarable, Number.below, Number.place?, Number.ofNat, Bool.and_eq_true,
    Bool.not_eq_true', decide_eq_false_iff_not, Int.not_lt, Int.ofNat_le] at declarable
  show lowestPrecedence ≤ magnitude.floor ∧ magnitude.floor ≤ highestPrecedence
  rw [← lowest, ← highest]
  exact ⟨Magnitude.floor_le declarable.1, Magnitude.floor_le declarable.2⟩

end Grammar

/-- A sign that the lexer can give, with a precedence that can be declared. -/
def Operator.Moderate (operator : Operator) : Prop :=
  Text.isSymbol operator.symbol = true ∧ 1 ≤ operator.precedence ∧ operator.precedence ≤ 100

instance : DecidablePred Operator.Moderate :=
  fun _ => inferInstanceAs (Decidable (_ ∧ _))

namespace OperatorTable

/-- The other table has all symbols of this one, and no new entries but moderate ones. -/
structure Grows (table other : OperatorTable) : Prop where
  symbols (symbol : Char) : table.contains symbol = true → other.contains symbol = true
  entries (entry : Operator) : entry ∈ other.entries → entry ∈ table.entries ∨ entry.Moderate

variable {table other third : OperatorTable}

theorem Grows.refl (table : OperatorTable) : table.Grows table :=
  ⟨fun _ => id, fun _ => .inl⟩

theorem Grows.trans (first : table.Grows other) (second : other.Grows third) :
    table.Grows third := by
  refine ⟨fun symbol inside => second.symbols symbol (first.symbols symbol inside), ?_⟩
  intro entry inside
  rcases second.entries entry inside with old | moderate
  · exact first.entries entry old
  · exact .inr moderate

theorem grows_define {operator : Operator} (moderate : operator.Moderate) :
    table.Grows (table.define operator.symbol operator.precedence) := by
  constructor
  · intro symbol inside
    obtain ⟨precedence, entered⟩ := contains_iff.1 inside
    by_cases same : symbol = operator.symbol
    · exact contains_iff.2 ⟨operator.precedence, mem_define.2 (.inl (by rw [same]))⟩
    · exact contains_iff.2 ⟨precedence, mem_define.2 (.inr ⟨entered, same⟩)⟩
  · intro entry inside
    rcases mem_define.1 inside with rfl | ⟨old, -⟩
    · exact .inr moderate
    · exact .inl old

/-- An entry that is moderate is alive: its symbol is an operator. -/
theorem contains_iff_precedence_pos (moderate : ∀ entry ∈ table.entries, entry.Moderate)
    (symbol : Char) : table.contains symbol = true ↔ 0 < table.precedence symbol := by
  unfold contains precedence
  cases found : table.get? symbol with
  | none => simp [noPrecedence]
  | some precedence =>
    have entered := moderate ⟨symbol, precedence⟩ (mem_entries_iff.2 found)
    have positive : 0 < precedence := Int32.lt_of_lt_of_le (by decide) entered.2.1
    simp [positive]

end OperatorTable

/-- Entering the prototype brings nothing into a table but a moderate operator. -/
def Prototype.Moderate (prototype : Prototype) : Prop :=
  ∀ table : OperatorTable, table.Grows (table.declare prototype)

namespace Grammar

theorem moderate_of_derives {row : List Token.Kind} {prototype : Prototype}
    (derived : DerivesPrototype row prototype) (genuine : Token.Kind.AllGenuine row) :
    ∀ operator ∈ prototype.operator?, operator.Moderate := by
  cases derived with
  | function name distinct =>
    intro operator declared
    cases declared
  | unary symbol parameter =>
    intro operator declared
    cases declared
  | binary symbol distinct =>
    simp only [Token.Kind.allGenuine_cons] at genuine
    rw [Prototype.operator?_binary]
    rintro operator ⟨rfl⟩
    have bounds : 1 ≤ defaultPrecedence.toInt32 ∧ defaultPrecedence.toInt32 ≤ 100 := by decide
    exact ⟨genuine.2.1, bounds⟩
  | @weighted symbol left right value declarable distinct =>
    simp only [Token.Kind.allGenuine_cons] at genuine
    obtain ⟨-, known, unsigned, -⟩ := genuine
    obtain ⟨lowest, highest⟩ := wholePart_of_isDeclarable unsigned declarable
    rw [Prototype.operator?_binary]
    rintro operator ⟨rfl⟩
    refine ⟨known, ?_⟩
    unfold lowestPrecedence at lowest
    unfold highestPrecedence at highest
    have exact : (UInt32.ofNat value.wholePart).toInt32.toInt = value.wholePart := by
      rw [UInt32.toInt32_ofNat', Int32.toInt_ofNat_of_lt (by omega)]
    have one : (1 : Int32).toInt = 1 := rfl
    have hundred : (100 : Int32).toInt = 100 := rfl
    simp only [Int32.le_iff_toInt_le, exact, one, hundred]
    omega

theorem DerivesPrototype.moderate {row : List Token.Kind} {prototype : Prototype}
    (derived : DerivesPrototype row prototype) (genuine : Token.Kind.AllGenuine row) :
    prototype.Moderate := by
  intro table
  have operators := moderate_of_derives derived genuine
  rw [OperatorTable.declare_of_derives derived]
  cases declared : prototype.operator? with
  | none => exact .refl table
  | some operator => exact OperatorTable.grows_define (operators operator declared)

/-- What a form declares can be entered into any table. -/
theorem DerivesForm.moderate {operators : OperatorTable} {row : List Token.Kind} {form : Form}
    (derived : DerivesForm operators row form) (genuine : Token.Kind.AllGenuine row) :
    form.prototype.Moderate := by
  cases derived with
  | definition named inside =>
    simp only [Token.Kind.allGenuine_append, Token.Kind.allGenuine_cons] at genuine
    exact named.moderate genuine.1.2
  | declaration named => exact named.moderate ((Token.Kind.allGenuine_cons _ _).1 genuine).2
  | expression only => exact OperatorTable.Grows.refl

end Grammar

/-- The contract of a backend that changes the table only by entering prototypes of forms: of the
form that it is given, and of earlier forms, whose prototypes it has held on to. -/
structure Backend.Registers (β : Type) [Backend β] (held : β → Set Prototype) : Prop where
  accept (backend : β) (form : Form) (operators : OperatorTable) :
    ∃ entered : List Prototype, (∀ prototype ∈ entered,
      prototype = form.prototype ∨ prototype ∈ held backend) ∧
      (Backend.accept backend form operators).operators =
        entered.foldl OperatorTable.declare operators
  hold (backend : β) (form : Form) (operators : OperatorTable) (prototype : Prototype) :
    prototype ∈ held (Backend.accept backend form operators).backend →
      prototype = form.prototype ∨ prototype ∈ held backend
  report (backend : β) (failure : Option Failure) :
    held (Backend.report backend failure) ⊆ held backend

/-- The recorder holds on to nothing: it enters each form when it is given, or none. -/
theorem Recorder.registers : Backend.Registers Recorder fun _ => ∅ where
  accept recorder form operators := by
    by_cases enters : recorder.entersOperators = true
    · exact ⟨[form.prototype], by simp, if_pos enters⟩
    · exact ⟨[], by simp, if_neg enters⟩
  hold _ _ _ _ := False.elim
  report _ _ := Set.Subset.rfl

/-- So does the printer, also where it refuses a definition whose operator it has entered. -/
theorem Printer.registers : Backend.Registers Printer fun _ => ∅ where
  accept printer form operators := by
    obtain ⟨entered, kept⟩ := printer.operators_accept form operators
    by_cases fits : printer.sink.Fits (announcement form)
    · cases form with
      | definition given => exact ⟨[given.prototype], by simp [Form.prototype], entered fits⟩
      | declaration prototype => exact ⟨[], by simp, entered fits⟩
      | expression wrapped => exact ⟨[], by simp, entered fits⟩
    · exact ⟨[], by simp, kept fits⟩
  hold _ _ _ _ := False.elim
  report _ _ := Set.Subset.rfl

theorem OperatorTable.grows_foldl {entered : List Prototype}
    (moderate : ∀ prototype ∈ entered, prototype.Moderate) (table : OperatorTable) :
    table.Grows (entered.foldl declare table) := by
  induction entered generalizing table with
  | nil => exact .refl table
  | cons prototype entered hypothesis =>
    obtain ⟨first, rest⟩ := List.forall_mem_cons.1 moderate
    exact (first table).trans (hypothesis rest _)

namespace Toplevel

variable {β : Type} [Backend β] {held : β → Set Prototype} {top : Toplevel β}

/-- All that the backend can come to enter is moderate. -/
structure Orderly (held : β → Set Prototype) (top : Toplevel β) : Prop where
  genuine : top.session.tokens.Genuine
  moderate : ∀ prototype ∈ held top.backend, prototype.Moderate

/-- A form that is handed over leaves nothing behind but moderate prototypes and operators. -/
theorem grows_submit (registers : Backend.Registers β held)
    (moderate : ∀ prototype ∈ held top.backend, prototype.Moderate) (session : Session)
    {form : Form} (read : form.prototype.Moderate) :
    session.operators.Grows (top.submit session form).2.session.operators ∧
      ∀ prototype ∈ held (top.submit session form).2.backend, prototype.Moderate := by
  have known : ∀ prototype, prototype = form.prototype ∨ prototype ∈ held top.backend →
      prototype.Moderate := by
    rintro prototype (rfl | inside)
    · exact read
    · exact moderate prototype inside
  constructor
  · obtain ⟨entered, among, table⟩ := registers.accept top.backend form session.operators
    rw [operators_submit, table]
    exact OperatorTable.grows_foldl (fun prototype inside => known prototype (among _ inside)) _
  · have kept := registers.hold top.backend form session.operators
    unfold submit
    generalize Backend.accept top.backend form session.operators = reaction at kept
    obtain ⟨_ | failure, backend, operators⟩ := reaction
    · exact fun prototype inside => known prototype (kept prototype inside)
    · exact fun prototype inside =>
        known prototype (kept prototype (registers.report backend _ inside))

theorem Orderly.step (registers : Backend.Registers β held) (orderly : top.Orderly held) :
    top.session.operators.Grows top.step.2.session.operators ∧ top.step.2.Orderly held := by
  have genuine := genuine_of_reachable orderly.genuine (.step .start)
  have level := (Session.form_yields top.session).operators_eq
  have reported (failure : Option Failure) :
      ∀ prototype ∈ held (Backend.report top.backend failure), prototype.Moderate :=
    fun prototype inside => orderly.moderate prototype (registers.report _ _ inside)
  have taken := top.dispatch
  generalize top.step = result at genuine taken ⊢
  cases taken with
  | finished ended => exact ⟨.refl _, orderly⟩
  | separator seen => exact ⟨.refl _, genuine, orderly.moderate⟩
  | @submitted form session more plain run =>
    obtain ⟨row, known, derived⟩ := Session.exists_genuine_row orderly.genuine run
    obtain ⟨grows, moderate⟩ :=
      grows_submit registers orderly.moderate session (derived.moderate known)
    rw [run] at level
    exact ⟨level ▸ grows, genuine, moderate⟩
  | incomplete more plain run =>
    rw [run] at level
    exact ⟨level ▸ .refl _, genuine, reported _⟩
  | failed more plain run =>
    rw [run] at level
    exact ⟨level ▸ .refl _, genuine, reported _⟩

/-- The table only grows in a run, and the run stays orderly. -/
theorem Orderly.reachable (registers : Backend.Registers β held) {start : Toplevel β}
    (orderly : start.Orderly held) (reached : Reachable start top) :
    start.session.operators.Grows top.session.operators ∧ top.Orderly held := by
  induction reached with
  | start => exact ⟨.refl _, orderly⟩
  | step reached hypothesis =>
    obtain ⟨grown, orderly⟩ := hypothesis
    obtain ⟨grows, next⟩ := orderly.step registers
    exact ⟨grown.trans grows, next⟩
  | prompt reached hypothesis => exact ⟨hypothesis.1, hypothesis.2.genuine, hypothesis.2.moderate⟩

end Toplevel

/-- Exactly the characters that are tokens by themselves are symbols of some input. -/
theorem Text.isSymbol_iff_exists_token (c : Char) :
    Text.isSymbol c = true ↔
      ∃ (input : Input) (source : Option String), ∃ token ∈ input.tokens source,
        token.kind = .symbol c := by
  constructor
  · intro symbol
    have spelled : List.Forall₂ Token.Kind.Spells [[c]] [.symbol c] := .cons rfl .nil
    have lexable : Token.Kind.AllLexable [.symbol c] := List.forall_mem_singleton.2 symbol
    have ahead := TokenStream.kinds_ofLexer_spaced spelled (List.cons_ne_nil _ _) lexable none
    have inside : Token.Kind.symbol c ∈ (TokenStream.ofLexer
        (.ofInput (.ofText (Text.spaced [[c]]) none) none)).ahead.map Token.kind := by
      rw [ahead]
      exact List.mem_singleton_self _
    obtain ⟨token, there, kind⟩ := List.mem_map.1 inside
    exact ⟨_, none, token, List.mem_append_left _ there, kind⟩
  · rintro ⟨input, source, token, there, kind⟩
    rcases List.mem_append.1 there with ahead | ending
    · have genuine := TokenStream.genuine_ofLexer input source token ahead
      rw [kind] at genuine
      exact genuine
    · rw [List.mem_singleton.1 ending] at kind
      cases kind

namespace Toplevel

variable {β : Type} [Backend β]

/-- A run that starts with the operators of the language, over any input and with any backend that
enters only prototypes of the forms it is given, keeps its table in order: every precedence is one
that can be declared, every symbol is one that the lexer can give, no symbol is ever lost, and a
symbol of the table is always an operator. -/
theorem table_stays_moderate (held : β → Set Prototype) (registers : Backend.Registers β held)
    (input : Input) (source : Option String) (backend : β) (fresh : held backend = ∅)
    (prompt : Option String) (top : Toplevel β)
    (reached : Reachable
      (.start (.start (.ofLexer (.ofInput input source)) .builtin) backend prompt) top) :
    (∀ entry ∈ top.session.operators.entries, 1 ≤ entry.precedence ∧ entry.precedence ≤ 100 ∧
      ∃ (input : Input) (source : Option String), ∃ token ∈ input.tokens source,
        token.kind = .symbol entry.symbol) ∧
    (∀ symbol, top.session.operators.contains symbol = true ↔
      0 < top.session.operators.precedence symbol) ∧
    ∀ later, Reachable top later → ∀ symbol, top.session.operators.contains symbol = true →
      later.session.operators.contains symbol = true := by
  have builtin : ∀ entry ∈ OperatorTable.builtin.entries, entry.Moderate := by decide
  have started : (Toplevel.start (.start (.ofLexer (.ofInput input source)) .builtin) backend
      prompt).Orderly held := by
    refine ⟨TokenStream.genuine_ofLexer input source, ?_⟩
    show ∀ prototype ∈ held backend, prototype.Moderate
    simp [fresh]
  obtain ⟨grown, orderly⟩ := started.reachable registers reached
  have moderate : ∀ entry ∈ top.session.operators.entries, entry.Moderate := by
    intro entry inside
    exact (grown.entries entry inside).elim (builtin entry) id
  refine ⟨?_, OperatorTable.contains_iff_precedence_pos moderate, ?_⟩
  · intro entry inside
    obtain ⟨symbol, lowest, highest⟩ := moderate entry inside
    exact ⟨lowest, highest, (Text.isSymbol_iff_exists_token entry.symbol).1 symbol⟩
  · intro later further
    exact (orderly.reachable registers further).1.symbols

/-- The operator of a refused definition, with a fraction cut off, is still there behind an extern
declaration. -/
theorem table_stays_moderate_of_refused :
    let input : Input := .ofText "def binary| 99.5 (x y) x extern binary: 1 (x y)" none
    let start : Toplevel Recorder :=
      .start (.start (.ofLexer (.ofInput input none)) .builtin) (.fresh true ["binary|"]) none
    let top := start.step.2
    let later := top.step.2
    Backend.Registers Recorder (fun _ => ∅) ∧ Backend.Registers Printer (fun _ => ∅) ∧
      top.summary.rejected = 1 ∧
      top.session.operators.get? '|' = some 99 ∧ later.session.operators.get? ':' = some 1 ∧
      (∀ entry ∈ later.session.operators.entries,
        1 ≤ entry.precedence ∧ entry.precedence ≤ 100) ∧
      later.session.operators.contains '|' = true := by
  intro input start top later
  have reached : Reachable start top := .step .start
  have weighed : top.session.operators.get? '|' = some 99 := by decide +kernel
  have entered : top.session.operators.contains '|' = true := by
    rw [OperatorTable.contains, weighed]
    rfl
  obtain ⟨-, -, kept⟩ := table_stays_moderate _ Recorder.registers input none _ rfl none top reached
  obtain ⟨bounds, -⟩ :=
    table_stays_moderate _ Recorder.registers input none _ rfl none later reached.step
  exact ⟨Recorder.registers, Printer.registers, by decide +kernel, weighed, by decide +kernel,
    fun entry inside => ⟨(bounds entry inside).1, (bounds entry inside).2.1⟩,
    kept later (.step .start) '|' entered⟩

end Toplevel

end Kaleidoscope
