import Kaleidoscope.Proofs.Accounting
import Kaleidoscope.Proofs.Genuine
import Kaleidoscope.Proofs.Independence

set_option autoImplicit false

/- A derivation puts nothing into a tree but what stands in its row of tokens. -/

namespace Kaleidoscope

/-- What the names, the numbers and the signs of an expression may be. -/
structure Vocabulary where
  name : String → Prop
  number : Number → Prop
  unary : Char → Prop
  binary : Char → Prop

/-- The words that forms can have when they are read under a table of operators. -/
def OperatorTable.vocabulary (operators : OperatorTable) : Vocabulary where
  name word := Text.isName word = true
  number value := value.Unsigned
  unary symbol := Text.isSymbol symbol = true ∧ symbol ≠ '(' ∧ symbol ≠ ','
  binary symbol := Text.isSymbol symbol = true ∧ 0 < operators.precedence symbol

namespace Expr

/-- The words of the expression are those of the vocabulary, and it binds a name wherever it binds
names. -/
inductive Within (words : Vocabulary) : Expr → Prop where
  | number {value : Number} (known : words.number value) : Within words (.number value)
  | reference {name : String} (known : words.name name) : Within words (.reference name)
  | unary {symbol : Char} {operand : Expr} (known : words.unary symbol)
      (inside : Within words operand) : Within words (.unary symbol operand)
  | binary {symbol : Char} {left right : Expr} (known : words.binary symbol)
      (before : Within words left) (behind : Within words right) :
      Within words (.binary symbol left right)
  | call {callee : String} {given : List Expr} (known : words.name callee)
      (inside : ∀ x ∈ given, Within words x) : Within words (.call callee given)
  | conditional {condition consequent alternative : Expr} (tested : Within words condition)
      (chosen : Within words consequent) (otherwise : Within words alternative) :
      Within words (.conditional condition consequent alternative)
  | loop {counter : String} {start stop body : Expr} {step : Option Expr}
      (known : words.name counter) (begins : Within words start) (ends : Within words stop)
      (steps : ∀ x ∈ step, Within words x) (repeated : Within words body) :
      Within words (.loop counter start stop step body)
  | scope {bound : List (String × Option Expr)} {body : Expr} (some : bound ≠ [])
      (known : ∀ binding ∈ bound, words.name binding.1)
      (initial : ∀ binding ∈ bound, ∀ x ∈ binding.2, Within words x)
      (inside : Within words body) : Within words (.scope bound body)

end Expr

/-- The prototypes that can be read: an operator is named for its sign and has as many parameters
as operands. -/
inductive Prototype.Regular : Prototype → Prop where
  | function {name : String} {parameters : List String} (known : Text.isName name = true)
      (named : ∀ parameter ∈ parameters, Text.isName parameter = true) :
      Regular (.function name parameters)
  | unary {symbol : Char} {parameter : String} (known : Text.isSymbol symbol = true)
      (named : Text.isName parameter = true) : Regular (.unary symbol [parameter])
  | binary {symbol : Char} {left right : String} {precedence : UInt32}
      (known : Text.isSymbol symbol = true) (first : Text.isName left = true)
      (second : Text.isName right = true) : Regular (.binary symbol [left, right] precedence)

/-- A form with a regular prototype and a body of the vocabulary. -/
def Form.WellFormed (words : Vocabulary) : Form → Prop
  | .definition given => given.prototype.Regular ∧ given.body.Within words
  | .declaration prototype => prototype.Regular
  | .expression wrapped => wrapped.prototype = .anonymous ∧ wrapped.body.Within words

namespace Grammar

open Token.Kind

variable {operators : OperatorTable}

mutual

/-- A tree has no words but those of its row, and a sign joins two trees only where the table makes
it an operator. -/
theorem Derives.within {level : Level} {row : List Token.Kind} {tree : Expr} :
    Derives operators level row tree → AllGenuine row → tree.Within operators.vocabulary
  | .number value, genuine => .number (genuine (.number value) (by simp))
  | .reference name, genuine => .reference (genuine (.identifier name) (by simp))
  | .call name arguments, genuine => by
    simp only [allGenuine_append, allGenuine_cons] at genuine
    obtain ⟨⟨known, -, inside⟩, -⟩ := genuine
    exact .call known (arguments.within inside)
  | .parenthesized inside, genuine => by
    simp only [allGenuine_append, allGenuine_cons] at genuine
    exact inside.within genuine.1.2
  | .conditional tested chosen otherwise, genuine => by
    simp only [allGenuine_append, allGenuine_cons] at genuine
    obtain ⟨⟨⟨-, first⟩, -, second⟩, -, third⟩ := genuine
    exact .conditional (tested.within first) (chosen.within second) (otherwise.within third)
  | .loop counter begins ends steps repeated, genuine => by
    simp only [allGenuine_append, allGenuine_cons] at genuine
    obtain ⟨⟨⟨⟨-, known, -, first⟩, -, second⟩, third⟩, -, fourth⟩ := genuine
    exact .loop known (begins.within first) (ends.within second) (steps.within third)
      (repeated.within fourth)
  | .scope bound inside, genuine => by
    simp only [allGenuine_append, allGenuine_cons] at genuine
    obtain ⟨⟨-, first⟩, -, second⟩ := genuine
    obtain ⟨some, known, initial⟩ := bound.within first
    exact .scope some known initial (inside.within second)
  | .plain only, genuine => only.within genuine
  | .prefixed closed single inside, genuine => by
    obtain ⟨known, rest⟩ := (allGenuine_cons _ _).1 genuine
    exact .unary ⟨known, closed, single⟩ (inside.within rest)
  | .single only, genuine => only.within genuine
  | .binary before operator behind, genuine => by
    simp only [allGenuine_append, allGenuine_cons] at genuine
    obtain ⟨first, known, second⟩ := genuine
    exact .binary ⟨known, operator⟩ (before.within first) (behind.within second)

theorem DerivesArguments.within {row : List Token.Kind} {given : List Expr} :
    DerivesArguments operators row given → AllGenuine row →
      ∀ x ∈ given, x.Within operators.vocabulary
  | .none, _ => by simp
  | .last only, genuine => List.forall_mem_singleton.2 (only.within genuine)
  | .more head _ rest, genuine => by
    simp only [allGenuine_append, allGenuine_cons] at genuine
    obtain ⟨first, -, second⟩ := genuine
    exact List.forall_mem_cons.2 ⟨head.within first, rest.within second⟩

theorem DerivesOptional.within {mark : Char} {row : List Token.Kind} {value : Option Expr} :
    DerivesOptional operators mark row value → AllGenuine row →
      ∀ x ∈ value, x.Within operators.vocabulary
  | .none _, _ => by simp
  | .some _ announced, genuine => by
    simpa using announced.within ((allGenuine_cons _ _).1 genuine).2

theorem DerivesBindings.within {row : List Token.Kind} {bound : List (String × Option Expr)} :
    DerivesBindings operators row bound → AllGenuine row →
      bound ≠ [] ∧ (∀ binding ∈ bound, Text.isName binding.1 = true) ∧
        ∀ binding ∈ bound, ∀ x ∈ binding.2, x.Within operators.vocabulary
  | .last name value, genuine => by
    obtain ⟨known, rest⟩ := (allGenuine_cons _ _).1 genuine
    exact ⟨List.cons_ne_nil _ _, List.forall_mem_singleton.2 known,
      List.forall_mem_singleton.2 (value.within rest)⟩
  | .more name value rest, genuine => by
    simp only [allGenuine_append, allGenuine_cons] at genuine
    obtain ⟨⟨known, first⟩, -, second⟩ := genuine
    obtain ⟨-, others, initial⟩ := rest.within second
    exact ⟨List.cons_ne_nil _ _, List.forall_mem_cons.2 ⟨known, others⟩,
      List.forall_mem_cons.2 ⟨value.within first, initial⟩⟩

end

theorem DerivesPrototype.regular {row : List Token.Kind} {prototype : Prototype}
    (derived : DerivesPrototype row prototype) (genuine : AllGenuine row) :
    prototype.Regular := by
  cases derived with
  | function name distinct =>
    simp only [allGenuine_append, allGenuine_cons] at genuine
    obtain ⟨⟨known, -, inside⟩, -⟩ := genuine
    exact .function known (List.forall_mem_map.1 inside)
  | unary symbol parameter =>
    simp only [allGenuine_cons] at genuine
    obtain ⟨-, known, -, named, -⟩ := genuine
    exact .unary known named
  | binary symbol distinct =>
    simp only [allGenuine_cons] at genuine
    obtain ⟨-, known, -, first, second, -⟩ := genuine
    exact .binary known first second
  | weighted symbol declarable distinct =>
    simp only [allGenuine_cons] at genuine
    obtain ⟨-, known, -, -, first, second, -⟩ := genuine
    exact .binary known first second

theorem DerivesForm.wellFormed {row : List Token.Kind} {form : Form}
    (derived : DerivesForm operators row form) (genuine : AllGenuine row) :
    form.WellFormed operators.vocabulary := by
  cases derived with
  | definition named inside =>
    simp only [allGenuine_append, allGenuine_cons] at genuine
    obtain ⟨⟨-, first⟩, second⟩ := genuine
    exact ⟨named.regular first, inside.within second⟩
  | declaration named => exact named.regular ((allGenuine_cons _ _).1 genuine).2
  | expression only => exact ⟨rfl, only.within genuine⟩

end Grammar

namespace Expr

variable {words : Vocabulary}

theorem equalsAll_self {given : List Expr} (inside : ∀ x ∈ given, x.equals x = true) :
    equalsAll given given = true := by
  induction given with
  | nil => rfl
  | cons x given hypothesis =>
    obtain ⟨first, rest⟩ := List.forall_mem_cons.1 inside
    simp [equalsAll, first, hypothesis rest]

theorem equalsOptional_self {value : Option Expr} (inside : ∀ x ∈ value, x.equals x = true) :
    equalsOptional value value = true := by
  cases value with
  | none => rfl
  | some x => exact inside x rfl

theorem equalsBindings_self {bound : List (String × Option Expr)}
    (inside : ∀ binding ∈ bound, ∀ x ∈ binding.2, x.equals x = true) :
    equalsBindings bound bound = true := by
  induction bound with
  | nil => rfl
  | cons binding bound hypothesis =>
    obtain ⟨first, rest⟩ := List.forall_mem_cons.1 inside
    simp [equalsBindings, equalsOptional_self first, hypothesis rest]

/-- An expression equals itself unless it holds the value that is no number. -/
theorem Within.equals_self (ordered : ∀ value, words.number value → value ≠ .nan) {e : Expr}
    (within : e.Within words) : e.equals e = true := by
  induction within with
  | number known => exact (Number.equals_self_iff _).2 (ordered _ known)
  | reference known => simp [equals]
  | unary known inside operand => simp [equals, operand]
  | binary known before behind left right => simp [equals, left, right]
  | call known inside given => simp [equals, equalsAll_self given]
  | conditional tested chosen otherwise condition consequent alternative =>
    simp [equals, condition, consequent, alternative]
  | loop known begins ends steps repeated start stop step body =>
    simp [equals, start, stop, equalsOptional_self step, body]
  | scope some known initial inside bound body => simp [equals, equalsBindings_self bound, body]

end Expr

/-- Whether two definitions are equal. -/
def Definition.equals (left right : Definition) : Bool :=
  left.prototype == right.prototype && left.body.equals right.body

namespace Form

/-- Whether two forms are equal: forms of different kinds never are. -/
def equals : Form → Form → Bool
  | .definition left, .definition right => left.equals right
  | .declaration left, .declaration right => left == right
  | .expression left, .expression right => left.equals right
  | _, _ => false

theorem WellFormed.equals_self {words : Vocabulary} {form : Form}
    (ordered : ∀ value, words.number value → value ≠ .nan) (formed : form.WellFormed words) :
    form.equals form = true := by
  cases form with
  | definition given => simp [equals, Definition.equals, formed.2.equals_self ordered]
  | declaration prototype => simp [equals]
  | expression wrapped => simp [equals, Definition.equals, formed.2.equals_self ordered]

end Form

/-- A form is read from the tokens ahead, under the operators in force. -/
theorem Session.exists_genuine_row {session after : Session} {form : Form}
    (genuine : session.tokens.Genuine) (run : session.form = (.parsed form, after)) :
    ∃ row, Token.Kind.AllGenuine row ∧ Grammar.DerivesForm session.operators row form := by
  have yields := form_yields session
  unfold Parser.Yields at yields
  rw [run] at yields
  obtain ⟨row, same, derived⟩ := yields
  refine ⟨row.map Token.kind, List.forall_mem_map.2 ?_, derived form rfl⟩
  intro token inside
  apply genuine token
  rw [same]
  exact List.mem_append_left _ inside

theorem TokenStream.Genuine.regular {stream : TokenStream} (genuine : stream.Genuine) :
    stream.Regular :=
  fun token inside => (genuine token inside).ne_endOfInput

namespace Toplevel

variable {β : Type} [Backend β]

/-- A step hands over the form that it reads. -/
theorem form_of_step {top : Toplevel β} {form : Form} (handed : top.step.1.form? = some form) :
    ∃ session, top.session.form = (.parsed form, session) := by
  have taken := top.dispatch
  generalize top.step = result at handed taken
  cases taken with
  | finished ended => cases handed
  | separator seen => cases handed
  | incomplete more plain run => cases handed
  | failed more plain run => cases handed
  | @submitted submitted session more plain run =>
    have same : some submitted = some form := by
      rcases top.submit_cases session submitted with used | ⟨failure, refused⟩
      · rw [used] at handed
        exact handed
      · rw [refused] at handed
        exact handed
    exact ⟨session, Option.some.inj same ▸ run⟩

/-- What is still ahead in a later state was ahead before. -/
theorem genuine_of_reachable {start top : Toplevel β} (genuine : start.session.tokens.Genuine)
    (reached : Reachable start top) : top.session.tokens.Genuine := by
  induction reached with
  | start => exact genuine
  | @step top reached hypothesis =>
    obtain ⟨row, takes, -⟩ := exists_takes hypothesis.regular
    intro token inside
    apply hypothesis token
    rw [takes.ahead]
    exact List.mem_append_right _ inside
  | prompt reached hypothesis => exact hypothesis

/-- Every form that is handed to a backend, from any input and in any state of a run, is well
formed: its names are words that are not reserved, its numbers have no sign, its unary signs start
no operand by themselves, its binary signs are operators of the table under which it was read, and
it binds a name wherever it binds names. So it equals itself. -/
theorem submitted_form_wellFormed (input : Input) (source : Option String)
    (operators : OperatorTable) (backend : β) (prompt : Option String) (top : Toplevel β)
    (form : Form)
    (reached : Reachable
      (.start (.start (.ofLexer (.ofInput input source)) operators) backend prompt) top)
    (handed : top.step.1.form? = some form) :
    form.WellFormed top.session.operators.vocabulary ∧ form.equals form = true := by
  have genuine := genuine_of_reachable (TokenStream.genuine_ofLexer input source) reached
  obtain ⟨session, run⟩ := form_of_step handed
  obtain ⟨row, known, derived⟩ := Session.exists_genuine_row genuine run
  have formed := derived.wellFormed known
  have ordered (value : Number) (unsigned : value.Unsigned) : value ≠ .nan := unsigned.1
  exact ⟨formed, formed.equals_self ordered⟩

/-- The form behind a definition that could not be read. -/
theorem submitted_form_wellFormed_behind_failure :
    let input : Input := .ofText "def f(, var x=-y in x+y" none
    let start : Toplevel Recorder :=
      .start (.start (.ofLexer (.ofInput input none)) .builtin) (.fresh true []) none
    let form : Form := .expression (.ofExpression (.scope
      [("x", some (.unary '-' (.reference "y")))] (.binary '+' (.reference "x") (.reference "y"))))
    start.step.1.form? = none ∧ start.step.2.step.1.form? = some form ∧
      form.WellFormed start.step.2.session.operators.vocabulary ∧ form.equals form = true := by
  intro input start form
  let token (column : UInt32) (width : UInt32) (kind : Token.Kind) : Token :=
    ⟨kind, ⟨⟨"shell", 1, column⟩, ⟨"shell", 1, column + width⟩⟩⟩
  have listed : TokenStream.ofLexer (.ofInput input none) =
      ⟨[token 1 3 (.keyword .defWord), token 5 1 (.identifier "f"), token 6 1 (.symbol '('),
        token 7 1 (.symbol ','), token 9 3 (.keyword .varWord), token 13 1 (.identifier "x"),
        token 14 1 (.symbol '='), token 15 1 (.symbol '-'), token 16 1 (.identifier "y"),
        token 18 2 (.keyword .inWord), token 21 1 (.identifier "x"), token 22 1 (.symbol '+'),
        token 23 1 (.identifier "y")], ⟨"shell", 1, 24⟩, none⟩ := by decide +kernel
  have lost : start.step.1.form? = none := by
    simp only [start, listed]
    rfl
  have handed : start.step.2.step.1.form? = some form := by
    simp only [start, listed]
    rfl
  exact ⟨lost, handed, submitted_form_wellFormed input none _ _ none _ form (.step .start) handed⟩

end Toplevel

end Kaleidoscope
