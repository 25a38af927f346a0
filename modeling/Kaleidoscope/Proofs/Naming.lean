import Kaleidoscope.Proofs.Vocabulary

set_option autoImplicit false

/- The symbol of an operator is no letter and no digit, a name that is read is a word, and the
function that wraps an expression is named with underscores, which no word has. -/

namespace Kaleidoscope

/-- What a function is declared as. -/
inductive Role where
  | function
  | unary (symbol : Char)
  | binary (symbol : Char)
  /-- The function that wraps an expression. -/
  | anonymous
  deriving DecidableEq

namespace Role

/-- The symbol that an operator is declared for. -/
def symbol? : Role → Option Char
  | unary symbol => some symbol
  | binary symbol => some symbol
  | _ => none

/-- The role that the first tokens of a prototype declare. -/
def ofKinds? : List Token.Kind → Option Role
  | .identifier _ :: _ => some function
  | .keyword .unaryWord :: .symbol symbol :: _ => some (unary symbol)
  | .keyword .binaryWord :: .symbol symbol :: _ => some (binary symbol)
  | _ => none

/-- The role that a name tells. -/
def ofName (name : String) : Role :=
  match name.toList with
  | ['u', 'n', 'a', 'r', 'y', symbol] => if Text.isSymbol symbol then unary symbol else function
  | ['b', 'i', 'n', 'a', 'r', 'y', symbol] =>
    if Text.isSymbol symbol then binary symbol else function
  | _ => if name = Prototype.anonymousName then anonymous else function

/-- The prototypes of a role. -/
inductive Fits : Role → Prototype → Prop where
  | function {name : String} (parameters : List String) (known : Text.isName name = true) :
      Fits function (.function name parameters)
  | unary {symbol : Char} (parameter : String) (known : Text.isSymbol symbol = true) :
      Fits (unary symbol) (.unary symbol [parameter])
  | binary {symbol : Char} (left right : String) (precedence : UInt32)
      (known : Text.isSymbol symbol = true) :
      Fits (binary symbol) (.binary symbol [left, right] precedence)
  | anonymous : Fits anonymous .anonymous

theorem not_isSymbol_of_isAlphanum {c : Char} (alphanumeric : c.isAlphanum = true) :
    Text.isSymbol c = false := by
  simp only [Char.isAlphanum, Bool.or_eq_true] at alphanumeric
  rcases alphanumeric with letter | digit
  · simp [Text.isSymbol, letter]
  · simp [Text.isSymbol, Text.isNumeral, digit]

theorem ne_anonymousName_of_isName {name : String} (known : Text.isName name = true) :
    name ≠ Prototype.anonymousName := by
  rintro rfl
  exact absurd known (by decide)

/-- A word that is not reserved is the name of no operator and not that of a wrapper. -/
theorem ofName_of_isName {name : String} (known : Text.isName name = true) :
    ofName name = .function := by
  have letters := Text.isAlphanum_of_isWord (Text.isWord_of_isName known)
  unfold ofName
  split
  next symbol shape => simp [not_isSymbol_of_isAlphanum (letters symbol (by simp [shape]))]
  next symbol shape => simp [not_isSymbol_of_isAlphanum (letters symbol (by simp [shape]))]
  next => simp [ne_anonymousName_of_isName known]

theorem ofName_unary {symbol : Char} (known : Text.isSymbol symbol = true) :
    ofName ("unary" ++ String.singleton symbol) = .unary symbol := by
  simp [ofName, known]

theorem ofName_binary {symbol : Char} (known : Text.isSymbol symbol = true) :
    ofName ("binary" ++ String.singleton symbol) = .binary symbol := by
  simp [ofName, known]

variable {role : Role} {prototype : Prototype}

/-- The name of a function tells its role. -/
theorem Fits.ofName_eq (fits : role.Fits prototype) : ofName prototype.name = role := by
  cases fits with
  | function parameters known => exact ofName_of_isName known
  | unary parameter known => exact ofName_unary known
  | binary left right precedence known => exact ofName_binary known
  | anonymous => decide

theorem Fits.symbol?_eq (fits : role.Fits prototype) : prototype.symbol? = role.symbol? := by
  cases fits with
  | function parameters known => rfl
  | unary parameter known => simp [Prototype.symbol?, Prototype.unary, symbol?]
  | binary left right precedence known => simp [Prototype.symbol?, Prototype.binary, symbol?]
  | anonymous => rfl

theorem Fits.isUnary_iff (fits : role.Fits prototype) :
    prototype.isUnary = true ↔ ∃ symbol, role = .unary symbol := by
  cases fits with
  | function parameters known => simp [Prototype.isUnary, Prototype.function]
  | unary parameter known => simp [Prototype.isUnary, Prototype.unary, Prototype.arity]
  | binary left right precedence known =>
    simp [Prototype.isUnary, Prototype.binary, Prototype.arity]
  | anonymous => simp [Prototype.isUnary, Prototype.anonymous, Prototype.function]

theorem Fits.isBinary_iff (fits : role.Fits prototype) :
    prototype.isBinary = true ↔ ∃ symbol, role = .binary symbol := by
  cases fits with
  | function parameters known => simp [Prototype.isBinary, Prototype.function]
  | unary parameter known => simp [Prototype.isBinary, Prototype.unary, Prototype.arity]
  | binary left right precedence known =>
    simp [Prototype.isBinary, Prototype.binary, Prototype.arity]
  | anonymous => simp [Prototype.isBinary, Prototype.anonymous, Prototype.function]

theorem Fits.isAnonymous_iff (fits : role.Fits prototype) :
    prototype.isAnonymous = true ↔ role = .anonymous := by
  constructor
  · intro named
    have told := fits.ofName_eq
    rw [eq_of_beq named] at told
    exact told.symm.trans (by decide)
  · rintro rfl
    cases fits
    rfl

/-- The name of an operator's function is told only by the operator. -/
theorem Fits.name_eq_unary_iff {symbol : Char} (fits : role.Fits prototype)
    (known : Text.isSymbol symbol = true) :
    prototype.name = "unary" ++ String.singleton symbol ↔ role = .unary symbol := by
  constructor
  · intro same
    rw [← fits.ofName_eq, same, ofName_unary known]
  · rintro rfl
    cases fits
    rfl

theorem Fits.name_eq_binary_iff {symbol : Char} (fits : role.Fits prototype)
    (known : Text.isSymbol symbol = true) :
    prototype.name = "binary" ++ String.singleton symbol ↔ role = .binary symbol := by
  constructor
  · intro same
    rw [← fits.ofName_eq, same, ofName_binary known]
  · rintro rfl
    cases fits
    rfl

end Role

namespace Grammar

/-- The first tokens of a prototype declare a role that it fits. -/
theorem DerivesPrototype.exists_role {row : List Token.Kind} {prototype : Prototype}
    (derived : DerivesPrototype row prototype) (genuine : Token.Kind.AllGenuine row)
    (rest : List Token.Kind) :
    ∃ role, Role.ofKinds? (row ++ rest) = some role ∧ role.Fits prototype := by
  cases derived with
  | function name distinct =>
    simp only [Token.Kind.allGenuine_append, Token.Kind.allGenuine_cons] at genuine
    exact ⟨.function, rfl, .function _ genuine.1.1⟩
  | unary symbol parameter =>
    simp only [Token.Kind.allGenuine_cons] at genuine
    exact ⟨.unary symbol, rfl, .unary parameter genuine.2.1⟩
  | binary symbol distinct =>
    simp only [Token.Kind.allGenuine_cons] at genuine
    exact ⟨.binary symbol, rfl, .binary _ _ _ genuine.2.1⟩
  | weighted symbol declarable distinct =>
    simp only [Token.Kind.allGenuine_cons] at genuine
    exact ⟨.binary symbol, rfl, .binary _ _ _ genuine.2.1⟩

end Grammar

namespace Session

/-- The tokens ahead are the last ones of some input, with any operators in force. -/
def Lexed (session : Session) : Prop :=
  ∃ (input : Input) (source : Option String),
    session.tokens.ahead <:+ (TokenStream.ofLexer (.ofInput input source)).ahead

theorem Lexed.genuine {session : Session} (lexed : session.Lexed) : session.tokens.Genuine := by
  obtain ⟨input, source, last⟩ := lexed
  exact fun token inside => TokenStream.genuine_ofLexer input source token (last.mem inside)

/-- The role that the tokens ahead declare. -/
def declared? (session : Session) : Option Role :=
  Role.ofKinds? (session.tokens.ahead.map Token.kind)

theorem exists_role_of_prototype {session after : Session} {prototype : Prototype}
    (genuine : session.tokens.Genuine) (run : session.prototype = (.parsed prototype, after)) :
    ∃ role, session.declared? = some role ∧ role.Fits prototype := by
  have yields := prototype_yields session
  unfold Parser.Yields at yields
  rw [run] at yields
  obtain ⟨row, rfl, derived⟩ := yields
  have known : Token.Kind.AllGenuine (row.map Token.kind) := by
    refine List.forall_mem_map.2 fun token inside => genuine token ?_
    exact List.mem_append_left _ inside
  rw [declared?, prepend_ahead, List.map_append]
  exact (derived prototype rfl).exists_role known _

end Session

/-- The functions that a backend can be given: those of prototypes that were read, with the role
that their first tokens declare, and those that wrap an expression. -/
inductive Prototype.Arises : Role → Prototype → Prop where
  | read {session after : Session} {prototype : Prototype} {role : Role} (lexed : session.Lexed)
      (run : session.prototype = (.parsed prototype, after))
      (declared : session.declared? = some role) : Arises role prototype
  | wrapped {session after : Session} {wrapper : Definition}
      (run : session.wrappedExpression = (.parsed wrapper, after)) :
      Arises .anonymous wrapper.prototype

theorem Prototype.Arises.fits {role : Role} {prototype : Prototype}
    (arises : Arises role prototype) : role.Fits prototype := by
  cases arises with
  | read lexed run declared =>
    obtain ⟨other, same, fits⟩ := Session.exists_role_of_prototype lexed.genuine run
    rw [declared] at same
    cases same
    exact fits
  | wrapped run =>
    obtain ⟨body, middle, -, rest⟩ := Parser.exists_of_bind run
    cases rest
    exact .anonymous

/-- The signs of an expression whose functions have names of their own. -/
def Vocabulary.operators : Vocabulary where
  name _ := True
  number _ := True
  unary symbol := ∀ role prototype, Prototype.Arises role prototype →
    (prototype.name = "unary" ++ String.singleton symbol ↔ role = .unary symbol)
  binary symbol := ∀ role prototype, Prototype.Arises role prototype →
    (prototype.name = "binary" ++ String.singleton symbol ↔ role = .binary symbol)

/-- An expression has no other words than before if there are more words. -/
theorem Expr.Within.mono {words other : Vocabulary} {e : Expr} (within : e.Within words)
    (names : ∀ name, words.name name → other.name name)
    (numbers : ∀ number, words.number number → other.number number)
    (unary : ∀ symbol, words.unary symbol → other.unary symbol)
    (binary : ∀ symbol, words.binary symbol → other.binary symbol) : e.Within other := by
  induction within with
  | number known => exact .number (numbers _ known)
  | reference known => exact .reference (names _ known)
  | unary known _ operand => exact .unary (unary _ known) operand
  | binary known _ _ left right => exact .binary (binary _ known) left right
  | call known _ given => exact .call (names _ known) given
  | conditional _ _ _ condition consequent alternative =>
    exact .conditional condition consequent alternative
  | loop known _ _ _ _ start stop step body => exact .loop (names _ known) start stop step body
  | scope some known _ _ bound body =>
    exact .scope some (fun binding inside => names _ (known binding inside)) bound body

theorem Session.within_of_expression {session after : Session} {e : Expr}
    (genuine : session.tokens.Genuine) (run : session.expression = (.parsed e, after)) :
    e.Within session.operators.vocabulary := by
  have yields := expression_yields session
  unfold Parser.Yields at yields
  rw [run] at yields
  obtain ⟨row, same, derived⟩ := yields
  apply (derived e rfl).within
  refine List.forall_mem_map.2 fun token inside => genuine token ?_
  rw [same]
  exact List.mem_append_left _ inside

namespace Prototype

/-- Functions of one name have one role: functions that were declared alike and, for operators, for
the same symbol. The symbol of a prototype, and whether it is that of a unary or of a binary
operator or of a wrapper, is what was declared. A prototype that is read always declares a role, and
is not that of a wrapper. So the name that stands for a sign of an expression is that of the
operator declared for the sign, and of no other function. -/
theorem names_never_collide :
    (∀ role other prototype second, Arises role prototype → Arises other second →
      prototype.name = second.name → role = other) ∧
    (∀ role prototype, Arises role prototype → prototype.symbol? = role.symbol? ∧
      (prototype.isUnary = true ↔ ∃ symbol, role = .unary symbol) ∧
      (prototype.isBinary = true ↔ ∃ symbol, role = .binary symbol) ∧
      (prototype.isAnonymous = true ↔ role = .anonymous)) ∧
    (∀ (session after : Session) prototype, session.Lexed →
      session.prototype = (.parsed prototype, after) →
      prototype.isAnonymous = false ∧
        ∃ role, session.declared? = some role ∧ Arises role prototype) ∧
    ∀ (session after : Session) e, session.Lexed → session.expression = (.parsed e, after) →
      e.Within .operators := by
  refine ⟨?_, ?_, ?_, ?_⟩
  · intro role other prototype second arises alike same
    rw [← arises.fits.ofName_eq, same, alike.fits.ofName_eq]
  · intro role prototype arises
    have fits := arises.fits
    exact ⟨fits.symbol?_eq, fits.isUnary_iff, fits.isBinary_iff, fits.isAnonymous_iff⟩
  · intro session after prototype lexed run
    obtain ⟨role, declared, fits⟩ := Session.exists_role_of_prototype lexed.genuine run
    refine ⟨?_, role, declared, .read lexed run declared⟩
    rw [← Bool.not_eq_true, fits.isAnonymous_iff]
    rintro rfl
    unfold Session.declared? Role.ofKinds? at declared
    split at declared <;> cases declared
  · intro session after e lexed run
    apply (Session.within_of_expression lexed.genuine run).mono
    · exact fun _ _ => trivial
    · exact fun _ _ => trivial
    · intro symbol known role prototype arises
      exact arises.fits.name_eq_unary_iff known.1
    · intro symbol known role prototype arises
      exact arises.fits.name_eq_binary_iff known.1

/-- A parenthesis that is declared as an operator, and an expression with a sign behind it. -/
theorem names_never_collide_of_parenthesis :
    let input : Input := .ofText "binary)(a b)-a" none
    let session : Session := .start (.ofLexer (.ofInput input none)) .builtin
    let behind := session.prototype.2
    let prototype : Prototype := .binary ')' ["a", "b"] 30
    let e : Expr := .unary '-' (.reference "a")
    session.Lexed ∧ session.prototype = (.parsed prototype, behind) ∧
      behind.Lexed ∧ behind.expression = (.parsed e, behind.expression.2) ∧
      Arises (.binary ')') prototype ∧ prototype.symbol? = some ')' ∧
      (∀ role second, Arises role second → prototype.name = second.name → .binary ')' = role) ∧
      e.Within .operators := by
  intro input session behind prototype e
  let token (column width : UInt32) (kind : Token.Kind) : Token :=
    ⟨kind, ⟨⟨"shell", 1, column⟩, ⟨"shell", 1, column + width⟩⟩⟩
  have listed : TokenStream.ofLexer (.ofInput input none) =
      ⟨[token 1 6 (.keyword .binaryWord), token 7 1 (.symbol ')'), token 8 1 (.symbol '('),
        token 9 1 (.identifier "a"), token 11 1 (.identifier "b"), token 12 1 (.symbol ')'),
        token 13 1 (.symbol '-'), token 14 1 (.identifier "a")], ⟨"shell", 1, 15⟩, none⟩ := by
    decide +kernel
  have lexed : session.Lexed := ⟨input, none, List.suffix_refl _⟩
  have run : session.prototype = (.parsed prototype, behind) := by
    simp only [behind, session, listed]
    rfl
  have later : behind.Lexed := by
    obtain ⟨row, same, -⟩ := Session.prototype_yields session
    exact ⟨input, none, row, (congrArg (fun front : Session => front.tokens.ahead) same).symm⟩
  have signed : behind.expression = (.parsed e, behind.expression.2) := by
    simp only [behind, session, listed]
    rfl
  obtain ⟨alike, kept, -, inside⟩ := names_never_collide
  have arises : Arises (.binary ')') prototype := .read lexed run (by
    simp only [session, listed]
    rfl)
  exact ⟨lexed, run, later, signed, arises, (kept _ _ arises).1,
    fun role second other same => alike _ _ _ _ arises other same,
    inside behind _ e later signed⟩

end Prototype

end Kaleidoscope
