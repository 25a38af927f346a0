import Kaleidoscope.Grammar.Expression

set_option autoImplicit false

/- What is true of the steps that productions are built with, and is kept where steps are put
together, is true of all productions. It is said of two ways of reading at a time; what concerns
only one of them is a relation that leaves out the other. -/

namespace Kaleidoscope

namespace Text

/-- The text has no line feed. -/
def OneLine (text : String) : Prop :=
  '\n' ∉ text.toList

instance (text : String) : Decidable (OneLine text) :=
  inferInstanceAs (Decidable ('\n' ∉ text.toList))

end Text

/-- A keyword or a character, which stands for nothing but itself. -/
def Token.Kind.isFixed : Token.Kind → Bool
  | keyword _ => true
  | symbol _ => true
  | _ => false

namespace Grammar

/-- The productions that operators take part in only within an expression. -/
def Rule.isConstruct {α : Type} : Rule α → Bool
  | .expression => false
  | .operations _ _ => false
  | .tighter _ _ => false
  | .operand => false
  | .prefixed => false
  | _ => true

/-- An expression, or a construct. -/
def Rule.isClosed {α : Type} : Rule α → Bool
  | .expression => true
  | rule => rule.isConstruct

/-- How many calls can follow one on the other, from a production on, before a token is taken. -/
def Rule.rank {α : Type} : Rule α → Nat
  | .operations _ _ => 0
  | .primary => 0
  | .named _ => 0
  | .bindings _ => 0
  | .tighter _ _ => 1
  | .prefixed => 1
  | .operand => 2
  | .expression => 3
  | _ => 4

/-- Among the characters there is something to go on with behind the marks of the grammar only, and
there is nothing behind the end of the input. -/
structure Plain {P : Type → Type} {α : Type} (next : Token.Kind → Option (P α)) : Prop where
  ended : next .endOfInput = none
  other (symbol : Char) : symbol ∉ ['(', ')', ',', '='] → next (.symbol symbol) = none

variable {ι : Type} {P Q : Type → Type} [Reading P] [Reading Q]

/-- The steps of constructs are related, and remain so where they are put together. The relation may
have an index, which goes down to one `below` it where a token is taken. -/
structure Congruent (below : ι → ι → Prop) (rel : ι → {α : Type} → P α → Q α → Prop) : Prop where
  pure (i : ι) {α : Type} (value : α) : rel i (Pure.pure value) (Pure.pure value)
  bind (i : ι) {α β : Type} {first : P α} {other : Q α} {next : α → P β} {following : α → Q β} :
    rel i first other → (∀ value, rel i (next value) (following value)) →
      rel i (first >>= next) (other >>= following)
  expect (i : ι) {α : Type} {kind : Token.Kind} {expectation : String} {next : P α}
    {following : Q α} : kind.isFixed → Text.OneLine expectation → rel i next following →
      rel i (do let _ ← Session.expect kind expectation; next)
        (do let _ ← Session.expect kind expectation; following)
  name (i : ι) {expectation : String} : Text.OneLine expectation →
    rel i (liftM (Session.expectName expectation)) (liftM (Session.expectName expectation))
  unexpected (i : ι) (α : Type) {expectation : String} : Text.OneLine expectation →
    rel i (liftM (Session.unexpected expectation : Parser α))
      (liftM (Session.unexpected expectation : Parser α))
  noExpression (i : ι) (α : Type) :
    rel i (liftM (Session.noExpression : Parser α)) (liftM (Session.noExpression : Parser α))
  behind (i : ι) {α : Type} {next : Token.Kind → Option (P α)}
    {following : Token.Kind → Option (Q α)} {otherwise : P α} {other : Q α} :
    Plain next → Plain following →
      (∀ kind, Option.Rel (fun inner last => ∀ j, below j i → rel j inner last) (next kind)
        (following kind)) → rel i otherwise other →
      rel i (behind (fun kind _ => next kind) otherwise)
        (behind (fun kind _ => following kind) other)

/-- The index of a relation that has none. -/
def everywhere : Unit → Unit → Prop :=
  fun _ _ => True

variable {below : ι → ι → Prop} {rel : ι → {α : Type} → P α → Q α → Prop} {i : ι} {α : Type}
  {call : {α : Type} → Rule α → P α} {other : {α : Type} → Rule α → Q α}

omit [Reading P] in
theorem plain_mark {mark : Char} (known : mark ∈ ['(', ')', ',', '=']) (present : P α) :
    Plain fun kind => if kind == .symbol mark then some present else none where
  ended := rfl
  other symbol strange := by
    have different : symbol ≠ mark := fun same => strange (same ▸ known)
    simp [different]

theorem plain_begun (call : {α : Type} → Rule α → P α) : Plain (begun call) where
  ended := rfl
  other symbol strange := by
    have different : symbol ≠ '(' := fun same => strange (by simp [same])
    simp [begun, different]

namespace Congruent

theorem behindMark (congruent : Congruent below @rel) {mark : Char} {present absent : P α}
    {following missing : Q α} (known : mark ∈ ['(', ')', ',', '='])
    (taken : ∀ j, below j i → rel j present following) (left : rel i absent missing) :
    rel i (behindMark mark present absent) (behindMark mark following missing) := by
  refine congruent.behind i (plain_mark known present) (plain_mark known following) ?_ left
  intro kind
  by_cases seen : kind == .symbol mark
  · rw [if_pos seen, if_pos seen]
    exact .some taken
  · rw [if_neg seen, if_neg seen]
    exact .none

theorem optional (congruent : Congruent below @rel) {mark : Char}
    (known : mark ∈ ['(', ')', ',', '='])
    (later : ∀ j, below j i → rel j (call .expression) (other .expression)) :
    rel i (optional call mark) (optional other mark) := by
  refine congruent.behindMark known ?_ (congruent.pure i none)
  intro j less
  exact congruent.bind j (later j less) fun value => congruent.pure j (some value)

theorem primary (congruent : Congruent below @rel)
    (later : ∀ j, below j i → ∀ {β : Type} (callee : Rule β), callee.isClosed = true →
      rel j (call callee) (other callee)) :
    rel i (body call .primary) (body other .primary) := by
  refine congruent.behind i (plain_begun call) (plain_begun other) ?_
    (congruent.noExpression i Expr)
  intro kind
  cases kind with
  | endOfInput => exact .none
  | identifier name => exact .some fun j less => later j less (.named name) rfl
  | number value => exact .some fun j _ => congruent.pure j (Expr.number value)
  | keyword word =>
    cases word
    case ifWord => exact .some fun j less => later j less .conditional rfl
    case forWord => exact .some fun j less => later j less .loop rfl
    case varWord => exact .some fun j less => later j less .scope rfl
    all_goals exact .none
  | symbol symbol =>
    by_cases opens : symbol = '('
    · simp only [begun, opens, ↓reduceIte]
      exact .some fun j less => later j less .parenthesized rfl
    · simp only [begun, opens, ↓reduceIte]
      exact .none

/-- What a construct takes is related if the expressions and constructs in it are, those that come
before any token already where it is itself. -/
theorem construct (congruent : Congruent below @rel) {rule : Rule α}
    (construct : rule.isConstruct = true)
    (now : ∀ {β : Type} (callee : Rule β), callee.isClosed = true → callee.rank < rule.rank →
      rel i (call callee) (other callee))
    (later : ∀ j, below j i → ∀ {β : Type} (callee : Rule β), callee.isClosed = true →
      rel j (call callee) (other callee)) :
    rel i (body call rule) (body other rule) := by
  cases rule with
  | expression => cases construct
  | operations => cases construct
  | tighter => cases construct
  | operand => cases construct
  | prefixed => cases construct
  | primary => exact congruent.primary later
  | parenthesized =>
    refine congruent.bind i (now .expression rfl (by decide)) fun inner => ?_
    exact congruent.expect i rfl (by decide) (congruent.pure i inner)
  | named name =>
    refine congruent.behindMark (by decide) (fun j less => ?_)
      (congruent.pure i (Expr.reference name))
    refine congruent.behindMark (by decide) (fun k _ => congruent.pure k (Expr.call name [])) ?_
    exact congruent.bind j (later j less .arguments rfl) fun given =>
      congruent.pure j (Expr.call name given)
  | arguments =>
    refine congruent.bind i (now .expression rfl (by decide)) fun first => ?_
    refine congruent.behindMark (by decide) (fun j _ => congruent.pure j [first]) ?_
    refine congruent.behindMark (by decide) (fun j less => ?_)
      (congruent.unexpected i _ (by decide))
    exact congruent.bind j (later j less .arguments rfl) fun others =>
      congruent.pure j (first :: others)
  | conditional =>
    refine congruent.bind i (now .expression rfl (by decide)) fun condition => ?_
    refine congruent.expect i rfl (by decide) ?_
    refine congruent.bind i (now .expression rfl (by decide)) fun consequent => ?_
    refine congruent.expect i rfl (by decide) ?_
    exact congruent.bind i (now .expression rfl (by decide)) fun alternative =>
      congruent.pure i (Expr.conditional condition consequent alternative)
  | loop =>
    refine congruent.bind i (congruent.name i (by decide)) fun counter => ?_
    refine congruent.expect i rfl (by decide) ?_
    refine congruent.bind i (now .expression rfl (by decide)) fun start => ?_
    refine congruent.expect i rfl (by decide) ?_
    refine congruent.bind i (now .expression rfl (by decide)) fun stop => ?_
    refine congruent.bind i (congruent.optional (by decide) fun j less =>
      later j less .expression rfl) fun step => ?_
    refine congruent.expect i rfl (by decide) ?_
    exact congruent.bind i (now .expression rfl (by decide)) fun body =>
      congruent.pure i (Expr.loop counter start stop step body)
  | scope =>
    refine congruent.bind i (now (.bindings false) rfl (by decide)) fun bound => ?_
    refine congruent.expect i rfl (by decide) ?_
    exact congruent.bind i (now .expression rfl (by decide)) fun body =>
      congruent.pure i (Expr.scope bound body)
  | bindings next =>
    refine congruent.bind i (congruent.name i (by cases next <;> decide)) fun name => ?_
    refine congruent.bind i (congruent.optional (by decide) fun j less =>
      later j less .expression rfl) fun initial => ?_
    refine congruent.behindMark (by decide) (fun j less => ?_) (congruent.pure i [(name, initial)])
    exact congruent.bind j (later j less (.bindings true) rfl) fun others =>
      congruent.pure j ((name, initial) :: others)

/-- Without an index, what an expression takes is left to be related. -/
theorem closed {rel : {α : Type} → P α → Q α → Prop}
    (congruent : Congruent everywhere fun _ => @rel) (call : {α : Type} → Rule α → P α)
    (other : {α : Type} → Rule α → Q α)
    (expression : rel (body call .expression) (body other .expression))
    (calls : ∀ {β : Type} (callee : Rule β), callee.isClosed = true →
      rel (call callee) (other callee))
    {rule : Rule α} (closed : rule.isClosed = true) : rel (body call rule) (body other rule) := by
  cases rule with
  | expression => exact expression
  | operations => cases closed
  | tighter => cases closed
  | operand => cases closed
  | prefixed => cases closed
  | _ =>
    exact congruent.construct (i := ()) rfl (fun callee inner _ => calls callee inner)
      fun _ _ _ callee inner => calls callee inner

end Congruent

/-- All steps are related, also those that look at the operators in force, open operands or call for
operations. -/
structure Uniform (below : ι → ι → Prop) (rel : ι → {α : Type} → P α → Q α → Prop) : Prop extends
    Congruent below @rel where
  look (i : ι) {α : Type} {next : Token.Kind → OperatorTable → P α}
    {following : Token.Kind → OperatorTable → Q α} :
    (∀ kind operators, rel i (next kind operators) (following kind operators)) →
      rel i (Reading.look next) (Reading.look following)
  taken (i : ι) {α : Type} {next : Token.Kind → OperatorTable → Option (P α)}
    {following : Token.Kind → OperatorTable → Option (Q α)} {otherwise : P α} {other : Q α} :
    (∀ operators, next .endOfInput operators = none) →
      (∀ kind operators, Option.Rel (fun inner last => ∀ j, below j i → rel j inner last)
        (next kind operators) (following kind operators)) → rel i otherwise other →
      rel i (Grammar.behind next otherwise) (Grammar.behind following other)
  nested (i : ι) {α : Type} {inner : P α} {last : Q α} : rel i inner last →
    rel i (Reading.nested inner) (Reading.nested last)
  called (i : ι) {α : Type} {inner : P α} {last : Q α} : rel i inner last →
    rel i (Reading.called inner) (Reading.called last)

namespace Uniform

theorem operations (uniform : Uniform below @rel) (minimum : Int32) (left : Expr)
    (later : ∀ j, below j i → ∀ {β : Type} (callee : Rule β), rel j (call callee) (other callee)) :
    rel i (body call (.operations minimum left)) (body other (.operations minimum left)) := by
  refine uniform.taken i (fun _ => rfl) ?_ (uniform.pure i left)
  intro kind operators
  cases kind with
  | symbol symbol =>
    by_cases low : operators.precedence symbol < minimum
    · simp only [low, ↓reduceIte]
      exact .none
    · simp only [low, ↓reduceIte]
      refine .some fun j less => ?_
      exact uniform.bind j (later j less .operand) fun first =>
        uniform.bind j (later j less (.tighter _ first)) fun right =>
          later j less (.operations minimum (.binary symbol left right))
  | _ => exact .none

theorem prefixed (uniform : Uniform below @rel)
    (now : rel i (call .primary) (other .primary))
    (later : ∀ j, below j i → rel j (call .operand) (other .operand)) :
    rel i (body call .prefixed) (body other .prefixed) := by
  refine uniform.taken i (fun _ => rfl) ?_ now
  intro kind _
  cases kind with
  | symbol symbol =>
    by_cases plain : symbol = '(' ∨ symbol = ','
    · simp only [plain, ↓reduceIte]
      exact .none
    · simp only [plain, ↓reduceIte]
      refine .some fun j less => ?_
      exact uniform.bind j (later j less) fun inner => uniform.pure j (Expr.unary symbol inner)
  | _ => exact .none

/-- What a production takes is related if the productions that it calls are, those that it calls
before any token already where it is itself. -/
theorem body (uniform : Uniform below @rel) (rule : Rule α)
    (now : ∀ {β : Type} (callee : Rule β), callee.rank < rule.rank →
      rel i (call callee) (other callee))
    (later : ∀ j, below j i → ∀ {β : Type} (callee : Rule β), rel j (call callee) (other callee)) :
    rel i (body call rule) (body other rule) := by
  cases rule with
  | expression =>
    exact uniform.bind i (now .operand (by decide)) fun left =>
      uniform.called i (now (.operations 0 left) (Nat.zero_lt_succ _))
  | operations minimum left => exact uniform.operations minimum left later
  | tighter precedence right =>
    refine uniform.look i fun kind operators => ?_
    by_cases above : precedence < operators.precedenceOf kind
    · simp only [above, ↓reduceIte]
      exact uniform.called i (now (.operations (precedence + 1) right) (Nat.zero_lt_succ _))
    · simp only [above, ↓reduceIte]
      exact uniform.pure i right
  | operand => exact uniform.nested i (now .prefixed (by decide))
  | prefixed =>
    exact uniform.prefixed (now .primary (by decide)) fun j less => later j less .operand
  | _ =>
    exact uniform.construct rfl (fun callee _ => now callee) fun j less _ callee _ =>
      later j less callee

end Uniform

/-- All steps are related, wherever they stand. -/
structure Compatible (rel : {α : Type} → P α → Q α → Prop) : Prop where
  pure {α : Type} (value : α) : rel (Pure.pure value) (Pure.pure value)
  bind {α β : Type} {first : P α} {other : Q α} {next : α → P β} {following : α → Q β} :
    rel first other → (∀ value, rel (next value) (following value)) →
      rel (first >>= next) (other >>= following)
  take : rel (liftM Session.take) (liftM Session.take)
  expect {kind : Token.Kind} {expectation : String} : kind.isFixed → Text.OneLine expectation →
    rel (liftM (Session.expect kind expectation)) (liftM (Session.expect kind expectation))
  name {expectation : String} : Text.OneLine expectation →
    rel (liftM (Session.expectName expectation)) (liftM (Session.expectName expectation))
  unexpected (α : Type) {expectation : String} : Text.OneLine expectation →
    rel (liftM (Session.unexpected expectation : Parser α))
      (liftM (Session.unexpected expectation : Parser α))
  noExpression (α : Type) :
    rel (liftM (Session.noExpression : Parser α)) (liftM (Session.noExpression : Parser α))
  look {α : Type} {next : Token.Kind → OperatorTable → P α}
    {following : Token.Kind → OperatorTable → Q α} :
    (∀ kind operators, rel (next kind operators) (following kind operators)) →
      rel (Reading.look next) (Reading.look following)
  nested {α : Type} {inner : P α} {last : Q α} : rel inner last →
    rel (Reading.nested inner) (Reading.nested last)
  called {α : Type} {inner : P α} {last : Q α} : rel inner last →
    rel (Reading.called inner) (Reading.called last)

namespace Compatible

variable {rel : {α : Type} → P α → Q α → Prop}

theorem behind (compatible : Compatible @rel) {next : Token.Kind → OperatorTable → Option (P α)}
    {following : Token.Kind → OperatorTable → Option (Q α)} {otherwise : P α} {other : Q α}
    (related : ∀ kind operators, Option.Rel rel (next kind operators) (following kind operators))
    (left : rel otherwise other) : rel (behind next otherwise) (behind following other) := by
  refine compatible.look fun kind operators => ?_
  have both := related kind operators
  generalize next kind operators = choice at both
  generalize following kind operators = reflected at both
  cases both with
  | none => exact left
  | some inside => exact compatible.bind compatible.take fun _ => inside

theorem uniform (compatible : Compatible @rel) : Uniform everywhere fun _ => @rel where
  pure _ := compatible.pure
  bind _ := compatible.bind
  expect _ _ _ _ _ _ fixed wording related :=
    compatible.bind (compatible.expect fixed wording) fun _ => related
  name _ := compatible.name
  unexpected _ := compatible.unexpected
  noExpression _ := compatible.noExpression
  behind _ _ _ _ _ _ _ _ related := by
    simp only [everywhere, forall_const] at related
    exact compatible.behind fun kind _ => related kind
  look _ := compatible.look
  taken _ _ _ _ _ _ _ related := by
    simp only [everywhere, forall_const] at related
    exact compatible.behind related
  nested _ := compatible.nested
  called _ := compatible.called

theorem body (compatible : Compatible @rel) {call : {α : Type} → Rule α → P α}
    {other : {α : Type} → Rule α → Q α}
    (calls : ∀ {β : Type} (callee : Rule β), rel (call callee) (other callee)) (rule : Rule α) :
    rel (body call rule) (body other rule) :=
  compatible.uniform.body (i := ()) rule (fun callee _ => calls callee) fun _ _ _ callee =>
    calls callee

/-- What all productions read is related. -/
theorem read {P Q : Type → Type} [FueledReading P] [FueledReading Q]
    {rel : {α : Type} → P α → Q α → Prop} (compatible : Compatible @rel)
    (starved : ∀ α : Type, rel (FueledReading.starved : P α) (FueledReading.starved : Q α))
    (fuel : Nat) {α : Type} (rule : Rule α) :
    rel (read fuel rule : P α) (read fuel rule : Q α) := by
  induction fuel generalizing α with
  | zero => exact starved α
  | succ fuel ih => exact compatible.body ih rule

end Compatible

end Grammar

end Kaleidoscope
