import Kaleidoscope.Expr.Basic
import Kaleidoscope.Proofs.Spelling

set_option autoImplicit false

/- An expression is written with every part in parentheses that is more than a number or a name, so
its row of tokens does not depend on precedences. -/

namespace Kaleidoscope

namespace Expr

/-- Whether the expression is more than a number or a name. -/
def isCompound : Expr → Bool
  | number _ => false
  | reference _ => false
  | _ => true

/-- The row in parentheses, if it has to stand in them. -/
def enclose (compound : Bool) (row : List Token.Kind) : List Token.Kind :=
  if compound then .symbol '(' :: row ++ [.symbol ')'] else row

/-- The rows with a comma between each two of them. -/
def listed (rows : List (List Token.Kind)) : List Token.Kind :=
  [Token.Kind.symbol ','].intercalate rows

mutual

/-- The tokens of an expression, with every compound part in parentheses. -/
def written : Expr → List Token.Kind
  | number value => [.number value]
  | reference name => [.identifier name]
  | unary symbol x => .symbol symbol :: enclose x.isCompound x.written
  | binary symbol x y =>
    enclose x.isCompound x.written ++ .symbol symbol :: enclose y.isCompound y.written
  | call callee given => .identifier callee :: .symbol '(' :: listed (writtenAll given) ++
    [.symbol ')']
  | conditional x y z =>
    .keyword .ifWord :: enclose x.isCompound x.written ++
      .keyword .thenWord :: enclose y.isCompound y.written ++
      .keyword .elseWord :: enclose z.isCompound z.written
  | loop counter start stop step body =>
    .keyword .forWord :: .identifier counter :: .symbol '=' ::
      enclose start.isCompound start.written ++
      .symbol ',' :: enclose stop.isCompound stop.written ++ writtenOptional ',' step ++
      .keyword .inWord :: enclose body.isCompound body.written
  | scope bound body =>
    .keyword .varWord :: listed (writtenBindings bound) ++
      .keyword .inWord :: enclose body.isCompound body.written
termination_by structural expression => expression

def writtenAll : List Expr → List (List Token.Kind)
  | [] => []
  | x :: given => enclose x.isCompound x.written :: writtenAll given
termination_by structural given => given

def writtenOptional (mark : Char) : Option Expr → List Token.Kind
  | none => []
  | some x => .symbol mark :: enclose x.isCompound x.written
termination_by structural value => value

def writtenBindings : List (String × Option Expr) → List (List Token.Kind)
  | [] => []
  | (name, initial) :: bound =>
    (.identifier name :: writtenOptional '=' initial) :: writtenBindings bound
termination_by structural bound => bound

end

/-- The expression as a part of another one. -/
def enclosed (expression : Expr) : List Token.Kind :=
  enclose expression.isCompound expression.written

mutual

/-- The operands that are open at a time when the expression is read back. A pair of parentheses
is an operand, and so is all that is not joined by binary operators. -/
def nesting : Expr → Nat
  | number _ => 1
  | reference _ => 1
  | unary _ x => x.nesting + x.isCompound.toNat + 1
  | binary _ x y => max (x.nesting + x.isCompound.toNat) (y.nesting + y.isCompound.toNat)
  | call _ given => nestingAll given + 1
  | conditional x y z =>
    max (x.nesting + x.isCompound.toNat)
      (max (y.nesting + y.isCompound.toNat) (z.nesting + z.isCompound.toNat)) + 1
  | loop _ start stop step body =>
    max (start.nesting + start.isCompound.toNat)
      (max (stop.nesting + stop.isCompound.toNat)
        (max (nestingOptional step) (body.nesting + body.isCompound.toNat))) + 1
  | scope bound body => max (nestingBindings bound) (body.nesting + body.isCompound.toNat) + 1
termination_by structural expression => expression

def nestingAll : List Expr → Nat
  | [] => 0
  | x :: given => max (x.nesting + x.isCompound.toNat) (nestingAll given)
termination_by structural given => given

def nestingOptional : Option Expr → Nat
  | none => 0
  | some x => x.nesting + x.isCompound.toNat
termination_by structural value => value

def nestingBindings : List (String × Option Expr) → Nat
  | [] => 0
  | (_, initial) :: bound => max (nestingOptional initial) (nestingBindings bound)
termination_by structural bound => bound

end

/-- The operands that are open at a time inside the expression as a part of another one. -/
def enclosedNesting (expression : Expr) : Nat :=
  expression.nesting + expression.isCompound.toNat

mutual

/-- Whether the expression can be written: its names are names, its unary operators are symbols
that no operand starts with, `operator` holds of its binary ones, and it binds a name wherever it
binds names. -/
def Writable (operator : Char → Prop) : Expr → Prop
  | number _ => True
  | reference name => Text.isName name = true
  | unary symbol x =>
    (Text.isSymbol symbol = true ∧ symbol ≠ '(' ∧ symbol ≠ ',') ∧ x.Writable operator
  | binary symbol x y => operator symbol ∧ x.Writable operator ∧ y.Writable operator
  | call callee given => Text.isName callee = true ∧ WritableAll operator given
  | conditional x y z => x.Writable operator ∧ y.Writable operator ∧ z.Writable operator
  | loop counter start stop step body =>
    Text.isName counter = true ∧ start.Writable operator ∧ stop.Writable operator ∧
      WritableOptional operator step ∧ body.Writable operator
  | scope bound body => bound ≠ [] ∧ WritableBindings operator bound ∧ body.Writable operator
termination_by structural expression => expression

def WritableAll (operator : Char → Prop) : List Expr → Prop
  | [] => True
  | x :: given => x.Writable operator ∧ WritableAll operator given
termination_by structural given => given

def WritableOptional (operator : Char → Prop) : Option Expr → Prop
  | none => True
  | some x => x.Writable operator
termination_by structural value => value

def WritableBindings (operator : Char → Prop) : List (String × Option Expr) → Prop
  | [] => True
  | (name, initial) :: bound =>
    Text.isName name = true ∧ WritableOptional operator initial ∧ WritableBindings operator bound
termination_by structural bound => bound

end

@[simp]
theorem listed_singleton (row : List Token.Kind) : listed [row] = row := by
  simp [listed]

theorem listed_cons_cons (row next : List Token.Kind) (rows : List (List Token.Kind)) :
    listed (row :: next :: rows) = row ++ .symbol ',' :: listed (next :: rows) := by
  rw [listed, List.intercalate_cons_cons, listed]
  simp

/-- No part of an expression starts with a closing parenthesis. -/
theorem exists_enclosed_eq_cons (e : Expr) :
    ∃ kind row, e.enclosed = kind :: row ∧ kind ≠ .symbol ')' := by
  cases e <;> exact ⟨_, _, rfl, by simp⟩

theorem exists_listed_eq_append (row : List Token.Kind) (rows : List (List Token.Kind)) :
    ∃ more, listed (row :: rows) = row ++ more := by
  cases rows with
  | nil => exact ⟨[], by simp⟩
  | cons next rows => exact ⟨_, listed_cons_cons row next rows⟩

theorem exists_arguments_eq_cons (x : Expr) (given : List Expr) :
    ∃ kind row, listed (writtenAll (x :: given)) = kind :: row ∧ kind ≠ .symbol ')' := by
  obtain ⟨kind, row, start, differs⟩ := x.exists_enclosed_eq_cons
  obtain ⟨more, shape⟩ := exists_listed_eq_append x.enclosed (writtenAll given)
  refine ⟨kind, row ++ more, ?_, differs⟩
  calc
    listed (writtenAll (x :: given)) = listed (x.enclosed :: writtenAll given) := rfl
    _ = x.enclosed ++ more := shape
    _ = kind :: (row ++ more) := by rw [start, List.cons_append]

section Induction

variable {motive : Expr → Prop}
  (number : ∀ value, motive (.number value))
  (reference : ∀ name, motive (.reference name))
  (unary : ∀ symbol x, motive x → motive (.unary symbol x))
  (binary : ∀ symbol x y, motive x → motive y → motive (.binary symbol x y))
  (call : ∀ callee given, (∀ x ∈ given, motive x) → motive (.call callee given))
  (conditional : ∀ x y z, motive x → motive y → motive z → motive (.conditional x y z))
  (loop : ∀ counter start stop step body, motive start → motive stop → (∀ x ∈ step, motive x) →
    motive body → motive (.loop counter start stop step body))
  (scope : ∀ bound body, (∀ binding ∈ bound, ∀ x ∈ binding.2, motive x) → motive body →
    motive (.scope bound body))

include number reference unary binary call conditional loop scope

/-- Induction over expressions, with the hypothesis for every part of a list or a binding. -/
theorem parts_induction (expression : Expr) : motive expression := by
  apply @Expr.rec motive (fun given => ∀ x ∈ given, motive x) (fun value => ∀ x ∈ value, motive x)
    (fun bound => ∀ binding ∈ bound, ∀ x ∈ binding.2, motive x)
    (fun binding => ∀ x ∈ binding.2, motive x)
    number reference unary binary call conditional loop scope
  · exact fun x inside => absurd inside List.not_mem_nil
  · exact fun x given first others => List.forall_mem_cons.2 ⟨first, others⟩
  · exact fun x inside => nomatch inside
  · rintro x holds _ ⟨⟩
    exact holds
  · exact fun binding inside => absurd inside List.not_mem_nil
  · exact fun binding bound first others => List.forall_mem_cons.2 ⟨first, others⟩
  · exact fun name initial holds => holds

end Induction

variable {operator : Char → Prop}

theorem enclose_written_ne_nil (e : Expr) (outer : Bool) : enclose outer e.written ≠ [] := by
  cases outer with
  | false => cases e <;> simp [enclose, written]
  | true => simp [enclose]

theorem writable_of_mem {given : List Expr} (writable : WritableAll operator given) :
    ∀ x ∈ given, x.Writable operator := by
  induction given with
  | nil => simp
  | cons x given hypothesis => exact List.forall_mem_cons.2 ⟨writable.1, hypothesis writable.2⟩

theorem writable_of_mem_optional {value : Option Expr}
    (writable : WritableOptional operator value) : ∀ x ∈ value, x.Writable operator := by
  cases value with
  | none => simp
  | some x =>
    rintro _ ⟨⟩
    exact writable

theorem writable_of_mem_bindings {bound : List (String × Option Expr)}
    (writable : WritableBindings operator bound) :
    ∀ binding ∈ bound, ∀ x ∈ binding.2, x.Writable operator := by
  induction bound with
  | nil => simp
  | cons binding bound hypothesis =>
    exact List.forall_mem_cons.2
      ⟨writable_of_mem_optional writable.2.1, hypothesis writable.2.2⟩

theorem lexable_punctuation {symbol : Char} (listed : symbol ∈ ['(', ')', ',', '=']) :
    (Token.Kind.symbol symbol).Lexable := by
  simp only [List.mem_cons, List.not_mem_nil, or_false] at listed
  rcases listed with rfl | rfl | rfl | rfl <;> exact show Text.isSymbol _ = true by decide

theorem allLexable_enclose (compound : Bool) {row : List Token.Kind}
    (lexable : Token.Kind.AllLexable row) : Token.Kind.AllLexable (enclose compound row) := by
  cases compound with
  | false => exact lexable
  | true => simp [enclose, lexable, lexable_punctuation]

theorem allLexable_listed {rows : List (List Token.Kind)}
    (lexable : ∀ row ∈ rows, Token.Kind.AllLexable row) :
    Token.Kind.AllLexable (listed rows) := by
  induction rows with
  | nil => simp [listed]
  | cons row rows hypothesis =>
    rw [List.forall_mem_cons] at lexable
    cases rows with
    | nil => simpa using lexable.1
    | cons next rows =>
      simp [listed_cons_cons, lexable.1, lexable_punctuation, hypothesis lexable.2]

theorem allLexable_writtenAll {given : List Expr}
    (lexable : ∀ x ∈ given, Token.Kind.AllLexable x.written) :
    ∀ row ∈ writtenAll given, Token.Kind.AllLexable row := by
  induction given with
  | nil => simp [writtenAll]
  | cons x given hypothesis =>
    rw [List.forall_mem_cons] at lexable
    rw [writtenAll, List.forall_mem_cons]
    exact ⟨allLexable_enclose _ lexable.1, hypothesis lexable.2⟩

theorem allLexable_writtenOptional {mark : Char} {value : Option Expr}
    (punctuation : mark ∈ [',', '='])
    (lexable : ∀ x ∈ value, Token.Kind.AllLexable x.written) :
    Token.Kind.AllLexable (writtenOptional mark value) := by
  cases value with
  | none => simp [writtenOptional]
  | some x =>
    have announced : (Token.Kind.symbol mark).Lexable :=
      lexable_punctuation (List.mem_cons_of_mem _ (List.mem_cons_of_mem _ punctuation))
    rw [writtenOptional, Token.Kind.allLexable_cons]
    exact ⟨announced, allLexable_enclose _ (lexable x rfl)⟩

theorem allLexable_writtenBindings {bound : List (String × Option Expr)}
    (writable : WritableBindings operator bound)
    (lexable : ∀ binding ∈ bound, ∀ x ∈ binding.2, Token.Kind.AllLexable x.written) :
    ∀ row ∈ writtenBindings bound, Token.Kind.AllLexable row := by
  induction bound with
  | nil => simp [writtenBindings]
  | cons binding bound hypothesis =>
    obtain ⟨name, initial⟩ := binding
    rw [List.forall_mem_cons] at lexable
    rw [writtenBindings, List.forall_mem_cons, Token.Kind.allLexable_cons]
    have named : (Token.Kind.identifier name).Lexable := writable.1
    exact ⟨⟨named, allLexable_writtenOptional (by simp) lexable.1⟩,
      hypothesis writable.2.2 lexable.2⟩

/-- Every token of an expression that can be written is one that the lexer can give. -/
theorem allLexable_written (symbols : ∀ symbol, operator symbol → Text.isSymbol symbol = true)
    (e : Expr) (writable : e.Writable operator) : Token.Kind.AllLexable e.written := by
  induction e using parts_induction with
  | number value => simp [written]
  | reference name =>
    have named : (Token.Kind.identifier name).Lexable := writable
    simp [written, named]
  | unary symbol x hypothesis =>
    have sign : (Token.Kind.symbol symbol).Lexable := writable.1.1
    simp [written, sign, allLexable_enclose, hypothesis writable.2]
  | binary symbol x y left right =>
    have sign : (Token.Kind.symbol symbol).Lexable := symbols symbol writable.1
    simp [written, sign, allLexable_enclose, left writable.2.1, right writable.2.2]
  | call callee given hypothesis =>
    have named : (Token.Kind.identifier callee).Lexable := writable.1
    have parts : Token.Kind.AllLexable (listed (writtenAll given)) :=
      allLexable_listed (allLexable_writtenAll fun x inside =>
        hypothesis x inside (writable_of_mem writable.2 x inside))
    simp [written, named, parts, lexable_punctuation]
  | conditional x y z condition consequent alternative =>
    simp [written, allLexable_enclose, condition writable.1, consequent writable.2.1,
      alternative writable.2.2]
  | loop counter start stop step body first last stride inner =>
    have named : (Token.Kind.identifier counter).Lexable := writable.1
    have part : Token.Kind.AllLexable (writtenOptional ',' step) :=
      allLexable_writtenOptional (by simp) fun x inside =>
        stride x inside (writable_of_mem_optional writable.2.2.2.1 x inside)
    simp [written, named, part, lexable_punctuation, allLexable_enclose, first writable.2.1,
      last writable.2.2.1, inner writable.2.2.2.2]
  | scope bound body hypothesis inner =>
    have parts : Token.Kind.AllLexable (listed (writtenBindings bound)) :=
      allLexable_listed (allLexable_writtenBindings writable.2.1 fun binding inside x part =>
        hypothesis binding inside x part
          (writable_of_mem_bindings writable.2.1 binding inside x part))
    simp [written, parts, allLexable_enclose, inner writable.2.2]

end Expr

end Kaleidoscope
