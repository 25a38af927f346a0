import Kaleidoscope.Proofs.Bookkeeping
import Kaleidoscope.Proofs.Registration
import Kaleidoscope.Proofs.Wording

set_option autoImplicit false

namespace Kaleidoscope

open Text

namespace Text

open Input

/-- Lines as they are written, each with its line feed. -/
def unlines (lines : List String) : String :=
  String.join (lines.map (· ++ "\n"))

theorem unlines_cons (line : String) (lines : List String) :
    unlines (line :: lines) = line ++ "\n" ++ unlines lines := by
  simp [unlines]

/-- The line feeds among bytes. -/
def feeds (bytes : ByteArray) : Nat :=
  bytes.data.toList.count 0x0A

theorem count_feed_utf8EncodeChar (c : Char) :
    (String.utf8EncodeChar c).count 0x0A = [c].count '\n' := by
  by_cases feed : c = '\n'
  · subst feed
    decide
  · have absent : 0x0A ∉ String.utf8EncodeChar c := fun there =>
      feed (feed_mem_utf8EncodeChar.1 there)
    rw [List.count_eq_zero_of_not_mem absent, List.count_singleton, if_neg (by simpa using feed)]

theorem count_feed_encode (text : List Char) : (encode text).count 0x0A = text.count '\n' := by
  induction text with
  | nil => rfl
  | cons c text hypothesis =>
    rw [encode, List.flatMap_cons, List.count_append, count_feed_utf8EncodeChar, ← encode,
      hypothesis, ← List.count_append, List.singleton_append]

/-- A line feed is one byte, and no other character has its byte. -/
theorem feeds_toUTF8 (text : String) : feeds text.toUTF8 = text.toList.count '\n' := by
  have bytes : text.toUTF8 = ⟨(encode text.toList).toArray⟩ := toUTF8_eq_iff.2 rfl
  rw [feeds, bytes, List.toList_toArray, count_feed_encode]

/-- Where no line is broken, there are as many line feeds as lines. -/
theorem feeds_unlines {lines : List String} (single : ∀ line ∈ lines, OneLine line) :
    feeds (unlines lines).toUTF8 = lines.length := by
  rw [feeds_toUTF8]
  induction lines with
  | nil => rfl
  | cons line lines hypothesis =>
    obtain ⟨first, others⟩ := List.forall_mem_cons.1 single
    rw [unlines_cons, String.toList_append, String.toList_append, List.count_append,
      List.count_append, List.count_eq_zero_of_not_mem first, hypothesis others, List.length_cons,
      Nat.zero_add, Nat.add_comm]
    rfl

end Text

namespace Step

/-- The lines that are written about a step. -/
def lines (step : Step) : List String :=
  step.notices.map Notice.line

theorem unlines_flatMap_lines (steps : List Step) :
    unlines (steps.flatMap lines) = Notice.printout (steps.flatMap notices) := by
  have each : steps.flatMap lines = (steps.flatMap notices).map Notice.line :=
    List.map_flatMap.symm
  rw [each, unlines, Notice.printout, List.map_map]
  rfl

/-- Whether a step uses the definition of a binary operator. -/
def definesOperator : Step → Bool
  | accepted (.definition given) => given.prototype.isBinary
  | _ => false

/-- Whether a form could not be read for a failure. -/
def isFault : Step → Bool
  | failed (some _) _ => true
  | _ => false

/-- Whether the input ended in the middle of a form. -/
def isUnfinished : Step → Bool
  | failed none _ => true
  | _ => false

/-- What is written about a step behind which the table is in force: one line about a form that is
used, one more if it defines a binary operator, the two lines of a report, or nothing. The second
line about an operator gives its symbol, and the precedence that the table has for it. -/
inductive Prints (behind : OperatorTable) : Step → List String → Prop where
  | separator : Prints behind .separator []
  | finished : Prints behind .finished []
  | declaration (prototype : Prototype) :
      Prints behind (.accepted (.declaration prototype)) ["Parsed an extern: " ++ prototype.text]
  | expression (wrapped : Definition) :
      Prints behind (.accepted (.expression wrapped))
        ["Parsed a top-level expression: " ++ wrapped.body.text]
  | definition {given : Definition} (plain : given.prototype.isBinary = false) :
      Prints behind (.accepted (.definition given))
        ["Parsed a function definition: " ++ given.text]
  | operator {given : Definition} {symbol : Char} {precedence : Int32}
      (binary : given.prototype.isBinary = true) (declared : given.prototype.symbol? = some symbol)
      (weighted : given.prototype.precedence.toNat = precedence.toInt)
      (entered : behind.get? symbol = some precedence) :
      Prints behind (.accepted (.definition given))
        ["Parsed a function definition: " ++ given.text,
          "Registered operator `" ++ String.singleton symbol ++ "` with precedence " ++
            toString precedence.toInt]
  | failed {failure : Failure} {skipped : Token} {headline place : String}
      (report : failure.report = headline ++ "\n" ++ place) :
      Prints behind (.failed (some failure) skipped) [headline, place]
  | unfinished (skipped : Token) :
      Prints behind (.failed none skipped) ["Error: unexpected end of input"]

end Step

/-- A positive precedence is the same number with a sign and without one. -/
theorem toInt_toInt32_of_pos {precedence : UInt32} (positive : 1 ≤ precedence.toInt32) :
    precedence.toInt32.toInt = precedence.toNat := by
  have low : (1 : Int) ≤ precedence.toInt32.toInt := Int32.le_iff_toInt_le.1 positive
  have small := precedence.toNat_lt
  have whole : precedence.toInt32.toInt = (precedence.toNat : Int).bmod (2 ^ 32) :=
    BitVec.toInt_eq_toNat_bmod _
  rw [whole, Int.bmod_def] at low ⊢
  omega

theorem Printer.registration_binary (symbol : Char) (left right : String) {precedence : UInt32}
    (positive : 1 ≤ precedence.toInt32) :
    registration (.binary symbol [left, right] precedence) =
      "Registered operator `" ++ String.singleton symbol ++ "` with precedence " ++
        toString precedence.toInt32.toInt := by
  have sign : String.ofList (some symbol).toList = String.singleton symbol :=
    String.singleton_eq_ofList.symm
  have same : (Prototype.binary symbol [left, right] precedence).precedence = precedence := rfl
  unfold registration
  rw [Prototype.symbol?_binary, sign, same, toInt_toInt32_of_pos positive]
  rfl

namespace Step

variable {behind : OperatorTable} {given : Definition}

theorem lines_of_plain (plain : (OperatorTable.empty.declare? given.prototype).isSome = false) :
    (accepted (.definition given)).lines = ["Parsed a function definition: " ++ given.text] := by
  simp only [lines, notices, formNotices, plain, Bool.false_eq_true, ↓reduceIte]
  rfl

theorem lines_of_operator
    (declares : (OperatorTable.empty.declare? given.prototype).isSome = true) :
    (accepted (.definition given)).lines = ["Parsed a function definition: " ++ given.text,
      Printer.registration given.prototype] := by
  simp only [lines, notices, formNotices, declares, ↓reduceIte]
  rfl

theorem prints_operator {symbol : Char} {left right : String} {precedence : UInt32} {body : Expr}
    (positive : 1 ≤ precedence.toInt32)
    (entered : behind.get? symbol = some precedence.toInt32) :
    (accepted (.definition ⟨.binary symbol [left, right] precedence, body⟩)).Prints behind
      (accepted (.definition ⟨.binary symbol [left, right] precedence, body⟩)).lines := by
  have symbol? := Prototype.symbol?_binary symbol [left, right] precedence
  have declares : (OperatorTable.empty.declare?
      (.binary symbol [left, right] precedence)).isSome = true := by
    rw [OperatorTable.declare?, symbol?]
    rfl
  rw [lines_of_operator declares, Printer.registration_binary symbol left right positive]
  exact .operator rfl symbol? (toInt_toInt32_of_pos positive).symm entered

/-- About the definition of a binary operator there are two lines, and about any other one. -/
theorem prints_definition {row : List Token.Kind} {prototype : Prototype} {body : Expr}
    (named : Grammar.DerivesPrototype row prototype) (genuine : Token.Kind.AllGenuine row)
    (entered : ∀ operator ∈ prototype.operator?,
      behind.get? operator.symbol = some operator.precedence) :
    (accepted (.definition ⟨prototype, body⟩)).Prints behind
      (accepted (.definition ⟨prototype, body⟩)).lines := by
  have moderate := Grammar.moderate_of_derives named genuine
  cases named with
  | function name distinct =>
    rw [lines_of_plain rfl]
    exact .definition rfl
  | unary symbol parameter =>
    have loose : (Prototype.unary symbol [parameter]).binaryPrecedence? = none := rfl
    rw [lines_of_plain (by simp [OperatorTable.declare?, loose])]
    exact .definition rfl
  | @binary symbol left right distinct =>
    have operator := Prototype.operator?_binary symbol left right Grammar.defaultPrecedence
    exact prints_operator (moderate _ operator).2.1 (entered _ operator)
  | @weighted symbol left right value declarable distinct =>
    have operator := Prototype.operator?_binary symbol left right (UInt32.ofNat value.wholePart)
    exact prints_operator (moderate _ operator).2.1 (entered _ operator)

theorem prints_failed (failure : Failure) (skipped : Token) :
    (failed (some failure) skipped).Prints behind (failed (some failure) skipped).lines := by
  refine .failed ?_
  have joined : ")\n-> " = ")" ++ ("\n" ++ "-> ") := rfl
  simp only [Failure.report, Notice.line, joined, String.append_assoc]

theorem ofSession_ne_rejected (session : Session) (form : Form) (failure : Failure) :
    ofSession session ≠ rejected form failure := by
  have outcome {α : Type} (make : α → Form) (result : Outcome α × Session) :
      ofOutcome make result ≠ rejected form failure := by
    obtain ⟨_ | _ | _, after⟩ := result <;> exact Step.noConfusion
  unfold ofSession
  split
  · exact Step.noConfusion
  · exact Step.noConfusion
  · exact outcome _ _
  · exact outcome _ _
  · exact outcome _ _

end Step

namespace Step

/-- A step calls for one line if a form is used, one more if it defines a binary operator, two if
reading fails, and one if the input ends in a form. -/
theorem Prints.length_eq {behind : OperatorTable} {step : Step} {lines : List String}
    (prints : step.Prints behind lines) :
    lines.length = step.isDeclaration.toNat + step.isExpression.toNat + step.isDefinition.toNat +
      step.definesOperator.toNat + 2 * step.isFault.toNat + step.isUnfinished.toNat := by
  cases prints with
  | definition plain =>
    rw [definesOperator, plain]
    rfl
  | operator binary declared weighted entered =>
    rw [definesOperator, binary]
    rfl
  | _ => rfl

theorem length_flatMap_lines {steps : List Step}
    (prints : ∀ step ∈ steps, ∃ behind, step.Prints behind step.lines) :
    (steps.flatMap Step.lines).length =
      steps.countP isDeclaration + steps.countP isExpression + steps.countP isDefinition +
        steps.countP definesOperator + 2 * steps.countP isFault + steps.countP isUnfinished := by
  induction steps with
  | nil => rfl
  | cons step steps hypothesis =>
    obtain ⟨⟨behind, first⟩, others⟩ := List.forall_mem_cons.1 prints
    simp only [List.flatMap_cons, List.length_append, List.countP_cons, first.length_eq,
      hypothesis others, Bool.toNat, Bool.cond_eq_ite]
    omega

end Step

namespace Toplevel

variable {top : Toplevel Printer}

/-- One step of a printer whose sink never fails. -/
theorem prints_step (free : top.backend.sink.capacity = none)
    (genuine : top.session.tokens.Genuine) :
    top.step.1.Prints top.step.2.session.operators top.step.1.lines := by
  obtain ⟨plan, entered, -⟩ := step_of_unlimited free
  rw [entered]
  cases step : top.step.1 with
  | separator => exact .separator
  | finished => exact .finished
  | accepted form =>
    obtain ⟨session, run⟩ := form_of_step (congrArg Step.form? step)
    obtain ⟨row, known, derived⟩ := Session.exists_genuine_row genuine run
    cases derived with
    | declaration named => exact .declaration _
    | expression only => exact .expression _
    | @definition first second prototype body named inside =>
      simp only [Token.Kind.allGenuine_cons, Token.Kind.allGenuine_append] at known
      refine Step.prints_definition named known.1.2 ?_
      intro operator declared
      have introduced : (Step.accepted (.definition ⟨prototype, body⟩)).introduced? =
          some operator := declared
      rw [introduced]
      exact OperatorTable.get?_define _ _ _
  | rejected form failure =>
    rw [plan] at step
    exact absurd step (Step.ofSession_ne_rejected _ form failure)
  | failed failure skipped =>
    cases failure with
    | none => exact .unfinished skipped
    | some failure => exact Step.prints_failed failure skipped

/-- What a run has written behind the given steps: their lines, in the order of the steps. There is
a line feed for every form that is used, one more for every definition of a binary operator, two
for every failure of reading, and one for input that ends in a form. -/
structure Typeset (steps : List Step) (summary : Summary) (output : ByteArray) : Prop where
  contents : output = (unlines (steps.flatMap Step.lines)).toUTF8
  feeds : feeds output = summary.declarations + summary.expressions + summary.definitions +
    steps.countP Step.definesOperator + 2 * steps.countP Step.isFault +
    steps.countP Step.isUnfinished

theorem typeset_runFor {session : Session} {complaint : String} {prompt : Option String}
    (prints : ∀ index, ∃ behind, (top.runFor index).step.1.Prints behind
      (top.runFor index).step.1.lines)
    (single : ∀ index, ∀ line ∈ (top.runFor index).step.1.lines, OneLine line)
    (begun : top = .start session ⟨⟨.empty, none, complaint⟩⟩ prompt) (count : Nat) :
    Typeset (top.history count) (top.runFor count).summary
      (top.runFor count).backend.sink.contents := by
  have contents : (top.runFor count).backend.sink.contents =
      (unlines ((top.history count).flatMap Step.lines)).toUTF8 := by
    rw [contents_runFor (by rw [begun]; rfl), Step.unlines_flatMap_lines, begun]
    exact ByteArray.empty_append
  have summary : (top.runFor count).summary = .ofSteps (top.history count) := by
    rw [summary_runFor, Summary.sum_tally, begun]
    exact zero_add _
  have steps : ∀ step ∈ top.history count, ∃ behind, step.Prints behind step.lines :=
    List.forall_mem_map.2 fun index _ => prints index
  have lines : ∀ line ∈ (top.history count).flatMap Step.lines, OneLine line := by
    intro line inside
    obtain ⟨step, there, among⟩ := List.mem_flatMap.1 inside
    obtain ⟨index, -, rfl⟩ := List.mem_map.1 there
    exact single index line among
  refine ⟨contents, ?_⟩
  rw [contents, feeds_unlines lines, Step.length_flatMap_lines steps, summary]
  rfl

/-- What the printer writes is structured by lines, for every input, every table, a source whose
name has no line feed, and a sink that never fails. Every step writes the lines that it calls for,
and no name, operator or token text breaks one of them. The output is the lines of the steps in
order, so the steps tell how many line feeds there are. -/
theorem output_is_lines_of_steps (input : Input) (source : Option String)
    (operators : OperatorTable) (complaint : String) (prompt : Option String)
    (named : OneLine (source.getD Lexer.defaultSource)) :
    let top : Toplevel Printer := .start (.start (.ofLexer (.ofInput input source)) operators)
      ⟨⟨.empty, none, complaint⟩⟩ prompt
    (∀ index,
      (top.runFor index).step.1.Prints (top.runFor (index + 1)).session.operators
        (top.runFor index).step.1.lines ∧
      ∀ line ∈ (top.runFor index).step.1.lines, OneLine line) ∧
    (∀ count, Typeset (top.history count) (top.runFor count).summary
      (top.runFor count).backend.sink.contents) ∧
    Typeset top.steps top.run.summary top.run.backend.sink.contents := by
  intro top
  have free : top.backend.sink.capacity = none := rfl
  have sourced : top.session.tokens.Sourced (source.getD Lexer.defaultSource) :=
    .ofLexer input source
  have steps (index : Nat) : (top.runFor index).step.1.Prints
      (top.runFor (index + 1)).session.operators (top.runFor index).step.1.lines ∧
      ∀ line ∈ (top.runFor index).step.1.lines, OneLine line := by
    have here := sourced_of_reachable sourced (reachable_runFor top index)
    rw [session_runFor_succ]
    refine ⟨prints_step (operators_of_runFor free index).2 here.genuine, ?_⟩
    exact List.forall_mem_map.2 (oneLine_of_mem_notices here named)
  have typeset := typeset_runFor (fun index => ⟨_, (steps index).1⟩)
    (fun index => (steps index).2) rfl
  exact ⟨steps, typeset, typeset (top.session.remaining + 1)⟩

/-- An operator is defined, a comma starts no form, and the input ends behind a parenthesis. -/
theorem output_is_lines_of_steps_of_three_lines :
    let input : Input := .ofText "def binary|(x y)x\n,\n(" none
    let top : Toplevel Printer := .start (.start (.ofLexer (.ofInput input (some "a.k"))) .builtin)
      ⟨⟨.empty, none, ""⟩⟩ none
    OneLine "a.k" ∧ Typeset top.steps top.run.summary top.run.backend.sink.contents ∧
      top.run.summary = ⟨1, 0, 0, 0, 2⟩ ∧ feeds top.run.backend.sink.contents = 5 := by
  intro input top
  have named : OneLine "a.k" := by decide
  have typeset : Typeset top.steps top.run.summary top.run.backend.sink.contents :=
    (output_is_lines_of_steps input (some "a.k") .builtin "" none named).2.2
  have summary : top.run.summary = ⟨1, 0, 0, 0, 2⟩ := by decide +kernel
  have operators : top.steps.countP Step.definesOperator = 1 := by decide +kernel
  have faults : top.steps.countP Step.isFault = 1 := by decide +kernel
  have unfinished : top.steps.countP Step.isUnfinished = 1 := by decide +kernel
  refine ⟨named, typeset, summary, ?_⟩
  rw [typeset.feeds, summary, operators, faults, unfinished]
  rfl

end Toplevel

end Kaleidoscope
