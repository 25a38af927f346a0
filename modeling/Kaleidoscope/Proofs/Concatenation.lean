import Kaleidoscope.Proofs.Lockstep
import Kaleidoscope.Proofs.Scanner

set_option autoImplicit false

/- No token and no comment goes across a line feed, and the last form of the first program ends at
the semicolon as it does at the end of the input. -/

namespace Kaleidoscope

namespace Text

/-- What the tokens of a text are, without their places and without the end. -/
def kinds : List Char → List Token.Kind
  | [] => []
  | c :: rest =>
    if isBlank c then kinds rest
    else if c = '#' then kinds (rest.dropWhile (· != '\n'))
    else if c.isAlpha then
      .ofWord (String.ofList (c :: rest.takeWhile Char.isAlphanum)) ::
        kinds (rest.dropWhile Char.isAlphanum)
    else if isNumeral c then
      .number (.ofNumeral (c :: rest.takeWhile isNumeral)) :: kinds (rest.dropWhile isNumeral)
    else .symbol c :: kinds rest
termination_by text => text.length
decreasing_by all_goals grind [List.dropWhile_sublist, List.Sublist.length_le]

theorem map_kind_scan (before text : List Char) :
    (Lexeme.scan before text).map Lexeme.kind = kinds text ++ [.endOfInput] := by
  fun_induction Lexeme.scan before text with
  | case1 before => rw [kinds]; rfl
  | case2 before c rest blank hypothesis => rw [hypothesis, kinds, if_pos blank]
  | case3 before rest solid comment hypothesis =>
    rw [hypothesis, kinds, if_neg solid, if_pos rfl]
  | case4 before c rest solid sign letter word hypothesis =>
    rw [List.map_cons, hypothesis, kinds, if_neg solid, if_neg sign, if_pos letter]
    rfl
  | case5 before c rest solid sign letter first numeral hypothesis =>
    rw [List.map_cons, hypothesis, kinds, if_neg solid, if_neg sign, if_neg letter, if_pos first]
    rfl
  | case6 before c rest solid sign letter numeral hypothesis =>
    rw [List.map_cons, hypothesis, kinds, if_neg solid, if_neg sign, if_neg letter, if_neg numeral]
    rfl

/-- A line feed parts two texts: no token and no comment goes across it. -/
theorem kinds_append_feed (first second : List Char) :
    kinds (first ++ '\n' :: second) = kinds first ++ kinds second := by
  fun_induction kinds first with
  | case1 => rw [List.nil_append, kinds, if_pos (by decide), List.nil_append]
  | case2 c rest blank hypothesis => rw [List.cons_append, kinds, if_pos blank, hypothesis]
  | case3 rest solid hypothesis =>
    rw [List.cons_append, kinds, if_neg solid, if_pos rfl, dropWhile_append_cons (by decide),
      hypothesis]
  | case4 c rest solid sign letter hypothesis =>
    rw [List.cons_append, kinds, if_neg solid, if_neg sign, if_pos letter,
      takeWhile_append_cons (by decide), dropWhile_append_cons (by decide), hypothesis,
      List.cons_append]
  | case5 c rest solid sign letter first hypothesis =>
    rw [List.cons_append, kinds, if_neg solid, if_neg sign, if_neg letter, if_pos first,
      takeWhile_append_cons (by decide), dropWhile_append_cons (by decide), hypothesis,
      List.cons_append]
  | case6 c rest solid sign letter numeral hypothesis =>
    rw [List.cons_append, kinds, if_neg solid, if_neg sign, if_neg letter, if_neg numeral,
      hypothesis, List.cons_append]

theorem kinds_of_isSymbol {c : Char} (single : isSymbol c = true) (rest : List Char) :
    kinds (c :: rest) = .symbol c :: kinds rest := by
  rw [kinds]
  simp_all [isSymbol]

end Text

/-- The tokens that the lexer gives for a text are of these kinds, however many lines it has. -/
theorem TokenStream.kinds_ofText (text : String) (source : Option String) :
    (ofLexer (.ofInput (.ofText text none) source)).ahead.map Token.kind =
      Text.kinds text.toList := by
  obtain ⟨lined, whole⟩ := Input.lined_ofText text
  have same := Input.kinds_of_lined source lined
  rw [whole, Text.map_kind_scan] at same
  simp only [Input.tokens, toList, List.map_append, List.map_singleton] at same
  exact List.append_cancel_right same

/-- A semicolon that is no operator ends every form before it. -/
theorem Tolerance.before_semicolon_closes {operators : OperatorTable}
    (loose : ¬ 0 < operators.precedence ';') (rest : List Token.Kind) :
    (before (.symbol ';' :: rest)).Closes operators where
  looser symbol shown := by
    cases shown
    exact OperatorTable.precedence_neg loose
  plain symbol shown := by
    cases shown
    decide

namespace Toplevel

/-- A symbol that no step of a run introduces keeps its precedence. -/
theorem precedence_of_steps {top : Toplevel Printer} {symbol : Char}
    (free : top.backend.sink.capacity = none) (regular : top.session.tokens.Regular)
    (unlike : ∀ operator ∈ top.steps.filterMap Step.introduced?, operator.symbol ≠ symbol)
    (index : Nat) :
    (top.runFor index).session.operators.precedence symbol =
      top.session.operators.precedence symbol := by
  rw [(operators_of_runFor free index).1]
  apply OperatorTable.precedence_defineAll
  intro operator entered
  obtain ⟨step, inside, introduced⟩ := List.mem_filterMap.1 entered
  obtain ⟨earlier, -, rfl⟩ := List.mem_map.1 inside
  exact unlike operator (List.mem_filterMap.2 ⟨_, mem_steps regular earlier, introduced⟩)

variable {start next whole : Toplevel Printer}

/-- The steps of a run over the tokens of one input, a semicolon and the tokens of another are those
of the run over the first, one that passes over the semicolon, and those of the run over the
second, which starts with the operators that the first leaves. -/
theorem history_of_joined (freeStart : start.backend.sink.capacity = none)
    (freeNext : next.backend.sink.capacity = none)
    (freeWhole : whole.backend.sink.capacity = none)
    (regular : start.session.tokens.Regular) (further : next.session.tokens.Regular)
    (extended : start.session.ExtendedBy
      (.symbol ';' :: next.session.tokens.ahead.map Token.kind) whole.session)
    (follows : next.session = start.run.session.upon next.session.tokens)
    (loose : ∀ index, ¬ 0 < (start.runFor index).session.operators.precedence ';')
    (visible : ∀ index failure skipped, (start.runFor index).step.1 = .failed failure skipped →
      skipped.kind ≠ .endOfInput) :
    ∃ count ≤ start.session.remaining, ∃ more ≤ next.session.remaining,
      (start.runFor count).step.1 = .finished ∧ (next.runFor more).step.1 = .finished ∧
      (whole.runFor (count + 1 + more)).step.1 = .finished ∧
      List.Forall₂ Step.Alike (start.history count ++ .separator :: next.history more)
        (whole.history (count + 1 + more)) ∧
      (next.runFor more).session.ExtendedBy [] (whole.runFor (count + 1 + more)).session := by
  obtain ⟨count, bound, last, earlier⟩ := exists_finished regular
  obtain ⟨alike, reached⟩ := history_of_extendedBy freeStart freeWhole extended (by simp) count
    (fun index => Tolerance.before_semicolon_closes (loose index) _)
    (fun index failure skipped failed ended => absurd ended (visible index failure skipped failed))
    earlier
  -- The first input is used up, so the semicolon is current and is passed over.
  have none : (start.runFor count).session.tokens.ahead = [] :=
    (regular_of_reachable regular (start.reachable_runFor count)).ahead_of_ended
      (finished_iff.1 last)
  have passed := step_of_separator (reached.kind_current_of_ended none)
  have moved : (whole.runFor (count + 1)).session = (whole.runFor count).session.advance := by
    rw [session_runFor_succ, passed]
  have ending : start.run = start.runFor count := run_of_finished last (by omega)
  have again : next.session.ExtendedBy [] (whole.runFor (count + 1)).session := by
    constructor
    · rw [follows, ending, moved, reached.same]
      rfl
    · rw [moved, Session.advance_ahead, List.map_tail, reached.ahead, none]
      simp
  obtain ⟨more, limit, final, before⟩ := exists_finished further
  obtain ⟨similar, still⟩ := history_of_extendedBy freeNext
    (operators_of_runFor freeWhole (count + 1)).2 again (by simp) more
    (fun index => Tolerance.before_nil_closes _) (fun _ _ _ _ _ => rfl) before
  rw [← runFor_add] at still
  have ended : (whole.runFor (count + 1 + more)).step.1 = .finished := by
    rw [finished_iff, still.kind_current fun _ => rfl]
    exact finished_iff.1 final
  refine ⟨count, bound, more, limit, last, final, ended, ?_, still⟩
  rw [history_add, history_succ, passed, List.append_assoc]
  exact List.rel_append alike (.cons .separator similar)

/-- What surrounds a text: the name of its source, what the printer's sink holds and says, and the
prompt. -/
structure Surroundings where
  source : Option String
  contents : ByteArray
  complaint : String
  prompt : Option String

/-- The printer before the first step on a text. Its sink never fails. -/
def onText (text : String) (operators : OperatorTable) (around : Surroundings) :
    Toplevel Printer :=
  .start (.start (.ofLexer (.ofInput (.ofText text none) around.source)) operators)
    ⟨⟨around.contents, none, around.complaint⟩⟩ around.prompt

/-- The tokens of a text behind another one, with a line feed and a semicolon between them. -/
theorem extendedBy_onText (first second : String) (operators table : OperatorTable)
    (one two both : Surroundings) :
    (onText first operators one).session.ExtendedBy
      (.symbol ';' :: (onText second table two).session.tokens.ahead.map Token.kind)
      (onText (first ++ "\n;" ++ second) operators both).session := by
  have split : (first ++ "\n;" ++ second).toList =
      first.toList ++ '\n' :: ';' :: second.toList := by simp
  constructor
  · rfl
  · show (TokenStream.ofLexer _).ahead.map Token.kind =
      (TokenStream.ofLexer _).ahead.map Token.kind ++
        .symbol ';' :: (TokenStream.ofLexer _).ahead.map Token.kind
    rw [TokenStream.kinds_ofText, TokenStream.kinds_ofText, TokenStream.kinds_ofText, split,
      Text.kinds_append_feed, Text.kinds_of_isSymbol (by decide)]

/-- A program, a line feed, a semicolon and a second program: the printer is handed the forms of the
first and then those of the second as read with the operators that the first leaves, the operators
at the end are those of the second, and the summaries add up. Forms that cannot be read may stand in
both. In the first none may be left unfinished at its end, and there the semicolon must not be an
operator. -/
theorem run_of_concatenation (first second : String) (operators : OperatorTable)
    (one two both : Surroundings)
    (visible : ∀ failure skipped, .failed failure skipped ∈ (onText first operators one).steps →
      skipped.kind ≠ .endOfInput)
    (loose : ¬ 0 < operators.precedence ';')
    (unlike : ∀ operator ∈ (onText first operators one).steps.filterMap Step.introduced?,
      operator.symbol ≠ ';') :
    let start := onText first operators one
    let next := onText second start.run.session.operators two
    let whole := onText (first ++ "\n;" ++ second) operators both
    whole.forms = start.forms ++ next.forms ∧
      whole.run.session.operators = next.run.session.operators ∧
      whole.run.summary = start.run.summary + next.run.summary := by
  intro start next whole
  have extended : start.session.ExtendedBy
      (.symbol ';' :: next.session.tokens.ahead.map Token.kind) whole.session :=
    extendedBy_onText first second operators _ one two both
  have fresh : start.run.session.Fresh :=
    fresh_of_reachable ⟨rfl, rfl⟩ (start.reachable_runFor _)
  have follows : next.session = start.run.session.upon next.session.tokens := by
    rw [fresh.eq_start]
    rfl
  have regular : start.session.tokens.Regular := TokenStream.regular_ofLexer _
  have level : ∀ index, ¬ 0 < (start.runFor index).session.operators.precedence ';' := by
    intro index
    rw [precedence_of_steps rfl regular unlike]
    exact loose
  obtain ⟨count, bound, more, limit, last, final, ended, alike, still⟩ :=
    history_of_joined rfl rfl rfl regular (TokenStream.regular_ofLexer _) extended follows level
      fun index failure skipped failed => visible failure skipped (failed ▸ mem_steps regular index)
  have size : whole.session.remaining = start.session.remaining + 1 + next.session.remaining := by
    have length := congrArg List.length extended.ahead
    simp only [List.length_map, List.length_append, List.length_cons] at length
    simp only [Session.remaining]
    omega
  have enough : count + 1 + more ≤ whole.session.remaining + 1 := by omega
  refine ⟨?_, ?_, ?_⟩
  · rw [forms_of_finished ended enough, ← Step.Alike.forms_eq alike,
      forms_of_finished last (by omega), forms_of_finished final (by omega),
      List.filterMap_append, List.filterMap_cons]
    rfl
  · rw [run_of_finished ended enough, run_of_finished final (by omega), still.same]
    rfl
  · rw [run_of_finished ended enough, run_of_finished last (by omega),
      run_of_finished final (by omega), summary_runFor, summary_runFor, summary_runFor,
      ← Step.Alike.tallies_eq alike, List.map_append, List.map_cons, List.sum_append,
      List.sum_cons]
    show 0 + (_ + (0 + _)) = 0 + _ + (0 + _)
    simp only [zero_add]

theorem run_of_concatenation_of_operator :
    let around : Surroundings := ⟨none, .empty, "", none⟩
    let start := onText "def binary|(a b)a," .builtin around
    let next := onText "x|y" start.run.session.operators around
    let whole := onText ("def binary|(a b)a," ++ "\n;" ++ "x|y") .builtin around
    whole.forms = [.definition ⟨.binary '|' ["a", "b"] 30, .reference "a"⟩,
        .expression (.ofExpression (.binary '|' (.reference "x") (.reference "y")))] ∧
      whole.run.session.operators = next.run.session.operators ∧
      whole.run.summary = ⟨1, 0, 1, 0, 1⟩ := by
  intro around start next whole
  let token (column : UInt32) (width : UInt32) (kind : Token.Kind) : Token :=
    ⟨kind, ⟨⟨"shell", 1, column⟩, ⟨"shell", 1, column + width⟩⟩⟩
  have tokens : TokenStream.ofLexer (.ofInput (.ofText "def binary|(a b)a," none) none) =
      ⟨[token 1 3 (.keyword .defWord), token 5 6 (.keyword .binaryWord), token 11 1 (.symbol '|'),
        token 12 1 (.symbol '('), token 13 1 (.identifier "a"), token 15 1 (.identifier "b"),
        token 16 1 (.symbol ')'), token 17 1 (.identifier "a"), token 18 1 (.symbol ',')],
        ⟨"shell", 1, 19⟩, none⟩ := by decide +kernel
  have others : TokenStream.ofLexer (.ofInput (.ofText "x|y" none) none) =
      ⟨[token 1 1 (.identifier "x"), token 2 1 (.symbol '|'), token 3 1 (.identifier "y")],
        ⟨"shell", 1, 4⟩, none⟩ := by decide +kernel
  have steps : start.history 2 = [
      .accepted (.definition ⟨.binary '|' ["a", "b"] 30, .reference "a"⟩),
      .failed (some ⟨.noExpression ",", ⟨"shell", 1, 18⟩⟩) (token 18 1 (.symbol ','))] := by
    show (Toplevel.start (.start (TokenStream.ofLexer _) _) _ _).history 2 = _
    rw [tokens]
    rfl
  have last : (start.runFor 2).step.1 = .finished := by
    rw [finished_iff]
    decide +kernel
  have size : start.session.remaining = 9 := by
    show (TokenStream.ofLexer _).ahead.length = 9
    rw [tokens]
    rfl
  have ending := run_of_finished last (by omega)
  have table : start.run.session.operators = OperatorTable.builtin.define '|' 30 := by
    rw [ending, (operators_of_runFor rfl 2).1, steps]
    rfl
  have further : next.history 1 = [.accepted (.expression
      (.ofExpression (.binary '|' (.reference "x") (.reference "y"))))] := by
    show (Toplevel.start (.start (TokenStream.ofLexer _) start.run.session.operators) _ _).history
      1 = _
    rw [others, table]
    rfl
  have final : (next.runFor 1).step.1 = .finished := by
    rw [finished_iff]
    decide +kernel
  obtain ⟨rest, taken⟩ := steps_of_finished last (by omega)
  have visible : ∀ failure skipped, .failed failure skipped ∈ start.steps →
      skipped.kind ≠ .endOfInput := by
    intro failure skipped inside
    rw [taken, steps] at inside
    obtain ⟨-, rfl⟩ : failure = _ ∧ skipped = token 18 1 (.symbol ',') := by simpa using inside
    decide
  have unlike : ∀ operator ∈ start.steps.filterMap Step.introduced?, operator.symbol ≠ ';' := by
    rw [taken, steps, List.filterMap_append, List.filterMap_replicate_of_none rfl]
    decide
  obtain ⟨forms, operators, summary⟩ := run_of_concatenation "def binary|(a b)a," "x|y" .builtin
    around around around visible (by decide) unlike
  refine ⟨forms.trans ?_, operators, summary.trans ?_⟩
  · rw [forms_of_finished last (by omega), forms_of_finished final (by omega), steps, further]
    rfl
  · have first : start.run.summary = ⟨1, 0, 0, 0, 1⟩ := by
      rw [ending, summary_runFor, steps]
      rfl
    have second : next.run.summary = ⟨0, 0, 1, 0, 0⟩ := by
      rw [run_of_finished final (by omega), summary_runFor, further]
      rfl
    exact congrArg₂ (· + ·) first second

end Toplevel

end Kaleidoscope
