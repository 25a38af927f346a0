import Kaleidoscope.Proofs.Heeding
import Kaleidoscope.Proofs.Independence
import Kaleidoscope.Proofs.Partition

set_option autoImplicit false

/- The failure of a count of parameters stands at the first token of the prototype and not at the
last one, so a prototype is read as its `signature`, token by token, and counted at the end. -/

namespace Kaleidoscope

open BoundedParser hiding pure bind

theorem Outcome.Alike.eq {α : Type} {outcome result : Outcome α}
    (alike : outcome.Alike .exact result) : result = outcome := by
  cases alike with
  | parsed value => rfl
  | incomplete => rfl
  | failed fault related =>
    cases related
    rfl

/-- On the same row with the same token behind it, a step does the same. -/
theorem BoundedParser.Repeats.exists_row {α : Type} {step : BoundedParser α}
    {session after : Session} {outcome : Outcome α} (repeats : step.Repeats .exact session)
    (run : step session = some (outcome, after)) :
    ∃ row, session = after.prepend row ∧ ∀ behind : TokenStream, behind.current = after.current →
      step ((after.upon behind).prepend row) = some (outcome, after.upon behind) := by
  obtain ⟨row, same, again⟩ := repeats outcome after run
  refine ⟨row, same, ?_⟩
  intro behind last
  have alike : List.Forall₂ (Token.Alike .exact) row row :=
    List.forall₂_same.2 fun token _ => ⟨rfl, rfl⟩
  have bears : outcome.Bears .exact after.current behind.current := by
    rw [last]
    exact .alike ⟨rfl, rfl⟩
  obtain ⟨result, repeated, like⟩ := again row behind alike bears
  rw [like.eq] at repeated
  exact repeated

namespace Session

theorem parameters_eq (taken : List String) (session : Session) :
    parameters taken session =
      match session.current.kind with
      | .identifier name =>
        if name ∈ taken then (.failed (session.failure (.repeatedParameter name)), session)
        else parameters (taken ++ [name]) session.advance
      | _ => (.parsed taken, session) := by
  unfold parameters
  cases left : session.remaining with
  | zero =>
    have ended : session.current.kind = .endOfInput := by
      by_contra more
      have moved := remaining_advance more
      omega
    simp only [Grammar.parameters, ended]
    rfl
  | succ count =>
    cases kind : session.current.kind with
    | identifier name =>
      have moved := remaining_advance (more_of_kind kind (by simp))
      have rest : session.advance.remaining = count := by omega
      simp only [Grammar.parameters, kind, rest]
    | _ => simp only [Grammar.parameters, kind]

end Session

namespace Grammar

variable {tolerance : Tolerance} {operators : OperatorTable}

theorem heeds_operatorSymbol : (lift operatorSymbol).Heeds tolerance operators := by
  intro session level
  cases kind : session.current.kind with
  | symbol symbol =>
    refine (heeds_pure symbol session.advance level).behind kind (by simp) fun front _ same => ?_
    simp only [lift, operatorSymbol, same]
    rfl
  | endOfInput =>
    refine .halt kind fun front same => ?_
    simp [lift, operatorSymbol, same]
  | _ =>
    have concerns : (Fault.noSymbol session.current.text).Concerns session.current.kind :=
      ⟨by simp [kind], rfl⟩
    refine .refuse concerns fun front same => ?_
    simp only [lift, operatorSymbol, same, kind, Token.text]

theorem heeds_operatorPrecedence : (lift operatorPrecedence).Heeds tolerance operators := by
  intro session level
  cases kind : session.current.kind with
  | number value =>
    by_cases declarable : isDeclarable value
    · refine (heeds_pure (UInt32.ofNat value.wholePart) session.advance level).behind kind
        (by simp) fun front _ same => ?_
      simp only [lift, operatorPrecedence, same, declarable, ↓reduceIte]
      rfl
    · have concerns : (Fault.precedenceOutOfRange value).Concerns session.current.kind := kind
      refine .refuse concerns fun front same => ?_
      simp only [lift, operatorPrecedence, same, kind, declarable, Bool.false_eq_true, ↓reduceIte]
  | _ =>
    apply HeedsAt.stay defaultPrecedence
    rintro front _ (same | ⟨-, symbol, shown, -⟩)
    · simp only [lift, operatorPrecedence, same, kind]
    · simp only [lift, operatorPrecedence, shown]

theorem heeds_heading : (lift heading).Heeds tolerance operators := by
  intro session level
  cases kind : session.current.kind with
  | identifier name =>
    refine (heeds_pure (.function name) session.advance level).behind kind (by simp)
      fun front _ same => ?_
    simp only [lift, heading, same]
    rfl
  | keyword word =>
    cases word with
    | unaryWord =>
      have continued : (lift (do
          let symbol ← operatorSymbol
          pure (.unary symbol) : Parser Heading)).Heeds tolerance operators := by
        rw [lift_bind]
        exact heeds_operatorSymbol.bind fun symbol => heeds_pure _
      refine (continued session.advance level).behind kind (by simp) fun front _ same => ?_
      simp only [lift, heading, same]
    | binaryWord =>
      have continued : (lift (do
          let symbol ← operatorSymbol
          let precedence ← operatorPrecedence
          pure (.binary symbol precedence) : Parser Heading)).Heeds tolerance operators := by
        simp only [lift_bind]
        exact heeds_operatorSymbol.bind fun symbol =>
          heeds_operatorPrecedence.bind fun precedence => heeds_pure _
      refine (continued session.advance level).behind kind (by simp) fun front _ same => ?_
      simp only [lift, heading, same]
    | _ =>
      refine .of_unexpected "expected function name in prototype" fun front same => ?_
      simp only [lift, heading, same, kind]
  | _ =>
    refine .of_unexpected "expected function name in prototype" fun front same => ?_
    simp only [lift, heading, same, kind]

theorem heeds_parameters (taken : List String) :
    (lift (Session.parameters taken)).Heeds tolerance operators := by
  intro session level
  induction size : session.remaining using Nat.strongRecOn generalizing taken session with
  | ind count ih =>
    cases kind : session.current.kind with
    | identifier name =>
      by_cases repeated : name ∈ taken
      · have concerns : (Fault.repeatedParameter name).Concerns session.current.kind := kind
        refine .refuse concerns fun front same => ?_
        simp only [lift, Session.parameters_eq, same, kind, repeated, ↓reduceIte]
      · have moved := Session.remaining_advance (Session.more_of_kind kind (by simp))
        have rest := ih session.advance.remaining (by omega) (taken ++ [name]) session.advance level
          rfl
        refine rest.behind kind (by simp) fun front _ same => ?_
        simp only [lift]
        rw [Session.parameters_eq]
        simp only [same, repeated, ↓reduceIte]
    | _ =>
      apply HeedsAt.stay taken
      rintro front _ (same | ⟨-, symbol, shown, -⟩)
      · simp only [lift, Session.parameters_eq, same, kind]
      · simp only [lift, Session.parameters_eq, shown]

theorem heeds_signature : (lift Session.signature).Heeds tolerance operators := by
  unfold Session.signature
  simp only [lift_bind]
  apply heeds_heading.bind
  intro heading
  refine Heeds.expect ?_ (by simp) (by simp) _
  apply (heeds_parameters []).bind
  intro names
  refine Heeds.expect ?_ (by simp) (by simp) _
  exact heeds_pure (heading, names)

/-- The place of a prototype shows only in the failure of its count. -/
theorem Heading.finish_alike (heading : Heading) (names : List String) {place other : Position}
    (related : tolerance.places place other ∨ ∃ value, heading.finish place names = .parsed value) :
    (heading.finish place names).Alike tolerance (heading.finish other names) := by
  have failing {symbol : Char} {expected : Nat} {place other : Position}
      (related : tolerance.places place other) :
      (Outcome.failed ⟨.wrongArity symbol expected names.length, place⟩ : Outcome Prototype).Alike
        tolerance (.failed ⟨.wrongArity symbol expected names.length, other⟩) :=
    .failed _ related
  cases heading with
  | function name => exact .parsed _
  | unary symbol =>
    simp only [finish] at related ⊢
    split
    next => exact .parsed _
    next unlike =>
      simp only [unlike, ↓reduceIte, reduceCtorEq, exists_false, or_false] at related
      exact failing related
  | binary symbol precedence =>
    simp only [finish] at related ⊢
    split
    next => exact .parsed _
    next unlike =>
      simp only [unlike, ↓reduceIte, reduceCtorEq, exists_false, or_false] at related
      exact failing related

end Grammar

namespace Session

variable {tolerance : Tolerance} {operators : OperatorTable} {session : Session}

theorem lift_prototype (session : Session) :
    lift prototype session =
      (lift signature >>= fun found => lift (counted session.position found)) session := by
  rw [← lift_bind]
  exact congrArg some session.prototype_eq

theorem prototype_repeats (session : Session) : (lift prototype).Repeats tolerance session := by
  have repeats : (lift signature).Repeats tolerance session :=
    (Grammar.heeds_signature session rfl).repeats
  intro outcome after run
  rw [lift_prototype] at run
  rcases bind_cases run with ⟨⟨heading, names⟩, middle, start, rest⟩ | stopped
  · obtain ⟨finished, rfl⟩ := Prod.mk.inj (Option.some.inj rest)
    obtain ⟨row, same, again⟩ := repeats _ _ start
    refine ⟨row, same, ?_⟩
    intro other behind alike bears
    obtain ⟨_, repeated, kept⟩ := again other behind alike
      (bears_between (heading, names) .nil bears)
    cases kept
    refine ⟨heading.finish ((middle.upon behind).prepend other).position names, ?_, ?_⟩
    · rw [lift_prototype]
      exact bind_of_parsed repeated
    · -- Without a row the current token is the one that ends the reading.
      rw [← finished]
      apply heading.finish_alike names
      cases alike with
      | nil =>
        rw [prepend_nil] at same
        cases bears with
        | alike last => exact .inl (same ▸ last.place)
        | closed ended shown closes => exact .inr ⟨_, finished⟩
      | cons first =>
        rw [same]
        exact .inl first.place
  · obtain ⟨row, same, again⟩ := repeats.interrupt stopped
    refine ⟨row, same, ?_⟩
    intro other behind alike bears
    obtain ⟨result, ended, like⟩ := again other behind alike bears
    refine ⟨result, ?_, like⟩
    rw [lift_prototype]
    exact ended _

theorem definition_repeats (closes : tolerance.Closes session.operators)
    (more : session.current.kind ≠ .endOfInput) : (lift definition).Repeats tolerance session := by
  have continued : (lift (do
      let prototype ← prototype
      let body ← expression
      pure ⟨prototype, body⟩ : Parser Definition)).Repeats tolerance session.advance := by
    simp only [lift_bind]
    apply (prototype_repeats session.advance).bind
    intro prototype middle start
    have level := (prototype_yields session.advance).operators_eq
    rw [Option.some.inj start] at level
    exact ((heeds_expression closes).bind (fun _ => heeds_pure _) middle level).repeats
  exact continued.behind rfl more fun _ _ _ => rfl

theorem declaration_repeats (more : session.current.kind ≠ .endOfInput) :
    (lift declaration).Repeats tolerance session :=
  (prototype_repeats session.advance).behind rfl more fun _ _ _ => rfl

theorem wrappedExpression_repeats (closes : tolerance.Closes session.operators) :
    (lift wrappedExpression).Repeats tolerance session := by
  unfold wrappedExpression
  rw [lift_bind]
  exact ((heeds_expression closes).bind (fun _ => heeds_pure _) session rfl).repeats

/-- A form starts with a token, and heeds none behind the one that is current after it. -/
theorem form_repeats (closes : tolerance.Closes session.operators)
    (more : session.current.kind ≠ .endOfInput) : (lift form).Repeats tolerance session := by
  have wrap {α : Type} {reader : Parser α} (make : α → Form)
      (repeats : (lift reader).Repeats tolerance session)
      (run : ∀ front : Session, front.current.kind = session.current.kind →
        front.form = (do return make (← reader) : Parser Form) front) :
      (lift form).Repeats tolerance session := by
    have whole := repeats.bind fun value middle _ =>
      (heeds_pure (make value) middle rfl : HeedsAt tolerance _ _).repeats
    refine whole.of_eq (fun ended => absurd ended more) fun front _ same => ?_
    have unfolded : lift form front = lift (do return make (← reader) : Parser Form) front :=
      congrArg some (run front same)
    rw [unfolded, lift_bind]
    rfl
  cases kind : session.current.kind with
  | keyword word =>
    cases word with
    | defWord =>
      refine wrap .definition (definition_repeats closes more) fun front same => ?_
      simp only [form, same, kind]
    | externWord =>
      refine wrap .declaration (declaration_repeats more) fun front same => ?_
      simp only [form, same, kind]
    | _ =>
      refine wrap .expression (wrappedExpression_repeats closes) fun front same => ?_
      simp only [form, same, kind]
  | _ =>
    refine wrap .expression (wrappedExpression_repeats closes) fun front same => ?_
    simp only [form, same, kind]

theorem prototype_of_ended (ended : session.current.kind = .endOfInput) :
    session.prototype = (.incomplete, session) := by
  have unnamed : Grammar.heading session = (.incomplete, session) := by
    simp [Grammar.heading, ended, unexpected, atEnd]
  unfold prototype
  change Parser.bind Grammar.heading _ session = _
  simp only [Parser.bind, unnamed]

/-- Behind the last token there is nothing to move past. -/
theorem advance_of_ahead_nil (none : session.tokens.ahead = []) : session.advance = session := by
  rcases session with ⟨⟨ahead, ending, failure⟩, operators, depth, limit⟩
  subst none
  rfl

theorem ended_of_ahead_nil (none : session.tokens.ahead = []) :
    session.current.kind = .endOfInput := by
  rcases session with ⟨⟨ahead, ending, failure⟩, operators, depth, limit⟩
  subst none
  rfl

theorem definition_of_ended (none : session.tokens.ahead = []) :
    session.definition = (.incomplete, session) := by
  unfold definition
  change Parser.bind prototype _ session.advance = _
  rw [advance_of_ahead_nil none]
  simp only [Parser.bind, prototype_of_ended (ended_of_ahead_nil none)]

theorem declaration_of_ended (none : session.tokens.ahead = []) :
    session.declaration = (.incomplete, session) := by
  change session.advance.prototype = _
  rw [advance_of_ahead_nil none]
  exact prototype_of_ended (ended_of_ahead_nil none)

end Session

namespace TokenStream

instance (stream : TokenStream) : Decidable stream.Regular :=
  inferInstanceAs (Decidable (∀ token ∈ stream.ahead, token.kind ≠ .endOfInput))

/-- The stream behind its first `count` tokens. -/
def drop (stream : TokenStream) (count : Nat) : TokenStream :=
  { stream with ahead := stream.ahead.drop count }

theorem toList_head (stream : TokenStream) : stream.toList.head? = some stream.current := by
  rcases stream with ⟨_ | ⟨token, ahead⟩, ending, failure⟩ <;> rfl

theorem toList_drop {stream : TokenStream} {count : Nat} (le : count ≤ stream.ahead.length) :
    (stream.drop count).toList = stream.toList.drop count := by
  simp [toList, drop, List.drop_append_of_le_length le]

/-- The token behind the first `count` ones. -/
theorem toList_getElem? {stream : TokenStream} {count : Nat} (le : count ≤ stream.ahead.length) :
    stream.toList[count]? = some (stream.drop count).current := by
  rw [← toList_head, toList_drop le, List.head?_drop]

/-- A stream that agrees with another one up to and with the token behind a row has the row too,
and the same token behind it. -/
theorem exists_of_agree {first second : TokenStream} {row rest : List Token}
    (ahead : first.ahead = row ++ rest)
    (agree : ∀ index ≤ row.length, first.toList[index]? = second.toList[index]?) :
    row.length ≤ second.ahead.length ∧ second.ahead = row ++ (second.drop row.length).ahead ∧
      (second.drop row.length).current = (first.drop row.length).current := by
  have within : row.length ≤ first.ahead.length := by simp [ahead]
  have last := agree row.length (Nat.le_refl _)
  rw [toList_getElem? within] at last
  have bound : row.length ≤ second.ahead.length := by
    have inside := (List.getElem?_eq_some_iff.1 last.symm).1
    simp only [toList, List.length_append, List.length_singleton] at inside
    omega
  have front : second.ahead.take row.length = row := by
    apply List.ext_getElem?
    intro index
    by_cases below : index < row.length
    · have same := agree index (by omega)
      unfold toList at same
      rw [List.getElem?_append_left (by omega), List.getElem?_append_left (by omega), ahead,
        List.getElem?_append_left below] at same
      rw [List.getElem?_take_of_lt below, same]
    · rw [List.getElem?_eq_none (by simp; omega), List.getElem?_eq_none (by omega)]
  refine ⟨bound, ?_, ?_⟩
  · calc second.ahead = second.ahead.take row.length ++ second.ahead.drop row.length :=
        (List.take_append_drop _ _).symm
      _ = row ++ (second.drop row.length).ahead := by rw [front]; rfl
  · rw [toList_getElem? bound] at last
    exact (Option.some.inj last).symm

end TokenStream

namespace Session

variable {session after : Session} {row : List Token}

/-- The session behind a row has as many tokens less. -/
theorem eq_upon_drop (same : session = after.prepend row) :
    after = session.upon (session.tokens.drop row.length) := by
  rw [same]
  simp [prepend, upon, TokenStream.drop]

theorem prepend_upon_drop {tokens : TokenStream}
    (ahead : tokens.ahead = row ++ (tokens.drop row.length).ahead) :
    (session.upon (tokens.drop row.length)).prepend row = session.upon tokens := by
  unfold prepend upon
  rw [← ahead]
  rfl

end Session

namespace Production

open Session

variable {α : Type}

/-- A production repeats itself, or it stands at the end of the input, where it finds nothing. -/
theorem repeats_or_ended (production : Production α) (session : Session) :
    (lift production.read).Repeats .exact session ∨
      session.current.kind = .endOfInput ∧ ∀ front : Session, front.tokens.ahead = [] →
        production.read front = (.incomplete, front) := by
  have closes := Tolerance.exact_closes session.operators
  cases production with
  | expression => exact .inl (heeds_expression closes session rfl).repeats
  | operand => exact .inl (heeds_operand closes session rfl).repeats
  | primary => exact .inl (heeds_primary closes session rfl).repeats
  | operations minimum left =>
    have looser := Tolerance.exact_looser session.operators minimum
    exact .inl (heeds_operations closes minimum left looser session rfl).repeats
  | prototype => exact .inl (prototype_repeats session)
  | definition =>
    by_cases ended : session.current.kind = .endOfInput
    · exact .inr ⟨ended, fun front none => definition_of_ended none⟩
    · exact .inl (definition_repeats closes ended)
  | declaration =>
    by_cases ended : session.current.kind = .endOfInput
    · exact .inr ⟨ended, fun front none => declaration_of_ended none⟩
    · exact .inl (declaration_repeats ended)
  | wrappedExpression => exact .inl (wrappedExpression_repeats closes)

/-- The row that a production takes is all of the input that it needs, but for the token behind
it. -/
theorem exists_row (production : Production α) {session after : Session} {outcome : Outcome α}
    (regular : session.tokens.Regular) (run : production.read session = (outcome, after)) :
    ∃ row, session = after.prepend row ∧ ∀ behind : TokenStream, behind.Regular →
      behind.current = after.current →
        production.read ((after.upon behind).prepend row) = (outcome, after.upon behind) := by
  rcases production.repeats_or_ended session with repeats | ⟨ended, finds⟩
  · obtain ⟨row, same, again⟩ := repeats.exists_row (congrArg some run)
    exact ⟨row, same, fun behind _ last => Option.some.inj (again behind last)⟩
  · rw [finds session (regular.ahead_of_ended ended)] at run
    cases run
    refine ⟨[], rfl, ?_⟩
    intro behind also last
    exact finds (session.upon behind) (also.ahead_of_ended (by rw [last]; exact ended))

/-- For every production, table of operators and depth: what a reading step comes to, how many
tokens it takes and where it stops is settled by the tokens that it takes and the one behind them.
On any other input that has the same tokens up to there, it does the same. -/
theorem one_token_of_lookahead (production : Production α) (operators : OperatorTable)
    (depth : Nat) (limit : Option Nat) (first second : TokenStream) (regular : first.Regular)
    (alsoRegular : second.Regular) :
    let session : Session := ⟨first, operators, depth, limit⟩
    let other : Session := ⟨second, operators, depth, limit⟩
    let count := session.remaining - (production.read session).2.remaining
    (production.read session).2 = session.upon (first.drop count) ∧
    first.toList[count]? = some (production.read session).2.current ∧
    ((∀ index ≤ count, first.toList[index]? = second.toList[index]?) →
      (production.read other).1 = (production.read session).1 ∧
      (production.read other).2 = other.upon (second.drop count) ∧
      other.remaining - (production.read other).2.remaining = count ∧
      (production.read other).2.current = (production.read session).2.current) := by
  intro session other
  generalize run : production.read session = result
  obtain ⟨outcome, after⟩ := result
  intro count
  obtain ⟨row, same, again⟩ := production.exists_row regular run
  have ahead : first.ahead = row ++ after.tokens.ahead := congrArg (·.tokens.ahead) same
  have taken : count = row.length := by
    have total := congrArg List.length ahead
    rw [List.length_append] at total
    show first.ahead.length - after.tokens.ahead.length = row.length
    omega
  have stopped : after = session.upon (first.drop row.length) := eq_upon_drop same
  rw [taken]
  refine ⟨stopped, ?_, ?_⟩
  · rw [stopped]
    exact TokenStream.toList_getElem? (by simp [ahead])
  · intro agree
    obtain ⟨bound, whole, last⟩ := TokenStream.exists_of_agree ahead agree
    have current : (second.drop row.length).current = after.current := by
      rw [last, stopped]
      rfl
    have behind : (second.drop row.length).Regular := fun token inside =>
      alsoRegular token (List.mem_of_mem_drop inside)
    have repeated := again _ behind current
    rw [stopped] at repeated
    have front : (other.upon (second.drop row.length)).prepend row = other :=
      prepend_upon_drop whole
    have reread : production.read other = (outcome, other.upon (second.drop row.length)) :=
      (congrArg production.read front.symm).trans repeated
    rw [reread]
    refine ⟨rfl, rfl, ?_, current⟩
    show second.ahead.length - (second.ahead.drop row.length).length = row.length
    rw [List.length_drop]
    omega

theorem one_token_of_lookahead_of_prototype :
    let place (kind : Token.Kind) : Token := ⟨kind, ⟨.nowhere, .nowhere⟩⟩
    let stream (kinds : List Token.Kind) : TokenStream := ⟨kinds.map place, .nowhere, none⟩
    let row : List Token.Kind := [.keyword .binaryWord, .symbol '|', .symbol '(',
      .identifier "a", .symbol ')', .symbol ';']
    let first := stream (row ++ [.identifier "x"])
    let second := stream (row ++ [.keyword .defWord, .symbol '('])
    let session : Session := ⟨first, .builtin, 255, some nestingLimit⟩
    let other : Session := ⟨second, .builtin, 255, some nestingLimit⟩
    session.prototype.1 = .failed ⟨.wrongArity '|' 2 1, .nowhere⟩ ∧
      (prototype.read other).1 = (prototype.read session).1 ∧
      other.remaining - (prototype.read other).2.remaining = 5 ∧
      (prototype.read other).2.current = place (.symbol ';') := by
  intro place stream row first second session other
  have regular : first.Regular := by decide
  have alsoRegular : second.Regular := by decide
  have taken : session.remaining - (prototype.read session).2.remaining = 5 := by rfl
  have agree : ∀ index ≤ 5, first.toList[index]? = second.toList[index]? := by decide
  obtain ⟨-, -, same⟩ := one_token_of_lookahead prototype .builtin 255 (some nestingLimit)
    first second regular alsoRegular
  obtain ⟨outcome, -, count, current⟩ := same (by rw [taken]; exact agree)
  exact ⟨rfl, outcome, count.trans taken, current⟩

end Production

end Kaleidoscope
