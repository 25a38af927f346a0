import Kaleidoscope.Proofs.Genuine
import Kaleidoscope.Proofs.Lookahead
import Kaleidoscope.Proofs.Truncation

set_option autoImplicit false

/- A lexer that has met the end of its input has used up its line and has no line to come. A session
asks its lexer for a token whenever it moves on, so it is at its end exactly when its lexer is. -/

namespace Kaleidoscope

open Text

namespace Lexer

variable {lexer : Lexer}

/-- Where there is nothing to read, the end is given and the lexer stays as it is. -/
theorem Finished.next_eq (finished : lexer.Finished) (settled : lexer.Settled) :
    lexer.next = (.endAt lexer.position, lexer) := by
  have same : { lexer with pending := [], exhausted := true } = lexer := by
    rcases lexer with ⟨source, pending, failure, line, offset, column, lineNumber, exhausted⟩
    obtain ⟨rfl, -, rfl⟩ := finished
    rfl
  rw [settled.next_eq, finished.last, nextAmong, finished.used.cutToken?_eq_none,
    finished.used.passTrivia_eq]
  exact congrArg (Prod.mk _) same

theorem Finished.behind_eq (finished : lexer.Finished) (settled : lexer.Settled) (count : Nat) :
    lexer.behind count = lexer := by
  induction count with
  | zero => rfl
  | succ count hypothesis => rw [behind, finished.next_eq settled, hypothesis]

variable {pending : List (List Char)} {token : Token} {after : Lexer}

/-- A token that is the end is given where the lexer then stands, and leaves nothing to read. -/
theorem Gives.finished {result : Token × Lexer} (gives : lexer.Gives pending result)
    (ended : result.1.isEnd = true) :
    result.2.Finished ∧ result.1 = .endAt result.2.position := by
  induction gives with
  | cut ahead solid found =>
    have regular := Token.Kind.ne_endOfInput_of_read? found
    simp [Token.isEnd, regular] at ended
  | line gives hypothesis => exact hypothesis ended
  | ended used => exact ⟨⟨rfl, used, rfl⟩, rfl⟩

/-- A token before the end takes at least one character of what is left. -/
theorem Gives.remaining_lt {result : Token × Lexer} {row : List Char}
    (gives : lexer.Gives pending result) (holds : lexer.Holds row)
    (more : result.1.isEnd = false) :
    result.2.remaining < row.length + pending.flatten.length := by
  induction gives generalizing row with
  | @cut lexer pending kind word tail ahead solid found =>
    obtain ⟨left, split, behind, -⟩ := holds.exists_passTrivia
    have same : left = word ++ tail := behind.rest.symm.trans ahead.rest
    have rest : ({ lexer.passTrivia.pass word with pending := pending } : Lexer).rest = tail :=
      ahead.pass.rest
    have positive := List.length_pos_iff.2 (Token.Kind.exists_of_read? found).1
    have size := congrArg List.length split
    rw [same, List.length_append, List.length_append] at size
    rw [remaining, rest]
    simp only
    omega
  | @line lexer line pending result gives hypothesis =>
    have less := hypothesis ⟨[], rfl, rfl⟩ more
    simp only [List.flatten_cons, List.length_append]
    omega
  | ended used => cases more

/-- Behind the end of the input each further token is an end. -/
theorem Settled.exhausted_next_eq_isEnd (settled : lexer.Settled) :
    lexer.next.2.exhausted = lexer.next.1.isEnd := by
  rw [settled.gives.exhausted_eq]
  cases known : lexer.exhausted with
  | false => rfl
  | true =>
    rw [(settled.final known).next_eq settled]
    rfl

/-- Where the end has been met the line is used up, so the two conditions for the end are one. -/
theorem Settled.atEnd_eq (settled : lexer.Settled) : lexer.atEnd = lexer.exhausted := by
  cases known : lexer.exhausted with
  | false => rw [atEnd, known, Bool.false_and]
  | true =>
    obtain ⟨passed, line, offset⟩ := (settled.final known).used
    rw [List.append_nil] at line
    simp [atEnd, known, line, offset]

/-- A lexer is at its end exactly if the token that it gave last is the end. -/
theorem Settled.atEnd_next (settled : lexer.Settled) : lexer.next.2.atEnd = lexer.next.1.isEnd := by
  rw [settled.next.atEnd_eq, settled.exhausted_next_eq_isEnd]

theorem behind_succ (lexer : Lexer) (count : Nat) :
    lexer.behind (count + 1) = (lexer.behind count).next.2 := by
  rw [behind_add, behind, behind]

/-- Behind the first token that is an end nothing changes, and each further token is this end. -/
theorem Settled.behind_of_isEnd {count later : Nat} (settled : lexer.Settled)
    (ended : (lexer.behind count).next.1.isEnd = true) (further : count < later) :
    lexer.behind later = lexer.behind (count + 1) ∧
      (lexer.behind later).next.1 = (lexer.behind count).next.1 := by
  obtain ⟨finished, place⟩ := (settled.behind count).gives.finished ended
  rw [← behind_succ] at finished place
  obtain ⟨rest, rfl⟩ := Nat.exists_eq_add_of_lt further
  have later := settled.behind (count + 1)
  have stays : lexer.behind (count + rest + 1) = lexer.behind (count + 1) := by
    rw [Nat.add_right_comm, behind_add, finished.behind_eq later]
  rw [stays, finished.next_eq later, place]
  exact ⟨rfl, rfl⟩

/-- At its end is a lexer that has given an end. -/
theorem Settled.atEnd_behind_iff (settled : lexer.Settled) (fresh : lexer.exhausted = false)
    (count : Nat) :
    (lexer.behind count).atEnd = true ↔
      ∃ earlier < count, (lexer.behind earlier).next.1.isEnd = true := by
  cases count with
  | zero => simp [Lexer.behind, settled.atEnd_eq, fresh]
  | succ count =>
    rw [behind_succ, (settled.behind count).atEnd_next]
    constructor
    · intro ended
      exact ⟨count, Nat.lt_succ_self count, ended⟩
    · rintro ⟨earlier, before, ended⟩
      rcases Nat.lt_succ_iff_lt_or_eq.1 before with further | rfl
      · rw [(settled.behind_of_isEnd ended further).2]
        exact ended
      · exact ended

theorem next_of_getElem?_takeTokens {count index : Nat}
    (found : (lexer.takeTokens count).1[index]? = some token) :
    (lexer.behind index).next.1 = token := by
  induction count generalizing lexer index with
  | zero => simp [takeTokens] at found
  | succ count hypothesis =>
    unfold takeTokens at found
    by_cases ended : lexer.next.1.isEnd = true
    · simp [ended] at found
    · simp only [ended, Bool.false_eq_true, ↓reduceIte] at found
      cases index with
      | zero => simpa [behind] using found
      | succ index =>
        rw [behind]
        exact hypothesis (by simpa using found)

/-- Behind the last token the end is given. There are steps enough to meet it, since each token
takes a character. -/
theorem Settled.next_of_takeTokens {count : Nat} (settled : lexer.Settled)
    (enough : lexer.remaining < count) :
    (lexer.behind (lexer.takeTokens count).1.length).next =
      (.endAt (lexer.takeTokens count).2.position, (lexer.takeTokens count).2) := by
  induction count generalizing lexer with
  | zero => omega
  | succ count hypothesis =>
    unfold takeTokens
    by_cases ended : lexer.next.1.isEnd = true
    · simp only [ended, ↓reduceIte, List.length_nil, Lexer.behind]
      exact Prod.ext (settled.gives.finished ended).2 rfl
    · obtain ⟨passed, row, past⟩ := settled.past
      have less := settled.gives.remaining_lt past.holds (Bool.eq_false_iff.2 ended)
      rw [← past.holds.rest] at less
      have rest := hypothesis settled.next (by unfold remaining at enough; omega)
      simp only [ended, Bool.false_eq_true, ↓reduceIte, List.length_cons, Lexer.behind]
      exact rest

end Lexer

namespace TokenStream

variable {lexer : Lexer}

/-- Behind any number of tokens the current token is the one that the lexer gives there, also behind
the last one, where both give the end. -/
theorem current_drop_ofLexer (settled : lexer.Settled) (count : Nat) :
    ((ofLexer lexer).drop count).current = (lexer.behind count).next.1 := by
  have shown : ((ofLexer lexer).drop count).current =
      (ofLexer lexer).ahead[count]?.getD (.endAt (ofLexer lexer).ending) := by
    rw [current, drop, List.headD_eq_head?_getD, List.head?_drop]
  rw [shown]
  cases found : (ofLexer lexer).ahead[count]? with
  | some token =>
    have given : (lexer.takeTokens (lexer.remaining + 1)).1[count]? = some token := found
    exact (Lexer.next_of_getElem?_takeTokens given).symm
  | none =>
    have last := settled.next_of_takeTokens (Nat.lt_succ_self lexer.remaining)
    have ended : (lexer.behind (ofLexer lexer).ahead.length).next.1 =
        .endAt (ofLexer lexer).ending := congrArg Prod.fst last
    rcases Nat.lt_or_eq_of_le (List.getElem?_eq_none_iff.1 found) with further | rfl
    · rw [(settled.behind_of_isEnd (by rw [ended]; rfl) further).2, ended]
      rfl
    · rw [ended]
      rfl

theorem advance_drop (stream : TokenStream) (count : Nat) :
    (stream.drop count).advance = stream.drop (count + 1) := by
  simp [advance, drop]

theorem atEnd_eq (stream : TokenStream) (regular : stream.Regular) :
    stream.atEnd = stream.current.isEnd := by
  rcases stream with ⟨_ | ⟨token, ahead⟩, ending, failure⟩
  · rfl
  · have more : token.kind ≠ .endOfInput := regular token List.mem_cons_self
    simpa [atEnd, Token.isEnd] using more

theorem Regular.drop {stream : TokenStream} (regular : stream.Regular) (count : Nat) :
    (stream.drop count).Regular :=
  fun token inside => regular token (List.mem_of_mem_drop inside)

end TokenStream

namespace Session

variable {origin feeder : Lexer} {session after : Session}

/-- The states of a session, each with the lexer that feeds it. A session starts with the first
token and asks for another one when it moves on. Nothing else that is done to it asks the lexer. -/
inductive FedBy (origin : Lexer) : Session → Lexer → Prop where
  | start (operators : OperatorTable) :
      FedBy origin (.start (.ofLexer origin) operators) origin.next.2
  | advance {session : Session} {feeder : Lexer} (fed : FedBy origin session feeder) :
      FedBy origin session.advance feeder.next.2
  | openOperand {session deeper : Session} {feeder : Lexer} (fed : FedBy origin session feeder)
      (opened : session.openOperand = .ok deeper) : FedBy origin deeper feeder
  | closeOperand {session : Session} {feeder : Lexer} (fed : FedBy origin session feeder) :
      FedBy origin session.closeOperand feeder
  | operators {session : Session} {feeder : Lexer} (fed : FedBy origin session feeder)
      (operators : OperatorTable) : FedBy origin { session with operators := operators } feeder

/-- The lexer has given the tokens that the session has moved past, and the current one. -/
theorem FedBy.exists_count (fed : FedBy origin session feeder) :
    ∃ count, session.tokens = (TokenStream.ofLexer origin).drop count ∧
      feeder = origin.behind (count + 1) := by
  induction fed with
  | start operators => exact ⟨0, rfl, rfl⟩
  | advance fed hypothesis =>
    obtain ⟨count, tokens, rfl⟩ := hypothesis
    refine ⟨count + 1, ?_, (origin.behind_succ (count + 1)).symm⟩
    rw [← TokenStream.advance_drop, ← tokens]
    rfl
  | openOperand fed opened hypothesis =>
    rw [eq_of_openOperand opened]
    exact hypothesis
  | closeOperand fed hypothesis => exact hypothesis
  | operators fed operators hypothesis => exact hypothesis

/-- A session is at its end exactly if its lexer is, and then it knows of the failure that the lexer
knows of. -/
theorem FedBy.atEnd_eq (fed : FedBy origin session feeder) (settled : origin.Settled) :
    session.atEnd = feeder.atEnd ∧ session.tokens.atEnd = feeder.atEnd ∧
      session.tokens.readError = feeder.readError := by
  obtain ⟨count, tokens, rfl⟩ := fed.exists_count
  have current : session.atEnd = (origin.behind (count + 1)).atEnd := by
    rw [atEnd, Session.current, tokens, TokenStream.current_drop_ofLexer settled,
      origin.behind_succ, (settled.behind count).atEnd_next]
  have regular : session.tokens.Regular := by
    rw [tokens]
    exact (TokenStream.regular_ofLexer origin).drop count
  have stream : session.tokens.atEnd = (origin.behind (count + 1)).atEnd :=
    (TokenStream.atEnd_eq _ regular).trans current
  have failure : session.tokens.failure = origin.failure := by
    rw [tokens]
    exact settled.failure_ofLexer
  refine ⟨current, stream, ?_⟩
  rw [TokenStream.readError, Lexer.readError, stream, failure, settled.failure_behind,
    (settled.behind _).atEnd_eq]

/-- Behind a row of tokens the lexer has been asked once for each of them. -/
theorem FedBy.of_prepend {row : List Token} (fed : FedBy origin (after.prepend row) feeder) :
    FedBy origin after (feeder.behind row.length) := by
  induction row generalizing feeder with
  | nil => exact fed
  | cons token row hypothesis => exact hypothesis fed.advance

theorem FedBy.keeps {α : Type} {step : Parser α} (fed : FedBy origin session feeder)
    (keeps : step.Keeps session) : ∃ further, FedBy origin (step session).2 further := by
  obtain ⟨row, same, -⟩ := keeps
  rw [same] at fed
  exact ⟨_, fed.of_prepend⟩

end Session

namespace Toplevel

variable {β : Type} [Backend β] {origin feeder : Lexer} {top start : Toplevel β}

/-- A step moves its session on, and the backend changes the operators in force. -/
theorem fedBy_step (fed : top.session.FedBy origin feeder) :
    ∃ further, top.step.2.session.FedBy origin further := by
  obtain ⟨further, behind⟩ := fed.keeps (Session.form_yields top.session).keeps
  have taken := top.dispatch
  generalize top.step = result at taken ⊢
  cases taken with
  | finished ended => exact ⟨feeder, fed⟩
  | separator seen => exact ⟨_, fed.advance⟩
  | submitted more plain run =>
    rw [run] at behind
    unfold submit
    split <;> exact ⟨further, behind.operators _⟩
  | incomplete more plain run =>
    rw [run] at behind
    exact ⟨_, behind.advance⟩
  | failed more plain run =>
    rw [run] at behind
    exact ⟨_, behind.advance⟩

theorem fedBy_of_reachable (fed : start.session.FedBy origin feeder)
    (reached : Reachable start top) : ∃ further, top.session.FedBy origin further := by
  induction reached with
  | start => exact ⟨feeder, fed⟩
  | step reached hypothesis =>
    obtain ⟨further, behind⟩ := hypothesis
    exact fedBy_step behind
  | prompt reached hypothesis => exact hypothesis

end Toplevel

namespace Input

end Input

end Kaleidoscope
