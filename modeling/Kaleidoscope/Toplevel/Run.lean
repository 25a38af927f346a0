import Kaleidoscope.Toplevel.Backend

set_option autoImplicit false

/- Forms are read one after the other and handed to a backend. After a form that could not be read
one token is passed over and reading goes on. -/

namespace Kaleidoscope

/-- How many forms were used, refused and not read. -/
structure Summary where
  definitions : Nat
  declarations : Nat
  expressions : Nat
  rejected : Nat
  failures : Nat
  deriving DecidableEq

namespace Summary

def none : Summary := ⟨0, 0, 0, 0, 0⟩

/-- Counts a form that was used. -/
def countForm (summary : Summary) : Form → Summary
  | .definition _ => { summary with definitions := summary.definitions + 1 }
  | .declaration _ => { summary with declarations := summary.declarations + 1 }
  | .expression _ => { summary with expressions := summary.expressions + 1 }

def countRejected (summary : Summary) : Summary :=
  { summary with rejected := summary.rejected + 1 }

def countFailure (summary : Summary) : Summary :=
  { summary with failures := summary.failures + 1 }

/-- Whether every form was read and used. -/
def isClean (summary : Summary) : Bool :=
  summary.failures + summary.rejected == 0

end Summary

/-- What one step of the top level did. -/
inductive Step where
  /-- A semicolon was passed over. -/
  | separator
  | accepted (form : Form)
  /-- The form was read, and the backend refused it. -/
  | rejected (form : Form) (failure : Failure)
  /-- The form could not be read, and the token `skipped` was passed over. -/
  | failed (failure : Option Failure) (skipped : Token)
  | finished

/-- Whether a new form is awaited after the step. -/
def Step.wantsPrompt : Step → Bool
  | separator => false
  | finished => false
  | _ => true

structure Toplevel (β : Type) where
  session : Session
  backend : β
  summary : Summary
  /-- What is shown when a form is awaited. -/
  prompt : Option String
  /-- All that has been shown. -/
  shown : String

namespace Toplevel

variable {β : Type} [Backend β]

def start (session : Session) (backend : β) (prompt : Option String) : Toplevel β :=
  ⟨session, backend, .none, prompt, ""⟩

/-- Reports a form that could not be read and passes over the current token of `session`. -/
def recover (top : Toplevel β) (session : Session) (failure : Option Failure) :
    Step × Toplevel β :=
  (.failed failure session.current,
    { top with
      session := session.advance
      backend := Backend.report top.backend failure
      summary := top.summary.countFailure })

/-- Hands a form to the backend; `session` is the session behind the form. -/
def submit (top : Toplevel β) (session : Session) (form : Form) : Step × Toplevel β :=
  match Backend.accept top.backend form session.operators with
  | ⟨none, backend, operators⟩ =>
    (.accepted form,
      { top with
        session := { session with operators := operators }
        backend := backend
        summary := top.summary.countForm form })
  | ⟨some failure, backend, operators⟩ =>
    (.rejected form failure,
      { top with
        session := { session with operators := operators }
        backend := Backend.report backend (some failure)
        summary := top.summary.countRejected })

/-- Reads one form and deals with it. -/
def step (top : Toplevel β) : Step × Toplevel β :=
  if top.session.atEnd then (.finished, top)
  else if top.session.sees ';' then (.separator, { top with session := top.session.advance })
  else
    match top.session.form with
    | (.parsed form, session) => top.submit session form
    | (.incomplete, session) => top.recover session none
    | (.failed failure, session) => top.recover session (some failure)

def showPrompt (top : Toplevel β) : Toplevel β :=
  { top with shown := top.shown ++ top.prompt.getD "" }

/-- At most `count` steps, up to the end of the input. -/
def runFor : (count : Nat) → Toplevel β → Toplevel β
  | 0, top => top
  | count + 1, top =>
    match top.step with
    | (.finished, after) => after
    | (step, after) => runFor count (if step.wantsPrompt then after.showPrompt else after)

/-- Runs to the end of the input. Every step before the end uses up a token. -/
def run (top : Toplevel β) : Toplevel β :=
  top.runFor (top.session.remaining + 1)

end Toplevel

end Kaleidoscope
