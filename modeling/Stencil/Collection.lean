import Stencil.Endpoint
import Stencil.Session
import Stencil.Surroundings
import Stencil.UserInput

/-!
# Collecting user inputs

For every name to fill in, the value that is remembered for the endpoint is taken, unless the name
is secret; otherwise the user is asked. Answers are remembered, except those to secret names. A
name without an answer stays without a value.
-/

namespace Stencil

/-- The values collected so far, the session, and the journal. -/
structure Collection where
  values : Dict String
  session : Session
  journal : Journal

namespace Collection

/-- The value that is remembered for a name. -/
def remembered? (session : Session) (endpoint : String) (p : UserInput.Pattern) :
    Option String :=
  if p.secret then none else session.get? endpoint p.name

/-- The question for a name. -/
def question (p : UserInput.Pattern) : Prompt := ⟨p.name, p.written, p.secret⟩

/-- The warning when there is no answer. -/
def notProvided (p : UserInput.Pattern) (text : String) : String :=
  s!"input for '{p.name}' was not provided: {text}"

/-- Takes an answer, which is remembered unless the name is secret. -/
def accept (c : Collection) (endpoint : String) (p : UserInput.Pattern) (value : String) :
    Collection :=
  { c with
    values := c.values.insert p.name value
    session := if p.secret then c.session else c.session.set endpoint p.name (.text value) }

/-- Collects the value of one name. -/
def collectOne (endpoint : String) (prompter : Option Prompter) (c : Collection)
    (p : UserInput.Pattern) : Collection :=
  match remembered? c.session endpoint p with
  | some value => { c with values := c.values.insert p.name value }
  | none =>
    match prompter with
    | none => c
    | some prompter =>
      match Surroundings.ask prompter (question p) c.journal with
      | (.ok value, journal) => { c with journal }.accept endpoint p value
      | (.error text, journal) => { c with journal := journal.warn [notProvided p text] }

/-- Collects the values of the names in a content for a URL. -/
def collect (content url : String) (prompter : Option Prompter) (session : Session)
    (journal : Journal) (toAscii? : Url.DomainReading := Url.Domain.toAscii?) : Collection :=
  (UserInput.detect content).foldl (collectOne (Endpoint.of url toAscii?) prompter)
    ⟨.empty, session, journal⟩

end Collection

end Stencil
