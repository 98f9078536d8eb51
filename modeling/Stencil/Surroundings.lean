import Stencil.Calendar.Instant
import Stencil.FileSystem.Basic
import Stencil.Url.Domain
import Stencil.Url.Host

/-!
# Surroundings

What a run asks of the world around it: the clock, process variables, files, random numbers, the
user and the reading of domain names. Everything is given beforehand, so a run is a function; what
it asked and what it warned of is kept in a journal, in which random numbers and answers of the user
are counted.
-/

namespace Stencil

/-- A question to the user. -/
structure Prompt where
  name : String
  description : String
  /-- Whether the answer should not be shown. -/
  password : Bool
  deriving Repr, DecidableEq

/-- The answers of a user: to each question the answer or the reason why there is none. An answer
may depend on how many questions were asked before. -/
abbrev Prompter := (asked : Nat) → Prompt → Except String String

/-- What happened in a run. -/
inductive Event where
  /-- A remark for the user. -/
  | warning (text : String)
  /-- A question was asked. -/
  | prompt (p : Prompt)
  /-- A random number was drawn. -/
  | draw
  deriving Repr, DecidableEq

/-- What happened in a run, the latest first. -/
abbrev Journal := List Event

namespace Journal

/-- The warnings in the order in which they were given. -/
def warnings (journal : Journal) : List String :=
  journal.reverse.filterMap fun
    | .warning text => some text
    | _ => none

/-- The questions in the order in which they were asked. -/
def prompts (journal : Journal) : List Prompt :=
  journal.reverse.filterMap fun
    | .prompt p => some p
    | _ => none

/-- How many questions were asked. -/
def asked (journal : Journal) : Nat :=
  journal.countP fun
    | .prompt _ => true
    | _ => false

/-- How many random numbers were drawn. -/
def drawn (journal : Journal) : Nat :=
  journal.countP fun
    | .draw => true
    | _ => false

/-- Adds warnings. -/
def warn (journal : Journal) (texts : List String) : Journal :=
  (texts.map Event.warning).reverse ++ journal

@[simp] theorem prompts_prompt (p : Prompt) (journal : Journal) :
    prompts (.prompt p :: journal) = prompts journal ++ [p] := by
  simp [prompts, List.filterMap_append]

@[simp] theorem asked_prompt (p : Prompt) (journal : Journal) :
    asked (.prompt p :: journal) = asked journal + 1 := by
  simp [asked]

@[simp] theorem prompts_warn (journal : Journal) (texts : List String) :
    prompts (journal.warn texts) = prompts journal := by
  simp [prompts, warn, List.filterMap_append]

@[simp] theorem asked_warn (journal : Journal) (texts : List String) :
    asked (journal.warn texts) = asked journal := by
  simp [asked, warn, List.countP_append]

end Journal

/-- What surrounds a run. -/
structure Surroundings where
  /-- The time on the clock. -/
  now : Instant
  /-- The local time zone in seconds east of Greenwich. -/
  zone : Int
  /-- The variables of the process. -/
  process : String → Option String
  /-- The files in and below the current directory. -/
  files : FileSystem
  /-- The name of the current directory. -/
  directory : String
  /-- The user, if one can be asked. -/
  prompter : Option Prompter
  /-- Random numbers by how many were drawn before. -/
  random : Nat → Nat
  /-- How domain names are read. -/
  toAscii? : Url.DomainReading := Url.Domain.toAscii?

namespace Surroundings

/-- Asks the user. -/
def ask (prompter : Prompter) (p : Prompt) (journal : Journal) :
    Except String String × Journal :=
  (prompter journal.asked p, .prompt p :: journal)

/-- Draws a random number. -/
def draw (s : Surroundings) (journal : Journal) : Nat × Journal :=
  (s.random journal.drawn, .draw :: journal)

end Surroundings

end Stencil
