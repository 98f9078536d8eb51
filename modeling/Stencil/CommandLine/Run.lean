import Stencil.Collection
import Stencil.CommandLine.Options
import Stencil.Environment.Configuration
import Stencil.Resolver

/-!
# Runs of the command line

A run reads the request file, the configuration next to it and the session, collects the user
inputs, saves the session, and resolves the placeholders. What it prints, what it tells the user
on the way and the files it leaves behind are its outcome. The steps that can fail come in this
order, and a failure ends the run.
-/

namespace Stencil.CommandLine

/-- Why a run fails. -/
inductive Failure where
  | unreadable (path : String) (cause : FileSystem.Error)
  /-- The environment that is asked for is not among those that are known. -/
  | unknownEnvironment (name : String) (known : List String)
  | session (cause : Session.Error)
  /-- Placeholders are left in a strict run. -/
  | unresolved (expressions : List String)
  deriving Repr, DecidableEq

/-- The wording of a failure. -/
def Failure.message : Failure → String
  | .unreadable path cause => s!"cannot read {path}: {cause.message}"
  | .unknownEnvironment name [] => s!"unknown environment '{name}': none are configured"
  | .unknownEnvironment name known =>
    let names := ", ".intercalate known
    s!"unknown environment '{name}': available are {names}"
  | .session cause => cause.message
  | .unresolved expressions =>
    let names := ", ".intercalate expressions
    s!"unresolved placeholders: {names}"

/-- What a run leaves behind. -/
structure Outcome where
  /-- The text that is printed, or the reason why there is none. -/
  result : Except Failure String
  files : FileSystem
  journal : Journal

/-! ## Steps -/

/-- The directory of the request file. -/
def baseDirectory (file : String) : String :=
  match Path.parent? file with
  | none | some "" => "."
  | some directory => directory

/-- The table next to the request file, empty if its file is faulty; then there is a warning. -/
def loadTable (fs : FileSystem) (directory : String) : EnvironmentTable × List String :=
  match Configuration.load fs directory with
  | .ok table => (table, [])
  | .error e => (.empty, [s!"ignoring environment configuration: {e.message}"])

/-- The environment that is asked for, or else the default one of the table, or else none. -/
def selectEnvironment (table : EnvironmentTable) : Option String → Except Failure String
  | some name =>
    if table.has name then .ok name else .error (.unknownEnvironment name table.names)
  | none => .ok (table.default?.getD "")

/-- The session of a run. -/
def openSession (fs : FileSystem) : Option String → Except Failure Session
  | some path => (Session.load fs path).mapError .session
  | none => .ok .empty

/-- Saves the session of a run if it has a file. -/
def saveSession (session : Session) (fs : FileSystem) : Except Failure FileSystem :=
  if session.path?.isSome then (session.save fs).mapError .session else .ok fs

/-- Fills in the user inputs of a content. -/
def fillInputs (o : Options) (s : Surroundings) (content : String) (journal : Journal) :
    Except Failure (String × FileSystem) × Journal :=
  if !UserInput.has content then (.ok (content, s.files), journal)
  else
    match openSession s.files o.session? with
    | .error e => (.error e, journal)
    | .ok session =>
      let c := Collection.collect content (o.url?.getD "") s.prompter session journal s.toAscii?
      match saveSession c.session s.files with
      | .error e => (.error e, c.journal)
      | .ok files => (.ok (UserInput.fillRequest content c.values, files), c.journal)

/-- The resolver of a run. -/
def resolver (o : Options) (table : EnvironmentTable) (environment : String) : Resolver :=
  o.assignments.foldl (fun r v => r.declare v.1 v.2)
    ((Resolver.new table environment).withBaseDirectory (baseDirectory o.file))

/-- The warning about a placeholder that is left. -/
def leftOver (expression : String) : String :=
  "unresolved placeholder \x7b\x7b" ++ expression ++ "\x7d\x7d"

/-- Resolves the placeholders of a content. -/
def resolve (o : Options) (s : Surroundings) (r : Resolver) (content : String)
    (journal : Journal) : Except Failure String × Journal :=
  let (text, _, journal) := r.process s content journal
  let left := Template.unresolved text
  if o.strict ∧ left ≠ [] then (.error (.unresolved left), journal)
  else (.ok text, journal.warn (left.map leftOver))

/-! ## The run -/

/-- Does what options ask for. -/
def run (o : Options) (s : Surroundings) : Outcome :=
  match s.files.readText o.file with
  | .error cause => ⟨.error (.unreadable o.file cause), s.files, []⟩
  | .ok content =>
    let (table, warnings) := loadTable s.files (baseDirectory o.file)
    let journal := Journal.warn [] warnings
    match selectEnvironment table o.environment? with
    | .error e => ⟨.error e, s.files, journal⟩
    | .ok environment =>
      match fillInputs o s content journal with
      | (.error e, journal) => ⟨.error e, s.files, journal⟩
      | (.ok (content, files), journal) =>
        let (result, journal) :=
          resolve o { s with files } (resolver o table environment) content journal
        ⟨result, files, journal⟩

/-! ## Files -/

/-- The files that a run looks at before it knows its environment. -/
def firstFiles (o : Options) : List String :=
  let candidates (directory : String) := Configuration.fileNames.map (Path.join directory)
  o.file :: (Configuration.directories 3 (baseDirectory o.file)).flatMap candidates ++
    o.session?.toList

/-- The files that a run looks at when it knows its environment. -/
def settingFiles (o : Options) (fs : FileSystem) : List String :=
  let directory := baseDirectory o.file
  match selectEnvironment (loadTable fs directory).1 o.environment? with
  | .error _ => []
  | .ok environment => (SystemFunction.settingFiles environment).map (Path.join directory)

/-! ## The terminal -/

/-- A line without the line break at its end. -/
def dropLineEnd (line : List Char) : List Char :=
  (line.reverse.dropWhile fun c => c == '\r' || c == '\n').reverse

/-- A user who answers each question with the next line of a text. -/
def terminal (lines : List (List Char)) : Prompter := fun asked _ =>
  match lines[asked]? with
  | some line => .ok (String.ofList (dropLineEnd line))
  | none => .error "no input available"

/-- A question as it is shown. -/
def showPrompt (p : Prompt) : String :=
  (if p.description = "" then p.name else p.description) ++
    (if p.password then " (input is visible): " else ": ")

/-- What the user sees of an event. -/
def showEvent : Event → String
  | .warning text => s!"[WARN] {text}\n"
  | .prompt p => showPrompt p
  | .draw => ""

/-- The events up to the question with a number, which counts from zero. -/
def throughQuestion : (number : Nat) → List Event → List Event
  | _, [] => []
  | 0, .prompt p :: _ => [.prompt p]
  | n + 1, .prompt p :: rest => .prompt p :: throughQuestion n rest
  | n, e :: rest => e :: throughQuestion n rest

/-- What the user sees of a run before the question with a number is answered. -/
def Outcome.remarksBefore (outcome : Outcome) (number : Nat) : String :=
  String.join ((throughQuestion number outcome.journal.reverse).map showEvent)

/-- What the user sees of a run besides the printed text. -/
def Outcome.remarks (outcome : Outcome) : String :=
  String.join (outcome.journal.reverse.map showEvent) ++
    match outcome.result with
    | .ok _ => ""
    | .error e => s!"[ERROR] {e.message}\n"

/-- The text that a run prints. -/
def Outcome.printed (outcome : Outcome) : String :=
  match outcome.result with
  | .ok text => text
  | .error _ => ""

/-- The exit code of a run. -/
def Outcome.code (outcome : Outcome) : Nat :=
  match outcome.result with
  | .ok _ => 0
  | .error _ => 1

/-- The line that tells the version. -/
def versionLine : String := "restfile-resolve 0.2.0\n"

end Stencil.CommandLine
