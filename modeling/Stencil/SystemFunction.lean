import Stencil.Arguments
import Stencil.Calendar.Pattern
import Stencil.Calendar.Shift
import Stencil.Dotenv
import Stencil.Environment.Scope
import Stencil.Response
import Stencil.Surroundings

/-!
# System functions

The functions that an expression with a dollar sign in front calls: identifiers, the time, random
integers, process variables, settings of a file, and questions to the user. A function takes its
arguments as texts and asks the surroundings; it gives a variable or the reason why there is none.
-/

namespace Stencil

open Text

/-- A system function. -/
inductive SystemFunction where
  | guid
  | uuid
  | timestamp
  | datetime
  | localDatetime
  | randomInt
  | processEnv
  | dotenv
  | prompt
  deriving Repr, DecidableEq

/-- What system functions know of the run besides its surroundings. -/
structure SystemContext where
  scope : EnvironmentScope
  /-- The directory of the settings files, if it is not the current one. -/
  baseDirectory : Option String

namespace SystemFunction

/-- All system functions. -/
def all : List SystemFunction :=
  [.guid, .uuid, .timestamp, .datetime, .localDatetime, .randomInt, .processEnv, .dotenv, .prompt]

/-- The name of a function, without the dollar sign. -/
def name : SystemFunction → String
  | .guid => "guid"
  | .uuid => "uuid"
  | .timestamp => "timestamp"
  | .datetime => "datetime"
  | .localDatetime => "localDatetime"
  | .randomInt => "randomInt"
  | .processEnv => "processEnv"
  | .dotenv => "dotenv"
  | .prompt => "prompt"

/-- The function with a name. -/
def ofName? (name : String) : Option SystemFunction := all.find? fun f => f.name = name

/-! ## Identifiers and random integers -/

/-- The lowest `digits` hexadecimal digits of a number. -/
def hexDigits : (digits n : Nat) → List Char
  | 0, _ => []
  | digits + 1, n => hexDigits digits (n / 16) ++ [Json.Quoted.hexDigit (n % 16)]

/-- A random identifier of version four from the bits of a number. -/
def identifier (bits : Nat) : String :=
  String.ofList <|
    hexDigits 8 bits ++ '-' :: hexDigits 4 (bits >>> 32) ++ '-' :: '4' ::
      hexDigits 3 (bits >>> 48) ++ '-' :: hexDigits 1 (8 + (bits >>> 60) % 4) ++
      hexDigits 3 (bits >>> 62) ++ '-' :: hexDigits 12 (bits >>> 74)

/-- The bounds of a random integer. -/
def randomBounds (args : List String) : Except SyntaxFault (Int × Int) :=
  match args with
  | [min, max] =>
    match Decimal.int64? min.toList with
    | none => .error (.randomMin min)
    | some low =>
      match Decimal.int64? max.toList with
      | none => .error (.randomMax max)
      | some high => if high ≤ low then .error (.randomEmpty low high) else .ok (low, high)
  | _ => .error .noRandomBounds

/-- The integer from `low` to below `high` that a random number stands for. -/
def randomBetween (low high : Int) (n : Nat) : Int := low + (n : Int) % (high - low)

/-! ## Time -/

/-- An instant moved by an amount and a unit. -/
def shifted (zone : Int) (t : Instant) (args : List String) : Except OffsetFault Instant :=
  match args with
  | [amount, unit] =>
    match Decimal.int64? amount.toList with
    | none => .error (.amount amount)
    | some n =>
      match TimeUnit.ofText? unit with
      | none => .error (.unit unit)
      | some u =>
        match t.shift? zone (Int64.ofInt n) u with
        | none => .error (.range n unit)
        | some t => .ok t
  | _ => .error (.shape (" ".intercalate args))

/-- An instant, moved if there are arguments. -/
def shiftedIfAny (zone : Int) (t : Instant) (args : List String) : Except LookupError Instant :=
  if args = [] then .ok t else (shifted zone t args).mapError .invalidOffset

/-- The seconds since the beginning of 1970 of the time, moved if there are arguments. -/
def timestampText (s : Surroundings) (args : List String) : Except LookupError String := do
  pure (Decimal.ofInt (← shiftedIfAny 0 s.now args).seconds)

/-- The time in a zone in the form that the first argument names, moved by the others. -/
def datetimeText (s : Surroundings) (zone : Int) (universal : Bool) (args : List String) :
    Except LookupError String :=
  match args with
  | [] => .error (.invalidSyntax .noDateFormat)
  | form :: offset => do
    let t ← shiftedIfAny zone s.now offset
    pure (Calendar.format ⟨t, zone⟩ universal form)

/-! ## Process variables and settings -/

/-- The name of the process variable that is asked for; behind a percent sign it is the value of a
name in the environments. -/
def processName (ctx : SystemContext) (requested : String) : Except LookupError String :=
  match requested.toList with
  | '%' :: r =>
    match ctx.scope.lookup? (String.ofList r) with
    | some name => .ok name
    | none => .error (.undefined (String.ofList r))
  | _ => .ok requested

/-- The value of a process variable. -/
def processText (ctx : SystemContext) (s : Surroundings) (args : List String) :
    Except LookupError String :=
  match args with
  | [] => .error (.invalidSyntax .noProcessName)
  | requested :: _ => do
    let name ← processName ctx requested
    match s.process name with
    | some value => pure value
    | none => .error (.noProcessVariable name)

/-- The settings files of an environment, the preferred one first. -/
def settingFiles (current : String) : List String :=
  if current = "" then [".env"] else [s!".env.{current}", ".env"]

/-- The path of a settings file. -/
def settingPath (ctx : SystemContext) (name : String) : String :=
  ctx.baseDirectory.elim name fun directory => Path.join directory name

/-- The value of a setting, and the warnings that reading the file gives. -/
def settingText (ctx : SystemContext) (s : Surroundings) (args : List String) :
    Except LookupError String × List String :=
  match args with
  | [] => (.error (.invalidSyntax .noSettingName), [])
  | key :: _ =>
    let directory := ctx.baseDirectory.getD s.directory
    let file? := (settingFiles ctx.scope.current).find? fun name =>
      s.files.isFile (settingPath ctx name)
    match file? with
    | none => (.error (.setting (.noFile directory)), [])
    | some name =>
      let shown := Path.join directory name
      match s.files.readText (settingPath ctx name) with
      | .error cause => (.error (.setting (.unreadable shown cause)), [])
      | .ok content =>
        let settings := Dotenv.read content
        let value := match settings.values.get? key with
          | some value => .ok value
          | none => .error (.setting (.noKey key shown))
        (value, settings.invalid.map fun (n, line) => s!"ignoring invalid .env line {n}: {line}")

/-! ## Questions -/

/-- The names of questions whose answers should not be shown. -/
def passwordNames : List String := ["password", "passwd", "pass", "secret"]

/-- The question that arguments ask. -/
def question (name : String) (description : List String) : Prompt :=
  ⟨name, " ".intercalate description, passwordNames.any (Response.sameName name)⟩

/-- The answer of the user. -/
def answer (s : Surroundings) (args : List String) (journal : Journal) :
    Except LookupError Variable × Journal :=
  match args with
  | [] => (.error (.invalidSyntax .noPromptName), journal)
  | name :: description =>
    match s.prompter with
    | none => (.error (.prompt "no prompt handler configured"), journal)
    | some prompter =>
      let (result, journal) := Surroundings.ask prompter (question name description) journal
      match result with
      | .ok value => (.ok { name, value, kind := .prompt }, journal)
      | .error text => (.error (.prompt text), journal)

/-! ## Calls -/

/-- The variable of a system function. -/
def toVariable (f : SystemFunction) (value : String) : Variable :=
  { name := "$" ++ f.name, value, kind := .system }

/-- Calls a function. -/
def apply (f : SystemFunction) (ctx : SystemContext) (s : Surroundings) (args : List String)
    (journal : Journal) : Except LookupError Variable × Journal :=
  match f with
  | .guid | .uuid =>
    let (bits, journal) := s.draw journal
    (.ok (f.toVariable (identifier bits)), journal)
  | .timestamp => ((timestampText s args).map f.toVariable, journal)
  | .datetime => ((datetimeText s 0 true args).map f.toVariable, journal)
  | .localDatetime => ((datetimeText s s.zone false args).map f.toVariable, journal)
  | .randomInt =>
    match randomBounds args with
    | .error fault => (.error (.invalidSyntax fault), journal)
    | .ok (low, high) =>
      let (n, journal) := s.draw journal
      (.ok (f.toVariable (Decimal.ofInt (randomBetween low high n))), journal)
  | .processEnv => ((processText ctx s args).map f.toVariable, journal)
  | .dotenv =>
    let (value, warnings) := settingText ctx s args
    (value.map f.toVariable, journal.warn warnings)
  | .prompt => answer s args journal

/-- Calls the function with a name. -/
def applyNamed (ctx : SystemContext) (s : Surroundings) (name : String) (args : List String)
    (journal : Journal) : Except LookupError Variable × Journal :=
  match ofName? name with
  | some f => f.apply ctx s args journal
  | none => (.error (.undefined ("$" ++ name)), journal)

/-- Evaluates an expression: a name with a dollar sign in front, and arguments. -/
def call (ctx : SystemContext) (s : Surroundings) (expression : String) (journal : Journal) :
    Except LookupError Variable × Journal :=
  match Arguments.split expression with
  | [] => (.error (.invalidSyntax .emptyCall), journal)
  | name :: args =>
    match name.toList with
    | '$' :: r => applyNamed ctx s (String.ofList r) args journal
    | _ => (.error (.invalidSyntax (.noDollar name)), journal)

/-- Whether the first word of an expression is a dollar sign and the name of a function. -/
def has (expression : String) : Bool :=
  match firstWord? expression.toList with
  | some ('$' :: r) => (ofName? (String.ofList r)).isSome
  | _ => false

end SystemFunction

end Stencil
