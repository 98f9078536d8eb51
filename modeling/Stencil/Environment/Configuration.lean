import Stencil.Environment.Table
import Stencil.FileSystem.Basic
import Stencil.Json.Parser
import Stencil.Json.Record
import Stencil.Scalar

/-!
# Configuration files

A configuration file is a JSON object whose members are environments, each an object of scalars.
The members `$shared` and `shared` are the shared entries, `$default` names the environment to
select. The file is looked for in a directory and the three above it; the nearest directory that
has one decides.
-/

namespace Stencil.Configuration

/-- What is wrong with the content of a configuration file. -/
inductive Fault where
  | rootNotObject
  | environmentName (name : String)
  | notObject (name : String)
  | notScalar (key name : String)
  /-- The environment to select is not among the others. -/
  | noDefault (name : String)
  deriving Repr, DecidableEq

/-- Why there is no table. -/
inductive Error where
  | notJson
  | invalid (fault : Fault)
  | unreadable (cause : FileSystem.Error)
  deriving Repr, DecidableEq

/-- The wording of a fault. -/
def Fault.message : Fault → String
  | .rootNotObject => "root must be a JSON object"
  | .environmentName name =>
    s!"invalid environment name '{name}': names must be alphanumeric with underscores/hyphens"
  | .notObject name => s!"'{name}' must be a JSON object"
  | .notScalar key name =>
    s!"variable '{key}' in '{name}' must be a string, number, boolean or null"
  | .noDefault name => s!"default environment '{name}' does not exist"

/-- The wording of an error; what is wrong with a text that is no JSON is not said. -/
def Error.message : Error → String
  | .notJson => "failed to parse environment file"
  | .invalid fault => s!"invalid environment format: {fault.message}"
  | .unreadable cause => s!"IO error: {cause.message}"

/-! ## Content -/

/-- Whether a name may be that of an environment: a letter or an underscore, then letters, digits,
underscores and hyphens, and not the name of the shared entries. -/
def isName (name : String) : Bool :=
  name != "shared" &&
    match name.toList with
    | [] => false
    | c :: r =>
      (c.isAlpha || c == '_') && r.all fun d => d.isAlphanum || d == '_' || d == '-'

/-- The entries of a variable map in order of their keys, with their texts. -/
def readEntries (name : String) : List (String × Json) → Except Fault (List (String × String))
  | [] => .ok []
  | (key, value) :: rest =>
    match Scalar.ofJson? value with
    | none => .error (.notScalar key name)
    | some s => do pure ((key, s.toText) :: (← readEntries name rest))

/-- The variables of an environment. -/
def readVariables (name : String) (j : Json) : Except Fault (Dict String) :=
  match Json.asDict? some j with
  | none => .error (.notObject name)
  | some members => (readEntries name members.toList).map Dict.ofList

/-- One member of the root. -/
def readMember (table : EnvironmentTable) (key : String) (value : Json) :
    Except Fault EnvironmentTable :=
  if key = EnvironmentTable.sharedName ∨ key = "shared" then do
    pure { table with shared := ← readVariables EnvironmentTable.sharedName value }
  else if key = "$default" then .ok { table with default? := Json.asText? value }
  else if !isName key then .error (.environmentName key)
  else do pure (table.add ⟨key, ← readVariables key value⟩)

/-- The members of the root, one after the other. -/
def readMembers (table : EnvironmentTable) : List (String × Json) → Except Fault EnvironmentTable
  | [] => .ok table
  | (key, value) :: rest => do readMembers (← readMember table key value) rest

/-- The table of a document; its members are read in the order of their keys. -/
def ofJson (j : Json) : Except Fault EnvironmentTable :=
  match Json.asDict? some j with
  | none => .error .rootNotObject
  | some members => do
    let table ← readMembers .empty members.toList
    match table.default? with
    | some name =>
      if table.environments.contains name then .ok table else .error (.noDefault name)
    | none => .ok table

/-- The table of a text. -/
def parse (content : String) : Except Error EnvironmentTable :=
  match Json.parseValue? content with
  | none => .error .notJson
  | some j =>
    match ofJson j with
    | .error fault => .error (.invalid fault)
    | .ok table => .ok table

/-! ## Files -/

/-- The names of configuration files, the preferred one first. -/
def fileNames : List String := [".http-client-env.json", "http-client.env.json"]

/-- The table of a file. -/
def loadFile (fs : FileSystem) (path : String) : Except Error EnvironmentTable :=
  match fs.readText path with
  | .error cause => .error (.unreadable cause)
  | .ok content => parse content

/-- The configuration file of a directory itself. -/
def fileIn? (fs : FileSystem) (directory : String) : Option String :=
  (fileNames.map (Path.join directory)).find? fs.isFile

/-- A directory and at most `more` directories above it. -/
def directories : (more : Nat) → String → List String
  | 0, directory => [directory]
  | more + 1, directory =>
    directory :: (Path.parent? directory).elim [] (directories more)

/-- The nearest configuration file of a directory. -/
def find? (fs : FileSystem) (start : String) : Option String :=
  (directories 3 start).findSome? (fileIn? fs)

/-- The table for requests in a directory, empty if there is no configuration file. -/
def load (fs : FileSystem) (start : String) : Except Error EnvironmentTable :=
  match find? fs start with
  | none => .ok .empty
  | some path => loadFile fs path

end Stencil.Configuration
