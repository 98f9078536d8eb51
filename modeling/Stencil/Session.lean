import Stencil.Environment.Codec
import Stencil.FileSystem.Basic
import Stencil.Json.Printer
import Stencil.Scalar

/-!
# Sessions

What users entered, by endpoint and by name. A store may be kept in a file, as a JSON object of
objects of scalars on indented lines; a file that is missing or blank is an empty store.
-/

namespace Stencil

/-- The values entered so far. -/
structure Session where
  /-- The values by endpoint and name. -/
  entries : Dict (Dict Scalar)
  /-- The file of the store. -/
  path? : Option String
  deriving DecidableEq

namespace Session

/-- Why a store cannot be read or written. -/
inductive Error where
  | file (cause : FileSystem.Error)
  | notJson
  /-- The store has no file. -/
  | noPath
  deriving Repr, DecidableEq

/-- The wording of an error; causes that lie outside the store are not said. -/
def Error.message : Error → String
  | .file _ => "session file I/O failed"
  | .notJson => "session file is not valid JSON"
  | .noPath => "session store has no backing file"

/-- The empty store without a file. -/
def empty : Session := ⟨.empty, none⟩

/-- Whether nothing was entered. -/
def isEmpty (session : Session) : Bool := session.entries.isEmpty

/-- The value entered for a name. -/
def value? (session : Session) (endpoint name : String) : Option Scalar := do
  (← session.entries.get? endpoint).get? name

/-- The text of the value entered for a name. -/
def get? (session : Session) (endpoint name : String) : Option String :=
  (session.value? endpoint name).map Scalar.toText

/-- Sets the value of a name. -/
def set (session : Session) (endpoint name : String) (value : Scalar) : Session :=
  let values := (session.entries.get? endpoint).getD .empty
  { session with entries := session.entries.insert endpoint (values.insert name value) }

theorem value?_set (session : Session) (endpoint name e n : String) (value : Scalar) :
    (session.set endpoint name value).value? e n =
      if e = endpoint ∧ n = name then some value else session.value? e n := by
  by_cases he : e = endpoint
  · subst he
    -- The store of the endpoint is the old one, or an empty one, with the name inserted.
    cases hold : session.entries.get? e with
    | none => simp [set, value?, hold]
    | some values => simp [set, value?, hold]
  · simp [set, value?, he]

/-! ## Files -/

/-- The entries of a text. -/
def parse? (content : String) : Option (Dict (Dict Scalar)) := do
  Json.asDict? (Json.asDict? Scalar.ofJson?) (← Json.parse? content)

/-- The text of entries. -/
def render (entries : Dict (Dict Scalar)) : String :=
  String.ofList (entries.toJson (·.toJson Scalar.toJson)).pretty

/-- Opens the store of a file. -/
def load (fs : FileSystem) (path : String) : Except Error Session :=
  match fs.readText path with
  | .error .notFound => .ok ⟨.empty, some path⟩
  | .error cause => .error (.file cause)
  | .ok content =>
    if (Text.trim content.toList).isEmpty then .ok ⟨.empty, some path⟩
    else
      match parse? content with
      | some entries => .ok ⟨entries, some path⟩
      | none => .error .notJson

/-- Writes a store to a file and makes the directories above it. -/
def saveTo (session : Session) (fs : FileSystem) (path : String) : Except Error FileSystem :=
  (fs.provide path (render session.entries).toUTF8).mapError .file

/-- Writes a store to its file. -/
def save (session : Session) (fs : FileSystem) : Except Error FileSystem :=
  match session.path? with
  | none => .error .noPath
  | some path => session.saveTo fs path

end Session

end Stencil
