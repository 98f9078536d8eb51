import Stencil.Dict
import Stencil.Text.Escape
import Stencil.Variable

/-!
# File variables

The variables that a request file declares. A declaration decodes the backslash escapes of its
value; the references in it are left for each use.
-/

namespace Stencil

/-- The declared variables with their values. -/
structure FileVariables where
  values : Dict String
  deriving DecidableEq

namespace FileVariables

/-- No variables. -/
def empty : FileVariables := ⟨.empty⟩

/-- Sets a variable to a value as it is. -/
def insert (vars : FileVariables) (name value : String) : FileVariables :=
  ⟨vars.values.insert name value⟩

/-- Sets a variable to a value whose escapes are decoded. -/
def declare (vars : FileVariables) (name value : String) : FileVariables :=
  vars.insert name (String.ofList (Text.unescape value.toList))

/-- The value of a name. -/
def get? (vars : FileVariables) (name : String) : Option String := vars.values.get? name

/-- Whether a name is declared. -/
def has (vars : FileVariables) (name : String) : Bool := (vars.get? name).isSome

/-- The number of variables. -/
def size (vars : FileVariables) : Nat := vars.values.size

/-- The variable of a name. -/
def get (vars : FileVariables) (name : String) : Except LookupError Variable :=
  match vars.get? name with
  | none => .error (.undefined name)
  | some value => .ok { name, value, kind := .file }

end FileVariables

end Stencil
