import Stencil.Environment.Table
import Stencil.Variable

/-!
# Scopes

A scope is a table seen from a selected environment. A variable that a scope finds carries a
remark when the selected environment is not in the table, for then it is a shared entry.
-/

namespace Stencil

/-- A table seen from an environment; the empty name selects none. -/
structure EnvironmentScope where
  table : EnvironmentTable
  current : String

namespace EnvironmentScope

/-- The value of a name. -/
def lookup? (scope : EnvironmentScope) (name : String) : Option String :=
  scope.table.get? scope.current name

/-- The value of a name as seen from an environment of a table. -/
def resolve? (name : String) (table : EnvironmentTable) (current : String) : Option String :=
  EnvironmentScope.lookup? ⟨table, current⟩ name

/-- Whether a name has a value. -/
def has (scope : EnvironmentScope) (name : String) : Bool := (scope.lookup? name).isSome

/-- Whether an environment is selected that is not in the table. -/
def isUnknown (scope : EnvironmentScope) : Bool :=
  scope.current != "" && !scope.table.has scope.current

/-- The remark on values found from an environment that is not in the table. -/
def remark (scope : EnvironmentScope) : Option String :=
  if scope.isUnknown then
    some s!"environment '{scope.current}' is not defined; value taken from $shared"
  else none

/-- The variable of a name. -/
def get (scope : EnvironmentScope) (name : String) : Except LookupError Variable :=
  match scope.lookup? name with
  | none => .error (.undefined name)
  | some value => .ok ⟨name, value, .environment, scope.remark⟩

end EnvironmentScope

end Stencil
