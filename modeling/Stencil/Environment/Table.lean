import Stencil.Dict

/-!
# Environment tables

A table holds named environments and shared entries. Seen from an environment, its own entries
hide the shared ones; seen from no environment, which is the empty name, there are the shared ones
alone. An environment that is added under the name `$shared` becomes the shared entries.
-/

namespace Stencil

/-- A named set of variables. -/
structure Environment where
  name : String
  entries : Dict String
  deriving DecidableEq

/-- The configured environments and the shared entries. -/
structure EnvironmentTable where
  /-- The environments by their keys. -/
  environments : Dict Environment
  /-- Entries seen from every environment. -/
  shared : Dict String
  /-- The environment that is selected where none is asked for. -/
  default? : Option String
  deriving DecidableEq

namespace EnvironmentTable

/-- The name under which the shared entries are an environment. -/
def sharedName : String := "$shared"

/-- The table without environments and entries. -/
def empty : EnvironmentTable := ⟨.empty, .empty, none⟩

/-- Adds an environment under its name, in place of the one that had it. -/
def add (table : EnvironmentTable) (env : Environment) : EnvironmentTable :=
  if env.name = sharedName then { table with shared := env.entries }
  else { table with environments := table.environments.insert env.name env }

/-- Sets a shared entry. -/
def setShared (table : EnvironmentTable) (key value : String) : EnvironmentTable :=
  { table with shared := table.shared.insert key value }

/-- Whether a name is that of an environment. -/
def has (table : EnvironmentTable) (name : String) : Bool :=
  name == sharedName || table.environments.contains name

/-- An entry of an environment itself. -/
def own? (table : EnvironmentTable) (name key : String) : Option String := do
  (← table.environments.get? name).entries.get? key

/-- A shared entry. -/
def shared? (table : EnvironmentTable) (key : String) : Option String := table.shared.get? key

/-- An entry as seen from an environment. -/
def get? (table : EnvironmentTable) (name key : String) : Option String :=
  if name = "" then table.shared? key
  else (table.own? name key).or (table.shared? key)

/-- The names of the environments in order. -/
def names (table : EnvironmentTable) : List String := table.environments.keys

end EnvironmentTable

end Stencil
