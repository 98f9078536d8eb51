import Stencil.Environment.Table
import Stencil.Json.Parser
import Stencil.Json.Record

/-!
# Environment tables as JSON

A table is written as a record of its environments, its shared entries and, if there is one, the
environment to select. Reading takes every field of the table, and the variables of an
environment, as empty when they are missing.
-/

namespace Stencil

/-- The document of a dictionary, each value written by `write`. -/
def Dict.toJson {α : Type} (write : α → Json) (d : Dict α) : Json :=
  .object (d.toList.map fun (key, value) => Json.member key (write value))

namespace Environment

/-- The document of an environment. -/
def toJson (env : Environment) : Json :=
  .object
    [Json.member "name" (Json.ofText env.name),
      Json.member "variables" (env.entries.toJson Json.ofText)]

/-- The environment of a document. -/
def ofJson? (j : Json) : Option Environment := do
  match ← Json.fields? ["name", "variables"] j with
  | [some name, entries] =>
    let name ← Json.asText? name
    let entries ← entries.elim (some .empty) (Json.asDict? Json.asText?)
    pure ⟨name, entries⟩
  | _ => none

end Environment

namespace EnvironmentTable

/-- The document of a table. -/
def toJson (table : EnvironmentTable) : Json :=
  .object <|
    [Json.member "environments" (table.environments.toJson Environment.toJson),
      Json.member "shared" (table.shared.toJson Json.ofText)] ++
    table.default?.elim [] fun name => [Json.member "default_environment" (Json.ofText name)]

/-- The optional text of a document, absent where the document is null. -/
def optionalText? : Json → Option (Option String)
  | .null => some none
  | j => (Json.asText? j).map some

/-- The table of a document. -/
def ofJson? (j : Json) : Option EnvironmentTable := do
  match ← Json.fields? ["environments", "shared", "default_environment"] j with
  | [environments, shared, default?] =>
    let environments ←
      environments.elim (some .empty) (Json.asDict? Environment.ofJson?)
    let shared ← shared.elim (some .empty) (Json.asDict? Json.asText?)
    let default? ← default?.elim (some none) optionalText?
    pure ⟨environments, shared, default?⟩
  | _ => none

/-- The table of a text. -/
def parse? (text : String) : Option EnvironmentTable := do ofJson? (← Json.parse? text)

end EnvironmentTable

end Stencil
