import Stencil.Dict
import Stencil.Json.Basic

/-!
# Records in JSON documents

A record is written as an object with its fields as members, or as an array of its fields in
order. In an object, members that are no fields are passed over whatever they hold, and no field
may stand twice; in an array, fields at the end may be missing and nothing may follow the last
one. `Json.fields?` gives for each field the document that stands for it.
-/

namespace Stencil.Json

/-- The text of a string document. -/
def asText? : Json → Option String
  | .string literal => text? literal
  | _ => none

/-- The entries of an object, with the texts of its keys. -/
def asMembers? : Json → Option (List (String × Json))
  | .object members => members.mapM fun (key, value) => do pure (← text? key, value)
  | _ => none

/-- The dictionary of an object, each value read by `read`; the last value of a key counts. -/
def asDict? {α : Type} (read : Json → Option α) (j : Json) : Option (Dict α) := do
  let members ← asMembers? j
  let entries ← members.mapM fun (key, value) => do pure (key, ← read value)
  pure (Dict.ofList entries)

/-- The only value under a key, `none` inside if there is no value, nothing if there are two. -/
def only? (key : String) (members : List (String × Json)) : Option (Option Json) :=
  match members.filter fun m => m.1 = key with
  | [] => some none
  | [m] => some (some m.2)
  | _ => none

/-- The documents that stand for the fields of a record. -/
def fields? (names : List String) (j : Json) : Option (List (Option Json)) :=
  match j with
  | .array items =>
    if items.length ≤ names.length then
      some (items.map some ++ List.replicate (names.length - items.length) none)
    else none
  | j => do
    let members ← asMembers? j
    names.mapM fun name => only? name members

end Stencil.Json
