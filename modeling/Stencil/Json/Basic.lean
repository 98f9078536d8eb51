import Stencil.Json.Number
import Stencil.Json.Quoted

/-!
# JSON documents

A document is kept as it was written, less the blanks between its tokens: numbers and strings are
literals, an object is the list of its members in order, repeated keys included. What a literal
means is asked of `Number` and `Quoted`. `admissible` says which documents have a value: none of
their numbers is read beyond binary64, their strings hold no lone surrogates, and they nest at most
127 deep.
-/

namespace Stencil

/-- A JSON document. -/
inductive Json where
  | null
  | bool (b : Bool)
  /-- A number by its literal. -/
  | number (literal : List Char)
  /-- A string by the literal between its quotes. -/
  | string (literal : List Char)
  | array (items : List Json)
  /-- An object by its members, each with the literal of its key. -/
  | object (members : List (List Char × Json))
  deriving Repr, Inhabited

namespace Json

/-- The string document of a text. -/
def ofText (s : String) : Json := .string (Quoted.quote s.toList)

/-- The member that gives `value` under `key`. -/
def member (key : String) (value : Json) : List Char × Json := (Quoted.quote key.toList, value)

/-- The deepest nesting of a document that has a value. -/
def depthLimit : Nat := 127

/-- The text of a string literal. -/
def text? (literal : List Char) : Option String := (Quoted.unquote? literal).map String.ofList

/-- The binary64 number that a number literal is read as. -/
def binary64? (literal : List Char) : Option Binary64 := do
  (← Number.ofLiteral? literal).toBinary64?

/-- Whether a document nested at most `depth` deep has a value. -/
def admissibleWithin : (depth : Nat) → Json → Bool
  | _, .null => true
  | _, .bool _ => true
  | _, .number literal => (binary64? literal).isSome
  | _, .string literal => (text? literal).isSome
  | 0, .array _ => false
  | depth + 1, .array items => items.all (admissibleWithin depth)
  | 0, .object _ => false
  | depth + 1, .object members =>
    members.all fun (key, value) => (text? key).isSome && admissibleWithin depth value

/-- Whether a document has a value. -/
def admissible (j : Json) : Bool := j.admissibleWithin depthLimit

end Json

end Stencil
