import Stencil.Json.Basic

/-!
# Writing JSON documents

`Json.compact` writes a document without blanks, `Json.pretty` with one member or item on a line,
two blanks of indentation for each level, and a blank behind the colons.
-/

namespace Stencil.Json

/-- A string literal between its quotes. -/
def writeLiteral (literal : List Char) : List Char := '"' :: literal ++ ['"']

/-- A truth value. -/
def writeBool (b : Bool) : List Char :=
  if b then ['t', 'r', 'u', 'e'] else ['f', 'a', 'l', 's', 'e']

mutual

/-- A document without blanks. -/
def compact : Json → List Char
  | .null => ['n', 'u', 'l', 'l']
  | .bool b => writeBool b
  | .number literal => literal
  | .string literal => writeLiteral literal
  | .array [] => ['[', ']']
  | .array (item :: items) => '[' :: compact item ++ compactItems items
  | .object [] => ['{', '}']
  | .object ((key, value) :: members) =>
    '{' :: writeLiteral key ++ ':' :: compact value ++ compactMembers members

/-- The items behind the first one, and the end of the array. -/
def compactItems : List Json → List Char
  | [] => [']']
  | item :: items => ',' :: compact item ++ compactItems items

/-- The members behind the first one, and the end of the object. -/
def compactMembers : List (List Char × Json) → List Char
  | [] => ['}']
  | (key, value) :: members =>
    ',' :: writeLiteral key ++ ':' :: compact value ++ compactMembers members

end

/-- A line feed and the indentation of a level. -/
def newline (level : Nat) : List Char := '\n' :: List.replicate (2 * level) ' '

mutual

/-- A document on the lines of a level and the levels below it. -/
def prettyAt (level : Nat) : Json → List Char
  | .null => ['n', 'u', 'l', 'l']
  | .bool b => writeBool b
  | .number literal => literal
  | .string literal => writeLiteral literal
  | .array [] => ['[', ']']
  | .array (item :: items) =>
    '[' :: newline (level + 1) ++ prettyAt (level + 1) item ++ prettyItems level items
  | .object [] => ['{', '}']
  | .object ((key, value) :: members) =>
    '{' :: newline (level + 1) ++ writeLiteral key ++ ':' :: ' ' :: prettyAt (level + 1) value ++
      prettyMembers level members

/-- The items behind the first one, and the end of the array. -/
def prettyItems (level : Nat) : List Json → List Char
  | [] => newline level ++ [']']
  | item :: items =>
    ',' :: newline (level + 1) ++ prettyAt (level + 1) item ++ prettyItems level items

/-- The members behind the first one, and the end of the object. -/
def prettyMembers (level : Nat) : List (List Char × Json) → List Char
  | [] => newline level ++ ['}']
  | (key, value) :: members =>
    ',' :: newline (level + 1) ++ writeLiteral key ++ ':' :: ' ' :: prettyAt (level + 1) value ++
      prettyMembers level members

end

/-- A document on indented lines. -/
def pretty (j : Json) : List Char := prettyAt 0 j

end Stencil.Json
