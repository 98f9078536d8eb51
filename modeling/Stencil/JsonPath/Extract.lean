import Stencil.JsonPath.Basic
import Stencil.JsonPath.Scan

/-!
# Values at JSON paths

`extract` follows a path through a text without parsing it. A field is the first quoted occurrence
of its name, at any depth, that a colon follows; an index counts values between commas. The result
is the value as it is written, without its quotes if it is a string.
-/

namespace Stencil.JsonPath

open Stencil.Text

/-- What follows the colon of the first `quoted` name that has one; the first `skip` characters
belong to an occurrence without a colon. -/
def afterName? (quoted : List Char) : (skip : Nat) → List Char → Option (List Char)
  | _, [] => none
  | skip + 1, _ :: cs => afterName? quoted skip cs
  | 0, c :: cs =>
    match stripPrefix? quoted (c :: cs) with
    | none => afterName? quoted 0 cs
    | some rest =>
      match skipBlanks rest with
      | ':' :: value => some value
      | _ => afterName? quoted (quoted.length - 1) cs

/-- The value of the first member with a name. -/
def field (name cs : List Char) : Except Error (List Char) :=
  match afterName? ('"' :: name ++ ['"']) 0 cs with
  | none => .error (.noField (String.ofList name))
  | some rest =>
    match value? rest with
    | none => .error (.malformedField (String.ofList name))
    | some (value, _) => .ok value

/-- The value at a place among the items of an array whose opening bracket has been read; `name`
and `shown` are the field and the index that an error names. -/
def item (name : String) (shown : Nat) : (index : Nat) → List Char → Except Error (List Char)
  | index, cs =>
    match skipBlanks cs with
    | [] => .error (.outOfBounds shown name)
    | ']' :: _ => .error (.outOfBounds shown name)
    | cs =>
      match value? cs with
      | none => .error (.notArray name)
      | some (value, rest) =>
        match index with
        | 0 => .ok value
        | index + 1 =>
          match skipBlanks rest with
          | ',' :: rest => item name shown index rest
          | ']' :: _ => .error (.outOfBounds shown name)
          | [] => .error (.outOfBounds shown name)
          | _ => .error (.notArray name)

/-- The item of an array at an index; `name` is the field that an error names. -/
def element (name : List Char) (index : Nat) (cs : List Char) : Except Error (List Char) :=
  match skipBlanks cs with
  | '[' :: rest => item (String.ofList name) index index rest
  | _ => .error (.notArray (String.ofList name))

/-- One segment of a path. -/
def step (segment : Segment) (cs : List Char) : Except Error (List Char) := do
  let value ← if segment.field = [] then .ok cs else field segment.field cs
  match segment.index with
  | none => .ok value
  | some index => element segment.field index value

/-- All segments of a path, one after the other. -/
def follow : List Segment → List Char → Except Error (List Char)
  | [], cs => .ok cs
  | segment :: rest, cs => do follow rest (← step segment cs)

/-- A text without the quotes around it, if it has both. -/
def stripQuotes (cs : List Char) : List Char :=
  match cs with
  | '"' :: r => if r.getLast? = some '"' then r.dropLast else cs
  | _ => cs

/-- The value at a path in a text. -/
def extract (body path : String) : Except Error String := do
  let segments ← parse path.toList
  let value ← follow segments (trim body.toList)
  pure (String.ofList (stripQuotes value))

end Stencil.JsonPath
