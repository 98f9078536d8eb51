import Stencil.Decimal.Layout
import Stencil.Json.Basic

/-!
# Scalars

Loosely typed values: nothing, truth values, numbers of the binary64 format and texts. Templates
need only their texts: `Scalar.text` writes a whole number below 10^15 as an integer, any other
number with its shortest decimals, and nothing as the empty text.
-/

namespace Stencil

/-- A scalar value. -/
inductive Scalar where
  | null
  | bool (b : Bool)
  | number (x : Binary64)
  | text (s : String)
  deriving DecidableEq

namespace Scalar

/-- Whether a number is whole. -/
def isWhole (x : Binary64) : Bool := x.units % Binary64.unitsPerOne == 0

/-- The whole part of a number without its sign. -/
def wholePart (x : Binary64) : Nat := x.units / Binary64.unitsPerOne

/-- The text of a number. -/
def numberText (x : Binary64) : String :=
  if isWhole x ∧ wholePart x < 1000000000000000 then
    let n : Int := wholePart x
    Decimal.ofInt (if x.negative then -n else n)
  else String.ofList (Layout.plain.write x)

/-- The text of a scalar. -/
def toText : Scalar → String
  | .null => ""
  | .bool true => "true"
  | .bool false => "false"
  | .number x => numberText x
  | .text s => s

/-- The scalar of a document; arrays and objects have none. -/
def ofJson? : Json → Option Scalar
  | .null => some .null
  | .bool b => some (.bool b)
  | .number literal => (Json.binary64? literal).map .number
  | .string literal => (Json.text? literal).map .text
  | .array _ => none
  | .object _ => none

/-- The document of a scalar. -/
def toJson : Scalar → Json
  | .null => .null
  | .bool b => .bool b
  | .number x => .number (Layout.json.write x)
  | .text s => Json.ofText s

end Scalar

end Stencil
