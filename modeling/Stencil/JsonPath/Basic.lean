import Stencil.Decimal.Integer
import Stencil.Text.Blank
import Stencil.Text.Search

/-!
# JSON paths

A path names a part of a JSON text: after a dollar sign come segments, each a field name with an
optional index behind it, or an index alone. `parse` reads a path, `render` writes one; a path may
be written in several ways (blanks, signs and zeros in an index), and `render` takes the plainest.
-/

namespace Stencil.JsonPath

open Stencil.Text

/-- One step of a path: into a field, unless its name is empty, and then to an index, if any. -/
structure Segment where
  field : List Char
  index : Option Nat
  deriving Repr, DecidableEq

/-- Why a path does not lead to a value. -/
inductive Error where
  /-- A dollar sign is followed by neither a point nor a bracket. -/
  | unsupported (path : String)
  /-- The path does not begin with a dollar sign. -/
  | noRoot (path : String)
  /-- A segment is malformed. -/
  | invalidSegment (segment path : String)
  /-- No member has the name. -/
  | noField (name : String)
  /-- The value of a member is empty or unfinished. -/
  | malformedField (name : String)
  /-- A value with an index behind it is no array. -/
  | notArray (name : String)
  /-- An array has no such item. -/
  | outOfBounds (index : Nat) (name : String)
  deriving Repr, DecidableEq

/-- The wording of an error. -/
def Error.message : Error → String
  | .unsupported path => s!"unsupported path '{path}'"
  | .noRoot path => s!"path '{path}' must start with '$.' or '$['"
  | .invalidSegment segment path => s!"invalid segment '{segment}' in '{path}'"
  | .noField name => s!"field '{name}' not found"
  | .malformedField name => s!"malformed value for field '{name}'"
  | .notArray name => s!"'{name}' is not an array"
  | .outOfBounds index name => s!"index {index} out of bounds for '{name}'"

/-! ## Reading -/

/-- Reads an index behind its opening bracket. -/
def index? (cs : List Char) : Option Nat :=
  match cs.reverse with
  | ']' :: r => Decimal.nat64? (trim r.reverse)
  | _ => none

/-- Reads a segment. -/
def segment? (cs : List Char) : Option Segment :=
  match cutChar? '[' cs with
  | none => if cs = [] ∨ ']' ∈ cs then none else some ⟨cs, none⟩
  | some (field, r) => (index? r).map fun index => ⟨field, some index⟩

/-- Reads the segments between points; `path` is the whole path, for the error. -/
def parseSegments (path : String) : List (List Char) → Except Error (List Segment)
  | [] => .ok []
  | cs :: rest =>
    match segment? cs with
    | none => .error (.invalidSegment (String.ofList cs) path)
    | some segment => (parseSegments path rest).map (segment :: ·)

/-- Reads what follows the dollar sign and, if there is one, the first point. -/
def parseRest (path : String) (cs : List Char) : Except Error (List Segment) :=
  if cs = [] then .ok [] else parseSegments path (splitAtChar '.' cs)

/-- Reads a path. -/
def parse (path : List Char) : Except Error (List Segment) :=
  let path := trim path
  let shown := String.ofList path
  match path with
  | '$' :: '.' :: r => parseRest shown r
  | '$' :: r =>
    if r = [] ∨ r.head? = some '[' then parseRest shown r else .error (.unsupported shown)
  | _ => .error (.noRoot shown)

/-! ## Writing -/

/-- A segment as text. -/
def Segment.render (s : Segment) : List Char :=
  s.field ++ match s.index with
    | none => []
    | some index => '[' :: Nat.toDigits 10 index ++ [']']

/-- A path as text. -/
def render (segments : List Segment) : List Char :=
  '$' :: '.' :: ['.'].intercalate (segments.map Segment.render)

end Stencil.JsonPath
