import Stencil.JsonPath.Extract

/-!
# Scanning octets

A body is a sequence of UTF-8 octets, and it can be scanned without decoding it: a value is then a
range of offsets, and the text of the value is the part of the body in that range. Nothing in such
a scan knows where characters begin, so it has ways to fail that a scan of characters has not:
`Failure` names them. Every look-up in a body can be traced here octet by octet.
-/

namespace Stencil.JsonPath.Octets

open Text

/-- The octets of a text. -/
def octets (text : String) : List UInt8 := text.toUTF8.data.toList

/-- What ends an extraction without a value. -/
inductive Failure where
  /-- A bracket is closed while none is open. -/
  | depthBelowZero
  /-- A range is no part of a text: its ends are in the wrong order, or one of them is inside a
  character or behind the end. -/
  | noPart (start stop : Nat)
  /-- The path does not lead to a value. -/
  | error (e : Error)
  deriving Repr, DecidableEq

/-- Whether an octet is that of an ASCII character. -/
def is (c : Char) (b : UInt8) : Bool := b == c.toUInt8

/-- The octets of ASCII blanks. -/
def isBlank (b : UInt8) : Bool := is ' ' b || is '\t' b || is '\n' b || is '\x0c' b || is '\r' b

/-- The octets that end a value without brackets and quotes. -/
def endsWord (b : UInt8) : Bool := is ',' b || is '}' b || is ']' b || isBlank b

/-! ## Values -/

/-- The first offset from `i` on where no blank stands. -/
def skipBlanks (bytes : List UInt8) (i : Nat) : Nat :=
  i + ((bytes.drop i).takeWhile isBlank).length

/-- The offset behind the quote that closes a string; `i` is an offset in the string. A backslash
and the octet behind it belong together, even if that octet only begins a character. -/
def stringEnd? (bytes : List UInt8) (i : Nat) : Option Nat :=
  if _h : i < bytes.length then
    if is '\\' bytes[i] then stringEnd? bytes (i + 2)
    else if is '"' bytes[i] then some (i + 1)
    else stringEnd? bytes (i + 1)
  else none
termination_by bytes.length - i

/-- A string ends behind its octets. -/
theorem lt_of_stringEnd? {bytes : List UInt8} {i j : Nat} (h : stringEnd? bytes i = some j) :
    i < j ∧ j ≤ bytes.length := by
  fun_induction stringEnd? bytes i with
  | case1 i hi hescape ih =>
    have := ih h
    omega
  | case2 i hi hescape hquote =>
    cases h
    omega
  | case3 i hi hescape hquote ih =>
    have := ih h
    omega
  | case4 => cases h

/-- The offset behind the bracket that closes a container, where `depth` brackets are open at `i`.
Only brackets of the one kind count, and those in strings do not. -/
def containerEnd? (opening closing : Char) (bytes : List UInt8) (depth i : Nat) :
    Except Failure (Option Nat) :=
  if _h : i < bytes.length then
    if is '"' bytes[i] then
      match hj : stringEnd? bytes (i + 1) with
      | none => .ok none
      | some j =>
        have := lt_of_stringEnd? hj
        containerEnd? opening closing bytes depth j
    else if is opening bytes[i] then containerEnd? opening closing bytes (depth + 1) (i + 1)
    else if is closing bytes[i] then
      match depth with
      | 0 => .error .depthBelowZero
      | 1 => .ok (some (i + 1))
      | depth + 2 => containerEnd? opening closing bytes (depth + 1) (i + 1)
    else containerEnd? opening closing bytes depth (i + 1)
  else .ok none
termination_by bytes.length - i

/-- The range of the value at an offset; blanks may stand before it. -/
def value? (bytes : List UInt8) (i : Nat) : Except Failure (Option (Nat × Nat)) :=
  let start := skipBlanks bytes i
  match bytes[start]? with
  | none => .ok none
  | some b =>
    if is '"' b then .ok ((stringEnd? bytes (start + 1)).map (start, ·))
    else if is '{' b then
      (containerEnd? '{' '}' bytes 0 start).map (Option.map (start, ·))
    else if is '[' b then
      (containerEnd? '[' ']' bytes 0 start).map (Option.map (start, ·))
    else
      let stop := start + ((bytes.drop start).takeWhile fun b => !endsWord b).length
      .ok (if start < stop then some (start, stop) else none)

/-! ## Fields and items -/

/-- The offsets where `mark` occurs, from left to right and without overlaps. `bytes` are the octets
from `i` on, and the first `skip` of them belong to an occurrence. -/
def occurrences (mark : List UInt8) : (skip i : Nat) → (bytes : List UInt8) → List Nat
  | _, _, [] => []
  | skip + 1, i, _ :: bytes => occurrences mark skip (i + 1) bytes
  | 0, i, b :: bytes =>
    if mark.isPrefixOf (b :: bytes) then i :: occurrences mark (mark.length - 1) (i + 1) bytes
    else occurrences mark 0 (i + 1) bytes

/-- The offset of the colon behind the first of some occurrences of a quoted name that has one. -/
def colonBehind? (bytes quoted : List UInt8) (offsets : List Nat) : Option Nat :=
  (offsets.map fun i => skipBlanks bytes (i + quoted.length)).find?
    fun i => (bytes[i]?).any (is ':')

/-- The offset of the colon behind the first occurrence of a quoted name that has one. -/
def colon? (text name : String) : Option Nat :=
  let quoted := octets ("\"" ++ name ++ "\"")
  colonBehind? (octets text) quoted (occurrences quoted 0 0 (octets text))

/-- The range of the value of the first member with a name. -/
def field (text name : String) : Except Failure (Nat × Nat) := do
  match colon? text name with
  | none => throw (.error (.noField name))
  | some i =>
    match ← value? (octets text) (i + 1) with
    | none => throw (.error (.malformedField name))
    | some range => pure range

/-- The range of the item of an array at an offset; `name` and `shown` are for the error. -/
def itemAt (name : String) (shown : Nat) (bytes : List UInt8) (i : Nat) :
    Except Failure (Nat × Nat) := do
  let start := skipBlanks bytes i
  if (bytes[start]?).all (is ']') then throw (.error (.outOfBounds shown name))
  match ← value? bytes start with
  | none => throw (.error (.notArray name))
  | some range => pure range

/-- The offset behind the comma that follows an item. -/
def behindComma (name : String) (shown : Nat) (bytes : List UInt8) (stop : Nat) :
    Except Failure Nat :=
  let i := skipBlanks bytes stop
  if (bytes[i]?).any (is ',') then .ok (i + 1)
  else if (bytes[i]?).all (is ']') then .error (.error (.outOfBounds shown name))
  else .error (.error (.notArray name))

/-- The range of the item at an index among those from an offset on. -/
def item (name : String) (shown : Nat) (bytes : List UInt8) :
    (index i : Nat) → Except Failure (Nat × Nat)
  | 0, i => itemAt name shown bytes i
  | index + 1, i => do
    let (_, stop) ← itemAt name shown bytes i
    item name shown bytes index (← behindComma name shown bytes stop)

/-- The range of the item of an array at an index; `name` is the field that an error names. -/
def element (text name : String) (index : Nat) : Except Failure (Nat × Nat) :=
  let bytes := octets text
  let i := skipBlanks bytes 0
  if (bytes[i]?).any (is '[') then item name index bytes index (i + 1)
  else .error (.error (.notArray name))

/-! ## Extraction -/

/-- The part of a text in a range. -/
def part (text : String) (range : Nat × Nat) : Except Failure String :=
  if h : String.Pos.Raw.IsValid text ⟨range.1⟩ ∧ String.Pos.Raw.IsValid text ⟨range.2⟩ ∧
      range.1 ≤ range.2 then
    .ok (text.slice ⟨⟨range.1⟩, h.1⟩ ⟨⟨range.2⟩, h.2.1⟩ h.2.2).copy
  else .error (.noPart range.1 range.2)

/-- The part of a text that a segment leads to with its index, if it has one. -/
def atIndex (name : String) : Option Nat → String → Except Failure String
  | none, text => pure text
  | some index, text => do part text (← element text name index)

/-- One segment of a path. -/
def step (segment : Segment) (text : String) : Except Failure String := do
  let name := String.ofList segment.field
  let text ← if segment.field = [] then pure text else part text (← field text name)
  atIndex name segment.index text

/-- All segments of a path, one after the other. -/
def follow : List Segment → String → Except Failure String
  | [], text => pure text
  | segment :: rest, text => do follow rest (← step segment text)

/-- A text without the quotes around it, if it has both. -/
def stripQuotes (text : String) : Except Failure String :=
  let bytes := octets text
  if 2 ≤ bytes.length ∧ bytes.head?.any (is '"') ∧ bytes.getLast?.any (is '"') then
    part text (1, bytes.length - 1)
  else pure text

/-- The value at a path in a text. -/
def extract (body path : String) : Except Failure String := do
  let segments ← (parse path.toList).mapError .error
  stripQuotes (← follow segments (trimText body))

end Stencil.JsonPath.Octets
