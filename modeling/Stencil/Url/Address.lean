import Stencil.Decimal.Integer
import Stencil.Text.Percent
import Stencil.Text.Search

/-!
# Internet addresses

Addresses of four bytes and of eight groups of sixteen bits, read in all the spellings in which
they stand in a URL and written in one.
-/

namespace Stencil.Url

open Text

/-! ## Four bytes -/

namespace FourBytes

/-- The value of digits in a base, if all of them are digits of it. -/
def valueIn? (base : Nat) (cs : List Char) : Option Nat :=
  cs.foldlM (fun value c => do
    let d ← Percent.hexValue? c
    if d < base then some (base * value + d) else none) 0

/-- A number in the base that its beginning says: sixteen behind `0x`, eight behind another `0`,
else ten. -/
def number? : List Char → Option Nat
  | [] => none
  | '0' :: 'x' :: r | '0' :: 'X' :: r => valueIn? 16 r
  | '0' :: c :: r => valueIn? 8 (c :: r)
  | cs => valueIn? 10 cs

/-- The parts of a name between points; a point at the end ends the last one. -/
def parts (cs : List Char) : List (List Char) :=
  let parts := splitAtChar '.' cs
  if parts.getLast? = some [] then parts.dropLast else parts

/-- Whether the last part of a name is a number, so that the name must be an address. -/
def isMeant (cs : List Char) : Bool :=
  match (parts cs).getLast? with
  | none => false
  | some last => !last.isEmpty && (last.all Char.isDigit || (number? last).isSome)

/-- The address of some numbers, of which the last fills the bytes that the others leave. -/
def ofNumbers? (numbers : List Nat) : Option Nat :=
  match numbers.reverse with
  | [] => none
  | last :: front =>
    let room := Nat.pow 256 (4 - front.length)
    if 3 < front.length ∨ room ≤ last ∨ front.any (255 < ·) then none
    else some (front.reverse.foldl (fun a n => 256 * a + n) 0 * room + last)

/-- The address that a name is. -/
def parse? (cs : List Char) : Option Nat := do ofNumbers? (← (parts cs).mapM number?)

/-- The four bytes of an address with points between them. -/
def write (a : Nat) : List Char :=
  ['.'].intercalate
    ([a / 16777216 % 256, a / 65536 % 256, a / 256 % 256, a % 256].map (Nat.toDigits 10))

/-- A byte in decimal, without zeros in front. -/
def byte? (cs : List Char) : Option Nat := do
  if cs.isEmpty || (1 < cs.length && cs.head? == some '0') then none
  let n ← valueIn? 10 cs
  if n < 256 then some n else none

/-- Four bytes in decimal with points between them, as two groups. -/
def groups? (cs : List Char) : Option (List Nat) := do
  match ← (splitAtChar '.' cs).mapM byte? with
  | [a, b, c, d] => some [256 * a + b, 256 * c + d]
  | _ => none

end FourBytes

/-! ## Eight groups -/

namespace EightGroups

/-- A group of one to four hexadecimal digits. -/
def group? (cs : List Char) : Option Nat :=
  if cs = [] ∨ 4 < cs.length then none else FourBytes.valueIn? 16 cs

/-- Groups with colons between them, of which the last may be an address of four bytes. -/
def groups? : List (List Char) → Option (List Nat)
  | [] => some []
  | [last] => ((group? last).map fun n => [n]).or (FourBytes.groups? last)
  | g :: rest => do pure ((← group? g) :: (← groups? rest))

/-- The groups of a part of an address that may be empty. -/
def side? (cs : List Char) : Option (List Nat) :=
  if cs = [] then some [] else groups? (splitAtChar ':' cs)

/-- An address: eight groups, or fewer with two colons for the zeros between them. -/
def parse? (cs : List Char) : Option (List Nat) :=
  match cut? [':', ':'] cs with
  | some (front, back) => do
    let front ← if front.contains '.' then none else side? front
    let back ← side? back
    if 7 < front.length + back.length then none
    else some (front ++ List.replicate (8 - front.length - back.length) 0 ++ back)
  | none => do
    let groups ← side? cs
    if groups.length = 8 then some groups else none

/-- How many groups in front are zero. -/
def zeros (groups : List Nat) : Nat := (groups.takeWhile (· = 0)).length

/-- The place and the length of the longest run of zeros, the first of several. -/
def longest : (place : Nat) → List Nat → Nat × Nat
  | place, [] => (place, 0)
  | place, g :: rest =>
    let later := longest (place + 1) rest
    let here := zeros (g :: rest)
    if later.2 ≤ here then (place, here) else later

/-- Groups in hexadecimal with colons between them. -/
def writeSide (groups : List Nat) : List Char := [':'].intercalate (groups.map (Nat.toDigits 16))

/-- An address, where two colons stand for the longest run of zeros unless it is a single one. -/
def write (groups : List Nat) : List Char :=
  let (place, length) := longest 0 groups
  if length < 2 then writeSide groups
  else writeSide (groups.take place) ++ ':' :: ':' :: writeSide (groups.drop (place + length))

end EightGroups

end Stencil.Url
