import Stencil.Decimal.Binary64
import Stencil.Decimal.Integer

/-!
# Number literals

The literals of JSON numbers: an optional minus sign, a whole part without leading zeros, and an
optional fraction and exponent, each with at least one digit.

Reading is quick rather than exact, and does not always give the nearest number of the binary64
format. Digits are taken into a significand as long as it stays below 2^64, and of the others only
the place counts. The significand is rounded to the format, and then it is multiplied by a power of
ten or divided by one, which is rounded to the format as well. A literal for which this leads beyond
the largest number has no value.
-/

namespace Stencil.Json

/-- A number literal by its parts. -/
structure Number where
  negative : Bool
  /-- The digits in front of the point. -/
  whole : List Char
  /-- The digits behind the point, none if there is no point. -/
  fraction : List Char
  exponent : Option Int
  deriving Repr, DecidableEq

namespace Number

/-- The characters that may stand in a literal. -/
def isLiteralChar (c : Char) : Bool :=
  c.isDigit || c == '-' || c == '+' || c == '.' || c == 'e' || c == 'E'

/-- The fraction at the front of a text, empty if there is none. -/
def fraction? : List Char → Option (List Char × List Char)
  | '.' :: r =>
    let digits := r.takeWhile Char.isDigit
    if digits = [] then none else some (digits, r.dropWhile Char.isDigit)
  | r => some ([], r)

/-- The exponent that is the whole of a text, `none` if the text is empty. -/
def exponent? : List Char → Option (Option Int)
  | [] => some none
  | c :: r => if c = 'e' ∨ c = 'E' then (Decimal.integer? r).map some else none

/-- Takes a literal apart. -/
def ofLiteral? (literal : List Char) : Option Number :=
  let (negative, r) := match literal with
    | '-' :: r => (true, r)
    | r => (false, r)
  let whole := r.takeWhile Char.isDigit
  if whole = [] ∨ (whole.head? = some '0' ∧ whole ≠ ['0']) then none
  else do
    let (fraction, r) ← fraction? (r.dropWhile Char.isDigit)
    let exponent ← exponent? r
    pure ⟨negative, whole, fraction, exponent⟩

/-! ## The significand -/

/-- What a significand is below: 2^64. -/
def significandBound : Nat := 18446744073709551616

/-- Takes digits into a significand as long as they fit; the first one that does not and all behind
it are left. -/
def takeDigits (significand : Nat) : List Char → Nat × List Char
  | [] => (significand, [])
  | c :: r =>
    let next := 10 * significand + (c.toNat - '0'.toNat)
    if next < significandBound then takeDigits next r else (significand, c :: r)

/-- The significand of a literal and the power of ten that it is multiplied by, as far as the digits
say. A digit in front of the point that is left raises the exponent, a digit behind the point that
is taken lowers it. -/
def significand (n : Number) : Nat × Int :=
  let (front, left) := takeDigits 0 n.whole
  let (significand, ignored) := takeDigits front n.fraction
  (significand, left.length + ignored.length - n.fraction.length)

/-! ## Scaling -/

/-- The largest power of ten that a number is multiplied by or divided by at once. -/
def powerLimit : Nat := 308

/-- The number nearest to `10^k`. -/
def power? (k : Nat) : Option Binary64 := Binary64.ofDecimal? false 1 k

/-- Divides by the largest power of ten as often as `times` says, and at last by `10^rest`. Zero
stays as it is. -/
def divide? (rest : Nat) : (times : Nat) → Binary64 → Option Binary64
  | 0, x => do x.div? (← power? rest)
  | times + 1, x =>
    if x.significand = 0 then some x
    else do divide? rest times (← x.div? (← power? powerLimit))

/-- Multiplies by `10^exponent`. No number but zero is multiplied by more than the largest power;
for the division by `10^(k + 1)` that power is taken off as long as more than it is left. -/
def scale? (x : Binary64) : (exponent : Int) → Option Binary64
  | .ofNat k =>
    if k ≤ powerLimit then do x.mul? (← power? k)
    else if x.significand = 0 then some x
    else none
  | .negSucc k => divide? (k % powerLimit + 1) (k / powerLimit) x

/-! ## Reading -/

/-- The largest magnitude of an exponent that is read. -/
def exponentLimit : Nat := 2147483647

/-- The number of the binary64 format that a literal is read as; none beyond the largest one. -/
def toBinary64? (n : Number) : Option Binary64 :=
  let (significand, places) := n.significand
  let exponent := n.exponent.getD 0
  if exponentLimit < exponent.natAbs then
    if 0 < exponent ∧ significand ≠ 0 then none else some (.zero n.negative)
  else do scale? (← Binary64.ofDecimal? n.negative significand 0) (places + exponent)

/-- The value of a literal that is a plain natural number below `bound`. -/
def toNatBelow? (bound : Nat) (n : Number) : Option Nat :=
  if n.negative ∨ n.fraction ≠ [] ∨ n.exponent ≠ none then none
  else do
    let value ← Decimal.natural? n.whole
    if value < bound then some value else none

end Number

end Stencil.Json
