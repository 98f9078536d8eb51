import Stencil.Decimal.Binary64

/-!
# Shortest decimals

`Decimal.shortest` gives a number of the binary64 format as the decimal with the fewest digits
that reads back as the number; of several it takes the nearest one. The main statement is that the
decimal taken from a grid reads back (`readsAs_of_onGrid?`).
-/

namespace Stencil

/-- A non-negative decimal: `coefficient * 10^exponent`. -/
structure Decimal where
  coefficient : Nat
  exponent : Int
  deriving Repr, DecidableEq

namespace Decimal

/-- Which of two equally near decimals is taken. -/
inductive Tie where
  /-- The larger one. -/
  | up
  /-- The one with the even last digit. -/
  | even
  deriving Repr, DecidableEq

/-- Whether a decimal is read as the magnitude of `x`. -/
def readsAs (x : Binary64) (d : Decimal) : Bool :=
  Binary64.ofDecimal? x.negative d.coefficient d.exponent == some x

/-- The exponent of the first decimal digit of a positive number. Multiplied by 10^400 every
number of the format is above one. -/
def leadingExponent (x : Binary64) : Int :=
  let scaled := x.units * Nat.pow 10 400 / Binary64.unitsPerOne
  (Nat.toDigits 10 scaled).length - 401

/-- The magnitude of `x` over `10^exponent`, as a quotient of naturals. -/
def quotientBy (x : Binary64) (exponent : Int) : Nat × Nat :=
  if 0 ≤ exponent then (x.units, Binary64.unitsPerOne * Nat.pow 10 exponent.toNat)
  else (x.units * Nat.pow 10 (-exponent).toNat, Binary64.unitsPerOne)

/-- The multiple of `10^exponent` that is nearest to `x` among its two neighbours that read back. -/
def onGrid? (tie : Tie) (x : Binary64) (exponent : Int) : Option Decimal :=
  let (a, d) := quotientBy x exponent
  let below : Decimal := ⟨a / d, exponent⟩
  let above : Decimal := ⟨a / d + 1, exponent⟩
  match readsAs x below, readsAs x above with
  | true, false => some below
  | false, true => some above
  | true, true =>
    let r := 2 * (a % d)
    if r < d then some below
    else if d < r then some above
    else match tie with
      | .up => some above
      | .even => if a / d % 2 = 0 then some below else some above
  | false, false => none

/-- The exact value of a number as a decimal. -/
def exact (x : Binary64) : Decimal := ⟨x.units * Nat.pow 5 1074, -1074⟩

/-- Drops the zeros at the end of a coefficient; at most `fuel` of them, which is enough when the
coefficient has no more digits. -/
def dropZeros : (fuel : Nat) → Decimal → Decimal
  | 0, d => d
  | fuel + 1, d =>
    if d.coefficient % 10 = 0 ∧ d.coefficient ≠ 0 then
      dropZeros fuel ⟨d.coefficient / 10, d.exponent + 1⟩
    else d

/-- The decimal with the fewest digits that reads back as the magnitude of `x`. Seventeen digits
always suffice; the exact value stands behind them so that this need not be known here. -/
def shortest (tie : Tie) (x : Binary64) : Decimal :=
  if x.significand = 0 then ⟨0, 0⟩
  else
    let first := leadingExponent x
    let found := (List.range 17).findSome? fun (more : Nat) => onGrid? tie x (first - more)
    let d := found.getD (exact x)
    dropZeros (Nat.toDigits 10 d.coefficient).length d

/-- A decimal taken from a grid reads back. -/
theorem readsAs_of_onGrid? {tie : Tie} {x : Binary64} {exponent : Int} {d : Decimal}
    (h : onGrid? tie x exponent = some d) : readsAs x d = true := by
  unfold onGrid? at h
  simp only at h
  split at h
  next hb _ => cases h; exact hb
  next _ ha => cases h; exact ha
  next hb ha =>
    split at h
    · cases h; exact hb
    · split at h
      · cases h; exact ha
      · split at h
        · cases h; exact ha
        · split at h
          · cases h; exact hb
          · cases h; exact ha
  next => cases h

end Decimal

end Stencil
