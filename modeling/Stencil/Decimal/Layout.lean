import Stencil.Decimal.Shortest

/-!
# Layouts of numbers

A `Layout` lists the decisions by which a shortest decimal becomes text: which of two equally near
decimals is taken, which exponents are written with the point in its place and which with a
separate exponent, and whether a whole number keeps a zero behind the point.
-/

namespace Stencil

/-- How numbers are laid out. -/
structure Layout where
  /-- Which of two equally near decimals is taken. -/
  tie : Decimal.Tie
  /-- Whether a number is written without an exponent when its first digit has this one. -/
  positional : Int → Bool
  /-- Whether a whole number written without exponent ends in `.0`. -/
  keepsPoint : Bool

namespace Layout

/-- Numbers in running text: never an exponent, no point in whole numbers. -/
def plain : Layout := ⟨.up, fun _ => true, false⟩

/-- Numbers in JSON documents: an exponent from 10^16 on and below 10^-5, with its sign; a whole
number without exponent keeps its point. -/
def json : Layout := ⟨.even, fun e => -5 ≤ e && e ≤ 15, true⟩

/-- Digits with the point in its place; `first` is the exponent of the first digit. -/
def writePositional (layout : Layout) (digits : List Char) (first : Int) : List Char :=
  if first < 0 then
    '0' :: '.' :: List.replicate ((-first).toNat - 1) '0' ++ digits
  else
    let whole := first.toNat + 1
    if digits.length ≤ whole then
      digits ++ List.replicate (whole - digits.length) '0' ++
        (if layout.keepsPoint then ['.', '0'] else [])
    else digits.take whole ++ '.' :: digits.drop whole

/-- Digits with one in front of the point and a signed exponent. -/
def writeScientific (digits : List Char) (first : Int) : List Char :=
  let mantissa := match digits with
    | d :: e :: r => d :: '.' :: e :: r
    | ds => ds
  mantissa ++ 'e' :: (if first < 0 then '-' else '+') :: Nat.toDigits 10 first.natAbs

/-- A number as text. -/
def write (layout : Layout) (x : Binary64) : List Char :=
  let d := Decimal.shortest layout.tie x
  let digits := Nat.toDigits 10 d.coefficient
  let first := d.exponent + (digits.length - 1)
  let magnitude :=
    if layout.positional first then layout.writePositional digits first
    else writeScientific digits first
  if x.negative then '-' :: magnitude else magnitude

end Layout

end Stencil
