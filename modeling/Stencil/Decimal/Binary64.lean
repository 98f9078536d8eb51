/-!
# Binary floating point of 64 bits

The finite numbers of the binary64 format, as a sign and a natural multiple of 2^-1074: the number
is `significand * 2^shift` of these units. A quotient of naturals is rounded to the nearest such
number, of two equally near ones to the one with the even significand, and so are the exact product
and the exact quotient of two numbers. The main statements are that rounding stays in the format
(`roundedSignificand_le`) and that a number of the format is its own rounding
(`ofQuotient?_units`).
-/

namespace Stencil

/-- A significand and a shift that the format has: at most 53 bits, and all 53 of them used unless
the number is among the smallest. The bounds are 2^53 and 2^52. -/
structure Binary64.Valid (significand shift : Nat) : Prop where
  lt : significand < 9007199254740992
  normal : 4503599627370496 ≤ significand ∨ shift = 0
  le : shift ≤ 2045

instance (significand shift : Nat) : Decidable (Binary64.Valid significand shift) :=
  decidable_of_iff
    (significand < 9007199254740992 ∧ (4503599627370496 ≤ significand ∨ shift = 0) ∧ shift ≤ 2045)
    ⟨fun ⟨a, b, c⟩ => ⟨a, b, c⟩, fun ⟨a, b, c⟩ => ⟨a, b, c⟩⟩

/-- A finite number of the binary64 format. -/
structure Binary64 where
  /-- Whether the sign is minus; zero has a sign too. -/
  negative : Bool
  significand : Nat
  shift : Nat
  valid : Binary64.Valid significand shift
  deriving DecidableEq

namespace Binary64

/-- The units of the format that make one. -/
def unitsPerOne : Nat := Nat.pow 2 1074

/-- Zero with a sign. -/
def zero (negative : Bool) : Binary64 := ⟨negative, 0, 0, by decide⟩

/-- The magnitude in units. -/
def units (x : Binary64) : Nat := x.significand * Nat.pow 2 x.shift

/-! ## Rounding -/

/-- The natural number nearest to a quotient, of two equally near ones the even one. -/
def roundQuotient (a d : Nat) : Nat :=
  let q := a / d
  let r := a % d
  if 2 * r < d then q
  else if d < 2 * r then q + 1
  else if q % 2 = 0 then q else q + 1

/-- The shift that leaves 53 bits of `n` in front of the point, zero if there are fewer. -/
def shiftOf (n : Nat) : Nat := n.log2 - 52

/-- The significand of `a / d` units once the shift is chosen. -/
def roundedSignificand (a d : Nat) : Nat :=
  roundQuotient a (d * Nat.pow 2 (shiftOf (a / d)))

theorem lt_mul_pow_shiftOf (n : Nat) : n < 9007199254740992 * Nat.pow 2 (shiftOf n) := by
  have h1 : n < 2 ^ (n.log2 + 1) := Nat.lt_log2_self
  have h2 : 2 ^ (n.log2 + 1) ≤ 2 ^ (53 + shiftOf n) :=
    Nat.pow_le_pow_right (by decide) (by unfold shiftOf; omega)
  have h3 : 2 ^ (53 + shiftOf n) = 9007199254740992 * Nat.pow 2 (shiftOf n) := Nat.pow_add 2 53 _
  omega

theorem roundQuotient_le (a d : Nat) : roundQuotient a d ≤ a / d + 1 := by
  simp only [roundQuotient]
  split
  · omega
  · split
    · omega
    · split <;> omega

theorem le_roundQuotient (a d : Nat) : a / d ≤ roundQuotient a d := by
  simp only [roundQuotient]
  split
  · omega
  · split
    · omega
    · split <;> omega

/-- Rounding gives at most one unit beyond 53 bits. -/
theorem roundedSignificand_le (a d : Nat) : roundedSignificand a d ≤ 9007199254740992 := by
  have h1 := roundQuotient_le a (d * Nat.pow 2 (shiftOf (a / d)))
  have h2 : a / (d * Nat.pow 2 (shiftOf (a / d))) < 9007199254740992 := by
    rw [← Nat.div_div_eq_div_mul]
    refine Nat.div_lt_of_lt_mul ?_
    rw [Nat.mul_comm]
    exact lt_mul_pow_shiftOf _
  unfold roundedSignificand
  omega

/-- Rounding uses all 53 bits unless no shift is needed. -/
theorem le_roundedSignificand (a d : Nat) (h : shiftOf (a / d) ≠ 0) :
    4503599627370496 ≤ roundedSignificand a d := by
  refine Nat.le_trans ?_ (le_roundQuotient _ _)
  rw [← Nat.div_div_eq_div_mul]
  refine (Nat.le_div_iff_mul_le (by exact Nat.two_pow_pos _)).2 ?_
  have hpow : 2 ^ (52 + shiftOf (a / d)) = 4503599627370496 * Nat.pow 2 (shiftOf (a / d)) :=
    Nat.pow_add 2 52 _
  rw [← hpow]
  have hne : a / d ≠ 0 := by
    intro h0
    rw [h0] at h
    exact h (by decide)
  have hlog : 52 + shiftOf (a / d) = (a / d).log2 := by
    unfold shiftOf at h ⊢
    omega
  rw [hlog]
  exact Nat.log2_self_le hne

/-- The number of the format nearest to `a / d` units; none beyond the largest one. -/
def ofQuotient? (negative : Bool) (a d : Nat) : Option Binary64 :=
  let shift := shiftOf (a / d)
  let significand := roundedSignificand a d
  if h : significand < 9007199254740992 ∧ shift ≤ 2045 then
    some ⟨negative, significand, shift, h.1,
      if hs : shift = 0 then .inr hs else .inl (le_roundedSignificand a d hs), h.2⟩
  else if h : shift + 1 ≤ 2045 then
    some ⟨negative, 4503599627370496, shift + 1, by decide, .inl (by decide), h⟩
  else none

/-- The number nearest to `coefficient * 10^exponent`. An exponent so large or so small that the
number is beyond the largest one, or nearer to zero than to any other, is answered at once. -/
def ofDecimal? (negative : Bool) (coefficient : Nat) (exponent : Int) : Option Binary64 :=
  if coefficient = 0 then some (zero negative)
  else
    let digits : Int := (Nat.toDigits 10 coefficient).length
    if 310 < digits + exponent then none
    else if digits + exponent < -330 then some (zero negative)
    else if 0 ≤ exponent then
      ofQuotient? negative (coefficient * Nat.pow 10 exponent.toNat * unitsPerOne) 1
    else ofQuotient? negative (coefficient * unitsPerOne) (Nat.pow 10 (-exponent).toNat)

/-! ## Products and quotients -/

/-- The product of two numbers; none beyond the largest one. -/
def mul? (x y : Binary64) : Option Binary64 :=
  ofQuotient? (x.negative ^^ y.negative) (x.units * y.units) unitsPerOne

/-- The quotient of a number and one that is not zero; none beyond the largest one. -/
def div? (x y : Binary64) : Option Binary64 :=
  ofQuotient? (x.negative ^^ y.negative) (x.units * unitsPerOne) y.units

/-! ## Numbers of the format are their own roundings -/

theorem roundQuotient_mul (n : Nat) {d : Nat} (hd : 0 < d) : roundQuotient (n * d) d = n := by
  simp [roundQuotient, Nat.mul_div_cancel _ hd, hd]

theorem shiftOf_units (x : Binary64) : shiftOf x.units = x.shift := by
  obtain ⟨neg, m, s, hv⟩ := x
  simp only [units, shiftOf, Nat.pow_eq]
  by_cases hs : s = 0
  · subst hs
    simp only [Nat.pow_zero, Nat.mul_one]
    by_cases hm : m = 0
    · subst hm; decide
    · have hlog : m.log2 < 53 := (Nat.log2_lt hm).2 hv.lt
      omega
  · have hm : 4503599627370496 ≤ m := hv.normal.resolve_right hs
    have hm0 : m ≠ 0 := by omega
    have h1 : m * 2 ^ s ≠ 0 := by
      have := Nat.two_pow_pos s
      exact Nat.mul_ne_zero hm0 (by omega)
    have hlt : (m * 2 ^ s).log2 < 53 + s := by
      rw [Nat.log2_lt h1, Nat.pow_add]
      exact Nat.mul_lt_mul_of_pos_right hv.lt (Nat.two_pow_pos s)
    have hle : ¬ (m * 2 ^ s).log2 < 52 + s := by
      rw [Nat.log2_lt h1, Nat.pow_add, Nat.not_lt]
      exact Nat.mul_le_mul_right _ hm
    omega

/-- A number of the format is its own rounding. -/
theorem ofQuotient?_units (x : Binary64) {d : Nat} (hd : 0 < d) :
    ofQuotient? x.negative (x.units * d) d = some x := by
  have hq : x.units * d / d = x.units := Nat.mul_div_cancel _ hd
  have hs : shiftOf (x.units * d / d) = x.shift := by rw [hq, shiftOf_units]
  have hr : roundedSignificand (x.units * d) d = x.significand := by
    unfold roundedSignificand
    rw [hs, show x.units * d = x.significand * (d * Nat.pow 2 x.shift) by
      unfold units; rw [Nat.mul_assoc, Nat.mul_comm (Nat.pow 2 x.shift)]]
    exact roundQuotient_mul _ (Nat.mul_pos hd (Nat.two_pow_pos _))
  unfold ofQuotient?
  simp only [hs, hr, x.valid.lt, x.valid.le, and_self, dite_true]

theorem ofQuotient?_zero (negative : Bool) {d : Nat} (hd : 0 < d) :
    ofQuotient? negative 0 d = some (zero negative) := by
  have hexact := ofQuotient?_units (zero negative) hd
  rwa [units, zero, Nat.zero_mul, Nat.zero_mul] at hexact

end Binary64

end Stencil
