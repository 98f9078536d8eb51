import Stencil.Json.Basic
import Stencil.Proofs.Decimal.Rounding

/-!
# When numbers are read exactly

A literal is read as the number nearest to it if its digits make a number of the binary64 format
and the power of ten behind them is none above 10^22 (`toBinary64?_nearest`): the significand and
the power are then exact, and only their product or quotient is rounded. Both conditions are needed,
as the examples behind the theorem show. An integer below 2^64 is always read as the number nearest
to it (`toBinary64?_integer`).
-/

namespace Stencil.Json.Number

open Binary64

variable {n : Number} {x : Binary64} {k w : Nat}

/-! ## Scaling -/

/-- The powers of ten up to 10^22 are numbers of the format. -/
theorem exists_power (hk : k ≤ 22) :
    ∃ p, power? k = some p ∧ p.negative = false ∧ p.units = 10 ^ k * unitsPerOne := by
  have hfive : 5 ^ k < 9007199254740992 :=
    Nat.lt_of_le_of_lt (Nat.pow_le_pow_right (by decide) hk) (by decide)
  obtain ⟨p, hsign, hp⟩ := exists_whole_mul_pow false (Nat.pow_pos (by decide)) hfive
    (Nat.le_trans hk (by decide))
  rw [← Nat.mul_pow] at hp
  refine ⟨p, ?_, hsign, hp⟩
  have hone : (Nat.toDigits 10 1).length = 1 := rfl
  have hexact := ofQuotient?_units p Nat.one_pos
  rw [hsign, hp, Nat.mul_one] at hexact
  rw [power?, ofDecimal?_eq_ofQuotient? false Nat.one_pos (by omega) (by omega), if_pos (by omega),
    Int.toNat_natCast, Nat.one_mul]
  exact hexact

/-- By such a power a number is multiplied or divided with one rounding. -/
theorem scale?_eq_ofQuotient? (x : Binary64) {e : Int} (he : e.natAbs ≤ 22) :
    scale? x e =
      if 0 ≤ e then ofQuotient? x.negative (x.units * Nat.pow 10 e.toNat) 1
      else ofQuotient? x.negative x.units (Nat.pow 10 (-e).toNat) := by
  cases e with
  | ofNat k =>
    have hk : k ≤ 22 := he
    have hnonneg : 0 ≤ Int.ofNat k := Int.natCast_nonneg k
    obtain ⟨p, hpower, hsign, hp⟩ := exists_power hk
    rw [scale?, if_pos (Nat.le_trans hk (by decide)), hpower, Option.bind_eq_bind,
      Option.bind_some, mul?_of_units x hsign hp, if_pos hnonneg]
    rfl
  | negSucc k =>
    have hk : k + 1 ≤ 22 := he
    have hlimit : k < powerLimit := Nat.lt_of_lt_of_le hk (by decide)
    obtain ⟨p, hpower, hsign, hp⟩ := exists_power hk
    rw [scale?, Nat.mod_eq_of_lt hlimit, Nat.div_eq_of_lt hlimit, divide?, hpower,
      Option.bind_eq_bind, Option.bind_some, div?_of_units x hsign hp,
      if_neg (Int.not_le.2 (Int.negSucc_lt_zero k))]
    rfl

theorem scale?_zero (x : Binary64) : scale? x 0 = some x := by
  rw [scale?_eq_ofQuotient? x (by decide), if_pos (Int.le_refl 0)]
  exact ofQuotient?_units x Nat.one_pos

/-- A significand of the format is scaled to the number nearest to the decimal. -/
theorem scale?_of_units (hx : x.units = w * unitsPerOne) (hw : w < 10 ^ 20) {e : Int}
    (he : e.natAbs ≤ 22) : scale? x e = ofDecimal? x.negative w e := by
  rw [scale?_eq_ofQuotient? x he, hx]
  by_cases hzero : w = 0
  · subst hzero
    have hpower : 0 < Nat.pow 10 (-e).toNat := Nat.pow_pos (by decide)
    rw [ofDecimal?, if_pos rfl, Nat.zero_mul, Nat.zero_mul, ofQuotient?_zero _ Nat.one_pos,
      ofQuotient?_zero _ hpower, ite_self]
  · have hlen := length_toDigits_le hw
    rw [ofDecimal?_eq_ofQuotient? x.negative (Nat.pos_of_ne_zero hzero) (by omega) (by omega),
      Nat.mul_right_comm]

/-! ## Digits -/

theorem le_ofDigitChars (cs : List Char) (w : Nat) : w ≤ Nat.ofDigitChars 10 cs w := by
  rw [Nat.ofDigitChars_eq_ofDigitChars_zero]
  exact Nat.le_add_right_of_le (Nat.le_mul_of_pos_left w (Nat.pow_pos (by decide)))

/-- Digits are taken as long as the significand that they make is below the bound. -/
theorem takeDigits_of_lt {cs : List Char} (h : Nat.ofDigitChars 10 cs w < significandBound) :
    takeDigits w cs = (Nat.ofDigitChars 10 cs w, []) := by
  induction cs generalizing w with
  | nil => rfl
  | cons c r ih =>
    rw [Nat.ofDigitChars_cons] at h ⊢
    rw [takeDigits, if_pos (Nat.lt_of_le_of_lt (le_ofDigitChars r _) h), ih h]

/-- The number that the digits of a literal make without the point. -/
def digits (n : Number) : Nat := Nat.ofDigitChars 10 (n.whole ++ n.fraction) 0

/-- The power of ten behind the digits. -/
def places (n : Number) : Int := n.exponent.getD 0 - n.fraction.length

theorem significand_of_lt (h : n.digits < significandBound) :
    n.significand = (n.digits, -(n.fraction.length : Int)) := by
  have hsplit : n.digits = Nat.ofDigitChars 10 n.fraction (Nat.ofDigitChars 10 n.whole 0) :=
    Nat.ofDigitChars_append 0
  rw [hsplit] at h ⊢
  have hwhole := takeDigits_of_lt (Nat.lt_of_le_of_lt (le_ofDigitChars n.fraction _) h)
  simp [significand, hwhole, takeDigits_of_lt h]

/-! ## Reading -/

/-- As long as the digits fit, their number is rounded and then scaled. -/
theorem toBinary64?_of_lt (hdigits : n.digits < significandBound)
    (hexponent : (n.exponent.getD 0).natAbs ≤ exponentLimit) :
    n.toBinary64? = (ofDecimal? n.negative n.digits 0).bind (scale? · n.places) := by
  have hplaces : -(n.fraction.length : Int) + n.exponent.getD 0 = n.places := by
    rw [places]
    omega
  simp only [toBinary64?, significand_of_lt hdigits, hplaces, if_neg (Nat.not_lt.2 hexponent)]
  rfl

/-- Where digits and power are exact, a literal is read as the number nearest to it. -/
theorem toBinary64?_nearest (hexact : Exact n.digits) (hdigits : n.digits < significandBound)
    (hplaces : n.places.natAbs ≤ 22) (hexponent : (n.exponent.getD 0).natAbs ≤ exponentLimit) :
    n.toBinary64? = ofDecimal? n.negative n.digits n.places := by
  have hshort : n.digits < 10 ^ 20 := Nat.lt_trans hdigits (by decide)
  obtain ⟨x, hx⟩ := exists_ofDecimal?_natural n.negative hshort
  rw [toBinary64?_of_lt hdigits hexponent, hx, Option.bind_some,
    scale?_of_units (hexact.units_eq hx) hshort hplaces, negative_of_natural hx]

/-- The power 10^23 is no number of the format. -/
example : ofDecimal? false 3 23 ≠ (⟨false, ['3'], [], some 23⟩ : Number).toBinary64? := by
  decide +kernel

/-- The digits make no number of the format. -/
example : ofDecimal? false 31245270191439438 (-15) ≠
    (⟨false, "31".toList, "245270191439438".toList, none⟩ : Number).toBinary64? := by
  decide +kernel

/-- An integer below 2^64 is read as the number nearest to it. -/
theorem toBinary64?_integer (negative : Bool) (hw : w < significandBound) :
    toBinary64? ⟨negative, Nat.toDigits 10 w, [], none⟩ = ofDecimal? negative w 0 := by
  have hdigits : digits ⟨negative, Nat.toDigits 10 w, [], none⟩ = w := by
    rw [digits, List.append_nil, Nat.ofDigitChars_ten_toDigits]
  have hplaces : places ⟨negative, Nat.toDigits 10 w, [], none⟩ = 0 := rfl
  obtain ⟨x, hx⟩ := exists_ofDecimal?_natural negative (Nat.lt_trans hw (by decide))
  rw [toBinary64?_of_lt (hdigits.symm ▸ hw) (Nat.zero_le _), hdigits, hplaces, hx,
    Option.bind_some, scale?_zero]

end Stencil.Json.Number
