import Mathlib.Data.Nat.Dist
import Stencil.Proofs.Decimal.Whole

/-!
# Rounding to the nearest number

No number of the binary64 format is nearer to a quotient than the one that it is rounded to
(`nearest_of_ofQuotient?`). So rounding keeps the order of whole numbers (`units_le_units`) and
does not take them across a number of the format (`Exact.le_units`, `Exact.units_le`), and they are
rounded to whole numbers (`exists_whole_of_natural`).
-/

namespace Stencil.Binary64

variable {negative : Bool} {x y : Binary64} {a d w : Nat}

/-! ## Quotients -/

/-- No multiple of the divisor is nearer to a number than that of the rounded quotient. -/
theorem roundQuotient_nearest (a : Nat) {d : Nat} (hd : 0 < d) (k : Nat) :
    Nat.dist (roundQuotient a d * d) a ≤ Nat.dist (k * d) a := by
  have ha : a / d * d + a % d = a := Nat.div_add_mod' a d
  have hr : a % d < d := Nat.mod_lt a hd
  have hk : k * d ≤ a / d * d ∨ a / d * d + d ≤ k * d := by
    rcases Nat.lt_or_ge (a / d) k with h | h
    · right
      have := Nat.mul_le_mul_right d h
      rwa [Nat.succ_mul] at this
    · left
      exact Nat.mul_le_mul_right d h
  -- rounding takes the nearer of the two multiples around the number, and none lies between them
  have hround : roundQuotient a d * d = a / d * d ∧ 2 * (a % d) ≤ d ∨
      roundQuotient a d * d = a / d * d + d ∧ d ≤ 2 * (a % d) := by
    unfold roundQuotient
    dsimp only
    split
    · exact .inl ⟨rfl, by omega⟩
    · split
      · exact .inr ⟨Nat.succ_mul _ _, by omega⟩
      · split
        · exact .inl ⟨rfl, by omega⟩
        · exact .inr ⟨Nat.succ_mul _ _, by omega⟩
  unfold Nat.dist
  omega

/-- A number that needs a shift uses all 53 bits. -/
theorem le_of_shiftOf_ne_zero {n : Nat} (h : shiftOf n ≠ 0) :
    4503599627370496 * 2 ^ shiftOf n ≤ n := by
  have hn : n ≠ 0 := by
    rintro rfl
    exact h (by decide)
  have hpow : 2 ^ (52 + shiftOf n) = 4503599627370496 * 2 ^ shiftOf n := Nat.pow_add 2 52 _
  have hlog : 52 + shiftOf n = n.log2 := by
    unfold shiftOf at h ⊢
    omega
  rw [← hpow, hlog]
  exact Nat.log2_self_le hn

/-- The significand that rounding gives, shifted, also where it is carried over to the next one. -/
theorem units_of_ofQuotient? (h : ofQuotient? negative a d = some x) :
    x.negative = negative ∧ x.units = roundedSignificand a d * 2 ^ shiftOf (a / d) := by
  unfold ofQuotient? at h
  dsimp only at h
  split at h
  next =>
    cases h
    exact ⟨rfl, rfl⟩
  next hbound =>
    split at h
    next hnext =>
      cases h
      refine ⟨rfl, ?_⟩
      have hcarry : roundedSignificand a d = 9007199254740992 := by
        have := roundedSignificand_le a d
        omega
      show 4503599627370496 * 2 ^ (shiftOf (a / d) + 1) = _
      rw [hcarry, Nat.pow_succ]
      omega
    next => cases h

/-- No number of the format is nearer to a quotient than the one that it is rounded to. -/
theorem nearest_of_ofQuotient? (hd : 0 < d) (h : ofQuotient? negative a d = some x)
    (y : Binary64) : Nat.dist (x.units * d) a ≤ Nat.dist (y.units * d) a := by
  obtain ⟨-, hunits⟩ := units_of_ofQuotient? h
  generalize hs : shiftOf (a / d) = s at hunits
  have hgrid : 0 < d * 2 ^ s := Nat.mul_pos hd (Nat.two_pow_pos s)
  have hx : x.units * d = roundQuotient a (d * 2 ^ s) * (d * 2 ^ s) := by
    rw [hunits, roundedSignificand, hs, Nat.pow_eq]
    ring
  rw [hx]
  by_cases hy : s ≤ y.shift
  · -- the other number lies on the grid that is rounded to
    have hyd : y.units * d = y.significand * 2 ^ (y.shift - s) * (d * 2 ^ s) := by
      have hpow : 2 ^ y.shift = 2 ^ (y.shift - s) * 2 ^ s := by
        rw [← Nat.pow_add, Nat.sub_add_cancel hy]
      rw [units, Nat.pow_eq, hpow]
      ring
    rw [hyd]
    exact roundQuotient_nearest a hgrid _
  · -- it lies below all quotients with this shift, and the least of them is on the grid
    have hlow : 4503599627370496 * (d * 2 ^ s) ≤ a := by
      have hle : 4503599627370496 * 2 ^ s ≤ a / d := by
        rw [← hs]
        exact le_of_shiftOf_ne_zero (by omega)
      have hmul := (Nat.le_div_iff_mul_le hd).1 hle
      rwa [Nat.mul_assoc, Nat.mul_comm (2 ^ s)] at hmul
    have hyd : y.units * d ≤ 4503599627370496 * (d * 2 ^ s) := by
      have hpow : 2 ^ (53 + y.shift) ≤ 2 ^ (52 + s) :=
        Nat.pow_le_pow_right (by decide) (by omega)
      have hle : y.units ≤ 4503599627370496 * 2 ^ s := by
        calc y.units ≤ 9007199254740992 * 2 ^ y.shift :=
              Nat.mul_le_mul_right _ (Nat.le_of_lt y.valid.lt)
          _ = 2 ^ (53 + y.shift) := (Nat.pow_add 2 53 _).symm
          _ ≤ 2 ^ (52 + s) := hpow
          _ = 4503599627370496 * 2 ^ s := Nat.pow_add 2 52 _
      have hmul := Nat.mul_le_mul_right d hle
      rwa [Nat.mul_assoc, Nat.mul_comm (2 ^ s)] at hmul
    have hnearest := roundQuotient_nearest a hgrid 4503599627370496
    unfold Nat.dist at hnearest ⊢
    omega

/-- A common factor makes no difference to a quotient. -/
theorem roundQuotient_mul_right (a d : Nat) {c : Nat} (hc : 0 < c) :
    roundQuotient (a * c) (d * c) = roundQuotient a d := by
  have hless : ∀ m n : Nat, m * c < n * c ↔ m < n := fun m n => Nat.mul_lt_mul_right hc
  simp only [roundQuotient, Nat.mul_div_mul_right a d hc, Nat.mul_mod_mul_right, ← Nat.mul_assoc,
    hless]

theorem ofQuotient?_mul_right (negative : Bool) (a d : Nat) {c : Nat} (hc : 0 < c) :
    ofQuotient? negative (a * c) (d * c) = ofQuotient? negative a d := by
  have hquotient : a * c / (d * c) = a / d := Nat.mul_div_mul_right a d hc
  have hsignificand : roundedSignificand (a * c) (d * c) = roundedSignificand a d := by
    rw [roundedSignificand, hquotient, Nat.mul_right_comm]
    exact roundQuotient_mul_right a _ hc
  simp only [ofQuotient?, hquotient, hsignificand]

/-- A product with a whole number is rounded once. -/
theorem mul?_of_units (x : Binary64) (hsign : y.negative = false)
    (hy : y.units = w * unitsPerOne) : x.mul? y = ofQuotient? x.negative (x.units * w) 1 := by
  have hscale := ofQuotient?_mul_right x.negative (x.units * w) 1 unitsPerOne_pos
  rw [Nat.mul_assoc, Nat.one_mul] at hscale
  rw [mul?, hsign, Bool.xor_false, hy, hscale]

/-- A quotient by a whole number is rounded once. -/
theorem div?_of_units (x : Binary64) (hsign : y.negative = false)
    (hy : y.units = w * unitsPerOne) : x.div? y = ofQuotient? x.negative x.units w := by
  rw [div?, hsign, Bool.xor_false, hy, ofQuotient?_mul_right _ _ _ unitsPerOne_pos]

/-! ## Whole numbers -/

theorem ofQuotient?_of_natural (hw : 0 < w) (h : ofDecimal? negative w 0 = some x) :
    ofQuotient? negative (w * unitsPerOne) 1 = some x := by
  unfold ofDecimal? at h
  rw [if_neg (Nat.ne_of_gt hw)] at h
  dsimp only at h
  split at h
  next => cases h
  next =>
    split at h
    next => omega
    next =>
      rw [if_pos (by decide)] at h
      simpa using h

theorem ofDecimal?_zero (negative : Bool) : ofDecimal? negative 0 0 = some (zero negative) := rfl

theorem negative_of_natural (h : ofDecimal? negative w 0 = some x) : x.negative = negative := by
  by_cases hw : w = 0
  · subst hw
    cases h
    rfl
  · exact (units_of_ofQuotient? (ofQuotient?_of_natural (Nat.pos_of_ne_zero hw) h)).1

/-- No number of the format is nearer to a whole number than the one that it is rounded to. -/
theorem nearest_of_natural (h : ofDecimal? negative w 0 = some x) (y : Binary64) :
    Nat.dist x.units (w * unitsPerOne) ≤ Nat.dist y.units (w * unitsPerOne) := by
  by_cases hw : w = 0
  · subst hw
    cases h
    simp [units, zero]
  · have hquotient := ofQuotient?_of_natural (Nat.pos_of_ne_zero hw) h
    simpa using nearest_of_ofQuotient? Nat.one_pos hquotient y

/-- Rounding keeps the order of whole numbers: were the larger one rounded to the smaller number,
the middle between the two would lie on both sides of it. -/
theorem units_le_units {b : Nat} {negative' : Bool} (hle : a ≤ b)
    (ha : ofDecimal? negative a 0 = some x) (hb : ofDecimal? negative' b 0 = some y) :
    x.units ≤ y.units := by
  have hnearest := nearest_of_natural ha y
  have hnearest' := nearest_of_natural hb x
  by_cases heq : a = b
  · subst heq
    by_cases hzero : a = 0
    · subst hzero
      cases ha
      simp [units, zero]
    · have hpos := Nat.pos_of_ne_zero hzero
      have hx := (units_of_ofQuotient? (ofQuotient?_of_natural hpos ha)).2
      have hy := (units_of_ofQuotient? (ofQuotient?_of_natural hpos hb)).2
      omega
  · have hlt : a * unitsPerOne < b * unitsPerOne :=
      Nat.mul_lt_mul_of_pos_right (by omega) unitsPerOne_pos
    unfold Nat.dist at hnearest hnearest'
    omega

theorem length_toDigits_le {k : Nat} (hw : w < 10 ^ (k + 1)) :
    (Nat.toDigits 10 w).length ≤ k + 1 :=
  (Nat.length_toDigits_le_iff (by decide) (Nat.succ_pos k)).2 hw

/-- A whole number of twenty digits at most is rounded to some number. -/
theorem exists_ofDecimal?_natural (negative : Bool) (hw : w < 10 ^ 20) :
    ∃ x, ofDecimal? negative w 0 = some x := by
  by_cases hzero : w = 0
  · exact ⟨zero negative, by rw [hzero]; rfl⟩
  · have hlen := length_toDigits_le hw
    have hshift : shiftOf (w * unitsPerOne / 1) + 1 ≤ 2045 := by
      have hlog : (w * unitsPerOne).log2 < 1141 := by
        have hne : w * unitsPerOne ≠ 0 :=
          Nat.ne_of_gt (Nat.mul_pos (Nat.pos_of_ne_zero hzero) unitsPerOne_pos)
        obtain ⟨n, hn⟩ : ∃ n, 1074 = n := ⟨_, rfl⟩
        rw [Nat.log2_lt hne, unitsPerOne_eq hn, show 1141 = 67 + n by omega, Nat.pow_add]
        exact Nat.mul_lt_mul_of_pos_right (Nat.lt_trans hw (by decide)) (Nat.two_pow_pos n)
      rw [Nat.div_one, shiftOf]
      omega
    have hround : ∃ x, ofQuotient? negative (w * unitsPerOne) 1 = some x := by
      unfold ofQuotient?
      dsimp only
      split
      · exact ⟨_, rfl⟩
      · exact ⟨_, rfl⟩
    obtain ⟨x, hx⟩ := hround
    refine ⟨x, ?_⟩
    rw [ofDecimal?_eq_ofQuotient? negative (Nat.pos_of_ne_zero hzero) (by omega) (by omega),
      if_pos (by decide)]
    simpa using hx

/-- A whole number of the format is its own rounding. -/
theorem ofDecimal?_of_units (hx : x.units = w * unitsPerOne) (hw : w < 10 ^ 20) :
    ofDecimal? x.negative w 0 = some x := by
  by_cases hzero : w = 0
  · subst hzero
    have hsame : zero x.negative = x := eq_of_units rfl (by rw [hx]; simp [units, zero])
    rw [ofDecimal?_zero, hsame]
  · obtain ⟨y, hy⟩ := exists_ofDecimal?_natural x.negative hw
    have hquotient := ofQuotient?_of_natural (Nat.pos_of_ne_zero hzero) hy
    have hexact := ofQuotient?_units x Nat.one_pos
    rw [Nat.mul_one, hx, hquotient] at hexact
    rw [hy, hexact]

/-- A whole number below 2^53 times a power of two is a number of the format. -/
theorem exists_whole_mul_pow (negative : Bool) (hpos : 0 < w) (hw : w < 9007199254740992) {j : Nat}
    (hj : j ≤ 900) :
    ∃ x : Binary64, x.negative = negative ∧ x.units = w * 2 ^ j * unitsPerOne := by
  obtain ⟨x, hsign, hx⟩ := exists_whole negative hw
  obtain ⟨n, hn⟩ : ∃ n, 1074 = n := ⟨_, rfl⟩
  have hone : unitsPerOne = 2 ^ n := unitsPerOne_eq hn
  have hsx : x.significand * 2 ^ x.shift = w * 2 ^ n := by
    rw [← hone, ← hx, units, Nat.pow_eq]
  -- without a shift the significand would not fit into 53 bits
  have hshift : x.shift ≠ 0 := by
    intro h0
    rw [h0, Nat.pow_zero, Nat.mul_one] at hsx
    have hlarge : 2 ^ 53 ≤ w * 2 ^ n :=
      Nat.le_trans (Nat.pow_le_pow_right (by decide) (by omega)) (Nat.le_mul_of_pos_left _ hpos)
    have := x.valid.lt
    omega
  have hnormal := x.valid.normal.resolve_right hshift
  have hbound : x.shift < n + 1 := by
    have hlt : 2 ^ (52 + x.shift) < 2 ^ (52 + (n + 1)) := by
      calc 2 ^ (52 + x.shift) = 4503599627370496 * 2 ^ x.shift := Nat.pow_add 2 52 _
        _ ≤ x.significand * 2 ^ x.shift := Nat.mul_le_mul_right _ hnormal
        _ = w * 2 ^ n := hsx
        _ < 9007199254740992 * 2 ^ n := Nat.mul_lt_mul_of_pos_right hw (Nat.two_pow_pos n)
        _ = 2 ^ (53 + n) := (Nat.pow_add 2 53 _).symm
        _ = 2 ^ (52 + (n + 1)) := by rw [show 53 + n = 52 + (n + 1) by omega]
    have := (Nat.pow_lt_pow_iff_right (a := 2) (by decide)).1 hlt
    omega
  refine ⟨⟨negative, x.significand, x.shift + j, x.valid.lt, .inl hnormal, by omega⟩, rfl, ?_⟩
  show x.significand * 2 ^ (x.shift + j) = _
  rw [Nat.pow_add, ← Nat.mul_assoc, hsx, hone]
  ring

/-- The units of a number from 2^(52+k) on are a multiple of 2^k ones. -/
theorem dvd_units {k : Nat} (h : 2 ^ (52 + k) * unitsPerOne ≤ x.units) :
    2 ^ k * unitsPerOne ∣ x.units := by
  obtain ⟨n, hn⟩ : ∃ n, 1074 = n := ⟨_, rfl⟩
  rw [unitsPerOne_eq hn, ← Nat.pow_add] at h ⊢
  have hlt : 2 ^ (52 + k + n) < 2 ^ (53 + x.shift) := by
    calc 2 ^ (52 + k + n) ≤ x.significand * 2 ^ x.shift := h
      _ < 9007199254740992 * 2 ^ x.shift :=
          Nat.mul_lt_mul_of_pos_right x.valid.lt (Nat.two_pow_pos _)
      _ = 2 ^ (53 + x.shift) := (Nat.pow_add 2 53 _).symm
  have hle := (Nat.pow_lt_pow_iff_right (a := 2) (by decide)).1 hlt
  exact Nat.dvd_trans (Nat.pow_dvd_pow 2 (by omega)) (Nat.dvd_mul_left _ x.significand)

/-- A whole number that is a number of the format. -/
def Exact (b : Nat) : Prop := ∃ y : Binary64, y.units = b * unitsPerOne

theorem exact_mul_pow (hpos : 0 < w) (hw : w < 9007199254740992) {j : Nat} (hj : j ≤ 900) :
    Exact (w * 2 ^ j) := by
  obtain ⟨y, -, hy⟩ := exists_whole_mul_pow false hpos hw hj
  exact ⟨y, hy⟩

theorem exact_two_pow {j : Nat} (hj : j ≤ 900) : Exact (2 ^ j) := by
  have hone := exact_mul_pow (w := 1) (by decide) (by decide) hj
  rwa [Nat.one_mul] at hone

/-- What is not below a number of the format is not rounded below it. -/
theorem Exact.le_units {b : Nat} (hb : Exact b) (h : ofDecimal? negative w 0 = some x)
    (hle : b ≤ w) : b * unitsPerOne ≤ x.units := by
  obtain ⟨y, hy⟩ := hb
  have hnearest := nearest_of_natural h y
  have hmul := Nat.mul_le_mul_right unitsPerOne hle
  rw [hy] at hnearest
  unfold Nat.dist at hnearest
  omega

/-- What is not above a number of the format is not rounded above it. -/
theorem Exact.units_le {b : Nat} (hb : Exact b) (h : ofDecimal? negative w 0 = some x)
    (hle : w ≤ b) : x.units ≤ b * unitsPerOne := by
  obtain ⟨y, hy⟩ := hb
  have hnearest := nearest_of_natural h y
  have hmul := Nat.mul_le_mul_right unitsPerOne hle
  rw [hy] at hnearest
  unfold Nat.dist at hnearest
  omega

/-- A number of the format is not rounded. -/
theorem Exact.units_eq (hw : Exact w) (h : ofDecimal? negative w 0 = some x) :
    x.units = w * unitsPerOne :=
  Nat.le_antisymm (hw.units_le h (Nat.le_refl w)) (hw.le_units h (Nat.le_refl w))

/-- Below 2^53 nothing is rounded. -/
theorem units_of_natural (h : ofDecimal? negative w 0 = some x) (hw : w < 2 ^ 53) :
    x.units = w * unitsPerOne := by
  have hw' : w * 10 ^ 0 < 9007199254740992 := by omega
  obtain ⟨y, hy, -, hunits⟩ := ofDecimal?_whole negative hw'
  rw [Int.natCast_zero, h] at hy
  obtain rfl := Option.some.inj hy
  rw [hunits, Nat.pow_zero, Nat.mul_one]

/-- Whole numbers are rounded to whole numbers. -/
theorem exists_whole_of_natural (h : ofDecimal? negative w 0 = some x) :
    ∃ r, x.units = r * unitsPerOne := by
  by_cases hw : w < 2 ^ 53
  · exact ⟨w, units_of_natural h hw⟩
  · have hle := (exact_two_pow (by decide)).le_units h (Nat.not_lt.1 hw)
    have hdvd : 2 ^ 0 * unitsPerOne ∣ x.units := by
      refine dvd_units (Nat.le_trans ?_ hle)
      exact Nat.mul_le_mul_right _ (by decide)
    obtain ⟨r, hr⟩ := hdvd
    exact ⟨r, by rw [hr]; ring⟩

end Stencil.Binary64
