import Mathlib
import Stencil.Decimal.Layout

/-!
# Whole numbers

A whole number below 2^53 is a number of the binary64 format, so a decimal with such a value is
read as exactly that value (`ofDecimal?_whole`), and as `x` only if it is the value of `x`
(`readsAs_iff`). The search for the shortest decimal of a whole number below 10^15 therefore ends
on a grid of whole numbers, at the latest on that of the units (`shortest_denotes`): in a document
the number is written with all its digits and a zero behind the point (`write_json`). Elsewhere a
number is written with the digits of the whole number that its shortest decimal stands for
(`write_plain`).
-/

namespace Stencil

/-! ## Digits -/

theorem toDigits_mul_pow {c : Nat} (h : 0 < c) (e : Nat) :
    Nat.toDigits 10 (c * 10 ^ e) = Nat.toDigits 10 c ++ List.replicate e '0' := by
  induction e with
  | zero => simp
  | succ e ih =>
    have hpos : 0 < c * 10 ^ e := Nat.mul_pos h (Nat.pow_pos (by decide))
    have hnext : c * 10 ^ (e + 1) = 10 * (c * 10 ^ e) + 0 := by
      rw [Nat.pow_succ, ← Nat.mul_assoc, Nat.mul_comm _ 10, Nat.add_zero]
    rw [hnext, ← Nat.toDigits_append_toDigits (by decide) hpos (by decide), ih,
      List.append_assoc, List.replicate_succ']
    rfl

theorem length_toDigits_mul_pow {c : Nat} (h : 0 < c) (e : Nat) :
    (Nat.toDigits 10 (c * Nat.pow 10 e)).length = (Nat.toDigits 10 c).length + e := by
  rw [Nat.pow_eq, toDigits_mul_pow h, List.length_append, List.length_replicate]

theorem pow_length_toDigits_le {w : Nat} (h : 0 < w) :
    10 ^ ((Nat.toDigits 10 w).length - 1) ≤ w := by
  by_cases hone : (Nat.toDigits 10 w).length - 1 = 0
  · rw [hone]
    exact h
  · refine Nat.not_lt.1 fun hlt => ?_
    have := (Nat.length_toDigits_le_iff (by decide) (Nat.pos_of_ne_zero hone)).2 hlt
    omega

namespace Binary64

variable {x y : Binary64} {w : Nat}

theorem unitsPerOne_eq {n : Nat} (h : 1074 = n) : unitsPerOne = 2 ^ n := by
  unfold unitsPerOne
  rw [h]
  exact Nat.pow_eq

theorem unitsPerOne_pos : 0 < unitsPerOne := by
  obtain ⟨n, hn⟩ : ∃ n, 1074 = n := ⟨_, rfl⟩
  rw [unitsPerOne_eq hn]
  exact Nat.two_pow_pos n

/-- A number is determined by its sign and its units. -/
theorem eq_of_units (hsign : x.negative = y.negative) (hunits : x.units = y.units) : x = y := by
  have hx := ofQuotient?_units x Nat.one_pos
  have hy := ofQuotient?_units y Nat.one_pos
  rw [hsign, hunits, hy] at hx
  exact (Option.some.inj hx).symm

/-- Every whole number below 2^53 is a number of the format: its leading digit is moved to the
front of the significand. -/
theorem exists_whole (negative : Bool) (h : w < 9007199254740992) :
    ∃ x : Binary64, x.negative = negative ∧ x.units = w * unitsPerOne := by
  by_cases hw : w = 0
  · exact ⟨zero negative, rfl, by simp [hw, zero, units]⟩
  · have hlog : w.log2 < 53 := (Nat.log2_lt hw).2 h
    have hlow : 2 ^ w.log2 ≤ w := Nat.log2_self_le hw
    have hhigh : w < 2 ^ (w.log2 + 1) := Nat.lt_log2_self
    have hpow : 2 ^ w.log2 * 2 ^ (52 - w.log2) = 4503599627370496 := by
      rw [← Nat.pow_add, show w.log2 + (52 - w.log2) = 52 by omega]
    have hvalid : Valid (w * 2 ^ (52 - w.log2)) (1022 + w.log2) := by
      refine ⟨?_, .inl ?_, by omega⟩
      · calc w * 2 ^ (52 - w.log2) < 2 ^ (w.log2 + 1) * 2 ^ (52 - w.log2) :=
              Nat.mul_lt_mul_of_pos_right hhigh (Nat.two_pow_pos _)
          _ = 9007199254740992 := by rw [Nat.pow_succ, Nat.mul_right_comm, hpow]
      · calc 4503599627370496 = 2 ^ w.log2 * 2 ^ (52 - w.log2) := hpow.symm
          _ ≤ w * 2 ^ (52 - w.log2) := Nat.mul_le_mul_right _ hlow
    refine ⟨⟨negative, _, _, hvalid⟩, rfl, ?_⟩
    have hone : unitsPerOne = 2 ^ (52 - w.log2 + (1022 + w.log2)) := unitsPerOne_eq (by omega)
    simp only [units, Nat.pow_eq]
    rw [hone, Nat.mul_assoc, ← Nat.pow_add]

/-- Where the place of the first digit tells nothing, a decimal is a quotient that is rounded. -/
theorem ofDecimal?_eq_ofQuotient? (negative : Bool) (hw : 0 < w) {e : Int}
    (hlow : -330 ≤ (Nat.toDigits 10 w).length + e) (hhigh : (Nat.toDigits 10 w).length + e ≤ 310) :
    ofDecimal? negative w e =
      if 0 ≤ e then ofQuotient? negative (w * Nat.pow 10 e.toNat * unitsPerOne) 1
      else ofQuotient? negative (w * unitsPerOne) (Nat.pow 10 (-e).toNat) := by
  unfold ofDecimal?
  rw [if_neg (Nat.ne_of_gt hw)]
  dsimp only
  rw [if_neg (Int.not_lt.2 hhigh), if_neg (Int.not_lt.2 hlow)]

/-- A decimal whose value is a whole number below 2^53 is read as exactly that number. -/
theorem ofDecimal?_whole (negative : Bool) {c e : Nat} (h : c * 10 ^ e < 9007199254740992) :
    ∃ x, ofDecimal? negative c e = some x ∧ x.negative = negative ∧
      x.units = c * 10 ^ e * unitsPerOne := by
  by_cases hc : c = 0
  · exact ⟨zero negative, by simp [ofDecimal?, hc], rfl, by simp [hc, zero, units]⟩
  · have hone : 1 ≤ 10 ^ e := Nat.pow_pos (by decide)
    have hclt : c < 10 ^ 16 := by
      have : c * 1 ≤ c * 10 ^ e := Nat.mul_le_mul_left c hone
      omega
    have helt : e < 16 := by
      refine (Nat.pow_lt_pow_iff_right (a := 10) (by decide)).1 ?_
      have : 1 * 10 ^ e ≤ c * 10 ^ e := Nat.mul_le_mul_right _ (Nat.pos_of_ne_zero hc)
      omega
    have hlen : (Nat.toDigits 10 c).length ≤ 16 :=
      (Nat.length_toDigits_le_iff (by decide) (by decide)).2 hclt
    obtain ⟨x, hsign, hunits⟩ := exists_whole negative h
    refine ⟨x, ?_, hsign, hunits⟩
    have hexact := ofQuotient?_units x Nat.one_pos
    rw [hsign, hunits, Nat.mul_one] at hexact
    rw [ofDecimal?_eq_ofQuotient? negative (Nat.pos_of_ne_zero hc) (by omega) (by omega),
      if_pos (by omega), Int.toNat_natCast]
    exact hexact

end Binary64

namespace Decimal

variable {x : Binary64} {w : Nat} {d : Decimal} {tie : Tie}

open Binary64

/-- A decimal reads back as a whole number exactly if it has its value. -/
theorem readsAs_iff (hx : x.units = w * unitsPerOne) {c e : Nat}
    (h : c * 10 ^ e < 9007199254740992) : readsAs x ⟨c, e⟩ = true ↔ c * 10 ^ e = w := by
  obtain ⟨y, hy, hsign, hunits⟩ := ofDecimal?_whole x.negative h
  have hreads : readsAs x ⟨c, e⟩ = true ↔ y = x := by
    simp [readsAs, hy]
  rw [hreads]
  constructor
  · rintro rfl
    rw [hunits] at hx
    exact Nat.eq_of_mul_eq_mul_right unitsPerOne_pos hx
  · intro hvalue
    exact eq_of_units hsign (by rw [hunits, hvalue, hx])

/-- A decimal with a whole value and no digit behind the point. -/
def Denotes (d : Decimal) (w : Nat) : Prop :=
  ∃ e : Nat, d.exponent = e ∧ d.coefficient * 10 ^ e = w

theorem Denotes.dropZeros (h : d.Denotes w) (fuel : Nat) : (dropZeros fuel d).Denotes w := by
  induction fuel generalizing d with
  | zero => exact h
  | succ fuel ih =>
    rw [Decimal.dropZeros]
    split
    next hzero =>
      obtain ⟨e, he, rfl⟩ := h
      refine ih ⟨e + 1, by simp [he], ?_⟩
      have hten : d.coefficient / 10 * 10 = d.coefficient := by omega
      rw [Nat.pow_succ, Nat.mul_comm (10 ^ e) 10, ← Nat.mul_assoc, hten]
    next => exact h

/-! ## The search -/

/-- What is taken from a grid is one of the two neighbours. -/
theorem of_onGrid? {exponent : Int} (h : onGrid? tie x exponent = some d) :
    d.exponent = exponent ∧
      d.coefficient ≤ (quotientBy x exponent).1 / (quotientBy x exponent).2 + 1 := by
  unfold onGrid? at h
  simp only at h
  split at h
  · cases h
    simp
  · cases h
    simp
  · split at h
    · cases h
      simp
    · split at h
      · cases h
        simp
      · split at h
        · cases h
          simp
        · split at h <;>
          · cases h
            simp
  · cases h

theorem quotientBy_whole (hx : x.units = w * unitsPerOne) (e : Nat) :
    (quotientBy x e).1 / (quotientBy x e).2 = w / 10 ^ e := by
  simp only [quotientBy, Int.natCast_nonneg, if_true, Int.toNat_natCast, Nat.pow_eq]
  rw [hx, Nat.mul_comm w, Nat.mul_div_mul_left _ _ unitsPerOne_pos]

/-- On a grid of whole numbers that is no coarser than the number, only its value is found. -/
theorem denotes_of_onGrid? (hx : x.units = w * unitsPerOne) (hw : w < 1000000000000000) {e : Nat}
    (he : 10 ^ e ≤ w) (h : onGrid? tie x e = some d) : d.Denotes w := by
  obtain ⟨hexp, hle⟩ := of_onGrid? h
  rw [quotientBy_whole hx] at hle
  have hbound : d.coefficient * 10 ^ e < 9007199254740992 := by
    have h1 : d.coefficient * 10 ^ e ≤ (w / 10 ^ e + 1) * 10 ^ e := Nat.mul_le_mul_right _ hle
    have h2 : w / 10 ^ e * 10 ^ e ≤ w := Nat.div_mul_le_self w _
    rw [Nat.add_mul] at h1
    omega
  refine ⟨e, hexp, (readsAs_iff hx hbound).1 ?_⟩
  rw [← hexp]
  exact readsAs_of_onGrid? h

/-- On the grid of the units the number itself is found. -/
theorem onGrid?_units (hx : x.units = w * unitsPerOne) (hw : w < 1000000000000000) :
    onGrid? tie x 0 = some ⟨w, 0⟩ := by
  have hquot : (quotientBy x (0 : Nat)).1 / (quotientBy x (0 : Nat)).2 = w := by
    rw [quotientBy_whole hx, Nat.pow_zero, Nat.div_one]
  have hbelow : readsAs x ⟨w, (0 : Nat)⟩ = true := (readsAs_iff hx (by omega)).2 (by omega)
  have habove : readsAs x ⟨w + 1, (0 : Nat)⟩ = false := by
    rw [Bool.eq_false_iff, ne_eq, readsAs_iff hx (by omega)]
    omega
  simp only [onGrid?]
  simp only [Int.natCast_zero] at hquot hbelow habove
  rw [hquot, hbelow, habove]

/-- Multiplied by 10^400, a whole number has 400 digits more. -/
theorem leadingExponent_whole (hx : x.units = w * unitsPerOne) (hw : 0 < w) :
    leadingExponent x = ((Nat.toDigits 10 w).length - 1 : Nat) := by
  have hscaled : ∀ p, x.units * p / unitsPerOne = w * p := by
    intro p
    rw [hx, Nat.mul_right_comm, Nat.mul_div_cancel _ unitsPerOne_pos]
  have hpos : 0 < (Nat.toDigits 10 w).length := Nat.length_toDigits_pos
  unfold leadingExponent
  generalize he : 400 = e
  simp only [hscaled, length_toDigits_mul_pow hw e]
  omega

/-- The shortest decimal of a whole number has its value. -/
theorem shortest_denotes (tie : Tie) (hx : x.units = w * unitsPerOne) (hpos : 0 < w)
    (hw : w < 1000000000000000) : (shortest tie x).Denotes w := by
  have hsignificand : x.significand ≠ 0 := by
    intro hzero
    rw [units, hzero, Nat.zero_mul] at hx
    have := Nat.mul_pos hpos unitsPerOne_pos
    omega
  obtain ⟨n, hn⟩ : ∃ n, (Nat.toDigits 10 w).length = n + 1 :=
    Nat.exists_eq_add_one.2 Nat.length_toDigits_pos
  have hlead : leadingExponent x = (n : Int) := by
    rw [leadingExponent_whole hx hpos, hn]
    rfl
  have hn17 : n + 1 ≤ 17 := by
    rw [← hn]
    exact (Nat.length_toDigits_le_iff (by decide) (by decide)).2 (by omega)
  have hpow : 10 ^ n ≤ w := by
    have := pow_length_toDigits_le hpos
    rwa [hn] at this
  -- The grids from that of the first digit down to that of the units come first, and the last
  -- of them has the number.
  have hrange : List.range 17 = List.range (n + 1) ++ (List.range (16 - n)).map (n + 1 + ·) := by
    rw [← List.range_add, show n + 1 + (16 - n) = 17 by omega]
  have hfound : ∃ d, (List.range (n + 1)).findSome?
      (fun (more : Nat) => onGrid? tie x (leadingExponent x - more)) = some d := by
    refine Option.isSome_iff_exists.1 (List.findSome?_isSome_iff.2 ⟨n, by simp, ?_⟩)
    rw [hlead, Int.sub_self, onGrid?_units hx hw]
    rfl
  obtain ⟨d, hd⟩ := hfound
  have hdenotes : d.Denotes w := by
    obtain ⟨more, hmore, hgrid⟩ := List.exists_of_findSome?_eq_some hd
    have hle : more ≤ n := by simpa [Nat.lt_succ_iff] using hmore
    rw [hlead, show (n : Int) - more = ((n - more : Nat) : Int) by omega] at hgrid
    refine denotes_of_onGrid? hx hw ?_ hgrid
    exact Nat.le_trans (Nat.pow_le_pow_right (by decide) (Nat.sub_le n more)) hpow
  simp only [shortest, hsignificand, if_false]
  rw [hrange, List.findSome?_append, hd]
  exact hdenotes.dropZeros _

/-- The digits of a whole number are those of its shortest decimal and the zeros behind them. -/
theorem digits_shortest (tie : Tie) (hx : x.units = w * unitsPerOne)
    (hw : w < 1000000000000000) : ∃ c e : Nat, shortest tie x = ⟨c, e⟩ ∧
      Nat.toDigits 10 w = Nat.toDigits 10 c ++ List.replicate e '0' := by
  by_cases hzero : w = 0
  · refine ⟨0, 0, ?_, by rw [hzero]; rfl⟩
    have hunits : x.significand * 2 ^ x.shift = 0 := by simpa [hzero, units] using hx
    have hsignificand : x.significand = 0 :=
      (Nat.mul_eq_zero.1 hunits).resolve_right (Nat.ne_of_gt (Nat.two_pow_pos _))
    rw [shortest, if_pos hsignificand]
    rfl
  · obtain ⟨e, hexp, hvalue⟩ := shortest_denotes tie hx (Nat.pos_of_ne_zero hzero) hw
    have hc : 0 < (shortest tie x).coefficient := by
      refine Nat.pos_of_ne_zero fun hc => hzero ?_
      rw [← hvalue, hc, Nat.zero_mul]
    exact ⟨(shortest tie x).coefficient, e, by rw [← hexp], by
      rw [← toDigits_mul_pow hc, hvalue]⟩

end Decimal

/-! ## The text -/

/-- The digits of a decimal with none behind the point, and the zeros that follow them. -/
theorem Layout.writePositional_whole (layout : Layout) (c e : Nat) :
    layout.writePositional (Nat.toDigits 10 c) (e + ((Nat.toDigits 10 c).length - 1)) =
      Nat.toDigits 10 c ++ List.replicate e '0' ++
        if layout.keepsPoint then ['.', '0'] else [] := by
  have hpos : 0 < (Nat.toDigits 10 c).length := Nat.length_toDigits_pos
  have hfirst : (e : Int) + ((Nat.toDigits 10 c).length - 1) =
      ((e + (Nat.toDigits 10 c).length - 1 : Nat) : Int) := by omega
  rw [hfirst, writePositional, if_neg (by omega)]
  dsimp only
  rw [if_pos (by omega), Int.toNat_natCast,
    show e + (Nat.toDigits 10 c).length - 1 + 1 - (Nat.toDigits 10 c).length = e by omega]

/-- A whole number with its sign, its digits, and a zero behind the point. -/
theorem Layout.write_json {x : Binary64} {w : Nat} (hx : x.units = w * Binary64.unitsPerOne)
    (hw : w < 1000000000000000) :
    Layout.json.write x =
      (if x.negative then ['-'] else []) ++ (Nat.toDigits 10 w ++ ['.', '0']) := by
  obtain ⟨c, e, hshortest, hdigits⟩ := Decimal.digits_shortest .even hx hw
  have hlen : (Nat.toDigits 10 c).length + e ≤ 15 := by
    have hle : (Nat.toDigits 10 w).length ≤ 15 :=
      (Nat.length_toDigits_le_iff (by decide) (by decide)).2 hw
    rwa [hdigits, List.length_append, List.length_replicate] at hle
  have hpos : 0 < (Nat.toDigits 10 c).length := Nat.length_toDigits_pos
  have hpositional :
      Layout.json.positional (e + ((Nat.toDigits 10 c).length - 1)) = true := by
    simp only [Layout.json, Bool.and_eq_true, decide_eq_true_eq]
    omega
  have htie : Layout.json.tie = .even := rfl
  have hpoint : Layout.json.keepsPoint = true := rfl
  simp only [Layout.write, htie, hshortest, hpositional, if_true, writePositional_whole, hpoint,
    ← hdigits]
  cases x.negative <;> rfl

/-- Without a point a whole number is the digits that its shortest decimal stands for. -/
theorem Layout.write_plain {x : Binary64} {p : Nat} (hp : 0 < p)
    (h : (Decimal.shortest .up x).Denotes p) :
    Layout.plain.write x = (if x.negative then ['-'] else []) ++ Nat.toDigits 10 p := by
  obtain ⟨e, hexponent, hvalue⟩ := h
  have hc : 0 < (Decimal.shortest .up x).coefficient := by
    refine Nat.pos_of_ne_zero fun hc => ?_
    rw [hc, Nat.zero_mul] at hvalue
    omega
  have htie : Layout.plain.tie = .up := rfl
  have hpositional : ∀ first, Layout.plain.positional first = true := fun _ => rfl
  have hpoint : Layout.plain.keepsPoint = false := rfl
  simp only [Layout.write, htie, hexponent, hpositional, if_true, writePositional_whole, hpoint]
  rw [← toDigits_mul_pow hc, hvalue]
  cases x.negative <;> simp

end Stencil
