import Stencil.Proofs.Decimal.Rounding

/-!
# The roundest whole number

Several whole numbers may be rounded to one number of the binary64 format. The shortest decimal of
a number from 10^15 to below 10^19 stands for the one of them that ends in the most zeros and, of
those with as many, is the nearest to it (`exists_roundest`); there is only one such
(`Roundest.unique`).

The search for the shortest decimal goes through ever finer grids. The numbers that read back are
an interval (`reads_between`), so a grid has one of them exactly if it has one next to the number,
and the grid of 17 digits always has one (`exists_reads_on_grid`).
-/

namespace Stencil.Decimal

open Binary64

variable {x : Binary64} {m p r e : Nat} {d : Decimal}

/-! ## Whole numbers that read back -/

/-- A whole number is read as the magnitude of `x`. -/
def Reads (x : Binary64) (m : Nat) : Prop := readsAs x ⟨m, 0⟩ = true

/-- Of the whole numbers that are read as `x`, one that ends in the most zeros and, of those with as
many, is the nearest to `x`, the larger of two that are equally near. -/
structure Roundest (x : Binary64) (w : Nat) : Prop where
  reads : Reads x w
  zeros : ∀ m, Reads x m → ∀ k, 10 ^ k ∣ m → 10 ^ k ∣ w
  nearest : ∀ m, Reads x m → (∀ k, 10 ^ k ∣ w → 10 ^ k ∣ m) →
    Nat.dist (w * unitsPerOne) x.units < Nat.dist (m * unitsPerOne) x.units ∨
      Nat.dist (w * unitsPerOne) x.units = Nat.dist (m * unitsPerOne) x.units ∧ m ≤ w

/-- There is only one such number: each of two ends in the zeros of the other, and none is
nearer. -/
theorem Roundest.unique {q : Nat} (hp : Roundest x p) (hq : Roundest x q) : p = q := by
  have hpq := hp.nearest q hq.reads fun k => hq.zeros p hp.reads k
  have hqp := hq.nearest p hp.reads fun k => hp.zeros q hq.reads k
  omega

theorem reads_iff : Reads x m ↔ ofDecimal? x.negative m 0 = some x := by
  simp [Reads, readsAs]

/-- A decimal without digits behind the point is read as the whole number that it is. -/
theorem ofDecimal?_mul_pow (negative : Bool) (c e : Nat) :
    ofDecimal? negative c e = ofDecimal? negative (c * 10 ^ e) 0 := by
  by_cases hc : c = 0
  · subst hc
    simp [ofDecimal?]
  · have hlen := length_toDigits_mul_pow (Nat.pos_of_ne_zero hc) e
    have hne : c * 10 ^ e ≠ 0 := Nat.mul_ne_zero hc (by simp)
    rw [Nat.pow_eq] at hlen
    simp only [ofDecimal?, if_neg hc, if_neg hne, hlen]
    simp

theorem readsAs_iff_reads {c : Nat} : readsAs x ⟨c, e⟩ = true ↔ Reads x (c * 10 ^ e) := by
  rw [reads_iff, readsAs, beq_iff_eq, ofDecimal?_mul_pow]

theorem reads_self (hx : x.units = r * unitsPerOne) (hr : r < 10 ^ 19) : Reads x r :=
  reads_iff.2 (ofDecimal?_of_units hx (Nat.lt_trans hr (by decide)))

/-- Zero is read as zero only. -/
theorem pos_of_reads (hx : x.units = r * unitsPerOne) (hr : 0 < r) (hm : Reads x m) : 0 < m := by
  refine Nat.pos_of_ne_zero ?_
  rintro rfl
  rw [reads_iff, ofDecimal?_zero] at hm
  have hunits := congrArg units (Option.some.inj hm)
  have hzero : (zero x.negative).units = 0 := Nat.zero_mul _
  have hpos := Nat.mul_pos hr unitsPerOne_pos
  omega

/-- A power of ten up to 10^19 is a number of the format, so what lies beyond it is not rounded to
what lies below. -/
theorem lt_pow_of_reads {j : Nat} (hj : j ≤ 19) (hx : x.units = r * unitsPerOne) (hr : r < 10 ^ j)
    (hm : Reads x m) : m < 10 ^ j := by
  have hfive : 5 ^ j < 9007199254740992 :=
    Nat.lt_of_le_of_lt (Nat.pow_le_pow_right (by decide) hj) (by decide)
  have hexact : Exact (10 ^ j) := by
    have hsplit : 5 ^ j * 2 ^ j = 10 ^ j := (Nat.mul_pow 5 2 j).symm
    rw [← hsplit]
    exact exact_mul_pow (Nat.pow_pos (by decide)) hfive (by omega)
  refine Nat.not_le.1 fun hle => ?_
  have hunits := hexact.le_units (reads_iff.1 hm) hle
  rw [hx] at hunits
  have := Nat.le_of_mul_le_mul_right hunits unitsPerOne_pos
  omega

/-- A whole number below 2^53 is the only one that is read as it. -/
theorem eq_of_reads (hx : x.units = r * unitsPerOne) (hr : r < 2 ^ 53) (hm : Reads x m) :
    m = r := by
  by_cases hlt : m < 2 ^ 53
  · have hunits := units_of_natural (reads_iff.1 hm) hlt
    rw [hx] at hunits
    exact (Nat.eq_of_mul_eq_mul_right unitsPerOne_pos hunits).symm
  · have hunits := (exact_two_pow (by decide)).le_units (reads_iff.1 hm) (Nat.not_lt.1 hlt)
    rw [hx] at hunits
    have := Nat.le_of_mul_le_mul_right hunits unitsPerOne_pos
    omega

/-- A whole number below 2^53 is the roundest one, as there is no other. -/
theorem roundest_of_lt (hx : x.units = r * unitsPerOne) (hr : r < 2 ^ 53) : Roundest x r := by
  refine ⟨reads_self hx (by omega), fun m hm k hdvd => ?_, fun m hm _ => ?_⟩
  · rwa [← eq_of_reads hx hr hm]
  · rw [eq_of_reads hx hr hm]
    exact .inr ⟨rfl, Nat.le_refl r⟩

/-- What lies between a number that reads back and the number itself reads back. -/
theorem reads_between (hx : x.units = r * unitsPerOne) (hr : r < 10 ^ 19) (hm : Reads x m) {k : Nat}
    (hk : m ≤ k ∧ k ≤ r ∨ r ≤ k ∧ k ≤ m) : Reads x k := by
  have hlt := lt_pow_of_reads (Nat.le_refl 19) hx hr hm
  obtain ⟨y, hy⟩ := exists_ofDecimal?_natural x.negative (w := k) (by omega)
  have hself := reads_iff.1 (reads_self hx hr)
  have hmx := reads_iff.1 hm
  have hunits : y.units = x.units := by
    rcases hk with ⟨hmk, hkr⟩ | ⟨hrk, hkm⟩
    · exact Nat.le_antisymm (units_le_units hkr hy hself) (units_le_units hmk hmx hy)
    · exact Nat.le_antisymm (units_le_units hkm hy hmx) (units_le_units hrk hself hy)
  have heq : y = x := eq_of_units (negative_of_natural hy) hunits
  rw [reads_iff, hy, heq]

/-- What lies so near to a number that the numbers of the format around it are farther apart reads
back. -/
theorem reads_of_near (hx : x.units = r * unitsPerOne) {k g : Nat} (hg : g < 2 ^ k)
    (hr : 2 ^ (52 + k) + g ≤ r) (hm : m < 10 ^ 20) (hnear : 2 * Nat.dist m r ≤ g) : Reads x m := by
  obtain ⟨y, hy⟩ := exists_ofDecimal?_natural x.negative hm
  have hnearest := nearest_of_natural hy x
  rw [hx, Nat.dist_mul_right] at hnearest
  generalize hu : unitsPerOne = u at *
  have hupos : 0 < u := hu ▸ unitsPerOne_pos
  have hdist : 2 * (Nat.dist m r * u) ≤ g * u := by
    rw [← Nat.mul_assoc]
    exact Nat.mul_le_mul_right u hnear
  have hmr : Nat.dist (m * u) (r * u) = Nat.dist m r * u := Nat.dist_mul_right m u r
  rw [Nat.dist_comm r m] at hnearest
  have hlow : 2 ^ (52 + k) * u + g * u ≤ r * u := by
    rw [← Nat.add_mul]
    exact Nat.mul_le_mul_right u hr
  have hgap : g * u < 2 ^ k * u := Nat.mul_lt_mul_of_pos_right hg hupos
  -- both numbers are multiples of 2^k, and their distance is less
  have hydvd : 2 ^ k * u ∣ y.units := by
    rw [← hu]
    refine dvd_units ?_
    rw [hu]
    unfold Nat.dist at hnearest hmr hdist
    omega
  have hxdvd : 2 ^ k * u ∣ x.units := by
    rw [← hu]
    refine dvd_units ?_
    rw [hu, hx]
    omega
  have hclose : Nat.dist y.units x.units < 2 ^ k * u := by
    rw [hx]
    unfold Nat.dist at hnearest hmr hdist ⊢
    omega
  have hunits : y.units = x.units := by
    obtain ⟨a, ha⟩ := hydvd
    obtain ⟨b, hb⟩ := hxdvd
    rw [ha, hb, Nat.mul_comm _ a, Nat.mul_comm _ b, Nat.dist_mul_right] at hclose
    have hzero : Nat.dist a b = 0 := by
      by_contra hne
      have := Nat.le_mul_of_pos_left (2 ^ k * u) (Nat.pos_of_ne_zero hne)
      omega
    rw [ha, hb, Nat.eq_of_dist_eq_zero hzero]
  have heq : y = x := eq_of_units (negative_of_natural hy) hunits
  rw [reads_iff, hy, heq]

/-! ## Grids of whole numbers -/

/-- Of the multiples of `10^e` that read back, the nearest one to the number, and the larger of two
that are equally near. -/
structure Nearest (x : Binary64) (r e p : Nat) : Prop where
  dvd : 10 ^ e ∣ p
  reads : Reads x p
  nearest : ∀ m, 10 ^ e ∣ m → Reads x m →
    Nat.dist p r < Nat.dist m r ∨ Nat.dist p r = Nat.dist m r ∧ m ≤ p

/-- A multiple lies below the number or above it, and so one of the two neighbours reads back if it
does. -/
theorem neighbour_reads (hx : x.units = r * unitsPerOne) (hr : r < 10 ^ 19) (hdvd : 10 ^ e ∣ m)
    (hm : Reads x m) :
    m ≤ r / 10 ^ e * 10 ^ e ∧ Reads x (r / 10 ^ e * 10 ^ e) ∨
      (r / 10 ^ e + 1) * 10 ^ e ≤ m ∧ Reads x ((r / 10 ^ e + 1) * 10 ^ e) := by
  obtain ⟨k, rfl⟩ := hdvd
  have hsplit : r / 10 ^ e * 10 ^ e + r % 10 ^ e = r := Nat.div_add_mod' r _
  have hmod : r % 10 ^ e < 10 ^ e := Nat.mod_lt r (Nat.pow_pos (by decide))
  rw [Nat.mul_comm] at hm ⊢
  rcases Nat.lt_or_ge (r / 10 ^ e) k with h | h
  · right
    have hle : (r / 10 ^ e + 1) * 10 ^ e ≤ k * 10 ^ e := Nat.mul_le_mul_right _ h
    refine ⟨hle, reads_between hx hr hm (.inr ⟨?_, hle⟩)⟩
    rw [Nat.succ_mul]
    omega
  · left
    have hle : k * 10 ^ e ≤ r / 10 ^ e * 10 ^ e := Nat.mul_le_mul_right _ h
    exact ⟨hle, reads_between hx hr hm (.inl ⟨hle, by omega⟩)⟩

/-- Which neighbour is taken from a grid of whole numbers. -/
theorem onGrid?_eq_some (hx : x.units = r * unitsPerOne) (h : onGrid? .up x e = some d) :
    d = ⟨(r / 10 ^ e : Nat), e⟩ ∧ Reads x (r / 10 ^ e * 10 ^ e) ∧
        (Reads x ((r / 10 ^ e + 1) * 10 ^ e) → 2 * (r % 10 ^ e) < 10 ^ e) ∨
      d = ⟨(r / 10 ^ e + 1 : Nat), e⟩ ∧ Reads x ((r / 10 ^ e + 1) * 10 ^ e) ∧
        (Reads x (r / 10 ^ e * 10 ^ e) → 10 ^ e ≤ 2 * (r % 10 ^ e)) := by
  have hquot := quotientBy_whole hx e
  have hdivisor : (quotientBy x e).2 = unitsPerOne * 10 ^ e := by
    simp [quotientBy]
  have hrest : (quotientBy x e).1 % (quotientBy x e).2 = unitsPerOne * (r % 10 ^ e) := by
    have hdividend : (quotientBy x e).1 = unitsPerOne * r := by
      simp [quotientBy, hx, Nat.mul_comm]
    rw [hdivisor, hdividend, Nat.mul_mod_mul_left]
  have hless : 2 * ((quotientBy x e).1 % (quotientBy x e).2) < (quotientBy x e).2 ↔
      2 * (r % 10 ^ e) < 10 ^ e := by
    rw [hrest, hdivisor, Nat.mul_left_comm]
    exact Nat.mul_lt_mul_left unitsPerOne_pos
  unfold onGrid? at h
  simp only [hquot, hless] at h
  simp only [← readsAs_iff_reads]
  split at h
  next hbelow habove =>
    cases h
    exact .inl ⟨rfl, hbelow, fun h => by rw [habove] at h; cases h⟩
  next hbelow habove =>
    cases h
    exact .inr ⟨rfl, habove, fun h => by rw [hbelow] at h; cases h⟩
  next hbelow habove =>
    split at h
    next hlt =>
      cases h
      exact .inl ⟨rfl, hbelow, fun _ => hlt⟩
    next hge =>
      have hd : d = ⟨(r / 10 ^ e + 1 : Nat), e⟩ := by
        split at h <;> exact (Option.some.inj h).symm
      exact .inr ⟨hd, habove, fun _ => Nat.not_lt.1 hge⟩
  next => cases h

theorem nearest_of_onGrid? (hx : x.units = r * unitsPerOne) (hr : r < 10 ^ 19)
    (h : onGrid? .up x e = some d) : ∃ p, d.Denotes p ∧ Nearest x r e p := by
  have hsplit : r / 10 ^ e * 10 ^ e + r % 10 ^ e = r := Nat.div_add_mod' r _
  have hmod : r % 10 ^ e < 10 ^ e := Nat.mod_lt r (Nat.pow_pos (by decide))
  have hsucc : (r / 10 ^ e + 1) * 10 ^ e = r / 10 ^ e * 10 ^ e + 10 ^ e := Nat.succ_mul _ _
  rcases onGrid?_eq_some hx h with ⟨rfl, hreads, hother⟩ | ⟨rfl, hreads, hother⟩
  · refine ⟨r / 10 ^ e * 10 ^ e, ⟨e, rfl, rfl⟩, Nat.dvd_mul_left _ _, hreads,
      fun m hdvd hm => ?_⟩
    rcases neighbour_reads hx hr hdvd hm with ⟨hle, -⟩ | ⟨hle, habove⟩
    · unfold Nat.dist
      omega
    · have := hother habove
      unfold Nat.dist
      omega
  · refine ⟨(r / 10 ^ e + 1) * 10 ^ e, ⟨e, rfl, rfl⟩, Nat.dvd_mul_left _ _, hreads,
      fun m hdvd hm => ?_⟩
    rcases neighbour_reads hx hr hdvd hm with ⟨hle, hbelow⟩ | ⟨hle, -⟩
    · have := hother hbelow
      unfold Nat.dist
      omega
    · unfold Nat.dist
      omega

theorem not_reads_of_onGrid?_eq_none (hx : x.units = r * unitsPerOne) (hr : r < 10 ^ 19)
    (h : onGrid? .up x e = none) (hdvd : 10 ^ e ∣ m) : ¬ Reads x m := by
  have hquot := quotientBy_whole hx e
  unfold onGrid? at h
  simp only [hquot] at h
  split at h
  next => cases h
  next => cases h
  next =>
    split at h
    · cases h
    · split at h <;> cases h
  next hbelow habove =>
    intro hm
    rcases neighbour_reads hx hr hdvd hm with ⟨-, hreads⟩ | ⟨-, hreads⟩
    · rw [← readsAs_iff_reads, hbelow] at hreads
      cases hreads
    · rw [← readsAs_iff_reads, habove] at hreads
      cases hreads

/-! ## The search -/

/-- The grid of 17 digits has a number that reads back: the numbers of the format lie farther apart
than its points. -/
theorem exists_reads_on_grid (hx : x.units = r * unitsPerOne) {f : Nat} (hf : f ≤ 18)
    (hlow : 10 ^ f ≤ r) (hhigh : r < 10 ^ (f + 1)) : ∃ m, 10 ^ (f - 16) ∣ m ∧ Reads x m := by
  have hr : r < 10 ^ 19 :=
    Nat.lt_of_lt_of_le hhigh (Nat.pow_le_pow_right (by decide) (by omega))
  have hnear : ∀ g, 0 < g → ∃ m, g ∣ m ∧ m ≤ r + g ∧ 2 * Nat.dist m r ≤ g := by
    intro g hg
    have hsplit : r / g * g + r % g = r := Nat.div_add_mod' r g
    have hmod : r % g < g := Nat.mod_lt r hg
    by_cases hhalf : 2 * (r % g) ≤ g
    · refine ⟨r / g * g, Nat.dvd_mul_left _ _, by omega, ?_⟩
      unfold Nat.dist
      omega
    · refine ⟨r / g * g + g, Nat.dvd_add (Nat.dvd_mul_left _ _) (Nat.dvd_refl g), by omega, ?_⟩
      unfold Nat.dist
      omega
  -- with 19 digits the numbers of the format lie at least 128 apart, with 18 digits at least 16
  by_cases h18 : f = 18
  · subst h18
    obtain ⟨m, hdvd, hle, hm⟩ := hnear 100 (by decide)
    exact ⟨m, hdvd, reads_of_near hx (k := 7) (by decide) (by omega) (by omega) hm⟩
  by_cases h17 : f = 17
  · subst h17
    obtain ⟨m, hdvd, hle, hm⟩ := hnear 10 (by decide)
    exact ⟨m, hdvd, reads_of_near hx (k := 4) (by decide) (by omega) (by omega) hm⟩
  · refine ⟨r, ?_, reads_self hx hr⟩
    rw [show f - 16 = 0 by omega]
    exact Nat.one_dvd r

/-- A search through a range that finds something finds the first thing that there is. -/
theorem exists_of_findSome?_range {α : Type} {f : Nat → Option α} {n k : Nat} (hk : k < n)
    (h : (f k).isSome) : ∃ i a, i ≤ k ∧ (List.range n).findSome? f = some a ∧ f i = some a ∧
      ∀ j < i, f j = none := by
  induction n generalizing k with
  | zero => cases hk
  | succ n ih =>
      rw [List.range_succ, List.findSome?_append]
      by_cases hearlier : ∃ j < n, (f j).isSome
      · obtain ⟨j, hj, hsome⟩ := hearlier
        obtain ⟨i, a, hij, hfound, ha, hnone⟩ := ih hj hsome
        have hik : i ≤ k := by
          refine Nat.not_lt.1 fun hki => ?_
          rw [hnone k hki] at h
          cases h
        exact ⟨i, a, hik, by rw [hfound]; rfl, ha, hnone⟩
      · have hnone : ∀ j < n, f j = none := by
          intro j hj
          rw [← Option.not_isSome_iff_eq_none]
          exact fun hsome => hearlier ⟨j, hj, hsome⟩
        obtain rfl : k = n := by
          refine Nat.le_antisymm (Nat.le_of_lt_succ hk) (Nat.not_lt.1 fun hlt => ?_)
          exact hearlier ⟨k, hlt, h⟩
        obtain ⟨a, ha⟩ := Option.isSome_iff_exists.1 h
        have hfront : (List.range k).findSome? f = none := by
          rw [List.findSome?_eq_none_iff]
          intro j hj
          exact hnone j (List.mem_range.1 hj)
        exact ⟨k, a, Nat.le_refl k, by simp [hfront, ha], ha, hnone⟩

/-- The search ends on the coarsest grid that has a number that reads back. -/
theorem shortest_nearest (hx : x.units = r * unitsPerOne) {f : Nat} (hf : f ≤ 18)
    (hlow : 10 ^ f ≤ r) (hhigh : r < 10 ^ (f + 1)) : ∃ e p, e ≤ f ∧ (shortest .up x).Denotes p ∧
      Nearest x r e p ∧ ∀ e', e < e' → e' ≤ f → ∀ m, 10 ^ e' ∣ m → ¬ Reads x m := by
  have hr : r < 10 ^ 19 :=
    Nat.lt_of_lt_of_le hhigh (Nat.pow_le_pow_right (by decide) (by omega))
  have hpos : 0 < r := Nat.lt_of_lt_of_le (Nat.pow_pos (by decide)) hlow
  have hsignificand : x.significand ≠ 0 := by
    intro hzero
    rw [units, hzero, Nat.zero_mul] at hx
    have := Nat.mul_pos hpos unitsPerOne_pos
    omega
  have hlen : (Nat.toDigits 10 r).length = f + 1 := by
    have hle := length_toDigits_le hhigh
    have hge : ¬ (Nat.toDigits 10 r).length ≤ f := by
      by_cases hf0 : f = 0
      · have := Nat.length_toDigits_pos (b := 10) (n := r)
        omega
      · rw [Nat.length_toDigits_le_iff (by decide) (Nat.pos_of_ne_zero hf0)]
        omega
    omega
  have hlead : leadingExponent x = (f : Int) := by
    rw [leadingExponent_whole hx hpos, hlen]
    rfl
  have hgrid : ∀ e ≤ f, onGrid? .up x (leadingExponent x - (f - e : Nat)) = onGrid? .up x e := by
    intro e he
    rw [hlead, show (f : Int) - (f - e : Nat) = (e : Int) by omega]
  -- the grid of 17 digits is among those that are searched
  obtain ⟨m, hdvd, hm⟩ := exists_reads_on_grid hx hf hlow hhigh
  have hsome : (onGrid? .up x (leadingExponent x - (f - (f - 16) : Nat))).isSome := by
    rw [hgrid _ (Nat.sub_le f 16), Option.isSome_iff_ne_none]
    intro hnone
    exact not_reads_of_onGrid?_eq_none hx hr hnone hdvd hm
  obtain ⟨more, d, hmore, hfound, htaken, hearlier⟩ := exists_of_findSome?_range
    (f := fun (more : Nat) => onGrid? .up x (leadingExponent x - more)) (n := 17) (by omega) hsome
  have htaken' : onGrid? .up x (f - more : Nat) = some d := by
    rw [← hgrid _ (Nat.sub_le f more), show f - (f - more) = more by omega]
    exact htaken
  obtain ⟨p, hdenotes, hnearest⟩ := nearest_of_onGrid? hx hr htaken'
  refine ⟨f - more, p, Nat.sub_le f more, ?_, hnearest, fun e' he' hef m hdvd => ?_⟩
  · rw [shortest, if_neg hsignificand]
    simp only [hfound]
    exact hdenotes.dropZeros _
  · have hnone := hearlier (f - e') (by omega)
    rw [hgrid e' hef] at hnone
    exact not_reads_of_onGrid?_eq_none hx hr hnone hdvd

/-- The shortest decimal of a whole number from 10^15 to below 10^19 is the roundest of the numbers
that are read as it. -/
theorem exists_roundest (hx : x.units = r * unitsPerOne) (hlow : 10 ^ 15 ≤ r) (hr : r < 10 ^ 19) :
    ∃ p, (shortest .up x).Denotes p ∧ Roundest x p := by
  obtain ⟨f, hf, hflow, hfhigh⟩ : ∃ f ≤ 18, 10 ^ f ≤ r ∧ r < 10 ^ (f + 1) := by
    by_cases h16 : r < 10 ^ 16
    · exact ⟨15, by decide, hlow, h16⟩
    by_cases h17 : r < 10 ^ 17
    · exact ⟨16, by decide, by omega, h17⟩
    by_cases h18 : r < 10 ^ 18
    · exact ⟨17, by decide, by omega, h18⟩
    · exact ⟨18, by decide, by omega, hr⟩
  obtain ⟨e, p, hef, hdenotes, hnearest, hcoarser⟩ := shortest_nearest hx hf hflow hfhigh
  refine ⟨p, hdenotes, hnearest.reads, fun m hm k hdvd => ?_, fun m hm hzeros => ?_⟩
  · -- a number with more zeros would lie on a coarser grid, or beyond the next power of ten
    refine Nat.dvd_trans (Nat.pow_dvd_pow 10 (Nat.not_lt.1 fun hek => ?_)) hnearest.dvd
    have hdvd' : 10 ^ (e + 1) ∣ m := Nat.dvd_trans (Nat.pow_dvd_pow 10 hek) hdvd
    by_cases hnext : e + 1 ≤ f
    · exact hcoarser (e + 1) (Nat.lt_succ_self e) hnext m hdvd' hm
    · obtain rfl : e = f := by omega
      have hlt := lt_pow_of_reads (by omega) hx hfhigh hm
      have hpos := pos_of_reads hx (Nat.lt_of_lt_of_le (by decide) hlow) hm
      exact absurd (Nat.le_of_dvd hpos hdvd') (Nat.not_le.2 hlt)
  · have hmp := hnearest.nearest m (hzeros e hnearest.dvd) hm
    rw [hx, Nat.dist_mul_right, Nat.dist_mul_right]
    rcases hmp with hlt | ⟨heq, hle⟩
    · exact .inl (Nat.mul_lt_mul_of_pos_right hlt unitsPerOne_pos)
    · exact .inr ⟨by rw [heq], hle⟩

end Stencil.Decimal
