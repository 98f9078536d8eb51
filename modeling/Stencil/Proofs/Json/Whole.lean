import Stencil.Proofs.Json.Number

/-!
# Whole numbers in documents

A whole number below 10^15 is written into a document as its digits and a zero behind the point.
The literal is well formed, because the first digit of a positive number is no zero
(`head?_toDigits`). Its significand is ten times the number, which is exact, so it is read as
exactly the number (`binary64?_write`).
-/

namespace Stencil.Json

open Binary64

/-- The first digit of a positive number is no zero. -/
theorem head?_toDigits {w : Nat} (h : 0 < w) : (Nat.toDigits 10 w).head? ≠ some '0' := by
  induction w using Nat.strongRecOn with
  | ind w ih =>
    rw [Nat.toDigits_eq_if (by decide)]
    split
    next hlt =>
      have hdigit : ∀ n < 10, 0 < n → n.digitChar ≠ '0' := by decide
      simpa using hdigit w hlt h
    next hge =>
      have hpos : 0 < w / 10 := Nat.div_pos (Nat.not_lt.1 hge) (by decide)
      rw [List.head?_append, Option.or_of_isSome (by simp)]
      exact ih (w / 10) (Nat.div_lt_self h (by decide)) hpos

/-- A literal of digits, of a sign in front of them, and of a fraction behind them. -/
theorem ofLiteral?_toDigits (negative : Bool) (w : Nat) {tail fraction : List Char}
    (htail : ∀ c ∈ tail.head?, c.isDigit = false)
    (hfraction : Number.fraction? tail = some (fraction, [])) :
    Number.ofLiteral? ((if negative then ['-'] else []) ++ (Nat.toDigits 10 w ++ tail)) =
      some ⟨negative, Nat.toDigits 10 w, fraction, none⟩ := by
  have htake : (Nat.toDigits 10 w ++ tail).takeWhile Char.isDigit = Nat.toDigits 10 w := by
    rw [List.takeWhile_append_of_pos fun c hc => Decimal.isDigit_of_mem_toDigits hc]
    cases tail with
    | nil => simp
    | cons c tail => simp [htail c rfl]
  have hdrop : (Nat.toDigits 10 w ++ tail).dropWhile Char.isDigit = tail := by
    rw [List.dropWhile_append_of_pos fun c hc => Decimal.isDigit_of_mem_toDigits hc]
    cases tail with
    | nil => rfl
    | cons c tail => simp [htail c rfl]
  have hwhole : ¬ (Nat.toDigits 10 w = [] ∨
      (Nat.toDigits 10 w).head? = some '0' ∧ Nat.toDigits 10 w ≠ ['0']) := by
    rintro (hnil | ⟨hhead, hne⟩)
    · exact Nat.toDigits_ne_nil hnil
    · by_cases h : w = 0
      · subst h
        exact hne rfl
      · exact head?_toDigits (Nat.pos_of_ne_zero h) hhead
  have hexponent : Number.exponent? [] = some none := rfl
  have hsign : ∀ r, Nat.toDigits 10 w ++ tail ≠ '-' :: r := by
    intro r heq
    have hmem : '-' ∈ Nat.toDigits 10 w := by
      cases hdigits : Nat.toDigits 10 w with
      | nil => exact absurd hdigits Nat.toDigits_ne_nil
      | cons c r' =>
        rw [hdigits] at heq
        exact List.mem_cons.2 (.inl (List.cons.inj heq).1.symm)
    exact absurd (Decimal.isDigit_of_mem_toDigits hmem) (by decide)
  cases negative with
  | true =>
    simp only [if_true, List.cons_append, List.nil_append, Number.ofLiteral?, htake, hdrop,
      if_neg hwhole, hfraction, hexponent, Option.bind_eq_bind, Option.bind_some]
    rfl
  | false =>
    simp only [Bool.false_eq_true, if_false, List.nil_append]
    unfold Number.ofLiteral?
    split
    next heq =>
      split at heq
      next r hminus => exact absurd hminus (hsign r)
      next =>
        obtain ⟨rfl, rfl⟩ := Prod.mk.inj heq
        simp only [htake, hdrop, if_neg hwhole, hfraction, hexponent, Option.bind_eq_bind,
          Option.bind_some]
        rfl

/-- The literal of a whole number with a zero behind the point. -/
theorem ofLiteral?_whole (negative : Bool) (w : Nat) :
    Number.ofLiteral?
        ((if negative then ['-'] else []) ++ (Nat.toDigits 10 w ++ ['.', '0'])) =
      some ⟨negative, Nat.toDigits 10 w, ['0'], none⟩ := by
  have htail : ∀ c ∈ ['.', '0'].head?, c.isDigit = false := by
    rintro c ⟨rfl⟩
    rfl
  exact ofLiteral?_toDigits negative w htail rfl

/-- The literal of an integer is its digits with their sign. -/
theorem ofLiteral?_integer (negative : Bool) (w : Nat) :
    Number.ofLiteral? ((if negative then ['-'] else []) ++ Nat.toDigits 10 w) =
      some ⟨negative, Nat.toDigits 10 w, [], none⟩ := by
  have htail : ∀ c ∈ ([] : List Char).head?, c.isDigit = false := by simp
  have hdigits := ofLiteral?_toDigits negative w htail rfl
  rw [List.append_nil] at hdigits
  exact hdigits

variable {x : Binary64} {w : Nat}

/-- Ten times a number, over ten. -/
theorem ofDecimal?_tenth (hx : x.units = w * unitsPerOne) (hw : w < 1000000000000000) :
    ofDecimal? x.negative (10 * w) (-1) = some x := by
  by_cases hzero : w = 0
  · have hsame : zero x.negative = x := by
      refine eq_of_units rfl ?_
      rw [hx, hzero, Nat.zero_mul]
      rfl
    simp [ofDecimal?, hzero, hsame]
  · have hlen : (Nat.toDigits 10 (10 * w)).length ≤ 16 :=
      (Nat.length_toDigits_le_iff (by decide) (by decide)).2 (by omega)
    have hunits : 10 * w * unitsPerOne = x.units * 10 := by
      rw [hx, Nat.mul_comm (w * unitsPerOne), Nat.mul_assoc]
    rw [ofDecimal?_eq_ofQuotient? x.negative (by omega) (by omega) (by omega), if_neg (by decide),
      hunits]
    exact ofQuotient?_units x (by decide)

/-- Ten times a number below 10^15 is a number of the format, although it may be above 2^53. -/
theorem exact_ten_mul (hw : w < 1000000000000000) : Exact (10 * w) := by
  by_cases hzero : w = 0
  · exact ⟨zero false, by simp [hzero, units, zero]⟩
  · have heven : 5 * w * 2 ^ 1 = 10 * w := by omega
    rw [← heven]
    exact exact_mul_pow (by omega) (by omega) (by decide)

/-- A whole number is read back from what is written of it. -/
theorem binary64?_write (hx : x.units = w * unitsPerOne) (hw : w < 1000000000000000) :
    binary64? (Layout.json.write x) = some x := by
  let n : Number := ⟨x.negative, Nat.toDigits 10 w, ['0'], none⟩
  have hdigits : n.digits = 10 * w := by
    rw [Number.digits, Nat.ofDigitChars_append, Nat.ofDigitChars_ten_toDigits]
    rfl
  have hplaces : n.places = -1 := rfl
  have hexact : Exact n.digits := hdigits.symm ▸ exact_ten_mul hw
  have hbound : n.digits < Number.significandBound := by
    rw [hdigits, Number.significandBound]
    omega
  have hnearest := Number.toBinary64?_nearest hexact hbound (by rw [hplaces]; decide)
    (Nat.zero_le _)
  rw [hdigits, hplaces] at hnearest
  rw [Layout.write_json hx hw, binary64?, ofLiteral?_whole]
  exact hnearest.trans (ofDecimal?_tenth hx hw)

theorem isSome_ofLiteral?_write (hx : x.units = w * unitsPerOne) (hw : w < 1000000000000000) :
    (Number.ofLiteral? (Layout.json.write x)).isSome := by
  rw [Layout.write_json hx hw, ofLiteral?_whole]
  rfl

end Stencil.Json
