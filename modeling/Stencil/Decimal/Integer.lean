/-!
# Integers in texts

Reading of integers written in ASCII digits with an optional sign. A reader has a range, and a
text whose number lies outside it is refused like one that is no number. A text is read as a
number if it is the digits of the number with zeros in front of them, if any
(`natural?_eq_some_iff`, `nat64?_eq_some_iff`).
-/

namespace Stencil.Decimal

/-- The value of a text of ASCII digits, at least one. -/
def natural? : List Char → Option Nat
  | [] => none
  | c :: r =>
    if (c :: r).all Char.isDigit then
      some ((c :: r).foldl (fun n d => 10 * n + (d.toNat - '0'.toNat)) 0)
    else none

/-- The value of digits with an optional sign in front. -/
def integer? : List Char → Option Int
  | '+' :: r => (natural? r).map Int.ofNat
  | '-' :: r => (natural? r).map fun n => -Int.ofNat n
  | cs => (natural? cs).map Int.ofNat

/-- An integer of 64 bits with sign. -/
def int64? (cs : List Char) : Option Int :=
  match integer? cs with
  | some n => if -9223372036854775808 ≤ n ∧ n < 9223372036854775808 then some n else none
  | none => none

/-- A natural number of 64 bits; a plus sign may stand in front, a minus sign may not. -/
def nat64? (cs : List Char) : Option Nat :=
  let digits := match cs with
    | '+' :: r => r
    | _ => cs
  match natural? digits with
  | some n => if n < 18446744073709551616 then some n else none
  | none => none

/-- A number padded with zeros to at least `width` digits. -/
def padded (width n : Nat) : List Char :=
  let digits := Nat.toDigits 10 n
  List.replicate (width - digits.length) '0' ++ digits

/-- An integer as text. -/
def ofInt (n : Int) : String := toString n

/-! ## Reading what was written -/

theorem isDigit_of_mem_toDigits {n : Nat} {c : Char} (h : c ∈ Nat.toDigits 10 n) : c.isDigit :=
  Nat.isDigit_of_mem_toDigits (by decide) (by decide) h

/-- A digit is the character of a number below ten. -/
theorem exists_digitChar {c : Char} (h : c.isDigit) : ∃ d, d < 10 ∧ c = d.digitChar := by
  obtain ⟨hmin, hmax⟩ := Bool.and_eq_true_iff.1 h
  have hlow : 48 ≤ c.toNat := of_decide_eq_true hmin
  have hhigh : c.toNat ≤ 57 := of_decide_eq_true hmax
  refine ⟨c.toNat - 48, by omega, ?_⟩
  apply Char.toNat_inj.1
  rw [Nat.toNat_digitChar_of_lt_ten (by omega)]
  omega

/-- Digits behind those of a positive number are the last digits of a larger one. -/
theorem toDigits_append {n : Nat} (hpos : 0 < n) {cs : List Char} (h : ∀ c ∈ cs, c.isDigit) :
    Nat.toDigits 10 n ++ cs = Nat.toDigits 10 (Nat.ofDigitChars 10 cs n) := by
  induction cs generalizing n with
  | nil => simp
  | cons c r ih =>
    obtain ⟨hc, hr⟩ := List.forall_mem_cons.1 h
    obtain ⟨d, hd, rfl⟩ := exists_digitChar hc
    have hnext : Nat.toDigits 10 n ++ [d.digitChar] = Nat.toDigits 10 (10 * n + d) := by
      rw [← Nat.toDigits_append_toDigits (by decide) hpos hd, Nat.toDigits_of_lt_base hd]
    calc Nat.toDigits 10 n ++ d.digitChar :: r
      _ = Nat.toDigits 10 n ++ [d.digitChar] ++ r := by simp
      _ = Nat.toDigits 10 (10 * n + d) ++ r := by rw [hnext]
      _ = Nat.toDigits 10 (Nat.ofDigitChars 10 r (10 * n + d)) := ih (by omega) hr
      _ = Nat.toDigits 10 (Nat.ofDigitChars 10 (d.digitChar :: r) n) := by
        rw [Nat.ofDigitChars_cons_digitChar_of_lt_ten hd]

/-- A text of digits is the digits of its value behind zeros. -/
theorem exists_zeros_append {cs : List Char} (hne : cs ≠ []) (h : ∀ c ∈ cs, c.isDigit) :
    ∃ zeros, cs = List.replicate zeros '0' ++ Nat.toDigits 10 (Nat.ofDigitChars 10 cs 0) := by
  induction cs with
  | nil => exact absurd rfl hne
  | cons c r ih =>
    obtain ⟨hc, hr⟩ := List.forall_mem_cons.1 h
    obtain ⟨d, hd, rfl⟩ := exists_digitChar hc
    rw [Nat.ofDigitChars_cons_digitChar_of_lt_ten hd, Nat.mul_zero, Nat.zero_add]
    by_cases hzero : d = 0
    · subst hzero
      cases r with
      | nil => exact ⟨0, rfl⟩
      | cons c r =>
        obtain ⟨zeros, heq⟩ := ih (by simp) hr
        refine ⟨zeros + 1, ?_⟩
        rw [List.replicate_succ, List.cons_append, ← heq]
        rfl
    · -- The first digit is that of a positive number, and the others stand behind it.
      have hall := toDigits_append (Nat.pos_of_ne_zero hzero) hr
      rw [Nat.toDigits_of_lt_base hd] at hall
      exact ⟨0, hall⟩

/-- A text of digits is read. -/
theorem natural?_of_isDigit {cs : List Char} (hne : cs ≠ []) (h : ∀ c ∈ cs, c.isDigit) :
    natural? cs = some (Nat.ofDigitChars 10 cs 0) := by
  cases cs with
  | nil => exact absurd rfl hne
  | cons c r =>
    rw [natural?, if_pos (List.all_eq_true.2 h)]
    rfl

/-- The texts of a number are its digits with zeros in front of them. -/
theorem natural?_eq_some_iff {cs : List Char} {n : Nat} :
    natural? cs = some n ↔ ∃ zeros, cs = List.replicate zeros '0' ++ Nat.toDigits 10 n := by
  constructor
  · intro h
    cases cs with
    | nil => cases h
    | cons c r =>
      rw [natural?] at h
      split at h
      next hdigits =>
        obtain ⟨zeros, heq⟩ := exists_zeros_append (by simp) (List.all_eq_true.1 hdigits)
        have hvalue : Nat.ofDigitChars 10 (c :: r) 0 = n := Option.some.inj h
        rw [hvalue] at heq
        exact ⟨zeros, heq⟩
      next => cases h
  · rintro ⟨zeros, rfl⟩
    have hne : List.replicate zeros '0' ++ Nat.toDigits 10 n ≠ [] := by simp
    have hdigits : ∀ c ∈ List.replicate zeros '0' ++ Nat.toDigits 10 n, c.isDigit := by
      intro c hc
      rcases List.mem_append.1 hc with hc | hc
      · rw [List.eq_of_mem_replicate hc]
        rfl
      · exact isDigit_of_mem_toDigits hc
    rw [natural?_of_isDigit hne hdigits, Nat.ofDigitChars_append, Nat.ofDigitChars_replicate_zero,
      Nat.mul_zero, Nat.ofDigitChars_ten_toDigits]

/-- The digits of a number, with zeros in front of them and possibly a plus sign in front of all. -/
def spelling (plus : Bool) (zeros n : Nat) : List Char :=
  (if plus then ['+'] else []) ++ (List.replicate zeros '0' ++ Nat.toDigits 10 n)

/-- In front of the zeros of a number of 64 bits a plus sign may stand. -/
theorem nat64?_eq_some_iff {cs : List Char} {n : Nat} :
    nat64? cs = some n ↔
      n < 18446744073709551616 ∧ ∃ plus zeros, cs = spelling plus zeros n := by
  constructor
  · intro h
    unfold nat64? at h
    dsimp only at h
    split at h
    next m hm =>
      split at h
      next hlt =>
        obtain rfl : m = n := Option.some.inj h
        refine ⟨hlt, ?_⟩
        split at hm
        next r =>
          obtain ⟨zeros, rfl⟩ := natural?_eq_some_iff.1 hm
          exact ⟨true, zeros, rfl⟩
        next =>
          obtain ⟨zeros, rfl⟩ := natural?_eq_some_iff.1 hm
          exact ⟨false, zeros, rfl⟩
      next => cases h
    next => cases h
  · rintro ⟨hlt, plus, zeros, rfl⟩
    have hread : natural? (List.replicate zeros '0' ++ Nat.toDigits 10 n) = some n :=
      natural?_eq_some_iff.2 ⟨zeros, rfl⟩
    cases plus with
    | true =>
      have hplus : nat64? ('+' :: (List.replicate zeros '0' ++ Nat.toDigits 10 n)) = some n := by
        rw [nat64?, hread]
        exact if_pos hlt
      exact hplus
    | false =>
      rw [spelling, if_neg Bool.false_ne_true, List.nil_append]
      generalize List.replicate zeros '0' ++ Nat.toDigits 10 n = digits at hread
      unfold nat64?
      split
      next r => cases hread
      next =>
        dsimp only
        rw [hread]
        exact if_pos hlt

/-- The digits of a number are read as that number. -/
theorem natural?_toDigits (n : Nat) : natural? (Nat.toDigits 10 n) = some n :=
  natural?_eq_some_iff.2 ⟨0, rfl⟩

end Stencil.Decimal
