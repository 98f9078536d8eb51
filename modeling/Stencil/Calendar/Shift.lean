import Stencil.Calendar.Instant

/-!
# Shifts

`Instant.shift?` moves an instant by an amount of a unit. Amounts are integers of 64 bits with a
sign, and each unit has its own way to the calendar: years and weeks are multiplied out to months
and days, months are counted in 32 bits, and hours and shorter units become a span of time, whose
milliseconds have 64 bits again. Calendar units keep the time of day in the zone, and months keep
the day of the month as far as the month has it. The main statements are that none of the ways
wraps around (`toInt_of_times?`, `toNat_magnitude`, `toNat_of_count?`).
-/

namespace Stencil

/-- The units in which instants are moved. -/
inductive TimeUnit where
  | year
  | month
  | week
  | day
  | hour
  | minute
  | second
  | millisecond
  deriving Repr, DecidableEq

/-- The unit that a text names. -/
def TimeUnit.ofText? (s : String) : Option TimeUnit :=
  match s with
  | "y" => some .year
  | "M" => some .month
  | "w" => some .week
  | "d" => some .day
  | "h" => some .hour
  | "m" => some .minute
  | "s" => some .second
  | "ms" => some .millisecond
  | _ => none

/-! ## Amounts -/

namespace Amount

/-- The product of two amounts, if it has 64 bits. -/
def times? (a b : Int64) : Option Int64 :=
  let product := a.toInt * b.toInt
  if -9223372036854775808 ≤ product ∧ product < 9223372036854775808 then some (a * b) else none

/-- An amount without its sign. The least amount is its own negative, but its bits, read without a
sign, are its magnitude. -/
def magnitude (n : Int64) : UInt64 := (if n < 0 then -n else n).toUInt64

/-- An amount without its sign, if it has 32 bits. -/
def count? (n : Int64) : Option UInt32 :=
  if (magnitude n).toNat < 4294967296 then some (magnitude n).toUInt32 else none

/-- The nanoseconds of an amount of a length in milliseconds; no span has more milliseconds than
the largest amount. -/
def span? (n : Int64) (length : Int) : Option Int :=
  let milliseconds := n.toInt * length
  if milliseconds.natAbs < 9223372036854775808 then some (milliseconds * 1000000) else none

theorem toInt_of_times? {a b product : Int64} (h : times? a b = some product) :
    product.toInt = a.toInt * b.toInt := by
  unfold times? at h
  dsimp only at h
  split at h
  next hfits =>
    cases h
    rw [Int64.toInt_mul]
    exact Int.bmod_eq_of_le (by omega) (by omega)
  next => cases h

/-- Only a product beyond 64 bits is refused. -/
theorem le_natAbs_of_times? {a b : Int64} (h : times? a b = none) :
    9223372036854775808 ≤ (a.toInt * b.toInt).natAbs := by
  unfold times? at h
  dsimp only at h
  split at h
  next => cases h
  next => omega

/-- The bits of an amount, read without a sign. -/
theorem toNat_toUInt64 (n : Int64) : (n.toUInt64.toNat : Int) = n.toInt % 18446744073709551616 := by
  have hsigned : n.toInt = n.toBitVec.toInt := rfl
  have hunsigned : n.toUInt64.toNat = n.toBitVec.toNat := rfl
  have hlt := n.toBitVec.isLt
  rw [hsigned, hunsigned, BitVec.toInt_eq_toNat_cond]
  split <;> omega

theorem toNat_magnitude (n : Int64) : (magnitude n).toNat = n.toInt.natAbs := by
  have hle := n.le_toInt
  have hlt := n.toInt_lt
  have hbits := toNat_toUInt64 (if n < 0 then -n else n)
  unfold magnitude
  by_cases h : n < 0
  · have hneg : n.toInt < 0 := Int64.lt_iff_toInt_lt.1 h
    rw [if_pos h] at hbits ⊢
    rw [Int64.toInt_neg, Int.bmod_def] at hbits
    split at hbits <;> omega
  · have hpos : ¬ n.toInt < 0 := fun hneg => h (Int64.lt_iff_toInt_lt.2 hneg)
    rw [if_neg h] at hbits ⊢
    omega

theorem toNat_of_count? {n : Int64} {count : UInt32} (h : count? n = some count) :
    count.toNat = n.toInt.natAbs := by
  unfold count? at h
  split at h
  next hfits =>
    cases h
    rw [UInt64.toNat_toUInt32, Nat.mod_eq_of_lt hfits, toNat_magnitude]
  next => cases h

/-- Only a count beyond 32 bits is refused. -/
theorem le_natAbs_of_count? {n : Int64} (h : count? n = none) :
    4294967296 ≤ n.toInt.natAbs := by
  unfold count? at h
  split at h
  next => cases h
  next hlong =>
    rw [toNat_magnitude] at hlong
    exact Nat.not_lt.1 hlong

end Amount

/-! ## Instants -/

namespace Instant

/-- Moves an instant by months. -/
def shiftMonths (zone : Int) (t : Instant) (months : Int64) : Option Instant := do
  let count ← Amount.count? months
  if 0 ≤ months then t.addMonths zone count.toNat else t.addMonths zone (-count.toNat)

/-- Moves an instant by days. -/
def shiftDays (zone : Int) (t : Instant) (days : Int64) : Option Instant :=
  let count := Amount.magnitude days
  if 0 ≤ days then t.addDays zone count.toNat else t.addDays zone (-count.toNat)

/-- Moves an instant by an amount of a length in milliseconds. -/
def shiftSpan (t : Instant) (amount : Int64) (length : Int) : Option Instant := do
  (t.addNanos (← Amount.span? amount length)).checked

/-- Moves an instant by an amount of a unit. -/
def shift? (zone : Int) (t : Instant) (amount : Int64) : TimeUnit → Option Instant
  | .year => do t.shiftMonths zone (← Amount.times? amount 12)
  | .month => t.shiftMonths zone amount
  | .week => do t.shiftDays zone (← Amount.times? amount 7)
  | .day => t.shiftDays zone amount
  | .hour => t.shiftSpan amount 3600000
  | .minute => t.shiftSpan amount 60000
  | .second => t.shiftSpan amount 1000
  | .millisecond => t.shiftSpan amount 1

end Instant

end Stencil
