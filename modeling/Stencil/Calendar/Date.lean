/-!
# Dates

Dates of the proleptic Gregorian calendar, counted in days. Day 0 is the first of January of the
year 0, which is a leap year; years before it are negative. The main statements are that every day
lies in its year (`yearOf_spec`) and in no other (`yearOf_eq`).
-/

namespace Stencil

/-! ## Years -/

/-- Whether a year has a twenty-ninth of February. -/
def isLeapYear (year : Int) : Bool := year % 4 == 0 && (year % 100 != 0 || year % 400 == 0)

/-- The number of days in a year. -/
def yearLength (year : Int) : Int := if isLeapYear year then 366 else 365

/-- The first day of a year. -/
def yearStart (year : Int) : Int :=
  365 * year + (year + 3) / 4 - (year + 99) / 100 + (year + 399) / 400

/-- The year that a day belongs to: a guess from the mean length of a year, set right by one. -/
def yearOf (day : Int) : Int :=
  let guess := 400 * day / 146097
  if day < yearStart guess then guess - 1
  else if yearStart (guess + 1) ≤ day then guess + 1
  else guess

theorem isLeapYear_iff (year : Int) :
    isLeapYear year = true ↔ year % 4 = 0 ∧ (year % 100 ≠ 0 ∨ year % 400 = 0) := by
  simp [isLeapYear]

theorem yearStart_succ (year : Int) : yearStart (year + 1) = yearStart year + yearLength year := by
  have hleap := isLeapYear_iff year
  unfold yearLength yearStart
  by_cases h : isLeapYear year = true
  · rw [if_pos h]; have := hleap.1 h; omega
  · rw [if_neg h]; have := mt hleap.2 h; omega

/-- A day lies in its year. -/
theorem yearOf_spec (day : Int) :
    yearStart (yearOf day) ≤ day ∧ day < yearStart (yearOf day + 1) := by
  have guess : yearStart (400 * day / 146097 - 1) ≤ day ∧
      day < yearStart (400 * day / 146097 + 2) := by
    unfold yearStart; constructor <;> omega
  unfold yearOf
  simp only
  split
  next h => exact ⟨guess.1, by rwa [Int.sub_add_cancel]⟩
  next h =>
    split
    next h' => exact ⟨h', by rw [Int.add_assoc]; exact guess.2⟩
    next h' => exact ⟨Int.not_lt.1 h, Int.not_le.1 h'⟩

theorem yearStart_mono {a b : Int} (h : a ≤ b) : yearStart a ≤ yearStart b := by
  unfold yearStart; omega

/-- A day lies in one year only. -/
theorem yearOf_eq {day year : Int} (h1 : yearStart year ≤ day) (h2 : day < yearStart (year + 1)) :
    yearOf day = year := by
  obtain ⟨h3, h4⟩ := yearOf_spec day
  have h5 : ¬ yearOf day < year := fun h => by
    have := yearStart_mono (show yearOf day + 1 ≤ year by omega); omega
  have h6 : ¬ year < yearOf day := fun h => by
    have := yearStart_mono (show year + 1 ≤ yearOf day by omega); omega
  omega

/-! ## Months -/

/-- The lengths of the months of a year. -/
def monthLengths (leap : Bool) : List Nat :=
  [31, if leap then 29 else 28, 31, 30, 31, 30, 31, 31, 30, 31, 30, 31]

/-- The length of a month, counted from one. -/
def monthLength (year : Int) (month : Nat) : Nat :=
  (monthLengths (isLeapYear year)).getD (month - 1) 0

/-- The days of a year before a month. -/
def daysBefore (leap : Bool) (month : Nat) : Nat :=
  ((monthLengths leap).take (month - 1)).foldl (· + ·) 0

/-- The place of a day, counted from zero, among months of these lengths: how many months lie
before it, and which day of its month it is, both counted from zero. -/
def placeIn : (lengths : List Nat) → (day : Nat) → Nat × Nat
  | [], day => (0, day)
  | length :: rest, day =>
    if day < length then (0, day)
    else
      let (months, day) := placeIn rest (day - length)
      (months + 1, day)

/-! ## Dates -/

/-- A date; months and days are counted from one. -/
structure Date where
  year : Int
  month : Nat
  day : Nat
  deriving Repr, DecidableEq

namespace Date

/-- The number of the day. -/
def toDay (d : Date) : Int :=
  yearStart d.year + (daysBefore (isLeapYear d.year) d.month + (d.day - 1) : Nat)

/-- The place of a day in its year, counted from one. -/
def ordinal (day : Int) : Nat := (day - yearStart (yearOf day)).toNat + 1

/-- The date of a day. -/
def ofDay (day : Int) : Date :=
  let year := yearOf day
  let (months, day) := placeIn (monthLengths (isLeapYear year)) (ordinal day - 1)
  ⟨year, months + 1, day + 1⟩

/-- The first of January 1970. -/
def epoch : Int := (Date.mk 1970 1 1).toDay

/-- The day of the week of a day, counted from Sunday as zero. Day 0 is a Saturday. -/
def weekday (day : Int) : Nat := ((day + 6) % 7).toNat

/-- The first day that is represented. -/
def minDay : Int := (Date.mk (-262143) 1 1).toDay

/-- The last day that is represented. -/
def maxDay : Int := (Date.mk 262142 12 31).toDay

/-- Whether a day is represented. -/
def inRange (day : Int) : Bool := minDay ≤ day && day ≤ maxDay

/-- The date a number of months away; the day is cut to the length of the month. -/
def addMonths (d : Date) (months : Int) : Date :=
  let index := d.year * 12 + (d.month - 1 : Nat) + months
  let year := index / 12
  let month := (index % 12).toNat + 1
  ⟨year, month, min d.day (monthLength year month)⟩

end Date

end Stencil
