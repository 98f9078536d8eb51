import Mathlib
import Stencil.Calendar.Date

/-!
# Days and dates

Days and valid dates stand for each other: every day is the day of its date (`toDay_ofDay`), and
every valid date is the date of its day (`ofDay_toDay`). Moving a valid date by months gives a
valid date, whose month is that many months away and whose day is cut to its length
(`valid_addMonths`, `monthIndex_addMonths`). A day is represented if its year is one from -262143
to 262142 (`inRange_iff`).
-/

namespace Stencil

/-! ## Places among months -/

section

variable {lengths : List Nat} {months day : Nat}

/-- A day of a month lies among the days of all months. -/
theorem sum_take_add_lt (h : day < lengths.getD months 0) :
    (lengths.take months).sum + day < lengths.sum := by
  induction lengths generalizing months with
  | nil => simp at h
  | cons length rest ih =>
    cases months with
    | zero =>
      have hday : day < length := h
      rw [List.take_zero, List.sum_nil, List.sum_cons]
      omega
    | succ months =>
      have hrest : (rest.take months).sum + day < rest.sum := ih h
      rw [List.take_succ_cons, List.sum_cons, List.sum_cons]
      omega

/-- The place of a day of a month. -/
theorem placeIn_eq (h : day < lengths.getD months 0) :
    placeIn lengths ((lengths.take months).sum + day) = (months, day) := by
  induction lengths generalizing months with
  | nil => simp at h
  | cons length rest ih =>
    cases months with
    | zero =>
      have hday : day < length := h
      rw [List.take_zero, List.sum_nil, Nat.zero_add, placeIn, if_pos hday]
    | succ months =>
      have hrest : placeIn rest ((rest.take months).sum + day) = (months, day) := ih h
      have hsub : length + (rest.take months).sum + day - length =
          (rest.take months).sum + day := by omega
      rw [List.take_succ_cons, List.sum_cons, placeIn, if_neg (by omega), hsub, hrest]

/-- A day among the days of all months is a day of the month that it is placed in. -/
theorem placeIn_spec (h : day < lengths.sum) :
    (placeIn lengths day).2 < lengths.getD (placeIn lengths day).1 0 ∧
      (lengths.take (placeIn lengths day).1).sum + (placeIn lengths day).2 = day := by
  induction lengths generalizing day with
  | nil => simp at h
  | cons length rest ih =>
    rw [placeIn]
    split
    next hday => exact ⟨hday, by simp⟩
    next hday =>
      rw [List.sum_cons] at h
      have hrest : day - length < rest.sum := by omega
      obtain ⟨hlt, hsum⟩ := ih hrest
      refine ⟨hlt, ?_⟩
      simp only [List.take_succ_cons, List.sum_cons]
      omega

end

theorem sum_monthLengths (year : Int) :
    ((monthLengths (isLeapYear year)).sum : Int) = yearLength year := by
  unfold yearLength
  cases isLeapYear year <;> rfl

theorem daysBefore_eq (leap : Bool) (month : Nat) :
    daysBefore leap month = ((monthLengths leap).take (month - 1)).sum :=
  List.sum_eq_foldl.symm

/-- The months of a year are twelve. -/
theorem lt_of_lt_monthLengths {leap : Bool} {months day : Nat}
    (h : day < (monthLengths leap).getD months 0) : months < 12 := by
  refine Nat.not_le.1 fun hge => ?_
  have hnone : (monthLengths leap)[months]? = none := List.getElem?_eq_none hge
  rw [List.getD_eq_getElem?_getD, hnone] at h
  exact Nat.not_lt_zero day h

/-- Every month has a day. -/
theorem monthLength_pos {year : Int} {month : Nat} (h : month ≤ 12) :
    0 < monthLength year month := by
  have hall : ∀ leap, ∀ month < 13, 0 < (monthLengths leap).getD (month - 1) 0 := by decide
  exact hall (isLeapYear year) month (Nat.lt_succ_of_le h)

namespace Date

/-- The day of a date is a day of its month. -/
structure Valid (d : Date) : Prop where
  month_pos : 1 ≤ d.month
  month_le : d.month ≤ 12
  day_pos : 1 ≤ d.day
  day_le : d.day ≤ monthLength d.year d.month

/-- The number of the month, counted from the first month of the year 0. -/
def monthIndex (d : Date) : Int := d.year * 12 + (d.month - 1 : Nat)

theorem year_ofDay (day : Int) : (ofDay day).year = yearOf day := rfl

/-! ## From days to dates -/

/-- A day has a place in its year. -/
theorem ordinal_lt (day : Int) :
    ordinal day - 1 < (monthLengths (isLeapYear (yearOf day))).sum := by
  obtain ⟨hle, hlt⟩ := yearOf_spec day
  have hsum := sum_monthLengths (yearOf day)
  rw [yearStart_succ] at hlt
  unfold ordinal
  omega

theorem valid_ofDay (day : Int) : (ofDay day).Valid := by
  obtain ⟨hlt, -⟩ := placeIn_spec (ordinal_lt day)
  have hmonth := lt_of_lt_monthLengths hlt
  exact ⟨Nat.le_add_left 1 _, hmonth, Nat.le_add_left 1 _, hlt⟩

theorem toDay_ofDay (day : Int) : (ofDay day).toDay = day := by
  obtain ⟨-, hsum⟩ := placeIn_spec (ordinal_lt day)
  obtain ⟨hle, -⟩ := yearOf_spec day
  have hday : ((ordinal day - 1 : Nat) : Int) = day - yearStart (yearOf day) := by
    unfold ordinal
    omega
  rw [toDay, daysBefore_eq, year_ofDay]
  simp only [ofDay, Nat.add_sub_cancel]
  rw [hsum]
  omega

/-! ## From dates to days -/

variable {d : Date}

theorem Valid.day_lt (h : d.Valid) :
    d.day - 1 < (monthLengths (isLeapYear d.year)).getD (d.month - 1) 0 := by
  have hle := h.day_le
  have hpos := h.day_pos
  rw [monthLength] at hle
  omega

/-- The day of a valid date lies in the year of the date. -/
theorem Valid.yearOf_toDay (h : d.Valid) : yearOf d.toDay = d.year := by
  have hlt := sum_take_add_lt h.day_lt
  have hsum := sum_monthLengths d.year
  have hsucc := yearStart_succ d.year
  rw [← daysBefore_eq] at hlt
  refine yearOf_eq ?_ ?_
  · unfold toDay
    omega
  · unfold toDay
    omega

/-- A valid date is the date of its day. -/
theorem Valid.ofDay_toDay (h : d.Valid) : ofDay d.toDay = d := by
  have hyear := h.yearOf_toDay
  have hplace : ordinal d.toDay - 1 =
      ((monthLengths (isLeapYear d.year)).take (d.month - 1)).sum + (d.day - 1) := by
    rw [← daysBefore_eq, ordinal, hyear, toDay]
    omega
  have hmonth : d.month - 1 + 1 = d.month := Nat.sub_add_cancel h.month_pos
  have hday : d.day - 1 + 1 = d.day := Nat.sub_add_cancel h.day_pos
  rw [ofDay, hyear, hplace]
  simp only
  rw [placeIn_eq h.day_lt, hmonth, hday]

/-! ## The represented days -/

theorem lt_yearStart_iff {day year : Int} : day < yearStart year ↔ yearOf day < year := by
  obtain ⟨hle, hlt⟩ := yearOf_spec day
  constructor
  · intro h
    refine Int.not_le.1 fun hge => ?_
    have hmono := yearStart_mono hge
    omega
  · intro h
    have hmono := yearStart_mono (show yearOf day + 1 ≤ year by omega)
    omega

theorem inRange_iff {day : Int} :
    inRange day = true ↔ -262143 ≤ yearOf day ∧ yearOf day ≤ 262142 := by
  have hmin : minDay = yearStart (-262143) := by decide
  have hmax : maxDay + 1 = yearStart 262143 := by decide
  have hfirst : day < minDay ↔ yearOf day < -262143 := by rw [hmin, lt_yearStart_iff]
  have hlast : day < maxDay + 1 ↔ yearOf day < 262143 := by rw [hmax, lt_yearStart_iff]
  simp only [inRange, Bool.and_eq_true, decide_eq_true_eq]
  omega

/-! ## Months -/

theorem valid_addMonths (h : d.Valid) (months : Int) : (d.addMonths months).Valid := by
  have hmonth : ((d.year * 12 + (d.month - 1 : Nat) + months) % 12).toNat + 1 ≤ 12 := by omega
  refine ⟨Nat.le_add_left 1 _, hmonth, ?_, Nat.min_le_right _ _⟩
  exact Nat.le_min.2 ⟨h.day_pos, monthLength_pos hmonth⟩

theorem monthIndex_addMonths (d : Date) (months : Int) :
    (d.addMonths months).monthIndex = d.monthIndex + months := by
  simp only [monthIndex, addMonths, Nat.add_sub_cancel]
  omega

/-- The index of a month determines it. -/
theorem Valid.month_eq_of_monthIndex {d' : Date} (h : d.Valid) (h' : d'.Valid)
    (hindex : d.monthIndex = d'.monthIndex) : d.year = d'.year ∧ d.month = d'.month := by
  have hle := h.month_le
  have hle' := h'.month_le
  have hpos := h.month_pos
  have hpos' := h'.month_pos
  simp only [monthIndex] at hindex
  omega

/-- A date is determined by its month and its day, which is cut to the length of the month. -/
theorem Valid.eq_addMonths {d' : Date} (h : d.Valid) (h' : d'.Valid) {months : Int}
    (hindex : d'.monthIndex = d.monthIndex + months)
    (hday : d'.day = min d.day (monthLength d'.year d'.month)) : d' = d.addMonths months := by
  rw [← monthIndex_addMonths] at hindex
  obtain ⟨hyear, hmonth⟩ := h'.month_eq_of_monthIndex (valid_addMonths h months) hindex
  obtain ⟨year, month, day⟩ := d'
  simp only at hyear hmonth hday
  rw [hday, hyear, hmonth]
  rfl

theorem Valid.addMonths_zero (h : d.Valid) : d.addMonths 0 = d :=
  (h.eq_addMonths h (Int.add_zero _).symm (Nat.min_eq_left h.day_le).symm).symm

end Date

end Stencil
