import Stencil.Proofs.Calendar.Date
import Stencil.SystemFunction

/-!
# Shifts are exact

What it means to move an instant by an amount of a unit is said by `Instant.IsShift`, without
regard to the range of instants and to the words that amounts are counted in: a unit is a span of
nanoseconds or a number of months (`TimeUnit.stride`). Exactly one instant is that far away
(`isShift_iff`), and `shift?` gives it if it is represented and refuses otherwise (`shift?_eq`).
For amounts that overflow on their way to the calendar lead far beyond it: the represented instants
lie within 10^13 seconds of 1970 (`Represented.seconds_lt`).
-/

namespace Stencil

/-! ## What a shift is -/

/-- The size of a unit. -/
inductive Stride where
  /-- A span of time. -/
  | span (nanos : Int)
  /-- A number of months. -/
  | months (count : Int)

/-- The size of each unit. -/
def TimeUnit.stride : TimeUnit → Stride
  | .year => .months 12
  | .month => .months 1
  | .week => .span (7 * 86400 * 1000000000)
  | .day => .span (86400 * 1000000000)
  | .hour => .span (3600 * 1000000000)
  | .minute => .span (60 * 1000000000)
  | .second => .span 1000000000
  | .millisecond => .span 1000000

namespace Instant

/-- The nanoseconds since the beginning of 1970. -/
def total (t : Instant) : Int := t.seconds * 1000000000 + t.nanos

/-- The date in Greenwich. -/
def date (t : Instant) : Date := Date.ofDay t.day

/-- The nanoseconds since midnight in Greenwich. -/
def timeOfDay (t : Instant) : Int := t.total % (86400 * 1000000000)

/-- An instant of the years -262143 to 262142 that is not in a leap second. -/
structure Represented (t : Instant) : Prop where
  year_ge : -262143 ≤ t.date.year
  year_le : t.date.year ≤ 262142
  nanos_lt : t.nanos < 1000000000

/-- The instant `t'` is `n` times a size away from `t`. A shift by months keeps the time of day and
the day of the month, which is cut to the length of the month. -/
def IsShift (t : Instant) (n : Int) (size : Stride) (t' : Instant) : Prop :=
  t'.nanos < 1000000000 ∧
  match size with
  | .span nanos => t'.total = t.total + n * nanos
  | .months count =>
    t'.date.monthIndex = t.date.monthIndex + n * count ∧
    t'.date.day = min t.date.day (monthLength t'.date.year t'.date.month) ∧
    t'.timeOfDay = t.timeOfDay

/-! ## Represented instants -/

variable {t t' : Instant}

theorem day_eq (t : Instant) : t.day = Date.epoch + t.seconds / 86400 := by
  simp [day, toLocal]

theorem represented_iff (h : t.nanos < 1000000000) :
    t.Represented ↔ Date.inRange t.day = true := by
  rw [Date.inRange_iff]
  exact ⟨fun ht => ⟨ht.year_ge, ht.year_le⟩, fun hrange => ⟨hrange.1, hrange.2, h⟩⟩

instance (t : Instant) : Decidable t.Represented :=
  decidable_of_iff (-262143 ≤ t.date.year ∧ t.date.year ≤ 262142 ∧ t.nanos < 1000000000)
    ⟨fun h => ⟨h.1, h.2.1, h.2.2⟩, fun h => ⟨h.year_ge, h.year_le, h.nanos_lt⟩⟩

/-- An instant outside leap seconds is kept if it is represented. -/
theorem checked_eq (h : t.nanos < 1000000000) :
    t.checked = if t.Represented then some t else none := by
  simp only [checked, represented_iff h]

theorem Represented.seconds_lt (h : t.Represented) : t.seconds.natAbs < 10000000000000 := by
  have hmin : Date.minDay = -95745764 := by decide
  have hmax : Date.maxDay = 95745764 := by decide
  have hepoch : Date.epoch = 719528 := by decide
  have hrange := (represented_iff h.nanos_lt).1 h
  simp only [Date.inRange, Bool.and_eq_true, decide_eq_true_eq, day_eq] at hrange
  omega

/-- Outside leap seconds an instant is determined by its nanoseconds since 1970. -/
theorem eq_of_total (h : t.nanos < 1000000000) (h' : t'.nanos < 1000000000)
    (htotal : t.total = t'.total) : t = t' := by
  obtain ⟨seconds, nanos⟩ := t
  obtain ⟨seconds', nanos'⟩ := t'
  simp only [total] at *
  rw [show seconds = seconds' by omega, show nanos = nanos' by omega]

/-! ## Spans -/

theorem total_addNanos (t : Instant) (nanos : Int) : (t.addNanos nanos).total = t.total + nanos := by
  simp only [total, addNanos]
  omega

theorem nanos_addNanos_lt (t : Instant) (nanos : Int) : (t.addNanos nanos).nanos < 1000000000 := by
  simp only [addNanos]
  omega

/-- No span as long as 2^63 milliseconds stays within the represented instants. -/
theorem Represented.not_addNanos (h : t.Represented) {nanos : Int}
    (hlong : 9223372036854775808000000 ≤ nanos.natAbs) : ¬ (t.addNanos nanos).Represented := by
  intro h'
  have hseconds := h.seconds_lt
  have hseconds' := h'.seconds_lt
  have hnanos := h.nanos_lt
  have hnanos' := h'.nanos_lt
  have htotal := total_addNanos t nanos
  simp only [total] at htotal
  omega

/-! ## Days and months -/

/-- The time of day of an instant on another day. -/
def onDay (t : Instant) (day : Int) : Instant := ofLocal 0 { t.toLocal 0 with day := day }

theorem seconds_onDay (t : Instant) (day : Int) :
    (t.onDay day).seconds = (day - Date.epoch) * 86400 + t.seconds % 86400 := by
  simp only [onDay, ofLocal, toLocal]
  omega

theorem nanos_onDay (t : Instant) (day : Int) : (t.onDay day).nanos = t.nanos := rfl

theorem day_onDay (t : Instant) (day : Int) : (t.onDay day).day = day := by
  rw [day_eq, seconds_onDay]
  omega

theorem timeOfDay_onDay (t : Instant) (day : Int) :
    (t.onDay day).timeOfDay = t.timeOfDay := by
  simp only [timeOfDay, total, seconds_onDay, nanos_onDay]
  omega

/-- An instant is determined by its day and its time of day. -/
theorem eq_of_day (h : t.nanos < 1000000000) (h' : t'.nanos < 1000000000)
    (hday : t.day = t'.day) (htime : t.timeOfDay = t'.timeOfDay) : t = t' := by
  rw [day_eq, day_eq] at hday
  simp only [timeOfDay, total] at htime
  refine eq_of_total h h' ?_
  simp only [total]
  omega

theorem withDay_eq (h : t.nanos < 1000000000) (day : Int) :
    t.withDay 0 day = if (t.onDay day).Represented then some (t.onDay day) else none := by
  have hiff : (t.onDay day).Represented ↔ Date.inRange day = true := by
    have hnanos : (t.onDay day).nanos < 1000000000 := h
    rw [represented_iff hnanos, day_onDay]
  have hchecked : (t.onDay day).checked = _ := checked_eq h
  rw [withDay]
  by_cases hrange : Date.inRange day = true
  · rw [if_pos hrange]
    exact hchecked
  · rw [if_neg hrange, if_neg (mt hiff.1 hrange)]

/-- Days are spans of 86400 seconds. -/
theorem addDays_eq (h : t.Represented) (days : Int) :
    t.addDays 0 days =
      if (t.addNanos (days * (86400 * 1000000000))).Represented then
        some (t.addNanos (days * (86400 * 1000000000)))
      else none := by
  have hsame : t.onDay ((t.toLocal 0).day + days) = t.addNanos (days * (86400 * 1000000000)) := by
    refine eq_of_total h.nanos_lt (nanos_addNanos_lt _ _) ?_
    have hday : (t.toLocal 0).day = Date.epoch + t.seconds / 86400 := day_eq t
    rw [total_addNanos, hday]
    simp only [total, seconds_onDay, nanos_onDay]
    omega
  rw [addDays]
  split
  next hzero =>
    have hstays : t.addNanos (days * (86400 * 1000000000)) = t := by
      refine eq_of_total (nanos_addNanos_lt _ _) h.nanos_lt ?_
      rw [total_addNanos, hzero]
      omega
    rw [hstays, if_pos h]
  next => rw [withDay_eq h.nanos_lt, hsame]

/-- The instant a number of months away. -/
def onMonth (t : Instant) (months : Int) : Instant := t.onDay (t.date.addMonths months).toDay

theorem date_onMonth (t : Instant) (months : Int) :
    (t.onMonth months).date = t.date.addMonths months := by
  rw [date, onMonth, day_onDay]
  exact (Date.valid_addMonths (Date.valid_ofDay t.day) months).ofDay_toDay

theorem onMonth_zero (h : t.nanos < 1000000000) : t.onMonth 0 = t := by
  have hdate : t.date.addMonths 0 = t.date := (Date.valid_ofDay t.day).addMonths_zero
  refine eq_of_day h h ?_ (timeOfDay_onDay t _)
  rw [onMonth, day_onDay, hdate]
  exact Date.toDay_ofDay t.day

theorem addMonths_eq (h : t.Represented) (months : Int) :
    t.addMonths 0 months =
      if (t.onMonth months).Represented then some (t.onMonth months) else none := by
  rw [addMonths]
  split
  next hzero => rw [hzero, onMonth_zero h.nanos_lt, if_pos h]
  next => exact withDay_eq h.nanos_lt _

/-- So many months as do not fit 32 bits lead out of the represented instants. -/
theorem Represented.not_onMonth (h : t.Represented) {months : Int}
    (hlong : 4294967296 ≤ months.natAbs) : ¬ (t.onMonth months).Represented := by
  intro h'
  have hge := h.year_ge
  have hle := h.year_le
  have hge' := h'.year_ge
  have hle' := h'.year_le
  have hmonth : t.date.month ≤ 12 := (Date.valid_ofDay t.day).month_le
  rw [date_onMonth] at hge' hle'
  simp only [Date.addMonths] at hge' hle'
  omega

/-! ## The ways of the units -/

/-- The instant that is `n` times a size away. -/
def moved (t : Instant) (n : Int) : Stride → Instant
  | .span nanos => t.addNanos (n * nanos)
  | .months count => t.onMonth (n * count)

theorem isShift_iff (h : t.nanos < 1000000000) (n : Int) (size : Stride) :
    t.IsShift n size t' ↔ t' = t.moved n size := by
  cases size with
  | span nanos =>
    constructor
    · rintro ⟨hnanos, htotal⟩
      refine eq_of_total hnanos (nanos_addNanos_lt _ _) ?_
      rw [htotal, moved, total_addNanos]
    · rintro rfl
      exact ⟨nanos_addNanos_lt _ _, total_addNanos _ _⟩
  | months count =>
    constructor
    · rintro ⟨hnanos, hindex, hday, htime⟩
      have hdate : t'.date = t.date.addMonths (n * count) :=
        (Date.valid_ofDay t.day).eq_addMonths (Date.valid_ofDay t'.day) hindex hday
      refine eq_of_day hnanos h ?_ ?_
      · rw [moved, onMonth, day_onDay, ← hdate]
        exact (Date.toDay_ofDay t'.day).symm
      · rw [htime, moved, onMonth, timeOfDay_onDay]
    · rintro rfl
      refine ⟨h, ?_, ?_, timeOfDay_onDay t _⟩
      · rw [moved, date_onMonth, Date.monthIndex_addMonths]
      · rw [moved, date_onMonth]
        rfl

/-- The span of an amount is too long only if it leads out of the represented instants. -/
theorem shiftSpan_eq (h : t.Represented) (n : Int64) (length : Int) :
    t.shiftSpan n length =
      if (t.addNanos (n.toInt * (length * 1000000))).Represented then
        some (t.addNanos (n.toInt * (length * 1000000)))
      else none := by
  have hnanos : n.toInt * length * 1000000 = n.toInt * (length * 1000000) := Int.mul_assoc _ _ _
  rw [shiftSpan, Amount.span?]
  split
  next =>
    rw [hnanos]
    exact checked_eq (nanos_addNanos_lt _ _)
  next hlong =>
    rw [if_neg (h.not_addNanos (by omega))]
    rfl

theorem shiftDays_eq (h : t.Represented) (n : Int64) :
    t.shiftDays 0 n =
      if (t.addNanos (n.toInt * (86400 * 1000000000))).Represented then
        some (t.addNanos (n.toInt * (86400 * 1000000000)))
      else none := by
  have hcount := Amount.toNat_magnitude n
  rw [shiftDays]
  split
  next hpos =>
    have hn : 0 ≤ n.toInt := Int64.le_iff_toInt_le.1 hpos
    rw [show ((Amount.magnitude n).toNat : Int) = n.toInt by omega, addDays_eq h]
  next hneg =>
    have hn : ¬ 0 ≤ n.toInt := fun hn => hneg (Int64.le_iff_toInt_le.2 hn)
    rw [show -((Amount.magnitude n).toNat : Int) = n.toInt by omega, addDays_eq h]

theorem shiftMonths_eq (h : t.Represented) (n : Int64) :
    t.shiftMonths 0 n =
      if (t.onMonth n.toInt).Represented then some (t.onMonth n.toInt) else none := by
  rw [shiftMonths]
  cases hcount : Amount.count? n with
  | none =>
    rw [if_neg (h.not_onMonth (Amount.le_natAbs_of_count? hcount))]
    rfl
  | some count =>
    have hcount := Amount.toNat_of_count? hcount
    rw [Option.bind_eq_bind, Option.bind_some]
    split
    next hpos =>
      have hn : 0 ≤ n.toInt := Int64.le_iff_toInt_le.1 hpos
      rw [show (count.toNat : Int) = n.toInt by omega, addMonths_eq h]
    next hneg =>
      have hn : ¬ 0 ≤ n.toInt := fun hn => hneg (Int64.le_iff_toInt_le.2 hn)
      rw [show -(count.toNat : Int) = n.toInt by omega, addMonths_eq h]

/-- A shift gives the instant that is the amount away, if it is represented. -/
theorem shift?_eq (h : t.Represented) (n : Int64) (u : TimeUnit) :
    t.shift? 0 n u =
      if (t.moved n.toInt u.stride).Represented then some (t.moved n.toInt u.stride) else none := by
  cases u with
  | year =>
    rw [shift?, TimeUnit.stride, moved]
    cases hmonths : Amount.times? n 12 with
    | none =>
      have hlong : 9223372036854775808 ≤ (n.toInt * 12).natAbs := Amount.le_natAbs_of_times? hmonths
      rw [if_neg (h.not_onMonth (show 4294967296 ≤ (n.toInt * 12).natAbs by omega))]
      rfl
    | some months =>
      have hproduct : months.toInt = n.toInt * 12 := Amount.toInt_of_times? hmonths
      rw [← hproduct]
      exact shiftMonths_eq h months
  | month =>
    rw [TimeUnit.stride, moved, Int.mul_one]
    exact shiftMonths_eq h n
  | week =>
    have hweek : n.toInt * (7 * 86400 * 1000000000) = n.toInt * 7 * (86400 * 1000000000) := by omega
    rw [shift?, TimeUnit.stride, moved, hweek]
    cases hdays : Amount.times? n 7 with
    | none =>
      have hlong : 9223372036854775808 ≤ (n.toInt * 7).natAbs := Amount.le_natAbs_of_times? hdays
      rw [if_neg (h.not_addNanos (by omega))]
      rfl
    | some days =>
      have hproduct : days.toInt = n.toInt * 7 := Amount.toInt_of_times? hdays
      rw [← hproduct]
      exact shiftDays_eq h days
  | day => exact shiftDays_eq h n
  | hour => exact shiftSpan_eq h n 3600000
  | minute => exact shiftSpan_eq h n 60000
  | second => exact shiftSpan_eq h n 1000
  | millisecond => exact shiftSpan_eq h n 1

end Instant

/-! ## Offsets -/

namespace SystemFunction

theorem shifted_eq {t : Instant} (h : t.Represented) {amount unit : String} {n : Int64}
    {u : TimeUnit} (hamount : Decimal.int64? amount.toList = some n.toInt)
    (hunit : TimeUnit.ofText? unit = some u) :
    shifted 0 t [amount, unit] =
      if (t.moved n.toInt u.stride).Represented then .ok (t.moved n.toInt u.stride)
      else .error (.range n.toInt unit) := by
  simp only [shifted, hamount, hunit, Int64.ofInt_toInt, Instant.shift?_eq h]
  by_cases hmoved : (t.moved n.toInt u.stride).Represented
  · simp only [if_pos hmoved]
  · simp only [if_neg hmoved]

/-- Offsets are exact. From a represented instant, every amount of 64 bits of every unit leads to
exactly one instant that is that far away. It is the result if it is represented; otherwise, and
only then, the offset is refused as out of range. The timestamp is the instant in whole seconds,
rounded down. -/
theorem offset_exact {t : Instant} (h : t.Represented) {amount unit : String} {n : Int64}
    {u : TimeUnit} (hamount : Decimal.int64? amount.toList = some n.toInt)
    (hunit : TimeUnit.ofText? unit = some u) (ctx : SystemContext) (s : Surroundings)
    (journal : Journal) :
    ∃ target : Instant, (∀ t', t.IsShift n.toInt u.stride t' ↔ t' = target) ∧
      (target.Represented →
        shifted 0 t [amount, unit] = .ok target ∧
        timestamp.apply ctx { s with now := t } [amount, unit] journal =
          (.ok (timestamp.toVariable (toString (target.total / 1000000000))), journal)) ∧
      (¬ target.Represented →
        shifted 0 t [amount, unit] = .error (.range n.toInt unit) ∧
        timestamp.apply ctx { s with now := t } [amount, unit] journal =
          (.error (.invalidOffset (.range n.toInt unit)), journal)) := by
  have heq := shifted_eq h hamount hunit
  refine ⟨t.moved n.toInt u.stride, fun t' => Instant.isShift_iff h.nanos_lt _ _, ?_, ?_⟩
  · intro htarget
    rw [if_pos htarget] at heq
    have hseconds : (t.moved n.toInt u.stride).total / 1000000000 =
        (t.moved n.toInt u.stride).seconds := by
      have hnanos := htarget.nanos_lt
      unfold Instant.total
      omega
    refine ⟨heq, ?_⟩
    rw [hseconds, apply, timestampText, shiftedIfAny, if_neg (by simp), heq]
    rfl
  · intro htarget
    rw [if_neg htarget] at heq
    refine ⟨heq, ?_⟩
    rw [apply, timestampText, shiftedIfAny, if_neg (by simp), heq]
    rfl

/-- A year before a leap day, and as many weeks before it as an amount can ask for. -/
theorem offset_exact_leap_day :
    let t : Instant := ⟨1709251199, 999999999⟩
    let ctx : SystemContext := ⟨⟨.empty, ""⟩, none⟩
    let s : Surroundings :=
      { now := t, zone := 0, process := fun _ => none, files := ⟨.empty, []⟩, directory := ""
        prompter := none, random := fun _ => 0 }
    t.Represented ∧ t.date = ⟨2024, 2, 29⟩ ∧
    Decimal.int64? "-12".toList = some (-12 : Int64).toInt ∧
    TimeUnit.ofText? "M" = some .month ∧
    Decimal.int64? "-9223372036854775808".toList = some Int64.minValue.toInt ∧
    TimeUnit.ofText? "w" = some .week ∧
    shifted 0 t ["-12", "M"] = .ok ⟨1677628799, 999999999⟩ ∧
    timestamp.apply ctx s ["-12", "M"] [] = (.ok (timestamp.toVariable "1677628799"), []) ∧
    shifted 0 t ["-9223372036854775808", "w"] =
      .error (.range (-9223372036854775808) "w") := by
  intro t ctx s
  have ht : t.Represented := by decide
  have hmonths : Decimal.int64? "-12".toList = some (-12 : Int64).toInt := by decide
  have hweeks : Decimal.int64? "-9223372036854775808".toList = some Int64.minValue.toInt := by
    decide
  have hmonth : TimeUnit.ofText? "M" = some .month := rfl
  have hweek : TimeUnit.ofText? "w" = some .week := rfl
  obtain ⟨target, hshift, hok, -⟩ := offset_exact ht hmonths hmonth ctx s []
  obtain ⟨far, hfar, -, hrefused⟩ := offset_exact ht hweeks hweek ctx s []
  have htarget : ⟨1677628799, 999999999⟩ = target :=
    (hshift _).1 ⟨by decide, by decide, by decide, by decide⟩
  subst htarget
  obtain ⟨hinstant, htimestamp⟩ := hok (by decide)
  have htoo : ¬ far.Represented := by
    have hmoved : t.moved Int64.minValue.toInt TimeUnit.week.stride = far :=
      (hfar _).1 ((Instant.isShift_iff ht.nanos_lt _ _).2 rfl)
    rw [← hmoved]
    decide
  exact ⟨ht, by decide, hmonths, hmonth, hweeks, hweek, hinstant, htimestamp, (hrefused htoo).1⟩

end SystemFunction

end Stencil
