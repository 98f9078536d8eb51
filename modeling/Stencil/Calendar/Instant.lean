import Stencil.Calendar.Date

/-!
# Instants

An instant is a number of seconds since the beginning of 1970 and a number of nanoseconds in the
second; on the last second of a minute the nanoseconds may run on through a leap second. A zone is
a fixed number of seconds east of Greenwich. Instants are moved by nanoseconds, and in a zone by
days and months, which keep the time of day. A result outside the represented range is refused.
-/

namespace Stencil

/-- A point in time. -/
structure Instant where
  /-- Seconds since the beginning of 1970 in Greenwich. -/
  seconds : Int
  /-- Nanoseconds behind the second, below 10^9 outside leap seconds. -/
  nanos : Nat
  deriving Repr, DecidableEq

/-- A date and a time of day, in seconds and nanoseconds. -/
structure LocalTime where
  /-- The number of the day. -/
  day : Int
  /-- Seconds since midnight, below 86400. -/
  second : Nat
  nanos : Nat
  deriving Repr, DecidableEq

namespace Instant

/-- The time that clocks in a zone show. -/
def toLocal (zone : Int) (t : Instant) : LocalTime :=
  let seconds := t.seconds + zone
  ⟨Date.epoch + seconds / 86400, (seconds % 86400).toNat, t.nanos⟩

/-- The instant at which clocks in a zone show a time. -/
def ofLocal (zone : Int) (l : LocalTime) : Instant :=
  ⟨(l.day - Date.epoch) * 86400 + l.second - zone, l.nanos⟩

/-- The number of the day in Greenwich. -/
def day (t : Instant) : Int := (t.toLocal 0).day

/-- An instant, if it is represented. -/
def checked (t : Instant) : Option Instant := if Date.inRange t.day then some t else none

/-- Moves an instant by nanoseconds. -/
def addNanos (t : Instant) (nanos : Int) : Instant :=
  let total := t.seconds * 1000000000 + t.nanos + nanos
  ⟨total / 1000000000, (total % 1000000000).toNat⟩

/-- Moves the date in a zone and keeps the time of day; the date must be represented too. -/
def withDay (zone : Int) (t : Instant) (day : Int) : Option Instant :=
  if Date.inRange day then checked (ofLocal zone { t.toLocal zone with day := day }) else none

/-- Moves the date in a zone by days. -/
def addDays (zone : Int) (t : Instant) (days : Int) : Option Instant :=
  if days = 0 then some t else t.withDay zone ((t.toLocal zone).day + days)

/-- Moves the date in a zone by months. -/
def addMonths (zone : Int) (t : Instant) (months : Int) : Option Instant :=
  if months = 0 then some t
  else t.withDay zone ((Date.ofDay (t.toLocal zone).day).addMonths months).toDay

end Instant

end Stencil
