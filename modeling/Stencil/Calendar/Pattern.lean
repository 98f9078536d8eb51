import Stencil.Calendar.Instant
import Stencil.Decimal.Integer
import Stencil.Text.Search
import Stencil.Text.Spans

/-!
# Date patterns

A date is written in one of two fixed forms or by a pattern. In a pattern certain runs of letters
stand for fields of the date, and of several that begin at one place the longest counts; all other
characters stand for themselves. `Field.all` lists the fields so that no token stands behind one
that it begins with, which is why the first that matches is the longest.
-/

namespace Stencil.Calendar

open Stencil.Text

/-! ## Fields -/

/-- A part of a date that a pattern can name. -/
inductive Field where
  | year
  | yearOfCentury
  | monthName
  | monthAbbreviation
  | month
  | weekdayName
  | weekdayAbbreviation
  | dayOfYear
  | day
  | hour
  | hourOfHalfDay
  | minute
  | second
  | millisecond
  | zone
  deriving Repr, DecidableEq

/-- The letters that name a field in a pattern. -/
def Field.token : Field → List Char
  | .year => ['Y', 'Y', 'Y', 'Y']
  | .yearOfCentury => ['Y', 'Y']
  | .monthName => ['M', 'M', 'M', 'M']
  | .monthAbbreviation => ['M', 'M', 'M']
  | .month => ['M', 'M']
  | .weekdayName => ['d', 'd', 'd', 'd']
  | .weekdayAbbreviation => ['d', 'd', 'd']
  | .dayOfYear => ['D', 'D', 'D', 'D']
  | .day => ['D', 'D']
  | .hour => ['H', 'H']
  | .hourOfHalfDay => ['h', 'h']
  | .minute => ['m', 'm']
  | .second => ['s', 's']
  | .millisecond => ['S', 'S', 'S']
  | .zone => ['Z', 'Z']

/-- All fields, longer tokens first. -/
def Field.all : List Field :=
  [.year, .monthName, .weekdayName, .dayOfYear, .monthAbbreviation, .weekdayAbbreviation,
    .millisecond, .yearOfCentury, .month, .day, .hour, .hourOfHalfDay, .minute, .second, .zone]

/-- The names of the months. -/
def monthNames : List String :=
  ["January", "February", "March", "April", "May", "June", "July", "August", "September",
    "October", "November", "December"]

/-- The names of the days of the week, from Sunday on. -/
def weekdayNames : List String :=
  ["Sunday", "Monday", "Tuesday", "Wednesday", "Thursday", "Friday", "Saturday"]

/-- What a pattern writes: an instant as seen in a zone. -/
structure Moment where
  time : Instant
  /-- Seconds east of Greenwich. -/
  zone : Int
  deriving Repr, DecidableEq

namespace Moment

/-- What clocks in the zone show. -/
def shown (m : Moment) : LocalTime := m.time.toLocal m.zone

/-- The date in the zone. -/
def date (m : Moment) : Date := Date.ofDay m.shown.day

end Moment

/-- A year with at least four digits, and with a sign if it is negative or needs more. -/
def yearText (year : Int) : List Char :=
  if 0 ≤ year ∧ year ≤ 9999 then Decimal.padded 4 year.toNat
  else (if year < 0 then '-' else '+') :: Decimal.padded 4 year.natAbs

/-- The hours and minutes of a zone, rounded to minutes, with `separator` between them. -/
def zoneText (separator : List Char) (zone : Int) : List Char :=
  let minutes := (zone.natAbs + 30) / 60
  (if zone < 0 then '-' else '+') :: Decimal.padded 2 (minutes / 60) ++ separator ++
    Decimal.padded 2 (minutes % 60)

/-- The text of a field. A leap second has the number 60 or, in zones that differ by parts of a
minute, one more than the second it follows. -/
def Field.write (m : Moment) : Field → List Char
  | .year => yearText m.date.year
  | .yearOfCentury => Decimal.padded 2 (m.date.year % 100).toNat
  | .monthName => (monthNames.getD (m.date.month - 1) "").toList
  | .monthAbbreviation => (monthNames.getD (m.date.month - 1) "").toList.take 3
  | .month => Decimal.padded 2 m.date.month
  | .weekdayName => (weekdayNames.getD (Date.weekday m.shown.day) "").toList
  | .weekdayAbbreviation => (weekdayNames.getD (Date.weekday m.shown.day) "").toList.take 3
  | .dayOfYear => Decimal.padded 3 (Date.ordinal m.shown.day)
  | .day => Decimal.padded 2 m.date.day
  | .hour => Decimal.padded 2 (m.shown.second / 3600)
  | .hourOfHalfDay => Decimal.padded 2 ((m.shown.second / 3600 + 11) % 12 + 1)
  | .minute => Decimal.padded 2 (m.shown.second / 60 % 60)
  | .second => Decimal.padded 2 (m.shown.second % 60 + m.shown.nanos / 1000000000)
  | .millisecond => Decimal.padded 3 (m.shown.nanos % 1000000000 / 1000000)
  | .zone => zoneText [] m.zone

/-! ## Patterns -/

/-- Tokens in a pattern. -/
def fieldMarker : Marker Field where
  find cs := Field.all.find? fun f => startsWith f.token cs
  write := Field.token
  find_sound h := by
    have := List.find?_some h
    simp only [startsWith, Option.isSome_iff_exists] at this
    obtain ⟨rest, hrest⟩ := this
    exact ⟨rest, eq_append_of_stripPrefix? hrest⟩
  write_ne_nil f := by cases f <;> simp [Field.token]

/-- Writes a moment by a pattern. -/
def writePattern (m : Moment) (pattern : List Char) : List Char :=
  (fieldMarker.pieces pattern).flatMap fun
    | .char c => [c]
    | .span f => f.write m

/-! ## Fixed forms -/

/-- Writes fields and literal texts one after the other. -/
def writeFields (m : Moment) (parts : List (Field ⊕ String)) : List Char :=
  parts.flatMap fun
    | .inl f => f.write m
    | .inr s => s.toList

/-- Date and time with a `T` between them, and the zone, `Z` for Greenwich. -/
def writeIso (m : Moment) : List Char :=
  writeFields m
    [.inl .year, .inr "-", .inl .month, .inr "-", .inl .day, .inr "T", .inl .hour, .inr ":",
      .inl .minute, .inr ":", .inl .second] ++
    if m.zone = 0 then ['Z'] else zoneText [':'] m.zone

/-- Day of the week, date and time as in mail headers, without the zone. -/
def writeMail (m : Moment) : List Char :=
  writeFields m
    [.inl .weekdayAbbreviation, .inr ", ", .inl .day, .inr " ", .inl .monthAbbreviation, .inr " ",
      .inl .year, .inr " ", .inl .hour, .inr ":", .inl .minute, .inr ":", .inl .second, .inr " "]

/-- Writes a moment in the form that `format` names, or by `format` as a pattern. In mail headers
`universal` moments are said to be in Greenwich. -/
def format (m : Moment) (universal : Bool) (format : String) : String :=
  String.ofList <|
    if format = "iso8601" then writeIso m
    else if format = "rfc1123" then
      writeMail m ++ if universal then ['G', 'M', 'T'] else zoneText [] m.zone
    else writePattern m format.toList

end Stencil.Calendar
