import SqlScribe.Text.Digits
/-! # Dates and times

Calendar dates, times of day and moments with an offset from universal time, with their ISO texts.
A second that is inserted at the end of a minute is kept as second 59 with a thousand million
nanoseconds or more. Two moments are equal when they are the same instant, whatever their
offsets. -/

namespace SqlScribe

/-- A day of the proleptic Gregorian calendar. -/
structure Date where
  /-- The year; the year before year one is year zero. -/
  year : Int
  /-- The month, from 1. -/
  month : Nat
  /-- The day of the month, from 1. -/
  day : Nat
deriving Repr, DecidableEq, Inhabited

/-- A time of day. -/
structure TimeOfDay where
  /-- The hour, below 24. -/
  hour : Nat
  /-- The minute, below 60. -/
  minute : Nat
  /-- The second, below 60. -/
  second : Nat
  /-- Nanoseconds; from a thousand million on they lie in an inserted second. -/
  nanosecond : Nat
deriving Repr, DecidableEq, Inhabited

/-- A date and a time of day without a place on the universal time line. -/
structure LocalDateTime where
  /-- The day. -/
  date : Date
  /-- The time of that day. -/
  time : TimeOfDay
deriving Repr, DecidableEq, Inhabited

/-- A local date and time together with its offset from universal time. -/
structure Timestamp where
  /-- The date and time that a clock at the offset shows. -/
  clock : LocalDateTime
  /-- Seconds that the clock is ahead of universal time. -/
  offset : Int
deriving Repr, Inhabited

/-- The decimal digits of a number, padded with zeros at the left to a width. -/
def padded (width n : Nat) : String :=
  String.ofList (Text.paddedDigits 10 width n)

namespace Date

/-- The text of a year: four digits from year 0 to 9999, a sign and at least four digits
outside. -/
def yearText (year : Int) : String :=
  if year < 0 then "-" ++ padded 4 year.natAbs
  else if year ≤ 9999 then padded 4 year.natAbs
  else "+" ++ padded 4 year.natAbs

/-- The date as year, month and day. -/
def text (d : Date) : String :=
  yearText d.year ++ "-" ++ padded 2 d.month ++ "-" ++ padded 2 d.day

/-- Days from the first of January of year 1 to the date. The year is taken to begin in March, so
that the leap day is its last. -/
def dayNumber (d : Date) : Int :=
  let year := if d.month ≤ 2 then d.year - 1 else d.year
  let month : Nat := if d.month ≤ 2 then d.month + 9 else d.month - 3
  365 * year + Int.fdiv year 4 - Int.fdiv year 100 + Int.fdiv year 400
    + (153 * month + 2) / 5 + d.day - 307

end Date

namespace TimeOfDay

/-- A point and the fewest of three, six or nine digits that are exact, nothing for a whole
second. -/
def fractionText (nanoseconds : Nat) : String :=
  if nanoseconds = 0 then ""
  else if nanoseconds % 1000000 = 0 then "." ++ padded 3 (nanoseconds / 1000000)
  else if nanoseconds % 1000 = 0 then "." ++ padded 6 (nanoseconds / 1000)
  else "." ++ padded 9 nanoseconds

/-- The time as hours, minutes and seconds with their fraction; an inserted second is written as
second 60. -/
def text (t : TimeOfDay) : String :=
  let inserted := 1000000000 ≤ t.nanosecond
  let second := if inserted then t.second + 1 else t.second
  let nanosecond := if inserted then t.nanosecond - 1000000000 else t.nanosecond
  padded 2 t.hour ++ ":" ++ padded 2 t.minute ++ ":" ++ padded 2 second ++ fractionText nanosecond

/-- Whole seconds since midnight. -/
def secondOfDay (t : TimeOfDay) : Nat := t.hour * 3600 + t.minute * 60 + t.second

end TimeOfDay

/-- The date and the time with `T` between them. -/
def LocalDateTime.text (m : LocalDateTime) : String := m.date.text ++ "T" ++ m.time.text

namespace Timestamp

/-- An offset as hours and minutes, rounded to the nearest minute, with its sign. -/
def offsetText (offset : Int) : String :=
  let minutes := (offset.natAbs + 30) / 60
  (if offset < 0 then "-" else "+") ++ padded 2 (minutes / 60) ++ ":" ++ padded 2 (minutes % 60)

/-- The local date and time followed by the offset. -/
def text (t : Timestamp) : String := t.clock.text ++ offsetText t.offset

/-- Whole seconds on the universal time line, and the nanoseconds beyond them. -/
def instant (t : Timestamp) : Int × Nat :=
  (t.clock.date.dayNumber * 86400 + t.clock.time.secondOfDay - t.offset, t.clock.time.nanosecond)

instance : BEq Timestamp := ⟨fun a b => a.instant == b.instant⟩

theorem beq_iff (a b : Timestamp) : (a == b) = true ↔ a.instant = b.instant := by
  show (a.instant == b.instant) = true ↔ _
  exact beq_iff_eq

end Timestamp

end SqlScribe
