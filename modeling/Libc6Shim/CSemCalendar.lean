import Mathlib

/-!
# Broken-down time

`struct tm` and `timegm`. An instant is the number of seconds from the start
of 1970, in UTC; years are counted from 1900 and months from 0. A date need not
have its fields in their ranges: what there is too much of is carried over, and
`timegm` leaves the date as the calendar has it.

`timegm` answers -1 where the instant does not fit a `time_t`.
-/

namespace CSem

/-- `struct tm`, without what is told of a day or a zone. -/
structure Tm where
  tmSec : Int
  tmMin : Int
  tmHour : Int
  tmMday : Int
  tmMon : Int
  tmYear : Int
deriving Repr, DecidableEq

namespace Tm

/-- The days from the start of 1970 to that of a year. -/
def daysToYear (year : Int) : Int :=
  365 * (year - 70) + (year - 69) / 4 - (year - 1) / 100 + (year + 299) / 400

/-- The days of a common year before a month. -/
def daysToMonth (mon : Int) : Int :=
  [0, 31, 59, 90, 120, 151, 181, 212, 243, 273, 304, 334].getD mon.toNat 0

def leapDay (year : Int) : Int :=
  if year % 4 = 0 ∧ (year % 100 ≠ 0 ∨ (year + 300) % 400 = 0) then 1 else 0

/-- The days from the start of 1970 to a date. -/
def days (date : Tm) : Int :=
  let year := date.tmYear + date.tmMon / 12
  let mon := date.tmMon % 12
  daysToYear year + daysToMonth mon + (if 2 ≤ mon then leapDay year else 0) +
    (date.tmMday - 1)

def seconds (date : Tm) : Int :=
  86400 * date.days + 3600 * date.tmHour + 60 * date.tmMin + date.tmSec

end Tm

/-- `gmtime`. The day is looked for in its cycle of 400 years, with the years
taken to start in March, so that leap days come last. -/
def gmtime (t : Int) : Tm :=
  let z := t / 86400 + 719468
  let era := z / 146097
  let dayOfEra := z % 146097
  let yearOfEra := (dayOfEra - dayOfEra / 1460 + dayOfEra / 36524 -
    dayOfEra / 146096) / 365
  let dayOfYear := dayOfEra - (365 * yearOfEra + yearOfEra / 4 - yearOfEra / 100)
  let mon := (5 * dayOfYear + 2) / 153
  { tmSec := t % 60
    tmMin := t / 60 % 60
    tmHour := t / 3600 % 24
    tmMday := dayOfYear - (153 * mon + 2) / 5 + 1
    tmMon := if mon < 10 then mon + 2 else mon - 10
    tmYear := yearOfEra + 400 * era + (if mon < 10 then 0 else 1) - 1900 }

/-- `timegm`, where `time_t` has so many bits: the instant, and the date as it
is left. -/
def timegm (bits : Nat) (date : Tm) : Int × Tm :=
  if -2 ^ (bits - 1) ≤ date.seconds ∧ date.seconds < 2 ^ (bits - 1) then
    (date.seconds, gmtime date.seconds)
  else (-1, date)

/-! ## Whole days -/

namespace Tm

/-- The start of a day. -/
def Midnight (date : Tm) : Prop :=
  date.tmSec = 0 ∧ date.tmMin = 0 ∧ date.tmHour = 0

theorem Midnight.seconds {date : Tm} (h : date.Midnight) :
    date.seconds = 86400 * date.days := by
  obtain ⟨hsec, hmin, hhour⟩ := h
  rw [Tm.seconds, hsec, hmin, hhour]
  omega

/-- From the start of a year to that of the next there are no fewer days than
in a common year. -/
theorem daysToYear_succ (year : Int) :
    daysToYear year + 365 ≤ daysToYear (year + 1) := by
  rw [daysToYear, daysToYear]
  omega

theorem leapDay_bounds (year : Int) : 0 ≤ leapDay year ∧ leapDay year ≤ 1 := by
  rw [leapDay]
  split <;> decide

end Tm

/-- The start of a day is left as one. -/
theorem timegm_midnight {bits : Nat} {date : Tm} (h : date.Midnight)
    (hfits : -2 ^ (bits - 1) ≤ date.seconds ∧ date.seconds < 2 ^ (bits - 1)) :
    ∃ date', timegm bits date = (date.seconds, date') ∧ date'.Midnight := by
  refine ⟨gmtime date.seconds, if_pos hfits, ?_⟩
  rw [h.seconds, gmtime]
  refine ⟨?_, ?_, ?_⟩
  · show 86400 * date.days % 60 = 0
    omega
  · show 86400 * date.days / 60 % 60 = 0
    omega
  · show 86400 * date.days / 3600 % 24 = 0
    omega

end CSem
