import IcpHandler.Data.CivilCalendar
import IcpHandler.Model.Chrono

/-
  What the date library documents of `checked_add_months`: the
  time of day stays, the day of the month is cut down to the
  length of the month, and where the result lies after the
  last instant there is none.

  Main declarations:
    * `dayOf`, `timeOf`
    * `addMonths`
    * `Calendar.IsGregorian`, `gregorianCalendar`
-/

------------------------------------------------------------
-- Dates of Instants
------------------------------------------------------------

namespace IcpHandler

namespace Model

open Data

/- The first of January 1970, counted by the calendar. -/
def epochDay : Int := 719468

/- The day of an instant. -/
def dayOf (instant : DateTime) : Int :=
  instant / Duration.days 1 + epochDay

/- The time of that day. -/
def timeOf (instant : DateTime) : Duration :=
  instant % Duration.days 1

/- The instant of a day and a time. -/
def instantOf (day : Int) (time : Duration) : DateTime :=
  (day - epochDay) * Duration.days 1 + time

theorem timeOf_bounds (instant : DateTime) :
    0 ≤ timeOf instant ∧ timeOf instant < Duration.days 1 :=
  ⟨Int.emod_nonneg _ (by decide),
    Int.emod_lt_of_pos _ (by decide)⟩

theorem dayOf_instantOf
    {day : Int}
    {time : Duration}
    (hNonneg : 0 ≤ time)
    (hLess : time < Duration.days 1) :
    dayOf (instantOf day time) = day := by
  rw [dayOf, instantOf, Int.add_comm _ time,
    Int.add_mul_ediv_right _ _ (by decide),
    Int.ediv_eq_zero_of_lt hNonneg hLess]
  omega

theorem timeOf_instantOf
    {day : Int}
    {time : Duration}
    (hNonneg : 0 ≤ time)
    (hLess : time < Duration.days 1) :
    timeOf (instantOf day time) = time := by
  rw [timeOf, instantOf, Int.add_comm _ time,
    Int.add_mul_emod_self_right]
  exact Int.emod_eq_of_lt hNonneg hLess

theorem instantOf_dayOf (instant : DateTime) :
    instantOf (dayOf instant) (timeOf instant) = instant := by
  rw [instantOf, dayOf, timeOf, Int.add_sub_cancel,
    Int.mul_comm]
  exact Int.mul_ediv_add_emod instant (Duration.days 1)

/- A later day means a later instant, at the same time. -/
theorem instantOf_lt_iff
    {day day' : Int}
    (time : Duration) :
    instantOf day time < instantOf day' time ↔ day < day' := by
  have hDay : (0 : Int) < Duration.days 1 := by decide
  have hScaled :
      (day - epochDay) * Duration.days 1 <
          (day' - epochDay) * Duration.days 1 ↔
        day - epochDay < day' - epochDay :=
    Int.mul_lt_mul_right hDay
  refine (Int.add_lt_add_iff_right time).trans
    (hScaled.trans ?_)
  omega

end Model

end IcpHandler

------------------------------------------------------------
-- Adding Months
------------------------------------------------------------

namespace IcpHandler

namespace Model

open Data

/- `checked_add_months`, before its range check. -/
def addMonths (start : DateTime) (months : Nat) : DateTime :=
  instantOf (Civil.stepMonths months (dayOf start))
    (timeOf start)

theorem dayOf_addMonths (start : DateTime) (months : Nat) :
    dayOf (addMonths start months) =
      Civil.stepMonths months (dayOf start) :=
  dayOf_instantOf (timeOf_bounds start).1 (timeOf_bounds start).2

theorem timeOf_addMonths (start : DateTime) (months : Nat) :
    timeOf (addMonths start months) = timeOf start :=
  timeOf_instantOf (timeOf_bounds start).1
    (timeOf_bounds start).2

theorem lt_addMonths
    (start : DateTime)
    (months : Nat)
    (hMonths : 0 < months) :
    start < addMonths start months := by
  have hDay :
      dayOf start < Civil.stepMonths months (dayOf start) :=
    Civil.lt_stepMonths (by omega)
  rw [← instantOf_lt_iff (timeOf start), instantOf_dayOf]
    at hDay
  exact hDay

/- The calendar answers as documented, up to a last instant. -/
def Calendar.IsGregorian
    (calendar : Calendar)
    (last : DateTime) : Prop :=
  ∀ start months,
    calendar.checkedAddMonths start months =
      if addMonths start months ≤ last then
        some (addMonths start months)
      else none

/- A sum in no bounds is the sum. -/
theorem eq_of_some_add
    (start : DateTime)
    (duration : Duration)
    (later : DateTime)
    (hLater : some (start + duration) = some later) :
    later = start + duration :=
  (Option.some.inj hLater).symm

/- A calendar that does. -/
def gregorianCalendar (last : DateTime) : Calendar where
  fromTimestamp seconds := some (Duration.seconds seconds)
  checkedAddMonths start months :=
    if addMonths start months ≤ last then
      some (addMonths start months)
    else none
  checkedAddSigned start duration := some (start + duration)
  addMonths_lt := by
    intro start months later hMonths hLater
    split at hLater
    · cases hLater
      exact lt_addMonths start months hMonths
    · cases hLater
  addSigned_eq := eq_of_some_add

theorem gregorianCalendar_isGregorian (last : DateTime) :
    (gregorianCalendar last).IsGregorian last :=
  fun _ _ => rfl

/- `DateTime::<Utc>::MAX_UTC`, at the end of the year 262142. -/
def maxUtc : DateTime :=
  instantOf (Civil.firstDay (262142 * 12 + 10)) 0 - 1

end Model

end IcpHandler
