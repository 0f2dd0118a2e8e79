import IcpHandler.Model.CivilDates
import IcpHandler.Service.Helpers

/-
  The day of the month that monthly and annual periods begin
  on. Every period is advanced from the one before it, so a
  month that is too short cuts the day down for good.

  Main declarations:
    * `cadenceMonths`, `periodAfter`
    * `periodAfter_eq`
    * `SteppedTo`, `billing_day_clamped`
-/

------------------------------------------------------------
-- Periods One after the Other
------------------------------------------------------------

namespace IcpHandler

namespace Service

open Model Data

/- The months of a cadence that is not counted in days. -/
def cadenceMonths : BillingCadence → Option Nat
  | .weekly => none
  | .monthly => some 1
  | .annual => some 12

/- The period boundary some advances after the start. -/
def periodAfter
    (calendar : Calendar)
    (cadence : BillingCadence)
    (start : DateTime)
    (count : Nat) : DateTime :=
  (fun boundary => periodAdvance calendar boundary cadence)^[
    count] start

section Advances

variable {calendar : Calendar}
variable {last start : DateTime}
variable {cadence : BillingCadence}
variable {months : Nat}

/- One advance adds the months of the cadence. -/
theorem periodAdvance_eq
    (hCalendar : calendar.IsGregorian last)
    (hMonths : cadenceMonths cadence = some months)
    (hRange : addMonths start months ≤ last) :
    periodAdvance calendar start cadence =
      addMonths start months := by
  cases cadence with
  | weekly => cases hMonths
  | monthly =>
      cases hMonths
      rw [periodAdvance, hCalendar, if_pos hRange]
      rfl
  | annual =>
      cases hMonths
      rw [periodAdvance, hCalendar, if_pos hRange]
      rfl

/- Steps never lead past the jump, at any time of the day. -/
theorem instantOf_iterate_le
    (count : Nat) :
    instantOf
        ((Civil.stepMonths months)^[count] (dayOf start))
        (timeOf start) ≤
      addMonths start (count * months) := by
  have hDay :=
    Civil.iterate_le_jump (months : Int) (dayOf start) count
  have hCast : ((count * months : Nat) : Int) = count * months :=
    Int.natCast_mul count months
  rw [addMonths, hCast, ← not_lt, instantOf_lt_iff, not_lt]
  exact hDay

/- A jump of fewer steps leads less far. -/
theorem addMonths_le
    {fewer more : Nat}
    (hLe : fewer ≤ more) :
    addMonths start fewer ≤ addMonths start more := by
  rw [addMonths, addMonths, ← not_lt, instantOf_lt_iff, not_lt]
  exact Civil.stepMonths_le_stepMonths (by omega)

/-
  Advances in the range of the calendar step from month to
  month and keep the time of the day.
-/
theorem periodAfter_eq
    (hCalendar : calendar.IsGregorian last)
    (hMonths : cadenceMonths cadence = some months)
    (count : Nat)
    (hRange : addMonths start (count * months) ≤ last) :
    periodAfter calendar cadence start count =
      instantOf
        ((Civil.stepMonths months)^[count] (dayOf start))
        (timeOf start) := by
  induction count with
  | zero => exact (instantOf_dayOf start).symm
  | succ count ih =>
      have hFewer : count * months ≤ (count + 1) * months :=
        Nat.mul_le_mul_right months (Nat.le_succ count)
      have hBefore := ih (le_trans (addMonths_le hFewer) hRange)
      have hStep :
          addMonths
              (instantOf
                ((Civil.stepMonths months)^[count] (dayOf start))
                (timeOf start)) months =
            instantOf
              ((Civil.stepMonths months)^[count + 1]
                (dayOf start))
              (timeOf start) := by
        obtain ⟨hNonneg, hLess⟩ := timeOf_bounds start
        rw [addMonths, dayOf_instantOf hNonneg hLess,
          timeOf_instantOf hNonneg hLess,
          Function.iterate_succ_apply']
      have hWithin :
          instantOf
              ((Civil.stepMonths months)^[count + 1]
                (dayOf start))
              (timeOf start) ≤
            addMonths start ((count + 1) * months) :=
        instantOf_iterate_le (count + 1)
      rw [← hStep] at hWithin
      rw [periodAfter, Function.iterate_succ_apply',
        ← periodAfter, hBefore,
        periodAdvance_eq hCalendar hMonths
          (le_trans hWithin hRange), hStep]

end Advances

end Service

end IcpHandler

------------------------------------------------------------
-- The Billing Day
------------------------------------------------------------

namespace IcpHandler

namespace Service

open Model Data Civil

/-
  Where a number of advances has led: to the month of the one
  jump and the same time of day, on the least of the start
  day and the lengths of the months that were stepped into.
  It is where the jump leads if none of them is shorter than
  the day the jump lands on.
-/
structure SteppedTo
    (start : DateTime)
    (months count : Nat)
    (boundary : DateTime) : Prop where
  time : timeOf boundary = timeOf start
  month :
    monthOf (dayOf boundary) =
      monthOf (dayOf start) + count * months
  day :
    ∀ bound, bound ≤ dayOfMonth (dayOf boundary) ↔
      bound ≤ dayOfMonth (dayOf start) ∧
        ∀ i : Nat, 1 ≤ i → i ≤ count →
          bound ≤
            monthLength (monthOf (dayOf start) + i * months)
  jump :
    boundary = addMonths start (count * months) ↔
      ∀ i : Nat, 1 ≤ i → i < count →
        dayOfMonth (dayOf (addMonths start (count * months))) ≤
          monthLength (monthOf (dayOf start) + i * months)

/-
  For every start and every number of advances that stays in
  the range of the calendar, the period boundary is the one
  jump's exactly if no month on the way was too short; once
  cut down, the billing day does not return.
-/
theorem billing_day_clamped
    (calendar : Calendar)
    (last : DateTime)
    (hCalendar : calendar.IsGregorian last)
    (cadence : BillingCadence)
    (months : Nat)
    (hMonths : cadenceMonths cadence = some months)
    (start : DateTime)
    (count : Nat)
    (hRange : addMonths start (count * months) ≤ last) :
    SteppedTo start months count
      (periodAfter calendar cadence start count) := by
  obtain ⟨hNonneg, hLess⟩ := timeOf_bounds start
  have hBoundary :=
    periodAfter_eq hCalendar hMonths count hRange
  have hDayOf :
      dayOf (periodAfter calendar cadence start count) =
        (Civil.stepMonths months)^[count] (dayOf start) := by
    rw [hBoundary, dayOf_instantOf hNonneg hLess]
  have hTimeOf :
      timeOf (periodAfter calendar cadence start count) =
        timeOf start := by
    rw [hBoundary, timeOf_instantOf hNonneg hLess]
  obtain ⟨hMonth, hDay⟩ :=
    iterate_stepMonths (months : Int) (dayOf start) count
  have hCast : ((count * months : Nat) : Int) = count * months :=
    Int.natCast_mul count months
  refine ⟨hTimeOf, ?_, ?_, ?_⟩
  · rw [hDayOf]
    exact hMonth
  · intro bound
    rw [hDayOf, hDay]
    exact le_clampedDay_iff
  · have hSame :
        periodAfter calendar cadence start count =
            addMonths start (count * months) ↔
          (Civil.stepMonths months)^[count] (dayOf start) =
            Civil.stepMonths (count * months) (dayOf start) := by
      constructor
      · intro hEq
        rw [← hDayOf, hEq, dayOf_addMonths, hCast]
      · intro hEq
        rw [hBoundary, hEq, addMonths, hCast]
    rw [hSame, dayOf_addMonths, hCast]
    exact iterate_eq_jump_iff (months : Int) (dayOf start) count

/- The 31st of January 2026. -/
private def endOfJanuary : DateTime :=
  Duration.seconds 1769817600

/- After February a subscription of the 31st is of the 28th. -/
theorem billing_day_drifts :
    ¬ ∀ calendar last, Calendar.IsGregorian calendar last →
      ∀ cadence months, cadenceMonths cadence = some months →
        ∀ start count,
          addMonths start (count * months) ≤ last →
            periodAfter calendar cadence start count =
              addMonths start (count * months) := by
  intro hAll
  have hSame :=
    hAll (gregorianCalendar maxUtc) maxUtc
      (gregorianCalendar_isGregorian maxUtc) .monthly 1 rfl
      endOfJanuary 2 (by decide)
  have hDays :
      dayOfMonth (dayOf (periodAfter (gregorianCalendar maxUtc)
          .monthly endOfJanuary 2)) = 28 ∧
        dayOfMonth (dayOf (addMonths endOfJanuary (2 * 1))) =
          31 := by
    decide
  rw [hSame, hDays.2] at hDays
  exact absurd hDays.1 (by decide)

/- Twelve months on from the 31st of January, it is the 28th. -/
theorem billing_day_clamped_sample :
    SteppedTo endOfJanuary 1 12
        (periodAfter (gregorianCalendar maxUtc) .monthly
          endOfJanuary 12) ∧
      dayOfMonth (dayOf (periodAfter (gregorianCalendar maxUtc)
        .monthly endOfJanuary 12)) = 28 :=
  ⟨billing_day_clamped (gregorianCalendar maxUtc) maxUtc
      (gregorianCalendar_isGregorian maxUtc) .monthly 1 rfl
      endOfJanuary 12 (by decide),
    by decide +kernel⟩

end Service

end IcpHandler
