import Mathlib.Data.Int.ConditionallyCompleteOrder
import Mathlib.Data.Int.SuccPred
import Mathlib.Order.SuccPred.Basic
import Mathlib.Algebra.Order.SuccPred
import Mathlib.Order.Monotone.Basic

/-
  The proleptic Gregorian calendar. Days and months are both
  counted from the first of March of the year zero, so that a
  leap day is the last day of a year.

  Main declarations:
    * `firstDay`, `monthLength`
    * `monthOf`, `dayOfMonth`
    * `stepMonths`, `lt_stepMonths`
    * `clampedDay`, `iterate_stepMonths`
    * `iterate_le_jump`, `iterate_eq_jump_iff`
-/

------------------------------------------------------------
-- Months
------------------------------------------------------------

namespace IcpHandler

namespace Data

namespace Civil

/- The first day of a month. -/
def firstDay (month : Int) : Int :=
  let year := month / 12
  365 * year + year / 4 - year / 100 + year / 400 +
    (153 * (month % 12) + 2) / 5

/- How many days a month has. -/
def monthLength (month : Int) : Int :=
  firstDay (month + 1) - firstDay month

theorem firstDay_succ (month : Int) :
    firstDay (month + 1) = firstDay month + monthLength month := by
  unfold monthLength
  omega

theorem monthLength_bounds (month : Int) :
    28 ≤ monthLength month ∧ monthLength month ≤ 31 := by
  have hPos : 0 ≤ month % 12 := Int.emod_nonneg _ (by decide)
  have hNext :
      ((month + 1) / 12 = month / 12 ∧
          (month + 1) % 12 = month % 12 + 1 ∧
          month % 12 < 11) ∨
        ((month + 1) / 12 = month / 12 + 1 ∧
          (month + 1) % 12 = 0 ∧ month % 12 = 11) := by
    omega
  unfold monthLength firstDay
  dsimp only
  generalize month / 12 = year at hNext ⊢
  rcases hNext with
    ⟨hYear, hMonth, hLess⟩ | ⟨hYear, hMonth, hLast⟩
  · rw [hYear, hMonth]
    generalize month % 12 = index at hPos hLess ⊢
    constructor
    · omega
    · omega
  · rw [hYear, hMonth, hLast]
    constructor
    · omega
    · omega

theorem firstDay_strictMono : StrictMono firstDay := by
  refine strictMono_of_lt_add_one ?_
  intro month _
  have hLength := (monthLength_bounds month).1
  rw [firstDay_succ]
  omega

/- No month begins far from where the average puts it. -/
theorem firstDay_near (month : Int) :
    4800 * firstDay month ≤ 146097 * month + 19200 ∧
      146097 * month ≤ 4800 * firstDay month + 19200 := by
  have hMonth : 12 * (month / 12) + month % 12 = month :=
    Int.mul_ediv_add_emod month 12
  have hPos : 0 ≤ month % 12 := Int.emod_nonneg _ (by decide)
  have hLess : month % 12 < 12 :=
    Int.emod_lt_of_pos _ (by decide)
  unfold firstDay
  dsimp only
  generalize month / 12 = year at hMonth ⊢
  generalize month % 12 = index at hMonth hPos hLess ⊢
  subst hMonth
  constructor
  · omega
  · omega

/-
  The month of a day. The average month guesses it up to one.
-/
def monthOf (day : Int) : Int :=
  let guess := day * 4800 / 146097
  if day < firstDay guess then guess - 1
  else if firstDay (guess + 1) ≤ day then guess + 1
  else guess

theorem monthOf_spec (day : Int) :
    firstDay (monthOf day) ≤ day ∧
      day < firstDay (monthOf day + 1) := by
  unfold monthOf
  dsimp only
  have hLow : 146097 * (day * 4800 / 146097) ≤ day * 4800 :=
    Int.mul_ediv_self_le (by decide)
  have hHigh :
      day * 4800 < 146097 * (day * 4800 / 146097) + 146097 :=
    Int.lt_mul_ediv_self_add (by decide)
  generalize day * 4800 / 146097 = guess at hLow hHigh ⊢
  have hBefore := firstDay_near (guess - 1)
  have hAfter := firstDay_near (guess + 2)
  split
  · rename_i hEarly
    rw [Int.sub_add_cancel]
    omega
  · rename_i hLate
    split
    · rename_i hNext
      rw [show guess + 1 + 1 = guess + 2 by omega]
      omega
    · omega

/- There is only one such month. -/
theorem monthOf_eq
    {day month : Int}
    (hFirst : firstDay month ≤ day)
    (hNext : day < firstDay (month + 1)) :
    monthOf day = month := by
  obtain ⟨hFound, hFoundNext⟩ := monthOf_spec day
  have hLess : month < monthOf day + 1 :=
    firstDay_strictMono.lt_iff_lt.mp
      (lt_of_le_of_lt hFirst hFoundNext)
  have hMore : monthOf day < month + 1 :=
    firstDay_strictMono.lt_iff_lt.mp
      (lt_of_le_of_lt hFound hNext)
  omega

/- The day of the month, from one on. -/
def dayOfMonth (day : Int) : Int :=
  day - firstDay (monthOf day) + 1

theorem dayOfMonth_bounds (day : Int) :
    1 ≤ dayOfMonth day ∧
      dayOfMonth day ≤ monthLength (monthOf day) := by
  obtain ⟨hFirst, hNext⟩ := monthOf_spec day
  rw [firstDay_succ] at hNext
  unfold dayOfMonth
  omega

/- The month and the day in it tell the day. -/
theorem firstDay_add_dayOfMonth (day : Int) :
    firstDay (monthOf day) + (dayOfMonth day - 1) = day := by
  unfold dayOfMonth
  omega

theorem ext
    {day day' : Int}
    (hMonth : monthOf day = monthOf day')
    (hDay : dayOfMonth day = dayOfMonth day') :
    day = day' := by
  rw [← firstDay_add_dayOfMonth day,
    ← firstDay_add_dayOfMonth day', hMonth, hDay]

end Civil

end Data

end IcpHandler

------------------------------------------------------------
-- Steps of Whole Months
------------------------------------------------------------

namespace IcpHandler

namespace Data

namespace Civil

/-
  The same day some months later, or the last day of that
  month where it is too short.
-/
def stepMonths (months day : Int) : Int :=
  firstDay (monthOf day + months) +
    (min (dayOfMonth day)
      (monthLength (monthOf day + months)) - 1)

section Steps

variable {months day : Int}

private theorem stepMonths_bounds :
    firstDay (monthOf day + months) ≤ stepMonths months day ∧
      stepMonths months day <
        firstDay (monthOf day + months + 1) := by
  have hDay := dayOfMonth_bounds day
  have hLength := monthLength_bounds (monthOf day + months)
  rw [firstDay_succ]
  unfold stepMonths
  omega

theorem monthOf_stepMonths :
    monthOf (stepMonths months day) = monthOf day + months :=
  monthOf_eq stepMonths_bounds.1 stepMonths_bounds.2

theorem dayOfMonth_stepMonths :
    dayOfMonth (stepMonths months day) =
      min (dayOfMonth day)
        (monthLength (monthOf day + months)) := by
  rw [dayOfMonth, monthOf_stepMonths]
  unfold stepMonths
  omega

/- Months that are added lead to a later day. -/
theorem lt_stepMonths (hMonths : 0 < months) :
    day < stepMonths months day := by
  have hNext : monthOf day + 1 ≤ monthOf day + months := by
    omega
  have hFirst :=
    firstDay_strictMono.monotone hNext
  exact lt_of_lt_of_le (monthOf_spec day).2
    (le_trans hFirst stepMonths_bounds.1)

/- More months lead at least as far. -/
theorem stepMonths_le_stepMonths
    {fewer more : Int}
    (hLe : fewer ≤ more) :
    stepMonths fewer day ≤ stepMonths more day := by
  rcases Int.lt_or_eq_of_le hLe with hLess | rfl
  · have hNext :
        firstDay (monthOf day + fewer + 1) ≤
          firstDay (monthOf day + more) :=
      firstDay_strictMono.monotone (by omega)
    exact le_trans (Int.le_of_lt stepMonths_bounds.2)
      (le_trans hNext stepMonths_bounds.1)
  · exact le_refl _

theorem stepMonths_zero : stepMonths 0 day = day := by
  have hDay := (dayOfMonth_bounds day).2
  rw [stepMonths, Int.add_zero, min_eq_left hDay]
  exact firstDay_add_dayOfMonth day

end Steps

/-
  The day of the month after some steps of the same length:
  each month that is stepped into may cut it down.
-/
def clampedDay (month step day : Int) : Nat → Int
  | 0 => day
  | count + 1 =>
      min (clampedDay month step day count)
        (monthLength (month + (count + 1 : Nat) * step))

/- It is the least of the day and the months' lengths. -/
theorem le_clampedDay_iff
    {month step day bound : Int}
    {count : Nat} :
    bound ≤ clampedDay month step day count ↔
      bound ≤ day ∧
        ∀ i : Nat, 1 ≤ i → i ≤ count →
          bound ≤ monthLength (month + i * step) := by
  induction count with
  | zero =>
      constructor
      · exact fun hBound => ⟨hBound, fun i hPos hLe => by omega⟩
      · exact fun hBoth => hBoth.1
  | succ count ih =>
      rw [clampedDay, le_min_iff, ih]
      constructor
      · rintro ⟨⟨hDay, hMonths⟩, hLast⟩
        refine ⟨hDay, fun i hPos hLe => ?_⟩
        rcases Nat.lt_or_eq_of_le hLe with hLess | rfl
        · exact hMonths i hPos (Nat.le_of_lt_succ hLess)
        · exact hLast
      · rintro ⟨hDay, hMonths⟩
        refine ⟨⟨hDay, fun i hPos hLe => ?_⟩, ?_⟩
        · exact hMonths i hPos (Nat.le_succ_of_le hLe)
        · exact hMonths _ (Nat.succ_pos count) (Nat.le_refl _)

/- Steps of some months each, one after the other. -/
theorem iterate_stepMonths
    (step day : Int)
    (count : Nat) :
    monthOf ((stepMonths step)^[count] day) =
        monthOf day + count * step ∧
      dayOfMonth ((stepMonths step)^[count] day) =
        clampedDay (monthOf day) step (dayOfMonth day) count := by
  induction count with
  | zero =>
      refine ⟨?_, rfl⟩
      rw [Function.iterate_zero, id_eq]
      omega
  | succ count ih =>
      obtain ⟨hMonth, hDay⟩ := ih
      have hSum :
          monthOf day + count * step + step =
            monthOf day + (count + 1 : Nat) * step := by
        rw [Nat.cast_succ, Int.add_mul, Int.one_mul,
          Int.add_assoc]
      rw [Function.iterate_succ_apply', monthOf_stepMonths,
        dayOfMonth_stepMonths, hMonth, hDay, hSum]
      exact ⟨rfl, rfl⟩

theorem dayOfMonth_iterate_le
    (step day : Int)
    (count : Nat) :
    dayOfMonth ((stepMonths step)^[count] day) ≤
      dayOfMonth (stepMonths (count * step) day) := by
  obtain ⟨-, hDay⟩ := iterate_stepMonths step day count
  have hLengths :=
    le_clampedDay_iff.mp
      (le_refl
        (clampedDay (monthOf day) step (dayOfMonth day) count))
  rw [hDay]
  rcases Nat.eq_zero_or_pos count with rfl | hCount
  · rw [Nat.cast_zero, Int.zero_mul, stepMonths_zero]
    exact hLengths.1
  · rw [dayOfMonth_stepMonths]
    exact le_min hLengths.1
      (hLengths.2 count hCount (Nat.le_refl _))

/- Steps never lead past the jump. -/
theorem iterate_le_jump
    (step day : Int)
    (count : Nat) :
    (stepMonths step)^[count] day ≤
      stepMonths (count * step) day := by
  have hDay := dayOfMonth_iterate_le step day count
  rw [← firstDay_add_dayOfMonth ((stepMonths step)^[count] day),
    ← firstDay_add_dayOfMonth (stepMonths (count * step) day),
    (iterate_stepMonths step day count).1, monthOf_stepMonths]
  omega

/-
  Steps lead to the same day as one jump exactly if no month
  on the way is too short for the day the jump lands on.
-/
theorem iterate_eq_jump_iff
    (step day : Int)
    (count : Nat) :
    (stepMonths step)^[count] day =
        stepMonths (count * step) day ↔
      ∀ i : Nat, 1 ≤ i → i < count →
        dayOfMonth (stepMonths (count * step) day) ≤
          monthLength (monthOf day + i * step) := by
  obtain ⟨hMonth, hDay⟩ := iterate_stepMonths step day count
  constructor
  · intro hSame i hPos hLess
    rw [← hSame, hDay]
    exact (le_clampedDay_iff.mp (le_refl _)).2 i hPos
      (Nat.le_of_lt hLess)
  · intro hLong
    refine ext (hMonth.trans monthOf_stepMonths.symm) ?_
    refine le_antisymm (dayOfMonth_iterate_le step day count) ?_
    rw [hDay, le_clampedDay_iff]
    refine ⟨?_, fun i hPos hLe => ?_⟩
    · rw [dayOfMonth_stepMonths]
      exact min_le_left _ _
    · rcases Nat.lt_or_eq_of_le hLe with hLess | rfl
      · exact hLong i hPos hLess
      · rw [dayOfMonth_stepMonths]
        exact min_le_right _ _

end Civil

end Data

end IcpHandler
