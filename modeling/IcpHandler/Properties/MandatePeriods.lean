import IcpHandler.Properties.MandateEvaluation

/-
  The period of a mandate's budget, and when the reader makes
  a usable window of it: one that is positive, and as long as
  the text says.

  Main declarations:
    * `periodParts`, `parsePeriod_eq`
    * `PeriodUnit.build_of_inRange`
    * `PeriodSafe`, `periodSafe_iff`
    * `periods_unsafe`
-/

------------------------------------------------------------
-- The Parts of a Period
------------------------------------------------------------

namespace IcpHandler

namespace Model

/- The forms of a period that the reader knows. -/
inductive PeriodUnit where
  | hours
  | days
  | weeks
  | months
  deriving DecidableEq

namespace PeriodUnit

def seconds : PeriodUnit → Int
  | hours => 3600
  | days => 86400
  | weeks => 604800
  | months => 2592000

/- The duration that is built from a count. -/
def build (unit : PeriodUnit) (count : Int64) : Option Duration :=
  match unit with
  | hours => Duration.tryHours count.toInt
  | days => Duration.tryDays count.toInt
  | weeks => Duration.tryDays (count * 7).toInt
  | months => Duration.tryDays (count * 30).toInt

end PeriodUnit

/- The unit and the count that a text names, if any. -/
def periodParts (s : String) : Option (PeriodUnit × Int64) :=
  (Text.stripPrefix "P" s).bind fun inner =>
    match Text.stripPrefix "T" inner with
    | some rest =>
        ((Text.stripSuffix "H" rest).bind Text.parseI64).map
          (PeriodUnit.hours, ·)
    | none =>
        match Text.stripSuffix "D" inner with
        | some d => (Text.parseI64 d).map (PeriodUnit.days, ·)
        | none =>
            match Text.stripSuffix "W" inner with
            | some w =>
                (Text.parseI64 w).map (PeriodUnit.weeks, ·)
            | none =>
                ((Text.stripSuffix "M" inner).bind
                  Text.parseI64).map (PeriodUnit.months, ·)

/- What is made of a unit and a count. -/
def builtPeriod
    (unit : PeriodUnit)
    (count : Int64) : Except String (Option Duration) :=
  match unit.build count with
  | some duration => .ok (some duration)
  | none =>
      .error ("TimeDelta::" ++
        (match unit with
        | .hours => "hours"
        | _ => "days") ++ " out of bounds")

/-
  The reader goes by the parts alone: without any it answers
  with no period, and it panics where the duration cannot be
  built.
-/
theorem parsePeriod_eq (s : String) :
    parsePeriod (some s) =
      match periodParts s with
      | none => .ok none
      | some (unit, count) => builtPeriod unit count := by
  unfold periodParts parsePeriod
  rw [Option.bind_some]
  cases Text.stripPrefix "P" s with
  | none => rfl
  | some inner =>
      rw [Option.bind_some]
      dsimp only
      cases Text.stripPrefix "T" inner with
      | some rest =>
          dsimp only
          cases Text.stripSuffix "H" rest with
          | none => rfl
          | some h =>
              dsimp only
              rw [Option.bind_some]
              cases Text.parseI64 h with
              | none => rfl
              | some n => rfl
      | none =>
          dsimp only
          cases Text.stripSuffix "D" inner with
          | some d =>
              dsimp only
              cases Text.parseI64 d with
              | none => rfl
              | some n => rfl
          | none =>
              dsimp only
              cases Text.stripSuffix "W" inner with
              | some w =>
                  dsimp only
                  cases Text.parseI64 w with
                  | none => rfl
                  | some n => rfl
              | none =>
                  dsimp only
                  cases Text.stripSuffix "M" inner with
                  | none => rfl
                  | some m =>
                      dsimp only
                      rw [Option.bind_some]
                      cases Text.parseI64 m with
                      | none => rfl
                      | some n => rfl

namespace PeriodUnit

/- The count can be built into the duration it means. -/
def InRange (unit : PeriodUnit) (count : Int64) : Prop :=
  count.toInt * unit.seconds ≤ 9223372036854775

variable {unit : PeriodUnit} {count : Int64}

theorem seconds_pos (unit : PeriodUnit) : 0 < unit.seconds := by
  cases unit with
  | _ => decide

/- A product that fits is the exact product. -/
theorem toInt_mul_small
    {factor : Int64}
    {n : Int}
    (hFactor : factor.toInt = n)
    (hLow : -(2 ^ 63) ≤ count.toInt * n)
    (hHigh : count.toInt * n < 2 ^ 63) :
    (count * factor).toInt = count.toInt * n := by
  rw [Int64.toInt_mul, hFactor, Int.bmod_eq_of_le]
  · omega
  · omega

theorem seconds_le_iff
    {m n : Int} :
    Duration.seconds m ≤ Duration.seconds n ↔ m ≤ n := by
  have hInt : m * 1000000000 ≤ n * 1000000000 ↔ m ≤ n := by
    omega
  exact hInt

theorem seconds_pos_iff
    {n : Int} :
    0 < Duration.seconds n ↔ 0 < n := by
  have hInt : 0 < n * 1000000000 ↔ 0 < n := by omega
  exact hInt

theorem tryDays_of_fits
    {days : Int}
    (hFits : (days * 86400).natAbs ≤ 9223372036854775) :
    Duration.tryDays days =
      some (Duration.seconds (days * 86400)) :=
  if_pos hFits

/- A count in range is built exactly. -/
theorem build_of_inRange
    (hNonneg : 0 ≤ count.toInt)
    (hRange : unit.InRange count) :
    unit.build count =
      some (Duration.seconds (count.toInt * unit.seconds)) := by
  unfold InRange at hRange
  cases unit with
  | hours =>
      simp only [seconds] at hRange
      have hFits :
          (count.toInt * 3600).natAbs ≤ 9223372036854775 := by
        omega
      exact if_pos hFits
  | days =>
      simp only [seconds] at hRange
      exact tryDays_of_fits (by omega)
  | weeks =>
      simp only [seconds] at hRange ⊢
      have hProduct : (count * 7).toInt = count.toInt * 7 :=
        toInt_mul_small (by decide) (by omega) (by omega)
      change Duration.tryDays (count * 7).toInt = _
      rw [hProduct, tryDays_of_fits (by omega), mul_assoc]
      rfl
  | months =>
      simp only [seconds] at hRange ⊢
      have hProduct : (count * 30).toInt = count.toInt * 30 :=
        toInt_mul_small (by decide) (by omega) (by omega)
      change Duration.tryDays (count * 30).toInt = _
      rw [hProduct, tryDays_of_fits (by omega), mul_assoc]
      rfl

/- What is built is never longer than the type allows. -/
theorem build_le
    {duration : Duration}
    (hBuild : unit.build count = some duration) :
    duration ≤ Duration.seconds 9223372036854775 := by
  have hTry :
      ∀ {days : Int},
        Duration.trySeconds days = some duration →
          duration ≤ Duration.seconds 9223372036854775 := by
    intro days hTry
    unfold Duration.trySeconds at hTry
    split at hTry
    · rename_i hFits
      cases hTry
      exact seconds_le_iff.mpr (by omega)
    · cases hTry
  cases unit with
  | hours => exact hTry hBuild
  | days => exact hTry hBuild
  | weeks => exact hTry hBuild
  | months => exact hTry hBuild

end PeriodUnit

end Model

end IcpHandler

------------------------------------------------------------
-- Safe Periods
------------------------------------------------------------

namespace IcpHandler

namespace Model

/-
  The reader returns, and a duration that it returns is
  positive and exactly the one that the text names: no product
  on the way has overflowed.
-/
def PeriodSafe (s : String) : Prop :=
  ∃ period, parsePeriod (some s) = .ok period ∧
    ∀ duration, period = some duration →
      0 < duration ∧
        ∃ unit count, periodParts s = some (unit, count) ∧
          duration =
            Duration.seconds
              (count.toInt * PeriodUnit.seconds unit)

/- A text is safe if its count is positive and in range. -/
theorem periodSafe_iff (s : String) :
    PeriodSafe s ↔
      ∀ unit count, periodParts s = some (unit, count) →
        0 < count.toInt ∧ unit.InRange count := by
  constructor
  · rintro ⟨period, hPeriod, hSafe⟩ unit count hParts
    rw [parsePeriod_eq, hParts] at hPeriod
    dsimp only at hPeriod
    unfold builtPeriod at hPeriod
    cases hBuild : unit.build count with
    | none =>
        rw [hBuild] at hPeriod
        cases hPeriod
    | some duration =>
        rw [hBuild] at hPeriod
        cases hPeriod
        obtain ⟨hPos, unit', count', hSame, hExact⟩ :=
          hSafe duration rfl
        rw [hParts] at hSame
        cases hSame
        have hLe := PeriodUnit.build_le hBuild
        have hUnit := unit.seconds_pos
        unfold PeriodUnit.InRange
        rw [hExact] at hPos hLe
        have hProduct := PeriodUnit.seconds_pos_iff.mp hPos
        refine ⟨?_, PeriodUnit.seconds_le_iff.mp hLe⟩
        exact pos_of_mul_pos_left hProduct hUnit.le
  · intro hRange
    rw [PeriodSafe, parsePeriod_eq]
    cases hParts : periodParts s with
    | none =>
        refine ⟨none, rfl, ?_⟩
        exact fun duration hNone => nomatch hNone
    | some parts =>
        obtain ⟨unit, count⟩ := parts
        obtain ⟨hPos, hFits⟩ := hRange unit count hParts
        have hBuild := PeriodUnit.build_of_inRange hPos.le hFits
        refine ⟨some (Duration.seconds
          (count.toInt * unit.seconds)), ?_, ?_⟩
        · dsimp only
          unfold builtPeriod
          rw [hBuild]
        · rintro duration ⟨⟩
          have hProduct : 0 < count.toInt * unit.seconds :=
            Int.mul_pos hPos unit.seconds_pos
          exact ⟨PeriodUnit.seconds_pos_iff.mpr hProduct, unit,
            count, rfl, rfl⟩

/- A count that is too large, and one that is not positive. -/
theorem periods_unsafe :
    (∃ message,
        parsePeriod (some "P9223372036854775807D") =
          .error message) ∧
      parsePeriod (some "P-1D") =
        .ok (some (-Duration.days 1)) ∧
      ¬ PeriodSafe "P9223372036854775807D" ∧
      ¬ PeriodSafe "P-1D" := by
  have hPanic :
      parsePeriod (some "P9223372036854775807D") =
        .error "TimeDelta::days out of bounds" := by
    decide
  have hNegative :
      parsePeriod (some "P-1D") =
        .ok (some (-Duration.days 1)) := by
    decide
  refine ⟨⟨_, hPanic⟩, hNegative, ?_, ?_⟩
  · rintro ⟨period, hOk, -⟩
    rw [hPanic] at hOk
    cases hOk
  · rintro ⟨period, hOk, hSafe⟩
    rw [hNegative] at hOk
    cases hOk
    exact absurd (hSafe _ rfl).1 (by decide)

end Model

end IcpHandler
