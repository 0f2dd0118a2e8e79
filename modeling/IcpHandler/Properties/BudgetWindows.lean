import Mathlib.Algebra.Order.BigOperators.Group.List
import Mathlib.Algebra.Order.Field.Rat
import Mathlib.Data.Rat.Cast.Order
import Mathlib.Tactic.Linarith
import Mathlib.Tactic.Positivity
import IcpHandler.Model.Numerals
import IcpHandler.Properties.MandatePeriods

/-
  Budget windows against ISO 8601. The reader knows a whole
  count of hours, days, weeks or months; for every other text
  a window of one day is enforced.

  Main declarations:
    * `IsoDuration`, `IsoDuration.single?`
    * `periodParts_text`
    * `enforcedWindow`, `WindowCovers`
    * `budget_window_covers_iff`
-/

------------------------------------------------------------
-- ISO 8601 Durations
------------------------------------------------------------

namespace IcpHandler

namespace Model

/- A decimal number, with a decimal point or comma or without. -/
structure IsoAmount where
  whole : List Char
  fraction : Option (Char × List Char)
  whole_ne : whole ≠ []
  whole_digits : ∀ c ∈ whole, c.isDigit = true
  sign_eq : ∀ f ∈ fraction, f.1 = '.' ∨ f.1 = ','

/- The designators before the `T`. -/
inductive DateUnit where
  | years
  | months
  | weeks
  | days
  deriving DecidableEq

/- The designators after it. -/
inductive TimeUnit where
  | hours
  | minutes
  | seconds
  deriving DecidableEq

namespace DateUnit

def letter : DateUnit → Char
  | years => 'Y'
  | months => 'M'
  | weeks => 'W'
  | days => 'D'

/- A month counts as 30 days and a year as 365. -/
def inSeconds : DateUnit → ℚ
  | years => 31536000
  | months => 2592000
  | weeks => 604800
  | days => 86400

/- The unit of the reader, where it has one. -/
def periodUnit? : DateUnit → Option PeriodUnit
  | years => none
  | months => some .months
  | weeks => some .weeks
  | days => some .days

end DateUnit

namespace TimeUnit

def letter : TimeUnit → Char
  | hours => 'H'
  | minutes => 'M'
  | seconds => 'S'

def inSeconds : TimeUnit → ℚ
  | hours => 3600
  | minutes => 60
  | seconds => 1

end TimeUnit

namespace IsoAmount

def text (amount : IsoAmount) : List Char :=
  amount.whole ++
    match amount.fraction with
    | none => []
    | some (sign, digits) => sign :: digits

def wholeValue (amount : IsoAmount) : Nat :=
  Nat.ofDigitChars 10 amount.whole 0

def value (amount : IsoAmount) : ℚ :=
  amount.wholeValue +
    match amount.fraction with
    | none => 0
    | some (_, digits) =>
        (Nat.ofDigitChars 10 digits 0 : ℚ) / 10 ^ digits.length

theorem value_nonneg (amount : IsoAmount) :
    0 ≤ amount.value := by
  unfold value
  split
  · positivity
  · positivity

/- A number starts with a digit. -/
theorem head_text
    (amount : IsoAmount)
    (rest : List Char) :
    ∃ c, (amount.text ++ rest).head? = some c ∧
      c.isDigit = true := by
  rcases amount with ⟨whole, fraction, hNe, hDigits, hSign⟩
  cases whole with
  | nil => exact absurd rfl hNe
  | cons c whole =>
      exact ⟨c, rfl, hDigits c List.mem_cons_self⟩

/- It is all digits exactly if it is whole. -/
theorem all_text (amount : IsoAmount) :
    amount.text.all Char.isDigit = true ↔
      amount.fraction = none := by
  unfold text
  cases hFraction : amount.fraction with
  | none =>
      simp only [List.append_nil, List.all_eq_true, iff_true]
      exact amount.whole_digits
  | some fraction =>
      obtain ⟨sign, digits⟩ := fraction
      simp only [List.all_append, List.all_cons,
        Bool.and_eq_true, reduceCtorEq, iff_false]
      rintro ⟨-, hSign, -⟩
      rcases amount.sign_eq _ hFraction with rfl | rfl
      · exact absurd hSign (by decide)
      · exact absurd hSign (by decide)

end IsoAmount

/-
  A duration by its components before and after the `T`. The
  standard lists each unit at most once, from the longest on;
  nothing below depends on that.
-/
structure IsoDuration where
  date : List (IsoAmount × DateUnit)
  time : List (IsoAmount × TimeUnit)

namespace IsoDuration

def dateText (date : List (IsoAmount × DateUnit)) : List Char :=
  date.flatMap fun part => part.1.text ++ [part.2.letter]

def timeText (time : List (IsoAmount × TimeUnit)) : List Char :=
  time.flatMap fun part => part.1.text ++ [part.2.letter]

/- What follows the `P`. -/
def inner (d : IsoDuration) : List Char :=
  dateText d.date ++
    if d.time = [] then [] else 'T' :: timeText d.time

def text (d : IsoDuration) : String :=
  String.ofList ('P' :: d.inner)

/- The length that is denoted, in seconds. -/
def seconds (d : IsoDuration) : ℚ :=
  (d.date.map fun part => part.1.value * part.2.inSeconds).sum +
    (d.time.map fun part => part.1.value * part.2.inSeconds).sum

/- A whole count of one unit that the reader knows. -/
def single? (d : IsoDuration) : Option (PeriodUnit × Nat) :=
  match d.date, d.time with
  | [(amount, unit)], [] =>
      if amount.fraction = none then
        unit.periodUnit?.map (·, amount.wholeValue)
      else none
  | [], [(amount, .hours)] =>
      if amount.fraction = none then
        some (.hours, amount.wholeValue)
      else none
  | _, _ => none

end IsoDuration

end Model

end IcpHandler

------------------------------------------------------------
-- Reading a Duration
------------------------------------------------------------

namespace IcpHandler

namespace Model

namespace IsoDuration

/- A letter in the middle of a number stops the reader. -/
theorem parseI64_of_letter
    {chars : List Char}
    {c letter : Char}
    (hHead : chars.head? = some c)
    (hDigit : c.isDigit = true)
    (hMem : letter ∈ chars)
    (hLetter : letter.isDigit = false) :
    Text.parseI64 (String.ofList chars) = none := by
  rw [Text.parseI64_of_digit hHead hDigit, if_neg]
  rintro ⟨hAll, -⟩
  rw [List.all_eq_true] at hAll
  rw [hAll letter hMem] at hLetter
  cases hLetter

/- A number on its own is read if it is whole and fits. -/
theorem parseI64_amount (amount : IsoAmount) :
    Text.parseI64 (String.ofList amount.text) =
      if amount.fraction = none ∧ amount.wholeValue < 2 ^ 63 then
        some (Int64.ofNat amount.wholeValue)
      else none := by
  obtain ⟨c, hHead, hDigit⟩ := amount.head_text []
  rw [List.append_nil] at hHead
  rw [Text.parseI64_of_digit hHead hDigit]
  simp only [amount.all_text]
  by_cases hWhole : amount.fraction = none
  · have hText : amount.text = amount.whole := by
      unfold IsoAmount.text
      rw [hWhole, List.append_nil]
    rw [hText]
    rfl
  · rw [if_neg (fun hBoth => hWhole hBoth.1),
      if_neg (fun hBoth => hWhole hBoth.1)]

theorem stripSuffix_concat
    (chars : List Char)
    (letter : Char) :
    Text.stripSuffix (String.ofList [letter])
        (String.ofList (chars ++ [letter])) =
      some (String.ofList chars) := by
  have hSuffix :
      [letter].isSuffixOf (chars ++ [letter]) = true := by
    rw [List.isSuffixOf_iff_suffix]
    exact List.suffix_append chars [letter]
  unfold Text.stripSuffix
  rw [String.toList_ofList, String.toList_ofList, if_pos hSuffix]
  simp

theorem stripSuffix_concat_ne
    {chars : List Char}
    {letter last : Char}
    (hNe : letter ≠ last) :
    Text.stripSuffix (String.ofList [letter])
        (String.ofList (chars ++ [last])) = none := by
  have hSuffix :
      ¬ [letter].isSuffixOf (chars ++ [last]) = true := by
    rw [List.isSuffixOf_iff_suffix]
    rintro ⟨front, hSame⟩
    have hLast := congrArg List.getLast? hSame
    simp at hLast
    exact hNe hLast
  unfold Text.stripSuffix
  rw [String.toList_ofList, String.toList_ofList, if_neg hSuffix]

theorem stripPrefix_cons
    (letter : Char)
    (chars : List Char) :
    Text.stripPrefix (String.ofList [letter])
        (String.ofList (letter :: chars)) =
      some (String.ofList chars) := by
  unfold Text.stripPrefix
  rw [String.toList_ofList, String.toList_ofList]
  simp

theorem stripPrefix_of_head
    {letter : Char}
    {chars : List Char}
    (hHead : chars.head? ≠ some letter) :
    Text.stripPrefix (String.ofList [letter])
        (String.ofList chars) = none := by
  unfold Text.stripPrefix
  rw [String.toList_ofList, String.toList_ofList, if_neg]
  rw [List.isPrefixOf_iff_prefix]
  rintro ⟨rest, rfl⟩
  exact hHead rfl

theorem dateText_concat
    (date : List (IsoAmount × DateUnit))
    (amount : IsoAmount)
    (unit : DateUnit) :
    dateText (date ++ [(amount, unit)]) =
      dateText date ++ amount.text ++ [unit.letter] := by
  simp [dateText]

theorem timeText_concat
    (time : List (IsoAmount × TimeUnit))
    (amount : IsoAmount)
    (unit : TimeUnit) :
    timeText (time ++ [(amount, unit)]) =
      timeText time ++ amount.text ++ [unit.letter] := by
  simp [timeText]

/- Components start with a digit and contain a letter. -/
theorem dateText_cons
    {date : List (IsoAmount × DateUnit)}
    (hDate : date ≠ []) :
    (∀ rest, ∃ c, (dateText date ++ rest).head? = some c ∧
        c.isDigit = true) ∧
      ∃ letter ∈ dateText date, letter.isDigit = false := by
  cases date with
  | nil => exact absurd rfl hDate
  | cons part date =>
      obtain ⟨amount, unit⟩ := part
      refine ⟨fun rest => ?_, unit.letter, ?_, ?_⟩
      · have hSplit :
            dateText ((amount, unit) :: date) ++ rest =
              amount.text ++
                ([unit.letter] ++ dateText date ++ rest) := by
          simp [dateText]
        rw [hSplit]
        exact amount.head_text _
      · simp [dateText]
      · cases unit with
        | _ => decide

theorem timeText_cons
    {time : List (IsoAmount × TimeUnit)}
    (hTime : time ≠ []) :
    (∀ rest, ∃ c, (timeText time ++ rest).head? = some c ∧
        c.isDigit = true) ∧
      ∃ letter ∈ timeText time, letter.isDigit = false := by
  cases time with
  | nil => exact absurd rfl hTime
  | cons part time =>
      obtain ⟨amount, unit⟩ := part
      refine ⟨fun rest => ?_, unit.letter, ?_, ?_⟩
      · have hSplit :
            timeText ((amount, unit) :: time) ++ rest =
              amount.text ++
                ([unit.letter] ++ timeText time ++ rest) := by
          simp [timeText]
        rw [hSplit]
        exact amount.head_text _
      · simp [timeText]
      · cases unit with
        | _ => decide

/- More than one component is not read as one number. -/
theorem parseI64_date
    (date : List (IsoAmount × DateUnit))
    (amount : IsoAmount) :
    Text.parseI64
        (String.ofList (dateText date ++ amount.text)) =
      if date = [] ∧ amount.fraction = none ∧
          amount.wholeValue < 2 ^ 63 then
        some (Int64.ofNat amount.wholeValue)
      else none := by
  by_cases hDate : date = []
  · subst hDate
    rw [show dateText [] = [] from rfl, List.nil_append,
      parseI64_amount]
    simp only [true_and]
  · obtain ⟨hHead, letter, hMem, hLetter⟩ := dateText_cons hDate
    obtain ⟨c, hHead, hDigit⟩ := hHead amount.text
    rw [parseI64_of_letter hHead hDigit
      (List.mem_append_left _ hMem) hLetter,
      if_neg (fun hAll => hDate hAll.1)]

theorem parseI64_time
    (time : List (IsoAmount × TimeUnit))
    (amount : IsoAmount) :
    Text.parseI64
        (String.ofList (timeText time ++ amount.text)) =
      if time = [] ∧ amount.fraction = none ∧
          amount.wholeValue < 2 ^ 63 then
        some (Int64.ofNat amount.wholeValue)
      else none := by
  by_cases hTime : time = []
  · subst hTime
    rw [show timeText [] = [] from rfl, List.nil_append,
      parseI64_amount]
    simp only [true_and]
  · obtain ⟨hHead, letter, hMem, hLetter⟩ := timeText_cons hTime
    obtain ⟨c, hHead, hDigit⟩ := hHead amount.text
    rw [parseI64_of_letter hHead hDigit
      (List.mem_append_left _ hMem) hLetter,
      if_neg (fun hAll => hTime hAll.1)]

/- What the reader makes of the parts of a duration. -/
def readParts
    (part : PeriodUnit × Nat) : Option (PeriodUnit × Int64) :=
  if part.2 < 2 ^ 63 then some (part.1, Int64.ofNat part.2)
  else none

theorem single_date
    (date : List (IsoAmount × DateUnit))
    (amount : IsoAmount)
    (unit : DateUnit) :
    single? ⟨date ++ [(amount, unit)], []⟩ =
      if date = [] ∧ amount.fraction = none then
        unit.periodUnit?.map (·, amount.wholeValue)
      else none := by
  cases date with
  | nil => simp [single?]
  | cons first date =>
      cases date with
      | nil => simp [single?]
      | cons second date => simp [single?]

theorem single_time
    (time : List (IsoAmount × TimeUnit))
    (amount : IsoAmount)
    (unit : TimeUnit) :
    single? ⟨[], time ++ [(amount, unit)]⟩ =
      if time = [] ∧ amount.fraction = none ∧
          unit = .hours then
        some (.hours, amount.wholeValue)
      else none := by
  cases time with
  | nil =>
      cases unit with
      | hours => simp [single?]
      | minutes => simp [single?]
      | seconds => simp [single?]
  | cons first time =>
      cases time with
      | nil => simp [single?]
      | cons second time => simp [single?]

theorem single_both
    {date : List (IsoAmount × DateUnit)}
    {time : List (IsoAmount × TimeUnit)}
    (hDate : date ≠ [])
    (hTime : time ≠ []) :
    single? ⟨date, time⟩ = none := by
  cases date with
  | nil => exact absurd rfl hDate
  | cons first date =>
      cases time with
      | nil => exact absurd rfl hTime
      | cons other time => simp [single?]

/- A count that was read is the one that is named. -/
theorem map_readParts
    {single : Prop}
    [Decidable single]
    (unit : PeriodUnit)
    (count : Nat) :
    (if single ∧ count < 2 ^ 63 then
        some (Int64.ofNat count)
      else none).map (unit, ·) =
      (if single then some (unit, count) else none).bind
        readParts := by
  by_cases hSingle : single
  · rw [if_pos hSingle, Option.bind_some]
    unfold readParts
    by_cases hFits : count < 2 ^ 63
    · rw [if_pos ⟨hSingle, hFits⟩, if_pos hFits]
      rfl
    · rw [if_neg (fun hBoth => hFits hBoth.2), if_neg hFits]
      rfl
  · rw [if_neg hSingle, if_neg (fun hBoth => hSingle hBoth.1)]
    rfl

theorem periodParts_of_inner
    (chars : List Char) :
    periodParts (String.ofList ('P' :: chars)) =
      match Text.stripPrefix "T" (String.ofList chars) with
      | some rest =>
          ((Text.stripSuffix "H" rest).bind Text.parseI64).map
            (PeriodUnit.hours, ·)
      | none =>
          match Text.stripSuffix "D" (String.ofList chars) with
          | some d => (Text.parseI64 d).map (PeriodUnit.days, ·)
          | none =>
              match
                Text.stripSuffix "W" (String.ofList chars)
              with
              | some w =>
                  (Text.parseI64 w).map (PeriodUnit.weeks, ·)
              | none =>
                  ((Text.stripSuffix "M"
                      (String.ofList chars)).bind
                    Text.parseI64).map
                    (PeriodUnit.months, ·) := by
  have hInner :
      Text.stripPrefix "P" (String.ofList ('P' :: chars)) =
        some (String.ofList chars) := by
    rw [show ("P" : String) = String.ofList ['P'] from rfl]
    exact stripPrefix_cons 'P' chars
  unfold periodParts
  exact congrArg (fun stripped => Option.bind stripped _) hInner

theorem stripPrefix_T_of_digit
    {chars : List Char}
    {c : Char}
    (hHead : chars.head? = some c)
    (hDigit : c.isDigit = true) :
    Text.stripPrefix "T" (String.ofList chars) = none := by
  refine stripPrefix_of_head ?_
  rw [hHead]
  rintro ⟨⟩
  exact absurd hDigit (by decide)

/- Components before the `T` only. -/
theorem periodParts_date
    (date : List (IsoAmount × DateUnit))
    (amount : IsoAmount)
    (unit : DateUnit) :
    periodParts (text ⟨date ++ [(amount, unit)], []⟩) =
      (single? ⟨date ++ [(amount, unit)], []⟩).bind
        readParts := by
  have hInner :
      inner ⟨date ++ [(amount, unit)], []⟩ =
        dateText date ++ amount.text ++ [unit.letter] := by
    simp [inner, dateText_concat]
  have hHead :
      ∃ c, (dateText date ++ amount.text ++
          [unit.letter]).head? = some c ∧
        c.isDigit = true := by
    rw [List.append_assoc]
    by_cases hDate : date = []
    · subst hDate
      exact amount.head_text _
    · exact (dateText_cons hDate).1 _
  obtain ⟨c, hHead, hDigit⟩ := hHead
  rw [text, hInner, periodParts_of_inner,
    stripPrefix_T_of_digit hHead hDigit, single_date]
  dsimp only
  have hNumber := parseI64_date date amount
  simp only [← and_assoc] at hNumber
  rw [show ("D" : String) = String.ofList ['D'] from rfl,
    show ("W" : String) = String.ofList ['W'] from rfl,
    show ("M" : String) = String.ofList ['M'] from rfl]
  cases unit with
  | years =>
      rw [stripSuffix_concat_ne (by decide),
        stripSuffix_concat_ne (by decide),
        stripSuffix_concat_ne (by decide)]
      simp [DateUnit.periodUnit?]
  | months =>
      rw [stripSuffix_concat_ne (by decide),
        stripSuffix_concat_ne (by decide),
        show DateUnit.months.letter = 'M' from rfl,
        stripSuffix_concat]
      dsimp only
      rw [Option.bind_some, hNumber]
      exact map_readParts .months amount.wholeValue
  | weeks =>
      rw [stripSuffix_concat_ne (by decide),
        show DateUnit.weeks.letter = 'W' from rfl,
        stripSuffix_concat]
      dsimp only
      rw [hNumber]
      exact map_readParts .weeks amount.wholeValue
  | days =>
      rw [show DateUnit.days.letter = 'D' from rfl,
        stripSuffix_concat]
      dsimp only
      rw [hNumber]
      exact map_readParts .days amount.wholeValue

/- Components after the `T` only. -/
theorem periodParts_time
    (time : List (IsoAmount × TimeUnit))
    (amount : IsoAmount)
    (unit : TimeUnit) :
    periodParts (text ⟨[], time ++ [(amount, unit)]⟩) =
      (single? ⟨[], time ++ [(amount, unit)]⟩).bind
        readParts := by
  have hInner :
      inner ⟨[], time ++ [(amount, unit)]⟩ =
        'T' :: (timeText time ++ amount.text ++
          [unit.letter]) := by
    simp [inner, timeText_concat, dateText]
  have hNumber := parseI64_time time amount
  simp only [← and_assoc] at hNumber
  rw [text, hInner, periodParts_of_inner,
    show ("T" : String) = String.ofList ['T'] from rfl,
    stripPrefix_cons, single_time,
    show ("H" : String) = String.ofList ['H'] from rfl]
  dsimp only
  cases unit with
  | hours =>
      rw [show TimeUnit.hours.letter = 'H' from rfl,
        stripSuffix_concat, Option.bind_some, hNumber]
      simp only [and_true]
      exact map_readParts .hours amount.wholeValue
  | minutes =>
      rw [stripSuffix_concat_ne (by decide)]
      simp
  | seconds =>
      rw [stripSuffix_concat_ne (by decide)]
      simp

/- Components on both sides of it. -/
theorem periodParts_both
    {date : List (IsoAmount × DateUnit)}
    (hDate : date ≠ [])
    (time : List (IsoAmount × TimeUnit))
    (amount : IsoAmount)
    (unit : TimeUnit) :
    periodParts (text ⟨date, time ++ [(amount, unit)]⟩) =
      none := by
  have hInner :
      inner ⟨date, time ++ [(amount, unit)]⟩ =
        dateText date ++ 'T' :: (timeText time ++ amount.text) ++
          [unit.letter] := by
    simp [inner, timeText_concat]
  obtain ⟨c, hHead, hDigit⟩ :=
    (dateText_cons hDate).1
      ('T' :: (timeText time ++ amount.text) ++ [unit.letter])
  rw [← List.append_assoc] at hHead
  rw [text, hInner, periodParts_of_inner,
    stripPrefix_T_of_digit hHead hDigit,
    show ("D" : String) = String.ofList ['D'] from rfl,
    show ("W" : String) = String.ofList ['W'] from rfl,
    show ("M" : String) = String.ofList ['M'] from rfl]
  dsimp only
  cases unit with
  | hours =>
      rw [stripSuffix_concat_ne (by decide),
        stripSuffix_concat_ne (by decide),
        stripSuffix_concat_ne (by decide)]
      rfl
  | minutes =>
      obtain ⟨c, hHead, hDigit⟩ :=
        (dateText_cons hDate).1
          ('T' :: (timeText time ++ amount.text))
      have hMem :
          'T' ∈ dateText date ++
            'T' :: (timeText time ++ amount.text) := by
        simp
      rw [stripSuffix_concat_ne (by decide),
        stripSuffix_concat_ne (by decide),
        show TimeUnit.minutes.letter = 'M' from rfl,
        stripSuffix_concat]
      dsimp only
      rw [Option.bind_some,
        parseI64_of_letter hHead hDigit hMem (by decide)]
      rfl
  | seconds =>
      rw [stripSuffix_concat_ne (by decide),
        stripSuffix_concat_ne (by decide),
        stripSuffix_concat_ne (by decide)]
      rfl

/- The reader finds exactly the whole counts of one unit. -/
theorem periodParts_text (d : IsoDuration) :
    periodParts d.text = d.single?.bind readParts := by
  obtain ⟨date, time⟩ := d
  rcases List.eq_nil_or_concat' time with
    rfl | ⟨time, ⟨amount, unit⟩, rfl⟩
  · rcases List.eq_nil_or_concat' date with
      rfl | ⟨date, ⟨amount, unit⟩, rfl⟩
    · decide
    · exact periodParts_date date amount unit
  · by_cases hDate : date = []
    · subst hDate
      exact periodParts_time time amount unit
    · rw [periodParts_both hDate,
        single_both hDate (by simp)]
      rfl

/- A component is not negative, and neither is their sum. -/
theorem seconds_nonneg (d : IsoDuration) : 0 ≤ d.seconds := by
  have hDate :
      0 ≤ (d.date.map fun part =>
        part.1.value * part.2.inSeconds).sum := by
    refine List.sum_nonneg ?_
    intro x hMem
    obtain ⟨⟨amount, unit⟩, -, rfl⟩ := List.mem_map.mp hMem
    refine mul_nonneg amount.value_nonneg ?_
    cases unit with
    | _ => norm_num [DateUnit.inSeconds]
  have hTime :
      0 ≤ (d.time.map fun part =>
        part.1.value * part.2.inSeconds).sum := by
    refine List.sum_nonneg ?_
    intro x hMem
    obtain ⟨⟨amount, unit⟩, -, rfl⟩ := List.mem_map.mp hMem
    refine mul_nonneg amount.value_nonneg ?_
    cases unit with
    | _ => norm_num [TimeUnit.inSeconds]
  exact add_nonneg hDate hTime

/- A whole count of one unit denotes that many units. -/
theorem seconds_of_single
    {d : IsoDuration}
    {unit : PeriodUnit}
    {count : Nat}
    (hSingle : d.single? = some (unit, count)) :
    d.seconds = ((count * unit.seconds : Int) : ℚ) := by
  obtain ⟨date, time⟩ := d
  unfold single? at hSingle
  split at hSingle
  · rename_i amount dateUnit hDate hTime
    dsimp only at hDate hTime
    subst hDate hTime
    split at hSingle
    · rename_i hWhole
      obtain ⟨found, hUnit, hSame⟩ :=
        Option.map_eq_some_iff.mp hSingle
      cases hSame
      have hValue : amount.value = amount.wholeValue := by
        unfold IsoAmount.value
        rw [hWhole]
        simp
      cases dateUnit with
      | years => cases hUnit
      | months =>
          cases hUnit
          simp [seconds, hValue, DateUnit.inSeconds,
            PeriodUnit.seconds]
      | weeks =>
          cases hUnit
          simp [seconds, hValue, DateUnit.inSeconds,
            PeriodUnit.seconds]
      | days =>
          cases hUnit
          simp [seconds, hValue, DateUnit.inSeconds,
            PeriodUnit.seconds]
    · cases hSingle
  · rename_i amount hDate hTime
    dsimp only at hDate hTime
    subst hDate hTime
    split at hSingle
    · rename_i hWhole
      cases hSingle
      have hValue : amount.value = amount.wholeValue := by
        unfold IsoAmount.value
        rw [hWhole]
        simp
      simp [seconds, hValue, TimeUnit.inSeconds,
        PeriodUnit.seconds]
    · cases hSingle
  · cases hSingle

end IsoDuration

end Model

end IcpHandler

------------------------------------------------------------
-- The Enforced Window
------------------------------------------------------------

namespace IcpHandler

namespace Model

/- The window of a budget, as both callers of the reader do. -/
def enforcedWindow
    (budget : MandateBudget) : Except String Duration :=
  (parsePeriod budget.period).map
    (·.getD (Duration.days 1))

/- The window is at least as long as the duration denotes. -/
def WindowCovers
    (budget : MandateBudget)
    (d : IsoDuration) : Prop :=
  ∃ window, enforcedWindow budget = .ok window ∧
    d.seconds ≤ (window : ℚ) / 1000000000

theorem dailyWindow_seconds :
    ((Duration.days 1 : Duration) : ℚ) / 1000000000 = 86400 := by
  norm_num [Duration.days, Duration.seconds]

theorem enforcedWindow_none
    {budget : MandateBudget}
    {s : String}
    (hPeriod : budget.period = some s)
    (hParts : periodParts s = none) :
    enforcedWindow budget = .ok (Duration.days 1) := by
  unfold enforcedWindow
  rw [hPeriod, parsePeriod_eq, hParts]
  rfl

theorem enforcedWindow_some
    {budget : MandateBudget}
    {s : String}
    {unit : PeriodUnit}
    {count : Int64}
    (hPeriod : budget.period = some s)
    (hParts : periodParts s = some (unit, count)) :
    (∃ window, unit.build count = some window ∧
        enforcedWindow budget = .ok window) ∨
      unit.build count = none ∧
        ∃ message, enforcedWindow budget = .error message := by
  unfold enforcedWindow
  rw [hPeriod, parsePeriod_eq, hParts]
  dsimp only
  unfold builtPeriod
  cases unit.build count with
  | some window => exact .inl ⟨window, rfl, rfl⟩
  | none => exact .inr ⟨rfl, _, rfl⟩

/- A count in range is covered, to the second. -/
theorem windowCovers_single
    {budget : MandateBudget}
    {d : IsoDuration}
    {unit : PeriodUnit}
    {count : Nat}
    (hPeriod : budget.period = some d.text)
    (hSingle : d.single? = some (unit, count)) :
    WindowCovers budget d ↔
      count * unit.seconds ≤ 9223372036854775 ∨
        d.seconds ≤ 86400 := by
  have hSeconds := IsoDuration.seconds_of_single hSingle
  have hDay : (86400 : ℚ) = ((86400 : Int) : ℚ) := by norm_num
  have hUnit := unit.seconds_pos
  have hHour : 3600 ≤ unit.seconds := by
    cases unit with
    | _ => decide
  have hParts := IsoDuration.periodParts_text d
  rw [hSingle, Option.bind_some] at hParts
  unfold IsoDuration.readParts at hParts
  by_cases hFits : count < 2 ^ 63
  · rw [if_pos hFits] at hParts
    have hCount : (Int64.ofNat count).toInt = count :=
      Int64.toInt_ofNat_of_lt hFits
    by_cases hRange : count * unit.seconds ≤ 9223372036854775
    · -- The duration is built exactly.
      refine iff_of_true ?_ (.inl hRange)
      have hBuild :
          unit.build (Int64.ofNat count) =
            some (Duration.seconds (count * unit.seconds)) := by
        rw [← hCount]
        refine PeriodUnit.build_of_inRange ?_ ?_
        · omega
        · unfold PeriodUnit.InRange
          rw [hCount]
          exact hRange
      rcases enforcedWindow_some hPeriod hParts with
        ⟨window, hWindow, hEnforced⟩ | ⟨hNone, -⟩
      · rw [hBuild] at hWindow
        cases hWindow
        refine ⟨_, hEnforced, ?_⟩
        rw [hSeconds]
        unfold Duration.seconds
        push_cast
        linarith
      · rw [hBuild] at hNone
        cases hNone
    · -- Too long for the type, however it wraps.
      refine iff_of_false ?_ ?_
      · rintro ⟨window, hEnforced, hLe⟩
        rcases enforcedWindow_some hPeriod hParts with
          ⟨built, hBuild, hBuilt⟩ | ⟨-, message, hError⟩
        · rw [hEnforced] at hBuilt
          cases hBuilt
          have hMax := PeriodUnit.build_le hBuild
          have hMaxInt :
              (window : Int) ≤
                9223372036854775 * 1000000000 := hMax
          have hMaxQ :
              (window : ℚ) ≤ 9223372036854775 * 1000000000 := by
            exact_mod_cast hMaxInt
          have hRangeQ :
              (9223372036854775 : ℚ) <
                ((count * unit.seconds : Int) : ℚ) := by
            exact_mod_cast not_le.mp hRange
          rw [hSeconds] at hLe
          linarith
        · rw [hEnforced] at hError
          cases hError
      · rintro (hLe | hLe)
        · exact hRange hLe
        · rw [hSeconds, hDay] at hLe
          have hLeInt : count * unit.seconds ≤ 86400 := by
            exact_mod_cast hLe
          omega
  · -- Too large a count for the reader: the default is taken.
    rw [if_neg hFits] at hParts
    have hLarge :
        (9223372036854775 : Int) < count * unit.seconds := by
      have hProduct :
          (2 ^ 63 : Int) * 3600 ≤ count * unit.seconds :=
        Int.mul_le_mul (by omega) hHour (by omega) (by omega)
      omega
    have hDaily := enforcedWindow_none hPeriod hParts
    refine iff_of_false ?_ ?_
    · rintro ⟨window, hEnforced, hLe⟩
      rw [hDaily] at hEnforced
      cases hEnforced
      have hLargeQ :
          (9223372036854775 : ℚ) <
            ((count * unit.seconds : Int) : ℚ) := by
        exact_mod_cast hLarge
      rw [hSeconds, dailyWindow_seconds] at hLe
      linarith
    · rintro (hLe | hLe)
      · omega
      · rw [hSeconds, hDay] at hLe
        have hLeInt : count * unit.seconds ≤ 86400 := by
          exact_mod_cast hLe
        omega

/- Anything else is covered by the default window or not. -/
theorem windowCovers_other
    {budget : MandateBudget}
    {d : IsoDuration}
    (hPeriod : budget.period = some d.text)
    (hSingle : d.single? = none) :
    WindowCovers budget d ↔ d.seconds ≤ 86400 := by
  have hParts := IsoDuration.periodParts_text d
  rw [hSingle, Option.bind_none] at hParts
  have hDaily := enforcedWindow_none hPeriod hParts
  constructor
  · rintro ⟨window, hEnforced, hLe⟩
    rw [hDaily] at hEnforced
    cases hEnforced
    rwa [dailyWindow_seconds] at hLe
  · intro hLe
    exact ⟨_, hDaily, by rwa [dailyWindow_seconds]⟩

end Model

end IcpHandler

------------------------------------------------------------
-- Both Callers
------------------------------------------------------------

namespace IcpHandler

namespace Service

open Model Protocol

/- A spend that is recorded goes by this window. -/
def SpendsWithin
    (window : Except String Duration) : Eff → Prop
  | .recordSpend _ _ _ _ limits => window = .ok limits.window
  | _ => True

/- A reservation spends within the enforced window. -/
theorem reserve_within
    (ev : MandateEvaluation)
    (tenantId : String)
    (amountMinor : Int64)
    (currency : String) :
    Svc.Only
      (SpendsWithin (enforcedWindow ev.payload.icp.budget))
      (reserveMandateSpend (some ev) tenantId amountMinor
        currency) := by
  unfold reserveMandateSpend
  dsimp only
  split
  · exact Svc.Only.pure _
  · refine (Svc.Only.ensure _ _).bind fun _ => ?_
    split
    · rename_i period hPeriod
      have hWindow :
          enforcedWindow ev.payload.icp.budget =
            .ok (period.getD (Duration.days 1)) := by
        unfold enforcedWindow
        rw [hPeriod]
        rfl
      rw [pure_bind]
      refine Svc.Only.bind (Svc.Only.act trivial) fun now => ?_
      exact Svc.Only.bind (Svc.Only.act hWindow) fun _ =>
        Svc.Only.ofExcept _ _
    · intro past
      rw [Svc.meets_bind, Svc.meets_panic]
      trivial

/- Evaluation counts the spend of the enforced window. -/
theorem affords_iff_within
    (payload : MandatePayload)
    (usage : MandateUsage)
    (candidateAmountMinor : Int64)
    (now : DateTime) :
    payload.Affords usage candidateAmountMinor now ↔
      ∃ window,
        enforcedWindow payload.icp.budget = .ok window ∧
          candidateAmountMinor ≤
            Saturating.satSub payload.icp.budget.amountMinor
              (usage.spentInWindow window now) := by
  unfold MandatePayload.Affords enforcedWindow
  cases hPeriod : parsePeriod payload.icp.budget.period with
  | error message =>
      constructor
      · rintro ⟨period, hOk, -⟩
        cases hOk
      · rintro ⟨window, hOk, -⟩
        cases hOk
  | ok period =>
      constructor
      · rintro ⟨_, ⟨⟩, hFits⟩
        exact ⟨_, rfl, hFits⟩
      · rintro ⟨_, ⟨⟩, hFits⟩
        exact ⟨period, rfl, hFits⟩

/-
  The window that both callers go by is as long as the period
  that is written exactly for the forms of the reader, and for
  periods of no more than a day.
-/
theorem budget_window_covers_iff
    (budget : MandateBudget)
    (d : IsoDuration) :
    (WindowCovers { budget with period := some d.text } d ↔
      (∃ unit count, d.single? = some (unit, count) ∧
        count * PeriodUnit.seconds unit ≤ 9223372036854775) ∨
        d.seconds ≤ 86400) ∧
      (∀ ev tenantId amountMinor currency,
        Svc.Only
          (SpendsWithin (enforcedWindow ev.payload.icp.budget))
          (reserveMandateSpend (some ev) tenantId amountMinor
            currency)) ∧
      ∀ (payload : MandatePayload) usage candidateAmountMinor
          now,
        payload.Affords usage candidateAmountMinor now ↔
          ∃ window,
            enforcedWindow payload.icp.budget = .ok window ∧
              candidateAmountMinor ≤
                Saturating.satSub payload.icp.budget.amountMinor
                  (usage.spentInWindow window now) := by
  refine ⟨?_, reserve_within, affords_iff_within⟩
  cases hSingle : d.single? with
  | none =>
      rw [windowCovers_other rfl hSingle]
      simp
  | some part =>
      obtain ⟨unit, count⟩ := part
      rw [windowCovers_single rfl hSingle]
      simp

/- A day and a half, and a year, are cut down to a day. -/
private def oneAmount : IsoAmount where
  whole := ['1']
  fraction := none
  whole_ne := by decide
  whole_digits := List.forall_mem_singleton.mpr rfl
  sign_eq := fun f hMem => absurd hMem (Option.not_mem_none f)

theorem year_cut_to_day :
    IsoDuration.text ⟨[(oneAmount, .years)], []⟩ = "P1Y" ∧
      ∀ budget : MandateBudget,
        enforcedWindow { budget with period := some "P1Y" } =
            .ok (Duration.days 1) ∧
          ¬ WindowCovers { budget with period := some "P1Y" }
            ⟨[(oneAmount, .years)], []⟩ := by
  have hParts : periodParts "P1Y" = none := by decide
  have hYear :
      IsoDuration.seconds ⟨[(oneAmount, .years)], []⟩ =
        31536000 := by
    have hOne : oneAmount.value = 1 := by
      have hWhole : oneAmount.wholeValue = 1 := by decide
      rw [IsoAmount.value, hWhole]
      change ((1 : Nat) : ℚ) + 0 = 1
      norm_num
    simp [IsoDuration.seconds, hOne, DateUnit.inSeconds]
  refine ⟨by decide, fun budget => ?_⟩
  have hDaily :
      enforcedWindow { budget with period := some "P1Y" } =
        .ok (Duration.days 1) :=
    enforcedWindow_none rfl hParts
  refine ⟨hDaily, ?_⟩
  rintro ⟨window, hEnforced, hLe⟩
  rw [hDaily] at hEnforced
  cases hEnforced
  rw [dailyWindow_seconds, hYear] at hLe
  norm_num at hLe

end Service

end IcpHandler
