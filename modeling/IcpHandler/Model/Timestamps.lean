import IcpHandler.Data.OrderedText
import IcpHandler.Model.CivilDates

/-
  The text of an instant, as the date library documents it of
  `to_rfc3339`: the fields of the date and the time of day, as
  many digits of the fraction as it needs of zero, three, six
  or nine, and the offset of UTC.

  Main declarations:
    * `civilYear`, `civilMonth`
    * `hour`, `minute`, `second`, `nanosecond`
    * `FourDigitYear`
    * `secondsFraction`, `rfc3339Chars`
    * `ChronoText`
    * `readRfc3339`, `chronoText_readRfc3339`
-/

------------------------------------------------------------
-- Fields of an Instant
------------------------------------------------------------

namespace IcpHandler

namespace Model

open Data

/- The year, which begins two months before March. -/
def civilYear (day : Int) : Int :=
  (Civil.monthOf day + 2) / 12

/- The month of the year, from one on. -/
def civilMonth (day : Int) : Int :=
  (Civil.monthOf day + 2) % 12 + 1

/- The fields of a time of day. -/
def hour (time : Duration) : Int :=
  time / 3600000000000

def minute (time : Duration) : Int :=
  time / 60000000000 % 60

def second (time : Duration) : Int :=
  time / 1000000000 % 60

def nanosecond (time : Duration) : Int :=
  time % 1000000000

/- The year of the instant is one from 0 to 9999. -/
def FourDigitYear (instant : DateTime) : Prop :=
  0 ≤ civilYear (dayOf instant) ∧
    civilYear (dayOf instant) ≤ 9999

instance
    (instant : DateTime) :
    Decidable (FourDigitYear instant) := by
  unfold FourDigitYear
  infer_instance

/- Two digits hold every field but the year. -/
theorem civilMonth_bounds (day : Int) :
    0 ≤ civilMonth day ∧ civilMonth day < 10 ^ 2 := by
  unfold civilMonth
  omega

theorem dayOfMonth_lt (day : Int) :
    0 ≤ Civil.dayOfMonth day ∧
      Civil.dayOfMonth day < 10 ^ 2 := by
  have hDay := Civil.dayOfMonth_bounds day
  have hLength :=
    (Civil.monthLength_bounds (Civil.monthOf day)).2
  omega

theorem hour_bounds (instant : DateTime) :
    0 ≤ hour (timeOf instant) ∧
      hour (timeOf instant) < 10 ^ 2 := by
  unfold hour timeOf Duration.days Duration.seconds
  omega

theorem minute_bounds (time : Duration) :
    0 ≤ minute time ∧ minute time < 10 ^ 2 := by
  unfold minute
  omega

theorem second_bounds (time : Duration) :
    0 ≤ second time ∧ second time < 10 ^ 2 := by
  unfold second
  omega

theorem nanosecond_bounds (time : Duration) :
    0 ≤ nanosecond time ∧ nanosecond time < 1000000000 := by
  unfold nanosecond
  omega

end Model

end IcpHandler

------------------------------------------------------------
-- The Text
------------------------------------------------------------

namespace IcpHandler

namespace Model

open Data

/- Decimal digits, padded with zeros. -/
def decimal (width : Nat) (value : Int) : List Char :=
  OrderedText.numeral Nat.digitChar 10 width value.toNat

/-
  `SecondsFormat::AutoSi`: all sub-second digits that are not
  zero, in milliseconds, microseconds or nanoseconds.
-/
def secondsFraction (nanos : Int) : List Char :=
  if nanos = 0 then []
  else if nanos % 1000000 = 0 then
    '.' :: decimal 3 (nanos / 1000000)
  else if nanos % 1000 = 0 then
    '.' :: decimal 6 (nanos / 1000)
  else '.' :: decimal 9 nanos

/- The offset of UTC. -/
def utcOffset : List Char :=
  ['+', '0', '0', ':', '0', '0']

/- `to_rfc3339`, of a year with four digits. -/
def rfc3339Chars (instant : DateTime) : List Char :=
  let day := dayOf instant
  let time := timeOf instant
  decimal 4 (civilYear day) ++
    '-' :: decimal 2 (civilMonth day) ++
    '-' :: decimal 2 (Civil.dayOfMonth day) ++
    'T' :: decimal 2 (hour time) ++
    ':' :: decimal 2 (minute time) ++
    ':' :: decimal 2 (second time) ++
    (secondsFraction (nanosecond time) ++ utcOffset)

/-
  What the library documents of the two functions: how the
  text is made, and that it is read as the instant again.
-/
structure ChronoText
    (print : DateTime → String)
    (parse : String → Option DateTime) : Prop where
  print_eq :
    ∀ instant, FourDigitYear instant →
      print instant = String.ofList (rfc3339Chars instant)
  parse_print :
    ∀ instant, FourDigitYear instant →
      parse (print instant) = some instant

end Model

end IcpHandler

------------------------------------------------------------
-- Digits
------------------------------------------------------------

namespace IcpHandler

namespace Model

open Data
open OrderedText

/- A number of units, in a unit that many digits lower. -/
theorem decimal_mul_pow
    (width zeros : Nat)
    {value : Int}
    (hNonneg : 0 ≤ value) :
    decimal (width + zeros) (value * 10 ^ zeros) =
      decimal width value ++ List.replicate zeros '0' := by
  have hNat :
      (value * 10 ^ zeros).toNat =
        value.toNat * 10 ^ zeros := by
    have hCast :
        value * 10 ^ zeros =
          ((value.toNat * 10 ^ zeros : Nat) : Int) := by
      rw [Nat.cast_mul, Int.toNat_of_nonneg hNonneg,
        Nat.cast_pow]
      rfl
    rw [hCast, Int.toNat_natCast]
  unfold decimal
  rw [hNat, numeral_mul_pow (by decide)]
  rfl

/- A fraction is its nine digits without their last zeros. -/
theorem secondsFraction_trimmed
    {nanos : Int}
    (hPos : 0 < nanos) :
    ∃ (width zeros : Nat) (value : Int),
      secondsFraction nanos = '.' :: decimal width value ∧
        decimal width value ++ List.replicate zeros '0' =
          decimal 9 nanos ∧
        width + zeros = 9 := by
  unfold secondsFraction
  rw [if_neg (by omega)]
  by_cases hMillis : nanos % 1000000 = 0
  · refine ⟨3, 6, nanos / 1000000, if_pos hMillis, ?_, rfl⟩
    have hNanos : nanos / 1000000 * 10 ^ 6 = nanos := by
      omega
    rw [← decimal_mul_pow 3 6 (by omega), hNanos]
  · rw [if_neg hMillis]
    by_cases hMicros : nanos % 1000 = 0
    · refine ⟨6, 3, nanos / 1000, if_pos hMicros, ?_, rfl⟩
      have hNanos : nanos / 1000 * 10 ^ 3 = nanos := by
        omega
      rw [← decimal_mul_pow 6 3 (by omega), hNanos]
    · exact ⟨9, 0, nanos, if_neg hMicros, List.append_nil _,
        rfl⟩

/- The number that digits spell. -/
def decimalValue (digits : List Char) : Int :=
  digits.foldl (fun n c => n * 10 + (c.toNat - 48 : Int)) 0

private theorem decimalValue_numeral
    (width n : Nat)
    (hFits : n < 10 ^ width) :
    decimalValue (numeral Nat.digitChar 10 width n) = n := by
  induction width generalizing n with
  | zero =>
      rw [Nat.pow_zero] at hFits
      have hZero : n = 0 := by omega
      rw [hZero]
      rfl
  | succ width ih =>
      have hHigh : n / 10 < 10 ^ width := by
        rw [Nat.pow_succ] at hFits
        omega
      have hHighValue := ih (n / 10) hHigh
      unfold decimalValue at hHighValue ⊢
      rw [numeral, List.foldl_append, hHighValue,
        List.foldl_cons, List.foldl_nil,
        Nat.toNat_digitChar_of_lt_ten (Nat.mod_lt n (by decide))]
      omega

theorem decimalValue_decimal
    {width : Nat}
    {value : Int}
    (hNonneg : 0 ≤ value)
    (hFits : value < 10 ^ width) :
    decimalValue (decimal width value) = value := by
  have hNat : value.toNat < 10 ^ width := by
    rw [Int.toNat_lt hNonneg, Nat.cast_pow]
    exact hFits
  unfold decimal
  rw [decimalValue_numeral width _ hNat]
  exact Int.toNat_of_nonneg hNonneg

end Model

end IcpHandler

------------------------------------------------------------
-- Reading the Text
------------------------------------------------------------

namespace IcpHandler

namespace Model

open Data
open OrderedText

/- A field and what follows the separator after it. -/
def readField
    (width : Nat)
    (text : List Char) : Int × List Char :=
  (decimalValue (text.take width), text.drop (width + 1))

/- The fraction after the seconds, in nanoseconds. -/
def readFraction : List Char → Int
  | '.' :: rest =>
      let digits := rest.takeWhile Char.isDigit
      decimalValue
        (digits ++ List.replicate (9 - digits.length) '0')
  | _ => 0

/- The day of a date. -/
def dayOfDate (year month day : Int) : Int :=
  Civil.firstDay (year * 12 + month - 3) + (day - 1)

/- The instant of a text that has been printed. -/
def readRfc3339 (text : String) : Option DateTime :=
  let (year, rest) := readField 4 text.toList
  let (month, rest) := readField 2 rest
  let (day, rest) := readField 2 rest
  let (hour, rest) := readField 2 rest
  let (minute, rest) := readField 2 rest
  let second := decimalValue (rest.take 2)
  let nanos := readFraction (rest.drop 2)
  some (instantOf (dayOfDate year month day)
    (((hour * 60 + minute) * 60 + second) * 1000000000 +
      nanos))

theorem readField_decimal
    {width : Nat}
    {value : Int}
    (hNonneg : 0 ≤ value)
    (hFits : value < 10 ^ width)
    (separator : Char)
    (rest : List Char) :
    readField width
        (decimal width value ++ separator :: rest) =
      (value, rest) := by
  have hLength : (decimal width value).length = width :=
    length_numeral width _
  have hTake :
      (decimal width value ++ separator :: rest).take width =
        decimal width value :=
    List.take_left' hLength
  have hDrop :
      (decimal width value ++ separator :: rest).drop
          (width + 1) = rest := by
    rw [← List.drop_drop, List.drop_left' hLength]
    rfl
  unfold readField
  rw [hTake, hDrop, decimalValue_decimal hNonneg hFits]

theorem readFraction_secondsFraction
    {nanos : Int}
    (hNonneg : 0 ≤ nanos)
    (hBound : nanos < 1000000000) :
    readFraction (secondsFraction nanos ++ utcOffset) =
      nanos := by
  rcases Int.lt_or_eq_of_le hNonneg with hPos | hZero
  · obtain ⟨width, zeros, value, hText, hDigits, hWidth⟩ :=
      secondsFraction_trimmed hPos
    have hLength : (decimal width value).length = width :=
      length_numeral width _
    have hRun :
        (decimal width value ++ utcOffset).takeWhile
            Char.isDigit =
          decimal width value := by
      have hAll :
          ∀ d : Fin 10, (Nat.digitChar d.val).isDigit = true := by
        decide
      rw [List.takeWhile_append_of_pos]
      · exact List.append_nil _
      · intro c hMem
        obtain ⟨d, hDigit, hSymbol⟩ :=
          exists_digit_of_mem_numeral (by decide) hMem
        rw [← hSymbol]
        exact hAll ⟨d, hDigit⟩
    have hZeros : 9 - width = zeros := by omega
    rw [hText, List.cons_append, readFraction, hRun, hLength,
      hZeros, hDigits]
    exact decimalValue_decimal hNonneg hBound
  · subst hZero
    rfl

theorem dayOfDate_civil (day : Int) :
    dayOfDate (civilYear day) (civilMonth day)
        (Civil.dayOfMonth day) = day := by
  have hMonth :
      civilYear day * 12 + civilMonth day - 3 =
        Civil.monthOf day := by
    unfold civilYear civilMonth
    omega
  unfold dayOfDate
  rw [hMonth]
  exact Civil.firstDay_add_dayOfMonth day

theorem time_of_fields (time : Duration) :
    ((hour time * 60 + minute time) * 60 + second time) *
        1000000000 + nanosecond time =
      time := by
  unfold hour minute second nanosecond
  omega

/- What is printed is read as the instant again. -/
theorem readRfc3339_print
    {instant : DateTime}
    (hFour : FourDigitYear instant) :
    readRfc3339 (String.ofList (rfc3339Chars instant)) =
      some instant := by
  have hYear :
      civilYear (dayOf instant) < 10 ^ 4 := by
    have hLast := hFour.2
    omega
  have hMonth := civilMonth_bounds (dayOf instant)
  have hDay := dayOfMonth_lt (dayOf instant)
  have hHour := hour_bounds instant
  have hMinute := minute_bounds (timeOf instant)
  have hSecond := second_bounds (timeOf instant)
  have hNanos := nanosecond_bounds (timeOf instant)
  have hLength :
      (decimal 2 (second (timeOf instant))).length = 2 :=
    length_numeral 2 _
  unfold readRfc3339 rfc3339Chars
  simp only [String.toList_ofList, List.append_assoc,
    List.cons_append]
  simp only [readField_decimal hFour.1 hYear,
    readField_decimal hMonth.1 hMonth.2,
    readField_decimal hDay.1 hDay.2,
    readField_decimal hHour.1 hHour.2,
    readField_decimal hMinute.1 hMinute.2,
    List.take_left' hLength, List.drop_left' hLength,
    decimalValue_decimal hSecond.1 hSecond.2,
    readFraction_secondsFraction hNanos.1 hNanos.2,
    dayOfDate_civil, time_of_fields, instantOf_dayOf]

/- The printer and this reader do as documented. -/
theorem chronoText_readRfc3339 :
    ChronoText
      (fun instant => String.ofList (rfc3339Chars instant))
      readRfc3339 where
  print_eq _ _ := rfl
  parse_print _ hFour := readRfc3339_print hFour

end Model

end IcpHandler
