import Mathlib.Data.Char
import IcpHandler.Model.Bytes
import IcpHandler.Model.Idempotency
import IcpHandler.Model.Outbox
import IcpHandler.Model.Timestamps
import IcpHandler.Properties.StoreIndexes

/-
  Stored times sort as text. The text of an instant is a
  sequence of fields of a fixed width but for its fraction,
  and what follows the fraction begins with a plus sign, which
  sorts before a point and before all digits. So the database,
  which compares texts, decides as a comparison of instants
  does.

  Main declarations:
    * `sortsAt_secondsChars`
    * `sorts_fraction`
    * `rfc3339Chars_lt_iff`
    * `ChronoText.rfc3339`
    * `stored_timestamps_sort`
-/

------------------------------------------------------------
-- Fields of Fixed Width
------------------------------------------------------------

namespace IcpHandler

namespace Model

open Data
open OrderedText

private theorem inOrder_digitChar :
    InOrder Nat.digitChar 10 := by
  have hAll :
      ∀ d e : Fin 10,
        (Nat.digitChar d.val < Nat.digitChar e.val ↔
          d.val < e.val) := by
    decide
  exact fun d e hD hE => hAll ⟨d, hD⟩ ⟨e, hE⟩

/- A field that fits its width. -/
theorem sortsAt_decimal
    {S : DateTime → Prop}
    {width : Nat}
    {value : DateTime → Int}
    (hFits :
      ∀ instant, S instant →
        0 ≤ value instant ∧ value instant < 10 ^ width) :
    SortsAt width S value
      (fun instant => decimal width (value instant)) := by
  have hNat :
      ∀ instant, S instant →
        (value instant).toNat < 10 ^ width := by
    intro instant hS
    obtain ⟨hNonneg, hLess⟩ := hFits instant hS
    rw [Int.toNat_lt hNonneg, Nat.cast_pow]
    exact hLess
  have hNumeral :=
    (sortsAt_numeral (by decide) inOrder_digitChar width).comp
      (fun instant => (value instant).toNat) hNat
  refine ⟨hNumeral.length, ?_⟩
  intro instant instant' hS hS'
  have hNonneg := (hFits instant hS).1
  have hNonneg' := (hFits instant' hS').1
  refine (hNumeral.sorts instant instant' hS hS').trans ?_
  dsimp only [id]
  omega

/- A later day is in a later month, or later in the month. -/
theorem refines_monthOf
    {S : DateTime → Prop} :
    Refines S dayOf
      (fun instant => Civil.monthOf (dayOf instant))
      (fun instant => Civil.dayOfMonth (dayOf instant)) := by
  intro instant instant' _ _
  dsimp only
  generalize dayOf instant = day
  generalize dayOf instant' = day'
  have hDay := Civil.firstDay_add_dayOfMonth day
  have hDay' := Civil.firstDay_add_dayOfMonth day'
  have hBounds := Civil.monthOf_spec day
  have hBounds' := Civil.monthOf_spec day'
  constructor
  · intro hLess
    have hLe : Civil.monthOf day < Civil.monthOf day' + 1 := by
      apply Civil.firstDay_strictMono.lt_iff_lt.mp
      omega
    rcases Int.lt_or_eq_of_le (Int.le_of_lt_add_one hLe) with
      hMonth | hMonth
    · exact .inl hMonth
    · refine .inr ⟨hMonth, ?_⟩
      rw [hMonth] at hDay
      omega
  · rintro (hMonth | ⟨hMonth, hLess⟩)
    · have hNext :
          Civil.firstDay (Civil.monthOf day + 1) ≤
            Civil.firstDay (Civil.monthOf day') :=
        Civil.firstDay_strictMono.monotone (by omega)
      omega
    · rw [hMonth] at hDay
      omega

end Model

end IcpHandler

------------------------------------------------------------
-- Seconds
------------------------------------------------------------

namespace IcpHandler

namespace Model

open Data
open OrderedText

/- The text without its fraction and its offset. -/
def secondsChars (instant : DateTime) : List Char :=
  let day := dayOf instant
  let time := timeOf instant
  decimal 4 (civilYear day) ++
    '-' :: decimal 2 (civilMonth day) ++
    '-' :: decimal 2 (Civil.dayOfMonth day) ++
    'T' :: decimal 2 (hour time) ++
    ':' :: decimal 2 (minute time) ++
    ':' :: decimal 2 (second time)

private theorem days_one :
    Duration.days 1 = 86400000000000 := rfl

/- The date of an instant, in ten characters. -/
private theorem sortsAt_date :
    SortsAt 10 FourDigitYear dayOf fun instant =>
      decimal 4 (civilYear (dayOf instant)) ++
        '-' :: decimal 2 (civilMonth (dayOf instant)) ++
        '-' :: decimal 2 (Civil.dayOfMonth (dayOf instant)) := by
  have hYear :
      SortsAt 4 FourDigitYear
        (fun instant => civilYear (dayOf instant))
        (fun instant =>
          decimal 4 (civilYear (dayOf instant))) := by
    apply sortsAt_decimal
    intro instant hFour
    unfold FourDigitYear at hFour
    omega
  have hMonth :
      SortsAt 2 FourDigitYear
        (fun instant => civilMonth (dayOf instant))
        (fun instant =>
          decimal 2 (civilMonth (dayOf instant))) :=
    sortsAt_decimal fun instant _ =>
      civilMonth_bounds (dayOf instant)
  have hDay :
      SortsAt 2 FourDigitYear
        (fun instant => Civil.dayOfMonth (dayOf instant))
        (fun instant =>
          decimal 2 (Civil.dayOfMonth (dayOf instant))) :=
    sortsAt_decimal fun instant _ =>
      dayOfMonth_lt (dayOf instant)
  have hMonths :
      Refines FourDigitYear
        (fun instant => Civil.monthOf (dayOf instant))
        (fun instant => civilYear (dayOf instant))
        (fun instant => civilMonth (dayOf instant)) := by
    intro instant instant' _ _
    dsimp only [civilYear, civilMonth]
    omega
  exact (hYear.append (hMonth.cons '-') hMonths).append
    (hDay.cons '-') refines_monthOf

/- How many whole units have passed at an instant. -/
def wholeUnits (unit : Int) (instant : DateTime) : Int :=
  instant / unit

/- Whole seconds are sorted by the date and the time of day. -/
theorem sortsAt_secondsChars :
    SortsAt 19 FourDigitYear (wholeUnits 1000000000)
      secondsChars := by
  have hHour :
      SortsAt 2 FourDigitYear
        (fun instant => hour (timeOf instant))
        (fun instant => decimal 2 (hour (timeOf instant))) :=
    sortsAt_decimal fun instant _ => hour_bounds instant
  have hMinute :
      SortsAt 2 FourDigitYear
        (fun instant => minute (timeOf instant))
        (fun instant =>
          decimal 2 (minute (timeOf instant))) :=
    sortsAt_decimal fun instant _ =>
      minute_bounds (timeOf instant)
  have hSecond :
      SortsAt 2 FourDigitYear
        (fun instant => second (timeOf instant))
        (fun instant =>
          decimal 2 (second (timeOf instant))) :=
    sortsAt_decimal fun instant _ =>
      second_bounds (timeOf instant)
  have hHours :
      Refines FourDigitYear (wholeUnits 3600000000000) dayOf
        (fun instant => hour (timeOf instant)) := by
    intro instant instant' _ _
    dsimp only [wholeUnits, dayOf, hour, timeOf]
    rw [days_one]
    omega
  have hMinutes :
      Refines FourDigitYear (wholeUnits 60000000000)
        (wholeUnits 3600000000000)
        (fun instant => minute (timeOf instant)) := by
    intro instant instant' _ _
    dsimp only [wholeUnits, minute, timeOf]
    rw [days_one]
    omega
  have hSeconds :
      Refines FourDigitYear (wholeUnits 1000000000)
        (wholeUnits 60000000000)
        (fun instant => second (timeOf instant)) := by
    intro instant instant' _ _
    dsimp only [wholeUnits, second, timeOf]
    rw [days_one]
    omega
  exact ((sortsAt_date.append (hHour.cons 'T') hHours).append
    (hMinute.cons ':') hMinutes).append
      (hSecond.cons ':') hSeconds

end Model

end IcpHandler

------------------------------------------------------------
-- Fractions
------------------------------------------------------------

namespace IcpHandler

namespace Model

open Data
open OrderedText

private theorem zero_le_of_mem_decimal
    {width : Nat}
    {value : Int}
    {c : Char}
    (hMem : c ∈ decimal width value) :
    '0' ≤ c :=
  le_of_mem_numeral (by decide) inOrder_digitChar hMem

/-
  A later fraction has the greater text. Without a fraction
  the plus sign comes first, before any point; where one
  fraction is cut short, it comes before a digit of the other.
-/
theorem secondsFraction_lt
    {nanos nanos' : Int}
    (hNonneg : 0 ≤ nanos)
    (hLess : nanos < nanos')
    (hBound : nanos' < 1000000000) :
    secondsFraction nanos ++ utcOffset <
      secondsFraction nanos' ++ utcOffset := by
  obtain ⟨width', zeros', value', hText', hDigits', hWidth'⟩ :=
    secondsFraction_trimmed (show 0 < nanos' by omega)
  rw [hText', List.cons_append]
  by_cases hZero : nanos = 0
  · subst hZero
    exact List.Lex.rel (by decide)
  · obtain ⟨width, zeros, value, hText, hDigits, hWidth⟩ :=
      secondsFraction_trimmed (show 0 < nanos by omega)
    have hNine : decimal 9 nanos < decimal 9 nanos' := by
      have hNonneg' : 0 ≤ nanos' := by omega
      have hBound' : nanos < 1000000000 := by omega
      have hSorts :
          SortsAt 9 (fun n : Int => 0 ≤ n ∧ n < 1000000000)
            (fun n => n) (decimal 9) :=
        sortsAt_decimal fun n hN => hN
      exact (hSorts.sorts nanos nanos' ⟨hNonneg, hBound'⟩
        ⟨hNonneg', hBound⟩).mpr hLess
    rw [← hDigits, ← hDigits'] at hNine
    rw [hText, List.cons_append, List.cons_lt_cons_iff]
    refine .inr ⟨rfl, ?_⟩
    apply trimmed_lt_trimmed (by decide)
      (fun c hMem => zero_le_of_mem_decimal hMem)
      (fun c hMem => zero_le_of_mem_decimal hMem) _ hNine
    rw [decimal, length_numeral, decimal, length_numeral,
      hWidth, hWidth']

theorem sorts_fraction :
    Sorts FourDigitYear
      (fun instant => nanosecond (timeOf instant))
      (fun instant =>
        secondsFraction (nanosecond (timeOf instant)) ++
          utcOffset) := by
  apply sorts_of_lt
  · intro instant instant' hSame
    rw [hSame]
  · intro instant instant' _ _ hLess
    exact secondsFraction_lt
      (nanosecond_bounds (timeOf instant)).1 hLess
      (nanosecond_bounds (timeOf instant')).2

/- The texts of instants compare as the instants. -/
theorem rfc3339Chars_lt_iff
    {instant instant' : DateTime}
    (hFour : FourDigitYear instant)
    (hFour' : FourDigitYear instant') :
    rfc3339Chars instant < rfc3339Chars instant' ↔
      instant < instant' := by
  have hNanos :
      Refines FourDigitYear (wholeUnits 1)
        (wholeUnits 1000000000)
        (fun instant => nanosecond (timeOf instant)) := by
    intro instant instant' _ _
    dsimp only [wholeUnits, nanosecond, timeOf]
    rw [days_one]
    omega
  have hSorts :=
    sortsAt_secondsChars.append_sorts sorts_fraction hNanos
      instant instant' hFour hFour'
  dsimp only [wholeUnits] at hSorts
  rw [Int.ediv_one, Int.ediv_one] at hSorts
  exact hSorts

end Model

end IcpHandler

------------------------------------------------------------
-- Bytes
------------------------------------------------------------

namespace IcpHandler

namespace Model

open Data
open OrderedText

/- The characters with one byte in UTF-8. -/
def IsAscii (c : Char) : Prop := c.val ≤ 127

private theorem isAscii_of_mem_decimal
    {width : Nat}
    {value : Int}
    {c : Char}
    (hMem : c ∈ decimal width value) :
    IsAscii c := by
  have hAll : ∀ d : Fin 10, (Nat.digitChar d.val).val ≤ 127 := by
    decide
  obtain ⟨d, hDigit, hSymbol⟩ :=
    exists_digit_of_mem_numeral (by decide) hMem
  rw [← hSymbol]
  exact hAll ⟨d, hDigit⟩

private theorem isAscii_of_mem_fraction
    {nanos : Int}
    {c : Char}
    (hMem : c ∈ secondsFraction nanos) :
    IsAscii c := by
  have hPoint : IsAscii '.' := by
    unfold IsAscii
    decide
  unfold secondsFraction at hMem
  split at hMem
  · cases hMem
  split at hMem
  · rcases List.mem_cons.mp hMem with rfl | hDigit
    · exact hPoint
    · exact isAscii_of_mem_decimal hDigit
  split at hMem
  · rcases List.mem_cons.mp hMem with rfl | hDigit
    · exact hPoint
    · exact isAscii_of_mem_decimal hDigit
  · rcases List.mem_cons.mp hMem with rfl | hDigit
    · exact hPoint
    · exact isAscii_of_mem_decimal hDigit

theorem isAscii_rfc3339Chars (instant : DateTime) :
    ∀ c ∈ rfc3339Chars instant, IsAscii c := by
  obtain ⟨hDash, hT, hColon, hPlus, hZero⟩ :
      IsAscii '-' ∧ IsAscii 'T' ∧ IsAscii ':' ∧
        IsAscii '+' ∧ IsAscii '0' := by
    unfold IsAscii
    decide
  have hDecimal :
      ∀ (width : Nat) (value : Int),
        ∀ c ∈ decimal width value, IsAscii c :=
    fun _ _ _ hMem => isAscii_of_mem_decimal hMem
  have hFraction :
      ∀ nanos : Int, ∀ c ∈ secondsFraction nanos, IsAscii c :=
    fun _ _ hMem => isAscii_of_mem_fraction hMem
  unfold rfc3339Chars utcOffset
  simp only [List.forall_mem_append, List.forall_mem_cons,
    hDash, hT, hColon, hPlus, hZero, true_and]
  exact ⟨⟨⟨⟨⟨⟨hDecimal 4 _, hDecimal 2 _⟩, hDecimal 2 _⟩,
    hDecimal 2 _⟩, hDecimal 2 _⟩, hDecimal 2 _⟩, hFraction _,
    List.forall_mem_nil IsAscii⟩

/- Of such characters each byte is the code. -/
theorem utf8Bytes_ofList
    {text : List Char}
    (hAscii : ∀ c ∈ text, IsAscii c) :
    utf8Bytes (String.ofList text) =
      text.map fun c => c.val.toUInt8 := by
  unfold utf8Bytes
  rw [String.toList_ofList]
  induction text with
  | nil => rfl
  | cons c text ih =>
      obtain ⟨hFirst, hRest⟩ := List.forall_mem_cons.mp hAscii
      rw [List.flatMap_cons, List.map_cons, ih hRest,
        String.utf8EncodeChar_eq_singleton
          (Char.utf8Size_eq_one_iff.mpr hFirst)]
      rfl

theorem utf8Bytes_lt_iff
    {first second : List Char}
    (hFirst : ∀ c ∈ first, IsAscii c)
    (hSecond : ∀ c ∈ second, IsAscii c) :
    utf8Bytes (String.ofList first) <
        utf8Bytes (String.ofList second) ↔
      first < second := by
  rw [utf8Bytes_ofList hFirst, utf8Bytes_ofList hSecond]
  apply coded_lt_coded_iff
  intro c hC d hD
  have hCode :
      ∀ e : Char, IsAscii e →
        e.val.toUInt8.toNat = e.val.toNat := by
    intro e hAscii
    unfold IsAscii at hAscii
    rw [UInt32.le_iff_toNat_le] at hAscii
    rw [UInt32.toNat_toUInt8]
    apply Nat.mod_eq_of_lt
    exact Nat.lt_of_le_of_lt hAscii (by decide)
  rw [UInt8.lt_iff_toNat_lt, ← UInt8.toNat_inj,
    hCode c (hFirst c hC), hCode d (hSecond d hD),
    Char.lt_def, UInt32.lt_iff_toNat_lt, Char.ext_iff,
    ← UInt32.toNat_inj]
  exact ⟨Iff.rfl, Iff.rfl⟩

end Model

end IcpHandler

------------------------------------------------------------
-- Comparisons of the Database
------------------------------------------------------------

namespace IcpHandler

namespace Model

open Data

section Comparisons

variable {print : DateTime → String}
variable {parse : String → Option DateTime}

/- The order of the characters is that of the bytes. -/
theorem ChronoText.bytes_lt_iff
    (hText : ChronoText print parse)
    {instant instant' : DateTime}
    (hFour : FourDigitYear instant)
    (hFour' : FourDigitYear instant') :
    utf8Bytes (print instant) < utf8Bytes (print instant') ↔
      instant < instant' := by
  rw [hText.print_eq instant hFour,
    hText.print_eq instant' hFour',
    utf8Bytes_lt_iff (isAscii_rfc3339Chars instant)
      (isAscii_rfc3339Chars instant')]
  exact rfc3339Chars_lt_iff hFour hFour'

/- What the documented texts make of the text form. -/
def ChronoText.rfc3339
    (hText : ChronoText print parse) : Rfc3339 where
  print := print
  parse := parse
  Valid := FourDigitYear
  parse_print := hText.parse_print
  print_lt_iff first second hFirst hSecond := by
    rw [hText.print_eq first hFirst,
      hText.print_eq second hSecond]
    change (String.ofList (rfc3339Chars first)).toList <
      (String.ofList (rfc3339Chars second)).toList ↔ _
    rw [String.toList_ofList, String.toList_ofList]
    exact rfc3339Chars_lt_iff hFirst hSecond

theorem ChronoText.neverBlank
    (hText : ChronoText print parse) :
    hText.rfc3339.NeverBlank := by
  intro instant hFour hBlank
  have hChars : rfc3339Chars instant = [] := by
    have hPrint := hText.print_eq instant hFour
    change print instant = "" at hBlank
    rw [hPrint] at hBlank
    exact String.ofList_injective hBlank
  have hLength :=
    sortsAt_secondsChars.length instant hFour
  change secondsChars instant ++ _ = [] at hChars
  rw [(List.append_eq_nil_iff.mp hChars).1] at hLength
  cases hLength

end Comparisons

end Model

end IcpHandler

------------------------------------------------------------
-- Stored Times
------------------------------------------------------------

namespace IcpHandler

namespace Model

open Data

section Stored

variable {rfc3339 : Rfc3339}
variable {now : DateTime}

/- The text that is stored for a time. -/
def IsText
    (rfc3339 : Rfc3339)
    (text : String)
    (time : DateTime) : Prop :=
  text = rfc3339.print time ∧ rfc3339.Valid time

/- The column holds the text of a time, or none. -/
def DocumentRow.HoldsTime
    (rfc3339 : Rfc3339)
    (name : String)
    (row : DocumentRow) : Option DateTime → Prop
  | none => row.columns name = some (.text "")
  | some time =>
      row.columns name = some (.text (rfc3339.print time)) ∧
        rfc3339.Valid time

/- The time of the row has come. -/
def hasCome
    (now : DateTime)
    (time : Option DateTime) : Bool :=
  time.any fun instant => decide (instant ≤ now)

theorem isReached_eq_hasCome
    (hBlank : rfc3339.NeverBlank)
    (hNow : rfc3339.Valid now)
    {name : String}
    {row : DocumentRow}
    {time : Option DateTime}
    (hTime : row.HoldsTime rfc3339 name time) :
    row.isReached name (rfc3339.print now) =
      hasCome now time := by
  cases time with
  | none => exact isReached_blank hTime
  | some instant =>
      exact isReached_print hBlank hNow hTime.2 hTime.1

theorem text_le_iff
    {text text' : String}
    {time time' : DateTime}
    (hText : IsText rfc3339 text time)
    (hText' : IsText rfc3339 text' time') :
    text ≤ text' ↔ time ≤ time' := by
  rw [hText.1, hText'.1]
  exact print_le_iff hText'.2 hText.2

theorem text_lt_iff
    {text text' : String}
    {time time' : DateTime}
    (hText : IsText rfc3339 text time)
    (hText' : IsText rfc3339 text' time') :
    text < text' ↔ time < time' := by
  rw [hText.1, hText'.1]
  exact rfc3339.print_lt_iff time time' hText.2 hText'.2

/- A condition on a column selects as one on the time does. -/
theorem select_eq
    {V : Type}
    {codec : Codec V}
    {plan : Plan}
    {table : DocumentTable}
    {condition condition' : DocumentRow → Bool}
    (hSame :
      ∀ row ∈ table.values, condition row = condition' row) :
    DocumentStore.select codec plan condition table =
      DocumentStore.select codec plan condition' table := by
  unfold DocumentStore.select
  rw [List.filter_congr hSame]

/- The rows of the due list, by the times of the attempts. -/
def listDueByTime
    (rfc3339 : Rfc3339)
    (clock : DateTime)
    (rows : KeyedStore DeliveryRow)
    (time : DeliveryRow → DateTime)
    (now : DateTime)
    (limit : Nat) : List WebhookDelivery :=
  let due :=
    rows.values.filter fun row =>
      (row.status == "pending" || row.status == "failed") &&
        decide (time row ≤ now)
  ((due.insertionSort fun row row' =>
      time row ≤ time row').take limit).map
    (DeliveryRow.toDelivery rfc3339 clock)

theorem listDue_eq_byTime
    {clock : DateTime}
    {rows : KeyedStore DeliveryRow}
    {time : DeliveryRow → DateTime}
    (hNow : rfc3339.Valid now)
    (hTime :
      ∀ row ∈ rows.values,
        IsText rfc3339 row.nextAttemptAt (time row))
    (limit : Nat) :
    WebhookOutbox.listDue rfc3339 clock (.sqlite rows) now
        limit =
      listDueByTime rfc3339 clock rows time now limit := by
  have hDue :
      rows.values.filter
          (Record.isDue (rfc3339.print now)) =
        rows.values.filter fun row =>
          (row.status == "pending" ||
              row.status == "failed") &&
            decide (time row ≤ now) := by
    apply List.filter_congr
    intro row hRow
    have hLe :
        row.nextAttemptAt ≤ rfc3339.print now ↔
          time row ≤ now :=
      text_le_iff (hTime row hRow) ⟨rfl, hNow⟩
    change (_ && decide _) = (_ && decide _)
    rw [decide_eq_decide.mpr hLe]
  have hSorted :
      ∀ due : List DeliveryRow, due ⊆ rows.values →
        (due.insertionSort fun row row' =>
            row.nextAttemptAt ≤ row'.nextAttemptAt) =
          due.insertionSort fun row row' =>
            time row ≤ time row' := by
    intro due hSubset
    have hMap :=
      List.map_insertionSort
        (fun row row' : DeliveryRow =>
          row.nextAttemptAt ≤ row'.nextAttemptAt)
        (fun row row' : DeliveryRow => time row ≤ time row')
        id due fun row hRow row' hRow' =>
          text_le_iff (hTime row (hSubset hRow))
            (hTime row' (hSubset hRow'))
    rw [List.map_id, List.map_id] at hMap
    exact hMap
  unfold WebhookOutbox.listDue listDueByTime
  dsimp only
  rw [hDue, hSorted _ (List.filter_subset_self _)]

/- The idempotency sweep, by the times of the rows. -/
def pruneByTime
    (fault : Bool)
    (now : DateTime)
    (ttl : Duration)
    (rows : AList fun _ : IdempotencyKey => IdempotencyRow)
    (time : IdempotencyRow → DateTime) :
    Nat × IdempotencyStore :=
  if fault then (0, ⟨.sqlite rows, ttl⟩)
  else
    let kept :=
      Data.retain
        (fun row => !decide (time row < now - ttl)) rows
    (rows.entries.length - kept.entries.length,
      ⟨.sqlite kept, ttl⟩)

theorem prune_eq_byTime
    {ttl : Duration}
    {rows : AList fun _ : IdempotencyKey => IdempotencyRow}
    {time : IdempotencyRow → DateTime}
    (hCutoff : rfc3339.Valid (now - ttl))
    (hTime :
      ∀ entry ∈ rows.entries,
        IsText rfc3339 entry.2.createdAt (time entry.2))
    (fault : Bool) :
    IdempotencyStore.prune rfc3339 fault now
        ⟨.sqlite rows, ttl⟩ =
      pruneByTime fault now ttl rows time := by
  have hKept :
      Data.retain
          (fun row : IdempotencyRow =>
            !decide
              (row.createdAt < rfc3339.print (now - ttl)))
          rows =
        Data.retain
          (fun row => !decide (time row < now - ttl)) rows := by
    apply Data.retain_congr
    intro entry hEntry
    have hLess :
        entry.2.createdAt < rfc3339.print (now - ttl) ↔
          time entry.2 < now - ttl :=
      text_lt_iff (hTime entry hEntry) ⟨rfl, hCutoff⟩
    rw [decide_eq_decide.mpr hLess]
  unfold IdempotencyStore.prune pruneByTime
  dsimp only
  rw [hKept]

/- Deliveries are dropped by the times of their rows. -/
def droppedByTime
    (time : DeliveryRow → DateTime)
    (status : DeliveryStatus)
    (cutoff : Option DateTime)
    (row : DeliveryRow) : Bool :=
  row.status == status.wireName &&
    cutoff.any fun limit => decide (time row < limit)

/- The sweep of the outbox, by the times of the rows. -/
def pruneOutboxByTime
    (rows : KeyedStore DeliveryRow)
    (time : DeliveryRow → DateTime)
    (deliveredCutoff deadLetteredCutoff : Option DateTime) :
    PruneReport × WebhookOutbox :=
  let delivered := droppedByTime time .delivered deliveredCutoff
  let dead := droppedByTime time .deadLettered deadLetteredCutoff
  (⟨(rows.values.filter delivered).length,
      (rows.values.filter dead).length⟩,
    .sqlite
      ((rows.retain fun row => !delivered row).retain
        fun row => !dead row))

theorem pruneOutbox_eq_byTime
    {rows : KeyedStore DeliveryRow}
    {time : DeliveryRow → DateTime}
    {deliveredCutoff deadLetteredCutoff : Option DateTime}
    (hTime :
      ∀ row ∈ rows.values,
        IsText rfc3339 row.createdAt (time row))
    (hDelivered :
      ∀ limit ∈ deliveredCutoff, rfc3339.Valid limit)
    (hDead :
      ∀ limit ∈ deadLetteredCutoff, rfc3339.Valid limit) :
    WebhookOutbox.prune rfc3339 (.sqlite rows)
        deliveredCutoff deadLetteredCutoff =
      pruneOutboxByTime rows time deliveredCutoff
        deadLetteredCutoff := by
  have hDropped :
      ∀ (status : DeliveryStatus) (cutoff : Option DateTime),
        (∀ limit ∈ cutoff, rfc3339.Valid limit) →
          ∀ row ∈ rows.values,
            WebhookOutbox.droppedRow rfc3339 status cutoff
                row =
              droppedByTime time status cutoff row := by
    intro status cutoff hCutoff row hRow
    unfold WebhookOutbox.droppedRow droppedByTime
    cases cutoff with
    | none => rfl
    | some limit =>
        have hLess :
            row.createdAt < rfc3339.print limit ↔
              time row < limit :=
          text_lt_iff (hTime row hRow)
            ⟨rfl, hCutoff limit rfl⟩
        rw [Option.any_some, Option.any_some,
          decide_eq_decide.mpr hLess]
  have hFirst := hDropped .delivered _ hDelivered
  have hSecond := hDropped .deadLettered _ hDead
  have hKept :
      (rows.retain fun row =>
          !WebhookOutbox.droppedRow rfc3339 .delivered
            deliveredCutoff row) =
        rows.retain fun row =>
          !droppedByTime time .delivered deliveredCutoff
            row := by
    apply KeyedStore.retain_congr
    intro row hRow
    rw [hFirst row hRow]
  have hKeptTwice :
      ((rows.retain fun row =>
          !droppedByTime time .delivered deliveredCutoff
            row).retain fun row =>
          !WebhookOutbox.droppedRow rfc3339 .deadLettered
            deadLetteredCutoff row) =
        (rows.retain fun row =>
          !droppedByTime time .delivered deliveredCutoff
            row).retain fun row =>
          !droppedByTime time .deadLettered
            deadLetteredCutoff row := by
    apply KeyedStore.retain_congr
    intro row hRow
    have hStored : row ∈ rows.values := by
      rw [KeyedStore.mem_values_iff, KeyedStore.get_retain,
        Option.filter_eq_some_iff] at hRow
      exact KeyedStore.mem_values_iff.mpr hRow.1
    rw [hSecond row hStored]
  unfold WebhookOutbox.prune pruneOutboxByTime
  dsimp only
  rw [List.filter_congr hFirst, List.filter_congr hSecond,
    hKept, hKeptTwice]

end Stored

end Model

end IcpHandler

------------------------------------------------------------
-- All Comparisons
------------------------------------------------------------

namespace IcpHandler

namespace Model

open Data
open DocumentStore

/-
  Every query that compares a stored time with a limit answers
  as one that compares the times. The rows of documents may
  hold no time. A limit and the times of the rows are such
  that the text form covers them.
-/
structure ComparesTimes (rfc3339 : Rfc3339) : Prop where
  /- `list_due_for_expiry_indexed` of transactions -/
  transactions :
    ∀ (codec : Codec Transaction)
      (plan : Plan)
      (table : DocumentTable)
      (time : DocumentRow → Option DateTime)
      (now : DateTime),
      rfc3339.Valid now →
      (∀ row ∈ table.values,
        row.HoldsTime rfc3339 "quote_expires_at" (time row)) →
      select codec plan (transactionExpired rfc3339 now)
          table =
        select codec plan
          (fun row =>
            row.isOneOf "state" ["draft", "quoted"] &&
              hasCome now (time row)) table
  /- `list_due_for_renewal_indexed` -/
  subscriptions :
    ∀ (codec : Codec Subscription)
      (plan : Plan)
      (table : DocumentTable)
      (time : DocumentRow → Option DateTime)
      (now : DateTime),
      rfc3339.Valid now →
      (∀ row ∈ table.values,
        row.HoldsTime rfc3339 "next_charge_at" (time row)) →
      select codec plan (renewalReached rfc3339 now) table =
        select codec plan
          (fun row =>
            row.isOneOf "status" ["active", "trialing"] &&
              row.columns "payment_present" ==
                some (.integer 1) &&
              hasCome now (time row)) table
  /- `list_due_for_expiry_indexed` of peer quotes -/
  quotes :
    ∀ (codec : Codec PeerQuote)
      (plan : Plan)
      (table : DocumentTable)
      (time : DocumentRow → Option DateTime)
      (now : DateTime),
      rfc3339.Valid now →
      (∀ row ∈ table.values,
        row.HoldsTime rfc3339 "expires_at" (time row)) →
      select codec plan (quoteExpired rfc3339 now) table =
        select codec plan
          (fun row =>
            row.isOneOf "status" ["pending", "quoted"] &&
              hasCome now (time row)) table
  /- `prune` of the idempotency store -/
  idempotency :
    ∀ (rows : AList fun _ : IdempotencyKey => IdempotencyRow)
      (time : IdempotencyRow → DateTime)
      (ttl : Duration)
      (now : DateTime)
      (fault : Bool),
      rfc3339.Valid (now - ttl) →
      (∀ entry ∈ rows.entries,
        IsText rfc3339 entry.2.createdAt (time entry.2)) →
      IdempotencyStore.prune rfc3339 fault now
          ⟨.sqlite rows, ttl⟩ =
        pruneByTime fault now ttl rows time
  /- `list_due` of the outbox, with its order -/
  deliveries :
    ∀ (rows : KeyedStore DeliveryRow)
      (time : DeliveryRow → DateTime)
      (clock now : DateTime)
      (limit : Nat),
      rfc3339.Valid now →
      (∀ row ∈ rows.values,
        IsText rfc3339 row.nextAttemptAt (time row)) →
      WebhookOutbox.listDue rfc3339 clock (.sqlite rows) now
          limit =
        listDueByTime rfc3339 clock rows time now limit
  /- `prune` of the outbox -/
  outbox :
    ∀ (rows : KeyedStore DeliveryRow)
      (time : DeliveryRow → DateTime)
      (deliveredCutoff deadLetteredCutoff : Option DateTime),
      (∀ limit ∈ deliveredCutoff, rfc3339.Valid limit) →
      (∀ limit ∈ deadLetteredCutoff, rfc3339.Valid limit) →
      (∀ row ∈ rows.values,
        IsText rfc3339 row.createdAt (time row)) →
      WebhookOutbox.prune rfc3339 (.sqlite rows)
          deliveredCutoff deadLetteredCutoff =
        pruneOutboxByTime rows time deliveredCutoff
          deadLetteredCutoff

/- A text form in order, without blank texts, is enough. -/
theorem comparesTimes_of_neverBlank
    {rfc3339 : Rfc3339}
    (hBlank : rfc3339.NeverBlank) :
    ComparesTimes rfc3339 where
  transactions codec plan table time now hNow hTime := by
    apply select_eq
    intro row hRow
    unfold transactionExpired
    rw [isReached_eq_hasCome hBlank hNow (hTime row hRow)]
  subscriptions codec plan table time now hNow hTime := by
    apply select_eq
    intro row hRow
    unfold renewalReached
    rw [isReached_eq_hasCome hBlank hNow (hTime row hRow)]
  quotes codec plan table time now hNow hTime := by
    apply select_eq
    intro row hRow
    unfold quoteExpired
    rw [isReached_eq_hasCome hBlank hNow (hTime row hRow)]
  idempotency rows time ttl now fault hCutoff hTime :=
    prune_eq_byTime hCutoff hTime fault
  deliveries rows time clock now limit hNow hTime :=
    listDue_eq_byTime hNow hTime limit
  outbox rows time _ _ hDelivered hDead hTime :=
    pruneOutbox_eq_byTime hTime hDelivered hDead

/-
  For any two instants of the years 0 to 9999 the bytes of the
  texts compare as the instants, and so every query decides as
  on instants of these years.
-/
theorem stored_timestamps_sort
    {print : DateTime → String}
    {parse : String → Option DateTime}
    (hText : ChronoText print parse) :
    (∀ first second : DateTime,
      FourDigitYear first → FourDigitYear second →
        (first < second ↔
          utf8Bytes (print first) <
            utf8Bytes (print second))) ∧
      ComparesTimes hText.rfc3339 := by
  constructor
  · intro first second hFirst hSecond
    exact (hText.bytes_lt_iff hFirst hSecond).symm
  · exact comparesTimes_of_neverBlank hText.neverBlank

/-
  Half a second after the epoch the text has a fraction, a
  second after it has none.
-/
theorem stored_timestamps_sort_sample :
    utf8Bytes
          (String.ofList (rfc3339Chars 500000000)) <
        utf8Bytes
          (String.ofList (rfc3339Chars 1000000000)) ∧
      ComparesTimes chronoText_readRfc3339.rfc3339 := by
  obtain ⟨hOrder, hQueries⟩ :=
    stored_timestamps_sort chronoText_readRfc3339
  exact ⟨(hOrder 500000000 1000000000 (by decide)
    (by decide)).mp (by decide), hQueries⟩

end Model

end IcpHandler
