import Mathlib.Data.Int.Order.Basic

/-
  Time as the handler uses it. An instant counts nanoseconds
  since the Unix epoch in UTC and a duration counts
  nanoseconds. What the date library computes from the civil
  calendar or prints as text is a parameter that carries its
  documented laws.

  Main declarations:
    * `DateTime`
    * `Duration`
    * `Calendar`
    * `Rfc3339`
-/

------------------------------------------------------------
-- Instants and Durations
------------------------------------------------------------

namespace IcpHandler

namespace Model

/- `DateTime<Utc>`, in nanoseconds since the epoch. -/
abbrev DateTime := Int

/- `chrono::Duration`, in nanoseconds. -/
abbrev Duration := Int

namespace Duration

/- `Duration::seconds` for counts far from the bounds. -/
def seconds (count : Int) : Duration :=
  count * 1000000000

/- `Duration::minutes` -/
def minutes (count : Int) : Duration :=
  seconds (count * 60)

/- `Duration::hours` -/
def hours (count : Int) : Duration :=
  seconds (count * 3600)

/- `Duration::days` -/
def days (count : Int) : Duration :=
  seconds (count * 86400)

theorem days_pos
    {count : Int}
    (hCount : 0 < count) :
    0 < days count :=
  Int.mul_pos (Int.mul_pos hCount (by decide)) (by decide)

/-
  The constructors panic where the count leaves the range of
  the type, which is `i64::MAX` milliseconds either way.
-/
def trySeconds (count : Int) : Option Duration :=
  if count.natAbs ≤ 9223372036854775 then
    some (seconds count)
  else none

/- `Duration::hours`, with its panic as `none`. -/
def tryHours (count : Int) : Option Duration :=
  trySeconds (count * 3600)

/- `Duration::days`, with its panic as `none`. -/
def tryDays (count : Int) : Option Duration :=
  trySeconds (count * 86400)

end Duration

end Model

end IcpHandler

------------------------------------------------------------
-- The Calendar and the Text Form
------------------------------------------------------------

namespace IcpHandler

namespace Model

/-
  The calendar functions of the date library. Adding months
  answers with a later instant, or with nothing where the
  result leaves the calendar.
-/
structure Calendar where
  fromTimestamp : Int → Option DateTime
  checkedAddMonths : DateTime → Nat → Option DateTime
  checkedAddSigned : DateTime → Duration → Option DateTime
  addMonths_lt :
    ∀ start months later, 0 < months →
      checkedAddMonths start months = some later →
      start < later
  addSigned_eq :
    ∀ start duration later,
      checkedAddSigned start duration = some later →
      later = start + duration

/-
  RFC 3339 text, as written by `to_rfc3339` and read by
  `parse_from_rfc3339`. On the instants with a four-digit year
  reading undoes writing, and texts compare as their instants.
-/
structure Rfc3339 where
  print : DateTime → String
  parse : String → Option DateTime
  Valid : DateTime → Prop
  parse_print :
    ∀ instant, Valid instant →
      parse (print instant) = some instant
  print_lt_iff :
    ∀ first second, Valid first → Valid second →
      (print first < print second ↔ first < second)

end Model

end IcpHandler
