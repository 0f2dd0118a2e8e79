import Mathlib.Data.List.AList
import IcpHandler.Data.Saturating
import IcpHandler.Model.Chrono
import IcpHandler.Model.Errors

/-
  The mandate usage ledger, over its two backends: a map in
  memory, and the table `mandate_usage` whose timestamps are
  text.

  Main declarations:
    * `MandateUsage`
    * `MandateSpendLimits`
    * `MandateLedger`
    * `MandateLedger.tryUsage`
    * `MandateLedger.tryUsageForTenant`
    * `MandateLedger.tryRecordSpendChecked`
-/

------------------------------------------------------------
-- Usage
------------------------------------------------------------

namespace IcpHandler

namespace Model

structure MandateUsage where
  spentMinor : Int64 := 0
  windowStart : Option DateTime := none
  tenantId : String := ""
  deriving DecidableEq, Inhabited

structure MandateSpendLimits where
  budgetMinor : Int64
  perTransaction : Option Int64
  window : Duration

namespace MandateUsage

/- Open a new window when there is none or it has passed. -/
def rollWindow
    (usage : MandateUsage)
    (now : DateTime)
    (window : Duration) : MandateUsage :=
  if usage.windowStart.all fun start => now - start > window
  then { usage with spentMinor := 0, windowStart := some now }
  else usage

/- The first tenant to spend owns the row. -/
def claimTenant
    (usage : MandateUsage)
    (tenantId : String) : MandateUsage :=
  if usage.tenantId.isEmpty then
    { usage with tenantId := tenantId }
  else usage

/- What is left of the budget. -/
def remaining
    (usage : MandateUsage)
    (budgetMinor : Int64) : Int64 :=
  Saturating.satSub budgetMinor usage.spentMinor

/- Add one spend to the sum. -/
def addSpend
    (usage : MandateUsage)
    (amountMinor : Int64) : MandateUsage :=
  { usage with
    spentMinor := Saturating.satAdd usage.spentMinor amountMinor }

end MandateUsage

end Model

end IcpHandler

------------------------------------------------------------
-- The Ledger
------------------------------------------------------------

namespace IcpHandler

namespace Model

/- A row of the table `mandate_usage`. -/
structure UsageRow where
  spentMinor : Int64
  windowStart : Option String
  tenantId : Option String
  deriving DecidableEq

/- `MandateLedger`, by backend. -/
inductive MandateLedger where
  | memory (rows : AList fun _ : String => MandateUsage)
  | sqlite (rows : AList fun _ : String => UsageRow)

namespace UsageRow

/- A row as the ledger reads it. -/
def toUsage
    (rfc3339 : Rfc3339)
    (row : UsageRow) : MandateUsage :=
  { spentMinor := row.spentMinor
    windowStart := row.windowStart.bind rfc3339.parse
    tenantId := row.tenantId.getD "" }

/-
  The row the upsert writes over the present one. An owner
  that is already there is kept.
-/
def upsert
    (rfc3339 : Rfc3339)
    (present : Option UsageRow)
    (usage : MandateUsage) : UsageRow :=
  { spentMinor := usage.spentMinor
    windowStart := usage.windowStart.map rfc3339.print
    tenantId :=
      match present.bind UsageRow.tenantId with
      | none => some usage.tenantId
      | some owner =>
          if owner.isEmpty then some usage.tenantId
          else some owner }

end UsageRow

namespace MandateLedger

/- The usage under a mandate id, empty when there is none. -/
def usage
    (rfc3339 : Rfc3339)
    (jti : String) : MandateLedger → MandateUsage
  | .memory rows => (rows.lookup jti).getD {}
  | .sqlite rows =>
      ((rows.lookup jti).map (UsageRow.toUsage rfc3339)).getD {}

/- The ledger cannot be reached. -/
def unavailable : ApiError :=
  .engineUnavailable "mandate ledger unavailable"

/- `try_usage` -/
def tryUsage
    (rfc3339 : Rfc3339)
    (fault : Bool)
    (jti : String)
    (ledger : MandateLedger) : Except ApiError MandateUsage :=
  if fault then .error unavailable
  else .ok (ledger.usage rfc3339 jti)

/-
  `try_usage_for_tenant`: nothing is shown of a row that was
  never spent under, nor of another tenant's.
-/
def tryUsageForTenant
    (rfc3339 : Rfc3339)
    (fault : Bool)
    (jti tenantId : String)
    (ledger : MandateLedger) :
    Except ApiError (Option MandateUsage) := do
  let usage ← ledger.tryUsage rfc3339 fault jti
  if usage.windowStart.isNone && usage.spentMinor == 0 &&
      usage.tenantId.isEmpty then
    return none
  if usage.tenantId == tenantId then return some usage
  else return none

/- The refusal of a spend that does not fit. -/
def exceedsRemaining
    (amountMinor remaining : Int64) : ApiError :=
  .mandateBudgetExceeded
    ("intent amount " ++ toString amountMinor ++
      " would exceed remaining budget " ++ toString remaining)

/- The refusal of a spend over the cap on one transaction. -/
def exceedsCap
    (amountMinor perTxn : Int64) : ApiError :=
  .mandateBudgetExceeded
    ("intent amount " ++ toString amountMinor ++
      " exceeds per-transaction cap " ++ toString perTxn)

/-
  `try_record_spend_checked`, atomic under the write lock or
  the immediate transaction. The map entry is changed in
  place, so a refusal for lack of budget leaves it rolled
  over and claimed; the table is written on acceptance only.
-/
def tryRecordSpendChecked
    (rfc3339 : Rfc3339)
    (fault : Bool)
    (jti tenantId : String)
    (amountMinor : Int64)
    (now : DateTime)
    (limits : MandateSpendLimits)
    (ledger : MandateLedger) :
    Except ApiError Unit × MandateLedger :=
  if amountMinor ≤ 0 then (.ok (), ledger)
  else if limits.budgetMinor < 0 then
    (.error (.mandateBudgetExceeded
      ("mandate budget " ++ toString limits.budgetMinor ++
        " is negative")), ledger)
  else
    match limits.perTransaction.filter (amountMinor > ·) with
    | some perTxn =>
        (.error (exceedsCap amountMinor perTxn), ledger)
    | none =>
        if fault then (.error unavailable, ledger)
        else
          let entry :=
            ((ledger.usage rfc3339 jti).rollWindow now
              limits.window).claimTenant tenantId
          let remaining := entry.remaining limits.budgetMinor
          match ledger with
          | .memory rows =>
              if amountMinor > remaining then
                (.error
                  (exceedsRemaining amountMinor remaining),
                  .memory (rows.insert jti entry))
              else
                (.ok (), .memory (rows.insert jti
                  (entry.addSpend amountMinor)))
          | .sqlite rows =>
              if amountMinor > remaining then
                (.error
                  (exceedsRemaining amountMinor remaining),
                  ledger)
              else
                (.ok (), .sqlite (rows.insert jti
                  (UsageRow.upsert rfc3339 (rows.lookup jti)
                    (entry.addSpend amountMinor))))

end MandateLedger

end Model

end IcpHandler
