import IcpHandler.Model.RequestItems
import IcpHandler.Properties.BudgetWindows
import IcpHandler.Properties.ExactPricing
import IcpHandler.Properties.LedgerBudget

/-
  The two limits on a subscription: the estimate that is put
  to the mandate before the intent, and the total that is
  reserved on the ledger. The estimate looks for the fields of
  objects, and takes a price that is written as an array for
  no price.

  Main declarations:
    * `overstated`, `shown_eq`
    * `estimate_eq`
    * `Outweighed`
    * `ReachedUsage.opened`
    * `GatesAgree`, `gates_agree_iff`
-/

------------------------------------------------------------
-- What the Estimate Sees
------------------------------------------------------------

namespace IcpHandler

namespace Service

open Model Saturating

/- The quantity and the price the estimate finds in an item. -/
def shownQuantity (item : Json) : Int64 :=
  ((item.get? "quantity").bind Json.asI64?).getD 0

def shownUnit (item : Json) : Int64 :=
  (((item.get? "unit_price_hint").bind
    (Json.get? "amount_minor")).bind Json.asI64?).getD 1000

/- The hint is written as an array. -/
def hintInArray (item : Json) : Bool :=
  match item.get? "unit_price_hint" with
  | some (.arr _) => true
  | _ => false

/-
  How much more the estimate counts for an item than it is
  priced at. An item that is itself an array is overlooked.
-/
def overstated (json : Json) (item : RequestItem) : Int :=
  match json with
  | .arr _ => -exactLine item
  | _ =>
      if hintInArray json then
        (1000 - (unitMinor item).toInt) * item.quantity.toInt
      else 0

/- An object's fields are read by their names. -/
private theorem read_obj
    {fields : List (String × Json)}
    {item : RequestItem}
    (hRead : RequestItem.read (.obj fields) = some item) :
    required "quantity" Json.asI64? (.obj fields) =
        some item.quantity ∧
      Model.optional "unit_price_hint" Money.read (.obj fields) =
        some item.unitPriceHint := by
  simp only [RequestItem.read, Option.bind_eq_bind,
    Option.bind_eq_some_iff] at hRead
  obtain ⟨sku, -, quantity, hQuantity, hint, hHint, hItem⟩ :=
    hRead
  cases hItem
  exact ⟨hQuantity, hHint⟩

private theorem money_read_obj
    {fields : List (String × Json)}
    {money : Money}
    (hRead : Money.read (.obj fields) = some money) :
    ((Json.obj fields).get? "amount_minor").bind Json.asI64? =
      some money.amountMinor := by
  simp only [Money.read, Option.bind_eq_bind,
    Option.bind_eq_some_iff] at hRead
  obtain ⟨amount, hAmount, display, -, currency, -, hMoney⟩ :=
    hRead
  cases hMoney
  exact hAmount

/- A hint in an object is found where it is. -/
private theorem shownUnit_obj
    {fields : List (String × Json)}
    {hint : Option Money}
    (hHint :
      Model.optional "unit_price_hint" Money.read (.obj fields) =
        some hint) :
    (shownUnit (.obj fields)).toInt =
      if hintInArray (.obj fields) then 1000
      else ((hint.map Money.amountMinor).getD 1000).toInt := by
  unfold shownUnit hintInArray
  unfold Model.optional at hHint
  cases hGet : (Json.obj fields).get? "unit_price_hint" with
  | none =>
      rw [hGet] at hHint
      cases hHint
      rfl
  | some value =>
      rw [hGet] at hHint
      dsimp only [Option.bind_some] at hHint ⊢
      cases value with
      | null =>
          cases hHint
          rfl
      | arr members => rfl
      | obj members =>
          obtain ⟨money, hRead, hSome⟩ :=
            Option.map_eq_some_iff.mp hHint
          cases hSome
          rw [money_read_obj hRead]
          rfl
      | bool value => cases hHint
      | int value => cases hHint
      | float value => cases hHint
      | str value => cases hHint

/- The estimate counts the price and what it overstates. -/
theorem shown_eq
    {json : Json}
    {item : RequestItem}
    (hRead : RequestItem.read json = some item) :
    (shownQuantity json).toInt * (shownUnit json).toInt =
      exactLine item + overstated json item := by
  cases json with
  | arr members =>
      have hNone : (shownQuantity (.arr members)).toInt = 0 := rfl
      rw [hNone, Int.zero_mul, overstated]
      omega
  | obj fields =>
      obtain ⟨hQuantity, hHint⟩ := read_obj hRead
      have hShown :
          shownQuantity (.obj fields) = item.quantity := by
        unfold shownQuantity
        unfold required at hQuantity
        rw [hQuantity]
        rfl
      rw [hShown, shownUnit_obj hHint, overstated, exactLine]
      · by_cases hArray : hintInArray (.obj fields) = true
        · rw [if_pos hArray, if_pos hArray, Int.sub_mul,
            Int.mul_comm item.quantity.toInt]
          omega
        · rw [if_neg hArray, if_neg hArray, Int.add_zero,
            Int.mul_comm]
          rfl
      · exact fun _ hArr => nomatch hArr
  | null => cases hRead
  | bool value => cases hRead
  | int value => cases hRead
  | float value => cases hRead
  | str value => cases hRead

end Service

end IcpHandler

------------------------------------------------------------
-- The Estimate of a Subscription
------------------------------------------------------------

namespace IcpHandler

namespace Service

open Model Saturating

/- How much more the estimate counts than the items' prices. -/
def overstatedBy
    (params : Json)
    (items : List RequestItem) : Int :=
  match params with
  | .arr _ => -exactSubtotal items
  | _ =>
      (List.zipWith overstated
        (((params.get? "items").bind Json.asArray?).getD [])
        items).sum

/-
  What the estimate overstates does not exceed the tax that
  comes on top of the prices; or the total is the largest
  amount there is.
-/
def Outweighed
    (params : Json)
    (items : List RequestItem) : Prop :=
  overstatedBy params items ≤
      exactSubtotal items * 875 / 10000 ∨
    2 ^ 63 - 1 ≤
      exactSubtotal items + exactSubtotal items * 875 / 10000

/- Items that are read one by one. -/
abbrev ItemsRead (jsons : List Json) (items : List RequestItem) :
    Prop :=
  List.Forall₂
    (fun json item => RequestItem.read json = some item) jsons
    items

private theorem itemsRead_of_mapM
    {jsons : List Json}
    {items : List RequestItem}
    (hRead : jsons.mapM RequestItem.read = some items) :
    ItemsRead jsons items := by
  induction jsons generalizing items with
  | nil =>
      cases hRead
      exact .nil
  | cons json jsons ih =>
      rw [List.mapM_cons] at hRead
      simp only [Option.bind_eq_bind,
        Option.bind_eq_some_iff] at hRead
      obtain ⟨item, hItem, rest, hRest, hItems⟩ := hRead
      cases hItems
      exact .cons hItem (ih hRest)

/- The parameters that are an object name their items. -/
private theorem itemsRead_of_params
    {fields : List (String × Json)}
    {items : List RequestItem}
    (hItems : itemsOfParams (.obj fields) = some items) :
    ∃ jsons,
      ((Json.obj fields).get? "items").bind Json.asArray? =
          some jsons ∧
        ItemsRead jsons items := by
  have hRequired :
      required "items" (elements RequestItem.read)
        (.obj fields) = some items :=
    hItems
  rw [required, Option.bind_eq_some_iff] at hRequired
  obtain ⟨value, hValue, hElements⟩ := hRequired
  rw [elements, Option.bind_eq_some_iff] at hElements
  obtain ⟨jsons, hJsons, hRead⟩ := hElements
  refine ⟨jsons, ?_, itemsRead_of_mapM hRead⟩
  rw [hValue]
  exact hJsons

private theorem shown_nonneg
    {json : Json}
    {item : RequestItem}
    (hRead : RequestItem.read json = some item)
    (hItem : Priceable item) :
    0 ≤ (shownQuantity json).toInt ∧
      0 ≤ (shownUnit json).toInt := by
  have hUnit := Int64.le_iff_toInt_le.mp hItem.2
  have hQuantity := Int64.lt_iff_toInt_lt.mp hItem.1
  cases json with
  | arr members =>
      have hUnseen : (0 : Int) ≤ (0 : Int64).toInt := by decide
      have hDefault : (0 : Int) ≤ (1000 : Int64).toInt := by
        decide
      exact ⟨hUnseen, hDefault⟩
  | obj fields =>
      obtain ⟨hFound, hHint⟩ := read_obj hRead
      unfold required at hFound
      constructor
      · unfold shownQuantity
        rw [hFound]
        exact Int.le_of_lt hQuantity
      · rw [shownUnit_obj hHint]
        split
        · decide
        · exact hUnit
  | null => cases hRead
  | bool value => cases hRead
  | int value => cases hRead
  | float value => cases hRead
  | str value => cases hRead

private theorem all_shown_nonneg
    {jsons : List Json}
    {items : List RequestItem}
    (hRead : ItemsRead jsons items)
    (hPriceable : ∀ item ∈ items, Priceable item) :
    ∀ json ∈ jsons,
      0 ≤ (shownQuantity json).toInt ∧
        0 ≤ (shownUnit json).toInt := by
  induction hRead with
  | nil => exact fun _ hMem => nomatch hMem
  | cons hItem hRest ih =>
      obtain ⟨hFirst, hOthers⟩ :=
        List.forall_mem_cons.mp hPriceable
      exact List.forall_mem_cons.mpr
        ⟨shown_nonneg hItem hFirst, ih hOthers⟩

private theorem sum_shown
    {jsons : List Json}
    {items : List RequestItem}
    (hRead : ItemsRead jsons items) :
    (jsons.map fun json =>
        (shownQuantity json).toInt * (shownUnit json).toInt).sum =
      exactSubtotal items +
        (List.zipWith overstated jsons items).sum := by
  induction hRead with
  | nil => rfl
  | cons hItem hRest ih =>
      rw [List.map_cons, List.sum_cons, ih, shown_eq hItem,
        exactSubtotal, exactSubtotal, List.map_cons,
        List.sum_cons, List.zipWith_cons_cons, List.sum_cons]
      omega

/- The estimate is the capped sum of what it counts. -/
theorem estimate_eq
    {envelope : IntentEnvelope}
    {items : List RequestItem}
    (hItems : itemsOfParams envelope.params = some items)
    (hPriceable : ∀ item ∈ items, Priceable item) :
    (estimateIntentAmountMinor envelope).toInt =
      cap (exactSubtotal items +
        overstatedBy envelope.params items) := by
  unfold estimateIntentAmountMinor
  generalize envelope.params = params at hItems ⊢
  cases params with
  | arr members =>
      have hZero :
          exactSubtotal items +
            overstatedBy (.arr members) items = 0 := by
        rw [overstatedBy]
        omega
      rw [hZero]
      rfl
  | obj fields =>
      obtain ⟨jsons, hJsons, hRead⟩ := itemsRead_of_params hItems
      have hAmount :
          ∀ json ∈ jsons,
            0 ≤ (shownQuantity json).toInt *
                (shownUnit json).toInt ∧
              (satMul (shownQuantity json)
                  (shownUnit json)).toInt =
                cap ((shownQuantity json).toInt *
                  (shownUnit json).toInt) := by
        intro json hJson
        obtain ⟨hQuantity, hUnit⟩ :=
          all_shown_nonneg hRead hPriceable json hJson
        exact ⟨Int.mul_nonneg hQuantity hUnit,
          toInt_satMul_of_nonneg hQuantity hUnit⟩
      have hSum :=
        foldl_satAdd
          (fun json =>
            satMul (shownQuantity json) (shownUnit json))
          (fun json =>
            (shownQuantity json).toInt * (shownUnit json).toInt)
          hAmount (Int.le_refl (0 : Int64).toInt)
      have hOverstated :
          overstatedBy (.obj fields) items =
            (List.zipWith overstated jsons items).sum := by
        rw [overstatedBy, hJsons, Option.getD_some]
        exact fun _ hArr => nomatch hArr
      rw [hJsons, hOverstated, ← sum_shown hRead]
      dsimp only
      refine hSum.trans ?_
      rw [show (0 : Int64).toInt = 0 from rfl, Int.zero_add]
  | null => cases hItems
  | bool value => cases hItems
  | int value => cases hItems
  | float value => cases hItems
  | str value => cases hItems

/- It is within the total where it is outweighed. -/
theorem estimate_le_iff
    {envelope : IntentEnvelope}
    {items : List RequestItem}
    {currency fieldPrefix : String}
    {lines : List LineItem}
    {totals : Totals}
    (hItems : itemsOfParams envelope.params = some items)
    (hPriced :
      priceRequestItems items currency fieldPrefix =
        .ok (lines, totals)) :
    estimateIntentAmountMinor envelope ≤
        totalAmountMinor totals ↔
      Outweighed envelope.params items := by
  obtain ⟨subtotal, tax, total, hExact, hNonneg⟩ :=
    pricedExactly_of_ok hPriced
  have hPriceable := priceable_of_ok hPriced
  have hTotal : totalAmountMinor totals = total := by
    rw [hExact.totals_eq]
    rfl
  have hSubtotal := hExact.subtotal_eq
  have hTax := hExact.tax_eq
  have hTotalEq := hExact.total_eq
  have hEstimate := estimate_eq hItems hPriceable
  have hItemsNonneg := exactSubtotal_nonneg hPriceable
  rw [hTotal, Int64.le_iff_toInt_le, hEstimate, hTotalEq, hTax,
    hSubtotal]
  unfold Outweighed cap
  omega

/- Hints in objects are counted at their price. -/
theorem outweighed_of_objects
    {envelope : IntentEnvelope}
    {items : List RequestItem}
    (hItems : itemsOfParams envelope.params = some items)
    (hPriceable : ∀ item ∈ items, Priceable item)
    (hObjects :
      ∀ jsons,
        (envelope.params.get? "items").bind Json.asArray? =
            some jsons →
          ∀ json ∈ jsons, hintInArray json = false) :
    Outweighed envelope.params items := by
  have hNonneg := exactSubtotal_nonneg hPriceable
  suffices hNone : overstatedBy envelope.params items ≤ 0 by
    left
    omega
  revert hItems hObjects
  generalize envelope.params = params
  intro hItems hObjects
  cases params with
  | arr members =>
      rw [overstatedBy]
      omega
  | obj fields =>
      obtain ⟨jsons, hJsons, hRead⟩ := itemsRead_of_params hItems
      have hHints := hObjects jsons hJsons
      have hOverstated :
          overstatedBy (.obj fields) items =
            (List.zipWith overstated jsons items).sum := by
        rw [overstatedBy, hJsons, Option.getD_some]
        exact fun _ hArr => nomatch hArr
      rw [hOverstated]
      clear hItems hObjects hJsons hOverstated hNonneg
      induction hRead with
      | nil => exact Int.le_refl 0
      | @cons json item jsons items hItem hRest ih =>
          obtain ⟨hFirst, hOthers⟩ :=
            List.forall_mem_cons.mp hHints
          obtain ⟨hPrice, hPrices⟩ :=
            List.forall_mem_cons.mp hPriceable
          have hLine := exactLine_nonneg hPrice
          have hRestLe := ih hPrices hOthers
          have hLe : overstated json item ≤ 0 := by
            unfold overstated
            split
            · omega
            · rw [hFirst]
              exact Int.le_refl 0
          rw [List.zipWith_cons_cons, List.sum_cons]
          omega
  | null => cases hItems
  | bool value => cases hItems
  | int value => cases hItems
  | float value => cases hItems
  | str value => cases hItems

end Service

end IcpHandler

------------------------------------------------------------
-- Usage that Can Be Reached
------------------------------------------------------------

namespace IcpHandler

namespace Model

/-
  Checked spends have led to the ledger, from one without a
  row for the mandate. The mandate was spent on at instants
  whose text can be read back.
-/
def ReachedUsage
    (rfc3339 : Rfc3339)
    (jti : String)
    (ledger : MandateLedger) : Prop :=
  ∃ first calls,
    first.usage rfc3339 jti = {} ∧
    (∀ call ∈ calls, call.jti = jti →
      rfc3339.Valid call.now) ∧
    ledger = (runCalls rfc3339 calls first).ledger

/- What is spent is spent in a window with a readable start. -/
private structure Opened
    (rfc3339 : Rfc3339)
    (usage : MandateUsage) : Prop where
  unopened :
    usage.windowStart = none → usage.spentMinor.toInt = 0
  valid :
    ∀ start, usage.windowStart = some start →
      rfc3339.Valid start

section Reached

variable {rfc3339 : Rfc3339} {jti : String}
variable {usage usage' : MandateUsage}

private theorem Opened.congr
    (hOpened : Opened rfc3339 usage)
    (hSame : usage'.toWindow = usage.toWindow) :
    Opened rfc3339 usage' := by
  have hStart : usage'.windowStart = usage.windowStart :=
    congrArg Data.FixedWindow.Window.start hSame
  have hSpent : usage'.spentMinor.toInt = usage.spentMinor.toInt :=
    congrArg Data.FixedWindow.Window.spent hSame
  constructor
  · rw [hStart, hSpent]
    exact hOpened.unopened
  · rw [hStart]
    exact hOpened.valid

/- A window that is rolled over is open. -/
private theorem Opened.rolled
    (hOpened : Opened rfc3339 usage)
    {now : DateTime}
    (window : Duration)
    (hNow : rfc3339.Valid now) :
    Opened rfc3339 (usage.rollWindow now window) ∧
      (usage.rollWindow now window).windowStart ≠ none := by
  obtain ⟨start, hStart, hFrom⟩ :=
    usage.rollWindow_windowStart now window
  refine ⟨⟨?_, ?_⟩, ?_⟩
  · rw [hStart]
    exact nofun
  · intro found hFound
    rw [hStart] at hFound
    cases hFound
    rcases hFrom with rfl | hOld
    · exact hNow
    · exact hOpened.valid start hOld
  · rw [hStart]
    exact nofun

private theorem Opened.call
    {run : LedgerRun}
    {call : SpendCall}
    (hOpened : Opened rfc3339 (run.ledger.usage rfc3339 jti))
    (hValid : call.jti = jti → rfc3339.Valid call.now) :
    Opened rfc3339
      ((run.call rfc3339 call).ledger.usage rfc3339 jti) := by
  have hCall :
      run.ledger.tryRecordSpendChecked rfc3339 call.fault
          call.jti call.tenantId call.amountMinor call.now
          call.limits =
        ((run.ledger.tryRecordSpendChecked rfc3339 call.fault
          call.jti call.tenantId call.amountMinor call.now
          call.limits).1, (run.call rfc3339 call).ledger) :=
    rfl
  by_cases hJti : call.jti = jti
  · subst hJti
    have hNow := hValid rfl
    obtain ⟨hRolled, hSome⟩ :=
      hOpened.rolled call.limits.window hNow
    rcases MandateLedger.tryRecordSpendChecked_cases hNow
        hOpened.valid hCall with
      ⟨-, -, hSame⟩ | ⟨-, -, hSame | hSame⟩ |
        ⟨-, -, -, -, -, hSame⟩
    · rw [hSame]
      exact hOpened
    · rw [hSame]
      exact hOpened
    · exact hRolled.congr hSame
    · have hAdded :
          Opened rfc3339
            (((run.ledger.usage rfc3339 call.jti).rollWindow
              call.now call.limits.window).addSpend
                call.amountMinor) :=
        ⟨fun hNone => absurd hNone hSome, hRolled.valid⟩
      exact hAdded.congr hSame
  · have hOther :=
      MandateLedger.usage_of_ne hCall (Ne.symm hJti)
    rw [hOther]
    exact hOpened

/- Where no window has been opened nothing has been spent. -/
theorem ReachedUsage.opened
    {ledger : MandateLedger}
    (hReached : ReachedUsage rfc3339 jti ledger)
    (hNone : (ledger.usage rfc3339 jti).windowStart = none) :
    (ledger.usage rfc3339 jti).spentMinor = 0 := by
  obtain ⟨first, calls, hNew, hValid, rfl⟩ := hReached
  have hRun :
      ∀ (calls : List SpendCall) (run : LedgerRun),
        Opened rfc3339 (run.ledger.usage rfc3339 jti) →
        (∀ call ∈ calls, call.jti = jti →
          rfc3339.Valid call.now) →
        Opened rfc3339
          ((calls.foldl (LedgerRun.call rfc3339)
            run).ledger.usage rfc3339 jti) := by
    intro calls
    induction calls with
    | nil => exact fun run hOpened _ => hOpened
    | cons call calls ih =>
        intro run hOpened hCalls
        obtain ⟨hCall, hRest⟩ := List.forall_mem_cons.mp hCalls
        exact ih _ (hOpened.call hCall) hRest
  have hStart : Opened rfc3339 (first.usage rfc3339 jti) := by
    rw [hNew]
    exact ⟨fun _ => rfl, nofun⟩
  have hSpent :=
    (hRun calls ⟨first, []⟩ hStart hValid).unopened hNone
  exact Int64.toInt_inj.mp hSpent

end Reached

end Model

end IcpHandler

------------------------------------------------------------
-- The Gate and the Ledger
------------------------------------------------------------

namespace IcpHandler

namespace Service

open Model Saturating

/- What an accepted spend has passed. -/
private theorem limits_of_accepted
    {rfc3339 : Rfc3339}
    {fault : Bool}
    {jti tenantId : String}
    {amountMinor : Int64}
    {now : DateTime}
    {limits : MandateSpendLimits}
    {ledger : MandateLedger}
    (hPositive : 0 < amountMinor)
    (hAccepted :
      (ledger.tryRecordSpendChecked rfc3339 fault jti tenantId
        amountMinor now limits).1 = .ok ()) :
    (∀ cap, limits.perTransaction = some cap →
        amountMinor ≤ cap) ∧
      amountMinor ≤
        ((ledger.usage rfc3339 jti).rollWindow now
          limits.window).remaining limits.budgetMinor := by
  unfold MandateLedger.tryRecordSpendChecked at hAccepted
  rw [if_neg (Int64.not_le.mpr hPositive)] at hAccepted
  split at hAccepted
  · cases hAccepted
  split at hAccepted
  · cases hAccepted
  rename_i hCap
  split at hAccepted
  · cases hAccepted
  refine ⟨?_, ?_⟩
  · intro cap hSome
    rw [hSome] at hCap
    simpa [Option.filter] using hCap
  · have hRemaining :
        ((ledger.usage rfc3339 jti).rollWindow now
            limits.window).remaining limits.budgetMinor =
          (((ledger.usage rfc3339 jti).rollWindow now
            limits.window).claimTenant tenantId).remaining
            limits.budgetMinor := by
      simp [MandateUsage.remaining]
    rw [hRemaining]
    cases ledger with
    | memory rows =>
        dsimp only at hAccepted
        split at hAccepted
        · cases hAccepted
        · rename_i hFits
          exact Int64.not_lt.mp hFits
    | sqlite rows =>
        dsimp only at hAccepted
        split at hAccepted
        · cases hAccepted
        · rename_i hFits
          exact Int64.not_lt.mp hFits

/- Both count the same spend, where none is left unopened. -/
private theorem rolled_spent
    {usage : MandateUsage}
    {window : Duration}
    {now : DateTime}
    (hOpened :
      usage.windowStart = none → usage.spentMinor = 0) :
    (usage.rollWindow now window).spentMinor =
      usage.spentInWindow window now := by
  unfold MandateUsage.rollWindow MandateUsage.spentInWindow
  cases hStart : usage.windowStart with
  | none =>
      rw [if_pos (by simp)]
      exact (hOpened hStart).symm
  | some start =>
      by_cases hElapsed : now - start > window
      · rw [if_pos (by simpa using hElapsed)]
        exact (if_neg (not_le.mpr hElapsed)).symm
      · rw [if_neg (by simpa using hElapsed)]
        exact (if_pos (not_lt.mp hElapsed)).symm

/-
  The estimate is never more than what is reserved, and where
  the ledger accepts the charge the mandate's limits let the
  estimate pass.
-/
structure GatesAgree
    (envelope : IntentEnvelope)
    (totalMinor : Int64) : Prop where
  le : estimateIntentAmountMinor envelope ≤ totalMinor
  passes :
    ∀ (rfc3339 : Rfc3339) (payload : MandatePayload)
        (ledger : MandateLedger) fault tenantId now window,
      ReachedUsage rfc3339 payload.jti ledger →
      enforcedWindow payload.icp.budget = .ok window →
      (ledger.tryRecordSpendChecked rfc3339 fault payload.jti
        tenantId totalMinor now
        { budgetMinor := payload.icp.budget.amountMinor
          perTransaction := payload.icp.budget.perTransaction
          window := window }).1 = .ok () →
      (∀ cap, payload.icp.budget.perTransaction = some cap →
          estimateIntentAmountMinor envelope ≤ cap) ∧
        payload.Affords (ledger.usage rfc3339 payload.jti)
          (estimateIntentAmountMinor envelope) now

theorem GatesAgree.of_le
    {envelope : IntentEnvelope}
    {totalMinor : Int64}
    (hPositive : 0 < totalMinor)
    (hLe : estimateIntentAmountMinor envelope ≤ totalMinor) :
    GatesAgree envelope totalMinor := by
  refine ⟨hLe, ?_⟩
  intro rfc3339 payload ledger fault tenantId now window
    hReached hWindow hAccepted
  obtain ⟨hCap, hRemaining⟩ :=
    limits_of_accepted hPositive hAccepted
  refine ⟨fun cap hSome =>
    Int64.le_trans hLe (hCap cap hSome), ?_⟩
  rw [affords_iff_within]
  refine ⟨window, hWindow, Int64.le_trans hLe ?_⟩
  rw [MandateUsage.remaining,
    rolled_spent hReached.opened] at hRemaining
  exact hRemaining

/-
  For every subscribe envelope that deserialises and prices to
  a positive total the gates agree exactly where what the
  estimate overstates is outweighed; so they do where no price
  hint is written as an array.
-/
theorem gates_agree_iff
    (svc : IcpService)
    (hReads :
      ∀ json params,
        svc.deps.subscribeParams json = .ok params →
          itemsOfParams json = some params.items)
    (envelope : IntentEnvelope)
    (params : SubscribeParams)
    (hParams :
      svc.deps.subscribeParams envelope.params = .ok params)
    (lines : List LineItem)
    (totals : Totals)
    (hPriced :
      priceRequestItems params.items
          (envelope.context.currency.getD "USD")
          "subscribe.params.items" =
        .ok (lines, totals))
    (hPositive : 0 < totalAmountMinor totals) :
    (GatesAgree envelope (totalAmountMinor totals) ↔
        Outweighed envelope.params params.items) ∧
      ((∀ jsons,
          (envelope.params.get? "items").bind Json.asArray? =
              some jsons →
            ∀ json ∈ jsons, hintInArray json = false) →
        Outweighed envelope.params params.items) := by
  have hItems := hReads _ params hParams
  refine ⟨?_, outweighed_of_objects hItems
    (priceable_of_ok hPriced)⟩
  rw [← estimate_le_iff hItems hPriced]
  exact ⟨GatesAgree.le, GatesAgree.of_le hPositive⟩

/- The concrete service, with the items read as serde does. -/
private def serdeService : IcpService :=
  { concreteService with
    deps :=
      { concreteDeps with
        subscribeParams := fun params =>
          match itemsOfParams params with
          | none => .error "missing field `items`"
          | some items => do
              pure
                { items := items
                  cadence := ← concreteCadence params
                  payment := ← concretePayment params } } }

private theorem serdeService_reads
    (json : Json)
    (params : SubscribeParams)
    (hParams :
      serdeService.deps.subscribeParams json = .ok params) :
    itemsOfParams json = some params.items := by
  dsimp only [serdeService] at hParams
  split at hParams
  · cases hParams
  · rename_i items hItems
    cases hCadence : concreteCadence json with
    | error e =>
        rw [hCadence] at hParams
        cases hParams
    | ok cadence =>
        cases hPayment : concretePayment json with
        | error e =>
            rw [hCadence, hPayment] at hParams
            cases hParams
        | ok payment =>
            rw [hCadence, hPayment] at hParams
            cases hParams
            exact hItems

/- One unit at a price of one, with the price as given. -/
private def hintedEnvelope (hint : Json) : IntentEnvelope :=
  (sampleInput .subscribe
    [("items",
        .arr [.obj [("sku", .str "a"), ("quantity", .int 1),
          ("unit_price_hint", hint)]]),
      ("cadence", .str "weekly"), samplePayment]
    none).envelope

private def listedHint : Json :=
  .arr [.int 1, .null, .str "USD"]

private def namedHint : Json :=
  .obj [("amount_minor", .int 1), ("currency", .str "USD")]

private def hintedItems : List RequestItem :=
  [⟨"a", 1, some ⟨1, none, "USD"⟩⟩]

private def hintedParams : SubscribeParams where
  items := hintedItems
  cadence := .weekly
  payment := .card (some "tok") none none

/- A price in an array is estimated at the default. -/
theorem listed_hint_overstated :
    ¬ ∀ svc : IcpService,
      (∀ json params,
        svc.deps.subscribeParams json = .ok params →
          itemsOfParams json = some params.items) →
      ∀ envelope params lines totals,
        svc.deps.subscribeParams envelope.params = .ok params →
        priceRequestItems params.items
            (envelope.context.currency.getD "USD")
            "subscribe.params.items" = .ok (lines, totals) →
        0 < totalAmountMinor totals →
          GatesAgree envelope (totalAmountMinor totals) := by
  intro hAll
  have hAgree :=
    hAll serdeService serdeService_reads
      (hintedEnvelope listedHint) hintedParams _ _ rfl rfl
      (by decide)
  exact absurd hAgree.le (by decide)

/- A price in an object is estimated as it is charged. -/
theorem gates_agree_iff_sample :
    GatesAgree (hintedEnvelope namedHint) 1 := by
  have hObjects :
      ∀ jsons,
        ((hintedEnvelope namedHint).params.get? "items").bind
            Json.asArray? = some jsons →
          ∀ json ∈ jsons, hintInArray json = false := by
    intro jsons hJsons
    cases hJsons
    decide
  obtain ⟨hIff, hOutweighed⟩ :=
    gates_agree_iff serdeService serdeService_reads
      (hintedEnvelope namedHint) hintedParams rfl _ _ rfl
      (by decide)
  exact hIff.mpr (hOutweighed hObjects)

end Service

end IcpHandler
