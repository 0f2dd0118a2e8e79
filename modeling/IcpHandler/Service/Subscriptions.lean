import IcpHandler.Service.Transactions

/-
  The subscription intents, and the charge they share with
  the scheduler.

  Main declarations:
    * `runSubscriptionCharge`
    * `doSubscribe`
    * `doRenew`
    * `doPause`, `doCancelSubscription`
-/

------------------------------------------------------------
-- Charges and Markers
------------------------------------------------------------

namespace IcpHandler

namespace Service

open Model

variable (svc : IcpService)

/- The lock key of `lock_subscription`. -/
def subLock (subscriptionId : String) : String :=
  "sub:" ++ subscriptionId

/-
  Charge once: price the items, persist the order, and store
  the completed transaction. `bills` names what the charge is
  for and is not part of the source.
-/
def runSubscriptionCharge
    (input : IntentInput)
    (buyer : Buyer)
    (shipTo : Option Address)
    (items : List RequestItem)
    (currency : String)
    (bills : Billing) :
    Svc (Transaction × Option OrderSummary) := do
  let priced ←
    Svc.ofExcept id
      (priceRequestItems items currency "subscription.items")
  let now ← Svc.act .now
  let token ← Svc.act .uuid
  let txn : Transaction :=
    { id := "txn_" ++ token
      state := .completed
      agentId := input.agent.raw
      tenantId := input.tenant.tenantId
      mandateJti := input.envelope.mandateJti
      currency := currency
      jurisdiction := input.envelope.context.jurisdiction
      buyer := buyer
      shipTo := shipTo
      billTo := none
      lineItems := priced.1
      totals := priced.2
      orderId := none
      quoteExpiresAt := none
      createdAt := now
      updatedAt := now
      externalRefs := ∅ }
  let orderSummary ← persistOrderForTransaction svc txn
  let txn :=
    { txn with orderId := orderSummary.map OrderSummary.id }
  Svc.act (.insertCharge txn bills)
  pure (txn, orderSummary)

/-
  The placeholder transaction of an intent that charges
  nothing, linked to its subscription.
-/
def subscriptionPseudoTxn
    (input : IntentInput)
    (sub : Subscription)
    (state : TransactionState) : Svc Transaction := do
  let now ← Svc.act .now
  let token ← Svc.act .uuid
  pure
    { id := "txn_" ++ token
      state := state
      agentId := input.agent.raw
      tenantId := input.tenant.tenantId
      mandateJti := sub.mandateJti
      currency := sub.currency
      jurisdiction := input.envelope.context.jurisdiction
      buyer := sub.buyer
      shipTo := sub.shipTo
      billTo := none
      lineItems := []
      totals := {}
      orderId := none
      quoteExpiresAt := none
      createdAt := now
      updatedAt := now
      externalRefs :=
        (∅ : Refs).insert "subscription_id" sub.id }

end Service

end IcpHandler

------------------------------------------------------------
-- Subscribe
------------------------------------------------------------

namespace IcpHandler

namespace Service

open Model

variable (svc : IcpService)

/- A trial of a year is the longest one. -/
def maxTrialDays : UInt32 := 366

/- The row a new subscription starts from. -/
def newSubscription
    (input : IntentInput)
    (mandate : Option MandateEvaluation)
    (params : SubscribeParams)
    (id currency : String)
    (now : DateTime)
    (status : SubscriptionStatus)
    (periodEnd : DateTime)
    (chargesCompleted : UInt32)
    (lastTransactionId : Option String)
    (trialEnd : Option DateTime) : Subscription :=
  { id := id
    status := status
    agentId := input.agent.raw
    tenantId := input.tenant.tenantId
    mandateJti := mandate.map (·.payload.jti)
    buyer := params.buyer.getD {}
    shipTo := params.shipTo
    items := params.items
    currency := currency
    cadence := params.cadence
    currentPeriodStart := now
    currentPeriodEnd := periodEnd
    nextChargeAt := periodEnd
    chargesCompleted := chargesCompleted
    lastTransactionId := lastTransactionId
    paymentInstrument := some params.payment
    createdAt := now
    updatedAt := now
    canceledAt := none
    pausedAt := none
    failedRenewalAttempts := 0
    trialEnd := trialEnd }

/-
  Enroll without charging. The first charge is left to the
  scheduler, at the end of the trial.
-/
def enrollTrial
    (input : IntentInput)
    (mandate : Option MandateEvaluation)
    (params : SubscribeParams)
    (id currency : String)
    (now : DateTime)
    (priced : List LineItem × Totals)
    (trialDays : UInt32) : Svc Outcome := do
  Svc.ensure (!decide (trialDays > maxTrialDays))
    (.invalidRequest
      ("subscribe.params.trial_days must be between 1 and " ++
        toString maxTrialDays))
  let trialEnd ←
    Svc.orFail
      (.invalidRequest
        "subscribe.params.trial_days out of range")
      (svc.deps.calendar.checkedAddSigned now
        (Duration.days trialDays.toNat))
  let sub :=
    newSubscription input mandate params id currency now
      .trialing trialEnd 0 none (some trialEnd)
  Svc.act (.subs (.insert sub))
  let txn ← subscriptionPseudoTxn input sub .authorized
  let txn :=
    { txn with lineItems := priced.1, totals := priced.2 }
  Svc.act (.txns (.insert txn))
  pure { transaction := txn, subscription := some sub }

/- Charge the first period, then store the subscription. -/
def enrollCharged
    (input : IntentInput)
    (mandate : Option MandateEvaluation)
    (params : SubscribeParams)
    (id currency : String)
    (now : DateTime) : Svc Outcome := do
  let next :=
    periodAdvance svc.deps.calendar now params.cadence
  let charge ←
    runSubscriptionCharge svc input (params.buyer.getD {})
      params.shipTo params.items currency ⟨id, now⟩
  let sub :=
    newSubscription input mandate params id currency now
      .active next 1 (some charge.1.id) none
  Svc.act (.subs (.insert sub))
  pure
    { transaction := charge.1
      order := charge.2
      subscription := some sub }

def doSubscribe
    (input : IntentInput)
    (mandate : Option MandateEvaluation) : Svc Outcome := do
  let params ←
    Svc.ofExcept
      (fun e => .invalidRequest ("subscribe.params: " ++ e))
      (svc.deps.subscribeParams input.envelope.params)
  Svc.ensure (!params.items.isEmpty)
    (.invalidRequest
      "subscribe.params.items must be non-empty")
  Svc.ofExcept id
    (validatePaymentInstrument params.payment
      svc.config.paymentExecutionMode)
  let now ← Svc.act .now
  let currency := input.envelope.context.currency.getD "USD"
  let priced ←
    Svc.ofExcept id
      (priceRequestItems params.items currency
        "subscribe.params.items")
  -- The first charge is reserved here on both paths, before
  -- the length of a trial has been looked at.
  reserveMandateSpend mandate input.tenant.tenantId
    (totalAmountMinor priced.2) currency
  let token ← Svc.act .uuid
  let id := "sub_" ++ token
  match params.trialDays.filter (0 < ·) with
  | some trialDays =>
      enrollTrial svc input mandate params id currency now
        priced trialDays
  | none =>
      enrollCharged svc input mandate params id currency now

end Service

end IcpHandler

------------------------------------------------------------
-- Renew, Pause and Cancel
------------------------------------------------------------

namespace IcpHandler

namespace Service

open Model

variable (svc : IcpService)

/- Canceled and paused subscriptions cannot be renewed. -/
def ensureRenewable (sub : Subscription) : Svc Unit :=
  match sub.status with
  | .canceled =>
      Svc.fail (.preconditionFailed
        "subscription is canceled and cannot be renewed")
  | .paused =>
      Svc.fail (.preconditionFailed
        "subscription is paused; resume before renewing")
  | _ => pure ()

def doRenew
    (input : IntentInput)
    (mandate : Option MandateEvaluation) : Svc Outcome := do
  let params ←
    Svc.ofExcept
      (fun e => .invalidRequest ("renew.params: " ++ e))
      (svc.deps.renewParams input.envelope.params)
  Svc.ofExcept id
    (validatePaymentInstrument params.payment
      svc.config.paymentExecutionMode)
  let subId := params.subscriptionId
  Svc.withLock (subLock subId) do
    let sub ← subscriptionForInput subId input
    ensureRenewable sub
    let now ← Svc.act .now
    let priced ←
      Svc.ofExcept id
        (priceRequestItems sub.items sub.currency
          "subscription.items")
    reserveMandateSpend mandate input.tenant.tenantId
      (totalAmountMinor priced.2) sub.currency
    let newPeriodStart := sub.currentPeriodEnd
    let charge ←
      runSubscriptionCharge svc input sub.buyer sub.shipTo
        sub.items sub.currency ⟨subId, newPeriodStart⟩
    let newPeriodEnd :=
      periodAdvance svc.deps.calendar newPeriodStart sub.cadence
    let found ←
      Svc.act (.subs (.update subId
        (.renew newPeriodStart newPeriodEnd charge.1.id
          params.payment (mandate.map (·.payload.jti)) now)))
    let updated ←
      Svc.orPanic
        "subscription existed at the start of renew" found
    pure
      { transaction := charge.1
        order := charge.2
        subscription := some updated }

def doPause (input : IntentInput) : Svc Outcome := do
  let params ←
    Svc.ofExcept
      (fun e => .invalidRequest ("pause.params: " ++ e))
      (svc.deps.subscriptionRefParams input.envelope.params)
  let subId := params.subscriptionId
  Svc.withLock (subLock subId) do
    let sub ← subscriptionForInput subId input
    Svc.ensure (!sub.status.isTerminal)
      (.preconditionFailed
        ("cannot pause subscription in state " ++
          sub.status.debug))
    let now ← Svc.act .now
    let found ← Svc.act (.subs (.update subId (.pause now)))
    let updated ←
      Svc.orPanic
        "subscription existed at the start of pause" found
    let txn ← subscriptionPseudoTxn input updated .canceled
    Svc.act (.txns (.insert txn))
    pure { transaction := txn, subscription := some updated }

def doCancelSubscription
    (input : IntentInput) : Svc Outcome := do
  let params ←
    Svc.ofExcept
      (fun e =>
        .invalidRequest ("cancel_subscription.params: " ++ e))
      (svc.deps.subscriptionRefParams input.envelope.params)
  let subId := params.subscriptionId
  Svc.withLock (subLock subId) do
    let sub ← subscriptionForInput subId input
    Svc.ensure (sub.status != .canceled)
      (.preconditionFailed "subscription already canceled")
    let now ← Svc.act .now
    let found ← Svc.act (.subs (.update subId (.cancel now)))
    let updated ←
      Svc.orPanic
        "subscription existed at the start of cancel" found
    let txn ← subscriptionPseudoTxn input updated .canceled
    Svc.act (.txns (.insert txn))
    pure { transaction := txn, subscription := some updated }

end Service

end IcpHandler
