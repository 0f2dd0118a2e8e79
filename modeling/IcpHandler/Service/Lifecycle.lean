import IcpHandler.Service.Subscriptions

/-
  The background ticks: automatic renewal of subscriptions,
  and the expiry sweep over transactions and peer quotes.

  Main declarations:
    * `schedulerCharge`
    * `tickSubscriptions`
    * `tickExpiries`
-/

------------------------------------------------------------
-- Dunning
------------------------------------------------------------

namespace IcpHandler

namespace Service

open Model

variable (svc : IcpService)

/- `MAX_RENEWAL_FAILURES` -/
def maxRenewalFailures : UInt32 := 3

/- How many failures in a row end in `past_due`. -/
def dunningMaxAttempts : UInt32 :=
  let schedule := svc.config.subscriptionDunningScheduleHours
  if schedule.isEmpty then maxRenewalFailures
  else Saturating.satAdd32 (UInt32.ofNat schedule.length) 1

/- When to try again after the given failure, from 1. -/
def dunningNextAttempt
    (failureCount : UInt32)
    (now : DateTime) : Option DateTime :=
  let schedule := svc.config.subscriptionDunningScheduleHours
  if schedule.isEmpty || failureCount == 0 then none
  else
    schedule[failureCount.toNat - 1]?.map fun hours =>
      now + Duration.hours hours.toNat

end Service

end IcpHandler

------------------------------------------------------------
-- Automatic Renewal
------------------------------------------------------------

namespace IcpHandler

namespace Service

open Model

variable (svc : IcpService)

/- `SchedulerTickReport` -/
structure SchedulerTickReport where
  scanned : Nat := 0
  due : Nat := 0
  renewed : Nat := 0
  failed : Nat := 0
  pastDue : Nat := 0

/- The input the scheduler makes up for a charge. -/
def schedulerInput
    (sub : Subscription)
    (requestId : String) : IntentInput :=
  { envelope :=
      { intent := Intent.renew.wireName
        agentId := sub.agentId
        mandateJti := sub.mandateJti }
    agent := ⟨sub.agentId⟩
    tenant := ⟨sub.tenantId⟩
    requestId := requestId
    skipMandateCheck := true }

/- Peer payments need consent, so they are not renewed. -/
def isA2a : Option PaymentInstrument → Bool
  | some (.a2a _ _) => true
  | _ => false

def schedulerCharge
    (sub : Subscription) :
    Svc (Transaction × Option OrderSummary) := do
  let token ← Svc.act .uuid
  let input := schedulerInput sub ("req_" ++ token)
  Svc.ensure (!isA2a sub.paymentInstrument)
    (.preconditionFailed
      "A2A payment instruments cannot be auto-renewed")
  runSubscriptionCharge svc input sub.buyer sub.shipTo
    sub.items sub.currency ⟨sub.id, sub.currentPeriodEnd⟩

/- The event of a successful automatic renewal. -/
def renewedEvent
    (sub : Subscription)
    (txn : Transaction)
    (order : Option OrderSummary)
    (newPeriodEnd : DateTime)
    (charges : UInt32)
    (token : String)
    (now : DateTime) : Event :=
  let time := fun t => Json.str (svc.deps.timeToJson t)
  { id := "evt_" ++ token
    type := "subscription.renewed"
    transactionId := some txn.id
    orderId := order.map OrderSummary.id <|> txn.orderId
    agentId := some sub.agentId
    occurredAt := now
    payload := .obj
      [("subscription_id", .str sub.id),
        ("automatic", .bool true),
        ("transaction_id", .str txn.id),
        ("cycle_number", .int charges.toNat),
        ("current_period_start", time sub.currentPeriodEnd),
        ("current_period_end", time newPeriodEnd),
        ("next_charge_at", time newPeriodEnd),
        ("amount_minor",
          .ofOption .ofI64
            (txn.totals.total.map Money.amountMinor)),
        ("currency",
          .str ((txn.totals.total.map Money.currency).getD
            txn.currency))] }

/- The event of a subscription that becomes `past_due`. -/
def pastDueEvent
    (sub updated : Subscription)
    (err : ApiError)
    (token : String)
    (now : DateTime) : Event :=
  let attempts := Json.int updated.failedRenewalAttempts.toNat
  { id := "evt_" ++ token
    type := "subscription.past_due"
    transactionId := none
    orderId := none
    agentId := some sub.agentId
    occurredAt := now
    payload := .obj
      [("subscription_id", .str sub.id),
        ("consecutive_failures", attempts),
        ("attempts_made", attempts),
        ("last_error", .str err.display),
        ("last_attempt_at", .str (svc.deps.timeToJson now)),
        ("next_action", .str "manual_renewal_required")] }

/- After a charge: advance the row and announce it. -/
def recordRenewed
    (sub : Subscription)
    (charge : Transaction × Option OrderSummary)
    (now : DateTime) : Svc Unit := do
  let newPeriodStart := sub.currentPeriodEnd
  let newPeriodEnd :=
    periodAdvance svc.deps.calendar newPeriodStart sub.cadence
  let newChargesCompleted :=
    Saturating.satAdd32 sub.chargesCompleted 1
  let _ ←
    Svc.act (.subs (.update sub.id
      (.autoRenew newPeriodStart newPeriodEnd
        newChargesCompleted charge.1.id now)))
  let token ← Svc.act .uuid
  let event :=
    renewedEvent svc sub charge.1 charge.2 newPeriodEnd
      newChargesCompleted token now
  enqueueWebhook svc event sub.tenantId
  Svc.act (.emit event)

/-
  After a failure: count it, and say whether the subscription
  is past due now.
-/
def recordFailed
    (sub : Subscription)
    (err : ApiError)
    (now : DateTime) : Svc Bool := do
  let newFailureCount :=
    Saturating.satAdd32 sub.failedRenewalAttempts 1
  let updated ←
    Svc.act (.subs (.update sub.id
      (.chargeFailed newFailureCount (dunningMaxAttempts svc)
        (dunningNextAttempt svc newFailureCount now) now)))
  match updated.filter (·.status == .pastDue) with
  | some s => do
      let token ← Svc.act .uuid
      let event := pastDueEvent svc sub s err token now
      enqueueWebhook svc event sub.tenantId
      Svc.act (.emit event)
      pure true
  | none => pure false

/- The loop over the due subscriptions. -/
def renewEach
    (now : DateTime) :
    List Subscription → SchedulerTickReport →
      Svc SchedulerTickReport
  | [], report => pure report
  | sub :: due, report => do
      match ← Svc.attempt (schedulerCharge svc sub) with
      | .ok charge => do
          recordRenewed svc sub charge now
          renewEach now due
            { report with renewed := report.renewed + 1 }
      | .error err => do
          let pastDue ← recordFailed svc sub err now
          renewEach now due
            { report with
              failed := report.failed + 1
              pastDue := report.pastDue + pastDue.toNat }

/-
  Bill every subscription that was due when the tick listed
  them. The charge and the update go by the listed row.
-/
def tickSubscriptions
    (now : DateTime) : Svc SchedulerTickReport := do
  let due ← Svc.act (.subs (.listDue now))
  let scanned ← Svc.act (.subs .len)
  renewEach svc now due
    { scanned := scanned, due := due.length }

end Service

end IcpHandler

------------------------------------------------------------
-- Expiry
------------------------------------------------------------

namespace IcpHandler

namespace Service

open Model

variable (svc : IcpService)

/- `ExpiryTickReport` -/
structure ExpiryTickReport where
  transactionsExpired : Nat := 0
  peerQuotesExpired : Nat := 0

/- The event of an expired transaction. -/
def txnExpiredEvent
    (txn : Transaction)
    (token : String)
    (now : DateTime) : Event :=
  let time := fun t => Json.str (svc.deps.timeToJson t)
  { id := "evt_" ++ token
    type := "transaction.expired"
    transactionId := some txn.id
    orderId := none
    agentId := some txn.agentId
    occurredAt := now
    payload := .obj
      [("transaction_id", .str txn.id),
        ("expired_at", time now),
        ("previous_state", .str txn.state.wireName),
        ("quote_expires_at",
          .ofOption time txn.quoteExpiresAt),
        ("buyer_email", .ofOption .str txn.buyer.email),
        ("amount_minor",
          .ofOption .ofI64
            (txn.totals.total.map Money.amountMinor)),
        ("currency",
          .str ((txn.totals.total.map Money.currency).getD
            txn.currency)),
        ("next_action", .str "re_quote_required")] }

/- The event of an expired peer quote. -/
def quoteExpiredEvent
    (quote : PeerQuote)
    (token : String)
    (now : DateTime) : Event :=
  { id := "evt_" ++ token
    type := "peer_quote.expired"
    transactionId := none
    orderId := none
    agentId := some quote.requesterAgentId
    occurredAt := now
    payload := .obj
      [("peer_quote_id", .str quote.id),
        ("expired_at", .str (svc.deps.timeToJson now)),
        ("previous_status", .str quote.status.wireName),
        ("requester_agent_id", .str quote.requesterAgentId),
        ("peer_agent_id", .str quote.peerAgentId),
        ("service_kind", .str quote.service.kind.wireName),
        ("price_amount_minor",
          .ofOption .ofI64
            (quote.price.map Money.amountMinor)),
        ("price_currency",
          .ofOption .str (quote.price.map Money.currency)),
        ("next_action", .str "re_quote_required")] }

/- Expire one listed transaction and announce it. -/
def expireTransaction
    (txn : Transaction)
    (now : DateTime) : Svc Unit := do
  let _ ← Svc.act (.txns (.update txn.id (.expire now)))
  let token ← Svc.act .uuid
  let event := txnExpiredEvent svc txn token now
  enqueueWebhook svc event txn.tenantId
  Svc.act (.emit event)

/- The loop over the due transactions. -/
def expireTransactions
    (now : DateTime) : List Transaction → Svc Unit
  | [] => pure ()
  | txn :: due => do
      expireTransaction svc txn now
      expireTransactions now due

/- Expire one listed peer quote and announce it. -/
def expirePeerQuote
    (quote : PeerQuote)
    (now : DateTime) : Svc Unit := do
  let _ ← Svc.act (.quotes (.update quote.id (.expire now)))
  let token ← Svc.act .uuid
  let event := quoteExpiredEvent svc quote token now
  enqueueWebhook svc event quote.tenantId
  Svc.act (.emit event)

/- The loop over the due peer quotes. -/
def expirePeerQuotes
    (now : DateTime) : List PeerQuote → Svc Unit
  | [] => pure ()
  | quote :: due => do
      expirePeerQuote svc quote now
      expirePeerQuotes now due

/-
  Expire what was due when the sweep listed it. The update
  does not look at the state again.
-/
def tickExpiries
    (now : DateTime) : Svc ExpiryTickReport := do
  let dueTxns ← Svc.act (.txns (.listDue now))
  expireTransactions svc now dueTxns
  let dueQuotes ← Svc.act (.quotes (.listDue now))
  expirePeerQuotes svc now dueQuotes
  pure
    { transactionsExpired := dueTxns.length
      peerQuotesExpired := dueQuotes.length }

end Service

end IcpHandler
