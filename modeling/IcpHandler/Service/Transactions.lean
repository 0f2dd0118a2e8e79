import IcpHandler.Service.Helpers

/-
  The intents on transactions: the catalogue reads and the
  quote, authorization and purchase, the order intents, and
  the two that only annotate.

  Main declarations:
    * `doSearch`, `doDescribe`, `doQuote`
    * `doAuthorize`, `doBuy`
    * `doTrack`, `doReturn`, `doRefundRequest`
    * `doNegotiate`, `doConfirmReceipt`
-/

------------------------------------------------------------
-- Search, Describe and Quote
------------------------------------------------------------

namespace IcpHandler

namespace Service

open Model

variable (svc : IcpService)

/- An advisory transaction without line items. -/
def doSearch (input : IntentInput) : Svc Outcome := do
  let txn ← freshTransaction input .draft
  Svc.act (.txns (.insert txn))
  pure { transaction := txn }

def doDescribe (input : IntentInput) : Svc Outcome := do
  let txn ← freshTransaction input .draft
  Svc.act (.txns (.insert txn))
  pure { transaction := txn }

/- The discount the engine's promotions grant, if asked. -/
def quoteTotals
    (params : QuoteParams)
    (totals : Totals)
    (currency : String) : Svc Totals :=
  if !params.discountCodes.isEmpty && svc.hasEngine then do
    let discount ←
      Svc.act (.computeDiscount params.items currency
        params.shipTo params.discountCodes)
    if discount > 0 then
      pure (applyDiscountToTotals totals discount currency)
    else pure totals
  else pure totals

def doQuote (input : IntentInput) : Svc Outcome := do
  let params ←
    Svc.ofExcept
      (fun e => .invalidRequest ("quote.params: " ++ e))
      (svc.deps.quoteParams input.envelope.params)
  Svc.ensure (!params.items.isEmpty)
    (.invalidRequest "quote.params.items must be non-empty")
  let currency := input.envelope.context.currency.getD "USD"
  let priced ←
    Svc.ofExcept id
      (priceRequestItems params.items currency
        "quote.params.items")
  let totals ← quoteTotals svc params priced.2 currency
  let txn ← freshTransaction input .quoted
  let now ← Svc.act .now
  let txn : Transaction :=
    { txn with
      buyer := params.buyer.getD {}
      shipTo := params.shipTo
      lineItems := priced.1
      totals := totals
      currency := currency
      quoteExpiresAt := some (now + Duration.minutes 15) }
  Svc.act (.txns (.insert txn))
  pure { transaction := txn }

end Service

end IcpHandler

------------------------------------------------------------
-- Authorize and Buy
------------------------------------------------------------

namespace IcpHandler

namespace Service

open Model

variable (svc : IcpService)

/- The lock key of `lock_transaction`. -/
def txnLock (transactionId : String) : String :=
  "txn:" ++ transactionId

def ensureNotSubscriptionLinked
    (txn : Transaction) : Svc Unit :=
  Svc.ensure
    ((txn.externalRefs.lookup "subscription_id").isNone)
    (.preconditionFailed
      ("transaction belongs to a subscription and cannot be " ++
        "authorized or bought directly"))

def doAuthorize (input : IntentInput) : Svc Outcome := do
  let params ←
    Svc.ofExcept
      (fun e => .invalidRequest ("authorize.params: " ++ e))
      (svc.deps.authorizeParams input.envelope.params)
  let txnId := params.transactionId
  Svc.withLock (txnLock txnId) do
    let txn ← transactionForInput txnId input
    ensureNotSubscriptionLinked txn
    Svc.ensure (txn.state == .quoted)
      (.preconditionFailed
        ("transaction in state " ++ txn.state.debug ++
          " cannot be authorized"))
    let now ← Svc.act .now
    ensureQuoteOpen txn now
    let now ← Svc.act .now
    let updated ←
      Svc.act (.txns (.update txnId
        (.authorize params.buyer params.shipTo params.billTo
          now)))
    let txn ←
      Svc.orFail
        (.resourceNotFound ("transaction " ++ txnId)) updated
    pure { transaction := txn }

/-
  `CommerceEngine::persist_order`: without the buyer's email
  there is no order. The customer and product records the
  engine keeps beside the order are not modelled.
-/
def enginePersistOrder
    (txn : Transaction) :
    Svc (Except ApiError (Option PersistedOrder)) :=
  if txn.buyer.email.any fun email => !email.isEmpty then do
    let created ←
      Svc.act (.createOrder txn.buyer txn.currency txn.lineItems
        (txn.totals.total.getD (.new 0 txn.currency)))
    pure (created.map some)
  else pure (.ok none)

def persistOrderForTransaction
    (txn : Transaction) : Svc (Option OrderSummary) := do
  let order ←
    if svc.hasEngine then do
      match ← enginePersistOrder txn with
      | .ok (some order) => pure (some order)
      | .ok none =>
          if svc.config.isProduction then
            Svc.fail (.preconditionFailed
              ("buyer email is required to persist a " ++
                "production order"))
          else pure none
      | .error err =>
          if svc.config.isProduction then Svc.fail err
          else pure none
    else if svc.config.isProduction then
      Svc.fail
        (.engineUnavailable "iCommerce engine unavailable")
    else pure none
  pure (order.map fun o =>
    { id := o.id
      orderNumber := o.orderNumber
      status := "created"
      permalinkUrl := none
      total := o.total })

/- Which states a transaction can be bought in. -/
def ensureBuyable (txn : Transaction) : Svc Unit :=
  match txn.state with
  | .quoted => do
      let now ← Svc.act .now
      ensureQuoteOpen txn now
  | .authorized => pure ()
  | other =>
      Svc.fail (.preconditionFailed
        ("transaction in state " ++ other.debug ++
          " cannot be bought"))

def doBuy
    (input : IntentInput)
    (mandate : Option MandateEvaluation) : Svc Outcome := do
  let params ←
    Svc.ofExcept
      (fun e => .invalidRequest ("buy.params: " ++ e))
      (svc.deps.buyParams input.envelope.params)
  Svc.ofExcept id
    (validatePaymentInstrument params.payment
      svc.config.paymentExecutionMode)
  let txnId := params.transactionId
  Svc.withLock (txnLock txnId) do
    let txn ← transactionForInput txnId input
    ensureNotSubscriptionLinked txn
    ensureBuyable txn
    let spendMinor := totalAmountMinor txn.totals
    reserveMandateSpend mandate input.tenant.tenantId
      spendMinor txn.currency
    let orderSummary ← persistOrderForTransaction svc txn
    let now ← Svc.act .now
    let updated ←
      Svc.act (.txns (.update txnId
        (.complete (orderSummary.map OrderSummary.id) now)))
    let persisted ←
      Svc.orFail
        (.resourceNotFound ("transaction " ++ txnId)) updated
    pure { transaction := persisted, order := orderSummary }

end Service

end IcpHandler

------------------------------------------------------------
-- Track, Return and Refund
------------------------------------------------------------

namespace IcpHandler

namespace Service

open Model

/- The transaction id in the parameters. -/
def paramsTransactionId
    (input : IntentInput) : Option String :=
  (input.envelope.params.get? "transaction_id").bind
    Json.asStr?

def doTrack (input : IntentInput) : Svc Outcome := do
  let txnId ←
    Svc.orFail
      (.invalidRequest "track: transaction_id required")
      (paramsTransactionId input <|>
        input.envelope.transactionId)
  let txn ← transactionForInput txnId input
  pure { transaction := txn }

/- Only the owner is checked, whatever the state. -/
def doReturn (input : IntentInput) : Svc Outcome := do
  let txnId ←
    Svc.orFail
      (.invalidRequest "return: transaction_id required")
      (input.envelope.transactionId <|>
        paramsTransactionId input)
  Svc.withLock (txnLock txnId) do
    let _ ← transactionForInput txnId input
    let now ← Svc.act .now
    let updated ←
      Svc.act (.txns (.update txnId (.reverse now)))
    let txn ←
      Svc.orFail
        (.resourceNotFound ("transaction " ++ txnId)) updated
    pure { transaction := txn }

def doRefundRequest (input : IntentInput) : Svc Outcome :=
  doReturn input

end Service

end IcpHandler

------------------------------------------------------------
-- Negotiate and Confirm Receipt
------------------------------------------------------------

namespace IcpHandler

namespace Service

open Model

variable (svc : IcpService)

/- The audit entry of one offer. -/
def negotiationEntry
    (input : IntentInput)
    (params : NegotiateParams)
    (newTotalMinor : Int64)
    (currency : String)
    (now : DateTime)
    (priorMinor : Int64) : String :=
  svc.deps.jsonToString (.obj
    [("from_minor", .ofI64 priorMinor),
      ("to_minor", .ofI64 newTotalMinor),
      ("currency", .str currency),
      ("discount_pct", .ofOption .float params.discountPct),
      ("message", .ofOption .str params.message),
      ("at", .str (svc.deps.rfc3339.print now)),
      ("agent_id", .str input.agent.raw)])

/-
  The offered total: the proposed one, or the percentage off
  the present one, in widened integers.
-/
def negotiatedTotal
    (params : NegotiateParams)
    (originalTotalMinor : Int64) : Svc Int64 :=
  match params.proposedTotal with
  | some proposed => do
      Svc.ensure (!decide (proposed.amountMinor < 0))
        (.invalidRequest
          ("negotiate.proposed_total.amount_minor must be " ++
            "non-negative"))
      pure proposed.amountMinor
  | none =>
      let pct := params.discountPct.getD 0
      let scaled :=
        originalTotalMinor.toInt * svc.deps.pctScale pct
      pure (Int64.ofInt (scaled.tdiv 10000))

def doNegotiate (input : IntentInput) : Svc Outcome := do
  let params ←
    Svc.ofExcept
      (fun e => .invalidRequest ("negotiate.params: " ++ e))
      (svc.deps.negotiateParams input.envelope.params)
  Svc.ensure
    (params.proposedTotal.isSome || params.discountPct.isSome)
    (.invalidRequest
      ("negotiate: either `proposed_total` or " ++
        "`discount_pct` is required"))
  Svc.ensure (params.discountPct.all svc.deps.pctInRange)
    (.invalidRequest
      ("negotiate.discount_pct must be in [0.0, 90.0], got " ++
        svc.deps.pctDisplay (params.discountPct.getD 0)))
  let txnId := params.transactionId
  Svc.withLock (txnLock txnId) do
    let txn ← transactionForInput txnId input
    Svc.ensure (txn.state == .quoted)
      (.preconditionFailed
        ("negotiate: transaction in state " ++
          txn.state.debug ++
          " cannot be re-negotiated; only `quoted` is open " ++
          "to counter-offers"))
    let originalTotalMinor := totalAmountMinor txn.totals
    let newTotalMinor ←
      negotiatedTotal svc params originalTotalMinor
    let currency := txn.currency
    let now ← Svc.act .now
    let updated ←
      Svc.act (.txns (.update txnId
        (.renegotiate originalTotalMinor newTotalMinor currency
          (negotiationEntry svc input params newTotalMinor
            currency now) now)))
    let txn ←
      Svc.orFail
        (.resourceNotFound ("transaction " ++ txnId)) updated
    pure { transaction := txn }

/- Only post-payment states can be confirmed. -/
def receiptConfirmable : TransactionState → Bool
  | .captured | .fulfilled | .completed => true
  | _ => false

def doConfirmReceipt (input : IntentInput) : Svc Outcome := do
  let params ←
    Svc.ofExcept
      (fun e =>
        .invalidRequest ("confirm_receipt.params: " ++ e))
      (svc.deps.confirmReceiptParams input.envelope.params)
  let txnId := params.transactionId
  Svc.withLock (txnLock txnId) do
    let txn ← transactionForInput txnId input
    Svc.ensure (receiptConfirmable txn.state)
      (.preconditionFailed
        ("confirm_receipt: transaction in state " ++
          txn.state.debug ++
          " cannot be confirmed; payment must complete first"))
    Svc.ensure
      ((txn.externalRefs.lookup "receipt_confirmed_at").isNone)
      (.preconditionFailed
        ("confirm_receipt: this transaction's receipt has " ++
          "already been confirmed"))
    let now ← Svc.act .now
    let updated ←
      Svc.act (.txns (.update txnId
        (.confirmReceipt (svc.deps.rfc3339.print now)
          input.agent.raw params.note now)))
    let txn ←
      Svc.orFail
        (.resourceNotFound ("transaction " ++ txnId)) updated
    pure { transaction := txn }

end Service

end IcpHandler
