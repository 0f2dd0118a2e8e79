import Mathlib.Algebra.Order.Ring.Int
import IcpHandler.Model.World

/-
  The helpers every intent family shares: payment checks,
  pricing, the tenant-checked lookups, the reservation of
  mandate spend, the webhook outbox and fresh transactions.

  Main declarations:
    * `priceRequestItems`
    * `transactionForInput`
    * `ensureQuoteOpen`
    * `reserveMandateSpend`
    * `enqueueWebhook`
    * `freshTransaction`
-/

------------------------------------------------------------
-- Payment Instruments
------------------------------------------------------------

namespace IcpHandler

namespace Service

open Model

def requireNonEmpty
    (value : Option String)
    (field : String) : Except ApiError Unit :=
  if value.any fun v => !(Text.trim v).isEmpty then .ok ()
  else .error (.invalidRequest (field ++ " must be non-empty"))

def validatePaymentInstrument
    (payment : PaymentInstrument)
    (executionMode : String) : Except ApiError Unit := do
  match payment with
  | .card token _ _ =>
      requireNonEmpty token "payment.card.token"
  | .delegatedVault token provider =>
      requireNonEmpty (some token)
        "payment.delegated_vault.token"
      if provider.isSome then
        requireNonEmpty provider
          "payment.delegated_vault.provider"
  | .stablecoin asset chain from_ _ =>
      requireNonEmpty (some asset) "payment.stablecoin.asset"
      requireNonEmpty (some chain) "payment.stablecoin.chain"
      requireNonEmpty (some from_) "payment.stablecoin.from"
  | .a2a peerAgentId _ =>
      requireNonEmpty (some peerAgentId)
        "payment.a2a.peer_agent_id"
  | .externalAuthorization provider authorizationId _ =>
      requireNonEmpty (some provider)
        "payment.external_authorization.provider"
      requireNonEmpty (some authorizationId)
        "payment.external_authorization.authorization_id"
  let external :=
    match payment with
    | .externalAuthorization _ _ _ => true
    | _ => false
  if executionMode == "external_required" && !external then
    throw (.preconditionFailed
      ("external payment authorization required by this " ++
        "handler"))

end Service

end IcpHandler

------------------------------------------------------------
-- Periods and Prices
------------------------------------------------------------

namespace IcpHandler

namespace Service

open Model

/- Advance a billing period anchor by one cadence unit. -/
def periodAdvance
    (calendar : Calendar)
    (start : DateTime)
    (cadence : BillingCadence) : DateTime :=
  match cadence with
  | .weekly => start + Duration.days 7
  | .monthly =>
      (calendar.checkedAddMonths start 1).getD
        (start + Duration.days 30)
  | .annual =>
      (calendar.checkedAddMonths start 12).getD
        (start + Duration.days 365)

/- Every cadence moves the anchor forward. -/
theorem lt_periodAdvance
    (calendar : Calendar)
    (start : DateTime)
    (cadence : BillingCadence) :
    start < periodAdvance calendar start cadence := by
  have hMonths :
      ∀ months days, 0 < months → 0 < days →
        start < (calendar.checkedAddMonths start months).getD
          (start + Duration.days days) := by
    intro months days hPos hDays
    cases hLater : calendar.checkedAddMonths start months with
    | none =>
        exact lt_add_of_pos_right start
          (Duration.days_pos hDays)
    | some later =>
        exact calendar.addMonths_lt start months later hPos
          hLater
  cases cadence with
  | weekly =>
      exact lt_add_of_pos_right start
        (Duration.days_pos (by omega))
  | monthly => exact hMonths 1 30 (by omega) (by omega)
  | annual => exact hMonths 12 365 (by omega) (by omega)

/- Flat 8.75% tax, multiplied out in a wider integer. -/
def flatTaxMinor (subtotalMinor : Int64) : Int64 :=
  Int64.ofInt ((subtotalMinor.toInt * 875).tdiv 10000)

/- The loop of `price_request_items` from item `idx` on. -/
def priceLoop
    (currency fieldPrefix : String) :
    Nat → Int64 → List RequestItem →
      Except ApiError (List LineItem × Int64)
  | _, subtotalMinor, [] => .ok ([], subtotalMinor)
  | idx, subtotalMinor, req :: items =>
      let field := fieldPrefix ++ "[" ++ toString idx ++ "]"
      if req.quantity ≤ 0 then
        .error (.invalidRequest
          (field ++ ".quantity must be positive"))
      else
        let unitMinor :=
          (req.unitPriceHint.map Money.amountMinor).getD 1000
        if unitMinor < 0 then
          .error (.invalidRequest
            (field ++ ".unit_price_hint.amount_minor must " ++
              "be non-negative"))
        else
          let lineSubtotal :=
            Saturating.satMul unitMinor req.quantity
          let line : LineItem :=
            { id := "li_" ++ Text.zeroPadded 6 idx
              sku := req.sku
              name := req.sku
              quantity := req.quantity
              unitPrice := .new unitMinor currency
              subtotal := .new lineSubtotal currency
              tax := none
              total := .new lineSubtotal currency }
          (priceLoop currency fieldPrefix (idx + 1)
            (Saturating.satAdd subtotalMinor lineSubtotal)
            items).map fun rest => (line :: rest.1, rest.2)

def priceRequestItems
    (items : List RequestItem)
    (currency fieldPrefix : String) :
    Except ApiError (List LineItem × Totals) :=
  (priceLoop currency fieldPrefix 0 0 items).map fun priced =>
    let taxMinor := flatTaxMinor priced.2
    (priced.1,
      { subtotal := some (.new priced.2 currency)
        discount := none
        shipping := none
        tax := some (.new taxMinor currency)
        total :=
          some (.new (Saturating.satAdd priced.2 taxMinor)
            currency) })

/-
  Apply a discount to priced totals: the tax is taken again on
  what is left of the subtotal.
-/
def applyDiscountToTotals
    (totals : Totals)
    (discountMinor : Int64)
    (currency : String) : Totals :=
  let subtotal :=
    (totals.subtotal.map Money.amountMinor).getD 0
  let discount := max 0 (min discountMinor subtotal)
  let discounted := subtotal - discount
  let tax := flatTaxMinor discounted
  { totals with
    discount := some (.new discount currency)
    tax := some (.new tax currency)
    total :=
      some (.new (Saturating.satAdd discounted tax) currency) }

def totalAmountMinor (totals : Totals) : Int64 :=
  (totals.total.map Money.amountMinor).getD 0

/-
  What an intent would put on the budget, from the line items
  in its parameters.
-/
def estimateIntentAmountMinor
    (envelope : IntentEnvelope) : Int64 :=
  match (envelope.params.get? "items").bind Json.asArray? with
  | none => 0
  | some items =>
      items.foldl
        (fun total item =>
          let qty :=
            ((item.get? "quantity").bind Json.asI64?).getD 0
          let unit :=
            (((item.get? "unit_price_hint").bind
              (Json.get? "amount_minor")).bind
                Json.asI64?).getD 1000
          Saturating.satAdd total (Saturating.satMul qty unit))
        0

end Service

end IcpHandler

------------------------------------------------------------
-- Tenant-Checked Lookups
------------------------------------------------------------

namespace IcpHandler

namespace Service

open Model

def transactionForInput
    (transactionId : String)
    (input : IntentInput) : Svc Transaction := do
  let missing : ApiError :=
    .resourceNotFound ("transaction " ++ transactionId)
  let found ← Svc.act (.txns (.get transactionId))
  let txn ← Svc.orFail missing found
  Svc.ensure (txn.tenantId == input.tenant.tenantId) missing
  pure txn

def subscriptionForInput
    (subscriptionId : String)
    (input : IntentInput) : Svc Subscription := do
  let missing : ApiError :=
    .resourceNotFound ("subscription " ++ subscriptionId)
  let found ← Svc.act (.subs (.get subscriptionId))
  let sub ← Svc.orFail missing found
  Svc.ensure (sub.tenantId == input.tenant.tenantId) missing
  pure sub

def peerQuoteForInput
    (peerQuoteId : String)
    (input : IntentInput) : Svc PeerQuote := do
  let missing : ApiError :=
    .resourceNotFound ("peer_quote " ++ peerQuoteId)
  let found ← Svc.act (.quotes (.get peerQuoteId))
  let quote ← Svc.orFail missing found
  Svc.ensure (quote.tenantId == input.tenant.tenantId) missing
  pure quote

/- Mark a transaction expired if it is still open. -/
def expireOpenQuote
    (txn : Transaction)
    (now : DateTime) : Svc Unit :=
  if txn.state.isOpen then do
    let _ ← Svc.act (.txns (.update txn.id (.expireIfOpen now)))
    pure ()
  else pure ()

/-
  Refuse a transaction whose quote deadline has passed.
-/
def ensureQuoteOpen
    (txn : Transaction)
    (now : DateTime) : Svc Unit :=
  if txn.quoteLapsed now then do
    expireOpenQuote txn now
    Svc.fail (.preconditionFailed
      ("transaction " ++ txn.id ++ " quote has expired"))
  else pure ()

end Service

end IcpHandler

------------------------------------------------------------
-- Mandate Spend
------------------------------------------------------------

namespace IcpHandler

namespace Service

open Model

/-
  Reserve a positive amount on the mandate's budget. Without a
  mandate there is nothing to reserve on.
-/
def reserveMandateSpend
    (mandate : Option MandateEvaluation)
    (tenantId : String)
    (amountMinor : Int64)
    (currency : String) : Svc Unit :=
  match mandate with
  | none => pure ()
  | some ev =>
      if amountMinor ≤ 0 then pure ()
      else do
        let budget := ev.payload.icp.budget
        Svc.ensure
          (Text.eqIgnoreAsciiCase budget.currency currency)
          (.mandateOutOfScope
            ("mandate budget currency `" ++ budget.currency ++
              "` does not match charge currency `" ++
              currency ++ "`"))
        let period ←
          match parsePeriod budget.period with
          | .ok period => pure period
          | .error message => Svc.panic message
        let now ← Svc.act .now
        let result ←
          Svc.act (.recordSpend ev.payload.jti tenantId
            amountMinor now
            { budgetMinor := budget.amountMinor
              perTransaction := budget.perTransaction
              window := period.getD (Duration.days 1) })
        Svc.ofExcept id result

end Service

end IcpHandler

------------------------------------------------------------
-- Webhooks and Fresh Transactions
------------------------------------------------------------

namespace IcpHandler

namespace Service

open Model

variable (svc : IcpService)

/- Queue one delivery for each destination. -/
def enqueueAll
    (event : Event)
    (tenantId : String)
    (payloadJson : String)
    (now : DateTime) : List String → Svc Unit
  | [] => pure ()
  | url :: urls => do
      let token ← Svc.act .uuid
      Svc.act (.enqueue
        { id := "del_" ++ token
          eventId := event.id
          eventType := event.type
          url := url
          payloadJson := payloadJson
          status := .pending
          attempts := 0
          maxAttempts := 5
          nextAttemptAt := now
          lastStatusCode := none
          lastError := none
          createdAt := now
          updatedAt := now
          deliveredAt := none
          tenantId := tenantId })
      enqueueAll event tenantId payloadJson now urls

/-
  Fan an event out to the tenant's subscribers, or to the
  global URL when it has none.
-/
def enqueueWebhook
    (event : Event)
    (tenantId : String) : Svc Unit := do
  let now ← Svc.act .now
  let subscribers ← Svc.act (.activeSubscribers tenantId)
  let globalUrl :=
    match svc.config.webhookUrl, svc.config.webhookSecret with
    | some url, some _ => [url]
    | _, _ => []
  let destinations :=
    if subscribers.isEmpty then globalUrl
    else subscribers.map WebhookSubscriber.url
  enqueueAll event tenantId (svc.deps.eventToString event) now
    destinations

/-
  A transaction under the id the client named, or under a new
  one. Nothing is looked up.
-/
def freshTransaction
    (input : IntentInput)
    (state : TransactionState) : Svc Transaction := do
  let id ←
    match input.envelope.transactionId with
    | some id => pure id
    | none => do
        let token ← Svc.act .uuid
        pure ("txn_" ++ token)
  let createdAt ← Svc.act .now
  let updatedAt ← Svc.act .now
  pure
    { id := id
      state := state
      agentId := input.agent.raw
      tenantId := input.tenant.tenantId
      mandateJti := input.envelope.mandateJti
      currency := input.envelope.context.currency.getD "USD"
      jurisdiction := input.envelope.context.jurisdiction
      buyer := {}
      shipTo := none
      billTo := none
      lineItems := []
      totals := {}
      orderId := none
      quoteExpiresAt := none
      createdAt := createdAt
      updatedAt := updatedAt
      externalRefs := ∅ }

end Service

end IcpHandler
