import IcpHandler.Service.Helpers

/-
  Commerce between two agents: a quote from a peer, and the
  payment of a quote or of a plain amount.

  Main declarations:
    * `doA2aQuote`
    * `doA2aPay`
-/

------------------------------------------------------------
-- Peer Quotes
------------------------------------------------------------

namespace IcpHandler

namespace Service

open Model

variable (svc : IcpService)

/- A quote with a price is ready to be paid. -/
def priceHint
    (hint : Option Money) :
    Svc (PeerQuoteStatus × Option Money) :=
  match hint with
  | some price => do
      Svc.ensure (decide (0 < price.amountMinor))
        (.invalidRequest
          ("a2a_quote.price_hint.amount_minor must be " ++
            "positive"))
      pure (.quoted, some price)
  | none => pure (.pending, none)

def doA2aQuote
    (input : IntentInput)
    (mandate : Option MandateEvaluation) : Svc Outcome := do
  let params ←
    Svc.ofExcept
      (fun e => .invalidRequest ("a2a_quote.params: " ++ e))
      (svc.deps.a2aQuoteParams input.envelope.params)
  Svc.ensure (params.peerAgentId != input.agent.raw)
    (.invalidRequest
      ("a2a_quote: peer_agent_id must differ from the " ++
        "requester agent_id"))
  let now ← Svc.act .now
  let expiresIn :=
    max 1 (min (params.expiresInSeconds.getD 300).toNat 86400)
  let hinted ← priceHint params.priceHint
  let token ← Svc.act .uuid
  let quote : PeerQuote :=
    { id := "pq_" ++ token
      status := hinted.1
      tenantId := input.tenant.tenantId
      requesterAgentId := input.agent.raw
      peerAgentId := params.peerAgentId
      service := params.service
      price := hinted.2
      createdAt := now
      updatedAt := now
      expiresAt := now + Duration.seconds expiresIn
      acceptedAt := none
      chargeTransactionId := none
      mandateJti := mandate.map (·.payload.jti)
      referenceId := params.referenceId }
  Svc.act (.quotes (.insert quote))
  let token ← Svc.act .uuid
  let txn : Transaction :=
    { id := "txn_" ++ token
      state := .draft
      agentId := input.agent.raw
      tenantId := input.tenant.tenantId
      mandateJti := mandate.map (·.payload.jti)
      currency :=
        (quote.price.map Money.currency <|>
          input.envelope.context.currency).getD "USD"
      jurisdiction := input.envelope.context.jurisdiction
      buyer := {}
      shipTo := none
      billTo := none
      lineItems := []
      totals := {}
      orderId := none
      quoteExpiresAt := some quote.expiresAt
      createdAt := now
      updatedAt := now
      externalRefs :=
        (∅ : Refs).insert "peer_quote_id" quote.id }
  Svc.act (.txns (.insert txn))
  pure { transaction := txn, peerQuote := some quote }

end Service

end IcpHandler

------------------------------------------------------------
-- Payment
------------------------------------------------------------

namespace IcpHandler

namespace Service

open Model

variable (svc : IcpService)

/- The lock key of `lock_peer_quote`. -/
def quoteLock (peerQuoteId : String) : String :=
  "peer_quote:" ++ peerQuoteId

/- Production only takes payments authorized elsewhere. -/
def ensureA2aPayment (params : A2aPayParams) : Svc Unit :=
  let mode :=
    if svc.config.isProduction then "external_required"
    else svc.config.paymentExecutionMode
  match params.payment with
  | some payment =>
      Svc.ofExcept id (validatePaymentInstrument payment mode)
  | none =>
      Svc.ensure (mode != "external_required")
        (.preconditionFailed
          ("a2a_pay requires payment.method=" ++
            "external_authorization in external_required mode"))

/- What is paid, to whom, and against which quote. -/
structure A2aTerms where
  peerId : String
  money : Money
  quote : Option PeerQuote

/- Refuse a quote past its deadline, and mark it expired. -/
def ensurePeerQuoteLive
    (quoteId : String)
    (quote : PeerQuote)
    (now : DateTime) : Svc Unit :=
  if quote.expiresAt ≤ now then do
    let _ ← Svc.act (.quotes (.update quoteId (.expire now)))
    Svc.fail
      (.preconditionFailed "a2a_pay: peer_quote has expired")
  else pure ()

/- Pay against a quote. -/
def quoteTerms
    (input : IntentInput)
    (quoteId : String)
    (now : DateTime) : Svc A2aTerms := do
  let quote ← peerQuoteForInput quoteId input
  Svc.ensure (quote.requesterAgentId == input.agent.raw)
    (.preconditionFailed
      ("a2a_pay: requester does not match the quote's " ++
        "requester_agent_id"))
  Svc.ensure (quote.status == .quoted)
    (.preconditionFailed
      ("a2a_pay: peer_quote in state `" ++
        quote.status.wireName ++ "` cannot be paid"))
  ensurePeerQuoteLive quoteId quote now
  let money ←
    Svc.orFail
      (.preconditionFailed
        "a2a_pay: peer_quote has no price set")
      quote.price
  Svc.ensure (decide (0 < money.amountMinor))
    (.preconditionFailed
      "a2a_pay: peer_quote price must be positive")
  pure ⟨quote.peerAgentId, money, some quote⟩

/- Pay an amount to a peer. -/
def directTerms
    (input : IntentInput)
    (params : A2aPayParams) : Svc A2aTerms := do
  let peerId ←
    Svc.orFail
      (.invalidRequest
        ("a2a_pay: either peer_quote_id or peer_agent_id " ++
          "is required"))
      params.peerAgentId
  let money ←
    Svc.orFail
      (.invalidRequest
        "a2a_pay: direct payment requires `amount`")
      params.amount
  Svc.ensure (decide (0 < money.amountMinor))
    (.invalidRequest
      "a2a_pay.amount.amount_minor must be positive")
  Svc.ensure (peerId != input.agent.raw)
    (.invalidRequest "a2a_pay: cannot pay yourself")
  pure ⟨peerId, money, none⟩

/- The references stamped onto the payment. -/
def a2aRefs
    (params : A2aPayParams)
    (terms : A2aTerms) : Refs :=
  let refs := (∅ : Refs).insert "peer_agent_id" terms.peerId
  let refs :=
    match terms.quote with
    | some quote => refs.insert "peer_quote_id" quote.id
    | none => refs
  let refs :=
    match params.memo with
    | some memo => refs.insert "memo" memo
    | none => refs
  let refs :=
    match params.payment with
    | some (.externalAuthorization provider authId hint) =>
        let refs :=
          (refs.insert "settlement_provider" provider).insert
            "settlement_authorization_id" authId
        match hint with
        | some hint =>
            refs.insert "settlement_instrument_hint" hint
        | none => refs
    | _ => refs
  refs.insert "a2a_from" params.from_

/- The body of `do_a2a_pay` once the quote is locked. -/
def payTerms
    (input : IntentInput)
    (mandate : Option MandateEvaluation)
    (params : A2aPayParams) : Svc Outcome := do
  let now ← Svc.act .now
  let terms ←
    match params.peerQuoteId with
    | some quoteId => quoteTerms input quoteId now
    | none => directTerms input params
  let money := terms.money
  reserveMandateSpend mandate input.tenant.tenantId
    money.amountMinor money.currency
  let token ← Svc.act .uuid
  let line : LineItem :=
    { id := "li_a2a"
      sku := "a2a:" ++ terms.peerId
      name := "Peer payment to " ++ terms.peerId
      quantity := 1
      unitPrice := money
      subtotal := money
      tax := none
      total := money }
  let txn : Transaction :=
    { id := "txn_" ++ token
      state := .completed
      agentId := input.agent.raw
      tenantId := input.tenant.tenantId
      mandateJti := mandate.map (·.payload.jti)
      currency := money.currency
      jurisdiction := input.envelope.context.jurisdiction
      buyer := {}
      shipTo := none
      billTo := none
      lineItems := [line]
      totals :=
        { subtotal := some money, total := some money }
      orderId := none
      quoteExpiresAt := none
      createdAt := now
      updatedAt := now
      externalRefs := a2aRefs params terms }
  Svc.act (.txns (.insert txn))
  let updatedQuote ←
    match terms.quote with
    | some quote =>
        Svc.act (.quotes (.update quote.id
          (.accept txn.id now)))
    | none => pure none
  pure { transaction := txn, peerQuote := updatedQuote }

def doA2aPay
    (input : IntentInput)
    (mandate : Option MandateEvaluation) : Svc Outcome := do
  let params ←
    Svc.ofExcept
      (fun e => .invalidRequest ("a2a_pay.params: " ++ e))
      (svc.deps.a2aPayParams input.envelope.params)
  Svc.ensure (!params.from_.isEmpty)
    (.invalidRequest "a2a_pay: `from` is required")
  ensureA2aPayment svc params
  match params.peerQuoteId with
  | some quoteId =>
      Svc.withLock (quoteLock quoteId)
        (payTerms input mandate params)
  | none => payTerms input mandate params

end Service

end IcpHandler
