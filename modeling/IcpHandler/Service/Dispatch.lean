import IcpHandler.Service.A2a
import IcpHandler.Service.Lifecycle

/-
  The intent pipeline: evaluate the mandate, route the intent,
  sign the receipt, announce the event. An operation of the
  handler is an intent or one of the two ticks.

  Main declarations:
    * `verifySignature`
    * `evaluate`
    * `dispatch`
    * `handleIntent`
    * `Op`
-/

------------------------------------------------------------
-- Mandate Evaluation
------------------------------------------------------------

namespace IcpHandler

namespace Service

open Model

variable (svc : IcpService)

/- A segment of the JWS, or the error that names it. -/
def decodeSegment
    (name segment : String) : Svc (List UInt8) :=
  Svc.orFail
    (.mandateInvalid ("mandate: " ++ name ++ " not base64url"))
    (svc.deps.base64Decode segment)

def decodeUnverified
    (compactJws : String) : Svc MandatePayload := do
  let parts ← Svc.ofExcept id (splitCompact compactJws)
  let bytes ← decodeSegment svc "payload" parts.2.1
  Svc.ofExcept
    (fun e => .mandateInvalid ("mandate: " ++ e))
    (svc.deps.mandatePayload bytes)

/- One mandate is decoded beforehand, and the others as ever. -/
theorem decodeUnverified_at
    {svc : IcpService}
    {compactJws header segment signature : String}
    {bytes : List UInt8}
    {payload : MandatePayload}
    (hSplit :
      splitCompact compactJws =
        .ok (header, segment, signature))
    (hBytes : svc.deps.base64Decode segment = some bytes)
    (hPayload : svc.deps.mandatePayload bytes = .ok payload) :
    decodeUnverified svc = fun other =>
      if other = compactJws then pure payload
      else decodeUnverified svc other := by
  funext other
  by_cases hSame : other = compactJws
  · rw [if_pos hSame, hSame]
    simp only [decodeUnverified, decodeSegment, hSplit]
    change Svc.orFail _ (svc.deps.base64Decode segment) >>= _ = _
    rw [hBytes]
    change Svc.ofExcept _ (svc.deps.mandatePayload bytes) = _
    rw [hPayload]
    rfl
  · rw [if_neg hSame]

/-
  The keys to try: those with the advertised id first. The
  header may advertise none.
-/
def candidateKeys
    (kid : Option String)
    (keys : List VerifyingKeyEntry) :
    List VerifyingKeyEntry :=
  match kid with
  | none => keys
  | some kid =>
      keys.filter (fun key => key.kid == some kid) ++
        keys.filter fun key => key.kid != some kid

def verifySignature
    (compactJws issuerDid : String) : Svc Unit := do
  let parts ← Svc.ofExcept id (splitCompact compactJws)
  let headerBytes ← decodeSegment svc "header" parts.1
  let header ←
    Svc.ofExcept
      (fun e =>
        .mandateInvalid ("mandate: header JSON: " ++ e))
      (svc.deps.jwsHeader headerBytes)
  Svc.ensure (header.alg != "none")
    (.mandateInvalid
      ("mandate: `alg:none` rejected when signature " ++
        "verification is enabled"))
  Svc.ensure (header.alg == "EdDSA")
    (.mandateInvalid
      ("mandate: unsupported alg `" ++ header.alg ++
        "` (only EdDSA accepted)"))
  let signature ← decodeSegment svc "signature" parts.2.2
  Svc.ensure (signature.length == 64)
    (.mandateInvalid
      ("mandate: Ed25519 signature must be 64 bytes, got " ++
        toString signature.length))
  let resolved ← Svc.act (.resolve issuerDid)
  let keys ←
    Svc.ofExcept
      (fun e => .mandateInvalid ("principal resolve: " ++ e))
      resolved
  let candidates := candidateKeys header.kid keys
  Svc.ensure (!candidates.isEmpty)
    (.mandateInvalid
      "principal advertises no verifying keys")
  let signingInput := parts.1 ++ "." ++ parts.2.1
  Svc.ensure
    (candidates.any fun candidate =>
      svc.deps.verify candidate.key signingInput signature)
    (.mandateInvalid
      ("mandate: signature did not verify against principal " ++
        "keyset"))

/- The window of a budget; `parse_period` may panic. -/
def budgetPeriod
    (text : Option String) : Svc (Option Duration) :=
  match parsePeriod text with
  | .ok period => pure period
  | .error message => Svc.panic message

/- Whether the signature has been verified. -/
def signatureVerified
    (compactJws issuerDid : String) : Svc Bool :=
  if svc.config.verifyMandateSignatures then do
    verifySignature svc compactJws issuerDid
    pure true
  else pure false

def evaluate
    (compactJws intentScope : String)
    (candidateAmountMinor : Int64)
    (now : DateTime)
    (tenantId : String)
    (jurisdiction : Option String) :
    Svc MandateEvaluation := do
  let payload ← decodeUnverified svc compactJws
  Svc.ofExcept id
    (payload.checkTerms svc.deps.calendar.fromTimestamp
      intentScope candidateAmountMinor now tenantId
      jurisdiction)
  let read ← Svc.act (.tryUsage payload.jti)
  let usage ← Svc.ofExcept id read
  let period ← budgetPeriod payload.icp.budget.period
  let window := period.getD (Duration.days 1)
  let elapsed :=
    usage.windowStart.any fun start => now - start > window
  let effectiveSpent := if elapsed then 0 else usage.spentMinor
  let remaining :=
    Saturating.satSub payload.icp.budget.amountMinor
      effectiveSpent
  Svc.ensure (!decide (candidateAmountMinor > remaining))
    (MandateLedger.exceedsRemaining candidateAmountMinor
      remaining)
  let verified ← signatureVerified svc compactJws payload.iss
  pure
    { payload := payload
      compactJws := compactJws
      spendRoomMinor := remaining
      signatureVerified := verified }

/- The mandate of an intent, when it needs and brings one. -/
def mandateFor
    (input : IntentInput)
    (intent : Intent) : Svc (Option MandateEvaluation) :=
  match intent.scope, input.skipMandateCheck with
  | some scope, false =>
      match input.mandateJws with
      | some jws => do
          let now ← Svc.act .now
          let evaluation ←
            evaluate svc jws scope
              (estimateIntentAmountMinor input.envelope) now
              input.tenant.tenantId
              input.envelope.context.jurisdiction
          pure (some evaluation)
      | none =>
          if svc.config.requireMandate then
            Svc.fail (.mandateInvalid
              ("ICP-Mandate header required for this intent " ++
                "scope"))
          else pure none
  | _, _ => pure none

/- A mandate authorizes its subject only. -/
def ensureSubject
    (input : IntentInput)
    (mandate : Option MandateEvaluation) : Svc Unit :=
  match mandate with
  | none => pure ()
  | some ev =>
      Svc.ensure (ev.payload.sub == input.agent.raw)
        (.mandateOutOfScope
          ("mandate subject `" ++ ev.payload.sub ++
            "` does not authorize agent `" ++
            input.agent.raw ++ "`"))

end Service

end IcpHandler

------------------------------------------------------------
-- Routing
------------------------------------------------------------

namespace IcpHandler

namespace Service

open Model

variable (svc : IcpService)

def dispatch
    (intent : Intent)
    (input : IntentInput)
    (mandate : Option MandateEvaluation) : Svc Outcome :=
  match intent with
  | .search => doSearch input
  | .describe => doDescribe input
  | .quote => doQuote svc input
  | .authorize => doAuthorize svc input
  | .buy | .pay => doBuy svc input mandate
  | .track => doTrack input
  | .return => doReturn input
  | .refundRequest => doRefundRequest input
  | .subscribe => doSubscribe svc input mandate
  | .renew => doRenew svc input mandate
  | .pause => doPause svc input
  | .cancelSubscription => doCancelSubscription svc input
  | .a2aQuote => doA2aQuote svc input mandate
  | .a2aPay => doA2aPay svc input mandate
  | .negotiate => doNegotiate svc input
  | .confirmReceipt => doConfirmReceipt svc input

end Service

end IcpHandler

------------------------------------------------------------
-- Receipts and Events
------------------------------------------------------------

namespace IcpHandler

namespace Service

open Model

variable (svc : IcpService)

/- `ReceiptSigner::sign_receipt`, and the store of receipts. -/
def signReceipt
    (intent : Intent)
    (input : IntentInput)
    (mandate : Option MandateEvaluation)
    (body : IntentResponseBody) : Svc ReceiptStub := do
  let bytes ←
    Svc.ofExcept (fun e => .processingError ("jcs: " ++ e))
      (svc.deps.jcsBody body)
  let bodyDigest := "sha256:" ++ svc.deps.bodySha256 bytes
  let now ← Svc.act .now
  let token ← Svc.act .uuid
  let claims : ReceiptClaims :=
    { iss := svc.config.publicBaseUrl
      aud := input.agent.raw
      iat := svc.deps.timestamp now
      jti := "rcpt_" ++ token
      icp :=
        { version := "2026-04-21"
          intent := intent.wireName
          transactionId := body.transaction.id
          orderId := body.order.map OrderSummary.id
          mandateJti := mandate.map (·.payload.jti)
          bodyDigest := bodyDigest
          bodyCanonicalization := "jcs" } }
  let signed ← Svc.act (.signClaims claims)
  let jws ←
    Svc.ofExcept (fun e => .processingError ("sign: " ++ e))
      signed
  Svc.act (.insertReceipt
    { jti := claims.jti
      kid := svc.signerKid
      jws := jws
      bodyDigest := bodyDigest
      claims := claims })
  pure
    { jti := claims.jti
      kid := svc.signerKid
      jws := jws
      bodyDigest := bodyDigest }

/- The event type of the dominant aggregate. -/
def eventType
    (intent : Intent)
    (outcome : Outcome) : String :=
  match outcome.peerQuote, outcome.subscription, intent with
  | some quote, _, _ => "peer_quote." ++ quote.status.wireName
  | none, some sub, _ => "subscription." ++ sub.status.wireName
  | none, none, .negotiate => "transaction.renegotiated"
  | none, none, .confirmReceipt =>
      "transaction.receipt_confirmed"
  | none, none, _ =>
      "transaction." ++ outcome.transaction.state.wireName

/- The id of the intent, made up where the client has none. -/
def intentIdFor (input : IntentInput) : Svc String :=
  match input.envelope.intentId with
  | some id => pure id
  | none => do
      let token ← Svc.act .uuid
      pure ("int_" ++ token)

/- The receipt before, or without, a signature. -/
def unsignedReceipt : ReceiptStub :=
  { jti := "", kid := svc.signerKid, jws := "",
    bodyDigest := "" }

/- Only a state change is signed. -/
def receiptFor
    (intent : Intent)
    (input : IntentInput)
    (mandate : Option MandateEvaluation)
    (body : IntentResponseBody) : Svc ReceiptStub :=
  if intent.isStateChange then
    signReceipt svc intent input mandate body
  else pure (unsignedReceipt svc)

/- The event of an intent, on the webhooks and on the bus. -/
def announce
    (intent : Intent)
    (input : IntentInput)
    (outcome : Outcome)
    (body : IntentResponseBody) : Svc Unit := do
  let token ← Svc.act .uuid
  let occurredAt ← Svc.act .now
  let event : Event :=
    { id := "evt_" ++ token
      type := eventType intent outcome
      transactionId := some outcome.transaction.id
      orderId := outcome.order.map OrderSummary.id
      agentId := some input.agent.raw
      occurredAt := occurredAt
      payload := svc.deps.bodyToJson body }
  if intent.isStateChange then
    enqueueWebhook svc event input.tenant.tenantId
  else pure ()
  Svc.act (.emit event)

/- Everything after the intent has been carried out. -/
def respond
    (intent : Intent)
    (input : IntentInput)
    (mandate : Option MandateEvaluation)
    (outcome : Outcome) : Svc IntentResponseBody := do
  let issuedAt ← Svc.act .now
  let intentId ← intentIdFor input
  let body : IntentResponseBody :=
    { intent := intent.wireName
      intentId := intentId
      transaction := outcome.transaction
      order := outcome.order
      subscription := outcome.subscription
      peerQuote := outcome.peerQuote
      receipt := unsignedReceipt svc
      envelope :=
        { icpVersion := svc.config.icpVersion
          requestId := input.requestId
          traceId := input.traceId
          issuedAt := issuedAt } }
  let receipt ← receiptFor svc intent input mandate body
  let body := { body with receipt := receipt }
  announce svc intent input outcome body
  pure body

def handleIntent
    (input : IntentInput) : Svc IntentResponseBody := do
  Svc.ensure (input.envelope.agentId == input.agent.raw)
    (.authenticationFailed
      ("envelope.agent_id `" ++ input.envelope.agentId ++
        "` does not match ICP-Agent-Id `" ++
        input.agent.raw ++ "`"))
  let intent ←
    Svc.ofExcept id (Intent.parse input.envelope.intent)
  let mandate ← mandateFor svc input intent
  ensureSubject input mandate
  let outcome ← dispatch svc intent input mandate
  respond svc intent input mandate outcome

end Service

end IcpHandler

------------------------------------------------------------
-- Operations
------------------------------------------------------------

namespace IcpHandler

namespace Service

open Model Concurrency

/- What the handler can be asked to run. -/
inductive Op where
  | intent (input : IntentInput)
  | tickSubscriptions (now : DateTime)
  | tickExpiries (now : DateTime)

/- What an operation ends with. -/
inductive OpResult where
  | response (result : Except Halt IntentResponseBody)
  | renewals (result : Except Halt SchedulerTickReport)
  | expiries (result : Except Halt ExpiryTickReport)

/- The program of an operation. -/
def Op.prog
    (svc : IcpService) : Op → Prog Eff.Res OpResult
  | .intent input => do
      let result ← (handleIntent svc input).run
      pure (.response result)
  | .tickSubscriptions now => do
      let result ← (Service.tickSubscriptions svc now).run
      pure (.renewals result)
  | .tickExpiries now => do
      let result ← (Service.tickExpiries svc now).run
      pure (.expiries result)

end Service

end IcpHandler
