import IcpHandler.Model.WireFormat
import IcpHandler.Service.Idempotent

/-
  Checkout sessions of the two compatible protocols. A session
  is a transaction, and an update of it is an authorization by
  an agent that stands for the tenant itself.

  Main declarations:
    * `CompatBuyer`, `CompatAddress`
    * `UpdateSessionBody`, `UpdateCheckoutBody`
    * `CompatContext`, `IntentInput.forCompat`
    * `updateParams`, `runCompat`
    * `updateSession`, `updateCheckout`
    * `acpStatus`
    * `AuthorizeParams.ofJson?`
-/

------------------------------------------------------------
-- Bodies
------------------------------------------------------------

namespace IcpHandler

namespace Service

open Model

/- `AcpBuyer` and `UcpBuyer` -/
structure CompatBuyer where
  firstName : Option String := none
  lastName : Option String := none
  email : Option String := none
  phoneNumber : Option String := none

abbrev AcpBuyer := CompatBuyer

abbrev UcpBuyer := CompatBuyer

/- `AcpAddress` and `UcpAddress` -/
structure CompatAddress where
  name : Option String := none
  lineOne : Option String := none
  lineTwo : Option String := none
  city : Option String := none
  state : Option String := none
  postalCode : Option String := none
  country : Option String := none

abbrev AcpAddress := CompatAddress

abbrev UcpAddress := CompatAddress

/- The items of an update are read by neither protocol. -/
structure UpdateSessionBody where
  buyer : Option AcpBuyer := none
  fulfillmentAddress : Option AcpAddress := none

structure FulfillmentInput where
  address : Option UcpAddress := none

structure UpdateCheckoutBody where
  buyer : Option UcpBuyer := none
  fulfillment : Option FulfillmentInput := none

/- `map_buyer` -/
def CompatBuyer.toIcp (b : CompatBuyer) : Buyer :=
  { firstName := b.firstName
    lastName := b.lastName
    email := b.email
    phoneNumber := b.phoneNumber
    principalDid := none }

/- `map_address` -/
def CompatAddress.toIcp (a : CompatAddress) : Address :=
  { name := a.name
    lineOne := a.lineOne
    lineTwo := a.lineTwo
    city := a.city
    state := a.state
    postalCode := a.postalCode
    country := a.country
    phoneNumber := none
    email := none }

end Service

end IcpHandler

------------------------------------------------------------
-- Updates
------------------------------------------------------------

namespace IcpHandler

namespace Service

open Model Concurrency

/- What the headers of a request have been found to say. -/
structure CompatContext where
  tenant : ApiKeyInfo
  agent : AgentIdentifier
  requestId : String
  traceId : Option String

/- `IntentInput::for_compat` -/
def forCompat
    (ctx : CompatContext)
    (envelope : IntentEnvelope) : IntentInput :=
  { envelope
    agent := ctx.agent
    tenant := ctx.tenant
    mandateJws := none
    requestId := ctx.requestId
    traceId := ctx.traceId
    skipMandateCheck := true
    skipRateLimit := false }

/- `base_envelope` -/
def compatEnvelope
    (ctx : CompatContext)
    (intent : Intent)
    (params : Json) : IntentEnvelope :=
  { intent := intent.wireName
    agentId := ctx.agent.raw
    params }

/- `run_intent` -/
def runCompat
    (svc : IcpService)
    (ctx : CompatContext)
    (intent : Intent)
    (params : Json)
    (idempotencyKey : Option String) :
    Prog DedupEff.Res ExecutionResult :=
  handleIntentIdempotent svc
    (forCompat ctx (compatEnvelope ctx intent params))
    idempotencyKey

/- The parameters of an update, with what it brings. -/
def updateMembers
    (id : String)
    (buyer : Option Buyer)
    (shipTo : Option Address) : Members where
  fields :=
    [("buyer", buyer.map Buyer.toJson),
      ("ship_to", shipTo.map Address.toJson),
      ("transaction_id", some (.str id))]
  sorted := by
    simp only [List.map_cons, List.map_nil]
    decide

def updateParams
    (id : String)
    (buyer : Option Buyer)
    (shipTo : Option Address) : Json :=
  (updateMembers id buyer shipTo).toJson

/- `update_session`, of ACP -/
def updateSession
    (svc : IcpService)
    (ctx : CompatContext)
    (id : String)
    (body : UpdateSessionBody) :
    Prog DedupEff.Res ExecutionResult :=
  let buyer := body.buyer.map CompatBuyer.toIcp
  let shipTo := body.fulfillmentAddress.map CompatAddress.toIcp
  runCompat svc ctx .authorize (updateParams id buyer shipTo)
    none

/- `update_checkout`, of UCP -/
def updateCheckout
    (svc : IcpService)
    (ctx : CompatContext)
    (id : String)
    (body : UpdateCheckoutBody) :
    Prog DedupEff.Res ExecutionResult :=
  let buyer := body.buyer.map CompatBuyer.toIcp
  let shipTo :=
    (body.fulfillment.bind FulfillmentInput.address).map
      CompatAddress.toIcp
  runCompat svc ctx .authorize (updateParams id buyer shipTo)
    none

/- The status of a session, in `session_view` of ACP. -/
def acpStatus : TransactionState → String
  | .quoted => "not_ready_for_payment"
  | .authorized => "ready_for_payment"
  | .completed | .captured | .fulfilled => "completed"
  | .reversed | .canceled | .expired => "canceled"
  | .draft => "not_ready_for_payment"

end Service

end IcpHandler

------------------------------------------------------------
-- What an Update Is Decoded As
------------------------------------------------------------

namespace IcpHandler

namespace Model

/- What the derived decoder of `AuthorizeParams` reads. -/
def AuthorizeParams.ofJson?
    (json : Json) : Option AuthorizeParams := do
  let transactionId ←
    required "transaction_id" Json.asStr? json
  let buyer ← optional "buyer" Buyer.ofJson? json
  let shipTo ← optional "ship_to" Address.ofJson? json
  let billTo ← optional "bill_to" Address.ofJson? json
  pure { transactionId, buyer, shipTo, billTo }

end Model

namespace Service

open Model

/- An update is read back as what it brings. -/
theorem ofJson?_updateParams
    (id : String)
    (buyer : Option Buyer)
    (shipTo : Option Address) :
    AuthorizeParams.ofJson? (updateParams id buyer shipTo) =
      some
        { transactionId := id
          buyer
          shipTo
          billTo := none } := by
  unfold AuthorizeParams.ofJson? updateParams
  refine read_then (required_toJson rfl rfl) ?_
  refine read_then
    (optional_skipped rfl Buyer.ofJson?_toJson
      fun buyer => buyer.members.toJson_ne_null) ?_
  refine read_then
    (optional_skipped rfl Address.ofJson?_toJson
      fun address => address.members.toJson_ne_null) ?_
  have hNoBill :
      optional "bill_to" Address.ofJson?
        (updateMembers id buyer shipTo).toJson = some none := by
    cases buyer with
    | none =>
        cases shipTo with
        | none => rfl
        | some address => rfl
    | some found =>
        cases shipTo with
        | none => rfl
        | some address => rfl
  exact read_then hNoBill rfl

end Service

end IcpHandler
