import IcpHandler.Concurrency.Fallible
import IcpHandler.Service.ApiKeys
import IcpHandler.Service.RedisRateLimiter

/-
  The two doors by which an intent comes in: HTTP, and gRPC.
  Both limit callers before and after they know them, resolve
  the tenant and the agent, and check what the operator asks
  of a request before they pass the intent on to the service.

  Main declarations:
    * `HeaderMap`, `clientIpForRateLimit`
    * `FrontEff`, `FrontWorld`, `frontMachine`
    * `intoResponse`, `toStatus`
    * `admitHttp`, `submitIntentHttp`
    * `admitGrpc`, `submitIntentGrpc`
    * `DoorRequest.prog`
-/

------------------------------------------------------------
-- Headers
------------------------------------------------------------

namespace IcpHandler

namespace Service

open Model

/- Headers, or gRPC metadata: names in lower case. -/
abbrev HeaderMap := List (String × Bytes)

/- `HeaderValue::to_str`, which takes visible ASCII only. -/
def headerText (value : Bytes) : Option String :=
  if value.all fun b => (32 ≤ b && b < 127) || b == 9 then
    some (String.ofList (value.map fun b => Char.ofNat b.toNat))
  else none

namespace HeaderMap

/- `get`, which finds the first value of a name. -/
def get (headers : HeaderMap) (name : String) : Option Bytes :=
  (headers.find? fun header => header.1 == name).map Prod.snd

/- The first value of a name, if it is a text. -/
def text (headers : HeaderMap) (name : String) : Option String :=
  (headers.get name).bind headerText

end HeaderMap

/- A trimmed text, if anything is left of it. -/
def someTrimmed (text : String) : Option String :=
  if (Text.trim text).isEmpty then none
  else some (Text.trim text)

/-
  `client_ip_for_rate_limit`, and the same for metadata: who
  the proxies say the caller is, if they are to be believed.
-/
def clientIpForRateLimit
    (direct : String)
    (headers : HeaderMap)
    (trustProxyHeaders : Bool) : String :=
  let forwarded :=
    (headers.text "x-forwarded-for").bind fun hops =>
      (Text.splitOn ',' hops).head?.bind someTrimmed
  let realIp :=
    (headers.text "x-real-ip").bind someTrimmed
  if trustProxyHeaders then
    (forwarded.or realIp).getD direct
  else direct

end Service

end IcpHandler

------------------------------------------------------------
-- Errors at the Doors
------------------------------------------------------------

namespace IcpHandler

namespace Model

/- `ApiErrorPayload` -/
structure ApiErrorPayload where
  type_ : String
  code : String
  message : String
  param : Option String
  intentId : Option String
  retriable : Bool
  docsUrl : Option String

namespace ApiError

/- `code_and_status` -/
def codeAndStatus : ApiError → String × String × Nat
  | .invalidRequest _ =>
      ("invalid_request", "invalid_request", 400)
  | .authenticationFailed _ =>
      ("authentication_failed", "authentication_failed", 401)
  | .mandateInvalid _ =>
      ("mandate_invalid", "mandate_invalid", 401)
  | .mandateOutOfScope _ =>
      ("mandate_out_of_scope", "mandate_out_of_scope", 403)
  | .mandateBudgetExceeded _ =>
      ("mandate_budget_exceeded", "mandate_budget_exceeded",
        402)
  | .intentNotSupported _ =>
      ("intent_not_supported", "intent_not_supported", 404)
  | .resourceNotFound _ =>
      ("resource_not_found", "resource_not_found", 404)
  | .conflict _ => ("conflict", "conflict", 409)
  | .idempotencyConflict _ =>
      ("conflict", "idempotency_conflict", 409)
  | .preconditionFailed _ =>
      ("precondition_failed", "precondition_failed", 412)
  | .rateLimited => ("rate_limited", "rate_limited", 429)
  | .engineUnavailable _ =>
      ("engine_unavailable", "engine_unavailable", 503)
  | .processingError _ =>
      ("processing_error", "processing_error", 500)

def message : ApiError → String
  | .invalidRequest m => m
  | .authenticationFailed m => m
  | .mandateInvalid m => m
  | .mandateOutOfScope m => m
  | .mandateBudgetExceeded m => m
  | .intentNotSupported m => m
  | .resourceNotFound m => m
  | .conflict m => m
  | .idempotencyConflict m => m
  | .preconditionFailed m => m
  | .rateLimited => "Rate limit exceeded."
  | .engineUnavailable m => m
  | .processingError m => m

def retriable : ApiError → Bool
  | .rateLimited => true
  | .engineUnavailable _ => true
  | _ => false

/- `into_body`, with its status -/
def intoBody (error : ApiError) : Nat × ApiErrorPayload :=
  let (type_, code, status) := error.codeAndStatus
  (status,
    { type_ := type_
      code := code
      message := error.message
      param := none
      intentId := none
      retriable := error.retriable
      docsUrl :=
        some ("https://docs.stateset.com/icp/errors/" ++
          code) })

/- `into_body_with_intent_id` -/
def intoBodyWithIntentId
    (error : ApiError)
    (intentId : Option String) : Nat × ApiErrorPayload :=
  let body := error.intoBody
  (body.1,
    { body.2 with
      intentId := intentId.filter fun id => !id.isEmpty })

end ApiError

end Model

end IcpHandler

namespace IcpHandler

namespace Service

open Model

inductive HttpBody where
  | error (payload : ApiErrorPayload)
  | intent (body : IntentResponseBody)

structure HttpResponse where
  status : Nat
  headers : List (String × String) := []
  body : HttpBody

/- `ApiError::into_response` -/
def intoResponse (error : ApiError) : HttpResponse :=
  let body := error.intoBody
  { status := body.1, body := .error body.2 }

/- `tonic::Code`, by the codes that are used. -/
inductive GrpcCode where
  | invalidArgument
  | unauthenticated
  | permissionDenied
  | resourceExhausted
  | notFound
  | alreadyExists
  | failedPrecondition
  | unavailable
  | internal
  deriving DecidableEq

/- `tonic::Status` -/
structure GrpcStatus where
  code : GrpcCode
  message : String
  deriving DecidableEq

/- `api_error_to_status` -/
def toStatus : ApiError → GrpcStatus
  | .invalidRequest m => ⟨.invalidArgument, m⟩
  | .authenticationFailed m => ⟨.unauthenticated, m⟩
  | .mandateInvalid m => ⟨.unauthenticated, m⟩
  | .mandateOutOfScope m => ⟨.permissionDenied, m⟩
  | .mandateBudgetExceeded m => ⟨.resourceExhausted, m⟩
  | .intentNotSupported m => ⟨.notFound, m⟩
  | .resourceNotFound m => ⟨.notFound, m⟩
  | .conflict m => ⟨.alreadyExists, m⟩
  | .idempotencyConflict m => ⟨.alreadyExists, m⟩
  | .preconditionFailed m => ⟨.failedPrecondition, m⟩
  | .rateLimited => ⟨.resourceExhausted, "rate limited"⟩
  | .engineUnavailable m => ⟨.unavailable, m⟩
  | .processingError m => ⟨.internal, m⟩

end Service

end IcpHandler

------------------------------------------------------------
-- Effects
------------------------------------------------------------

namespace IcpHandler

namespace Service

open Model Concurrency

/-
  The effects of a request at a door. What the service does
  for it are its own effects.
-/
inductive FrontEff where
  -- `check_pre_auth_rate_limit`
  | preAuthLimit (bucketId : String)
  -- `check_tenant_rate_limit`, by what it takes of the key
  | tenantLimit
      (tenantId : String)
      (capacity : Option UInt32)
  | readClock
  | newUuid
  | service (effect : DedupEff)

abbrev FrontEff.Res : FrontEff → Type
  | .preAuthLimit _ => Except ApiError RateLimitDecision
  | .tenantLimit _ _ => Except ApiError RateLimitDecision
  | .readClock => DateTime
  | .newUuid => String
  | .service effect => effect.Res

/-
  What the doors are built over: the service with its keys,
  what the operator asks of a request, and the limiters that
  are shared with other processes.
-/
structure FrontDoors (S : Type) where
  svc : IcpService
  keys : ApiKeyStore
  trustProxyHeaders : Bool := false
  requireIcpVersion : Bool := false
  requireRequestId : Bool := false
  requireIdempotencyKey : Bool := false
  distributed : Option RedisRateLimiter := none
  distributedPreAuth : Option RedisRateLimiter := none
  redis : Redis S
  sha256 : Bytes → Bytes
  -- `HeaderValue::from_str`
  validHeader : String → Bool
  -- `serde_json::from_slice`, of an envelope
  envelopeOfJson : Bytes → Except String IntentEnvelope

/- The stores, and the limiters of the process. -/
structure FrontWorld (S : Type) where
  service : DedupWorld
  limiter : RateLimiter
  preAuthLimiter : RateLimiter
  redis : S

/-
  What the outside decides. A limiter reads a monotonic clock
  of its own; the script of a shared one runs by the clock of
  its server. Where the service checks the limit itself, the
  key that was presented decides about the capacity.
-/
structure FrontChoice extends DedupChoice where
  instant : Nat := 0
  millis : Nat := 0
  executedAt : Nat := 0
  transit : Transit := .answered
  uuid : String := ""
  capacity : Option UInt32 := none

variable {S : Type}

/- `check_pre_auth_rate_limit` -/
def checkPreAuthRateLimit
    (doors : FrontDoors S)
    (c : FrontChoice)
    (w : FrontWorld S)
    (bucketId : String) :
    Except ApiError RateLimitDecision × FrontWorld S :=
  let checked :=
    checkRateLimit doors.redis doors.sha256
      doors.svc.config.isProduction "pre-auth" bucketId none
      w.preAuthLimiter doors.distributedPreAuth c.instant
      c.millis c.executedAt c.transit w.redis
  (checked.1,
    { w with
      preAuthLimiter := checked.2.1
      redis := checked.2.2 })

/- `check_tenant_rate_limit` -/
def checkTenantRateLimit
    (doors : FrontDoors S)
    (c : FrontChoice)
    (w : FrontWorld S)
    (tenantId : String)
    (capacity : Option UInt32) :
    Except ApiError RateLimitDecision × FrontWorld S :=
  let checked :=
    checkRateLimit doors.redis doors.sha256
      doors.svc.config.isProduction "tenant" tenantId capacity
      w.limiter doors.distributed c.instant c.millis
      c.executedAt c.transit w.redis
  (checked.1,
    { w with limiter := checked.2.1, redis := checked.2.2 })

/- The meaning of each effect. -/
def execFront
    (doors : FrontDoors S)
    (thread : Nat)
    (c : FrontChoice)
    (w : FrontWorld S) :
    (effect : FrontEff) → Option (effect.Res × FrontWorld S)
  | .preAuthLimit bucketId =>
      some (checkPreAuthRateLimit doors c w bucketId)
  | .tenantLimit tenantId capacity =>
      some (checkTenantRateLimit doors c w tenantId capacity)
  | .readClock => some (c.clock, w)
  | .newUuid => some (c.uuid, w)
  | .service (.checkTenantRateLimit tenantId) =>
      let checked :=
        checkTenantRateLimit doors c w tenantId c.capacity
      some (checked.1.map RateLimitDecision.isAllowed,
        checked.2)
  | .service effect =>
      (execDedup doors.svc.deps.rfc3339 thread c.toDedupChoice
          w.service effect).map fun result =>
        (result.1, { w with service := result.2 })

/- The machine of the doors. -/
def frontMachine
    (doors : FrontDoors S) :
    Machine FrontEff.Res (FrontWorld S) FrontChoice :=
  ⟨execFront doors⟩

/- A step of a request that may be refused. -/
abbrev Front (ε α : Type) := Fallible FrontEff.Res ε α

/- The answer of an effect of the service. -/
def serviceAnswer
    (effect : DedupEff)
    (answer : (FrontEff.service effect).Res) : effect.Res :=
  answer

/- The service, asked by a door. -/
def callIntent
    (doors : FrontDoors S)
    (input : IntentInput)
    (explicitKey : Option String) :
    Prog FrontEff.Res ExecutionResult :=
  (handleIntentIdempotent doors.svc input explicitKey).via
    FrontEff.service serviceAnswer

/- `IntentInput::for_icp` -/
def forIcp
    (envelope : IntentEnvelope)
    (agent : AgentIdentifier)
    (tenant : ApiKey)
    (mandateJws : Option String)
    (requestId : String)
    (traceId : Option String) : IntentInput :=
  { envelope := envelope
    agent := agent
    tenant := tenant.toApiKeyInfo
    mandateJws := mandateJws
    requestId := requestId
    traceId := traceId
    skipMandateCheck := false
    skipRateLimit := true }

/- What a door passes on, and what it remembers of the limit. -/
structure Admission where
  input : IntentInput
  idempotencyKey : Option String
  limit : UInt32
  remaining : UInt32
  resetInSecs : Nat

end Service

end IcpHandler

------------------------------------------------------------
-- HTTP
------------------------------------------------------------

namespace IcpHandler

namespace Service

open Model Concurrency

variable {S : Type}
variable (doors : FrontDoors S)

/- The bearer token of a request. -/
def httpBearer (headers : HeaderMap) : Option String :=
  (headers.text "authorization").bind
    (Text.stripPrefix "Bearer ")

/- `resolve_tenant` -/
def resolveTenant
    (headers : HeaderMap) : Front ApiError ApiKey := do
  let bearer ←
    Fallible.orFail
      (.authenticationFailed "Bearer token required")
      (httpBearer headers)
  let tenant ←
    Fallible.orFail (.authenticationFailed "unknown API key")
      (doors.keys.lookup bearer)
  let now ← Fallible.act .readClock
  Fallible.ensure (!tenant.isExpiredAt now)
    (.authenticationFailed "API key expired")
  pure tenant

/- `resolve_agent` -/
def resolveAgent
    (headers : HeaderMap) : Front ApiError AgentIdentifier := do
  let raw ←
    Fallible.orFail
      (.authenticationFailed "ICP-Agent-Id header required")
      (headers.text "icp-agent-id")
  pure ⟨raw⟩

/- The text of `ensure_agent_allowed`, at both doors. -/
def agentNotAllowed (agent : AgentIdentifier) : String :=
  "agent `" ++ agent.raw ++ "` is not allowed for this API key"

/- `ensure_agent_allowed` -/
def ensureAgentAllowed
    (tenant : ApiKey)
    (agent : AgentIdentifier) : Front ApiError Unit :=
  Fallible.ensure (tenant.permitsAgent agent.raw)
    (.authenticationFailed (agentNotAllowed agent))

/- The headers of a denial. -/
def deniedResponse
    (scope : List (String × String))
    (limit : UInt32)
    (retryAfterSecs : Nat) : HttpResponse :=
  { intoResponse .rateLimited with
    headers :=
      [("retry-after", toString retryAfterSecs),
        ("x-ratelimit-reset", toString retryAfterSecs),
        ("x-ratelimit-limit", toString limit),
        ("x-ratelimit-remaining", "0")] ++ scope }

/- Go on past a limit, with what is left of it. -/
def passLimit
    {ε : Type}
    (failed : ApiError → ε)
    (denied : UInt32 → Nat → ε) :
    Except ApiError RateLimitDecision →
      Front ε (UInt32 × UInt32 × Nat)
  | .error e => Fallible.fail (failed e)
  | .ok (.denied limit retryAfterSecs) =>
      Fallible.fail (denied limit retryAfterSecs)
  | .ok (.allowed limit remaining resetInSecs) =>
      pure (limit, remaining, resetInSecs)

/- The version, where the operator asks for it. -/
def checkVersionHttp
    (headers : HeaderMap) : Front ApiError Unit :=
  if doors.requireIcpVersion then do
    let got ←
      Fallible.orFail
        (.invalidRequest "ICP-Version header required")
        (headers.text "icp-version")
    Fallible.ensure (got == doors.svc.config.icpVersion)
      (.invalidRequest
        ("ICP-Version `" ++ got ++
          "` not supported; expected `" ++
          doors.svc.config.icpVersion ++ "`"))
  else pure ()

/- A request without an id is given one. -/
def requestIdOr
    {ε : Type} : Option String → Front ε String
  | some requestId => pure requestId
  | none => do
      let uuid ← Fallible.act .newUuid
      pure ("req_" ++ uuid)

/- `submit_intent`, as far as to the service. -/
def admitHttp
    (headers : HeaderMap)
    (envelope : IntentEnvelope) :
    Front HttpResponse Admission := do
  let clientIp :=
    clientIpForRateLimit "direct" headers
      doors.trustProxyHeaders
  let preAuth ← Fallible.act (.preAuthLimit clientIp)
  let _ ←
    passLimit intoResponse
      (deniedResponse [("x-ratelimit-scope", "pre-auth")])
      preAuth
  let tenant ←
    (resolveTenant doors headers).mapError intoResponse
  let agent ← (resolveAgent headers).mapError intoResponse
  (ensureAgentAllowed tenant agent).mapError intoResponse
  (checkVersionHttp doors headers).mapError intoResponse
  let decision ←
    Fallible.act
      (.tenantLimit tenant.tenantId tenant.rateLimitPerMinute)
  let (limit, remaining, resetInSecs) ←
    passLimit intoResponse (deniedResponse []) decision
  let givenId := headers.text "icp-request-id"
  Fallible.ensure
    (givenId.isSome || !doors.requireRequestId)
    (intoResponse (.invalidRequest
      "ICP-Request-Id header required for this handler"))
  let requestId ← requestIdOr givenId
  let idempotencyKey := headers.text "icp-idempotency-key"
  Fallible.ensure
    (idempotencyKey.isSome || !doors.requireIdempotencyKey)
    (intoResponse (.invalidRequest
      "ICP-Idempotency-Key header required for this handler"))
  pure
    { input :=
        forIcp envelope agent tenant
          (headers.text "icp-mandate") requestId
          (headers.text "icp-trace-id")
      idempotencyKey := idempotencyKey
      limit := limit
      remaining := remaining
      resetInSecs := resetInSecs }

/- A header, if its value can be one. -/
def headerOf (name value : String) : List (String × String) :=
  if doors.validHeader value then [(name, value)] else []

/- The headers of a response that carries a receipt. -/
def successHeaders
    (admission : Admission)
    (execution : IntentExecution) : List (String × String) :=
  let receipt := execution.body.receipt
  (if receipt.jws.isEmpty then []
    else
      headerOf doors "icp-receipt" receipt.jws ++
        headerOf doors "icp-receipt-kid" receipt.kid) ++
  (if execution.replayed then
      ("idempotent-replayed", "true") ::
        (match admission.idempotencyKey with
          | some key => headerOf doors "idempotent-key" key
          | none => [])
    else []) ++
  [("x-ratelimit-limit", toString admission.limit),
    ("x-ratelimit-remaining", toString admission.remaining),
    ("x-ratelimit-reset", toString admission.resetInSecs)]

/- What HTTP answers to what the service has come to. -/
def httpResult
    (intentId : Option String)
    (admission : Admission) :
    ExecutionResult → Except String HttpResponse
  | .error (.panicked message) => .error message
  | .error (.error e) =>
      let body := e.intoBodyWithIntentId intentId
      .ok { status := body.1, body := .error body.2 }
  | .ok execution =>
      match doors.svc.deps.bodyToText execution.body with
      | .error e => .ok (intoResponse (.invalidRequest e))
      | .ok _ =>
          .ok
            { status := 200
              headers := successHeaders doors admission execution
              body := .intent execution.body }

/-
  `submit_intent` of HTTP. A panic takes the connection down,
  or the process.
-/
def submitIntentHttp
    (headers : HeaderMap)
    (envelope : IntentEnvelope) :
    Prog FrontEff.Res (Except String HttpResponse) := do
  match ← (admitHttp doors headers envelope).run with
  | .error response => pure (.ok response)
  | .ok admission => do
      let result ←
        callIntent doors admission.input
          admission.idempotencyKey
      pure (httpResult doors envelope.intentId admission result)

end Service

end IcpHandler

------------------------------------------------------------
-- gRPC
------------------------------------------------------------

namespace IcpHandler

namespace Service

open Model Concurrency

/- The `Envelope` message; a field that is unset is empty. -/
structure GrpcEnvelope where
  icpVersion : String := ""
  agentId : String := ""
  requestId : String := ""
  idempotencyKey : String := ""
  mandateJws : String := ""
  traceId : String := ""

/- `IntentRequest`, with its metadata. -/
structure GrpcRequest where
  metadata : HeaderMap
  envelope : Option GrpcEnvelope
  payloadJson : Bytes

/- `IntentResponse`, the payload as a text. -/
structure GrpcResponse where
  payloadJson : String
  receiptJws : String
  receiptKid : String

/- A field that is set. -/
def setField (field : String) : Option String :=
  if field.isEmpty then none else some field

/- `extract_bearer_metadata` -/
def grpcBearer (metadata : HeaderMap) : Option String :=
  (((metadata.get "authorization").or
      (metadata.get "x-api-key")).bind headerText).map
    fun value => (Text.stripPrefix "Bearer " value).getD value

variable {S : Type}
variable (doors : FrontDoors S)

/- `authenticate_bearer` -/
def authenticateBearer
    (bearer : String) : Front GrpcStatus ApiKey := do
  let tenant ←
    Fallible.orFail ⟨.unauthenticated, "unknown API key"⟩
      (doors.keys.lookup bearer)
  let now ← Fallible.act .readClock
  Fallible.ensure (!tenant.isExpiredAt now)
    ⟨.unauthenticated, "API key expired"⟩
  pure tenant

/- What a denial says. -/
def deniedStatus
    (scope : String)
    (limit : UInt32)
    (retryAfterSecs : Nat) : GrpcStatus :=
  ⟨.resourceExhausted,
    scope ++ "rate limited: limit " ++ toString limit ++
      "/min, retry after " ++ toString retryAfterSecs ++ "s"⟩

/- `submit_intent`, as far as to the service. -/
def admitGrpc
    (request : GrpcRequest) : Front GrpcStatus Admission := do
  let clientId :=
    clientIpForRateLimit "grpc" request.metadata
      doors.trustProxyHeaders
  let preAuth ← Fallible.act (.preAuthLimit clientId)
  let _ ←
    passLimit toStatus (deniedStatus "pre-auth ") preAuth
  let apiKey ←
    Fallible.orFail ⟨.unauthenticated, "missing bearer token"⟩
      (grpcBearer request.metadata)
  let tenant ← authenticateBearer doors apiKey
  let decision ←
    Fallible.act
      (.tenantLimit tenant.tenantId tenant.rateLimitPerMinute)
  let (limit, remaining, resetInSecs) ←
    passLimit toStatus (deniedStatus "") decision
  let envelope ←
    Fallible.orFail ⟨.invalidArgument, "envelope required"⟩
      request.envelope
  Fallible.ensure
    (!doors.requireIcpVersion ||
      envelope.icpVersion == doors.svc.config.icpVersion)
    ⟨.invalidArgument,
      "ICP version `" ++ envelope.icpVersion ++
        "` not supported; expected `" ++
        doors.svc.config.icpVersion ++ "`"⟩
  Fallible.ensure
    (!(doors.requireRequestId && envelope.requestId.isEmpty))
    ⟨.invalidArgument, "request_id required"⟩
  Fallible.ensure
    (!(doors.requireIdempotencyKey &&
      envelope.idempotencyKey.isEmpty))
    ⟨.invalidArgument, "idempotency_key required"⟩
  let intentEnv ←
    Fallible.ofExcept
      ((doors.envelopeOfJson request.payloadJson).mapError
        fun e => ⟨.invalidArgument, "payload_json: " ++ e⟩)
  Fallible.ensure (!envelope.agentId.isEmpty)
    ⟨.unauthenticated, "agent_id required"⟩
  let agent : AgentIdentifier := ⟨envelope.agentId⟩
  Fallible.ensure (tenant.permitsAgent agent.raw)
    ⟨.unauthenticated, agentNotAllowed agent⟩
  let requestId ← requestIdOr (setField envelope.requestId)
  pure
    { input :=
        forIcp intentEnv agent tenant
          (setField envelope.mandateJws) requestId
          (setField envelope.traceId)
      idempotencyKey := setField envelope.idempotencyKey
      limit := limit
      remaining := remaining
      resetInSecs := resetInSecs }

/- What gRPC answers to what the service has come to. -/
def grpcResult :
    ExecutionResult →
      Except String (Except GrpcStatus GrpcResponse)
  | .error (.panicked message) => .error message
  | .error (.error e) => .ok (.error (toStatus e))
  | .ok execution =>
      match doors.svc.deps.bodyToText execution.body with
      | .error e =>
          .ok (.error ⟨.internal, "serialize: " ++ e⟩)
      | .ok text =>
          .ok (.ok
            { payloadJson := text
              receiptJws := execution.body.receipt.jws
              receiptKid := execution.body.receipt.kid })

/- `submit_intent` of gRPC -/
def submitIntentGrpc
    (request : GrpcRequest) :
    Prog FrontEff.Res
      (Except String (Except GrpcStatus GrpcResponse)) := do
  match ← (admitGrpc doors request).run with
  | .error status => pure (.ok (.error status))
  | .ok admission => do
      let result ←
        callIntent doors admission.input
          admission.idempotencyKey
      pure (grpcResult doors result)

end Service

end IcpHandler

------------------------------------------------------------
-- Requests
------------------------------------------------------------

namespace IcpHandler

namespace Service

open Model Concurrency

/- A request at one of the doors. -/
inductive DoorRequest where
  | http (headers : HeaderMap) (envelope : IntentEnvelope)
  | grpc (request : GrpcRequest)

inductive DoorReply where
  | http (reply : Except String HttpResponse)
  | grpc (reply : Except String (Except GrpcStatus GrpcResponse))

variable {S : Type}

def DoorRequest.prog
    (doors : FrontDoors S) :
    DoorRequest → Prog FrontEff.Res DoorReply
  | .http headers envelope => do
      let reply ← submitIntentHttp doors headers envelope
      pure (.http reply)
  | .grpc request => do
      let reply ← submitIntentGrpc doors request
      pure (.grpc reply)

/- One request on every thread. -/
def doorPool
    (doors : FrontDoors S)
    (requests : Nat → DoorRequest)
    (w : FrontWorld S) :
    Pool FrontEff.Res (FrontWorld S) DoorReply where
  history := .start w
  threads thread := (requests thread).prog doors

end Service

end IcpHandler
