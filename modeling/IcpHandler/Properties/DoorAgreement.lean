import IcpHandler.Data.Results
import IcpHandler.Properties.AdmittedIntents

/-
  Both doors let the same requests in. They check in different
  orders and answer in different words, but a request that
  comes in over HTTP comes in over gRPC as well, and asks the
  service for the same.

  Main declarations:
    * `AdmittedOn`
    * `admitHttp_ok_iff`, `admitGrpc_ok_iff`
    * `overGrpc`
    * `doors_admit_alike`
-/

------------------------------------------------------------
-- What is Let In
------------------------------------------------------------

namespace IcpHandler

namespace Protocol

open Model Service Concurrency Data.Results

variable {S : Type}

/- The answers that a request at a door is given. -/
abbrev FrontAnswers := ∀ effect : FrontEff, effect.Res

/- The bearer token is a key that has not expired. -/
def KnownOn
    (doors : FrontDoors S)
    (answers : FrontAnswers)
    (bearer : Option String)
    (key : ApiKey) : Prop :=
  bearer.bind doors.keys.lookup = some key ∧
    key.isExpiredAt (answers .readClock) = false

/- The id that a request goes by. -/
def requestIdOn
    (answers : FrontAnswers)
    (request : DoorRequest) : String :=
  request.requestId.getD ("req_" ++ answers .newUuid)

/-
  When a request is let in, told from its parts and from what
  it is answered, and what it then asks of the service.
-/
structure AdmittedOn
    (doors : FrontDoors S)
    (answers : FrontAnswers)
    (request : DoorRequest)
    (admission : Admission)
    (key : ApiKey)
    (agentId : String)
    (envelope : IntentEnvelope) : Prop where
  preAuth :
    ∃ left : UInt32 × UInt32 × Nat,
      answers (.preAuthLimit (request.clientId doors)) =
        .ok (.allowed left.1 left.2.1 left.2.2)
  known : KnownOn doors answers request.bearer key
  agent : request.agentId = some agentId
  permitted : key.permitsAgent agentId = true
  version :
    doors.requireIcpVersion = true →
      request.version = some doors.svc.config.icpVersion
  limit :
    answers
        (.tenantLimit key.tenantId key.rateLimitPerMinute) =
      .ok (.allowed admission.limit admission.remaining
        admission.resetInSecs)
  requestId :
    doors.requireRequestId = true →
      request.requestId.isSome = true
  idempotency :
    doors.requireIdempotencyKey = true →
      request.idempotencyKey.isSome = true
  parsed : request.envelope doors = some envelope
  input :
    admission.input =
      forIcp envelope ⟨agentId⟩ key request.mandateJws
        (requestIdOn answers request) request.traceId
  explicitKey :
    admission.idempotencyKey = request.idempotencyKey

section Outcomes

variable {doors : FrontDoors S}
variable {answers : FrontAnswers}
variable {admission : Admission}

theorem outcome_passLimit_ok
    {ε : Type}
    {failed : ApiError → ε}
    {denied : UInt32 → Nat → ε}
    {decision : Except ApiError RateLimitDecision}
    {left : UInt32 × UInt32 × Nat} :
    Fallible.outcome answers (passLimit failed denied decision) =
        .ok left ↔
      decision = .ok (.allowed left.1 left.2.1 left.2.2) := by
  unfold passLimit
  rcases decision with e | decision
  · simp
  · cases decision with
    | denied limit seconds => simp
    | allowed limit remaining seconds =>
        simp [Prod.ext_iff]

theorem outcome_requestIdOr_ok
    {ε : Type}
    {given : Option String}
    {requestId : String} :
    Fallible.outcome answers
        (requestIdOr given : Front ε String) =
          .ok requestId ↔
      given.getD ("req_" ++ answers .newUuid) = requestId := by
  cases given with
  | some id => simp [requestIdOr]
  | none =>
      simp only [requestIdOr, Fallible.outcome_bind_ok,
        Fallible.outcome_act_ok, Fallible.outcome_pure_ok,
        exists_eq_left', Option.getD_none]

theorem outcome_checkVersionHttp_ok
    {headers : HeaderMap}
    {done : Unit} :
    Fallible.outcome answers (checkVersionHttp doors headers) =
        .ok done ↔
      (doors.requireIcpVersion = true →
        headers.text "icp-version" =
          some doors.svc.config.icpVersion) := by
  unfold checkVersionHttp
  split
  · rename_i hAsked
    simp only [Fallible.outcome_bind_ok,
      Fallible.outcome_orFail_ok, Fallible.outcome_ensure_ok,
      beq_iff_eq, hAsked, forall_true_left]
    constructor
    · rintro ⟨got, hGot, rfl⟩
      exact hGot
    · intro hGot
      exact ⟨_, hGot, rfl⟩
  · rename_i hAsked
    simp [hAsked]

/- A text that is asked for has to be there. -/
theorem given_iff
    {given : Option String}
    {asked : Bool} :
    (given.isSome || !asked) = true ↔
      (asked = true → given.isSome = true) := by
  cases asked with
  | true => simp
  | false => simp

theorem outcome_resolveTenant_ok
    {headers : HeaderMap}
    {key : ApiKey} :
    Fallible.outcome answers (resolveTenant doors headers) =
        .ok key ↔
      KnownOn doors answers (httpBearer headers) key := by
  simp only [resolveTenant, Fallible.outcome_bind_ok,
    Fallible.outcome_act_ok, Fallible.outcome_orFail_ok,
    Fallible.outcome_ensure_ok, Fallible.outcome_pure_ok,
    exists_eq_left', exists_const, Bool.not_eq_true',
    KnownOn, Option.bind_eq_some_iff]
  constructor
  · rintro ⟨bearer, hBearer, other, hLookup, hValid, rfl⟩
    exact ⟨⟨bearer, hBearer, hLookup⟩, hValid⟩
  · rintro ⟨⟨bearer, hBearer, hLookup⟩, hValid⟩
    exact ⟨bearer, hBearer, key, hLookup, hValid, rfl⟩

/- When HTTP lets a request in. -/
theorem admitHttp_ok_iff
    {headers : HeaderMap}
    {envelope : IntentEnvelope} :
    Fallible.outcome answers
        (admitHttp doors headers envelope) = .ok admission ↔
      ∃ key agentId other,
        AdmittedOn doors answers (.http headers envelope)
          admission key agentId other := by
  simp only [admitHttp, resolveAgent, ensureAgentAllowed,
    Fallible.outcome_bind_ok, Fallible.outcome_act_ok,
    Fallible.outcome_mapError_ok, Fallible.outcome_orFail_ok,
    Fallible.outcome_ensure_ok, Fallible.outcome_pure_ok,
    outcome_passLimit_ok, outcome_requestIdOr_ok,
    outcome_checkVersionHttp_ok, outcome_resolveTenant_ok,
    given_iff, exists_eq_left', exists_const]
  constructor
  · rintro ⟨left, hPreAuth, key, hKnown, agent,
      ⟨agentId, hAgent, rfl⟩, hAllowed, hVersion, rest, hLimit,
      hAskedId, hAskedKey, rfl⟩
    exact ⟨key, agentId, envelope, ⟨left, hPreAuth⟩, hKnown,
      hAgent, hAllowed, hVersion, hLimit, hAskedId, hAskedKey,
      rfl, rfl, rfl⟩
  · rintro ⟨key, agentId, other, ⟨left, hPreAuth⟩, hKnown,
      hAgent, hAllowed, hVersion, hLimit, hAskedId, hAskedKey,
      hEnvelope, hInput, hExplicit⟩
    cases hEnvelope
    rcases admission with ⟨input, explicitKey, limit⟩
    cases hInput
    cases hExplicit
    exact ⟨left, hPreAuth, key, hKnown, ⟨agentId⟩,
      ⟨agentId, hAgent, rfl⟩, hAllowed, hVersion,
      (limit, _, _), hLimit, hAskedId, hAskedKey, rfl⟩

theorem outcome_authenticateBearer_ok
    {bearer : String}
    {key : ApiKey} :
    Fallible.outcome answers (authenticateBearer doors bearer) =
        .ok key ↔
      KnownOn doors answers (some bearer) key := by
  simp only [authenticateBearer, Fallible.outcome_bind_ok,
    Fallible.outcome_act_ok, Fallible.outcome_orFail_ok,
    Fallible.outcome_ensure_ok, Fallible.outcome_pure_ok,
    exists_eq_left', exists_const, Bool.not_eq_true',
    KnownOn, Option.bind_some]
  constructor
  · rintro ⟨other, hLookup, hValid, rfl⟩
    exact ⟨hLookup, hValid⟩
  · rintro ⟨hLookup, hValid⟩
    exact ⟨key, hLookup, hValid, rfl⟩

theorem setField_eq_some {field value : String} :
    setField field = some value ↔
      field.isEmpty = false ∧ field = value := by
  unfold setField
  cases hEmpty : field.isEmpty with
  | true => simp
  | false => simp

/- A field that is asked for has to be set. -/
theorem set_iff
    {field : String}
    {asked : Bool} :
    (!(asked && field.isEmpty)) = true ↔
      (asked = true → (setField field).isSome = true) := by
  rw [isSome_setField]
  cases asked with
  | true => simp
  | false => simp

/- When gRPC lets a request in. -/
theorem admitGrpc_ok_iff
    {request : GrpcRequest} :
    Fallible.outcome answers (admitGrpc doors request) =
        .ok admission ↔
      ∃ key agentId envelope,
        AdmittedOn doors answers (.grpc request) admission key
          agentId envelope := by
  simp only [admitGrpc, Fallible.outcome_bind_ok,
    Fallible.outcome_act_ok, Fallible.outcome_orFail_ok,
    Fallible.outcome_ensure_ok, Fallible.outcome_pure_ok,
    Fallible.outcome_ofExcept_ok, outcome_passLimit_ok,
    outcome_requestIdOr_ok, outcome_authenticateBearer_ok,
    set_iff, mapError_eq_ok, exists_eq_left', exists_const]
  rcases request with ⟨metadata, message, payload⟩
  constructor
  · rintro ⟨left, hPreAuth, bearer, hBearer, key, hKnown, rest,
      hLimit, fields, hFields, hVersion, hAskedId, hAskedKey,
      envelope, hParsed, hAgent, hAllowed, rfl⟩
    cases hFields
    rw [Bool.not_eq_true'] at hAgent
    refine ⟨key, fields.agentId, envelope, ⟨left, hPreAuth⟩,
      ?_, setField_eq_some.mpr ⟨hAgent, rfl⟩, hAllowed, ?_,
      hLimit, hAskedId, hAskedKey, toOption_eq_some.mpr hParsed,
      rfl, rfl⟩
    · rw [← hBearer] at hKnown
      exact hKnown
    · intro hAsked
      rw [hAsked, Bool.not_true, Bool.false_or,
        beq_iff_eq] at hVersion
      exact congrArg some hVersion
  · rintro ⟨key, agentId, envelope, ⟨left, hPreAuth⟩, hKnown,
      hAgent, hAllowed, hVersion, hLimit, hAskedId, hAskedKey,
      hParsed, hInput, hExplicit⟩
    cases message with
    | none => cases hAgent
    | some fields =>
        obtain ⟨bearer, hBearer, -⟩ :=
          Option.bind_eq_some_iff.mp hKnown.1
        obtain ⟨hSet, rfl⟩ := setField_eq_some.mp hAgent
        rcases admission with ⟨input, explicitKey, limit⟩
        cases hInput
        cases hExplicit
        refine ⟨left, hPreAuth, bearer, hBearer, key, ?_,
          (limit, _, _), hLimit, fields, rfl, ?_, hAskedId,
          hAskedKey, envelope, toOption_eq_some.mp hParsed, ?_,
          hAllowed, rfl⟩
        · rw [← hBearer]
          exact hKnown
        · cases hAsked : doors.requireIcpVersion with
          | false => rfl
          | true =>
              have hSame := hVersion hAsked
              rw [Bool.not_true, Bool.false_or, beq_iff_eq]
              exact Option.some.inj hSame
        · rw [hSet]
          rfl

end Outcomes

end Protocol

end IcpHandler

------------------------------------------------------------
-- The Same Request
------------------------------------------------------------

namespace IcpHandler

namespace Protocol

open Model Service Concurrency

variable {S : Type}

/- The headers that gRPC takes in its envelope. -/
def envelopeHeaders : List String :=
  ["icp-agent-id", "icp-request-id", "icp-idempotency-key",
    "icp-mandate", "icp-trace-id"]

/-
  A request of HTTP as a client sends it over gRPC: with the
  same metadata, and its headers in the envelope.
-/
def overGrpc
    (headers : HeaderMap)
    (payloadJson : Bytes) : GrpcRequest :=
  let field name := (headers.text name).getD ""
  { metadata := headers
    envelope :=
      some
        { icpVersion := field "icp-version"
          agentId := field "icp-agent-id"
          requestId := field "icp-request-id"
          idempotencyKey := field "icp-idempotency-key"
          mandateJws := field "icp-mandate"
          traceId := field "icp-trace-id" }
    payloadJson := payloadJson }

/- A field that is set is the text of its header. -/
theorem setField_getD
    {text : Option String}
    (hText : text ≠ some "") :
    setField (text.getD "") = text := by
  cases text with
  | none => rfl
  | some value =>
      rw [Option.getD_some, setField_eq_some]
      refine ⟨?_, rfl⟩
      rw [String.isEmpty_eq_false_iff]
      intro hEmpty
      exact hText (congrArg some hEmpty)

/- gRPC takes the bearer token that HTTP takes. -/
theorem grpcBearer_of_httpBearer
    {headers : HeaderMap}
    {bearer : String}
    (hBearer : httpBearer headers = some bearer) :
    grpcBearer headers = some bearer := by
  obtain ⟨value, hText, hStrip⟩ :=
    Option.bind_eq_some_iff.mp hBearer
  obtain ⟨bytes, hGet, hValue⟩ :=
    Option.bind_eq_some_iff.mp hText
  unfold grpcBearer
  rw [hGet, Option.some_or, Option.bind_some, hValue,
    Option.map_some, hStrip, Option.getD_some]

section SameRequest

variable {doors : FrontDoors S}
variable {answers : FrontAnswers}
variable {headers : HeaderMap}
variable {envelope : IntentEnvelope}
variable {payloadJson : Bytes}
variable {admission : Admission}
variable {key : ApiKey}
variable {agentId : String}
variable {other : IntentEnvelope}

/- What the two requests have in common but for the bearer. -/
structure SameFields
    (doors : FrontDoors S)
    (one two : DoorRequest) : Prop where
  agentId : one.agentId = two.agentId
  requestId : one.requestId = two.requestId
  idempotencyKey : one.idempotencyKey = two.idempotencyKey
  mandateJws : one.mandateJws = two.mandateJws
  traceId : one.traceId = two.traceId
  envelope : one.envelope doors = two.envelope doors

theorem SameFields.symm
    {one two : DoorRequest}
    (hSame : SameFields doors one two) :
    SameFields doors two one :=
  ⟨hSame.1.symm, hSame.2.symm, hSame.3.symm, hSame.4.symm,
    hSame.5.symm, hSame.6.symm⟩

theorem overGrpc_sameFields
    (hSet :
      ∀ name ∈ envelopeHeaders, headers.text name ≠ some "")
    (hPayload :
      doors.envelopeOfJson payloadJson = .ok envelope) :
    SameFields doors (.http headers envelope)
      (.grpc (overGrpc headers payloadJson)) := by
  have hField :
      ∀ name ∈ envelopeHeaders,
        setField ((headers.text name).getD "") =
          headers.text name :=
    fun name hName => setField_getD (hSet name hName)
  simp only [envelopeHeaders, List.forall_mem_cons] at hField
  obtain ⟨hAgent, hId, hKey, hMandate, hTrace, -⟩ := hField
  constructor
  · exact hAgent.symm
  · exact hId.symm
  · exact hKey.symm
  · exact hMandate.symm
  · exact hTrace.symm
  · change some envelope =
      (doors.envelopeOfJson payloadJson).toOption
    rw [hPayload]
    rfl

/-
  A request is let in as another one is that says the same,
  if the limit lets it through and it bears the same key.
-/
theorem AdmittedOn.transfer
    {one two : DoorRequest}
    (hSame : SameFields doors one two)
    (hPreAuth :
      answers (.preAuthLimit (one.clientId doors)) =
        answers (.preAuthLimit (two.clientId doors)))
    (hBearer : one.bearer = two.bearer)
    (hVersion :
      one.version = some doors.svc.config.icpVersion →
        two.version = some doors.svc.config.icpVersion)
    (hOne :
      AdmittedOn doors answers one admission key agentId other) :
    AdmittedOn doors answers two admission key agentId other where
  preAuth := by
    obtain ⟨left, hLeft⟩ := hOne.preAuth
    exact ⟨left, hPreAuth.symm.trans hLeft⟩
  known := hBearer ▸ hOne.known
  agent := hSame.agentId.symm.trans hOne.agent
  permitted := hOne.permitted
  version := fun hAsked => hVersion (hOne.version hAsked)
  limit := hOne.limit
  requestId := fun hAsked => by
    rw [← hSame.requestId]
    exact hOne.requestId hAsked
  idempotency := fun hAsked => by
    rw [← hSame.idempotencyKey]
    exact hOne.idempotency hAsked
  parsed := hSame.envelope.symm.trans hOne.parsed
  input := by
    unfold requestIdOn
    rw [← hSame.mandateJws, ← hSame.requestId, ← hSame.traceId]
    exact hOne.input
  explicitKey := by
    rw [← hSame.idempotencyKey]
    exact hOne.explicitKey

end SameRequest

/-
  What HTTP lets in, gRPC lets in: with the same answers, the
  same request asks the service for the same, under the same
  key, and sees the same of its limit. And gRPC lets in no
  more of the requests that have the bearer token where HTTP
  looks for it.
-/
theorem doors_admit_alike
    (doors : FrontDoors S)
    (answers : FrontAnswers)
    (headers : HeaderMap)
    (envelope : IntentEnvelope)
    (payloadJson : Bytes)
    (hPayload :
      doors.envelopeOfJson payloadJson = .ok envelope)
    (hSet :
      ∀ name ∈ envelopeHeaders, headers.text name ≠ some "")
    (hPreAuth :
      answers
          (.preAuthLimit
            (clientIpForRateLimit "direct" headers
              doors.trustProxyHeaders)) =
        answers
          (.preAuthLimit
            (clientIpForRateLimit "grpc" headers
              doors.trustProxyHeaders)))
    (admission : Admission) :
    (Fallible.outcome answers
        (admitHttp doors headers envelope) = .ok admission →
      Fallible.outcome answers
        (admitGrpc doors (overGrpc headers payloadJson)) =
          .ok admission) ∧
    (httpBearer headers = grpcBearer headers →
      doors.svc.config.icpVersion ≠ "" →
      Fallible.outcome answers
        (admitGrpc doors (overGrpc headers payloadJson)) =
          .ok admission →
      Fallible.outcome answers
        (admitHttp doors headers envelope) =
          .ok admission) := by
  have hSame :
      SameFields doors (.http headers envelope)
        (.grpc (overGrpc headers payloadJson)) :=
    overGrpc_sameFields hSet hPayload
  rw [admitHttp_ok_iff, admitGrpc_ok_iff]
  constructor
  · rintro ⟨key, agentId, other, hAdmitted⟩
    refine ⟨key, agentId, other,
      hAdmitted.transfer hSame hPreAuth ?_ ?_⟩
    · obtain ⟨bearer, hBearer, -⟩ :=
        Option.bind_eq_some_iff.mp hAdmitted.known.1
      exact hBearer.trans (grpcBearer_of_httpBearer hBearer).symm
    · intro hVersion
      change headers.text "icp-version" = some _ at hVersion
      change some ((headers.text "icp-version").getD "") = some _
      rw [hVersion, Option.getD_some]
  · rintro hBearer hNamed ⟨key, agentId, other, hAdmitted⟩
    refine ⟨key, agentId, other,
      AdmittedOn.transfer hSame.symm ?_ ?_ ?_ hAdmitted⟩
    · exact hPreAuth.symm
    · exact hBearer.symm
    · intro hVersion
      change some ((headers.text "icp-version").getD "") =
        some _ at hVersion
      change headers.text "icp-version" = some _
      rw [Option.some.injEq] at hVersion
      cases hText : headers.text "icp-version" with
      | some value =>
          rw [hText, Option.getD_some] at hVersion
          rw [hVersion]
      | none =>
          rw [hText, Option.getD_none] at hVersion
          exact absurd hVersion.symm hNamed

/- Answers of a service that has nothing. -/
def storeAnswer
    {V P T : Type} :
    (op : Data.StoreOp V P T) → op.Res
  | .insert _ => ()
  | .get _ => none
  | .update _ _ => none
  | .listDue _ => []
  | .len => 0

def innerAnswer : (effect : Eff) → effect.Res
  | .now => 0
  | .uuid => "u"
  | .lock _ => ()
  | .unlock _ => ()
  | .txns op => storeAnswer op
  | .subs op => storeAnswer op
  | .quotes op => storeAnswer op
  | .insertCharge _ _ => ()
  | .tryUsage _ => .error .rateLimited
  | .recordSpend _ _ _ _ _ => .error .rateLimited
  | .resolve _ => .error ""
  | .computeDiscount _ _ _ _ => 0
  | .createOrder _ _ _ _ => .error .rateLimited
  | .signClaims _ => .error ""
  | .insertReceipt _ => ()
  | .activeSubscribers _ => []
  | .enqueue _ => ()
  | .emit _ => ()

def dedupAnswer : (effect : DedupEff) → effect.Res
  | .inner effect => innerAnswer effect
  | .checkTenantRateLimit _ => .ok true
  | .lookup _ _ => (0, .miss)
  | .reserve _ _ _ => (0, .inProgress)
  | .release _ _ => false
  | .record _ _ _ _ => (0, false)
  | .prune => (0, 0)

/- Answers at doors that are open. -/
def openAnswers : FrontAnswers
  | .preAuthLimit _ => .ok (.allowed 0 0 0)
  | .tenantLimit _ _ => .ok (.allowed 10 9 60)
  | .readClock => 0
  | .newUuid => "u"
  | .service effect => dedupAnswer effect

/- The headers of a request of `acme`. -/
def acmeHeaders : HeaderMap :=
  [("authorization", utf8Bytes "Bearer icp_acme"),
    ("icp-agent-id", utf8Bytes "bot"),
    ("icp-version", utf8Bytes "2026-04-21")]

/- A purchase comes in at either door, and is the same. -/
theorem doors_admit_alike_sample :
    ∃ (answers : FrontAnswers) (admission : Admission),
      Fallible.outcome answers
          (admitHttp acmeDoors acmeHeaders
            mandatedPurchase.envelope) = .ok admission ∧
        Fallible.outcome answers
          (admitGrpc acmeDoors (overGrpc acmeHeaders [])) =
            .ok admission := by
  let admission : Admission :=
    { input :=
        forIcp mandatedPurchase.envelope ⟨"bot"⟩ acmeKey none
          "req_u" none
      idempotencyKey := none
      limit := 10
      remaining := 9
      resetInSecs := 60 }
  have hHttp :
      Fallible.outcome openAnswers
        (admitHttp acmeDoors acmeHeaders
          mandatedPurchase.envelope) = .ok admission := by
    apply admitHttp_ok_iff.mpr
    refine ⟨acmeKey, "bot", mandatedPurchase.envelope,
      ⟨(0, 0, 0), rfl⟩, ⟨?_, ?_⟩, ?_, ?_, ?_, rfl, ?_, ?_, rfl,
        ?_, ?_⟩
    · rfl
    · decide
    · decide
    · decide
    · decide
    · intro hAsked
      cases hAsked
    · intro hAsked
      cases hAsked
    · rfl
    · decide
  refine ⟨openAnswers, admission, hHttp, ?_⟩
  refine (doors_admit_alike acmeDoors openAnswers acmeHeaders
    mandatedPurchase.envelope [] rfl ?_ rfl admission).1 hHttp
  decide

end Protocol

end IcpHandler
