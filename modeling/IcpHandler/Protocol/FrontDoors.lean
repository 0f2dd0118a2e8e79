import IcpHandler.Concurrency.Places
import IcpHandler.Properties.MandatedCharges
import IcpHandler.Service.FrontDoors

/-
  The protocol of a request at a door: it asks the service for
  nothing before it has been let in, and then the service does
  for it what the rules of an intent allow.

  Main declarations:
    * `serviceMoves`, `innerMoves`
    * `Admitted`
    * `FrontRule`
    * `admitHttp_meets`, `admitGrpc_meets`
    * `doorProg_traced`
-/

------------------------------------------------------------
-- The Moves of the Service
------------------------------------------------------------

namespace IcpHandler

namespace Protocol

open Model Service Concurrency

/- The moves of a request at a door. -/
abbrev FrontMoves := Trace FrontEff.Res

/- A move of the service, among those of a request. -/
def pickService :
    Move FrontEff.Res → Option (Move DedupEff.Res)
  | ⟨.service effect, answer⟩ => some ⟨effect, answer⟩
  | _ => none

/- A move of the intent itself, among those of the service. -/
def pickInner : Move DedupEff.Res → Option (Move Eff.Res)
  | ⟨.inner effect, answer⟩ => some ⟨effect, answer⟩
  | _ => none

/- What the service has done for a request. -/
def serviceMoves
    (past : FrontMoves) : Trace DedupEff.Res :=
  past.filterMap pickService

/- What the intent of a request has done. -/
def innerMoves (past : FrontMoves) : Moves :=
  (serviceMoves past).filterMap pickInner

/- The intent of a request moves money by its own rule. -/
def DedupChargeRule
    (svc : IcpService)
    (input : IntentInput)
    (past : Trace DedupEff.Res) : DedupEff → Prop
  | .inner effect =>
      ChargeRule svc (.intent input)
        (past.filterMap pickInner) effect
  | _ => True

section Service

variable {svc : IcpService}
variable {input : IntentInput}
variable {past : Trace DedupEff.Res}

theorem runInner_charges
    (hStart : Unbooked (past.filterMap pickInner)) :
    (runInner (handleIntent svc input)).Traced
      (DedupChargeRule svc input) (fun _ _ => True) past := by
  have hIntent :
      (handleIntent svc input).run.Traced
        (ChargeRule svc (.intent input)) (fun _ _ => True)
        (past.filterMap pickInner) := by
    apply Prog.Traced.mono (charges_handleIntent hStart)
    exact fun _ _ _ => trivial
  have hPicks : Picks DedupEff.inner innerAnswer pickInner :=
    fun _ _ => rfl
  apply (Prog.Traced.via_pick hPicks (fun _ => True)
    (fun _ _ _ hRule => hRule) (fun _ _ _ _ => trivial)
    trivial hIntent).mono
  exact fun _ _ _ => trivial

theorem charges_unlockThen
    {lock : String}
    {result : ExecutionResult} :
    (unlockThen lock result).Traced (DedupChargeRule svc input)
      (fun _ _ => True) past :=
  ⟨.inl ⟨rfl, rfl, rfl⟩, fun _ => trivial⟩

theorem charges_executeClaimed
    {key digest token lock : String}
    (hStart : Unbooked (past.filterMap pickInner)) :
    (executeClaimed svc input key digest token lock).Traced
      (DedupChargeRule svc input) (fun _ _ => True) past := by
  unfold executeClaimed
  rw [Prog.Traced.bind_iff]
  apply (runInner_charges hStart).mono
  intro result later _
  rcases result with (e | message) | body
  · exact ⟨trivial, fun _ => charges_unlockThen⟩
  · exact charges_unlockThen
  · dsimp only
    split
    · exact charges_unlockThen
    · exact ⟨trivial, fun _ => charges_unlockThen⟩

theorem charges_awaitResponse
    {tenantId key digest : String}
    (polls : Nat) :
    (awaitResponse svc tenantId key digest polls).Traced
      (DedupChargeRule svc input) (fun _ _ => True) past := by
  induction polls generalizing past with
  | zero => trivial
  | succ polls ih =>
      unfold awaitResponse
      refine ⟨trivial, ?_⟩
      rintro ⟨readAt, outcome⟩
      cases outcome with
      | replay cached => trivial
      | conflict => trivial
      | miss => exact ih

theorem charges_executeUnderKey
    {key digest : String}
    (hStart : Unbooked (past.filterMap pickInner)) :
    (executeUnderKey svc input key digest).Traced
      (DedupChargeRule svc input) (fun _ _ => True) past := by
  unfold executeUnderKey
  refine ⟨.inl ⟨rfl, rfl, rfl⟩, fun locked => ?_⟩
  refine ⟨trivial, ?_⟩
  rintro ⟨claimedAt, outcome⟩
  cases outcome with
  | won token =>
      apply charges_executeClaimed
      exact hStart.cons rfl
  | replay cached => exact charges_unlockThen
  | conflict => exact charges_unlockThen
  | inProgress =>
      exact ⟨.inl ⟨rfl, rfl, rfl⟩, fun _ =>
        charges_awaitResponse maxPolls⟩

/- A protected request moves money by its intent's rule. -/
theorem charges_handleIntentIdempotent
    {explicitKey : Option String}
    (hStart : Unbooked (past.filterMap pickInner)) :
    (handleIntentIdempotent svc input explicitKey).Traced
      (DedupChargeRule svc input) (fun _ _ => True) past := by
  have hAdmitted :
      ∀ {past : Trace DedupEff.Res},
        Unbooked (past.filterMap pickInner) →
        (executeAdmitted svc input explicitKey).Traced
          (DedupChargeRule svc input) (fun _ _ => True)
          past := by
    intro past hStart
    unfold executeAdmitted
    cases effectiveKey input explicitKey with
    | none =>
        dsimp only
        rw [Prog.Traced.bind_iff]
        apply (runInner_charges hStart).mono
        exact fun _ _ _ => trivial
    | some key =>
        dsimp only
        cases requestDigest svc input.envelope with
        | error e => trivial
        | ok digest => exact charges_executeUnderKey hStart
  unfold handleIntentIdempotent
  split
  · exact hAdmitted hStart
  · refine ⟨trivial, fun decision => ?_⟩
    rcases decision with e | allowed
    · trivial
    · cases allowed with
      | false => trivial
      | true => exact hAdmitted hStart

end Service

end Protocol

end IcpHandler

------------------------------------------------------------
-- Requests
------------------------------------------------------------

namespace IcpHandler

namespace Service

open Model

namespace DoorRequest

variable {S : Type}
variable (doors : FrontDoors S)

/- Who the caller is to the limit that comes first. -/
def clientId : DoorRequest → String
  | .http headers _ =>
      clientIpForRateLimit "direct" headers
        doors.trustProxyHeaders
  | .grpc request =>
      clientIpForRateLimit "grpc" request.metadata
        doors.trustProxyHeaders

def bearer : DoorRequest → Option String
  | .http headers _ => httpBearer headers
  | .grpc request => grpcBearer request.metadata

def agentId : DoorRequest → Option String
  | .http headers _ => headers.text "icp-agent-id"
  | .grpc request =>
      request.envelope.bind fun envelope =>
        setField envelope.agentId

def version : DoorRequest → Option String
  | .http headers _ => headers.text "icp-version"
  | .grpc request => request.envelope.map GrpcEnvelope.icpVersion

def requestId : DoorRequest → Option String
  | .http headers _ => headers.text "icp-request-id"
  | .grpc request =>
      request.envelope.bind fun envelope =>
        setField envelope.requestId

def idempotencyKey : DoorRequest → Option String
  | .http headers _ => headers.text "icp-idempotency-key"
  | .grpc request =>
      request.envelope.bind fun envelope =>
        setField envelope.idempotencyKey

def mandateJws : DoorRequest → Option String
  | .http headers _ => headers.text "icp-mandate"
  | .grpc request =>
      request.envelope.bind fun envelope =>
        setField envelope.mandateJws

def traceId : DoorRequest → Option String
  | .http headers _ => headers.text "icp-trace-id"
  | .grpc request =>
      request.envelope.bind fun envelope =>
        setField envelope.traceId

def envelope : DoorRequest → Option IntentEnvelope
  | .http _ envelope => some envelope
  | .grpc request =>
      (doors.envelopeOfJson request.payloadJson).toOption

end DoorRequest

end Service

end IcpHandler

------------------------------------------------------------
-- Admission
------------------------------------------------------------

namespace IcpHandler

namespace Protocol

open Model Service Concurrency

variable {S : Type}

/- The limit on unknown callers has let the request pass. -/
def PreAuthPassed
    (doors : FrontDoors S)
    (request : DoorRequest)
    (past : FrontMoves) : Prop :=
  ∃ limit remaining resetInSecs,
    (⟨.preAuthLimit (request.clientId doors),
        .ok (.allowed limit remaining resetInSecs)⟩ :
      Move FrontEff.Res) ∈ past

/-
  The request presents a key of the store that had not expired
  by the thread's own reading of the clock.
-/
structure Known
    (doors : FrontDoors S)
    (request : DoorRequest)
    (key : ApiKey)
    (past : FrontMoves) : Prop where
  passed : PreAuthPassed doors request past
  presented :
    ∃ bearer, request.bearer = some bearer ∧
      doors.keys.lookup bearer = some key
  valid :
    ∃ now,
      (⟨.readClock, now⟩ : Move FrontEff.Res) ∈ past ∧
        key.isExpiredAt now = false

/- The limit of the tenant has let the request pass. -/
def TenantPassed
    (key : ApiKey)
    (past : FrontMoves) : Prop :=
  ∃ limit remaining resetInSecs,
    (⟨.tenantLimit key.tenantId key.rateLimitPerMinute,
        .ok (.allowed limit remaining resetInSecs)⟩ :
      Move FrontEff.Res) ∈ past

/- The id is the request's own, or a fresh one. -/
def Named
    (doors : FrontDoors S)
    (request : DoorRequest)
    (requestId : String)
    (past : FrontMoves) : Prop :=
  request.requestId = some requestId ∨
    (request.requestId = none ∧
      doors.requireRequestId = false ∧
      ∃ uuid,
        (⟨.newUuid, uuid⟩ : Move FrontEff.Res) ∈ past ∧
          requestId = "req_" ++ uuid)

/-
  What is certain of an input by the time a door passes it on
  to the service.
-/
structure Admitted
    (doors : FrontDoors S)
    (request : DoorRequest)
    (input : IntentInput)
    (explicitKey : Option String)
    (past : FrontMoves) : Prop where
  tenant :
    ∃ key, Known doors request key past ∧
      TenantPassed key past ∧
      key.permitsAgent input.agent.raw = true ∧
      input.tenant = key.toApiKeyInfo
  agent : request.agentId = some input.agent.raw
  version :
    doors.requireIcpVersion = true →
      request.version = some doors.svc.config.icpVersion
  requestId : Named doors request input.requestId past
  idempotency :
    explicitKey = request.idempotencyKey ∧
      (doors.requireIdempotencyKey = true →
        explicitKey.isSome = true)
  envelope : request.envelope doors = some input.envelope
  mandate : input.mandateJws = request.mandateJws
  trace : input.traceId = request.traceId
  checked :
    input.skipMandateCheck = false ∧ input.skipRateLimit = true

/- What a request may do after its own moves. -/
def FrontRule
    (doors : FrontDoors S)
    (request : DoorRequest)
    (past : FrontMoves) : FrontEff → Prop
  | .preAuthLimit bucketId =>
      past = [] ∧ bucketId = request.clientId doors
  | .readClock => PreAuthPassed doors request past
  | .tenantLimit tenantId capacity =>
      ∃ key, Known doors request key past ∧
        tenantId = key.tenantId ∧
        capacity = key.rateLimitPerMinute
  | .newUuid =>
      ∃ key, Known doors request key past ∧
        TenantPassed key past
  | .service effect =>
      ∃ input explicitKey,
        Admitted doors request input explicitKey past ∧
          DedupChargeRule doors.svc input (serviceMoves past)
            effect

section Admission

variable {doors : FrontDoors S}
variable {request : DoorRequest}
variable {key : ApiKey}
variable {input : IntentInput}
variable {explicitKey : Option String}
variable {past : FrontMoves}

theorem Known.cons
    (hKnown : Known doors request key past)
    (move : Move FrontEff.Res) :
    Known doors request key (move :: past) where
  passed := by
    obtain ⟨limit, remaining, resetInSecs, hMem⟩ :=
      hKnown.passed
    exact ⟨limit, remaining, resetInSecs,
      List.mem_cons_of_mem _ hMem⟩
  presented := hKnown.presented
  valid := by
    obtain ⟨now, hMem, hValid⟩ := hKnown.valid
    exact ⟨now, List.mem_cons_of_mem _ hMem, hValid⟩

theorem TenantPassed.cons
    (hPassed : TenantPassed key past)
    (move : Move FrontEff.Res) :
    TenantPassed key (move :: past) := by
  obtain ⟨limit, remaining, resetInSecs, hMem⟩ := hPassed
  exact ⟨limit, remaining, resetInSecs,
    List.mem_cons_of_mem _ hMem⟩

theorem Admitted.cons
    (hAdmitted :
      Admitted doors request input explicitKey past)
    (move : Move FrontEff.Res) :
    Admitted doors request input explicitKey (move :: past) :=
  { hAdmitted with
    tenant := by
      obtain ⟨key, hKnown, hPassed, hAgent, hTenant⟩ :=
        hAdmitted.tenant
      exact ⟨key, hKnown.cons move, hPassed.cons move, hAgent,
        hTenant⟩
    requestId := by
      rcases hAdmitted.requestId with hGiven | hFresh
      · exact .inl hGiven
      · obtain ⟨hNone, hAsked, uuid, hMem, hId⟩ := hFresh
        exact .inr ⟨hNone, hAsked, uuid,
          List.mem_cons_of_mem _ hMem, hId⟩ }

/- A step that stops a request breaks no promise. -/
abbrev Refused {ε : Type} : ε → FrontMoves → Prop :=
  fun _ _ => True

theorem meets_passLimit
    {ε : Type}
    {rule : FrontMoves → FrontEff → Prop}
    {failed : ApiError → ε}
    {denied : UInt32 → Nat → ε}
    {decision : Except ApiError RateLimitDecision}
    {Q : UInt32 × UInt32 × Nat → FrontMoves → Prop} :
    Fallible.Meets rule (passLimit failed denied decision) Q
        Refused past ↔
      ∀ limit remaining resetInSecs,
        decision = .ok (.allowed limit remaining resetInSecs) →
          Q (limit, remaining, resetInSecs) past := by
  unfold passLimit
  rcases decision with e | decision
  · simp
  · cases decision with
    | denied limit seconds => simp
    | allowed limit remaining seconds => simp

/- A known request, past the limit of its tenant. -/
structure Limited
    (doors : FrontDoors S)
    (request : DoorRequest)
    (key : ApiKey)
    (past : FrontMoves) : Prop where
  known : Known doors request key past
  passed : TenantPassed key past
  unserved : serviceMoves past = []

/- The id of a request is what it is named by. -/
theorem meets_requestIdOr
    {ε : Type}
    {given : Option String}
    (hLimited : Limited doors request key past)
    (hGiven : request.requestId = given)
    (hAsked :
      (given.isSome || !doors.requireRequestId) = true) :
    Fallible.Meets (FrontRule doors request)
      (requestIdOr given : Front ε String)
      (fun requestId later =>
        Limited doors request key later ∧
          Named doors request requestId later)
      Refused past := by
  cases given with
  | some id => exact ⟨hLimited, .inl hGiven⟩
  | none =>
      rw [requestIdOr, Fallible.meets_bind, Fallible.meets_act]
      refine ⟨⟨key, hLimited.known, hLimited.passed⟩, ?_⟩
      intro uuid
      rw [Option.isSome_none, Bool.false_or,
        Bool.not_eq_true'] at hAsked
      constructor
      · exact ⟨hLimited.known.cons _, hLimited.passed.cons _,
          hLimited.unserved⟩
      · exact .inr ⟨hGiven, hAsked, uuid, List.mem_cons_self,
          rfl⟩

/- A key that is read to be valid is known. -/
theorem known_of_clock
    {bearer : String}
    {now : DateTime}
    (hPassed : PreAuthPassed doors request past)
    (hBearer : request.bearer = some bearer)
    (hKey : doors.keys.lookup bearer = some key)
    (hValid : key.isExpiredAt now = false) :
    Known doors request key (⟨.readClock, now⟩ :: past) where
  passed := by
    obtain ⟨limit, remaining, resetInSecs, hMem⟩ := hPassed
    exact ⟨limit, remaining, resetInSecs,
      List.mem_cons_of_mem _ hMem⟩
  presented := ⟨bearer, hBearer, hKey⟩
  valid := ⟨now, List.mem_cons_self, hValid⟩

/- The tenant of a request is known once it is resolved. -/
theorem resolveTenant_meets
    {headers : HeaderMap}
    {envelope : IntentEnvelope}
    (hPassed :
      PreAuthPassed doors (.http headers envelope) past) :
    Fallible.Meets
      (FrontRule doors (.http headers envelope))
      (resolveTenant doors headers)
      (fun key later =>
        ∃ now, later = ⟨.readClock, now⟩ :: past ∧
          Known doors (.http headers envelope) key later)
      Refused past := by
  simp only [resolveTenant, Fallible.meets_bind,
    Fallible.meets_orFail, Fallible.meets_ensure,
    Fallible.meets_pure, implies_true, and_true]
  intro bearer hBearer key hKey
  rw [Fallible.meets_act]
  refine ⟨hPassed, fun now hValid => ⟨now, rfl, ?_⟩⟩
  rw [Bool.not_eq_true'] at hValid
  exact known_of_clock hPassed hBearer hKey hValid

theorem authenticateBearer_meets
    {request : GrpcRequest}
    {bearer : String}
    (hPassed : PreAuthPassed doors (.grpc request) past)
    (hBearer : grpcBearer request.metadata = some bearer) :
    Fallible.Meets (FrontRule doors (.grpc request))
      (authenticateBearer doors bearer)
      (fun key later =>
        ∃ now, later = ⟨.readClock, now⟩ :: past ∧
          Known doors (.grpc request) key later)
      Refused past := by
  simp only [authenticateBearer, Fallible.meets_bind,
    Fallible.meets_orFail, Fallible.meets_ensure,
    Fallible.meets_pure, implies_true, and_true]
  intro key hKey
  rw [Fallible.meets_act]
  refine ⟨hPassed, fun now hValid => ⟨now, rfl, ?_⟩⟩
  rw [Bool.not_eq_true'] at hValid
  exact known_of_clock hPassed hBearer hKey hValid

theorem checkVersionHttp_meets
    {rule : FrontMoves → FrontEff → Prop}
    {headers : HeaderMap}
    {Q : Unit → FrontMoves → Prop}
    (hVersion :
      (doors.requireIcpVersion = true →
        headers.text "icp-version" =
          some doors.svc.config.icpVersion) →
        Q () past) :
    Fallible.Meets rule (checkVersionHttp doors headers) Q
      Refused past := by
  unfold checkVersionHttp
  split
  · simp only [Fallible.meets_bind, Fallible.meets_orFail,
      Fallible.meets_ensure, implies_true, and_true]
    intro got hGot hSame
    rw [beq_iff_eq] at hSame
    rw [hSame] at hGot
    exact hVersion fun _ => hGot
  · rename_i hAsked
    exact hVersion fun hRequired => absurd hRequired hAsked

/- What HTTP lets in is admitted. -/
theorem admitHttp_meets
    {headers : HeaderMap}
    {envelope : IntentEnvelope} :
    Fallible.Meets
      (FrontRule doors (.http headers envelope))
      (admitHttp doors headers envelope)
      (fun admission later =>
        Admitted doors (.http headers envelope) admission.input
            admission.idempotencyKey later ∧
          serviceMoves later = [])
      Refused [] := by
  simp only [admitHttp, Fallible.meets_bind, meets_passLimit,
    Fallible.meets_mapError]
  rw [Fallible.meets_act]
  refine ⟨⟨rfl, rfl⟩, ?_⟩
  rintro preAuth limit remaining resetInSecs rfl
  have hPassed :
      PreAuthPassed doors (.http headers envelope)
        [⟨.preAuthLimit _,
          .ok (.allowed limit remaining resetInSecs)⟩] :=
    ⟨limit, remaining, resetInSecs, List.mem_cons_self⟩
  apply (resolveTenant_meets hPassed).mono ?_
    (fun _ _ _ => trivial)
  rintro key later ⟨now, rfl, hKnown⟩
  simp only [resolveAgent, ensureAgentAllowed,
    Fallible.meets_bind, Fallible.meets_orFail,
    Fallible.meets_ensure, Fallible.meets_pure, implies_true,
    and_true]
  intro agentId hAgent hAllowed
  apply checkVersionHttp_meets
  intro hVersion
  rw [Fallible.meets_act]
  refine ⟨⟨key, hKnown, rfl, rfl⟩, ?_⟩
  rintro decision left rest reset rfl hAskedId
  have hLimited :
      Limited doors (.http headers envelope) key
        (⟨.tenantLimit key.tenantId key.rateLimitPerMinute,
          .ok (.allowed left rest reset)⟩ :: _) :=
    ⟨hKnown.cons _, ⟨left, rest, reset, List.mem_cons_self⟩,
      rfl⟩
  apply (meets_requestIdOr hLimited rfl hAskedId).mono ?_
    (fun _ _ _ => trivial)
  rintro requestId later ⟨hLimited, hNamed⟩ hAskedKey
  refine ⟨?_, hLimited.unserved⟩
  constructor
  · exact ⟨key, hLimited.known, hLimited.passed, hAllowed, rfl⟩
  · exact hAgent
  · exact hVersion
  · exact hNamed
  · refine ⟨rfl, fun hRequired => ?_⟩
    rw [hRequired, Bool.not_true, Bool.or_false] at hAskedKey
    exact hAskedKey
  · rfl
  · rfl
  · rfl
  · exact ⟨rfl, rfl⟩

theorem isSome_setField (field : String) :
    (setField field).isSome = !field.isEmpty := by
  unfold setField
  cases field.isEmpty with
  | true => rfl
  | false => rfl

/- What gRPC lets in is admitted. -/
theorem admitGrpc_meets
    {request : GrpcRequest} :
    Fallible.Meets (FrontRule doors (.grpc request))
      (admitGrpc doors request)
      (fun admission later =>
        Admitted doors (.grpc request) admission.input
            admission.idempotencyKey later ∧
          serviceMoves later = [])
      Refused [] := by
  simp only [admitGrpc, Fallible.meets_bind, meets_passLimit,
    Fallible.meets_orFail, implies_true, and_true]
  rw [Fallible.meets_act]
  refine ⟨⟨rfl, rfl⟩, ?_⟩
  rintro preAuth limit remaining resetInSecs rfl
  have hPassed :
      PreAuthPassed doors (.grpc request)
        [⟨.preAuthLimit _,
          .ok (.allowed limit remaining resetInSecs)⟩] :=
    ⟨limit, remaining, resetInSecs, List.mem_cons_self⟩
  intro bearer hBearer
  apply (authenticateBearer_meets hPassed hBearer).mono ?_
    (fun _ _ _ => trivial)
  rintro key later ⟨now, rfl, hKnown⟩
  rw [Fallible.meets_act]
  refine ⟨⟨key, hKnown, rfl, rfl⟩, ?_⟩
  rintro decision left rest reset rfl envelope hEnvelope
  have hLimited :
      Limited doors (.grpc request) key
        (⟨.tenantLimit key.tenantId key.rateLimitPerMinute,
          .ok (.allowed left rest reset)⟩ :: _) :=
    ⟨hKnown.cons _, ⟨left, rest, reset, List.mem_cons_self⟩,
      rfl⟩
  simp only [Fallible.meets_ensure, Fallible.meets_ofExcept,
    Fallible.meets_pure, implies_true, and_true]
  intro hVersion hAskedId hAskedKey intentEnv hParsed hAgent
    hAllowed
  have hFields :
      ∀ field : GrpcEnvelope → String,
        (request.envelope.bind fun envelope =>
          setField (field envelope)) =
            setField (field envelope) := by
    intro field
    rw [hEnvelope, Option.bind_some]
  have hId :
      DoorRequest.requestId (.grpc request) =
        setField envelope.requestId :=
    hFields GrpcEnvelope.requestId
  have hGiven :
      ((setField envelope.requestId).isSome ||
        !doors.requireRequestId) = true := by
    rw [isSome_setField, Bool.or_comm, ← Bool.not_and]
    exact hAskedId
  apply (meets_requestIdOr hLimited hId hGiven).mono ?_
    (fun _ _ _ => trivial)
  rintro requestId later ⟨hLimited, hNamed⟩
  refine ⟨?_, hLimited.unserved⟩
  constructor
  · exact ⟨key, hLimited.known, hLimited.passed, hAllowed, rfl⟩
  · apply (hFields GrpcEnvelope.agentId).trans
    exact if_neg (by simpa using hAgent)
  · intro hRequired
    rw [hRequired, Bool.not_true, Bool.false_or,
      beq_iff_eq] at hVersion
    apply (congrArg (Option.map GrpcEnvelope.icpVersion)
      hEnvelope).trans
    rw [Option.map_some, hVersion]
  · exact hNamed
  · refine ⟨(hFields GrpcEnvelope.idempotencyKey).symm, ?_⟩
    intro hRequired
    rw [hRequired, Bool.true_and] at hAskedKey
    rw [isSome_setField]
    exact hAskedKey
  · cases hJson : doors.envelopeOfJson request.payloadJson with
    | error e =>
        rw [hJson] at hParsed
        cases hParsed
    | ok parsed =>
        rw [hJson] at hParsed
        cases hParsed
        exact congrArg Except.toOption hJson
  · exact (hFields GrpcEnvelope.mandateJws).symm
  · exact (hFields GrpcEnvelope.traceId).symm
  · exact ⟨rfl, rfl⟩

/-
  Past its admission a request has the service move money for
  it by the rule of its intent.
-/
theorem callIntent_traced
    (hAdmitted :
      Admitted doors request input explicitKey past)
    (hUnserved : serviceMoves past = []) :
    (callIntent doors input explicitKey).Traced
      (FrontRule doors request) (fun _ _ => True) past := by
  have hPicks :
      Picks FrontEff.service serviceAnswer pickService :=
    fun _ _ => rfl
  have hStart :
      Unbooked ((serviceMoves past).filterMap pickInner) := by
    rw [hUnserved]
    intro move hMove
    cases hMove
  apply (Prog.Traced.via_pick hPicks
    (Admitted doors request input explicitKey)
    (fun moves effect hAdmitted hRule =>
      ⟨input, explicitKey, hAdmitted, hRule⟩)
    (fun moves effect answer hAdmitted => hAdmitted.cons _)
    hAdmitted (charges_handleIntentIdempotent hStart)).mono
  exact fun _ _ _ => trivial

/- Every request follows the rule of the doors. -/
theorem doorProg_traced
    (doors : FrontDoors S)
    (request : DoorRequest) :
    (request.prog doors).Traced (FrontRule doors request)
      (fun _ _ => True) [] := by
  cases request with
  | http headers envelope =>
      unfold DoorRequest.prog
      dsimp only
      unfold submitIntentHttp
      rw [Prog.Traced.bind_iff, Prog.Traced.bind_iff]
      apply Prog.Traced.mono admitHttp_meets
      intro result later hPost
      cases result with
      | error response => trivial
      | ok admission =>
          rw [Prog.Traced.bind_iff]
          apply (callIntent_traced hPost.1 hPost.2).mono
          exact fun _ _ _ => trivial
  | grpc request =>
      unfold DoorRequest.prog
      dsimp only
      unfold submitIntentGrpc
      rw [Prog.Traced.bind_iff, Prog.Traced.bind_iff]
      apply Prog.Traced.mono admitGrpc_meets
      intro result later hPost
      cases result with
      | error status => trivial
      | ok admission =>
          rw [Prog.Traced.bind_iff]
          apply (callIntent_traced hPost.1 hPost.2).mono
          exact fun _ _ _ => trivial

end Admission

end Protocol

end IcpHandler
