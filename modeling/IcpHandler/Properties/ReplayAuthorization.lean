import IcpHandler.Model.Concrete
import IcpHandler.Protocol.IdempotentRuns

/-
  Replays and the agent check. The cache is asked before the
  intent checks that the envelope names its agent, so a
  request that would be turned away is told what the cache
  holds, unless its key is free.

  Main declarations:
    * `Unauthorized`
    * `KeyFree`, `ReachesCheck`
    * `replay_respects_agents`
    * `replay_skips_agent_check`
-/

------------------------------------------------------------
-- The Agent Check
------------------------------------------------------------

namespace IcpHandler

namespace Protocol

open Model Service Concurrency

/- The answer is an authorization error. -/
def Unauthorized (result : ExecutionResult) : Prop :=
  ∃ message,
    result = .error (.error (.authenticationFailed message))

/-
  A claim of the key would be won: nobody holds it, or what
  holds it has run out, and the cache can be reached.
-/
def KeyFree
    (rfc3339 : Rfc3339)
    (key : IdempotencyKey)
    (now : DateTime)
    (lease : Duration)
    (fault : Bool)
    (store : IdempotencyStore) : Prop :=
  store.unreachable fault = false ∧
    ∀ entry, store.entryAt rfc3339 now key = some entry →
      store.ttl < now - entry.createdAt ∨
        (entry.response.status = pendingStatus ∧
          lease < now - entry.createdAt)

/-
  The request gets as far as the agent check: it has no key,
  or its envelope has a digest and its key is free at the
  claim. The lock of the key takes one choice, the claim the
  next one.
-/
def ClaimsKey
    (svc : IcpService)
    (input : IntentInput)
    (explicitKey : Option String)
    (store : IdempotencyStore)
    (choices : List DedupChoice) : Prop :=
  ∀ name, effectiveKey input explicitKey = some name →
    (∃ digest, requestDigest svc input.envelope = .ok digest) ∧
      ∀ choice, choices[1]? = some choice →
        KeyFree svc.deps.rfc3339 (input.tenant.tenantId, name)
          choice.clock (claimLease svc) choice.fault store

/- The same, behind the rate limiter of the tenant. -/
def ReachesCheck
    (svc : IcpService)
    (input : IntentInput)
    (explicitKey : Option String)
    (store : IdempotencyStore)
    (choices : List DedupChoice) : Prop :=
  if input.skipRateLimit = true then
    ClaimsKey svc input explicitKey store choices
  else
    (∀ choice, choices.head? = some choice →
      choice.rate = .ok true) ∧
      ClaimsKey svc input explicitKey store choices.tail

section Check

variable {svc : IcpService}
variable {input : IntentInput}
variable {explicitKey : Option String}
variable {name digest : String}
variable {result : ExecutionResult}

theorem not_unauthorized_replay (cached : CachedResponse) :
    ¬ Unauthorized (replay svc cached) := by
  rintro ⟨message, hResult⟩
  unfold replay at hResult
  split at hResult <;> cases hResult

theorem not_unauthorized_conflict (key : String) :
    ¬ Unauthorized (.error (.error (keyConflict key))) := by
  rintro ⟨message, hResult⟩
  cases hResult

/- A claim is won exactly when the key is free. -/
theorem reserve_won_iff
    {rfc3339 : Rfc3339}
    {store : IdempotencyStore}
    {key : IdempotencyKey}
    {now : DateTime}
    {lease : Duration}
    {fault : Bool}
    {token : String} :
    (store.reserve rfc3339 fault token key digest now
        lease).1 = .won token ↔
      KeyFree rfc3339 key now lease fault store := by
  unfold KeyFree
  cases hOut : store.unreachable fault with
  | true =>
      rcases store with ⟨entries | rows, ttl⟩
      · cases hOut
      · have hYes : fault = true := hOut
        simp [IdempotencyStore.reserve, hYes]
  | false =>
      rw [reserve_eq hOut]
      dsimp only
      cases hEntry : store.entryAt rfc3339 now key with
      | none => simp
      | some entry =>
          dsimp only
          split_ifs with hLapsed hPending hLease hDigest
          · simp [hLapsed]
          · simp [hPending, hLease]
          · simp [hLapsed, hLease]
          · simp [hLapsed, hPending]
          · simp [hLapsed, hPending]

/- An envelope that names another agent is turned away. -/
theorem handleIntent_mismatch
    (svc : IcpService)
    (hOther : input.envelope.agentId ≠ input.agent.raw) :
    ∃ message, runInner (handleIntent svc input) =
      .ret (.error (.error
        (.authenticationFailed message))) := by
  have hCheck :
      (input.envelope.agentId == input.agent.raw) = false := by
    simpa using hOther
  refine ⟨"envelope.agent_id `" ++ input.envelope.agentId ++
    "` does not match ICP-Agent-Id `" ++ input.agent.raw ++
      "`", ?_⟩
  unfold runInner handleIntent
  rw [hCheck]
  rfl

theorem unlockThen_traced
    {P : ExecutionResult → Prop}
    {lock : String}
    (hP : P result)
    (past : DedupMoves) :
    (unlockThen lock result).Traced (fun _ _ => True)
      (fun answer _ => P answer) past :=
  ⟨trivial, fun _ => hP⟩

/- Waiting for a response does not authorize anybody. -/
theorem awaitResponse_traced
    (tenantId : String)
    (polls : Nat)
    (past : DedupMoves) :
    (awaitResponse svc tenantId name digest polls).Traced
      (fun _ _ => True)
      (fun result _ => ¬ Unauthorized result) past := by
  induction polls generalizing past with
  | zero =>
      rintro ⟨message, hResult⟩
      cases hResult
  | succ polls ih =>
      unfold awaitResponse
      refine traced_perform.mpr ⟨trivial, ?_⟩
      rintro ⟨readAt, outcome⟩
      cases outcome with
      | replay cached => exact not_unauthorized_replay cached
      | conflict => exact not_unauthorized_conflict name
      | miss => exact ih _

/- Under a claim of its own the request is turned away. -/
theorem executeClaimed_traced
    {token lock : String}
    (hOther : input.envelope.agentId ≠ input.agent.raw)
    (past : DedupMoves) :
    (executeClaimed svc input name digest token lock).Traced
      (fun _ _ => True)
      (fun result _ => Unauthorized result) past := by
  obtain ⟨message, hInner⟩ := handleIntent_mismatch svc hOther
  unfold executeClaimed
  rw [hInner]
  exact ⟨trivial, fun _ => ⟨trivial, fun _ => ⟨message, rfl⟩⟩⟩

variable {thread : Nat}
variable {choices rest : List DedupChoice}
variable {h h' : History DedupEff.Res DedupWorld}

/-
  Under its key a request that names another agent is turned
  away exactly when it wins the claim.
-/
theorem executeUnderKey_unauthorized_iff
    (hOther : input.envelope.agentId ≠ input.agent.raw)
    (hEval :
      (executeUnderKey svc input name digest).eval
          (dedupMachine svc.deps.rfc3339) thread choices h =
        some (result, h', rest)) :
    Unauthorized result ↔
      ∀ choice, choices[1]? = some choice →
        KeyFree svc.deps.rfc3339 (input.tenant.tenantId, name)
          choice.clock (claimLease svc) choice.fault
          h.world.idempotency := by
  obtain ⟨locking, claiming, _, locked, rfl, hLock, hClaim⟩ :=
    Prog.eval_step hEval
  obtain ⟨choice, later, answer, claimed, rfl, hReserve, hRest⟩ :=
    Prog.eval_step hClaim
  -- The lock leaves the cache as it is.
  have hSame : locked.idempotency = h.world.idempotency := by
    simp only [dedupMachine, execDedup,
      Option.map_eq_some_iff] at hLock
    obtain ⟨result, _, hResult⟩ := hLock
    cases hResult
    rfl
  rw [History.push_world] at hReserve
  simp only [dedupMachine, execDedup] at hReserve
  split at hReserve
  · cases hReserve
  · have hAnswer :=
      (Prod.mk.inj (Option.some.inj hReserve)).1
    have hWon :
        answer.2 = .won choice.token ↔
          KeyFree svc.deps.rfc3339
            (input.tenant.tenantId, name) choice.clock
            (claimLease svc) choice.fault
            h.world.idempotency := by
      rw [← hAnswer, hSame]
      exact reserve_won_iff
    have hChoice :
        (∀ other, (locking :: choice :: later)[1]? =
            some other →
          KeyFree svc.deps.rfc3339
            (input.tenant.tenantId, name) other.clock
            (claimLease svc) other.fault
            h.world.idempotency) ↔
          answer.2 = .won choice.token := by
      rw [hWon]
      constructor
      · intro hAll
        exact hAll choice rfl
      · rintro hFree other hOther
        cases hOther
        exact hFree
    rw [hChoice]
    rcases answer with ⟨readAt, outcome⟩
    cases outcome with
    | won token =>
        have hToken : token = choice.token :=
          reserve_won_token (Prod.mk.inj hAnswer).2
        have hUnauthorized : Unauthorized result :=
          Prog.Traced.eval_value
            (executeClaimed_traced hOther []) hRest
        rw [hToken]
        exact iff_of_true hUnauthorized rfl
    | replay cached =>
        have hReplayed : ¬ Unauthorized result :=
          Prog.Traced.eval_value
            (P := fun answer => ¬ Unauthorized answer)
            (unlockThen_traced (not_unauthorized_replay cached)
              []) hRest
        exact iff_of_false hReplayed (fun hNo => by cases hNo)
    | conflict =>
        have hConflict : ¬ Unauthorized result :=
          Prog.Traced.eval_value
            (P := fun answer => ¬ Unauthorized answer)
            (unlockThen_traced (not_unauthorized_conflict name)
              []) hRest
        exact iff_of_false hConflict (fun hNo => by cases hNo)
    | inProgress =>
        have hWaited : ¬ Unauthorized result := by
          obtain ⟨_, _, _, _, _, _, hAwait⟩ :=
            Prog.eval_step hRest
          exact Prog.Traced.eval_value
            (P := fun answer => ¬ Unauthorized answer)
            (awaitResponse_traced input.tenant.tenantId
              maxPolls []) hAwait
        exact iff_of_false hWaited (fun hNo => by cases hNo)

/- A digest does not fail for want of authorization. -/
theorem requestDigest_not_authentication
    {envelope : IntentEnvelope}
    {message : String} :
    requestDigest svc envelope ≠
      .error (.authenticationFailed message) := by
  intro hError
  unfold requestDigest at hError
  split at hError <;> cases hError

/- Past the rate limit. -/
theorem executeAdmitted_unauthorized_iff
    (hOther : input.envelope.agentId ≠ input.agent.raw)
    (hEval :
      (executeAdmitted svc input explicitKey).eval
          (dedupMachine svc.deps.rfc3339) thread choices h =
        some (result, h', rest)) :
    Unauthorized result ↔
      ClaimsKey svc input explicitKey h.world.idempotency
        choices := by
  unfold ClaimsKey
  unfold executeAdmitted at hEval
  cases hName : effectiveKey input explicitKey with
  | none =>
      rw [hName] at hEval
      obtain ⟨message, hInner⟩ := handleIntent_mismatch svc hOther
      rw [hInner] at hEval
      cases hEval
      exact iff_of_true ⟨message, rfl⟩ (fun _ hNo => nomatch hNo)
  | some name =>
      rw [hName] at hEval
      dsimp only at hEval
      cases hDigest : requestDigest svc input.envelope with
      | error e =>
          rw [hDigest] at hEval
          cases hEval
          refine iff_of_false ?_ ?_
          · rintro ⟨message, hMessage⟩
            cases hMessage
            exact requestDigest_not_authentication hDigest
          · intro hClaims
            obtain ⟨digest, hNo⟩ := (hClaims name rfl).1
            cases hNo
      | ok digest =>
          rw [hDigest] at hEval
          rw [executeUnderKey_unauthorized_iff hOther hEval]
          constructor
          · rintro hFree other hOtherName
            cases hOtherName
            exact ⟨⟨digest, rfl⟩, hFree⟩
          · intro hClaims
            exact (hClaims name rfl).2

/-
  A request that names another agent is turned away exactly
  when it gets as far as the agent check.
-/
theorem unauthorized_iff
    (hOther : input.envelope.agentId ≠ input.agent.raw)
    (hEval :
      (handleIntentIdempotent svc input explicitKey).eval
          (dedupMachine svc.deps.rfc3339) thread choices h =
        some (result, h', rest)) :
    Unauthorized result ↔
      ReachesCheck svc input explicitKey h.world.idempotency
        choices := by
  unfold ReachesCheck
  unfold handleIntentIdempotent at hEval
  split
  · rename_i hSkip
    rw [if_pos hSkip] at hEval
    exact executeAdmitted_unauthorized_iff hOther hEval
  · rename_i hLimited
    rw [if_neg hLimited] at hEval
    obtain ⟨choice, later, answer, after, rfl, hExec, hRest⟩ :=
      Prog.eval_step hEval
    have hResult := Prod.mk.inj (Option.some.inj hExec)
    have hHead :
        (∀ other, (choice :: later).head? = some other →
          other.rate = .ok true) ↔ choice.rate = .ok true := by
      constructor
      · intro hAll
        exact hAll choice rfl
      · rintro hOk other hSame
        cases hSame
        exact hOk
    rw [hHead, List.tail_cons]
    rw [← hResult.1] at hRest
    cases hRate : choice.rate with
    | error reason =>
        rw [hRate] at hRest
        cases hRest
        refine iff_of_false ?_ (fun hNo => nomatch hNo.1)
        rintro ⟨message, hMessage⟩
        cases hMessage
    | ok admitted =>
        rw [hRate] at hRest
        cases admitted with
        | false =>
            cases hRest
            refine iff_of_false ?_ (fun hNo => nomatch hNo.1)
            rintro ⟨message, hMessage⟩
            cases hMessage
        | true =>
            rw [executeAdmitted_unauthorized_iff hOther hRest,
              History.push_world, ← hResult.2]
            simp

end Check

end Protocol

end IcpHandler

------------------------------------------------------------
-- The Producer of a Response
------------------------------------------------------------

namespace IcpHandler

namespace Protocol

open Model Service Concurrency

/- The canonical form of an envelope holds its agent id. -/
def CanonicalTellsAgent (deps : Deps) : Prop :=
  ∀ envelope envelope' canonical,
    deps.jcsEnvelope envelope = .ok canonical →
    deps.jcsEnvelope envelope' = .ok canonical →
    envelope.agentId = envelope'.agentId

/- No two canonical envelopes have one digest. -/
def DigestsApart (deps : Deps) : Prop :=
  ∀ envelope envelope' canonical canonical',
    deps.jcsEnvelope envelope = .ok canonical →
    deps.jcsEnvelope envelope' = .ok canonical' →
    deps.bodySha256 canonical = deps.bodySha256 canonical' →
    canonical = canonical'

/-
  The request recorded this response at this occurrence, for
  its own agent.
-/
def ProducedFor
    (ops : Nat → DedupOp)
    (agentId : String)
    (cached : CachedResponse)
    (o : DedupHappening) : Prop :=
  (∃ producer producerKey,
    ops o.thread = .request producer producerKey ∧
      producer.agent.raw = agentId) ∧
    ∃ key digest since, Recorded key digest cached since o

section Producers

variable {svc : IcpService}
variable {ops : Nat → DedupOp}
variable {w : DedupWorld}
variable {pool : Pool DedupEff.Res DedupWorld DedupResult}
variable {h : History DedupEff.Res DedupWorld}
variable {input : IntentInput}
variable {explicitKey : Option String}

/- One digest is the digest of one agent's envelopes. -/
theorem requestDigest_agent
    (hCanonical : CanonicalTellsAgent svc.deps)
    (hApart : DigestsApart svc.deps)
    {envelope envelope' : IntentEnvelope}
    {digest : String}
    (hDigest : requestDigest svc envelope = .ok digest)
    (hDigest' : requestDigest svc envelope' = .ok digest) :
    envelope.agentId = envelope'.agentId := by
  unfold requestDigest at hDigest hDigest'
  split at hDigest
  · rename_i canonical hForm
    split at hDigest'
    · rename_i canonical' hForm'
      have hOne := Except.ok.inj hDigest
      have hTwo := Except.ok.inj hDigest'
      have hSame :=
        hApart _ _ _ _ hForm hForm' (hOne.trans hTwo.symm)
      rw [← hSame] at hForm'
      exact hCanonical _ _ _ hForm hForm'
    · cases hDigest'
  · cases hDigest

/-
  A response is recorded under the digest of an envelope that
  names the agent of its request.
-/
theorem DedupRun.recorded_by
    (hRun : DedupRun svc ops w h)
    {o : DedupHappening}
    (hMem : o ∈ h.past)
    {key : IdempotencyKey}
    {digest : String}
    {cached : CachedResponse}
    {since : DateTime}
    (hRecorded : Recorded key digest cached since o) :
    Protects svc (ops o.thread) key digest ∧
      NamesAgent (ops o.thread) := by
  obtain ⟨recent, older, hPast⟩ := List.append_of_mem hMem
  obtain ⟨earlier, _, _, _, hRule⟩ := hRun.cut hPast
  obtain ⟨token, hMove⟩ := hRecorded
  rcases o with ⟨thread, effect, answer, before, after⟩
  cases hMove
  exact ⟨hRule.1, hRule.2.1⟩

/-
  What a request is replayed was produced for the agent that
  its envelope names.
-/
theorem DedupReaches.produced
    (hReaches : DedupReaches svc ops w pool)
    (hCanonical : CanonicalTellsAgent svc.deps)
    (hApart : DigestsApart svc.deps)
    (hNew : NothingCached svc.deps.rfc3339 w)
    {thread : Nat}
    {execution : IntentExecution}
    (hOp : ops thread = .request input explicitKey)
    (hReturned :
      pool.threads thread = .ret (.answered (.ok execution)))
    (hReplayed : execution.replayed = true) :
    ∃ o ∈ pool.history.past, ∃ cached,
      ProducedFor ops input.envelope.agentId cached o ∧
        replay svc cached = .ok execution := by
  have hPost := hReaches.post hReturned
  rw [hOp] at hPost
  obtain ⟨key, digest, cached, hProtects, hReplay, hTold⟩ :=
    (hPost execution rfl).1 hReplayed
  have hRun := hReaches.traced.1
  obtain ⟨o, hMem, since, hRecorded⟩ :=
    hRun.told_recorded hNew hTold
  obtain ⟨hProducer, hNames⟩ := hRun.recorded_by hMem hRecorded
  refine ⟨o, hMem, cached, ⟨?_, key, digest, since, hRecorded⟩,
    hReplay⟩
  cases hBy : ops o.thread with
  | sweep =>
      rw [hBy] at hProducer
      exact hProducer.elim
  | request producer producerKey =>
      rw [hBy] at hProducer hNames
      refine ⟨producer, producerKey, rfl, ?_⟩
      have hSame :
          producer.envelope.agentId = input.envelope.agentId :=
        requestDigest_agent hCanonical hApart hProducer.2
          hProtects.2
      exact hNames.symm.trans hSame

end Producers

/-
  A request whose envelope names another agent is turned away
  exactly when it reaches the agent check. In a run, every
  replay was produced for the agent that the envelope names,
  so it goes to its own agent exactly when the envelope names
  the agent of the request.
-/
theorem replay_respects_agents
    (svc : IcpService)
    (hCanonical : CanonicalTellsAgent svc.deps)
    (hApart : DigestsApart svc.deps) :
    (∀ (input : IntentInput) (explicitKey : Option String)
        (thread : Nat) (choices rest : List DedupChoice)
        (h h' : History DedupEff.Res DedupWorld)
        (result : ExecutionResult),
      input.envelope.agentId ≠ input.agent.raw →
      (handleIntentIdempotent svc input explicitKey).eval
          (dedupMachine svc.deps.rfc3339) thread choices h =
        some (result, h', rest) →
      (Unauthorized result ↔
        ReachesCheck svc input explicitKey
          h.world.idempotency choices)) ∧
      ∀ (ops : Nat → DedupOp) (w : DedupWorld)
        (pool : Pool DedupEff.Res DedupWorld DedupResult),
      NothingCached svc.deps.rfc3339 w →
      DedupReaches svc ops w pool →
      ∀ (thread : Nat) (input : IntentInput)
        (explicitKey : Option String)
        (execution : IntentExecution),
      ops thread = .request input explicitKey →
      pool.threads thread = .ret (.answered (.ok execution)) →
      execution.replayed = true →
      ∃ o ∈ pool.history.past, ∃ producer cached,
        ProducedFor ops producer cached o ∧
          replay svc cached = .ok execution ∧
          (producer = input.agent.raw ↔
            NamesAgent (ops thread)) := by
  constructor
  · intro input explicitKey thread choices rest h h' result
      hOther hEval
    exact unauthorized_iff hOther hEval
  · intro ops w pool hNew hReaches thread input explicitKey
      execution hOp hReturned hReplayed
    obtain ⟨o, hMem, cached, hProduced, hReplay⟩ :=
      hReaches.produced hCanonical hApart hNew hOp hReturned
        hReplayed
    refine ⟨o, hMem, input.envelope.agentId, cached, hProduced,
      hReplay, ?_⟩
    rw [hOp]
    exact Iff.rfl

/- A search with an intent id, sent by some agent. -/
private def searchAs (agentId : String) : IntentInput :=
  { sampleInput .search [] none with
    envelope :=
      { intent := "intent.search"
        intentId := some "i1"
        agentId := "bot"
        params := .obj [] }
    agent := ⟨agentId⟩ }

/- The canonical form of its envelope. -/
private def searchCanonical : List UInt8 :=
  ("\x7b\"agent_id\":\"bot\",\"context\":\x7b" ++
    "\"channel\":null,\"currency\":null," ++
    "\"jurisdiction\":null,\"locale\":null," ++
    "\"session_hint\":null\x7d," ++
    "\"intent\":\"intent.search\",\"intent_id\":\"i1\"," ++
    "\"params\":\x7b\x7d\x7d").toList.map
      fun c => UInt8.ofNat c.toNat

/- What the search answers to the agent `bot`. -/
private def searchBody : IntentResponseBody where
  intent := "intent.search"
  intentId := "i1"
  transaction :=
    { id := "txn_a3"
      state := .draft
      agentId := "bot"
      tenantId := "acme"
      mandateJti := none
      currency := "USD"
      jurisdiction := none
      buyer := {}
      shipTo := none
      billTo := none
      lineItems := []
      totals := {}
      orderId := none
      quoteExpiresAt := none
      createdAt := 0
      updatedAt := 0
      externalRefs := ∅ }
  order := none
  subscription := none
  peerQuote := none
  receipt := ⟨"", "k1", "", ""⟩
  envelope :=
    { icpVersion := "2026-04-21"
      requestId := ""
      traceId := none
      issuedAt := 0 }

/- The JSON text of the answer. -/
private def searchText : String :=
  "\x7b\"intent\":\"intent.search\",\"intent_id\":\"i1\"," ++
    "\"transaction\":\x7b\"id\":\"txn_a3\"," ++
    "\"state\":\"draft\",\"agent_id\":\"bot\"," ++
    "\"tenant_id\":\"acme\",\"currency\":\"USD\"," ++
    "\"buyer\":\x7b\"first_name\":null,\"last_name\":null," ++
    "\"email\":null,\"phone_number\":null," ++
    "\"principal_did\":null\x7d,\"ship_to\":null," ++
    "\"bill_to\":null,\"line_items\":[],\"totals\":\x7b" ++
    "\"subtotal\":null,\"discount\":null," ++
    "\"shipping\":null,\"tax\":null,\"total\":null\x7d," ++
    "\"created_at\":\"1970-01-01T00:00:00Z\"," ++
    "\"updated_at\":\"1970-01-01T00:00:00Z\"," ++
    "\"external_refs\":\x7b\x7d\x7d,\"receipt\":\x7b" ++
    "\"jti\":\"\",\"kid\":\"k1\",\"jws\":\"\"," ++
    "\"body_digest\":\"\"\x7d,\"envelope\":\x7b" ++
    "\"icp_version\":\"2026-04-21\",\"request_id\":\"\"," ++
    "\"issued_at\":\"1970-01-01T00:00:00Z\"\x7d\x7d"

/- The handler, which can read and write this search. -/
private def searchService : IcpService :=
  { concreteService with
    deps :=
      { concreteDeps with
        jcsEnvelope := fun envelope =>
          if envelope.agentId = "bot" then .ok searchCanonical
          else .error "unsupported"
        bodySha256 := fun canonical =>
          if canonical = searchCanonical then
            "a33365f4358cb081754080602b97a0aa" ++
              "dcebca0e937c88794bfd00560c13391d"
          else ""
        bodyToText := fun body =>
          if body.transaction.id = "txn_a3" then .ok searchText
          else .error "unsupported"
        bodyOfText := fun text =>
          if text = searchText then .ok searchBody
          else .error "EOF while parsing a value" } }

private theorem searchService_canonical :
    CanonicalTellsAgent searchService.deps := by
  intro envelope envelope' canonical hForm hForm'
  have hBot :
      ∀ (any : IntentEnvelope) {form},
        searchService.deps.jcsEnvelope any = .ok form →
          any.agentId = "bot" := by
    intro any form hAny
    dsimp only [searchService] at hAny
    split at hAny
    · assumption
    · cases hAny
  rw [hBot envelope hForm, hBot envelope' hForm']

private theorem searchService_apart :
    DigestsApart searchService.deps := by
  intro envelope envelope' canonical canonical' hForm hForm' _
  have hOne :
      ∀ (any : IntentEnvelope) {form},
        searchService.deps.jcsEnvelope any = .ok form →
          form = searchCanonical := by
    intro any form hAny
    dsimp only [searchService] at hAny
    split at hAny
    · exact (Except.ok.inj hAny).symm
    · cases hAny
  rw [hOne envelope hForm, hOne envelope' hForm']

/- Nothing is stored yet. -/
private def blankWorld : DedupWorld :=
  ⟨.fresh (.memory ∅) [], ⟨.memory ∅, defaultTtl⟩⟩

/- The choices of a request that executes. -/
private def plainChoices : List DedupChoice :=
  (List.range 13).map fun i => { token := "a" ++ toString i }

/- The same search of two agents under one key. -/
private def searchOfBoth : Nat → DedupOp
  | 0 => .request (searchAs "bot") (some "k2")
  | 1 => .request (searchAs "mallory") (some "k2")
  | _ => .sweep

/- One agent after the other. -/
private def bothInTurn : List (Nat × DedupChoice) :=
  plainChoices.map (fun choice => (0, choice)) ++
    List.replicate 4 (1, { token := "b" })

/- The thread has been answered by a replay. -/
private def replayedTo
    (thread : Nat)
    (pool : Pool DedupEff.Res DedupWorld DedupResult) : Bool :=
  match pool.threads thread with
  | .ret (.answered (.ok execution)) => execution.replayed
  | _ => false

private theorem replayedTo_iff
    {thread : Nat}
    {pool : Pool DedupEff.Res DedupWorld DedupResult}
    (hReplayed : replayedTo thread pool = true) :
    ∃ execution,
      pool.threads thread =
          .ret (.answered (.ok execution)) ∧
        execution.replayed = true := by
  unfold replayedTo at hReplayed
  split at hReplayed
  · rename_i execution hReturned
    exact ⟨execution, hReturned, hReplayed⟩
  · cases hReplayed

-- Instances are checked before what follows them, and here long
-- texts are compared.
private instance searchOfBoth_runs :
    Fact (((dedupRunOf searchService searchOfBoth blankWorld
      bothInTurn).any (replayedTo 1)) = true) :=
  ⟨by decide +kernel⟩

/-
  On an empty cache the agent `mallory` is turned away; after
  `bot` has had its answer, `mallory` is told it.
-/
theorem replay_respects_agents_sample :
    (∃ result h' rest,
      (handleIntentIdempotent searchService
          (searchAs "mallory") (some "k2")).eval
          (dedupMachine concreteRfc3339) 0 plainChoices
          (.start blankWorld) = some (result, h', rest) ∧
        (Unauthorized result ↔
          ReachesCheck searchService (searchAs "mallory")
            (some "k2") blankWorld.idempotency
            plainChoices)) ∧
      ∃ pool, dedupRunOf searchService searchOfBoth blankWorld
          bothInTurn = some pool ∧
        ∃ o ∈ pool.history.past, ∃ producer cached execution,
          ProducedFor searchOfBoth producer cached o ∧
            replay searchService cached = .ok execution ∧
            (producer = "mallory" ↔
              NamesAgent (searchOfBoth 1)) := by
  constructor
  · have hEval :
        ((handleIntentIdempotent searchService
          (searchAs "mallory") (some "k2")).eval
          (dedupMachine concreteRfc3339) 0 plainChoices
          (.start blankWorld)).isSome = true := by
      decide
    obtain ⟨⟨result, h', rest⟩, hEnd⟩ :=
      Option.isSome_iff_exists.mp hEval
    exact ⟨result, h', rest, hEnd,
      (replay_respects_agents searchService
        searchService_canonical searchService_apart).1
        (searchAs "mallory") (some "k2") 0 plainChoices rest
        (.start blankWorld) h' result (by decide) hEnd⟩
  · obtain ⟨pool, hPool, hReplayed⟩ :=
      (Option.any_eq_true _ _).mp searchOfBoth_runs.out
    obtain ⟨execution, hReturned, hYes⟩ :=
      replayedTo_iff hReplayed
    obtain ⟨o, hMem, producer, cached, hProduced⟩ :=
      (replay_respects_agents searchService
        searchService_canonical searchService_apart).2
        searchOfBoth blankWorld pool (fun _ => rfl)
        ⟨bothInTurn, hPool⟩ 1 (searchAs "mallory")
        (some "k2") execution rfl hReturned hYes
    exact ⟨pool, hPool, o, hMem, producer, cached, execution,
      hProduced⟩

private instance mallory_is_answered :
    Fact ((((handleIntentIdempotent searchService
        (searchAs "bot") (some "k2")).eval
        (dedupMachine concreteRfc3339) 0 plainChoices
        (.start blankWorld)).any fun first =>
      ((handleIntentIdempotent searchService
          (searchAs "mallory") (some "k2")).eval
          (dedupMachine concreteRfc3339) 1 plainChoices
          first.2.1).any fun second =>
        second.1.isOk) = true) :=
  ⟨by decide +kernel⟩

/- The agent check can be skipped by way of the cache. -/
theorem replay_skips_agent_check :
    ¬ ∀ (svc : IcpService) (input : IntentInput)
        (explicitKey : Option String) (thread : Nat)
        (choices rest : List DedupChoice)
        (h h' : History DedupEff.Res DedupWorld)
        (result : ExecutionResult),
      CanonicalTellsAgent svc.deps →
      DigestsApart svc.deps →
      input.envelope.agentId ≠ input.agent.raw →
      (handleIntentIdempotent svc input explicitKey).eval
          (dedupMachine svc.deps.rfc3339) thread choices h =
        some (result, h', rest) →
      Unauthorized result := by
  intro hAll
  obtain ⟨⟨answer, h, unused⟩, hFirst, hSecond⟩ :=
    (Option.any_eq_true _ _).mp mallory_is_answered.out
  obtain ⟨⟨result, h', rest⟩, hEnd, hOk⟩ :=
    (Option.any_eq_true _ _).mp hSecond
  obtain ⟨message, rfl⟩ :=
    hAll searchService (searchAs "mallory") (some "k2") 1
      plainChoices rest h h' result searchService_canonical
      searchService_apart (by decide) hEnd
  cases hOk

end Protocol

end IcpHandler
