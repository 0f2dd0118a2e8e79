import IcpHandler.Protocol.Meets
import IcpHandler.Service.Idempotent

/-
  The protocol of protected requests: which calls on the cache
  a request makes, after which moves of its own, and what it
  has done when it answers.

  Main declarations:
    * `Protects`, `NamesAgent`
    * `DedupRule`
    * `DedupPost`
    * `innerMove`, `runInner_yields`
    * `dedupProg_traced`
-/

------------------------------------------------------------
-- The Rule
------------------------------------------------------------

namespace IcpHandler

namespace Protocol

open Model Service Concurrency

/- The moves of one protected request. -/
abbrev DedupMoves := Trace DedupEff.Res

/- The request goes by this key and this digest. -/
def Protects
    (svc : IcpService)
    (op : DedupOp)
    (key : IdempotencyKey)
    (digest : String) : Prop :=
  match op with
  | .request input explicitKey =>
      (∃ name, effectiveKey input explicitKey = some name ∧
          key = (input.tenant.tenantId, name)) ∧
        requestDigest svc input.envelope = .ok digest
  | .sweep => False

/- The envelope names the agent that sends it. -/
def NamesAgent : DedupOp → Prop
  | .request input _ =>
      input.envelope.agentId = input.agent.raw
  | .sweep => True

/-
  A call on the cache is made under the request's own key and
  digest. A lookup follows a claim that another worker holds,
  and a response is recorded under a claim that was won, for
  an agent that the envelope names.
-/
def DedupRule
    (svc : IcpService)
    (op : DedupOp)
    (past : DedupMoves) : DedupEff → Prop
  | .lookup key digest =>
      Protects svc op key digest ∧
        ∃ lease readAt,
          (⟨.reserve key digest lease, (readAt, .inProgress)⟩ :
            Move DedupEff.Res) ∈ past
  | .reserve key digest lease =>
      Protects svc op key digest ∧ lease = claimLease svc
  | .record key digest response token =>
      Protects svc op key digest ∧ NamesAgent op ∧
        response.status = 200 ∧
        ∃ lease readAt,
          (⟨.reserve key digest lease, (readAt, .won token)⟩ :
            Move DedupEff.Res) ∈ past
  | _ => True

/- The request was told the cached response. -/
def WasTold
    (key : IdempotencyKey)
    (digest : String)
    (cached : CachedResponse)
    (past : DedupMoves) : Prop :=
  (∃ lease readAt,
    (⟨.reserve key digest lease, (readAt, .replay cached)⟩ :
      Move DedupEff.Res) ∈ past) ∨
  ∃ readAt,
    (⟨.lookup key digest, (readAt, .replay cached)⟩ :
      Move DedupEff.Res) ∈ past

/- The request has recorded its response. -/
def HasRecorded
    (key : IdempotencyKey)
    (past : DedupMoves) : Prop :=
  ∃ digest response token answer,
    (⟨.record key digest response token, answer⟩ :
      Move DedupEff.Res) ∈ past

/-
  What a request has done when it answers: a replay was told
  it under the request's key, and an execution has recorded
  its response, if the request has a key.
-/
def ExecutionPost
    (svc : IcpService)
    (input : IntentInput)
    (explicitKey : Option String)
    (result : ExecutionResult)
    (past : DedupMoves) : Prop :=
  ∀ execution, result = .ok execution →
    (execution.replayed = true →
      ∃ key digest cached,
        Protects svc (.request input explicitKey) key digest ∧
          replay svc cached = .ok execution ∧
          WasTold key digest cached past) ∧
    (execution.replayed = false →
      ∀ name, effectiveKey input explicitKey = some name →
        HasRecorded (input.tenant.tenantId, name) past)

def DedupPost
    (svc : IcpService)
    (op : DedupOp)
    (result : DedupResult)
    (past : DedupMoves) : Prop :=
  match op, result with
  | .request input explicitKey, .answered result =>
      ExecutionPost svc input explicitKey result past
  | _, _ => True

end Protocol

end IcpHandler

------------------------------------------------------------
-- Tracing a Protected Request
------------------------------------------------------------

namespace IcpHandler

namespace Protocol

open Model Service Concurrency

section Tracing

variable {svc : IcpService}
variable {input : IntentInput}
variable {explicitKey : Option String}
variable {name digest : String}
variable {past : DedupMoves}

/- An error promises nothing. -/
theorem executionPost_error (halt : Halt) :
    ExecutionPost svc input explicitKey (.error halt) past :=
  fun _ hOk => nomatch hOk

theorem traced_perform
    {α : Type}
    {rule : DedupMoves → DedupEff → Prop}
    {effect : DedupEff}
    {next : effect.Res → Prog DedupEff.Res α}
    {Q : α → DedupMoves → Prop} :
    (perform effect >>= next).Traced rule Q past ↔
      rule past effect ∧
        ∀ answer,
          (next answer).Traced rule Q
            (⟨effect, answer⟩ :: past) :=
  Iff.rfl

theorem traced_unlockThen
    {op : DedupOp}
    {lock : String}
    {result : ExecutionResult}
    {Q : ExecutionResult → DedupMoves → Prop}
    (hQ :
      Q result (⟨.inner (.unlock lock), ()⟩ :: past)) :
    (unlockThen lock result).Traced (DedupRule svc op) Q
      past :=
  ⟨trivial, fun _ => hQ⟩

/- An intent that is carried out names its agent. -/
theorem handleIntent_names_agent :
    (handleIntent svc input).Meets (fun _ _ => True)
      (fun _ _ => input.envelope.agentId = input.agent.raw)
      (fun _ _ => True) [] := by
  unfold handleIntent
  rw [Svc.meets_bind]
  refine Svc.meets_ensure.mpr
    ⟨fun hSame => ?_, fun _ => trivial⟩
  have hAgent : input.envelope.agentId = input.agent.raw := by
    simpa using hSame
  refine Prog.Traced.of_forall (fun _ _ => trivial) ?_ _ _
  intro result later
  cases result with
  | ok body => exact hAgent
  | error halt => exact trivial

/- A move of the intent itself, among those of the request. -/
def innerMove (move : Move Eff.Res) : Move DedupEff.Res :=
  ⟨.inner move.effect, move.answer⟩

/- An intent inside a request makes a whole run of moves. -/
theorem runInner_yields
    {α : Type}
    {rule : DedupMoves → DedupEff → Prop}
    (hRule : ∀ moves effect, rule moves (.inner effect))
    (body : Svc α)
    (past : DedupMoves) :
    (runInner body).Traced rule
      (fun outcome later => ∃ inner,
        body.run.Yields inner outcome ∧
          later = (inner.map innerMove).reverse ++ past)
      past :=
  Prog.Traced.via_yields (fun _ _ => rfl) hRule body.run past

theorem runInner_handleIntent_traced
    {op : DedupOp} :
    (runInner (handleIntent svc input)).Traced
      (DedupRule svc op)
      (fun result later =>
        (∀ body, result = .ok body →
            input.envelope.agentId = input.agent.raw) ∧
          ∃ recent, later = recent ++ past ∧
            ∀ move ∈ recent, ∃ effect,
              move.effect = DedupEff.inner effect) past := by
  have hInner :
      (handleIntent svc input).run.Traced (fun _ _ => True)
        (fun result _ => ∀ body, result = .ok body →
          input.envelope.agentId = input.agent.raw) [] := by
    refine Prog.Traced.mono handleIntent_names_agent ?_
    rintro result later hPost body rfl
    exact hPost
  exact hInner.via fun _ _ => trivial

/-
  Under a claim that was won a request executes, and records
  what it answers.
-/
theorem traced_executeClaimed
    {token lock : String}
    {claimedAt : DateTime}
    (hName : effectiveKey input explicitKey = some name)
    (hDigest : requestDigest svc input.envelope = .ok digest)
    (hWon :
      (⟨.reserve (input.tenant.tenantId, name) digest
          (claimLease svc), (claimedAt, .won token)⟩ :
        Move DedupEff.Res) ∈ past) :
    (executeClaimed svc input name digest token lock).Traced
      (DedupRule svc (.request input explicitKey))
      (ExecutionPost svc input explicitKey) past := by
  unfold executeClaimed
  refine Prog.Traced.bind_iff.mpr
    (runInner_handleIntent_traced.mono ?_)
  rintro result later ⟨hAgent, recent, rfl, -⟩
  rcases result with (e | message) | body
  · exact ⟨trivial, fun _ => traced_unlockThen
      (executionPost_error _)⟩
  · exact traced_unlockThen (executionPost_error _)
  · dsimp only
    split
    · exact traced_unlockThen (executionPost_error _)
    · refine traced_perform.mpr ⟨?_, fun answer =>
        traced_unlockThen ?_⟩
      · exact ⟨⟨⟨name, hName, rfl⟩, hDigest⟩, hAgent body rfl,
          rfl, _, _, List.mem_append_right _ hWon⟩
      · rintro execution ⟨⟩
        refine ⟨fun hReplayed => (nomatch hReplayed), ?_⟩
        intro _ other hOther
        cases hName.symm.trans hOther
        exact ⟨digest, _, token, answer,
          List.mem_cons_of_mem _ List.mem_cons_self⟩

/- What is replayed is what the request was told. -/
theorem executionPost_replay
    {cached : CachedResponse}
    (hName : effectiveKey input explicitKey = some name)
    (hDigest : requestDigest svc input.envelope = .ok digest)
    (hTold :
      WasTold (input.tenant.tenantId, name) digest cached
        past) :
    ExecutionPost svc input explicitKey (replay svc cached)
      past := by
  intro execution hOk
  constructor
  · intro _
    exact ⟨_, digest, cached, ⟨⟨name, hName, rfl⟩, hDigest⟩,
      hOk, hTold⟩
  · intro hExecuted
    unfold replay at hOk
    split at hOk
    · cases hOk
      cases hExecuted
    · cases hOk

/- A request that finds its key claimed waits. -/
theorem traced_awaitResponse
    (hName : effectiveKey input explicitKey = some name)
    (hDigest : requestDigest svc input.envelope = .ok digest)
    {lease : Duration}
    {claimedAt : DateTime}
    (hBusy :
      (⟨.reserve (input.tenant.tenantId, name) digest lease,
          (claimedAt, .inProgress)⟩ :
        Move DedupEff.Res) ∈ past)
    (polls : Nat) :
    (awaitResponse svc input.tenant.tenantId name digest
        polls).Traced
      (DedupRule svc (.request input explicitKey))
      (ExecutionPost svc input explicitKey) past := by
  induction polls generalizing past with
  | zero => exact executionPost_error _
  | succ polls ih =>
      unfold awaitResponse
      refine traced_perform.mpr
        ⟨⟨⟨⟨name, hName, rfl⟩, hDigest⟩, lease, claimedAt,
          hBusy⟩, ?_⟩
      rintro ⟨readAt, outcome⟩
      cases outcome with
      | replay cached =>
          exact executionPost_replay hName hDigest
            (.inr ⟨readAt, List.mem_cons_self⟩)
      | conflict => exact executionPost_error _
      | miss => exact ih (List.mem_cons_of_mem _ hBusy)

theorem traced_executeUnderKey
    (hName : effectiveKey input explicitKey = some name)
    (hDigest : requestDigest svc input.envelope = .ok digest) :
    (executeUnderKey svc input name digest).Traced
      (DedupRule svc (.request input explicitKey))
      (ExecutionPost svc input explicitKey) past := by
  unfold executeUnderKey
  refine traced_perform.mpr ⟨trivial, fun _ => ?_⟩
  refine traced_perform.mpr
    ⟨⟨⟨⟨name, hName, rfl⟩, hDigest⟩, rfl⟩, ?_⟩
  rintro ⟨claimedAt, outcome⟩
  cases outcome with
  | won token =>
      exact traced_executeClaimed hName hDigest
        List.mem_cons_self
  | replay cached =>
      exact traced_unlockThen
        (executionPost_replay hName hDigest (.inl ⟨_, _,
          List.mem_cons_of_mem _ List.mem_cons_self⟩))
  | conflict => exact traced_unlockThen (executionPost_error _)
  | inProgress =>
      refine traced_perform.mpr ⟨trivial, fun _ => ?_⟩
      exact traced_awaitResponse hName hDigest
        (List.mem_cons_of_mem _ List.mem_cons_self) maxPolls

theorem traced_executeAdmitted :
    (executeAdmitted svc input explicitKey).Traced
      (DedupRule svc (.request input explicitKey))
      (ExecutionPost svc input explicitKey) past := by
  unfold executeAdmitted
  cases hName : effectiveKey input explicitKey with
  | none =>
      refine Prog.Traced.bind_iff.mpr
        (runInner_handleIntent_traced.mono ?_)
      rintro (halt | body) later ⟨hAgent, _⟩
      · exact executionPost_error halt
      · rintro execution ⟨⟩
        refine ⟨fun hReplayed => (nomatch hReplayed), ?_⟩
        intro _ name hSome
        rw [hName] at hSome
        cases hSome
  | some name =>
      dsimp only
      cases hDigest : requestDigest svc input.envelope with
      | error e => exact executionPost_error _
      | ok digest => exact traced_executeUnderKey hName hDigest

theorem traced_handleIntentIdempotent :
    (handleIntentIdempotent svc input explicitKey).Traced
      (DedupRule svc (.request input explicitKey))
      (ExecutionPost svc input explicitKey) past := by
  unfold handleIntentIdempotent
  split
  · exact traced_executeAdmitted
  · refine traced_perform.mpr ⟨trivial, ?_⟩
    rintro (e | admitted)
    · exact executionPost_error _
    · cases admitted with
      | false => exact executionPost_error _
      | true => exact traced_executeAdmitted

/- Every operation on the cache follows the rule. -/
theorem dedupProg_traced
    (svc : IcpService)
    (op : DedupOp) :
    (op.prog svc).Traced (DedupRule svc op)
      (DedupPost svc op) [] := by
  cases op with
  | sweep => exact ⟨trivial, fun _ => trivial⟩
  | request input explicitKey =>
      refine Prog.Traced.bind_iff.mpr
        (traced_handleIntentIdempotent.mono ?_)
      intro result later hPost
      exact hPost

end Tracing

end Protocol

end IcpHandler
