import IcpHandler.Model.Concrete
import IcpHandler.Properties.ReplayAuthorization
import IcpHandler.Service.Mcp

/-
  Calls of tools, any number of them, interleaved at their
  effects. The key of a call names its tool and transaction
  but not its other arguments, so a call reaches the service
  exactly when no other call's entry is under its key.

  Main declarations:
    * `Served`
    * `FindsKeyFree`
    * `handleToolsCall_traced`
    * `served_iff_finds_key_free`
    * `second_offer_refused`
-/

------------------------------------------------------------
-- Calls that Reach the Service
------------------------------------------------------------

namespace IcpHandler

namespace Protocol

open Model Service Concurrency

/- The claim of a key was not won. -/
def claimLost : Move DedupEff.Res → Bool
  | ⟨.reserve _ _ _, answer⟩ =>
      match answer.2 with
      | .won _ => false
      | _ => true
  | _ => false

/- The cache has told the request of an entry. -/
def metEntry : Move DedupEff.Res → Bool
  | ⟨.lookup _ _, _⟩ => true
  | move => claimLost move

/- The rate limiter, where it was asked, lets the call pass. -/
def admitted : Move DedupEff.Res → Bool
  | ⟨.checkTenantRateLimit _, answer⟩ =>
      match answer with
      | .ok allowed => allowed
      | .error _ => false
  | _ => true

/-
  The request was carried out: among its moves is a whole run
  of `handle_intent` on the stores as it found them, the
  answer is what that run returned, and no entry of the cache
  came into it.
-/
structure Served
    (svc : IcpService)
    (input : IntentInput)
    (result : ExecutionResult)
    (moves : DedupMoves) : Prop where
  carried :
    ∃ inner outcome before after,
      (handleIntent svc input).run.Yields inner outcome ∧
      moves =
        after ++ ((inner.map innerMove).reverse ++ before) ∧
      result = outcome.map fun body => ⟨body, false⟩
  unmet : ∀ move ∈ moves, metEntry move = false

/- The same for a call, under the id that was drawn for it. -/
def ServedCall
    (svc : IcpService)
    (request : ToolRequest)
    (result : ExecutionResult)
    (moves : DedupMoves) : Prop :=
  ∃ token,
    (⟨.inner .uuid, token⟩ : Move DedupEff.Res) ∈ moves ∧
      Served svc (request.input token) result moves

/- Envelopes and responses can be written down. -/
structure Writable (deps : Deps) : Prop where
  envelopes :
    ∀ envelope, ∃ canonical,
      deps.jcsEnvelope envelope = .ok canonical
  bodies : ∀ body, ∃ text, deps.bodyToText body = .ok text

theorem metEntry_of_lost
    {move : Move DedupEff.Res}
    (hLost : claimLost move = true) :
    metEntry move = true := by
  unfold metEntry
  split
  · rfl
  · exact hLost

end Protocol

end IcpHandler

------------------------------------------------------------
-- Tracing a Call
------------------------------------------------------------

namespace IcpHandler

namespace Protocol

open Model Service Concurrency

section Tracing

variable {svc : IcpService}
variable {input : IntentInput}
variable {past : DedupMoves}

/- The intent's own moves do not ask the cache. -/
theorem innerMove_unmet
    (inner : List (Move Eff.Res))
    (hPast : ∀ move ∈ past, metEntry move = false) :
    ∀ move ∈ (inner.map innerMove).reverse ++ past,
      metEntry move = false := by
  intro move hMove
  rcases List.mem_append.mp hMove with hInner | hOld
  · rw [List.mem_reverse, List.mem_map] at hInner
    obtain ⟨effect, _, rfl⟩ := hInner
    rfl
  · exact hPast move hOld

/- What a request does after a claim was lost says nothing. -/
theorem traced_of_lost
    {α : Type}
    {P : α → DedupMoves → Prop}
    (program : Prog DedupEff.Res α)
    {move : Move DedupEff.Res}
    (hMove : move ∈ past)
    (hLost : claimLost move = true) :
    program.Traced (fun _ _ => True)
      (fun value later =>
        (∀ move ∈ later, claimLost move = false) →
          P value later) past := by
  refine (Prog.Traced.appends program past).mono ?_
  rintro value later ⟨recent, rfl⟩ hNone
  have hKept := hNone move (List.mem_append_right _ hMove)
  rw [hLost] at hKept
  cases hKept

/- Under its own claim a request is carried out. -/
theorem executeClaimed_served
    (hWritable : Writable svc.deps)
    {key digest token lock : String}
    (hPast : ∀ move ∈ past, metEntry move = false) :
    (executeClaimed svc input key digest token lock).Traced
      (fun _ _ => True)
      (fun result later => Served svc input result later)
      past := by
  unfold executeClaimed
  refine Prog.Traced.bind_iff.mpr ?_
  refine (runInner_yields (fun _ _ => trivial)
    (handleIntent svc input) past).mono ?_
  rintro outcome later ⟨inner, hYields, rfl⟩
  have hUnmet := innerMove_unmet inner hPast
  -- What is still done does not ask the cache again.
  have hServed :
      ∀ after : DedupMoves,
        (∀ move ∈ after, metEntry move = false) →
        Served svc input
          (outcome.map fun body => ⟨body, false⟩)
          (after ++ ((inner.map innerMove).reverse ++ past)) := by
    intro after hAfter
    refine ⟨⟨inner, outcome, past, after, hYields, rfl, rfl⟩,
      ?_⟩
    intro move hMove
    rcases List.mem_append.mp hMove with hNew | hOld
    · exact hAfter move hNew
    · exact hUnmet move hOld
  cases outcome with
  | error halt =>
      cases halt with
      | panicked message =>
          refine ⟨trivial, fun unlocked => ?_⟩
          refine hServed [⟨.inner (.unlock lock), unlocked⟩] ?_
          simp [metEntry, claimLost]
      | error e =>
          refine ⟨trivial, fun released => ⟨trivial,
            fun unlocked => ?_⟩⟩
          refine hServed
            [⟨.inner (.unlock lock), unlocked⟩,
              ⟨.release _ token, released⟩] ?_
          simp [metEntry, claimLost]
  | ok body =>
      obtain ⟨text, hText⟩ := hWritable.bodies body
      dsimp only
      rw [hText]
      refine ⟨trivial, fun stored => ⟨trivial,
        fun unlocked => ?_⟩⟩
      refine hServed
        [⟨.inner (.unlock lock), unlocked⟩,
          ⟨.record _ digest _ token, stored⟩] ?_
      simp [metEntry, claimLost]

/- Under its key a request is carried out if it wins. -/
theorem executeUnderKey_served
    (hWritable : Writable svc.deps)
    {key digest : String}
    (hPast : ∀ move ∈ past, metEntry move = false) :
    (executeUnderKey svc input key digest).Traced
      (fun _ _ => True)
      (fun result later =>
        (∀ move ∈ later, claimLost move = false) →
          Served svc input result later) past := by
  unfold executeUnderKey
  refine ⟨trivial, fun locked => ⟨trivial, ?_⟩⟩
  rintro ⟨readAt, outcome⟩
  cases outcome with
  | won token =>
      refine (executeClaimed_served hWritable ?_).mono
        fun _ _ hServed _ => hServed
      simpa [metEntry, claimLost] using hPast
  | replay cached =>
      exact traced_of_lost _ List.mem_cons_self rfl
  | conflict =>
      exact traced_of_lost _ List.mem_cons_self rfl
  | inProgress =>
      exact traced_of_lost _ List.mem_cons_self rfl

/- The same past the rate limit, with or without a key. -/
theorem executeAdmitted_served
    (hWritable : Writable svc.deps)
    {explicitKey : Option String}
    (hPast : ∀ move ∈ past, metEntry move = false) :
    (executeAdmitted svc input explicitKey).Traced
      (fun _ _ => True)
      (fun result later =>
        (∀ move ∈ later, claimLost move = false) →
          Served svc input result later) past := by
  unfold executeAdmitted
  cases effectiveKey input explicitKey with
  | none =>
      refine Prog.Traced.bind_iff.mpr ?_
      refine (runInner_yields (fun _ _ => trivial)
          (handleIntent svc input)
        past).mono ?_
      rintro outcome later ⟨inner, hYields, rfl⟩ _
      exact ⟨⟨inner, outcome, past, [], hYields, rfl, rfl⟩,
        innerMove_unmet inner hPast⟩
  | some key =>
      obtain ⟨canonical, hCanonical⟩ :=
        hWritable.envelopes input.envelope
      have hDigest :
          requestDigest svc input.envelope =
            .ok (svc.deps.bodySha256 canonical) := by
        unfold requestDigest
        rw [hCanonical]
      dsimp only
      rw [hDigest]
      exact executeUnderKey_served hWritable hPast

/- A protected request the rate limiter lets pass. -/
theorem handleIntentIdempotent_served
    (hWritable : Writable svc.deps)
    {explicitKey : Option String}
    (hPast : ∀ move ∈ past, metEntry move = false) :
    (handleIntentIdempotent svc input explicitKey).Traced
      (fun _ _ => True)
      (fun result later =>
        (∀ move ∈ later, admitted move = true) →
        (∀ move ∈ later, claimLost move = false) →
          Served svc input result later) past := by
  unfold handleIntentIdempotent
  split
  · exact (executeAdmitted_served hWritable hPast).mono
      fun _ _ hServed _ => hServed
  · refine ⟨trivial, fun decision => ?_⟩
    -- Whoever was turned away was not admitted.
    have hAway :
        ∀ {result : ExecutionResult},
          admitted
              ⟨.checkTenantRateLimit input.tenant.tenantId,
                decision⟩ = false →
          ((∀ move ∈
              (⟨.checkTenantRateLimit input.tenant.tenantId,
                decision⟩ : Move DedupEff.Res) :: past,
            admitted move = true) →
          (∀ move ∈
              (⟨.checkTenantRateLimit input.tenant.tenantId,
                decision⟩ : Move DedupEff.Res) :: past,
            claimLost move = false) →
          Served svc input result
            (⟨.checkTenantRateLimit input.tenant.tenantId,
              decision⟩ :: past)) := by
      intro result hDenied hAdmitted _
      have hYes := hAdmitted _ List.mem_cons_self
      rw [hDenied] at hYes
      cases hYes
    rcases decision with e | _ | _
    · exact hAway rfl
    · exact hAway rfl
    · refine (executeAdmitted_served hWritable ?_).mono
        fun _ _ hServed _ => hServed
      simpa [metEntry, claimLost] using hPast

end Tracing

end Protocol

end IcpHandler

------------------------------------------------------------
-- Runs of Calls
------------------------------------------------------------

namespace IcpHandler

namespace Protocol

open Model Service Concurrency

/- One call on every thread. -/
def toolsPool
    (svc : IcpService)
    (keys : List StoredKey)
    (calls : Nat → ToolsCall)
    (w : DedupWorld) :
    Pool DedupEff.Res DedupWorld ToolsCallResult :=
  ⟨.start w, fun thread =>
    handleToolsCall svc keys (calls thread)⟩

/- The pool is one the calls can reach. -/
def ToolsReaches
    (svc : IcpService)
    (keys : List StoredKey)
    (calls : Nat → ToolsCall)
    (w : DedupWorld)
    (pool : Pool DedupEff.Res DedupWorld ToolsCallResult) :
    Prop :=
  ∃ schedule,
    (toolsPool svc keys calls w).run
      (dedupMachine svc.deps.rfc3339) schedule = some pool

/-
  Whoever claims a key at this occurrence finds it free:
  nobody's entry is under it, or what is has run out.
-/
def FindsKeyFree
    (rfc3339 : Rfc3339)
    (o : DedupHappening) : Prop :=
  ∀ key digest lease, o.effect = .reserve key digest lease →
    ∃ choice,
      execDedup rfc3339 o.thread choice o.before o.effect =
          some (o.answer, o.after) ∧
        KeyFree rfc3339 key choice.clock lease choice.fault
          o.before.idempotency

section Calls

variable {svc : IcpService}
variable {keys : List StoredKey}
variable {calls : Nat → ToolsCall}
variable {w : DedupWorld}
variable {pool : Pool DedupEff.Res DedupWorld ToolsCallResult}

/- The two moves of a call before its request ask nothing. -/
theorem past_unmet
    (now : (DedupEff.inner .now).Res)
    (token : (DedupEff.inner .uuid).Res) :
    ∀ move ∈
        [(⟨.inner .uuid, token⟩ : Move DedupEff.Res),
          ⟨.inner .now, now⟩],
      metEntry move = false := by
  simp [metEntry, claimLost]

/- A call that wins its claims reaches the service. -/
theorem handleToolsCall_traced
    (hWritable : Writable svc.deps)
    (call : ToolsCall) :
    (handleToolsCall svc keys call).Traced (fun _ _ => True)
      (fun answer moves =>
        ∀ request result,
          ToolsCall.request keys call = .ok request →
          answer = .ok result →
          (∀ move ∈ moves, admitted move = true) →
          (∀ move ∈ moves, claimLost move = false) →
          ServedCall svc request result moves) [] := by
  unfold handleToolsCall
  cases ToolsCall.request keys call with
  | error e => exact fun _ _ hNo => nomatch hNo
  | ok request =>
      refine traced_perform.mpr ⟨trivial, fun now => ?_⟩
      split
      · exact fun _ _ _ hNo => nomatch hNo
      · split
        · exact fun _ _ _ hNo => nomatch hNo
        · unfold callService
          refine traced_perform.mpr ⟨trivial, fun token => ?_⟩
          refine Prog.Traced.bind_iff.mpr ?_
          have hServed :=
            (handleIntentIdempotent_served hWritable
              (past_unmet now token)).and
                (Prog.Traced.appends
                  (handleIntentIdempotent svc
                    (request.input token) request.idemKey)
                  _)
          simp only [and_self] at hServed
          refine hServed.mono ?_
          rintro outcome later ⟨hLater, recent, rfl⟩ other
            result hRequest hResult hAdmitted hWon
          cases hRequest
          cases hResult
          exact ⟨token, by simp, hLater hAdmitted hWon⟩

/- A claim is won by whoever finds the key free. -/
theorem claimLost_eq_false_iff
    {rfc3339 : Rfc3339}
    {o : DedupHappening}
    (hExec :
      ∃ choice,
        execDedup rfc3339 o.thread choice o.before o.effect =
          some (o.answer, o.after)) :
    claimLost o.move = false ↔ FindsKeyFree rfc3339 o := by
  rcases o with ⟨thread, effect, answer, before, after⟩
  cases effect with
  | reserve key digest lease =>
      have hAnswer :
          ∀ choice : DedupChoice,
            execDedup rfc3339 thread choice before
                (.reserve key digest lease) =
              some (answer, after) →
            (before.idempotency.reserve rfc3339 choice.fault
              choice.token key digest choice.clock
                lease).1 = answer.2 := by
        intro choice hChoice
        simp only [execDedup] at hChoice
        split at hChoice
        · cases hChoice
        · exact congrArg Prod.snd
            (Prod.mk.inj (Option.some.inj hChoice)).1
      constructor
      · rintro hWon key' digest' lease' hEffect
        cases hEffect
        obtain ⟨choice, hChoice⟩ := hExec
        refine ⟨choice, hChoice, ?_⟩
        have hReserve := hAnswer choice hChoice
        rcases answer with ⟨readAt, outcome⟩
        cases outcome with
        | won token =>
            have hToken := reserve_won_token hReserve
            rw [hToken] at hReserve
            exact reserve_won_iff.mp hReserve
        | replay cached => cases hWon
        | conflict => cases hWon
        | inProgress => cases hWon
      · intro hFinds
        obtain ⟨choice, hChoice, hFree⟩ :=
          hFinds key digest lease rfl
        have hReserve := hAnswer choice hChoice
        rw [reserve_won_iff.mpr hFree] at hReserve
        rcases answer with ⟨readAt, outcome⟩
        cases hReserve
        rfl
  | _ =>
      exact iff_of_true rfl fun _ _ _ hNo => nomatch hNo

/- In a run, every call does what it does when traced. -/
theorem ToolsReaches.traced
    (hReaches : ToolsReaches svc keys calls w pool)
    {Q : Nat → ToolsCallResult → DedupMoves → Prop}
    (hTraced :
      ∀ thread,
        (handleToolsCall svc keys (calls thread)).Traced
          (fun _ _ => True) (Q thread) []) :
    Lawful (dedupMachine svc.deps.rfc3339)
        (fun _ _ _ => True) w pool.history ∧
      ∀ thread,
        (pool.threads thread).Traced (fun _ _ => True)
          (Q thread) (own thread pool.history.past) := by
  obtain ⟨schedule, hRun⟩ := hReaches
  exact Pool.run_lawful .start hTraced hRun

/- In a run, claims are won where the key is found free. -/
theorem ToolsReaches.won_iff
    (hReaches : ToolsReaches svc keys calls w pool)
    {o : DedupHappening}
    (hMem : o ∈ pool.history.past) :
    claimLost o.move = false ↔
      FindsKeyFree svc.deps.rfc3339 o := by
  obtain ⟨hLawful, _⟩ :=
    hReaches.traced (Q := fun _ _ _ => True) fun _ =>
      Prog.Traced.of_forall (fun _ _ => trivial)
        (fun _ _ => trivial) _ _
  obtain ⟨recent, older, hPast⟩ := List.append_of_mem hMem
  obtain ⟨earlier, _, _, hAllows, _⟩ := hLawful.cut hPast
  obtain ⟨choice, hExec⟩ := hAllows.exec_eq
  rw [← hAllows.before_eq] at hExec
  exact claimLost_eq_false_iff ⟨choice, hExec⟩

end Calls

/-
  In every run of calls, however they interleave and whatever
  the cache held before: a call that the rate limiter lets
  pass has the outcome that `handle_intent` gives on the
  stores as they are, with no entry of the cache coming into
  it, exactly when it finds its key free where it claims it.
-/
theorem served_iff_finds_key_free
    (svc : IcpService)
    (hWritable : Writable svc.deps)
    (keys : List StoredKey)
    (calls : Nat → ToolsCall)
    (w : DedupWorld)
    (pool : Pool DedupEff.Res DedupWorld ToolsCallResult)
    (hReaches : ToolsReaches svc keys calls w pool)
    (thread : Nat)
    (request : ToolRequest)
    (hRequest :
      ToolsCall.request keys (calls thread) = .ok request)
    (result : ExecutionResult)
    (hReturned : pool.threads thread = .ret (.ok result))
    (hAdmitted :
      ∀ o ∈ pool.history.past, o.thread = thread →
        admitted o.move = true) :
    ServedCall svc request result
        (own thread pool.history.past) ↔
      ∀ o ∈ pool.history.past, o.thread = thread →
        FindsKeyFree svc.deps.rfc3339 o := by
  have hTraced :=
    (hReaches.traced fun other =>
      handleToolsCall_traced hWritable (calls other)).2 thread
  rw [hReturned] at hTraced
  constructor
  · rintro ⟨token, _, hServed⟩ o hMem hThread
    refine (hReaches.won_iff hMem).mp ?_
    rw [Bool.eq_false_iff]
    intro hLost
    have hUnmet :=
      hServed.unmet o.move
        (mem_own_iff.mpr ⟨o, hMem, hThread, rfl⟩)
    rw [metEntry_of_lost hLost] at hUnmet
    cases hUnmet
  · intro hFree
    refine hTraced request result hRequest rfl ?_ ?_
    · intro move hMove
      obtain ⟨o, hMem, hThread, rfl⟩ := mem_own_iff.mp hMove
      exact hAdmitted o hMem hThread
    · intro move hMove
      obtain ⟨o, hMem, hThread, rfl⟩ := mem_own_iff.mp hMove
      exact (hReaches.won_iff hMem).mpr (hFree o hMem hThread)

/- The parameters of an offer, with a proposed total. -/
private def offerParams
    (params : Json) : Except String NegotiateParams := do
  let id ← requiredStr "transaction_id" params
  match params.get? "proposed_total" with
  | none => pure { transactionId := id }
  | some total =>
      let currency ← requiredStr "currency" total
      match (total.get? "amount_minor").bind Json.asI64? with
      | none => throw "missing field `amount_minor`"
      | some amount =>
          pure
            { transactionId := id
              proposedTotal := some ⟨amount, none, currency⟩ }

/- The amount that an offer proposes. -/
private def offered (params : Json) : Option Int64 :=
  ((params.get? "proposed_total").bind
    (Json.get? "amount_minor")).bind Json.asI64?

/- The canonical form of a call on the sample transaction. -/
private def callCanonical
    (intent : String)
    (amount : Option Int64) : List UInt8 :=
  ("\x7b\"agent_id\":\"did:stateset:agent:mcp-acme\"," ++
    "\"context\":\x7b\"channel\":null,\"currency\":null," ++
    "\"jurisdiction\":null,\"locale\":null," ++
    "\"session_hint\":null\x7d," ++
    "\"intent\":\"" ++ intent ++ "\",\"params\":\x7b" ++
    (match amount with
      | none => ""
      | some amount =>
          "\"proposed_total\":\x7b\"amount_minor\":" ++
            toString amount ++ ",\"currency\":\"USD\"\x7d,") ++
    "\"transaction_id\":\"txn_q3\"\x7d," ++
    "\"transaction_id\":\"txn_q3\"\x7d").toUTF8.data.toList

/- The handler, which can also read offers. -/
private def toolsService : IcpService :=
  { concreteService with
    deps :=
      { concreteDeps with
        negotiateParams := offerParams
        jcsEnvelope := fun envelope =>
          .ok (callCanonical envelope.intent
            (offered envelope.params))
        bodySha256 := fun canonical =>
          if canonical =
              callCanonical "intent.negotiate" (some 900) then
            "59ba6ca0fcf95c067f42465fa2961117" ++
              "cc70d4b9a5d31a4bdf2a43741cdb4579"
          else if canonical =
              callCanonical "intent.negotiate" (some 800) then
            "9c092b248c9a76a884198b022bfc8709" ++
              "520422b0ba6ef32a230164a6ac6f7645"
          else if canonical =
              callCanonical "intent.confirm_receipt" none then
            "6454f05f915e67176329948f9f62ab2a" ++
              "93d0250ce158d4748ee77d8a8c4ad45f"
          else "" } }

private theorem toolsService_writable :
    Writable toolsService.deps :=
  ⟨fun _ => ⟨_, rfl⟩, fun _ => ⟨_, rfl⟩⟩

private def toolsKeys : List StoredKey :=
  [{ tenantId := "acme", key := "icp_key" }]

private def toolCall
    (name : String)
    (arguments : List (String × Json)) : ToolsCall :=
  ⟨some "Bearer icp_key",
    some (.obj
      [("name", .str name), ("arguments", .obj arguments)])⟩

private def offerCall (amount : Int) : ToolsCall :=
  toolCall "icp_negotiate"
    [("transaction_id", .str "txn_q3"),
      ("proposed_total",
        .obj
          [("amount_minor", .int amount),
            ("currency", .str "USD")])]

/- A quote, two offers on it, and its receipt. -/
private def sampleCalls : Nat → ToolsCall
  | 0 => toolCall "icp_quote" [sampleItems 1]
  | 1 => offerCall 900
  | 2 => offerCall 800
  | _ =>
      toolCall "icp_confirm_receipt"
        [("transaction_id", .str "txn_q3")]

/- Nothing is stored yet. -/
private def quietWorld : DedupWorld :=
  ⟨.fresh (.memory ∅) [], ⟨.memory ∅, defaultTtl⟩⟩

/- So many steps of one call. -/
private def stepsOf
    (thread : Nat)
    (name : String)
    (count : Nat) : List (Nat × DedupChoice) :=
  (List.range count).map fun i =>
    (thread, { token := name ++ toString i })

private def sampleRunOf
    (schedule : List (Nat × DedupChoice)) :
    Option (Pool DedupEff.Res DedupWorld ToolsCallResult) :=
  (toolsPool toolsService toolsKeys sampleCalls quietWorld).run
    (dedupMachine concreteRfc3339) schedule

/- The call has been answered, and nobody was turned away. -/
private def answeredAt
    (thread : Nat)
    (pool : Pool DedupEff.Res DedupWorld ToolsCallResult) :
    Bool :=
  (match pool.threads thread with
    | .ret (.ok _) => true
    | _ => false) &&
    pool.history.past.all fun o => admitted o.move

private theorem answeredAt_iff
    {thread : Nat}
    {pool : Pool DedupEff.Res DedupWorld ToolsCallResult}
    (hAnswered : answeredAt thread pool = true) :
    (∃ result, pool.threads thread = .ret (.ok result)) ∧
      ∀ o ∈ pool.history.past, admitted o.move = true := by
  unfold answeredAt at hAnswered
  rw [Bool.and_eq_true, List.all_eq_true] at hAnswered
  refine ⟨?_, hAnswered.2⟩
  split at hAnswered
  · rename_i result hReturned
    exact ⟨result, hReturned⟩
  · exact nomatch hAnswered.1

/- The quote is carried out, and so is what is asked next. -/
private def quoteThenConfirm : List (Nat × DedupChoice) :=
  stepsOf 0 "q" 19 ++ stepsOf 3 "r" 10

/- Every claim the thread made was won. -/
private def claimsWon
    (thread : Nat)
    (pool : Pool DedupEff.Res DedupWorld ToolsCallResult) :
    Bool :=
  (own thread pool.history.past).all fun move =>
    !claimLost move

/- After a quote, the next call wins its key and is served. -/
theorem served_iff_finds_key_free_sample :
    ∃ pool request result,
      sampleRunOf quoteThenConfirm = some pool ∧
        pool.threads 3 = .ret (.ok result) ∧
        ServedCall toolsService request result
          (own 3 pool.history.past) := by
  have hRun :
      (sampleRunOf quoteThenConfirm).any (fun pool =>
        answeredAt 3 pool && claimsWon 3 pool) = true := by
    decide
  obtain ⟨pool, hPool, hBoth⟩ :=
    (Option.any_eq_true _ _).mp hRun
  obtain ⟨hAnswered, hWon⟩ := Bool.and_eq_true_iff.mp hBoth
  obtain ⟨⟨result, hReturned⟩, hAdmitted⟩ :=
    answeredAt_iff hAnswered
  have hReaches :
      ToolsReaches toolsService toolsKeys sampleCalls quietWorld
        pool :=
    ⟨quoteThenConfirm, hPool⟩
  obtain ⟨request, hRequest⟩ :
      ∃ request,
        ToolsCall.request toolsKeys (sampleCalls 3) =
          .ok request :=
    ⟨_, rfl⟩
  refine ⟨pool, request, result, hPool, hReturned, ?_⟩
  refine (served_iff_finds_key_free toolsService
    toolsService_writable toolsKeys sampleCalls quietWorld pool
    hReaches 3 request hRequest result hReturned
    (fun o hMem _ => hAdmitted o hMem)).mpr ?_
  intro o hMem hThread
  refine (hReaches.won_iff hMem).mp ?_
  unfold claimsWon at hWon
  rw [List.all_eq_true] at hWon
  simpa using
    hWon o.move (mem_own_iff.mpr ⟨o, hMem, hThread, rfl⟩)

/-
  The second offer on a transaction differs from every earlier
  call, and is refused because of the first one's entry.
-/
theorem second_offer_refused :
    ¬ ∀ (svc : IcpService) (keys : List StoredKey)
        (calls : Nat → ToolsCall) (w : DedupWorld)
        (pool : Pool DedupEff.Res DedupWorld ToolsCallResult)
        (thread : Nat) (request : ToolRequest)
        (result : ExecutionResult),
      Writable svc.deps →
      ToolsReaches svc keys calls w pool →
      ToolsCall.request keys (calls thread) = .ok request →
      request.intent.isStateChange = true →
      (∀ other earlier, other ≠ thread →
        ToolsCall.request keys (calls other) = .ok earlier →
        earlier.tenant = request.tenant ∧
          earlier.arguments ≠ request.arguments) →
      pool.threads thread = .ret (.ok result) →
      (∀ o ∈ pool.history.past, o.thread = thread →
        admitted o.move = true) →
      ServedCall svc request result
        (own thread pool.history.past) := by
  intro hAll
  have hRun :
      (sampleRunOf
          (stepsOf 0 "q" 19 ++ stepsOf 1 "r" 23 ++
            stepsOf 2 "s" 6)).any (fun pool =>
        answeredAt 2 pool && !claimsWon 2 pool) = true := by
    decide +kernel
  obtain ⟨pool, hPool, hBoth⟩ :=
    (Option.any_eq_true _ _).mp hRun
  obtain ⟨hAnswered, hLost⟩ := Bool.and_eq_true_iff.mp hBoth
  obtain ⟨⟨result, hReturned⟩, hAdmitted⟩ :=
    answeredAt_iff hAnswered
  obtain ⟨request, hRequest⟩ :
      ∃ request,
        ToolsCall.request toolsKeys (sampleCalls 2) =
          .ok request :=
    ⟨_, rfl⟩
  have hOthers :
      ∀ other earlier, other ≠ 2 →
        ToolsCall.request toolsKeys (sampleCalls other) =
          .ok earlier →
        earlier.tenant = request.tenant ∧
          earlier.arguments ≠ request.arguments := by
    intro other earlier hOther hEarlier
    cases hRequest
    match other with
    | 0 =>
        cases hEarlier
        refine ⟨rfl, fun hSame => ?_⟩
        have hAmount := congrArg offered hSame
        revert hAmount
        decide
    | 1 =>
        cases hEarlier
        refine ⟨rfl, fun hSame => ?_⟩
        have hAmount := congrArg offered hSame
        revert hAmount
        decide
    | 2 => exact absurd rfl hOther
    | n + 3 =>
        cases hEarlier
        refine ⟨rfl, fun hSame => ?_⟩
        have hAmount := congrArg offered hSame
        revert hAmount
        decide
  obtain ⟨token, _, hServed⟩ :=
    hAll toolsService toolsKeys sampleCalls quietWorld pool 2
      request result toolsService_writable ⟨_, hPool⟩ hRequest
      (by cases hRequest; rfl) hOthers hReturned
      (fun o hMem _ => hAdmitted o hMem)
  have hWon : claimsWon 2 pool = true := by
    unfold claimsWon
    rw [List.all_eq_true]
    intro move hMove
    by_cases hMoveLost : claimLost move = true
    · have hUnmet := hServed.unmet move hMove
      rw [metEntry_of_lost hMoveLost] at hUnmet
      cases hUnmet
    · simpa using hMoveLost
  rw [hWon] at hLost
  cases hLost

end Protocol

end IcpHandler
