import IcpHandler.Concurrency.LockOrder
import IcpHandler.Model.Concrete
import IcpHandler.Protocol.IdempotentRuns
import IcpHandler.Protocol.Sections

/-
  Requests never wait for each other in a circle. The lock of
  an idempotency key comes first, and under it an intent takes
  at most one more lock: of a transaction, a subscription or a
  peer quote. All of them are given back, however the request
  ends.

  Main declarations:
    * `lockRank`, `requestLocks`
    * `ReturnsLocks`
    * `returns_handleIntent`
    * `carries_handleIntentIdempotent`
    * `requests_never_deadlock`
-/

------------------------------------------------------------
-- The Order of the Locks
------------------------------------------------------------

namespace IcpHandler

namespace Protocol

open Model Service Concurrency

/- What an effect of the service does to the locks. -/
def lockAct : Eff → Option (LockAct String)
  | .lock key => some (.take key)
  | .unlock key => some (.give key)
  | _ => none

/- The same for the effects of a protected request. -/
def dedupLockAct : DedupEff → Option (LockAct String)
  | .inner effect => lockAct effect
  | _ => none

/- The locks of idempotency keys come before all others. -/
def lockRank (key : String) : Nat :=
  if key.toList.head? = some 'i' then 0 else 1

theorem lockRank_idempotencyLock (tenantId key : String) :
    lockRank (idempotencyLock tenantId key) = 0 := by
  simp [lockRank, idempotencyLock, String.toList_append]

theorem lockRank_of_isRowLock
    {key : String}
    (hKey : IsRowLock key) :
    lockRank key = 1 := by
  obtain ⟨id, rfl | rfl | rfl⟩ := hKey
  · simp [lockRank, txnLock, String.toList_append]
  · simp [lockRank, subLock, String.toList_append]
  · simp [lockRank, quoteLock, String.toList_append]

theorem lockAct_eq_none
    {effect : Eff}
    (hPlain : Plain effect) :
    lockAct effect = none := by
  have hUnlocking := (plain_iff.mp hPlain).2
  cases effect with
  | lock key => cases hUnlocking
  | unlock key => cases hUnlocking
  | _ => rfl

end Protocol

end IcpHandler

------------------------------------------------------------
-- Effects that Are Never Refused for Good
------------------------------------------------------------

namespace IcpHandler

namespace Protocol

open Model Service Concurrency

/- There is a text longer than those of a list. -/
theorem exists_longer (texts : List String) :
    ∃ token : String,
      ∀ text ∈ texts, text.length < token.length := by
  induction texts with
  | nil => exact ⟨"", fun _ hText => nomatch hText⟩
  | cons first texts ih =>
      obtain ⟨token, hLonger⟩ := ih
      have hLength :
          (first ++ token ++ "a").length =
            first.length + token.length + 1 := by
        rw [String.length_append, String.length_append]
        rfl
      refine ⟨first ++ token ++ "a", fun text hText => ?_⟩
      rw [hLength]
      rcases List.mem_cons.mp hText with rfl | hText
      · omega
      · have hShorter := hLonger text hText
        omega

/- There is always a token that was not handed out yet. -/
theorem exists_unused (w : World) :
    ∃ token, w.Unused token := by
  obtain ⟨token, hLonger⟩ := exists_longer
    (w.issued.map Prod.fst ++ w.transactions.rows.keys ++
      w.subscriptions.rows.keys ++ w.peerQuotes.rows.keys)
  simp only [List.mem_append, or_imp, forall_and] at hLonger
  obtain ⟨⟨⟨hIssued, hTxns⟩, hSubs⟩, hQuotes⟩ := hLonger
  have hPrefixed :
      ∀ stem : String, token.length ≤ (stem ++ token).length := by
    intro stem
    rw [String.length_append]
    omega
  refine ⟨token, ?_, ?_, ?_, ?_⟩
  · exact fun hMem => absurd (hIssued token hMem) (lt_irrefl _)
  · refine AList.lookup_eq_none.mpr fun hMem => ?_
    exact absurd (hTxns _ hMem) (not_lt.mpr (hPrefixed "txn_"))
  · refine AList.lookup_eq_none.mpr fun hMem => ?_
    exact absurd (hSubs _ hMem) (not_lt.mpr (hPrefixed "sub_"))
  · have hNone : w.peerQuotes.get ("pq_" ++ token) = none := by
      refine AList.lookup_eq_none.mpr fun hMem => ?_
      exact absurd (hQuotes _ hMem)
        (not_lt.mpr (hPrefixed "pq_"))
    rw [hNone]
    rfl

/- A store in order carries out every operation. -/
theorem store_exec_isSome
    {V P T : Type}
    [Data.Record V P T]
    (store : Data.KeyedStore V)
    (op : Data.StoreOp V P T) :
    ∃ order, (op.exec false order store).isSome := by
  cases op with
  | listDue now =>
      refine ⟨(store.values.filter
        (Data.Record.isDue now)).map Data.Record.key, ?_⟩
      simp [Data.StoreOp.exec]
  | insert row => exact ⟨[], rfl⟩
  | get id => exact ⟨[], rfl⟩
  | update id patch => exact ⟨[], rfl⟩
  | len => exact ⟨[], rfl⟩

/- Only a lock that is held keeps an effect from happening. -/
theorem execEff_isSome
    (rfc3339 : Rfc3339)
    (thread : Nat)
    (w : World)
    (effect : Eff)
    (hFree :
      ∀ key, effect = .lock key → key ∉ w.locks.map Prod.fst) :
    ∃ choice, (execEff rfc3339 thread choice w effect).isSome := by
  cases effect with
  | uuid =>
      obtain ⟨token, hUnused⟩ := exists_unused w
      refine ⟨{ token := token }, ?_⟩
      unfold execEff
      dsimp only
      rw [if_pos hUnused]
      rfl
  | lock key =>
      refine ⟨{}, ?_⟩
      unfold execEff
      dsimp only
      rw [if_neg (hFree key rfl)]
      rfl
  | txns op =>
      obtain ⟨order, hSome⟩ := store_exec_isSome w.transactions op
      refine ⟨{ order := order }, ?_⟩
      unfold execEff
      simp only [Option.isSome_map]
      exact hSome
  | subs op =>
      obtain ⟨order, hSome⟩ := store_exec_isSome w.subscriptions op
      refine ⟨{ order := order }, ?_⟩
      unfold execEff
      simp only [Option.isSome_map]
      exact hSome
  | quotes op =>
      obtain ⟨order, hSome⟩ := store_exec_isSome w.peerQuotes op
      refine ⟨{ order := order }, ?_⟩
      unfold execEff
      simp only [Option.isSome_map]
      exact hSome
  | _ => exact ⟨{}, rfl⟩

theorem execDedup_isSome
    (rfc3339 : Rfc3339)
    (thread : Nat)
    (w : DedupWorld)
    (effect : DedupEff)
    (hFree :
      ∀ key, effect = .inner (.lock key) →
        key ∉ w.base.locks.map Prod.fst) :
    ∃ choice,
      (execDedup rfc3339 thread choice w effect).isSome := by
  cases effect with
  | inner effect =>
      obtain ⟨choice, hSome⟩ :=
        execEff_isSome rfc3339 thread w.base effect
          fun key hEffect => hFree key (by rw [hEffect])
      refine ⟨{ toChoice := choice }, ?_⟩
      simp only [execDedup, Option.isSome_map]
      exact hSome
  | reserve key digest lease =>
      refine ⟨{ token := "t" }, ?_⟩
      simp only [execDedup]
      rw [if_neg (by decide)]
      rfl
  | _ => exact ⟨{}, rfl⟩

/- The locks that requests hold, in the world. -/
def requestLocks (rfc3339 : Rfc3339) :
    LockTable (dedupMachine rfc3339) dedupLockAct where
  held w := w.base.locks
  keeps := by
    intro thread choice w effect answer w' hExec hNone
    cases effect with
    | inner effect =>
        obtain ⟨⟨found, base⟩, hBase, hResult⟩ :=
          Option.map_eq_some_iff.mp hExec
        cases hResult
        have hExecutes :
            Executes rfc3339 ⟨thread, effect, found, w.base, base⟩ :=
          ⟨choice.toChoice, hBase⟩
        refine hExecutes.framed.locks ?_
        cases effect with
        | lock key => cases hNone
        | unlock key => cases hNone
        | _ => rfl
    | reserve key digest lease =>
        have hReserve :
            execDedup rfc3339 thread choice w
              (.reserve key digest lease) = some (answer, w') :=
          hExec
        simp only [execDedup] at hReserve
        split at hReserve
        · cases hReserve
        · cases hReserve
          rfl
    | _ =>
        cases hExec
        rfl
  takes := by
    intro thread choice w effect answer w' key hExec hTake
    cases effect with
    | inner effect =>
        obtain ⟨⟨found, base⟩, hBase, hResult⟩ :=
          Option.map_eq_some_iff.mp hExec
        cases hResult
        cases effect with
        | lock key =>
            cases hTake
            have hExecutes :
                Executes rfc3339
                  ⟨thread, .lock _, found, w.base, base⟩ :=
              ⟨choice.toChoice, hBase⟩
            exact (hExecutes.lock rfl).2
        | _ => cases hTake
    | _ => cases hTake
  gives := by
    intro thread choice w effect answer w' key hExec hGive
    cases effect with
    | inner effect =>
        obtain ⟨⟨found, base⟩, hBase, hResult⟩ :=
          Option.map_eq_some_iff.mp hExec
        cases hResult
        cases effect with
        | unlock key =>
            cases hGive
            have hExecutes :
                Executes rfc3339
                  ⟨thread, .unlock _, found, w.base, base⟩ :=
              ⟨choice.toChoice, hBase⟩
            exact hExecutes.unlock rfl
        | _ => cases hGive
    | _ => cases hGive
  free := by
    intro thread w effect hFree
    refine execDedup_isSome rfc3339 thread w effect ?_
    rintro key rfl hHeld
    obtain ⟨⟨taken, holder⟩, hMem, rfl⟩ := List.mem_map.mp hHeld
    exact hFree taken rfl holder hMem

end Protocol

end IcpHandler

------------------------------------------------------------
-- Blocks of an Intent
------------------------------------------------------------

namespace IcpHandler

namespace Protocol

open Model Service Concurrency

/-
  The block gives back all the locks it takes, and none of
  them is that of an idempotency key.
-/
def ReturnsLocks
    {α : Type}
    (body : Svc α) : Prop :=
  body.run.Carries lockAct lockRank 1 [] []

namespace ReturnsLocks

variable {α β : Type}

theorem bind
    {body : Svc α}
    {next : α → Svc β}
    (hBody : ReturnsLocks body)
    (hNext : ∀ value, ReturnsLocks (next value)) :
    ReturnsLocks (body >>= next) := by
  unfold ReturnsLocks
  rw [Svc.run_bind_eq]
  refine Prog.Carries.bind hBody fun result => ?_
  cases result with
  | ok value => exact hNext value
  | error halt => exact Prog.Carries.ret _

/- A block that takes no lock. -/
theorem of_only
    {body : Svc α}
    (hOnly :
      Svc.Only (fun effect => lockAct effect = none) body) :
    ReturnsLocks body :=
  Prog.Carries.of_quiet (hOnly [])

theorem plain
    {body : Svc α}
    (hPlain : Svc.Only Plain body) :
    ReturnsLocks body :=
  of_only (hPlain.mono fun _ hEffect => lockAct_eq_none hEffect)

/- A plain block before the next one. -/
theorem after
    {body : Svc α}
    {next : α → Svc β}
    (hPlain : Svc.Only Plain body)
    (hNext : ∀ value, ReturnsLocks (next value)) :
    ReturnsLocks (body >>= next) :=
  (plain hPlain).bind hNext

/- A plain block under the lock of a row. -/
theorem locked
    {key : String}
    {body : Svc α}
    (hKey : IsRowLock key)
    (hPlain : Svc.Only Plain body) :
    ReturnsLocks (Svc.withLock key body) := by
  have hRank : lockRank key = 1 := lockRank_of_isRowLock hKey
  have hBody :
      body.run.Carries lockAct lockRank (lockRank key + 1)
        [] [] :=
    Prog.Carries.of_quiet
      (hPlain.mono (fun _ hEffect => lockAct_eq_none hEffect) [])
  have hTake : lockAct (.lock key) = some (.take key) := rfl
  have hGive : lockAct (.unlock key) = some (.give key) := rfl
  exact Prog.Carries.locked hTake hGive (le_of_eq hRank.symm)
    hBody

/- Critical sections take one lock each. -/
theorem of_sections
    {body : Svc α}
    (hSections : Sections Plain body) :
    ReturnsLocks body := by
  induction hSections with
  | only hPlain => exact plain hPlain
  | bind hBody hNext ihBody ihNext => exact ihBody.bind ihNext
  | locked hKey hPlain => exact locked hKey hPlain

end ReturnsLocks

section Bodies

variable {svc : IcpService}
variable {input : IntentInput}
variable {mandate : Option MandateEvaluation}

theorem returns_announce
    {intent : Intent}
    {outcome : Outcome}
    {body : IntentResponseBody} :
    ReturnsLocks (announce svc intent input outcome body) := by
  have hEmit :
      ∀ event, ReturnsLocks (Svc.act (.emit event)) :=
    fun _ => .of_only (Svc.Only.act rfl)
  unfold announce
  refine .after (Svc.Only.act rfl) fun token => ?_
  refine .after (Svc.Only.act rfl) fun occurredAt => ?_
  dsimp only
  split
  · exact .after (hushed_enqueueWebhook _ _).plain
      fun _ => hEmit _
  · exact hEmit _

theorem returns_respond
    {intent : Intent}
    {outcome : Outcome} :
    ReturnsLocks (respond svc intent input mandate outcome) := by
  unfold respond
  refine .after (Svc.Only.act rfl) fun issuedAt => ?_
  refine .after hushed_intentIdFor.plain fun intentId => ?_
  dsimp only
  refine .after (hushed_receiptFor _).plain fun receipt => ?_
  exact returns_announce.bind fun _ =>
    .plain (Svc.Only.pure _)

/- An intent gives back every lock it takes. -/
theorem returns_handleIntent :
    ReturnsLocks (handleIntent svc input) := by
  have hNow : Plain .now := rfl
  have hMandate :
      ∀ intent, Svc.Only Plain (mandateFor svc input intent) :=
    only_mandateFor hNow (fun _ => rfl) (fun _ => rfl)
  unfold handleIntent
  generalize Intent.parse input.envelope.intent = parsed
  refine .after (Svc.Only.ensure _ _) fun _ => ?_
  refine .after (Svc.Only.ofExcept _ _) fun intent => ?_
  refine .after (hMandate intent) fun mandate => ?_
  refine .after (only_ensureSubject mandate) fun _ => ?_
  refine ReturnsLocks.bind ?_ fun _ => returns_respond
  exact .of_sections (sections_dispatch intent)

end Bodies

end Protocol

end IcpHandler

------------------------------------------------------------
-- Protected Requests
------------------------------------------------------------

namespace IcpHandler

namespace Protocol

open Model Service Concurrency

section Requests

variable {svc : IcpService}
variable {input : IntentInput}

theorem carries_runInner :
    (runInner (handleIntent svc input)).Carries dedupLockAct
      lockRank 1 [] [] :=
  Prog.Carries.via returns_handleIntent fun _ => rfl

/- An intent runs under the lock of its key, or under none. -/
theorem carries_intent
    {before : List String}
    (hBefore : ∀ key ∈ before, lockRank key = 0) :
    (runInner (handleIntent svc input)).Carries dedupLockAct
      lockRank 0 before before := by
  refine carries_runInner.nested (by omega) fun key hKey => ?_
  rw [hBefore key hKey]
  omega

theorem carries_unlockThen
    (lock : String)
    (result : ExecutionResult) :
    (unlockThen lock result).Carries dedupLockAct lockRank 0
      [lock] [] := by
  have hGive :
      dedupLockAct (.inner (.unlock lock)) =
        some (.give lock) :=
    rfl
  exact (Prog.Carries.give hGive).bind fun _ =>
    Prog.Carries.ret _

theorem carries_executeClaimed
    {key digest token lock : String}
    (hLock : lockRank lock = 0) :
    (executeClaimed svc input key digest token lock).Carries
      dedupLockAct lockRank 0 [lock] [] := by
  have hHeld : ∀ other ∈ [lock], lockRank other = 0 := by
    intro other hOther
    rw [List.mem_singleton.mp hOther, hLock]
  refine (carries_intent hHeld).bind fun result => ?_
  rcases result with (e | message) | body
  · refine (Prog.Carries.perform rfl).bind fun _ => ?_
    exact carries_unlockThen lock _
  · exact carries_unlockThen lock _
  · dsimp only
    split
    · exact carries_unlockThen lock _
    · refine (Prog.Carries.perform rfl).bind fun _ => ?_
      exact carries_unlockThen lock _

theorem carries_awaitResponse
    (tenantId key digest : String)
    (polls : Nat) :
    (awaitResponse svc tenantId key digest polls).Carries
      dedupLockAct lockRank 0 [] [] := by
  induction polls with
  | zero => exact Prog.Carries.ret _
  | succ polls ih =>
      refine (Prog.Carries.perform rfl).bind fun found => ?_
      split
      · exact Prog.Carries.ret _
      · exact Prog.Carries.ret _
      · exact ih

theorem carries_executeUnderKey (key digest : String) :
    (executeUnderKey svc input key digest).Carries
      dedupLockAct lockRank 0 [] [] := by
  have hLock :
      lockRank (idempotencyLock input.tenant.tenantId key) = 0 :=
    lockRank_idempotencyLock _ _
  unfold executeUnderKey
  dsimp only
  generalize
    idempotencyLock input.tenant.tenantId key = lock at hLock ⊢
  have hTake :
      dedupLockAct (.inner (.lock lock)) = some (.take lock) :=
    rfl
  have hGive :
      dedupLockAct (.inner (.unlock lock)) =
        some (.give lock) :=
    rfl
  have hNone :
      ∀ other ∈ ([] : List String),
        lockRank other < lockRank lock :=
    fun _ hOther => nomatch hOther
  refine (Prog.Carries.take hTake (Nat.zero_le _) hNone).bind
    fun _ => ?_
  refine (Prog.Carries.perform rfl).bind fun claim => ?_
  split
  · exact carries_unlockThen lock _
  · exact carries_unlockThen lock _
  · exact carries_executeClaimed hLock
  · refine (Prog.Carries.give hGive).bind fun _ => ?_
    exact carries_awaitResponse _ _ _ _

theorem carries_executeAdmitted
    (explicitKey : Option String) :
    (executeAdmitted svc input explicitKey).Carries
      dedupLockAct lockRank 0 [] [] := by
  have hNone :
      ∀ held ∈ ([] : List String), lockRank held = 0 :=
    fun _ hHeld => nomatch hHeld
  unfold executeAdmitted
  split
  · exact (carries_intent hNone).bind fun _ =>
      Prog.Carries.ret _
  · split
    · exact Prog.Carries.ret _
    · exact carries_executeUnderKey _ _

/- A request takes its locks in their order and returns them. -/
theorem carries_handleIntentIdempotent
    (explicitKey : Option String) :
    (handleIntentIdempotent svc input explicitKey).Carries
      dedupLockAct lockRank 0 [] [] := by
  unfold handleIntentIdempotent
  split
  · exact carries_executeAdmitted explicitKey
  · refine (Prog.Carries.perform rfl).bind fun decision => ?_
    split
    · exact Prog.Carries.ret _
    · exact Prog.Carries.ret _
    · exact carries_executeAdmitted explicitKey

theorem carries_dedupProg (op : DedupOp) :
    (op.prog svc).Carries dedupLockAct lockRank 0 [] [] := by
  cases op with
  | request input explicitKey =>
      exact (carries_handleIntentIdempotent explicitKey).bind
        fun _ => Prog.Carries.ret _
  | sweep =>
      exact (Prog.Carries.perform rfl).bind fun _ =>
        Prog.Carries.ret _

end Requests

end Protocol

end IcpHandler

------------------------------------------------------------
-- No Deadlock
------------------------------------------------------------

namespace IcpHandler

namespace Protocol

open Model Service Concurrency

/- The thread asks for a lock that the other one holds. -/
def WaitsForLock
    (pool : Pool DedupEff.Res DedupWorld DedupResult)
    (thread other : Nat) : Prop :=
  ∃ key next,
    pool.threads thread = .step (.inner (.lock key)) next ∧
      (key, other) ∈ pool.history.world.base.locks

theorem waitsForLock_iff
    {rfc3339 : Rfc3339}
    {pool : Pool DedupEff.Res DedupWorld DedupResult}
    {thread other : Nat} :
    pool.WaitsFor (requestLocks rfc3339) thread other ↔
      WaitsForLock pool thread other := by
  constructor
  · rintro ⟨effect, next, key, hThread, hTake, hHeld⟩
    cases effect with
    | inner effect =>
        cases effect with
        | lock asked =>
            cases hTake
            exact ⟨key, next, hThread, hHeld⟩
        | _ => cases hTake
    | _ => cases hTake
  · rintro ⟨key, next, hThread, hHeld⟩
    exact ⟨.inner (.lock key), next, key, hThread, rfl, hHeld⟩

theorem waitsFor_eq
    (rfc3339 : Rfc3339)
    (pool : Pool DedupEff.Res DedupWorld DedupResult) :
    pool.WaitsFor (requestLocks rfc3339) = WaitsForLock pool :=
  funext fun _ => funext fun _ => propext waitsForLock_iff

/- Every reachable pool takes its locks in their order. -/
theorem DedupReaches.ordered
    {svc : IcpService}
    {ops : Nat → DedupOp}
    {w : DedupWorld}
    {pool : Pool DedupEff.Res DedupWorld DedupResult}
    (hReaches : DedupReaches svc ops w pool)
    (hUnlocked : w.base.locks = []) :
    pool.Ordered (requestLocks svc.deps.rfc3339) lockRank := by
  obtain ⟨schedule, hRun⟩ := hReaches
  refine Pool.run_ordered ?_ hRun
  intro thread
  have hNone :
      heldBy thread
        ((requestLocks svc.deps.rfc3339).held
          (dedupPool svc ops w).history.world) = [] := by
    change heldBy thread w.base.locks = []
    rw [hUnlocked]
    rfl
  rw [hNone]
  exact carries_dedupProg (ops thread) []
    fun _ hKey => nomatch hKey

/-
  From a start without locks, in every state that requests can
  reach: nobody waits for itself, however long the chain, and
  while a lock is held some holder waits for nobody and has a
  step to take.
-/
theorem requests_never_deadlock
    (svc : IcpService)
    (ops : Nat → DedupOp)
    (w : DedupWorld)
    (pool : Pool DedupEff.Res DedupWorld DedupResult)
    (hUnlocked : w.base.locks = [])
    (hReaches : DedupReaches svc ops w pool) :
    (∀ thread,
        ¬ Relation.TransGen (WaitsForLock pool) thread thread) ∧
      (pool.history.world.base.locks ≠ [] →
        ∃ key thread choice,
          (key, thread) ∈ pool.history.world.base.locks ∧
            (∀ other, ¬ WaitsForLock pool thread other) ∧
            (pool.step (dedupMachine svc.deps.rfc3339) thread
              choice).isSome) := by
  have hOrdered := hReaches.ordered hUnlocked
  rw [← waitsFor_eq svc.deps.rfc3339 pool]
  constructor
  · exact hOrdered.acyclic
  · intro hHeld
    exact hOrdered.proceeds hHeld

/-
  Two purchases of one transaction, the first one under an
  idempotency key. It has the lock of its key, and waits for
  the second one, which was first at the transaction.
-/
private def twoPurchases : Nat → DedupOp
  | 0 => .request (sampleBuy "t1") (some "k1")
  | 1 => .request (sampleBuy "t1") none
  | _ => .sweep

private def unlockedWorld : DedupWorld :=
  ⟨.fresh (.memory ∅) [], ⟨.memory ∅, defaultTtl⟩⟩

private def waitingSchedule : List (Nat × DedupChoice) :=
  [(1, {}), (1, {}), (0, {}), (0, {}), (0, { token := "a" })]

/- What the thread asks for, if that is a lock. -/
private def asksFor
    (pool : Pool DedupEff.Res DedupWorld DedupResult)
    (thread : Nat) : Option String :=
  match pool.threads thread with
  | .step (.inner (.lock key)) _ => some key
  | _ => none

private theorem waits_of_asksFor
    {pool : Pool DedupEff.Res DedupWorld DedupResult}
    {thread other : Nat}
    {key : String}
    (hAsks : asksFor pool thread = some key)
    (hHeld : (key, other) ∈ pool.history.world.base.locks) :
    WaitsForLock pool thread other := by
  unfold asksFor at hAsks
  split at hAsks
  · rename_i asked next hThread
    cases hAsks
    exact ⟨key, next, hThread, hHeld⟩
  · cases hAsks

theorem requests_never_deadlock_sample :
    ∃ pool,
      dedupRunOf concreteService twoPurchases unlockedWorld
          waitingSchedule = some pool ∧
        WaitsForLock pool 0 1 ∧
        (∀ thread,
          ¬ Relation.TransGen (WaitsForLock pool) thread
            thread) ∧
        ∃ key thread choice,
          (key, thread) ∈ pool.history.world.base.locks ∧
            (∀ other, ¬ WaitsForLock pool thread other) ∧
            (pool.step (dedupMachine concreteRfc3339) thread
              choice).isSome := by
  have hRun :
      ((dedupRunOf concreteService twoPurchases unlockedWorld
        waitingSchedule).any fun pool =>
          asksFor pool 0 == some "txn:t1" &&
          pool.history.world.base.locks ==
            [("idem:4:acmek1", 0), ("txn:t1", 1)]) = true := by
    decide
  rcases Option.any_eq_true _ _ |>.mp hRun with
    ⟨pool, hPool, hChecks⟩
  simp only [Bool.and_eq_true, beq_iff_eq] at hChecks
  obtain ⟨hAsks, hLocks⟩ := hChecks
  have hBoth :=
    requests_never_deadlock concreteService twoPurchases
      unlockedWorld pool rfl ⟨_, hPool⟩
  refine ⟨pool, hPool, waits_of_asksFor hAsks ?_, hBoth.1,
    hBoth.2 ?_⟩
  · rw [hLocks]
    decide
  · rw [hLocks]
    decide

end Protocol

end IcpHandler
