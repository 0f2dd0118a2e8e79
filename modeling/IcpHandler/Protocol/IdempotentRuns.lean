import IcpHandler.Properties.IdempotencyResponses
import IcpHandler.Protocol.Idempotent

/-
  Runs of protected requests: any number of them, one on each
  thread, that share a cache and interleave at their effects.
  What every run keeps is that a key which was completed stays
  completed until the clock is read past its time to live.

  Main declarations:
    * `dedupPool`, `DedupReaches`
    * `DedupEff.call?`, `readingOf`
    * `DedupRun.cellsKept`
    * `DedupRun.apart`
    * `DedupRun.told_recorded`
-/

------------------------------------------------------------
-- Calls on the Cache
------------------------------------------------------------

namespace IcpHandler

namespace Model

open Concurrency

/- The call on the cache that an effect makes. -/
def DedupEff.call?
    (c : DedupChoice) : DedupEff → Option IdempotencyCall
  | .lookup key digest =>
      some (.lookup key digest c.clock c.fault)
  | .reserve key digest lease =>
      some (.reserve key digest c.clock lease c.token c.fault)
  | .release key token => some (.release key token c.fault)
  | .record key digest response token =>
      some (.store key digest response c.clock token c.fault)
  | .prune => some (.prune c.clock c.fault)
  | .inner _ => none
  | .checkTenantRateLimit _ => none

/- The reading of the clock in an answer. -/
def DedupEff.reading :
    (effect : DedupEff) → effect.Res → Option DateTime
  | .lookup _ _, answer => some answer.1
  | .reserve _ _ _, answer => some answer.1
  | .release _ _, _ => none
  | .record _ _ _ _, answer => some answer.1
  | .prune, answer => some answer.1
  | .inner _, _ => none
  | .checkTenantRateLimit _, _ => none

/- What the answer says of the call. -/
def DedupEff.outcome? :
    (effect : DedupEff) → effect.Res → Option CallOutcome
  | .lookup _ _, answer => some (.looked answer.2)
  | .reserve _ _ _, answer => some (.reserved answer.2)
  | .release _ _, answer => some (.released answer)
  | .record _ _ _ _, answer => some (.stored answer.2)
  | .prune, answer => some (.pruned answer.2)
  | .inner _, _ => none
  | .checkTenantRateLimit _, _ => none

/- An effect does to the cache what its call does. -/
theorem execDedup_cases
    {rfc3339 : Rfc3339}
    {thread : Nat}
    {c : DedupChoice}
    {w after : DedupWorld}
    {effect : DedupEff}
    {answer : effect.Res}
    (hExec :
      execDedup rfc3339 thread c w effect =
        some (answer, after)) :
    (effect.call? c = none ∧
        after.idempotency = w.idempotency ∧
        effect.reading answer = none ∧
        effect.outcome? answer = none) ∨
      ∃ call, effect.call? c = some call ∧
        after.idempotency =
          (call.perform rfc3339 w.idempotency).2 ∧
        effect.reading answer = call.now? ∧
        effect.outcome? answer =
          some (call.perform rfc3339 w.idempotency).1 := by
  cases effect with
  | inner effect =>
      simp only [execDedup, Option.map_eq_some_iff] at hExec
      obtain ⟨result, _, hResult⟩ := hExec
      cases hResult
      exact .inl ⟨rfl, rfl, rfl, rfl⟩
  | checkTenantRateLimit tenantId =>
      cases hExec
      exact .inl ⟨rfl, rfl, rfl, rfl⟩
  | lookup key digest =>
      cases hExec
      exact .inr ⟨_, rfl, rfl, rfl, rfl⟩
  | reserve key digest lease =>
      simp only [execDedup] at hExec
      split at hExec
      · cases hExec
      · cases hExec
        exact .inr ⟨_, rfl, rfl, rfl, rfl⟩
  | release key token =>
      cases hExec
      exact .inr ⟨_, rfl, rfl, rfl, rfl⟩
  | record key digest response token =>
      cases hExec
      exact .inr ⟨_, rfl, rfl, rfl, rfl⟩
  | prune =>
      cases hExec
      exact .inr ⟨_, rfl, rfl, rfl, rfl⟩

/- A token that was won is not empty. -/
theorem execDedup_token_ne
    {rfc3339 : Rfc3339}
    (thread : Nat)
    {c : DedupChoice}
    {w after : DedupWorld}
    {key : IdempotencyKey}
    {digest token : String}
    {lease : Duration}
    {readAt : DateTime}
    (hExec :
      execDedup rfc3339 thread c w (.reserve key digest lease) =
        some ((readAt, .won token), after)) :
    token ≠ "" := by
  simp only [execDedup] at hExec
  split at hExec
  · cases hExec
  · rename_i hToken
    have hPair := Prod.mk.inj (Option.some.inj hExec)
    have hWon := (Prod.mk.inj hPair.1).2
    rw [reserve_won_token hWon]
    exact hToken

end Model

end IcpHandler

------------------------------------------------------------
-- Runs
------------------------------------------------------------

namespace IcpHandler

namespace Protocol

open Model Service Concurrency

/- One operation on every thread. -/
def dedupPool
    (svc : IcpService)
    (ops : Nat → DedupOp)
    (w : DedupWorld) :
    Pool DedupEff.Res DedupWorld DedupResult :=
  ⟨.start w, fun thread => (ops thread).prog svc⟩

/- The pool after a schedule, which may not be possible. -/
def dedupRunOf
    (svc : IcpService)
    (ops : Nat → DedupOp)
    (w : DedupWorld)
    (schedule : List (Nat × DedupChoice)) :
    Option (Pool DedupEff.Res DedupWorld DedupResult) :=
  (dedupPool svc ops w).run (dedupMachine svc.deps.rfc3339)
    schedule

/- The pool is one the operations can reach. -/
def DedupReaches
    (svc : IcpService)
    (ops : Nat → DedupOp)
    (w : DedupWorld)
    (pool : Pool DedupEff.Res DedupWorld DedupResult) : Prop :=
  ∃ schedule, dedupRunOf svc ops w schedule = some pool

/- The histories in which every request follows its rule. -/
abbrev DedupRun
    (svc : IcpService)
    (ops : Nat → DedupOp)
    (w : DedupWorld)
    (h : History DedupEff.Res DedupWorld) : Prop :=
  Lawful (dedupMachine svc.deps.rfc3339)
    (fun thread => DedupRule svc (ops thread)) w h

/- Something that has happened to the cache. -/
abbrev DedupHappening := Occurrence DedupEff.Res DedupWorld

/- The reading of the clock at an occurrence. -/
def readingOf (o : DedupHappening) : Option DateTime :=
  o.effect.reading o.answer

/-
  The clock reads instants that have a text form, and the
  cutoffs of the sweeper have one too.
-/
def ReadableClock
    (rfc3339 : Rfc3339)
    (ttl : Duration)
    (past : List DedupHappening) : Prop :=
  ∀ o ∈ past, ∀ now, readingOf o = some now →
    rfc3339.Valid now ∧
      (o.effect = .prune → rfc3339.Valid (now - ttl))

/- The cache of the world holds nothing yet. -/
def NothingCached
    (rfc3339 : Rfc3339)
    (w : DedupWorld) : Prop :=
  ∀ key, w.idempotency.Holds rfc3339 key .empty

section Runs

variable {svc : IcpService}
variable {ops : Nat → DedupOp}
variable {w : DedupWorld}
variable {pool : Pool DedupEff.Res DedupWorld DedupResult}
variable {h : History DedupEff.Res DedupWorld}
variable {o : DedupHappening}

theorem DedupReaches.traced
    (hReaches : DedupReaches svc ops w pool) :
    DedupRun svc ops w pool.history ∧
      ∀ thread, (pool.threads thread).Traced
        (DedupRule svc (ops thread))
        (DedupPost svc (ops thread))
        (own thread pool.history.past) := by
  rcases hReaches with ⟨schedule, hRun⟩
  refine Pool.run_lawful .start ?_ hRun
  exact fun thread => dedupProg_traced svc (ops thread)

/- What a thread that has returned has done. -/
theorem DedupReaches.post
    (hReaches : DedupReaches svc ops w pool)
    {thread : Nat}
    {result : DedupResult}
    (hReturned : pool.threads thread = .ret result) :
    DedupPost svc (ops thread) result
      (own thread pool.history.past) := by
  have hTraced := hReaches.traced.2 thread
  rw [hReturned] at hTraced
  exact hTraced

/- A token that was won in the past is not empty. -/
theorem DedupRun.token_ne
    (hRun : DedupRun svc ops w h)
    {thread : Nat}
    {key : IdempotencyKey}
    {digest token : String}
    {lease : Duration}
    {readAt : DateTime}
    (hWon :
      (⟨.reserve key digest lease, (readAt, .won token)⟩ :
        Move DedupEff.Res) ∈ own thread h.past) :
    token ≠ "" := by
  obtain ⟨o, hMem, _, hMove⟩ := mem_own_iff.mp hWon
  obtain ⟨recent, older, hPast⟩ := List.append_of_mem hMem
  obtain ⟨earlier, _, _, ⟨_, choice, hExec⟩, _⟩ :=
    hRun.cut hPast
  rcases o with ⟨thread', effect, answer, before, after⟩
  cases hMove
  exact execDedup_token_ne thread' hExec

/- The calls of a run are proper ones. -/
theorem DedupRun.proper
    (hRun : DedupRun svc ops w h)
    {choice : DedupChoice}
    {ttl : Duration}
    (hExec :
      execDedup svc.deps.rfc3339 o.thread choice h.world
        o.effect = some (o.answer, o.after))
    (hRule :
      DedupRule svc (ops o.thread) (own o.thread h.past)
        o.effect)
    (hReadable :
      ∀ now, readingOf o = some now →
        svc.deps.rfc3339.Valid now ∧
          (o.effect = .prune →
            svc.deps.rfc3339.Valid (now - ttl)))
    {call : IdempotencyCall}
    (hCall : o.effect.call? choice = some call) :
    call.Proper svc.deps.rfc3339 ttl (claimLease svc) := by
  rcases o with ⟨thread, effect, answer, before, after⟩
  cases effect with
  | inner effect => cases hCall
  | checkTenantRateLimit tenantId => cases hCall
  | lookup key digest =>
      cases hCall
      exact trivial
  | release key token =>
      cases hCall
      exact trivial
  | reserve key digest lease =>
      cases hCall
      simp only [execDedup] at hExec
      split at hExec
      · cases hExec
      · rename_i hToken
        cases hExec
        exact ⟨(hReadable choice.clock rfl).1, hRule.2, hToken⟩
  | record key digest response token =>
      cases hCall
      cases hExec
      obtain ⟨_, _, hStatus, lease, readAt, hWon⟩ := hRule
      refine ⟨(hReadable choice.clock rfl).1,
        hRun.token_ne hWon, ?_⟩
      rw [hStatus]
      decide
  | prune =>
      cases hCall
      cases hExec
      exact (hReadable choice.clock rfl).2 rfl

/-
  Whatever happens, a cache that held nothing holds a proper
  cell under every key, and keeps its time to live.
-/
theorem DedupRun.cellsKept
    (hRun : DedupRun svc ops w h)
    (hNew : NothingCached svc.deps.rfc3339 w)
    (hReadable :
      ReadableClock svc.deps.rfc3339 w.idempotency.ttl
        h.past) :
    CellsKept svc.deps.rfc3339 h.world.idempotency ∧
      h.world.idempotency.ttl = w.idempotency.ttl := by
  induction hRun with
  | start =>
      refine ⟨fun key => ⟨.empty, trivial, hNew key⟩, rfl⟩
  | @push h o hBefore hAllows hRule ih =>
      obtain ⟨hKept, hTtl⟩ := ih fun other hOther =>
        hReadable other (List.mem_cons_of_mem _ hOther)
      obtain ⟨_, choice, hExec⟩ := hAllows
      rcases execDedup_cases hExec with
        ⟨_, hSame, _, _⟩ | ⟨call, hCall, hAfter, _, _⟩
      · rw [History.push_world, hSame]
        exact ⟨hKept, hTtl⟩
      · have hProper :
            call.Proper svc.deps.rfc3339
              h.world.idempotency.ttl (claimLease svc) := by
          rw [hTtl]
          exact DedupRun.proper hBefore hExec hRule
            (hReadable o List.mem_cons_self) hCall
        rw [History.push_world, hAfter]
        refine ⟨hKept.perform hProper, ?_⟩
        rw [(perform_ttl call).1, hTtl]

/- The response was recorded at this occurrence, and landed. -/
def Recorded
    (key : IdempotencyKey)
    (digest : String)
    (response : CachedResponse)
    (recordedAt : DateTime)
    (o : DedupHappening) : Prop :=
  ∃ token,
    o.move =
      ⟨.record key digest response token, (recordedAt, true)⟩

/-
  A response that was recorded is still there, or the clock
  has been read past its time to live since. By induction on
  what has happened since.
-/
theorem DedupRun.recorded_stays
    (hRun : DedupRun svc ops w h)
    (hNew : NothingCached svc.deps.rfc3339 w)
    (hReadable :
      ReadableClock svc.deps.rfc3339 w.idempotency.ttl
        h.past)
    {key : IdempotencyKey}
    {digest : String}
    {response : CachedResponse}
    {since : DateTime}
    (hRecorded : Recorded key digest response since o)
    {recent older : List DedupHappening}
    (hPast : h.past = recent ++ o :: older) :
    (CellOk svc.deps.rfc3339 (.done digest response since) ∧
        h.world.idempotency.Holds svc.deps.rfc3339 key
          (.done digest response since)) ∨
      ∃ later ∈ recent, ∃ now, readingOf later = some now ∧
        since + w.idempotency.ttl < now := by
  induction hRun generalizing recent with
  | start =>
      rw [History.start] at hPast
      cases recent with
      | nil => cases hPast
      | cons first recent => cases hPast
  | @push h last hBefore hAllows hRule ih =>
      have hEarlier :
          ReadableClock svc.deps.rfc3339 w.idempotency.ttl
            h.past := fun other hOther =>
        hReadable other (List.mem_cons_of_mem _ hOther)
      obtain ⟨hKept, hTtl⟩ :=
        DedupRun.cellsKept hBefore hNew hEarlier
      obtain ⟨_, choice, hExec⟩ := hAllows
      have hProper :
          ∀ call, last.effect.call? choice = some call →
            call.Proper svc.deps.rfc3339
              h.world.idempotency.ttl (claimLease svc) := by
        intro call hCall
        rw [hTtl]
        exact DedupRun.proper hBefore hExec hRule
          (hReadable last List.mem_cons_self) hCall
      rw [History.push_past] at hPast
      rw [History.push_world]
      cases recent with
      | nil =>
          -- The response has just been recorded.
          left
          obtain ⟨rfl, _⟩ := List.cons.inj hPast
          obtain ⟨token, hMove⟩ := hRecorded
          rcases last with
            ⟨thread, effect, answer, before, after⟩
          cases hMove
          obtain ⟨cell, hOk, hHolds⟩ := hKept key
          have hResult := Prod.mk.inj (Option.some.inj hExec)
          have hAnswer := Prod.mk.inj hResult.1
          obtain ⟨_, hDone, hHeld⟩ :=
            store_lands hOk hHolds (hProper _ rfl) hAnswer.2
          rw [hAnswer.1] at hDone hHeld
          refine ⟨hDone, ?_⟩
          rw [← hResult.2, hAnswer.1]
          exact hHeld
      | cons first recent =>
          obtain ⟨rfl, hRest⟩ := List.cons.inj hPast
          rcases ih hEarlier hRest with
            ⟨hOk, hHeld⟩ | ⟨later, hLater, hRead⟩
          · rcases execDedup_cases hExec with
              ⟨_, hSame, _, _⟩ | ⟨call, hCall, hAfter, hNow, _⟩
            · left
              rw [hSame]
              exact ⟨hOk, hHeld⟩
            · rw [hAfter]
              rcases perform_keeps_done hOk hHeld
                  (hProper call hCall) with
                hStays | ⟨now, hCallNow, hLapsed⟩
              · exact .inl ⟨hOk, hStays⟩
              · right
                refine ⟨last, List.mem_cons_self, now, ?_, ?_⟩
                · exact hNow.trans hCallNow
                · rw [hTtl] at hLapsed
                  exact hLapsed
          · right
            exact ⟨later, List.mem_cons_of_mem _ hLater, hRead⟩

/-
  Two responses land on one key only when the clock has been
  read past the first one's time to live in between.
-/
theorem DedupRun.apart
    (hRun : DedupRun svc ops w h)
    (hNew : NothingCached svc.deps.rfc3339 w)
    (hReadable :
      ReadableClock svc.deps.rfc3339 w.idempotency.ttl
        h.past)
    {key : IdempotencyKey}
    {digest digest' : String}
    {response response' : CachedResponse}
    {since now : DateTime}
    {first second : DedupHappening}
    (hFirst : Recorded key digest response since first)
    (hSecond : Recorded key digest' response' now second)
    {recent middle older : List DedupHappening}
    (hPast :
      h.past =
        recent ++ second :: (middle ++ first :: older)) :
    ∃ later ∈ middle, ∃ read, readingOf later = some read ∧
      since + w.idempotency.ttl < read := by
  obtain ⟨earlier, hEarlier, hOlder, ⟨_, choice, hExec⟩,
    hRule⟩ := hRun.cut hPast
  have hReadableThen :
      ReadableClock svc.deps.rfc3339 w.idempotency.ttl
        (second :: earlier.past) := by
    intro other hOther
    refine hReadable other ?_
    rw [hPast, ← hOlder]
    exact List.mem_append_right _ hOther
  have hReadableEarlier :
      ReadableClock svc.deps.rfc3339 w.idempotency.ttl
        earlier.past := fun other hOther =>
    hReadableThen other (List.mem_cons_of_mem _ hOther)
  rcases DedupRun.recorded_stays hEarlier hNew
      hReadableEarlier hFirst hOlder with
    ⟨hOk, hHeld⟩ | hRead
  · -- A response does not land on a completed key.
    exfalso
    obtain ⟨_, hTtl⟩ :=
      DedupRun.cellsKept hEarlier hNew hReadableEarlier
    rw [← hOlder] at hRule
    have hProper :
        ∀ call, second.effect.call? choice = some call →
          call.Proper svc.deps.rfc3339
            earlier.world.idempotency.ttl (claimLease svc) := by
      intro call hCall
      rw [hTtl]
      exact DedupRun.proper hEarlier hExec hRule
        (hReadableThen second List.mem_cons_self) hCall
    obtain ⟨token, hMove⟩ := hSecond
    rcases second with ⟨thread, effect, answer, before, after⟩
    cases hMove
    have hResult := Prod.mk.inj (Option.some.inj hExec)
    have hAnswer := Prod.mk.inj hResult.1
    obtain ⟨hNotDone, _⟩ :=
      store_lands hOk hHeld (hProper _ rfl) hAnswer.2
    exact hNotDone _ _ _ rfl
  · exact hRead

/-
  A completed entry was recorded by some request. By induction
  on the run.
-/
theorem DedupRun.completed_recorded
    (hRun : DedupRun svc ops w h)
    (hNew : NothingCached svc.deps.rfc3339 w)
    {key : IdempotencyKey}
    {digest : String}
    {response : CachedResponse}
    {now : DateTime}
    {entry : IdempotencyEntry}
    (hEntry :
      h.world.idempotency.entryAt svc.deps.rfc3339 now key =
        some entry)
    (hCompleted : CompletedBy digest response entry) :
    ∃ o ∈ h.past, ∃ since,
      Recorded key digest response since o := by
  induction hRun with
  | start =>
      have hOk :
          CellOk svc.deps.rfc3339 Data.LeaseCell.Cell.empty :=
        trivial
      have hNone :
          w.idempotency.entryAt svc.deps.rfc3339 now key =
            none :=
        entryAt_of_holds now hOk (hNew key)
      rw [History.start_world, hNone] at hEntry
      cases hEntry
  | @push h o hBefore hAllows hRule ih =>
      obtain ⟨_, choice, hExec⟩ := hAllows
      rw [History.push_world] at hEntry
      rcases execDedup_cases hExec with
        ⟨_, hSame, _, _⟩ | ⟨call, hCall, hAfter, _, hOutcome⟩
      · rw [hSame] at hEntry
        obtain ⟨first, hMem, hRecorded⟩ := ih hEntry
        exact ⟨first, List.mem_cons_of_mem _ hMem, hRecorded⟩
      · rw [hAfter] at hEntry
        rcases perform_completed hEntry hCompleted with
          hOld | ⟨since, token, fault, rfl, hStored⟩
        · obtain ⟨first, hMem, hRecorded⟩ := ih hOld
          exact ⟨first, List.mem_cons_of_mem _ hMem,
            hRecorded⟩
        · refine ⟨o, List.mem_cons_self, since, token, ?_⟩
          rcases o with ⟨thread, effect, answer, before, after⟩
          cases effect with
          | record asked known written holder =>
              cases hCall
              rcases answer with ⟨storedAt, landed⟩
              cases hExec
              exact congrArg
                (fun yes => (⟨.record key digest response token,
                  (choice.clock, yes)⟩ : Move DedupEff.Res))
                hStored
          | _ => cases hCall

/- What a request was told some request has recorded. -/
theorem DedupRun.told_recorded
    (hRun : DedupRun svc ops w h)
    (hNew : NothingCached svc.deps.rfc3339 w)
    {thread : Nat}
    {key : IdempotencyKey}
    {digest : String}
    {cached : CachedResponse}
    (hTold : WasTold key digest cached (own thread h.past)) :
    ∃ o ∈ h.past, ∃ since,
      Recorded key digest cached since o := by
  have hEarlier :
      ∀ {o : DedupHappening} {recent older}
          {earlier : History DedupEff.Res DedupWorld},
        h.past = recent ++ o :: older →
        earlier.past = older →
        (∃ first ∈ earlier.past, ∃ since,
          Recorded key digest cached since first) →
        ∃ first ∈ h.past, ∃ since,
          Recorded key digest cached since first := by
    intro o recent older earlier hPast hOlder hFound
    obtain ⟨first, hMem, hRecorded⟩ := hFound
    refine ⟨first, ?_, hRecorded⟩
    rw [hPast, ← hOlder]
    exact List.mem_append_right _
      (List.mem_cons_of_mem _ hMem)
  rcases hTold with ⟨lease, readAt, hMem⟩ | ⟨readAt, hMem⟩
  · obtain ⟨o, hO, _, hMove⟩ := mem_own_iff.mp hMem
    obtain ⟨recent, older, hPast⟩ := List.append_of_mem hO
    obtain ⟨earlier, hBefore, hOlder, ⟨_, choice, hExec⟩, _⟩ :=
      hRun.cut hPast
    refine hEarlier hPast hOlder ?_
    rcases o with ⟨thread', effect, answer, before, after⟩
    cases hMove
    simp only [dedupMachine, execDedup] at hExec
    split at hExec
    · cases hExec
    · have hResult := Prod.mk.inj (Option.some.inj hExec)
      obtain ⟨entry, hEntry, hCompleted⟩ :=
        reserve_replay (Prod.mk.inj hResult.1).2
      exact DedupRun.completed_recorded hBefore hNew hEntry
        hCompleted
  · obtain ⟨o, hO, _, hMove⟩ := mem_own_iff.mp hMem
    obtain ⟨recent, older, hPast⟩ := List.append_of_mem hO
    obtain ⟨earlier, hBefore, hOlder, ⟨_, choice, hExec⟩, _⟩ :=
      hRun.cut hPast
    refine hEarlier hPast hOlder ?_
    rcases o with ⟨thread', effect, answer, before, after⟩
    cases hMove
    have hResult := Prod.mk.inj (Option.some.inj hExec)
    obtain ⟨entry, hEntry, hCompleted⟩ :=
      lookup_replay (Prod.mk.inj hResult.1).2
    exact DedupRun.completed_recorded hBefore hNew hEntry
      hCompleted

end Runs

end Protocol

end IcpHandler
