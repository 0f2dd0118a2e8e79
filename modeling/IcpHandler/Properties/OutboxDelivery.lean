import IcpHandler.Concurrency.Trace
import IcpHandler.Model.Concrete
import IcpHandler.Properties.OutboxStates
import IcpHandler.Service.WebhookWorker

/-
  No delivery is lost. Whatever enqueues, ticks, crashes,
  restarts, retries and prunes do, a delivery that was
  enqueued is still to be delivered, or was accepted by its
  receiver, or has used up its attempts, or was pruned after
  one of the two.

  Main declarations:
    * `OutboxRun`
    * `Fate`, `HasFate`
    * `SoundState`, `WorkerSound`, `Accounted`
    * `Accounted.step`
    * `outbox_loses_nothing`
-/

------------------------------------------------------------
-- Runs of the Outbox
------------------------------------------------------------

namespace IcpHandler

namespace Service

open Model Concurrency

/- Something that has happened to the outbox. -/
abbrev OutboxHappening := Occurrence OutboxEff.Res OutboxWorld

/- The histories of an outbox whose worker has yet to start. -/
abbrev OutboxRun
    (rfc3339 : Rfc3339)
    (outbox : WebhookOutbox)
    (h : History OutboxEff.Res OutboxWorld) : Prop :=
  Lawful (outboxMachine rfc3339) (fun _ _ _ => True)
    { outbox := outbox } h

/- The outbox has no rows. -/
def NothingQueued (outbox : WebhookOutbox) : Prop :=
  ∀ id, outbox.state? id = none

/- A delivery with this id was enqueued. -/
def Enqueued
    (id : String)
    (past : List OutboxHappening) : Prop :=
  ∃ o ∈ past, ∃ new,
    o.effect = .enqueue new ∧ new.delivery.id = id

/- An attempt to deliver it returned a 2xx. -/
def Accepted (id : String) (o : OutboxHappening) : Prop :=
  ∃ status, o.effect = .attempt id (.ok status) ∧
    isSuccess status = true

/- A prune removed it, delivered or dead-lettered. -/
def PrunedAt (id : String) (o : OutboxHappening) : Prop :=
  (∃ retention now, o.effect = .prune retention now) ∧
    (∃ s, o.before.outbox.state? id = some s ∧
      (s.status = .delivered ∨ s.status = .deadLettered)) ∧
    o.after.outbox.state? id = none

/- What has become of a delivery. -/
inductive Fate where
  | undelivered
  | delivered
  | deadLettered
  | pruned

def HasFate
    (h : History OutboxEff.Res OutboxWorld)
    (id : String)
    (fate : Fate) : Prop :=
  match fate with
  | .undelivered =>
      ∃ s, h.world.outbox.state? id = some s ∧ s.IsOpen
  | .delivered =>
      (∃ s, h.world.outbox.state? id = some s ∧
        s.status = .delivered) ∧
        ∃ o ∈ h.past, Accepted id o
  | .deadLettered =>
      ∃ s, h.world.outbox.state? id = some s ∧
        s.status = .deadLettered ∧ s.maxAttempts ≤ s.attempts
  | .pruned =>
      h.world.outbox.state? id = none ∧
        ∃ o ∈ h.past, PrunedAt id o

end Service

end IcpHandler

------------------------------------------------------------
-- The Invariant
------------------------------------------------------------

namespace IcpHandler

namespace Service

open Model Concurrency

/- A state that the past accounts for. -/
structure SoundState
    (past : List OutboxHappening)
    (id : String)
    (s : DeliveryState) : Prop where
  hasAttempts : 0 < s.maxAttempts
  hasMore : s.IsOpen → s.attempts < s.maxAttempts
  within : s.attempts ≤ s.maxAttempts
  accepted :
    s.status = .delivered → ∃ o ∈ past, Accepted id o
  exhausted :
    s.status = .deadLettered → s.maxAttempts ≤ s.attempts

/- The delivery waits for an attempt. -/
def Waits
    (outbox : WebhookOutbox)
    (d : WebhookDelivery) : Prop :=
  ∃ s, outbox.state? d.id = some s ∧
    (s.status = .pending ∨ s.status = .failed)

/- An attempt is under way, unless the row was reset since. -/
def UnderWay
    (outbox : WebhookOutbox)
    (d : WebhookDelivery) : Prop :=
  ∃ s, outbox.state? d.id = some s ∧
    (s.status = .pending ∨ s.status = .inFlight)

/- The rest of a tick: distinct deliveries that wait. -/
def Listed
    (outbox : WebhookOutbox)
    (due : List WebhookDelivery) : Prop :=
  (due.map WebhookDelivery.id).Nodup ∧
    ∀ d ∈ due, Waits outbox d

/- What the worker relies on where it is. -/
def WorkerSound
    (past : List OutboxHappening)
    (outbox : WebhookOutbox)
    (worker : WorkerState) : Prop :=
  match worker with
  | .stopped => True
  | .idle => True
  | .draining _ due _ => Listed outbox due
  | .sending _ d rest _ =>
      UnderWay outbox d ∧ Listed outbox rest ∧
        d.id ∉ rest.map WebhookDelivery.id
  | .answered _ d result rest _ =>
      (UnderWay outbox d ∧ Listed outbox rest ∧
        d.id ∉ rest.map WebhookDelivery.id) ∧
        ∀ status, result = .ok status →
          isSuccess status = true → ∃ o ∈ past, Accepted d.id o
  | .counting _ _ rest _ => Listed outbox rest

/- The past accounts for every row and for the worker. -/
structure Accounted
    (past : List OutboxHappening)
    (w : OutboxWorld) : Prop where
  rows :
    ∀ id s, w.outbox.state? id = some s →
      SoundState past id s
  gone :
    ∀ id, Enqueued id past → w.outbox.state? id = none →
      ∃ o ∈ past, PrunedAt id o
  issued : ∀ id, Enqueued id past → id ∈ w.issued
  known :
    ∀ id s, w.outbox.state? id = some s → id ∈ w.issued
  worker : WorkerSound past w.outbox w.worker

section Invariant

variable {past : List OutboxHappening}
variable {w : OutboxWorld}
variable {o : OutboxHappening}
variable {id : String}
variable {s : DeliveryState}

theorem SoundState.push
    (hSound : SoundState past id s)
    (o : OutboxHappening) :
    SoundState (o :: past) id s where
  hasAttempts := hSound.hasAttempts
  hasMore := hSound.hasMore
  within := hSound.within
  accepted hDelivered := by
    obtain ⟨first, hMem, hAccepted⟩ :=
      hSound.accepted hDelivered
    exact ⟨first, List.mem_cons_of_mem _ hMem, hAccepted⟩
  exhausted := hSound.exhausted

/-
  What waits or is under way in one outbox does so in the
  other, or has become pending.
-/
def KeepsOpen (before after : WebhookOutbox) : Prop :=
  ∀ id s, before.state? id = some s → s.IsOpen →
    ∃ s', after.state? id = some s' ∧
      (s'.status = s.status ∨ s'.status = .pending)

theorem Waits.keep
    {before after : WebhookOutbox}
    {d : WebhookDelivery}
    (hWaits : Waits before d)
    (hKeeps : KeepsOpen before after) :
    Waits after d := by
  obtain ⟨s, hState, hStatus⟩ := hWaits
  have hOpen : s.IsOpen := by
    rcases hStatus with hStatus | hStatus
    · exact .inl hStatus
    · exact .inr (.inr hStatus)
  obtain ⟨s', hState', hSame | hPending⟩ :=
    hKeeps d.id s hState hOpen
  · refine ⟨s', hState', ?_⟩
    rw [hSame]
    exact hStatus
  · exact ⟨s', hState', .inl hPending⟩

theorem UnderWay.keep
    {before after : WebhookOutbox}
    {d : WebhookDelivery}
    (hUnderWay : UnderWay before d)
    (hKeeps : KeepsOpen before after) :
    UnderWay after d := by
  obtain ⟨s, hState, hStatus⟩ := hUnderWay
  have hOpen : s.IsOpen := by
    rcases hStatus with hStatus | hStatus
    · exact .inl hStatus
    · exact .inr (.inl hStatus)
  obtain ⟨s', hState', hSame | hPending⟩ :=
    hKeeps d.id s hState hOpen
  · refine ⟨s', hState', ?_⟩
    rw [hSame]
    exact hStatus
  · exact ⟨s', hState', .inl hPending⟩

theorem Listed.keep
    {before after : WebhookOutbox}
    {due : List WebhookDelivery}
    (hListed : Listed before due)
    (hKeeps : KeepsOpen before after) :
    Listed after due :=
  ⟨hListed.1, fun d hD => (hListed.2 d hD).keep hKeeps⟩

/- The worker does not notice what others do to the outbox. -/
theorem WorkerSound.keep
    {before after : WebhookOutbox}
    {worker : WorkerState}
    (hWorker : WorkerSound past before worker)
    (hKeeps : KeepsOpen before after)
    (o : OutboxHappening) :
    WorkerSound (o :: past) after worker := by
  cases worker with
  | stopped => exact trivial
  | idle => exact trivial
  | draining now due report => exact Listed.keep hWorker hKeeps
  | sending now d rest report =>
      obtain ⟨hUnderWay, hRest, hNew⟩ := hWorker
      exact ⟨hUnderWay.keep hKeeps, hRest.keep hKeeps, hNew⟩
  | answered now d result rest report =>
      obtain ⟨⟨hUnderWay, hRest, hNew⟩, hResult⟩ := hWorker
      refine ⟨⟨hUnderWay.keep hKeeps, hRest.keep hKeeps,
        hNew⟩, ?_⟩
      intro status hStatus hSuccess
      obtain ⟨first, hMem, hAccepted⟩ :=
        hResult status hStatus hSuccess
      exact ⟨first, List.mem_cons_of_mem _ hMem, hAccepted⟩
  | counting now d rest report =>
      exact Listed.keep hWorker hKeeps

theorem keepsOpen_refl (outbox : WebhookOutbox) :
    KeepsOpen outbox outbox :=
  fun _ s hState _ => ⟨s, hState, .inl rfl⟩

/-
  An occurrence that enqueues nothing and makes no row keeps
  the account, when its rows and its worker are accounted for
  and what it removes was pruned.
-/
theorem Accounted.push
    (hAccounted : Accounted past w)
    (hNotEnqueue : ∀ new, o.effect ≠ .enqueue new)
    (hIssued : o.after.issued = w.issued)
    (hRows :
      ∀ id s, o.after.outbox.state? id = some s →
        SoundState (o :: past) id s ∧
          ∃ s', w.outbox.state? id = some s')
    (hLost :
      ∀ id s, w.outbox.state? id = some s →
        o.after.outbox.state? id = none → PrunedAt id o)
    (hWorker :
      WorkerSound (o :: past) o.after.outbox o.after.worker) :
    Accounted (o :: past) o.after := by
  have hEarlier :
      ∀ id, Enqueued id (o :: past) → Enqueued id past := by
    rintro id ⟨first, hMem, new, hEffect, hId⟩
    rcases List.mem_cons.mp hMem with rfl | hOlder
    · exact absurd hEffect (hNotEnqueue new)
    · exact ⟨first, hOlder, new, hEffect, hId⟩
  refine ⟨fun id s hState => (hRows id s hState).1, ?_, ?_, ?_,
    hWorker⟩
  · intro id hEnqueued hNone
    cases hBefore : w.outbox.state? id with
    | none =>
        obtain ⟨first, hMem, hPruned⟩ :=
          hAccounted.gone id (hEarlier id hEnqueued) hBefore
        exact ⟨first, List.mem_cons_of_mem _ hMem, hPruned⟩
    | some s =>
        exact ⟨o, List.mem_cons_self, hLost id s hBefore hNone⟩
  · intro id hEnqueued
    rw [hIssued]
    exact hAccounted.issued id (hEarlier id hEnqueued)
  · intro id s hState
    obtain ⟨s', hBefore⟩ := (hRows id s hState).2
    rw [hIssued]
    exact hAccounted.known id s' hBefore

/- The same, where the outbox stays as it is. -/
theorem Accounted.push_same
    (hAccounted : Accounted past w)
    (hNotEnqueue : ∀ new, o.effect ≠ .enqueue new)
    (hIssued : o.after.issued = w.issued)
    (hOutbox : o.after.outbox = w.outbox)
    (hWorker :
      WorkerSound (o :: past) w.outbox o.after.worker) :
    Accounted (o :: past) o.after := by
  refine hAccounted.push hNotEnqueue hIssued ?_ ?_ ?_
  · intro id s hState
    rw [hOutbox] at hState
    exact ⟨(hAccounted.rows id s hState).push o, s, hState⟩
  · intro id s hState hNone
    rw [hOutbox, hState] at hNone
    cases hNone
  · rw [hOutbox]
    exact hWorker

/- The same, where one row was patched. -/
theorem Accounted.push_update
    {rfc3339 : Rfc3339}
    {clock : DateTime}
    {target : String}
    {patch : DeliveryPatch}
    (hAccounted : Accounted past w)
    (hNotEnqueue : ∀ new, o.effect ≠ .enqueue new)
    (hIssued : o.after.issued = w.issued)
    (hOutbox :
      o.after.outbox =
        w.outbox.update rfc3339 clock target patch)
    (hPatched :
      ∀ s, w.outbox.state? target = some s →
        SoundState (o :: past) target (patch.onState s))
    (hWorker :
      WorkerSound (o :: past) o.after.outbox o.after.worker) :
    Accounted (o :: past) o.after := by
  refine hAccounted.push hNotEnqueue hIssued ?_ ?_ hWorker
  · intro id s hState
    rw [hOutbox, WebhookOutbox.state?_update] at hState
    by_cases hId : id = target
    · rw [if_pos hId] at hState
      obtain ⟨s', hBefore, rfl⟩ :=
        Option.map_eq_some_iff.mp hState
      rw [hId] at hBefore ⊢
      exact ⟨hPatched s' hBefore, s', hBefore⟩
    · rw [if_neg hId] at hState
      exact ⟨(hAccounted.rows id s hState).push o, s, hState⟩
  · intro id s hState hNone
    rw [hOutbox, WebhookOutbox.state?_update, hState] at hNone
    split at hNone
    · cases hNone
    · cases hNone

end Invariant

end Service

end IcpHandler

------------------------------------------------------------
-- One Occurrence
------------------------------------------------------------

namespace IcpHandler

namespace Service

open Model Concurrency

section Patches

variable {past : List OutboxHappening}
variable {id : String}
variable {s : DeliveryState}

/- One attempt more, of those that are left. -/
theorem toNat_nextAttempt
    (hMore : s.attempts < s.maxAttempts) :
    (Saturating.satAdd32 s.attempts 1).toNat =
      s.attempts.toNat + 1 := by
  have hLt : s.attempts.toNat < s.maxAttempts.toNat :=
    UInt32.lt_iff_toNat_lt.mp hMore
  have hFits := s.maxAttempts.toNat_lt
  have hSize :
      s.attempts.toNat + (1 : UInt32).toNat <
        UInt32.size := by
    change s.attempts.toNat + 1 < 4294967296
    omega
  exact Saturating.toNat_satAdd32 hSize

theorem nextAttempt_le
    (hMore : s.attempts < s.maxAttempts) :
    Saturating.satAdd32 s.attempts 1 ≤ s.maxAttempts := by
  rw [UInt32.le_iff_toNat_le, toNat_nextAttempt hMore]
  have hLt := UInt32.lt_iff_toNat_lt.mp hMore
  omega

theorem SoundState.inFlight
    (hSound : SoundState past id s)
    (hOpen : s.IsOpen)
    (now : DateTime) :
    SoundState past id
      ((DeliveryPatch.inFlight now).onState s) where
  hasAttempts := hSound.hasAttempts
  hasMore _ := hSound.hasMore hOpen
  within := hSound.within
  accepted hStatus := nomatch hStatus
  exhausted hStatus := nomatch hStatus

theorem SoundState.delivered
    (hSound : SoundState past id s)
    (hOpen : s.IsOpen)
    (hAccepted : ∃ o ∈ past, Accepted id o)
    (statusCode : UInt16)
    (now : DateTime) :
    SoundState past id
      ((DeliveryPatch.delivered statusCode now).onState s) where
  hasAttempts := hSound.hasAttempts
  hasMore hStill := by
    rcases hStill with hStatus | hStatus | hStatus
    · cases hStatus
    · cases hStatus
    · cases hStatus
  within := nextAttempt_le (hSound.hasMore hOpen)
  accepted _ := hAccepted
  exhausted hStatus := nomatch hStatus

theorem SoundState.failure
    (hSound : SoundState past id s)
    (hOpen : s.IsOpen)
    (statusCode : Option UInt16)
    (error : Option String)
    (now : DateTime) :
    SoundState past id
      ((DeliveryPatch.failure statusCode error now).onState
        s) := by
  have hMore := hSound.hasMore hOpen
  unfold DeliveryPatch.onState
  dsimp only
  by_cases hLast :
      s.maxAttempts ≤ Saturating.satAdd32 s.attempts 1
  · rw [if_pos hLast]
    refine ⟨hSound.hasAttempts, ?_, nextAttempt_le hMore,
      fun hStatus => (nomatch hStatus), fun _ => hLast⟩
    rintro (hStatus | hStatus | hStatus)
    · cases hStatus
    · cases hStatus
    · cases hStatus
  · rw [if_neg hLast]
    exact ⟨hSound.hasAttempts, fun _ => UInt32.not_le.mp hLast,
      nextAttempt_le hMore, fun hStatus => (nomatch hStatus),
      fun hStatus => (nomatch hStatus)⟩

/- A row that was in flight is tried again. -/
theorem SoundState.reclaim
    (hSound : SoundState past id s)
    (hStuck : s.status = .inFlight) :
    SoundState past id { s with status := .pending } where
  hasAttempts := hSound.hasAttempts
  hasMore _ := hSound.hasMore (.inr (.inl hStuck))
  within := hSound.within
  accepted hStatus := nomatch hStatus
  exhausted hStatus := nomatch hStatus

theorem SoundState.retry
    (hSound : SoundState past id s)
    (now : DateTime) :
    SoundState past id
      ((DeliveryPatch.retry now).onState s) where
  hasAttempts := hSound.hasAttempts
  hasMore _ := hSound.hasAttempts
  within := UInt32.le_of_lt hSound.hasAttempts
  accepted hStatus := nomatch hStatus
  exhausted hStatus := nomatch hStatus

/- What a tick records of an attempt is sound. -/
theorem SoundState.result
    (hSound : SoundState past id s)
    (hOpen : s.IsOpen)
    {result : SendResult}
    (hAccepted :
      ∀ status, result = .ok status →
        isSuccess status = true → ∃ o ∈ past, Accepted id o)
    (after : DateTime) :
    SoundState past id
      ((resultPatch result after).onState s) := by
  unfold resultPatch
  cases result with
  | error e => exact hSound.failure hOpen _ _ _
  | ok status =>
      dsimp only
      split
      · rename_i hSuccess
        exact hSound.delivered hOpen
          (hAccepted status rfl hSuccess) _ _
      · exact hSound.failure hOpen _ _ _

end Patches

section Keeps

variable {rfc3339 : Rfc3339}
variable {clock : DateTime}
variable {outbox : WebhookOutbox}

theorem keepsOpen_enqueue
    {d : WebhookDelivery}
    (hNew : outbox.state? d.id = none) :
    KeepsOpen outbox (outbox.enqueue rfc3339 d) := by
  intro id s hState _
  refine ⟨s, ?_, .inl rfl⟩
  rw [WebhookOutbox.state?_enqueue hNew]
  by_cases hId : id = d.id
  · rw [hId, hNew] at hState
    cases hState
  · rw [if_neg hId]
    exact hState

theorem keepsOpen_retry
    (target : String)
    (now : DateTime) :
    KeepsOpen outbox
      (outbox.update rfc3339 clock target (.retry now)) := by
  intro id s hState _
  rw [WebhookOutbox.state?_update, hState]
  by_cases hId : id = target
  · rw [if_pos hId]
    exact ⟨_, rfl, .inr rfl⟩
  · rw [if_neg hId]
    exact ⟨s, rfl, .inl rfl⟩

/- The retention sweep leaves a row, or drops a closed one. -/
theorem state?_pruneNow
    (retention : Retention)
    (now : DateTime)
    (id : String) :
    let after :=
      (pruneNow rfc3339 retention now outbox).2.state? id
    after = outbox.state? id ∨
      (after = none ∧ ∃ s, outbox.state? id = some s ∧
        (s.status = .delivered ∨
          s.status = .deadLettered)) := by
  unfold pruneNow
  dsimp only
  split
  · exact .inl rfl
  · exact WebhookOutbox.state?_prune _ _ id

theorem keepsOpen_pruneNow
    (retention : Retention)
    (now : DateTime) :
    KeepsOpen outbox
      (pruneNow rfc3339 retention now outbox).2 := by
  intro id s hState hOpen
  rcases state?_pruneNow retention now id with
    hSame | ⟨_, s', hState', hClosed⟩
  · exact ⟨s, hSame.trans hState, .inl rfl⟩
  · rw [hState] at hState'
    cases hState'
    rcases hOpen with hStatus | hStatus | hStatus
    all_goals
      rw [hStatus] at hClosed
      rcases hClosed with hNo | hNo
      · cases hNo
      · cases hNo

/- A patch on one row does not touch what waits elsewhere. -/
theorem Listed.update_other
    {due : List WebhookDelivery}
    (hListed : Listed outbox due)
    {target : String}
    (hOther : target ∉ due.map WebhookDelivery.id)
    (patch : DeliveryPatch) :
    Listed (outbox.update rfc3339 clock target patch) due := by
  refine ⟨hListed.1, ?_⟩
  intro d hD
  obtain ⟨s, hState, hStatus⟩ := hListed.2 d hD
  refine ⟨s, ?_, hStatus⟩
  rw [WebhookOutbox.state?_update, if_neg]
  · exact hState
  · intro hId
    exact hOther (List.mem_map.mpr ⟨d, hD, hId⟩)

end Keeps

end Service

end IcpHandler

------------------------------------------------------------
-- The Step
------------------------------------------------------------

namespace IcpHandler

namespace Service

open Model Concurrency

section Step

variable {rfc3339 : Rfc3339}
variable {clock : DateTime}
variable {past : List OutboxHappening}
variable {w w' : OutboxWorld}
variable (thread : Nat)

private theorem accounted_enqueue
    {new : NewDelivery}
    {answer : Unit}
    (hAccounted : Accounted past w)
    (hExec :
      execOutbox rfc3339 clock w (.enqueue new) =
        some (answer, w')) :
    Accounted (⟨thread, .enqueue new, answer, w, w'⟩ :: past)
      w' := by
  unfold execOutbox at hExec
  dsimp only at hExec
  split at hExec
  · cases hExec
  · rename_i hFresh
    cases hExec
    have hNew : w.outbox.state? new.delivery.id = none := by
      cases hState : w.outbox.state? new.delivery.id with
      | none => rfl
      | some s =>
          exact absurd (hAccounted.known _ s hState) hFresh
    refine ⟨?_, ?_, ?_, ?_, ?_⟩
    · intro id s hState
      rw [WebhookOutbox.state?_enqueue hNew] at hState
      by_cases hId : id = new.delivery.id
      · rw [if_pos hId] at hState
        cases hState
        have hUntried :
            new.delivery.state.attempts = 0 := new.untried
        have hMore : 0 < new.delivery.state.maxAttempts :=
          new.hasAttempts
        refine ⟨hMore, ?_, ?_, ?_, ?_⟩
        · intro _
          rw [hUntried]
          exact hMore
        · rw [hUntried]
          exact UInt32.le_of_lt hMore
        · intro hStatus
          cases hStatus.symm.trans new.pending
        · intro hStatus
          cases hStatus.symm.trans new.pending
      · rw [if_neg hId] at hState
        exact (hAccounted.rows id s hState).push _
    · intro id hEnqueued hNone
      rw [WebhookOutbox.state?_enqueue hNew] at hNone
      by_cases hId : id = new.delivery.id
      · rw [if_pos hId] at hNone
        cases hNone
      · rw [if_neg hId] at hNone
        obtain ⟨first, hMem, again, hEffect, hAgain⟩ :=
          hEnqueued
        rcases List.mem_cons.mp hMem with rfl | hOlder
        · cases hEffect
          exact absurd hAgain.symm hId
        · obtain ⟨o, hO, hPruned⟩ :=
            hAccounted.gone id
              ⟨first, hOlder, again, hEffect, hAgain⟩ hNone
          exact ⟨o, List.mem_cons_of_mem _ hO, hPruned⟩
    · rintro id ⟨first, hMem, again, hEffect, hAgain⟩
      rcases List.mem_cons.mp hMem with rfl | hOlder
      · cases hEffect
        rw [← hAgain]
        exact List.mem_cons_self
      · exact List.mem_cons_of_mem _
          (hAccounted.issued id
            ⟨first, hOlder, again, hEffect, hAgain⟩)
    · intro id s hState
      rw [WebhookOutbox.state?_enqueue hNew] at hState
      by_cases hId : id = new.delivery.id
      · rw [hId]
        exact List.mem_cons_self
      · rw [if_neg hId] at hState
        exact List.mem_cons_of_mem _
          (hAccounted.known id s hState)
    · exact hAccounted.worker.keep (keepsOpen_enqueue hNew) _

private theorem accounted_startTick
    {now : DateTime}
    {answer : Nat}
    (hAccounted : Accounted past w)
    (hExec :
      execOutbox rfc3339 clock w (.startTick now) =
        some (answer, w')) :
    Accounted (⟨thread, .startTick now, answer, w, w'⟩ :: past)
      w' := by
  unfold execOutbox at hExec
  dsimp only at hExec
  split at hExec
  · cases hExec
    refine hAccounted.push_same ?_ rfl rfl ?_
    · intro new hEffect
      cases hEffect
    · exact ⟨WebhookOutbox.listDue_nodup now tickLimit,
        fun d hD => WebhookOutbox.mem_listDue hD⟩
  · cases hExec

private theorem accounted_markInFlight
    {id : String}
    {answer : Unit}
    (hAccounted : Accounted past w)
    (hExec :
      execOutbox rfc3339 clock w (.markInFlight id) =
        some (answer, w')) :
    Accounted (⟨thread, .markInFlight id, answer, w, w'⟩ :: past)
      w' := by
  unfold execOutbox at hExec
  dsimp only at hExec
  split at hExec
  · rename_i now delivery rest report hDraining
    split at hExec
    · rename_i hId
      cases hExec
      subst hId
      have hWorker := hAccounted.worker
      rw [hDraining] at hWorker
      obtain ⟨hNodup, hWaits⟩ := hWorker
      rw [List.map_cons, List.nodup_cons] at hNodup
      obtain ⟨s, hState, hStatus⟩ :=
        hWaits delivery List.mem_cons_self
      have hOpen : s.IsOpen := by
        rcases hStatus with hStatus | hStatus
        · exact .inl hStatus
        · exact .inr (.inr hStatus)
      refine hAccounted.push_update ?_ rfl rfl ?_ ?_
      · intro new hEffect
        cases hEffect
      · intro s' hState'
        rw [hState] at hState'
        cases hState'
        exact ((hAccounted.rows _ s hState).push _).inFlight
          hOpen now
      · refine ⟨⟨{ s with status := .inFlight }, ?_, .inr rfl⟩,
          ?_, hNodup.1⟩
        · rw [WebhookOutbox.state?_update, if_pos rfl, hState]
          rfl
        · exact Listed.update_other
            ⟨hNodup.2, fun d hD =>
              hWaits d (List.mem_cons_of_mem _ hD)⟩ hNodup.1 _
    · cases hExec
  · cases hExec

private theorem accounted_attempt
    {id : String}
    {result : SendResult}
    {answer : Unit}
    (hAccounted : Accounted past w)
    (hExec :
      execOutbox rfc3339 clock w (.attempt id result) =
        some (answer, w')) :
    Accounted
      (⟨thread, .attempt id result, answer, w, w'⟩ :: past)
      w' := by
  unfold execOutbox at hExec
  dsimp only at hExec
  split at hExec
  · rename_i now delivery rest report hSending
    split at hExec
    · rename_i hId
      cases hExec
      subst hId
      have hWorker := hAccounted.worker
      rw [hSending] at hWorker
      refine hAccounted.push_same ?_ rfl rfl ⟨hWorker, ?_⟩
      · intro new hEffect
        cases hEffect
      · rintro status rfl hSuccess
        exact ⟨_, List.mem_cons_self, status, rfl, hSuccess⟩
    · cases hExec
  · cases hExec

private theorem accounted_recordResult
    {id : String}
    {after : DateTime}
    {answer : Unit}
    (hAccounted : Accounted past w)
    (hExec :
      execOutbox rfc3339 clock w (.recordResult id after) =
        some (answer, w')) :
    Accounted
      (⟨thread, .recordResult id after, answer, w, w'⟩ :: past)
      w' := by
  unfold execOutbox at hExec
  dsimp only at hExec
  split at hExec
  · rename_i now delivery result rest report hAnswered
    split at hExec
    · rename_i hId
      cases hExec
      subst hId
      have hWorker := hAccounted.worker.keep
        (keepsOpen_refl w.outbox)
        ⟨thread, .recordResult delivery.id after, (), w,
          { w with
            outbox :=
              w.outbox.update rfc3339 clock delivery.id
                (resultPatch result after)
            worker :=
              afterRecord now delivery result rest report }⟩
      rw [hAnswered] at hWorker
      obtain ⟨⟨⟨s, hState, hStatus⟩, hRest, hOther⟩, hAccepted⟩ :=
        hWorker
      have hOpen : s.IsOpen := by
        rcases hStatus with hStatus | hStatus
        · exact .inl hStatus
        · exact .inr (.inl hStatus)
      have hStill :
          Listed
            (w.outbox.update rfc3339 clock delivery.id
              (resultPatch result after)) rest :=
        hRest.update_other hOther _
      refine hAccounted.push_update ?_ rfl rfl ?_ ?_
      · intro new hEffect
        cases hEffect
      · intro s' hState'
        rw [hState] at hState'
        cases hState'
        exact ((hAccounted.rows _ s hState).push _).result hOpen
          hAccepted after
      · unfold afterRecord
        dsimp only
        split
        · split
          · exact hStill
          · exact hStill
        · exact hStill
    · cases hExec
  · cases hExec

private theorem accounted_countFailure
    {id : String}
    {answer : Unit}
    (hAccounted : Accounted past w)
    (hExec :
      execOutbox rfc3339 clock w (.countFailure id) =
        some (answer, w')) :
    Accounted
      (⟨thread, .countFailure id, answer, w, w'⟩ :: past)
      w' := by
  unfold execOutbox at hExec
  dsimp only at hExec
  split at hExec
  · rename_i now delivery rest report hCounting
    split at hExec
    · cases hExec
      have hWorker := hAccounted.worker
      rw [hCounting] at hWorker
      refine hAccounted.push_same ?_ rfl rfl hWorker
      intro new hEffect
      cases hEffect
    · cases hExec
  · cases hExec

private theorem accounted_finishTick
    {answer : TickReport}
    (hAccounted : Accounted past w)
    (hExec :
      execOutbox rfc3339 clock w .finishTick =
        some (answer, w')) :
    Accounted (⟨thread, .finishTick, answer, w, w'⟩ :: past)
      w' := by
  unfold execOutbox at hExec
  dsimp only at hExec
  split at hExec
  · cases hExec
    refine hAccounted.push_same ?_ rfl rfl trivial
    intro new hEffect
    cases hEffect
  · cases hExec

private theorem accounted_prune
    {retention : Retention}
    {now : DateTime}
    {answer : PruneReport}
    (hAccounted : Accounted past w)
    (hExec :
      execOutbox rfc3339 clock w (.prune retention now) =
        some (answer, w')) :
    Accounted
      (⟨thread, .prune retention now, answer, w, w'⟩ :: past)
      w' := by
  unfold execOutbox at hExec
  dsimp only at hExec
  cases hExec
  refine hAccounted.push ?_ rfl ?_ ?_
    (hAccounted.worker.keep (keepsOpen_pruneNow _ _) _)
  · intro new hEffect
    cases hEffect
  · intro id s hState
    rcases state?_pruneNow retention now id with
      hSame | ⟨hNone, _⟩
    · have hBefore : w.outbox.state? id = some s :=
        hSame.symm.trans hState
      exact ⟨(hAccounted.rows id s hBefore).push _, s, hBefore⟩
    · cases hNone.symm.trans hState
  · intro id s hState hNone
    rcases state?_pruneNow retention now id with
      hSame | ⟨_, hClosed⟩
    · have hBefore : w.outbox.state? id = none :=
        hSame.symm.trans hNone
      cases hState.symm.trans hBefore
    · exact ⟨⟨retention, now, rfl⟩, hClosed, hNone⟩

private theorem accounted_crash
    {answer : Unit}
    (hAccounted : Accounted past w)
    (hExec :
      execOutbox rfc3339 clock w .crash = some (answer, w')) :
    Accounted (⟨thread, .crash, answer, w, w'⟩ :: past) w' := by
  unfold execOutbox at hExec
  dsimp only at hExec
  cases hExec
  refine hAccounted.push_same ?_ rfl rfl trivial
  intro new hEffect
  cases hEffect

private theorem accounted_restart
    {now : DateTime}
    {answer : Nat}
    (hAccounted : Accounted past w)
    (hExec :
      execOutbox rfc3339 clock w (.restart now) =
        some (answer, w')) :
    Accounted (⟨thread, .restart now, answer, w, w'⟩ :: past)
      w' := by
  unfold execOutbox at hExec
  dsimp only at hExec
  split at hExec
  · cases hExec
    refine hAccounted.push ?_ rfl ?_ ?_ trivial
    · intro new hEffect
      cases hEffect
    · intro id s hState
      rw [WebhookOutbox.state?_reclaimInFlight] at hState
      obtain ⟨s', hBefore, rfl⟩ :=
        Option.map_eq_some_iff.mp hState
      refine ⟨?_, s', hBefore⟩
      have hSound := hAccounted.rows id s' hBefore
      split
      · rename_i hStuck
        exact (hSound.push _).reclaim hStuck
      · exact hSound.push _
    · intro id s hState hNone
      rw [WebhookOutbox.state?_reclaimInFlight, hState] at hNone
      cases hNone
  · cases hExec

private theorem accounted_readForRetry
    {id : String}
    {answer : Except RetryError Unit}
    (hAccounted : Accounted past w)
    (hExec :
      execOutbox rfc3339 clock w (.readForRetry id) =
        some (answer, w')) :
    Accounted
      (⟨thread, .readForRetry id, answer, w, w'⟩ :: past)
      w' := by
  have hWorker (o : OutboxHappening) :=
    hAccounted.worker.keep (keepsOpen_refl w.outbox) o
  unfold execOutbox at hExec
  dsimp only at hExec
  split at hExec
  · cases hExec
    refine hAccounted.push_same ?_ rfl rfl (hWorker _)
    intro new hEffect
    cases hEffect
  · cases hExec
    refine hAccounted.push_same ?_ rfl rfl (hWorker _)
    intro new hEffect
    cases hEffect

private theorem accounted_resetRow
    {id : String}
    {now : DateTime}
    {answer : Option WebhookDelivery}
    (hAccounted : Accounted past w)
    (hExec :
      execOutbox rfc3339 clock w (.resetRow id now) =
        some (answer, w')) :
    Accounted
      (⟨thread, .resetRow id now, answer, w, w'⟩ :: past)
      w' := by
  unfold execOutbox at hExec
  dsimp only at hExec
  split at hExec
  · cases hExec
    refine hAccounted.push_update ?_ rfl rfl ?_
      (hAccounted.worker.keep (keepsOpen_retry id now) _)
    · intro new hEffect
      cases hEffect
    · intro s hState
      exact ((hAccounted.rows id s hState).push _).retry now
  · cases hExec

/- Whatever happens to the outbox keeps the account. -/
theorem Accounted.step
    {h : History OutboxEff.Res OutboxWorld}
    {o : OutboxHappening}
    (hAccounted : Accounted h.past h.world)
    (hAllows : (outboxMachine rfc3339).Allows h o) :
    Accounted (o :: h.past) o.after := by
  rcases o with ⟨thread, effect, answer, before, after⟩
  obtain ⟨hBefore, clock, hMove⟩ := hAllows
  cases hBefore
  have hExec :
      execOutbox rfc3339 clock h.world effect =
        some (answer, after) := hMove
  cases effect with
  | enqueue new => exact accounted_enqueue thread hAccounted hExec
  | startTick now =>
      exact accounted_startTick thread hAccounted hExec
  | markInFlight id =>
      exact accounted_markInFlight thread hAccounted hExec
  | attempt id result =>
      exact accounted_attempt thread hAccounted hExec
  | recordResult id after =>
      exact accounted_recordResult thread hAccounted hExec
  | countFailure id =>
      exact accounted_countFailure thread hAccounted hExec
  | finishTick =>
      exact accounted_finishTick thread hAccounted hExec
  | prune retention now =>
      exact accounted_prune thread hAccounted hExec
  | crash => exact accounted_crash thread hAccounted hExec
  | restart now =>
      exact accounted_restart thread hAccounted hExec
  | readForRetry id =>
      exact accounted_readForRetry thread hAccounted hExec
  | resetRow id now =>
      exact accounted_resetRow thread hAccounted hExec

end Step

end Service

end IcpHandler

------------------------------------------------------------
-- Nothing is Lost
------------------------------------------------------------

namespace IcpHandler

namespace Service

open Model Concurrency

section Runs

variable {rfc3339 : Rfc3339}
variable {outbox : WebhookOutbox}
variable {h : History OutboxEff.Res OutboxWorld}

/- The account holds in every run. -/
theorem OutboxRun.accounted
    (hNothing : NothingQueued outbox)
    (hRun : OutboxRun rfc3339 outbox h) :
    Accounted h.past h.world := by
  have hNoRow :
      ∀ id s, outbox.state? id ≠ some s := by
    intro id s hState
    cases (hNothing id).symm.trans hState
  have hNone : ∀ id, ¬ Enqueued id [] := by
    rintro id ⟨o, hMem, _⟩
    cases hMem
  induction hRun with
  | start =>
      exact
        { rows := fun id s hState => absurd hState (hNoRow id s)
          gone := fun id hId => absurd hId (hNone id)
          issued := fun id hId => absurd hId (hNone id)
          known := fun id s hState =>
            absurd hState (hNoRow id s)
          worker := trivial }
  | push hBefore hAllows hRule ih => exact ih.step hAllows

/- No delivery has two fates. -/
theorem HasFate.unique
    {id : String}
    {fate fate' : Fate}
    (hFate : HasFate h id fate)
    (hFate' : HasFate h id fate') :
    fate = fate' := by
  have hOpen : ∀ {s : DeliveryState}, s.IsOpen →
      s.status ≠ .delivered ∧ s.status ≠ .deadLettered := by
    rintro s (hStatus | hStatus | hStatus)
    all_goals
      rw [hStatus]
      decide
  have hSame : ∀ {s s' : DeliveryState},
      h.world.outbox.state? id = some s →
        h.world.outbox.state? id = some s' → s = s' :=
    fun hState hState' =>
      Option.some.inj (hState.symm.trans hState')
  have hStored : ∀ {s : DeliveryState},
      h.world.outbox.state? id = some s →
        h.world.outbox.state? id ≠ none := by
    intro s hState hNone
    cases hState.symm.trans hNone
  cases fate with
  | undelivered =>
      obtain ⟨s, hState, hIsOpen⟩ := hFate
      cases fate' with
      | undelivered => rfl
      | delivered =>
          obtain ⟨⟨s', hState', hStatus⟩, _⟩ := hFate'
          cases hSame hState hState'
          exact absurd hStatus (hOpen hIsOpen).1
      | deadLettered =>
          obtain ⟨s', hState', hStatus, _⟩ := hFate'
          cases hSame hState hState'
          exact absurd hStatus (hOpen hIsOpen).2
      | pruned => exact absurd hFate'.1 (hStored hState)
  | delivered =>
      obtain ⟨⟨s, hState, hDelivered⟩, _⟩ := hFate
      cases fate' with
      | undelivered =>
          obtain ⟨s', hState', hIsOpen⟩ := hFate'
          cases hSame hState hState'
          exact absurd hDelivered (hOpen hIsOpen).1
      | delivered => rfl
      | deadLettered =>
          obtain ⟨s', hState', hStatus, _⟩ := hFate'
          cases hSame hState hState'
          cases hDelivered.symm.trans hStatus
      | pruned => exact absurd hFate'.1 (hStored hState)
  | deadLettered =>
      obtain ⟨s, hState, hDead, _⟩ := hFate
      cases fate' with
      | undelivered =>
          obtain ⟨s', hState', hIsOpen⟩ := hFate'
          cases hSame hState hState'
          exact absurd hDead (hOpen hIsOpen).2
      | delivered =>
          obtain ⟨⟨s', hState', hStatus⟩, _⟩ := hFate'
          cases hSame hState hState'
          cases hDead.symm.trans hStatus
      | deadLettered => rfl
      | pruned => exact absurd hFate'.1 (hStored hState)
  | pruned =>
      obtain ⟨hNone, _⟩ := hFate
      cases fate' with
      | undelivered =>
          obtain ⟨s, hState, _⟩ := hFate'
          exact absurd hNone (hStored hState)
      | delivered =>
          obtain ⟨⟨s, hState, _⟩, _⟩ := hFate'
          exact absurd hNone (hStored hState)
      | deadLettered =>
          obtain ⟨s, hState, _⟩ := hFate'
          exact absurd hNone (hStored hState)
      | pruned => rfl

/- Every delivery that was enqueued has a fate. -/
theorem Accounted.fate
    (hAccounted : Accounted h.past h.world)
    {id : String}
    (hEnqueued : Enqueued id h.past) :
    ∃ fate, HasFate h id fate := by
  cases hState : h.world.outbox.state? id with
  | none =>
      exact ⟨.pruned, hState,
        hAccounted.gone id hEnqueued hState⟩
  | some s =>
      have hSound := hAccounted.rows id s hState
      cases hStatus : s.status with
      | pending =>
          exact ⟨.undelivered, s, hState, .inl hStatus⟩
      | inFlight =>
          exact ⟨.undelivered, s, hState, .inr (.inl hStatus)⟩
      | failed =>
          exact ⟨.undelivered, s, hState, .inr (.inr hStatus)⟩
      | delivered =>
          exact ⟨.delivered, ⟨s, hState, hStatus⟩,
            hSound.accepted hStatus⟩
      | deadLettered =>
          exact ⟨.deadLettered, s, hState, hStatus,
            hSound.exhausted hStatus⟩

/- After the reclaim of a restart nothing is in flight. -/
theorem restart_reclaims
    {o : OutboxHappening}
    (hAllows : (outboxMachine rfc3339).Allows h o)
    {now : DateTime}
    (hRestart : o.effect = .restart now)
    (id : String)
    (s : DeliveryState)
    (hState : o.after.outbox.state? id = some s) :
    s.status ≠ .inFlight := by
  rcases o with ⟨thread, effect, answer, before, after⟩
  obtain ⟨_, clock, hMove⟩ := hAllows
  have hExec :
      execOutbox rfc3339 clock h.world effect =
        some (answer, after) := hMove
  subst hRestart
  unfold execOutbox at hExec
  dsimp only at hExec
  split at hExec
  · cases hExec
    rw [WebhookOutbox.state?_reclaimInFlight] at hState
    obtain ⟨s', _, rfl⟩ := Option.map_eq_some_iff.mp hState
    split
    · intro hNo
      cases hNo
    · assumption
  · cases hExec

/-
  An operator's retry is its two calls with nothing between
  them: the read that can refuse, and the reset.
-/
theorem resetForRetry_eq
    (clock : DateTime)
    (outbox : WebhookOutbox)
    (id : String)
    (now : DateTime) :
    (outbox.resetForRetry rfc3339 clock id now).2 =
      match WebhookOutbox.retryCheck
          (outbox.get rfc3339 clock id) with
      | .error _ => outbox
      | .ok _ =>
          outbox.update rfc3339 clock id (.retry now) := by
  unfold WebhookOutbox.resetForRetry
  cases WebhookOutbox.retryCheck
      (outbox.get rfc3339 clock id) with
  | error refused => rfl
  | ok checked =>
      dsimp only
      split
      · rfl
      · rfl

end Runs

/- What the outbox promises at every moment. -/
structure LosesNothing
    (h : History OutboxEff.Res OutboxWorld) : Prop where
  oneFate :
    ∀ id, Enqueued id h.past → ∃! fate, HasFate h id fate
  withinAttempts :
    ∀ id s, h.world.outbox.state? id = some s →
      s.attempts ≤ s.maxAttempts
  reclaimed :
    ∀ o ∈ h.past, ∀ now, o.effect = .restart now →
      ∀ id s, o.after.outbox.state? id = some s →
        s.status ≠ .inFlight

/-
  The outbox loses nothing in any run, in memory or in the
  table: every delivery has exactly one fate, no row is tried
  more often than it may be, and no restart leaves a row in
  flight.
-/
theorem outbox_loses_nothing
    (rfc3339 : Rfc3339)
    (outbox : WebhookOutbox)
    (h : History OutboxEff.Res OutboxWorld)
    (hNothing : NothingQueued outbox)
    (hRun : OutboxRun rfc3339 outbox h) :
    LosesNothing h := by
  have hAccounted := hRun.accounted hNothing
  refine ⟨?_, ?_, ?_⟩
  · intro id hEnqueued
    obtain ⟨fate, hFate⟩ := hAccounted.fate hEnqueued
    exact ⟨fate, hFate, fun other hOther =>
      hOther.unique hFate⟩
  · intro id s hState
    exact (hAccounted.rows id s hState).within
  · intro o hMem now hRestart
    obtain ⟨recent, older, hPast⟩ := List.append_of_mem hMem
    obtain ⟨earlier, _, _, hAllows, _⟩ := hRun.cut hPast
    exact restart_reclaims hAllows hRestart

private theorem performAll_run
    {rfc3339 : Rfc3339}
    {outbox : WebhookOutbox}
    {effects : List OutboxEff}
    {clocks rest : List DateTime}
    {h : History OutboxEff.Res OutboxWorld}
    (hEval :
      (Prog.performAll effects).eval (outboxMachine rfc3339) 0 clocks
        (.start { outbox := outbox }) = some ((), h, rest)) :
    OutboxRun rfc3339 outbox h :=
  (Prog.eval_lawful .start
    (Prog.Traced.of_forall (Q := fun _ _ => True)
      (fun _ _ => trivial) (fun _ _ => trivial) _ _)
    hEval).1

def sampleDelivery : NewDelivery where
  delivery :=
    { id := "whd_1"
      eventId := "evt_1"
      eventType := "transaction.completed"
      url := "https://example.com/hook"
      payloadJson := "\x7b\x7d"
      status := .pending
      attempts := 0
      maxAttempts := 3
      nextAttemptAt := 0
      lastStatusCode := none
      lastError := none
      createdAt := 0
      updatedAt := 0
      deliveredAt := none
      tenantId := "t" }
  pending := rfl
  untried := rfl
  hasAttempts := by decide

/-
  The worker dies with the delivery on its way, and the next
  one delivers it. It is pruned in the end.
-/
private def crashedOnce : List OutboxEff :=
  [.restart 0, .enqueue sampleDelivery, .startTick 0,
    .markInFlight "whd_1", .crash, .restart 0, .startTick 0,
    .markInFlight "whd_1", .attempt "whd_1" (.ok 200),
    .recordResult "whd_1" 0, .finishTick,
    .prune ⟨some (Duration.seconds 60), none⟩
      (Duration.seconds 120)]

private def isEnqueue (o : OutboxHappening) : Bool :=
  match o.effect with
  | .enqueue new => new.delivery.id == "whd_1"
  | _ => false

theorem outbox_loses_nothing_sample :
    ∃ h, OutboxRun concreteRfc3339 (.sqlite .empty) h ∧
      Enqueued "whd_1" h.past ∧
      h.world.outbox.state? "whd_1" = none ∧
      LosesNothing h := by
  have hEval :
      ((Prog.performAll crashedOnce).eval
          (outboxMachine concreteRfc3339) 0 (List.replicate 12 0)
          (.start { outbox := .sqlite .empty })).any
        (fun result =>
          result.2.1.past.any isEnqueue &&
            (result.2.1.world.outbox.state? "whd_1").isNone) =
        true := by
    decide
  obtain ⟨⟨value, h, rest⟩, hRun, hChecks⟩ :=
    (Option.any_eq_true _ _).mp hEval
  rw [Bool.and_eq_true, List.any_eq_true,
    Option.isNone_iff_eq_none] at hChecks
  obtain ⟨⟨o, hMem, hIsEnqueue⟩, hNone⟩ := hChecks
  have hHistory := performAll_run hRun
  refine ⟨h, hHistory, ⟨o, hMem, ?_⟩, hNone,
    outbox_loses_nothing concreteRfc3339 (.sqlite .empty) h
      (fun _ => rfl) hHistory⟩
  unfold isEnqueue at hIsEnqueue
  split at hIsEnqueue
  · rename_i new hEffect
    exact ⟨new, hEffect, beq_iff_eq.mp hIsEnqueue⟩
  · cases hIsEnqueue

end Service

end IcpHandler
