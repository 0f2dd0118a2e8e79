import IcpHandler.Properties.OutboxDelivery

/-
  A retry reads its row, and resets it in a second call. If
  the worker records a success in between, the reset takes a
  delivered row back to pending and it is attempted again.
  Where that does not happen, a delivered row stays delivered
  until it is pruned.

  Main declarations:
    * `RetryRun`, `resetForRetry_traced`
    * `NotOvertaken`
    * `RowStep`, `rowStep_of_allows`
    * `StaysDelivered`
    * `delivered_stays_delivered`
    * `delivered_resurrected`
-/

------------------------------------------------------------
-- Retries in a Run
------------------------------------------------------------

namespace IcpHandler

namespace Service

open Model Concurrency

/-
  A thread resets a row only as the second call of a retry
  whose check has passed. Every retry has its own thread.
-/
def retryRule
    (_thread : Nat)
    (moves : Trace OutboxEff.Res) : OutboxEff → Prop
  | .resetRow id _ =>
      moves = [⟨.readForRetry id, (Except.ok () :
        Except RetryError Unit)⟩]
  | _ => True

/- The histories of an outbox whose retries follow that. -/
abbrev RetryRun
    (rfc3339 : Rfc3339)
    (outbox : WebhookOutbox)
    (h : History OutboxEff.Res OutboxWorld) : Prop :=
  Lawful (outboxMachine rfc3339) retryRule
    { outbox := outbox } h

/- The retry of an operator follows it. -/
theorem resetForRetry_traced
    (thread : Nat)
    (id : String)
    (now : DateTime) :
    (resetForRetry id now).Traced (retryRule thread)
      (fun _ _ => True) [] := by
  refine ⟨trivial, ?_⟩
  intro checked
  cases checked with
  | error refused => exact trivial
  | ok passed =>
      refine ⟨rfl, ?_⟩
      intro found
      cases found with
      | none => exact trivial
      | some d => exact trivial

/- The effect is the read of a retry of this delivery. -/
def readsForRetry
    (id : String) : OutboxEff → Bool
  | .readForRetry asked => asked == id
  | _ => false

/- The worker has an answer that counts as delivered. -/
def WorkerState.hasSuccess : WorkerState → Bool
  | .answered _ _ (.ok status) _ _ => isSuccess status
  | _ => false

/- The occurrence records that the delivery was accepted. -/
def recordsDelivery
    (id : String)
    (o : OutboxHappening) : Bool :=
  match o.effect with
  | .recordResult asked _ =>
      asked == id && o.before.worker.hasSuccess
  | _ => false

/- The delivery that the effect resets. -/
def resetId? : OutboxEff → Option String
  | .resetRow id _ => some id
  | _ => none

/-
  A reset is not overtaken: the worker has recorded no success
  for the delivery since the retry has read its row.
-/
def NotOvertaken
    (older : List OutboxHappening)
    (o : OutboxHappening) : Prop :=
  ∀ id ∈ resetId? o.effect,
    UnbrokenSince (recordsDelivery id) (readsForRetry id)
      o.thread older

instance
    (older : List OutboxHappening)
    (o : OutboxHappening) :
    Decidable (NotOvertaken older o) := by
  unfold NotOvertaken
  infer_instance

end Service

end IcpHandler

------------------------------------------------------------
-- What an Occurrence Does to a Row
------------------------------------------------------------

namespace IcpHandler

namespace Service

open Model Concurrency

/- All that can happen to the state of one delivery. -/
inductive RowStep
    (id : String)
    (o : OutboxHappening) : Prop where
  | same
      (hSame :
        o.after.outbox.state? id = o.before.outbox.state? id)
  | enqueued
      (s : DeliveryState)
      (hNew : id ∉ o.before.issued)
      (hPending : s.status = .pending)
      (hAfter : o.after.outbox.state? id = some s)
  | started
      (s : DeliveryState)
      (hBefore : o.before.outbox.state? id = some s)
      (hWaits : s.status = .pending ∨ s.status = .failed)
      (hAfter :
        o.after.outbox.state? id =
          some { s with status := .inFlight })
  | recorded
      (s : DeliveryState)
      (result : SendResult)
      (time : DateTime)
      (hEffect : o.effect = .recordResult id time)
      (hSuccess :
        (∃ status, result = .ok status ∧
          isSuccess status = true) →
          o.before.worker.hasSuccess = true)
      (hBefore : o.before.outbox.state? id = some s)
      (hUnderWay : s.status = .pending ∨ s.status = .inFlight)
      (hAfter :
        o.after.outbox.state? id =
          some ((resultPatch result time).onState s))
  | pruned (hPruned : PrunedAt id o)
  | reclaimed
      (s : DeliveryState)
      (hBefore : o.before.outbox.state? id = some s)
      (hStuck : s.status = .inFlight)
      (hAfter :
        o.after.outbox.state? id =
          some { s with status := .pending })
  | reset
      (s : DeliveryState)
      (now : DateTime)
      (hEffect : o.effect = .resetRow id now)
      (hBefore : o.before.outbox.state? id = some s)
      (hAfter :
        o.after.outbox.state? id =
          some { s with status := .pending, attempts := 0 })

section RowStep

variable {rfc3339 : Rfc3339}
variable {clock : DateTime}
variable {past : List OutboxHappening}
variable {w w' : OutboxWorld}
variable {id : String}
variable (thread : Nat)

private theorem rowStep_enqueue
    {new : NewDelivery}
    {answer : Unit}
    (hAccounted : Accounted past w)
    (hExec :
      execOutbox rfc3339 clock w (.enqueue new) =
        some (answer, w')) :
    RowStep id ⟨thread, .enqueue new, answer, w, w'⟩ := by
  unfold execOutbox at hExec
  dsimp only at hExec
  split at hExec
  · cases hExec
  · rename_i hFresh
    cases hExec
    have hNew : w.outbox.state? new.delivery.id = none := by
      cases hState : w.outbox.state? new.delivery.id with
      | none => rfl
      | some s =>
          exact absurd (hAccounted.known _ s hState) hFresh
    have hAfter :
        (w.outbox.enqueue rfc3339 new.delivery).state? id =
          _ := WebhookOutbox.state?_enqueue hNew id
    by_cases hId : id = new.delivery.id
    · rw [if_pos hId] at hAfter
      refine .enqueued new.delivery.state ?_ new.pending hAfter
      rw [hId]
      exact hFresh
    · rw [if_neg hId] at hAfter
      exact .same hAfter

private theorem rowStep_markInFlight
    {target : String}
    {answer : Unit}
    (hAccounted : Accounted past w)
    (hExec :
      execOutbox rfc3339 clock w (.markInFlight target) =
        some (answer, w')) :
    RowStep id ⟨thread, .markInFlight target, answer, w, w'⟩ := by
  unfold execOutbox at hExec
  dsimp only at hExec
  split at hExec
  · rename_i now delivery rest report hDraining
    split at hExec
    · rename_i hTarget
      cases hExec
      subst hTarget
      have hAfter :
          (w.outbox.update rfc3339 clock delivery.id
            (.inFlight now)).state? id = _ :=
        WebhookOutbox.state?_update delivery.id _ id
      have hWorker := hAccounted.worker
      rw [hDraining] at hWorker
      obtain ⟨s, hState, hWaits⟩ :=
        hWorker.2 delivery List.mem_cons_self
      by_cases hId : id = delivery.id
      · subst hId
        rw [if_pos rfl, hState] at hAfter
        exact .started s hState hWaits hAfter
      · rw [if_neg hId] at hAfter
        exact .same hAfter
    · cases hExec
  · cases hExec

private theorem rowStep_recordResult
    {target : String}
    {time : DateTime}
    {answer : Unit}
    (hAccounted : Accounted past w)
    (hExec :
      execOutbox rfc3339 clock w (.recordResult target time) =
        some (answer, w')) :
    RowStep id
      ⟨thread, .recordResult target time, answer, w, w'⟩ := by
  unfold execOutbox at hExec
  dsimp only at hExec
  split at hExec
  · rename_i now delivery result rest report hAnswered
    split at hExec
    · rename_i hTarget
      cases hExec
      subst hTarget
      have hAfter :
          (w.outbox.update rfc3339 clock delivery.id
            (resultPatch result time)).state? id = _ :=
        WebhookOutbox.state?_update delivery.id _ id
      have hWorker := hAccounted.worker
      rw [hAnswered] at hWorker
      obtain ⟨⟨⟨s, hState, hUnderWay⟩, _⟩, _⟩ := hWorker
      by_cases hId : id = delivery.id
      · subst hId
        rw [if_pos rfl, hState] at hAfter
        refine .recorded s result time rfl ?_ hState hUnderWay
          hAfter
        rintro ⟨status, rfl, hSuccess⟩
        rw [hAnswered]
        exact hSuccess
      · rw [if_neg hId] at hAfter
        exact .same hAfter
    · cases hExec
  · cases hExec

private theorem rowStep_prune
    {retention : Retention}
    {now : DateTime}
    {answer : PruneReport}
    (hExec :
      execOutbox rfc3339 clock w (.prune retention now) =
        some (answer, w')) :
    RowStep id
      ⟨thread, .prune retention now, answer, w, w'⟩ := by
  unfold execOutbox at hExec
  dsimp only at hExec
  cases hExec
  rcases state?_pruneNow retention now id with
    hSame | ⟨hNone, hClosed⟩
  · exact .same hSame
  · exact .pruned ⟨⟨retention, now, rfl⟩, hClosed, hNone⟩

private theorem rowStep_restart
    {now : DateTime}
    {answer : Nat}
    (hExec :
      execOutbox rfc3339 clock w (.restart now) =
        some (answer, w')) :
    RowStep id ⟨thread, .restart now, answer, w, w'⟩ := by
  unfold execOutbox at hExec
  dsimp only at hExec
  split at hExec
  · cases hExec
    have hAfter :
        (w.outbox.reclaimInFlight rfc3339 now).2.state? id =
          _ := WebhookOutbox.state?_reclaimInFlight now id
    cases hState : w.outbox.state? id with
    | none =>
        rw [hState] at hAfter
        exact .same (hAfter.trans hState.symm)
    | some s =>
        rw [hState, Option.map_some] at hAfter
        by_cases hStuck : s.status = .inFlight
        · rw [if_pos hStuck] at hAfter
          exact .reclaimed s hState hStuck hAfter
        · rw [if_neg hStuck] at hAfter
          exact .same (hAfter.trans hState.symm)
  · cases hExec

private theorem rowStep_resetRow
    {target : String}
    {now : DateTime}
    {answer : Option WebhookDelivery}
    (hExec :
      execOutbox rfc3339 clock w (.resetRow target now) =
        some (answer, w')) :
    RowStep id ⟨thread, .resetRow target now, answer, w, w'⟩ := by
  unfold execOutbox at hExec
  dsimp only at hExec
  split at hExec
  · cases hExec
    have hAfter :
        (w.outbox.update rfc3339 clock target
          (.retry now)).state? id = _ :=
      WebhookOutbox.state?_update target _ id
    by_cases hId : id = target
    · subst hId
      rw [if_pos rfl] at hAfter
      cases hState : w.outbox.state? id with
      | none =>
          rw [hState] at hAfter
          exact .same (hAfter.trans hState.symm)
      | some s =>
          rw [hState] at hAfter
          exact .reset s now rfl hState hAfter
    · rw [if_neg hId] at hAfter
      exact .same hAfter
  · cases hExec

/- Every occurrence is a step of every row. -/
theorem rowStep_of_allows
    {h : History OutboxEff.Res OutboxWorld}
    {o : OutboxHappening}
    (hAccounted : Accounted h.past h.world)
    (hAllows : (outboxMachine rfc3339).Allows h o)
    (id : String) :
    RowStep id o := by
  rcases o with ⟨thread, effect, answer, before, after⟩
  obtain ⟨hBefore, clock, hMove⟩ := hAllows
  cases hBefore
  have hExec :
      execOutbox rfc3339 clock h.world effect =
        some (answer, after) := hMove
  cases effect with
  | enqueue new => exact rowStep_enqueue thread hAccounted hExec
  | startTick now =>
      unfold execOutbox at hExec
      dsimp only at hExec
      split at hExec
      · cases hExec
        exact .same rfl
      · cases hExec
  | markInFlight target =>
      exact rowStep_markInFlight thread hAccounted hExec
  | attempt target result =>
      unfold execOutbox at hExec
      dsimp only at hExec
      split at hExec
      · split at hExec
        · cases hExec
          exact .same rfl
        · cases hExec
      · cases hExec
  | recordResult target time =>
      exact rowStep_recordResult thread hAccounted hExec
  | countFailure target =>
      unfold execOutbox at hExec
      dsimp only at hExec
      split at hExec
      · split at hExec
        · cases hExec
          exact .same rfl
        · cases hExec
      · cases hExec
  | finishTick =>
      unfold execOutbox at hExec
      dsimp only at hExec
      split at hExec
      · cases hExec
        exact .same rfl
      · cases hExec
  | prune retention now => exact rowStep_prune thread hExec
  | crash =>
      unfold execOutbox at hExec
      dsimp only at hExec
      cases hExec
      exact .same rfl
  | restart now => exact rowStep_restart thread hExec
  | readForRetry target =>
      unfold execOutbox at hExec
      dsimp only at hExec
      split at hExec
      · cases hExec
        exact .same rfl
      · cases hExec
        exact .same rfl
  | resetRow target now => exact rowStep_resetRow thread hExec

end RowStep

end Service

end IcpHandler

------------------------------------------------------------
-- Delivered and Not Delivered
------------------------------------------------------------

namespace IcpHandler

namespace Service

open Model Concurrency

/- The row, if there is one, is not delivered. -/
def Undelivered
    (id : String)
    (w : OutboxWorld) : Prop :=
  ∀ s, w.outbox.state? id = some s → s.status ≠ .delivered

/- The row is delivered, or was there and is gone. -/
def Settled
    (id : String)
    (w : OutboxWorld) : Prop :=
  (∃ s, w.outbox.state? id = some s ∧ s.status = .delivered) ∨
    (w.outbox.state? id = none ∧ id ∈ w.issued)

/- The occurrence takes a delivered row back to pending. -/
def takesBack
    (id : String)
    (o : OutboxHappening) : Bool :=
  match o.effect with
  | .resetRow asked _ =>
      asked == id &&
        (o.before.outbox.state? id).any
          fun s => s.status == .delivered
  | _ => false

section Rows

variable {rfc3339 : Rfc3339}
variable {h : History OutboxEff.Res OutboxWorld}
variable {o : OutboxHappening}
variable {id : String}
variable {s : DeliveryState}

/- What does not succeed is not recorded as delivered. -/
theorem resultPatch_status
    {result : SendResult}
    (time : DateTime)
    (hFailed :
      ¬ ∃ status, result = .ok status ∧
        isSuccess status = true) :
    ((resultPatch result time).onState s).status ≠
      .delivered := by
  have hFailure :
      ∀ statusCode error,
        ((DeliveryPatch.failure statusCode error time).onState
          s).status ≠ .delivered := by
    intro statusCode error
    unfold DeliveryPatch.onState
    dsimp only
    split
    · decide
    · decide
  unfold resultPatch
  cases result with
  | error e => exact hFailure _ _
  | ok status =>
      dsimp only
      split
      · rename_i hSuccess
        exact absurd ⟨status, rfl, hSuccess⟩ hFailed
      · exact hFailure _ _

/- Only a recorded success makes a row delivered. -/
theorem Undelivered.step
    (hStep : RowStep id o)
    (hBefore : Undelivered id o.before)
    (hNone : recordsDelivery id o = false) :
    Undelivered id o.after := by
  intro s' hState
  cases hStep with
  | same hSame =>
      rw [hSame] at hState
      exact hBefore s' hState
  | enqueued s hNew hPending hAfter =>
      cases hAfter.symm.trans hState
      rw [hPending]
      decide
  | started s hRow hWaits hAfter =>
      cases hAfter.symm.trans hState
      intro hNo
      cases hNo
  | recorded s result time hEffect hSuccess hRow hUnderWay
      hAfter =>
      cases hAfter.symm.trans hState
      refine resultPatch_status time ?_
      intro hAccepted
      have hRecords : recordsDelivery id o = true := by
        simp [recordsDelivery, hEffect, hSuccess hAccepted]
      rw [hRecords] at hNone
      cases hNone
  | pruned hPruned =>
      cases hPruned.2.2.symm.trans hState
  | reclaimed s hRow hStuck hAfter =>
      cases hAfter.symm.trans hState
      intro hNo
      cases hNo
  | reset s now hEffect hRow hAfter =>
      cases hAfter.symm.trans hState
      intro hNo
      cases hNo

/- A delivered row is kept, pruned or taken back. -/
theorem RowStep.delivered
    (hStep : RowStep id o)
    (hState : o.before.outbox.state? id = some s)
    (hDelivered : s.status = .delivered)
    (hIssued : id ∈ o.before.issued)
    (hKept : takesBack id o = false) :
    o.after.outbox.state? id = some s ∨ PrunedAt id o := by
  have hRow :
      ∀ s', o.before.outbox.state? id = some s' →
        s'.status = .delivered := by
    intro s' hState'
    cases hState.symm.trans hState'
    exact hDelivered
  cases hStep with
  | same hSame => exact .inl (hSame.trans hState)
  | enqueued s' hNew hPending hAfter =>
      exact absurd hIssued hNew
  | started s' hBefore hWaits hAfter =>
      rw [hRow s' hBefore] at hWaits
      rcases hWaits with hNo | hNo
      · cases hNo
      · cases hNo
  | recorded s' result time hEffect hSuccess hBefore hUnderWay
      hAfter =>
      rw [hRow s' hBefore] at hUnderWay
      rcases hUnderWay with hNo | hNo
      · cases hNo
      · cases hNo
  | pruned hPruned => exact .inr hPruned
  | reclaimed s' hBefore hStuck hAfter =>
      rw [hRow s' hBefore] at hStuck
      cases hStuck
  | reset s' now hEffect hBefore hAfter =>
      have hTakes : takesBack id o = true := by
        simp [takesBack, hEffect, hState, hDelivered]
      rw [hTakes] at hKept
      cases hKept

/- An id that is gone does not come back. -/
theorem RowStep.gone
    (hStep : RowStep id o)
    (hNone : o.before.outbox.state? id = none)
    (hIssued : id ∈ o.before.issued) :
    o.after.outbox.state? id = none := by
  cases hStep with
  | same hSame => exact hSame.trans hNone
  | enqueued s hNew hPending hAfter =>
      exact absurd hIssued hNew
  | started s hBefore hWaits hAfter =>
      cases hNone.symm.trans hBefore
  | recorded s result time hEffect hSuccess hBefore hUnderWay
      hAfter =>
      cases hNone.symm.trans hBefore
  | pruned hPruned => exact hPruned.2.2
  | reclaimed s hBefore hStuck hAfter =>
      cases hNone.symm.trans hBefore
  | reset s now hEffect hBefore hAfter =>
      cases hNone.symm.trans hBefore

/- Ids are never taken back. -/
theorem issued_subset
    (hAllows : (outboxMachine rfc3339).Allows h o) :
    o.before.issued ⊆ o.after.issued := by
  rcases o with ⟨thread, effect, answer, before, after⟩
  obtain ⟨hBefore, clock, hMove⟩ := hAllows
  cases hBefore
  have hExec :
      execOutbox rfc3339 clock h.world effect =
        some (answer, after) := hMove
  cases effect with
  | enqueue new =>
      unfold execOutbox at hExec
      dsimp only at hExec
      split at hExec
      · cases hExec
      · cases hExec
        exact List.subset_cons_self _ _
  | prune retention now =>
      cases hExec
      exact List.Subset.refl _
  | crash =>
      cases hExec
      exact List.Subset.refl _
  | _ =>
      unfold execOutbox at hExec
      dsimp only at hExec
      repeat' split at hExec
      all_goals
        cases hExec
        try exact List.Subset.refl _

/- What is settled stays so unless it is taken back. -/
theorem Settled.step
    (hAccounted : Accounted h.past h.world)
    (hAllows : (outboxMachine rfc3339).Allows h o)
    (hSettled : Settled id h.world)
    (hKept : takesBack id o = false) :
    Settled id o.after := by
  have hStep := rowStep_of_allows hAccounted hAllows id
  have hIssued := issued_subset hAllows
  rw [hAllows.before_eq] at hIssued
  rcases hSettled with ⟨s, hState, hDelivered⟩ | ⟨hNone, hId⟩
  · have hId : id ∈ h.world.issued :=
      hAccounted.known id s hState
    rw [← hAllows.before_eq] at hState
    rcases hStep.delivered hState hDelivered
        (by rwa [hAllows.before_eq]) hKept with
      hSame | hPruned
    · exact .inl ⟨s, hSame, hDelivered⟩
    · exact .inr ⟨hPruned.2.2, hIssued hId⟩
  · refine .inr ⟨hStep.gone ?_ ?_, hIssued hId⟩
    · rwa [hAllows.before_eq]
    · rwa [hAllows.before_eq]

/- What is settled is not attempted. -/
theorem Settled.not_attempted
    {result : SendResult}
    (hAccounted : Accounted h.past h.world)
    (hAllows : (outboxMachine rfc3339).Allows h o)
    (hSettled : Settled id h.world) :
    o.effect ≠ .attempt id result := by
  rintro hAttempt
  rcases o with ⟨thread, effect, answer, before, after⟩
  obtain ⟨_, clock, hMove⟩ := hAllows
  have hExec :
      execOutbox rfc3339 clock h.world effect =
        some (answer, after) := hMove
  subst hAttempt
  unfold execOutbox at hExec
  dsimp only at hExec
  split at hExec
  · rename_i now delivery rest report hSending
    split at hExec
    · rename_i hId
      subst hId
      have hWorker := hAccounted.worker
      rw [hSending] at hWorker
      obtain ⟨⟨s, hState, hUnderWay⟩, _⟩ := hWorker
      rcases hSettled with
        ⟨s', hState', hDelivered⟩ | ⟨hNone, _⟩
      · cases hState.symm.trans hState'
        rw [hDelivered] at hUnderWay
        rcases hUnderWay with hNo | hNo
        · cases hNo
        · cases hNo
      · cases hState.symm.trans hNone
    · cases hExec
  · cases hExec

/- A retry whose check has passed has read no delivered row. -/
theorem undelivered_of_check
    (hAllows : (outboxMachine rfc3339).Allows h o)
    (hMove :
      o.move = ⟨.readForRetry id, (Except.ok () :
        Except RetryError Unit)⟩) :
    Undelivered id o.after := by
  rcases o with ⟨thread, effect, answer, before, after⟩
  obtain ⟨_, clock, hExec⟩ := hAllows
  cases hMove
  have hRead :
      execOutbox rfc3339 clock h.world (.readForRetry id) =
        some (Except.ok (), after) := hExec
  unfold execOutbox at hRead
  dsimp only at hRead
  split at hRead
  · cases hRead
  · rename_i hCheck
    cases hRead
    intro s hState hDelivered
    have hRow :
        (h.world.outbox.get rfc3339 clock id).map
            WebhookDelivery.state = some s := by
      rw [WebhookOutbox.get_state]
      exact hState
    obtain ⟨d, hGet, rfl⟩ := Option.map_eq_some_iff.mp hRow
    have hStatus : d.status = .delivered := hDelivered
    rw [hGet] at hCheck
    simp only [WebhookOutbox.retryCheck, hStatus] at hCheck
    cases hCheck

end Rows

end Service

end IcpHandler

------------------------------------------------------------
-- Delivered Rows Stay Delivered
------------------------------------------------------------

namespace IcpHandler

namespace Service

open Model Concurrency

/-
  A delivered row changes only by being pruned, is never
  attempted again, and a retry that resets a row has found it
  not delivered.
-/
structure StaysDelivered
    (h : History OutboxEff.Res OutboxWorld) : Prop where
  kept :
    ∀ o ∈ h.past, ∀ id s,
      o.before.outbox.state? id = some s →
      s.status = .delivered →
        o.after.outbox.state? id = some s ∨ PrunedAt id o
  unattempted :
    ∀ recent o older id s,
      h.past = recent ++ o :: older →
      o.after.outbox.state? id = some s →
      s.status = .delivered →
        ∀ later ∈ recent, ∀ result,
          later.effect ≠ .attempt id result
  retried :
    ∀ o ∈ h.past, ∀ id now, o.effect = .resetRow id now →
      Undelivered id o.before

section Runs

variable {rfc3339 : Rfc3339}
variable {outbox : WebhookOutbox}
variable {h : History OutboxEff.Res OutboxWorld}

/- Such a run is one of the outbox. -/
theorem RetryRun.outboxRun
    (hRun : RetryRun rfc3339 outbox h) :
    OutboxRun rfc3339 outbox h :=
  hRun.mono fun _ _ _ _ => trivial

/-
  A reset that was not overtaken finds a row that is not
  delivered: it was not when the retry read it, and no success
  was recorded since.
-/
theorem undelivered_at_reset
    {o : OutboxHappening}
    {id : String}
    {now : DateTime}
    (hNothing : NothingQueued outbox)
    (hRun : RetryRun rfc3339 outbox h)
    (hAllows : (outboxMachine rfc3339).Allows h o)
    (hRule : retryRule o.thread (own o.thread h.past) o.effect)
    (hReset : o.effect = .resetRow id now)
    (hOrder : NotOvertaken h.past o) :
    Undelivered id o.before := by
  rw [hReset] at hRule
  have hOwn :
      (⟨.readForRetry id, (Except.ok () :
          Except RetryError Unit)⟩ : Move OutboxEff.Res) ∈
        own o.thread h.past := by
    rw [hRule]
    exact List.mem_singleton.mpr rfl
  obtain ⟨recent, read, older, hPast, _, hMove, hNone⟩ :=
    (hOrder id (by rw [hReset]; rfl)).cut hOwn
      (by simp [readsForRetry])
  obtain ⟨earlier, _, _, hRead, _⟩ := hRun.cut hPast
  rw [hAllows.before_eq]
  refine hRun.since (P := Undelivered id) (recordsDelivery id)
    hPast (undelivered_of_check hRead hMove) ?_ hNone
  intro g p hBefore hStep _ hOpen hQuiet
  have hAccounted :=
    (RetryRun.outboxRun hBefore).accounted hNothing
  refine Undelivered.step
    (rowStep_of_allows hAccounted hStep id) ?_ hQuiet
  rwa [hStep.before_eq]

/- So no delivered row is taken back. -/
theorem not_takesBack
    {o : OutboxHappening}
    {id : String}
    (hOpen :
      ∀ now, o.effect = .resetRow id now →
        Undelivered id o.before) :
    takesBack id o = false := by
  rw [Bool.eq_false_iff]
  intro hTakes
  unfold takesBack at hTakes
  split at hTakes
  · rename_i asked now hEffect
    rw [Bool.and_eq_true, beq_iff_eq] at hTakes
    obtain ⟨rfl, hAny⟩ := hTakes
    obtain ⟨s, hState, hDelivered⟩ :=
      (Option.any_eq_true _ _).mp hAny
    exact hOpen now hEffect s hState
      (beq_iff_eq.mp hDelivered)
  · cases hTakes

/-
  In every run whose resets are not overtaken, in memory or in
  the table, delivered rows stay delivered.
-/
theorem delivered_stays_delivered
    (rfc3339 : Rfc3339)
    (outbox : WebhookOutbox)
    (h : History OutboxEff.Res OutboxWorld)
    (hNothing : NothingQueued outbox)
    (hRun : RetryRun rfc3339 outbox h)
    (hOrder : Conforms NotOvertaken h.past) :
    StaysDelivered h := by
  have hRetried :
      ∀ recent o older id now, h.past = recent ++ o :: older →
        o.effect = .resetRow id now →
          Undelivered id o.before := by
    intro recent o older id now hPast hReset
    obtain ⟨earlier, hEarlier, hOlder, hAllows, hRule⟩ :=
      hRun.cut hPast
    rw [hPast] at hOrder
    rw [← hOlder] at hRule
    refine undelivered_at_reset hNothing hEarlier hAllows hRule
      hReset ?_
    rw [hOlder]
    exact hOrder.cut.1
  refine ⟨?_, ?_, ?_⟩
  · intro o hMem id s hState hDelivered
    obtain ⟨recent, older, hPast⟩ := List.append_of_mem hMem
    obtain ⟨earlier, hEarlier, hOlder, hAllows, _⟩ :=
      hRun.cut hPast
    have hAccounted :=
      (RetryRun.outboxRun hEarlier).accounted hNothing
    refine (rowStep_of_allows hAccounted hAllows id).delivered
      hState hDelivered ?_
      (not_takesBack fun now => hRetried _ _ _ id now hPast)
    rw [hAllows.before_eq] at hState ⊢
    exact hAccounted.known id s hState
  · intro recent o older id s hPast hState hDelivered later
      hLater result
    obtain ⟨newer, middle, hRecent⟩ :=
      List.append_of_mem hLater
    have hSplit :
        h.past = newer ++ later :: (middle ++ o :: older) := by
      rw [hPast, hRecent, List.append_assoc, List.cons_append]
    obtain ⟨earlier, hEarlier, hOlder, hAllows, _⟩ :=
      hRun.cut hSplit
    have hAccounted :=
      (RetryRun.outboxRun hEarlier).accounted hNothing
    refine Settled.not_attempted hAccounted hAllows ?_
    refine hEarlier.since (P := Settled id) (takesBack id)
      hOlder (.inl ⟨s, hState, hDelivered⟩) ?_ ?_
    · intro g p hBefore hStep _ hSettled hKept
      exact hSettled.step
        ((RetryRun.outboxRun hBefore).accounted hNothing)
        hStep hKept
    · intro p hP
      refine not_takesBack fun now hReset => ?_
      obtain ⟨one, two, hMiddle⟩ := List.append_of_mem hP
      refine hRetried (newer ++ later :: one) p
        (two ++ o :: older) id now ?_ hReset
      rw [hSplit, hMiddle]
      simp
  · intro o hMem id now hReset
    obtain ⟨recent, older, hPast⟩ := List.append_of_mem hMem
    exact hRetried recent o older id now hPast hReset

end Runs

end Service

end IcpHandler

------------------------------------------------------------
-- A Retry that Is Overtaken
------------------------------------------------------------

namespace IcpHandler

namespace Service

open Model Concurrency

private def retriedDelivery : NewDelivery :=
  sampleDelivery

/- One attempt on the delivery, in a tick of its own. -/
private def tickEffects
    (now : DateTime)
    (status : UInt16) : List OutboxEff :=
  [.startTick now, .markInFlight "whd_1",
    .attempt "whd_1" (.ok status), .recordResult "whd_1" now]

/-
  The worker fails with the delivery once, and delivers it in
  its next tick. An operator has the delivery retried.
-/
private def retriedPool :
    Pool OutboxEff.Res OutboxWorld Unit where
  history := .start { outbox := .memory .empty }
  threads thread :=
    if thread = 0 then
      Prog.performAll
        ([.restart 0, .enqueue retriedDelivery] ++
          tickEffects 0 500 ++
          [.countFailure "whd_1", .finishTick] ++
          tickEffects (Duration.seconds 60) 200 ++
          [.finishTick, .startTick (Duration.seconds 120),
            .markInFlight "whd_1",
            .attempt "whd_1" (.ok 200)])
    else
      resetForRetry "whd_1" (Duration.seconds 60) >>=
        fun _ => pure ()

/- The worker makes this many steps. -/
private def worker (steps : Nat) : List (Nat × DateTime) :=
  List.replicate steps (0, 0)

/- Calls that reset nothing break no rule. -/
private theorem performAll_traced
    {effects : List OutboxEff}
    {thread : Nat}
    (hNone : effects.all (fun e => (resetId? e).isNone) = true)
    (moves : Trace OutboxEff.Res) :
    (Prog.performAll effects).Traced (retryRule thread)
      (fun _ _ => True) moves := by
  induction effects generalizing moves with
  | nil => exact trivial
  | cons effect effects ih =>
      rw [List.all_cons, Bool.and_eq_true] at hNone
      refine ⟨?_, fun answer => ih hNone.2 _⟩
      cases effect with
      | resetRow id now => cases hNone.1
      | _ => exact trivial

/- Neither the worker nor the operator breaks the rule. -/
private theorem retriedPool_run
    {schedule : List (Nat × DateTime)}
    {pool : Pool OutboxEff.Res OutboxWorld Unit}
    (hRun :
      retriedPool.run (outboxMachine concreteRfc3339) schedule =
        some pool) :
    RetryRun concreteRfc3339 (.memory .empty) pool.history := by
  have hTraced :
      ∀ thread,
        (retriedPool.threads thread).Traced (retryRule thread)
          (fun _ _ => True) [] := by
    intro thread
    by_cases hWorker : thread = 0
    · have hThread :
          retriedPool.threads thread =
            Prog.performAll
              ([.restart 0, .enqueue retriedDelivery] ++
                tickEffects 0 500 ++
                [.countFailure "whd_1", .finishTick] ++
                tickEffects (Duration.seconds 60) 200 ++
                [.finishTick, .startTick (Duration.seconds 120),
                  .markInFlight "whd_1",
                  .attempt "whd_1" (.ok 200)]) :=
        if_pos hWorker
      rw [hThread]
      exact performAll_traced (by decide) _
    · have hThread :
          retriedPool.threads thread =
            (resetForRetry "whd_1" (Duration.seconds 60) >>=
              fun _ => pure ()) :=
        if_neg hWorker
      rw [hThread, Prog.Traced.bind_iff]
      exact resetForRetry_traced thread "whd_1"
        (Duration.seconds 60)
  exact (Pool.run_lawful .start hTraced hRun).1

/-
  The retry reads the failed row, and resets it when the
  worker has delivered it: it is attempted again.
-/
theorem delivered_resurrected :
    ∃ h, RetryRun concreteRfc3339 (.memory .empty) h ∧
      ¬ StaysDelivered h ∧
      (h.past.head?.any fun o =>
        match o.effect with
        | .attempt id _ => id == "whd_1"
        | _ => false) = true := by
  have hEval :
      (retriedPool.run (outboxMachine concreteRfc3339)
          (worker 8 ++ [(1, 0)] ++ worker 4 ++ [(1, 0)] ++
            worker 4)).any
        (fun pool =>
          pool.history.past.any (takesBack "whd_1") &&
            pool.history.past.head?.any fun o =>
              match o.effect with
              | .attempt id _ => id == "whd_1"
              | _ => false) = true := by
    decide
  obtain ⟨pool, hRun, hChecks⟩ :=
    (Option.any_eq_true _ _).mp hEval
  rw [Bool.and_eq_true, List.any_eq_true] at hChecks
  obtain ⟨⟨o, hMem, hTakes⟩, hAgain⟩ := hChecks
  refine ⟨pool.history, retriedPool_run hRun, ?_, hAgain⟩
  intro hStays
  have hKept : takesBack "whd_1" o = false :=
    not_takesBack fun now hReset =>
      hStays.retried o hMem "whd_1" now hReset
  rw [hTakes] at hKept
  cases hKept

/- A retry that is not overtaken, and the delivery after it. -/
theorem delivered_stays_delivered_sample :
    ∃ h, RetryRun concreteRfc3339 (.memory .empty) h ∧
      Conforms NotOvertaken h.past ∧ StaysDelivered h := by
  have hEval :
      (retriedPool.run (outboxMachine concreteRfc3339)
          (worker 8 ++ [(1, 0), (1, 0)] ++ worker 5)).any
        (fun pool =>
          decide (Conforms NotOvertaken pool.history.past)) =
        true := by
    decide
  obtain ⟨pool, hRun, hOrder⟩ :=
    (Option.any_eq_true _ _).mp hEval
  have hHistory := retriedPool_run hRun
  exact ⟨pool.history, hHistory, of_decide_eq_true hOrder,
    delivered_stays_delivered concreteRfc3339
      (.memory .empty) pool.history (fun _ => rfl) hHistory
      (of_decide_eq_true hOrder)⟩

end Service

end IcpHandler
