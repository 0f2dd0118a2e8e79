import IcpHandler.Properties.SubscriptionStops

/-
  What becomes of a paused subscription. No intent resumes it
  and no pass lists it, so all that is left to it is to be
  canceled.

  Main declarations:
    * `Halted`, `SeenSub.not_halted`
    * `halted_since`
    * `Resumes`, `PassesOver`
    * `paused_for_good`
-/

------------------------------------------------------------
-- Halted Subscriptions
------------------------------------------------------------

namespace IcpHandler

namespace Protocol

open Model Service Concurrency

/- The subscription is stored paused or canceled. -/
def Halted (id : String) (w : World) : Prop :=
  StatusIs id .paused w ∨ StatusIs id .canceled w

theorem Halted.isSome
    {id : String}
    {w : World}
    (hHalted : Halted id w) :
    (w.subscriptions.get id).isSome := by
  rcases hHalted with ⟨row, hRow, -⟩ | ⟨row, hRow, -⟩
  · rw [hRow]
    rfl
  · rw [hRow]
    rfl

theorem Halted.status
    {id : String}
    {w : World}
    {row : Subscription}
    (hHalted : Halted id w)
    (hRow : w.subscriptions.get id = some row) :
    row.status = .paused ∨ row.status = .canceled := by
  rcases hHalted with ⟨found, hFound, hStatus⟩ |
    ⟨found, hFound, hStatus⟩
  · rw [hRow] at hFound
    cases hFound
    exact .inl hStatus
  · rw [hRow] at hFound
    cases hFound
    exact .inr hStatus

theorem Halted.not_active
    {id : String}
    {w : World}
    (hHalted : Halted id w) :
    ¬ StatusIs id .active w := by
  rintro ⟨row, hRow, hStatus⟩
  rcases hHalted.status hRow with hNo | hNo
  · rw [hStatus] at hNo
    cases hNo
  · rw [hStatus] at hNo
    cases hNo

section Halts

variable {svc : IcpService}
variable {ops : Nat → Op}
variable {w : World}
variable {h : History Eff.Res World}
variable {o : Happening}
variable {id : String}

/- What is renewed under the lock is not halted. -/
theorem SeenSub.not_halted
    (hLawful : LawfulRun svc ops w h)
    (hFree : w.locks = [])
    (hNone : w.issued = [])
    {thread : Nat}
    {sub : Subscription}
    (hSeen : SeenSub id sub (own thread h.past))
    (hUncanceled : sub.status ≠ .canceled)
    (hUnpaused : sub.status ≠ .paused) :
    ¬ Halted id h.world := by
  rintro (hPaused | hCanceled)
  · exact hPaused.not
      (SeenSub.unpaused hLawful hFree hNone thread sub hSeen
        hUnpaused)
  · exact hCanceled.not
      (SeenSub.uncanceled hLawful hFree hNone thread sub hSeen
        hUncanceled)

/- A listing names nothing that is halted. -/
theorem not_halted_of_listed
    (hExec : Executes svc.deps.rfc3339 o)
    {now : DateTime}
    {due : List Subscription}
    (hMove : o.move = ⟨.subs (.listDue now), due⟩)
    {sub : Subscription}
    (hSub : sub ∈ due) :
    ¬ Halted sub.id o.before := by
  intro hHalted
  obtain ⟨hRow, hStatus⟩ := hExec.listSubs hMove sub hSub
  rcases hHalted.status hRow with hPaused | hCanceled
  · rw [hPaused] at hStatus
    simp at hStatus
  · rw [hCanceled] at hStatus
    simp at hStatus

/- A halted subscription stays so, if no pass goes on with it. -/
theorem keeps_halted
    (hLawful : LawfulRun svc ops w h)
    (hFree : w.locks = [])
    (hNone : w.issued = [])
    (hExec : Executes svc.deps.rfc3339 o)
    (hBefore : o.before = h.world)
    (hRule :
      Rule svc (ops o.thread) (own o.thread h.past) o.effect)
    (hUnlisted :
      ∀ sub, ListedSub sub (own o.thread h.past) →
        sub.id ≠ id)
    (hHalted : Halted id h.world) :
    Halted id o.after := by
  cases hExec.subChange id with
  | kept hSame =>
      rw [hBefore] at hSame
      rcases hHalted with ⟨row, hRow, hStatus⟩ |
        ⟨row, hRow, hStatus⟩
      · exact .inl ⟨row, hSame.trans hRow, hStatus⟩
      · exact .inr ⟨row, hSame.trans hRow, hStatus⟩
  | inserted new hEffect hId hAfter =>
      rw [hEffect] at hRule
      obtain ⟨row, hRow⟩ :=
        Option.isSome_iff_exists.mp hHalted.isSome
      rw [← hId] at hRow
      exact (hLawful.not_inserted hNone hRule hRow).elim
  | patched patch found hMove hFound hAfter =>
      have hEffect : o.effect = .subs (.update id patch) :=
        congrArg Move.effect hMove
      rw [hEffect] at hRule
      cases patch with
      | renew periodStart periodEnd txnId payment jti now =>
          obtain ⟨input, sub, -, -, hSeen, hUncanceled,
            hUnpaused, -⟩ := hRule
          exact absurd hHalted
            (hSeen.not_halted hLawful hFree hNone hUncanceled
              hUnpaused)
      | pause now => exact .inl ⟨_, hAfter, rfl⟩
      | cancel now => exact .inr ⟨_, hAfter, rfl⟩
      | autoRenew periodStart periodEnd charges txnId now =>
          obtain ⟨tick, sub, -, hListed, hId, -⟩ := hRule
          exact absurd hId (hUnlisted sub hListed)
      | chargeFailed failures most nextAttempt now =>
          obtain ⟨tick, sub, -, hListed, hId, -⟩ := hRule
          exact absurd hId (hUnlisted sub hListed)

/- Nor is it charged. -/
theorem halted_uncharged
    (hLawful : LawfulRun svc ops w h)
    (hFree : w.locks = [])
    (hNone : w.issued = [])
    (hRule :
      Rule svc (ops o.thread) (own o.thread h.past) o.effect)
    (hUnlisted :
      ∀ sub, ListedSub sub (own o.thread h.past) →
        sub.id ≠ id)
    (hHalted : Halted id h.world) :
    chargesSub id o = false := by
  rw [Bool.eq_false_iff]
  intro hCharges
  unfold chargesSub at hCharges
  split at hCharges
  · rename_i txn bills hEffect
    have hId : bills.subscriptionId = id :=
      beq_iff_eq.mp hCharges
    rw [hEffect] at hRule
    have hBill := hRule.bills
    unfold MayBill at hBill
    split at hBill
    · rcases hBill.2 with
        hFresh | ⟨sub, hSeen, -, hUncanceled, hUnpaused⟩
      · have hUnstored :=
          hLawful.unstored_of_fresh hNone o.thread hFresh
        have hSome := hHalted.isSome
        rw [hId] at hUnstored
        rw [hUnstored] at hSome
        cases hSome
      · rw [hId] at hSeen
        exact SeenSub.not_halted hLawful hFree hNone hSeen
          hUncanceled hUnpaused hHalted
    · obtain ⟨sub, hListed, -, rfl⟩ := hBill
      exact hUnlisted sub hListed hId
    · exact hBill
  · cases hCharges

/-
  From a history on in which the subscription is halted, it
  stays so and is not charged, if no pass that has listed it
  before goes on. By strong induction on what has happened
  since: whatever a later pass lists, it lists from a world in
  which the subscription is halted.
-/
theorem halted_since
    {base : History Eff.Res World}
    (hFree : w.locks = [])
    (hNone : w.issued = [])
    (hBase : LawfulRun svc ops w base)
    (hHalted : Halted id base.world)
    {recent : Past}
    (hLawful : LawfulRun svc ops w h)
    (hPast : h.past = recent ++ base.past)
    (hOver :
      ∀ o ∈ recent, ∀ sub,
        ListedSub sub (own o.thread base.past) → sub.id ≠ id) :
    Halted id h.world ∧
      ∀ o ∈ recent, chargesSub id o = false := by
  induction hCount : recent.length using Nat.strong_induction_on
    generalizing h recent with
  | _ count ih =>
    subst hCount
    cases recent with
    | nil =>
        rw [List.nil_append] at hPast
        rw [hLawful.world_of_past hBase hPast]
        exact ⟨hHalted, fun _ hMem => nomatch hMem⟩
    | cons last recent =>
      cases hLawful with
      | start => cases hPast
      | @push earlier o hEarlier hAllows hRule =>
        rw [History.push_past, List.cons_append] at hPast
        obtain ⟨rfl, hEarlierPast⟩ := List.cons.inj hPast
        obtain ⟨hStill, hUncharged⟩ :=
          ih recent.length (Nat.lt_succ_self _) hEarlier
            hEarlierPast (fun other hMem =>
              hOver other (List.mem_cons_of_mem o hMem)) rfl
        have hUnlisted :
            ∀ sub, ListedSub sub (own o.thread earlier.past) →
              sub.id ≠ id := by
          rintro sub ⟨now, due, hDue, hListing⟩ rfl
          obtain ⟨listing, hMem, hThread, hMove⟩ :=
            mem_own_iff.mp hListing
          rw [hEarlierPast] at hMem
          rcases List.mem_append.mp hMem with hNew | hOld
          · obtain ⟨newer, older, rfl⟩ :=
              List.append_of_mem hNew
            rw [List.append_assoc, List.cons_append]
              at hEarlierPast
            obtain ⟨first, hFirst, hFirstPast, hExec, hBefore,
              -⟩ := LawfulRun.cut hEarlier hEarlierPast
            have hShorter :
                older.length <
                  (o :: (newer ++ listing :: older)).length := by
              simp only [List.length_cons, List.length_append]
              omega
            refine not_halted_of_listed hExec hMove hDue ?_
            rw [hBefore]
            refine (ih older.length hShorter hFirst hFirstPast
              (fun other hOlder => hOver other ?_) rfl).1
            simp [hOlder]
          · refine hOver o List.mem_cons_self sub
              ⟨now, due, hDue, ?_⟩ rfl
            exact mem_own_iff.mpr
              ⟨listing, hOld, hThread, hMove⟩
        refine ⟨?_, ?_⟩
        · rw [History.push_world]
          exact keeps_halted hEarlier hFree hNone
            (executes_of_allows hAllows) hAllows.before_eq hRule
            hUnlisted hStill
        · intro other hMem
          rcases List.mem_cons.mp hMem with rfl | hOlder
          · exact halted_uncharged hEarlier hFree hNone hRule
              hUnlisted hStill
          · exact hUncharged other hOlder

end Halts

end Protocol

end IcpHandler

------------------------------------------------------------
-- No Way Back
------------------------------------------------------------

namespace IcpHandler

namespace Protocol

open Model Service Concurrency

/-
  From the state that a schedule has led to, operations that
  are yet to be sent can make the subscription active and
  charge for it.
-/
def Resumes
    (svc : IcpService)
    (ops : Nat → Op)
    (w : World)
    (schedule : List (Nat × Choice))
    (pool : Pool Eff.Res World OpResult)
    (id : String) : Prop :=
  ∃ ops' later pool',
    (∀ entry ∈ schedule, ops' entry.1 = ops entry.1) ∧
    runOf svc ops' w (schedule ++ later) = some pool' ∧
    StatusIs id .active pool'.history.world ∧
    ∃ recent,
      pool'.history.past = recent ++ pool.history.past ∧
        ∃ o ∈ recent, chargesSub id o = true

/- Every pass that has listed the subscription is over. -/
def PassesOver
    (pool : Pool Eff.Res World OpResult)
    (id : String) : Prop :=
  ∀ thread sub,
    ListedSub sub (own thread pool.history.past) →
      sub.id = id →
        ∃ result, pool.threads thread = .ret result

section Resumption

variable {svc : IcpService}
variable {ops ops' : Nat → Op}
variable {w : World}
variable {schedule later : List (Nat × Choice)}
variable {pool pool' : Pool Eff.Res World OpResult}
variable {id : String}

/-
  Whatever is sent after it was paused, the subscription stays
  halted, and nothing is charged for it.
-/
theorem halted_from_now_on
    (hFree : w.locks = [])
    (hNone : w.issued = [])
    (hRun : runOf svc ops w schedule = some pool)
    (hOver : PassesOver pool id)
    (hHalted : Halted id pool.history.world)
    (hAgree : ∀ entry ∈ schedule, ops' entry.1 = ops entry.1)
    (hLater :
      runOf svc ops' w (schedule ++ later) = some pool') :
    Halted id pool'.history.world ∧
      ∀ recent,
        pool'.history.past = recent ++ pool.history.past →
          ∀ o ∈ recent, chargesSub id o = false := by
  let scheduled : Nat → Prop :=
    fun thread => ∃ entry ∈ schedule, entry.1 = thread
  have hStart :
      (poolOf svc ops' w).history = (poolOf svc ops w).history :=
    rfl
  have hThreads :
      ∀ thread, scheduled thread →
        (poolOf svc ops' w).threads thread =
          (poolOf svc ops w).threads thread := by
    rintro thread ⟨entry, hEntry, rfl⟩
    have hOp := hAgree entry hEntry
    change (ops' entry.1).prog svc = (ops entry.1).prog svc
    rw [hOp]
  obtain ⟨between, hBetween, hHistory, hSame⟩ :=
    Pool.run_agree scheduled
      (fun entry hEntry => ⟨entry, hEntry, rfl⟩) hStart hThreads
      hRun
  have hBase : Reaches svc ops' w between := ⟨schedule, hBetween⟩
  have hLawful' : Reaches svc ops' w pool' := ⟨_, hLater⟩
  rw [runOf, Pool.run_append, hBetween, Option.bind_some]
    at hLater
  obtain ⟨added, hAdded⟩ := Pool.run_past hLater
  rw [← hHistory] at hHalted
  have hSince := halted_since hFree hNone hBase.lawful hHalted
    hLawful'.lawful hAdded ?_
  · refine ⟨hSince.1, ?_⟩
    intro recent hRecent
    rw [hAdded, hHistory] at hRecent
    rw [← List.append_cancel_right hRecent]
    exact hSince.2
  -- A pass that is over does nothing more.
  intro o hMem sub hListed hId
  rw [hHistory] at hListed
  obtain ⟨result, hReturned⟩ := hOver o.thread sub hListed hId
  obtain ⟨now, due, -, hListing⟩ := hListed
  obtain ⟨listing, hOlder, hThread, -⟩ :=
    mem_own_iff.mp hListing
  obtain ⟨moves, hMoves, hMovers⟩ := Pool.run_movers hRun
  rw [hMoves, show (poolOf svc ops w).history.past = [] from rfl,
    List.append_nil] at hOlder
  obtain ⟨entry, hEntry, hMover⟩ := hMovers listing hOlder
  have hStill :=
    (hSame o.thread ⟨entry, hEntry, hMover.trans hThread⟩).trans
      hReturned
  obtain ⟨others, hOthers, hNot⟩ :=
    Pool.run_returned hLater hStill
  rw [hAdded] at hOthers
  rw [← List.append_cancel_right hOthers] at hNot
  exact hNot o hMem rfl

end Resumption

/-
  A subscription that is paused is not resumed by anything
  that can be sent: it is never active again and never
  charged, and what can happen to it is a cancellation. Only
  a pass that has listed it before the pause is left out.
-/
theorem paused_for_good
    (svc : IcpService)
    (ops : Nat → Op)
    (w : World)
    (hFree : w.locks = [])
    (hNone : w.issued = [])
    (schedule : List (Nat × Choice))
    (pool : Pool Eff.Res World OpResult)
    (hRun : runOf svc ops w schedule = some pool)
    (id : String)
    (hPaused : StatusIs id .paused pool.history.world)
    (hOver : PassesOver pool id) :
    ¬ Resumes svc ops w schedule pool id ∧
      ∀ ops' later pool',
        (∀ entry ∈ schedule, ops' entry.1 = ops entry.1) →
        runOf svc ops' w (schedule ++ later) = some pool' →
          Halted id pool'.history.world ∧
            ∀ recent,
              pool'.history.past =
                  recent ++ pool.history.past →
                ∀ o ∈ recent, chargesSub id o = false := by
  refine ⟨?_, fun ops' later pool' hAgree hLater =>
    halted_from_now_on hFree hNone hRun hOver (.inl hPaused)
      hAgree hLater⟩
  rintro ⟨ops', later, pool', hAgree, hLater, hActive, -⟩
  have hHalted :=
    (halted_from_now_on hFree hNone hRun hOver (.inl hPaused)
      hAgree hLater).1
  exact hHalted.not_active hActive

/- A weekly subscription, and its pause. -/
private def pausingOps : Nat → Op
  | 0 =>
      .intent
        (sampleInput .subscribe
          [sampleItems 1, ("cadence", .str "weekly"),
            samplePayment] none)
  | _ =>
      .intent
        (sampleInput .pause
          [("subscription_id", .str "sub_a")] none)

/- Both of them from their first effect to their last. -/
private def pausingSchedule : List (Nat × Choice) :=
  [(0, {}), (0, { token := "a" }), (0, {}),
    (0, { token := "b" }), (0, {}), (0, {}), (0, {}),
    (0, { token := "c" }), (0, {}), (0, { token := "d" }),
    (0, {}), (0, {}), (0, { token := "e" }), (0, {}), (0, {}),
    (0, {}), (0, {}),
    (1, {}), (1, {}), (1, {}), (1, {}), (1, {}),
    (1, { token := "f" }), (1, {}), (1, {}), (1, {}),
    (1, { token := "g" }), (1, {}), (1, { token := "h" }),
    (1, {}), (1, {}), (1, { token := "i" }), (1, {}), (1, {}),
    (1, {}), (1, {})]

/- The subscription is paused and nothing has been listed. -/
private def restsPaused
    (pool : Pool Eff.Res World OpResult) : Bool :=
  ((pool.history.world.subscriptions.get "sub_a").any
      (·.status == .paused)) &&
    pool.history.past.all fun o => !listsSubs o.effect

private theorem pausing_run :
    ∃ pool,
      runOf concreteService pausingOps (.fresh (.memory ∅) [])
          pausingSchedule = some pool ∧
        StatusIs "sub_a" .paused pool.history.world ∧
        PassesOver pool "sub_a" := by
  have hRun :
      ((runOf concreteService pausingOps (.fresh (.memory ∅) [])
        pausingSchedule).any restsPaused) = true := by
    decide
  obtain ⟨pool, hPool, hRests⟩ :=
    (Option.any_eq_true _ _).mp hRun
  rw [restsPaused, Bool.and_eq_true, Option.any_eq_true]
    at hRests
  obtain ⟨⟨row, hRow, hStatus⟩, hUnlisted⟩ := hRests
  refine ⟨pool, hPool, ⟨row, hRow, beq_iff_eq.mp hStatus⟩, ?_⟩
  rintro thread sub ⟨now, due, -, hListing⟩ -
  obtain ⟨listing, hMem, -, hMove⟩ := mem_own_iff.mp hListing
  have hEffect : listing.effect = .subs (.listDue now) :=
    congrArg Move.effect hMove
  have hNo := List.all_eq_true.mp hUnlisted listing hMem
  rw [hEffect] at hNo
  cases hNo

/- The weekly subscription does not come back. -/
theorem pause_not_reversible :
    ¬ ∀ svc ops w schedule pool id,
      w.locks = [] → w.issued = [] →
      runOf svc ops w schedule = some pool →
      StatusIs id .paused pool.history.world →
      Resumes svc ops w schedule pool id := by
  intro hAll
  obtain ⟨pool, hRun, hPaused, hOver⟩ := pausing_run
  obtain ⟨ops', later, pool', hAgree, hLater, hActive, -⟩ :=
    hAll concreteService pausingOps _ pausingSchedule pool
      "sub_a" rfl rfl hRun hPaused
  have hHalted :=
    (halted_from_now_on rfl rfl hRun hOver (.inl hPaused)
      hAgree hLater).1
  exact hHalted.not_active hActive

theorem paused_for_good_sample :
    ∃ pool,
      runOf concreteService pausingOps (.fresh (.memory ∅) [])
          pausingSchedule = some pool ∧
        ¬ Resumes concreteService pausingOps
          (.fresh (.memory ∅) []) pausingSchedule pool
          "sub_a" := by
  obtain ⟨pool, hRun, hPaused, hOver⟩ := pausing_run
  exact ⟨pool, hRun,
    (paused_for_good concreteService pausingOps
      (.fresh (.memory ∅) []) rfl rfl pausingSchedule pool hRun
      "sub_a" hPaused hOver).1⟩

end Protocol

end IcpHandler
