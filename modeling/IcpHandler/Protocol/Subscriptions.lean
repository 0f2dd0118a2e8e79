import IcpHandler.Protocol.Transactions

/-
  The intents on subscriptions follow the rule, and stop in
  one of the known ways.

  Main declarations:
    * `meets_doSubscribe`
    * `meets_doRenew`
    * `meets_doPause`, `meets_doCancelSubscription`
-/

------------------------------------------------------------
-- Reservations and Markers
------------------------------------------------------------

namespace IcpHandler

namespace Protocol

open Model Service Concurrency

section Markers

variable {svc : IcpService}
variable {input : IntentInput}
variable {past : Moves}

/-
  After a reservation: nothing but a spend has happened.
-/
structure Reserved (past : Moves) : Prop where
  settled : pendingCharge past = none
  clean : Spent past ∨ Harmless past
  unordered : ¬ Ordered past

theorem Reserved.of_idle
    (hIdle : Idle past) :
    Reserved past where
  settled := hIdle.pendingCharge
  clean := .inr hIdle.harmless
  unordered := by
    rintro ⟨buyer, currency, items, total, order, hMem⟩
    cases (isIdle_iff.mp (hIdle _ hMem)).2

/- One more move that neither spends nor writes. -/
theorem Reserved.idle
    {move : Move Eff.Res}
    (hReserved : Reserved past)
    (hIdle : move.effect.isIdle = true) :
    Reserved (move :: past) where
  settled := by
    have hAfter : AfterQuiet past (move :: past) :=
      AfterQuiet.refl.cons (isIdle_iff.mp hIdle).1
    rw [hAfter.pendingCharge_eq]
    exact hReserved.settled
  clean := by
    rcases hReserved.clean with hSpent | hHarmless
    · rcases hSpent with
        ⟨jti, tenantId, amount, now, limits, hMem⟩
      exact .inl ⟨jti, tenantId, amount, now, limits,
        List.mem_cons_of_mem _ hMem⟩
    · exact .inr (harmless_cons.mpr
        ⟨harmlessMove_of_isIdle hIdle, hHarmless⟩)
  unordered := by
    rintro ⟨buyer, currency, items, total, order, hMem⟩
    rcases List.mem_cons.mp hMem with hEq | hMem
    · rw [← hEq] at hIdle
      cases hIdle
    · exact hReserved.unordered
        ⟨buyer, currency, items, total, order, hMem⟩

/- A refusal is excused by what was spent, if anything. -/
theorem Reserved.stopped
    {halt : Halt}
    (hReserved : Reserved past)
    (hLate : Spent past → LateFailure svc input past) :
    Stopped svc input halt past :=
  ⟨hReserved.settled, fun _ _ =>
    hReserved.clean.elim (fun hSpent => .inr (hLate hSpent))
      .inl⟩

/-
  A charge that is refused after a reservation. The items had
  a price, so production has no order for it.
-/
theorem Reserved.charge_stopped
    {halt : Halt}
    {items : List RequestItem}
    {currency : String}
    {priced : List LineItem × Totals}
    {later : Moves}
    (hReserved : Reserved past)
    (hPriced :
      priceRequestItems items currency "subscription.items" =
        .ok priced)
    (hAfter : AfterQuiet past later)
    (hHarmless : Harmless past → Harmless later)
    (hRefused :
      ChargeRefused svc items currency past later) :
    Stopped svc input halt later := by
  refine ⟨?_, fun _ _ => ?_⟩
  · rw [hAfter.pendingCharge_eq]
    exact hReserved.settled
  · rcases hReserved.clean with hSpent | hClean
    · right
      rcases hRefused with
        ⟨error, hError⟩ | ⟨hProduction, hNone⟩
      · rw [hPriced] at hError
        cases hError
      · rcases hSpent with
          ⟨jti, tenantId, amount, now, limits, hMem⟩
        exact .order hProduction (hNone hReserved.unordered)
          ⟨jti, tenantId, amount, now, limits,
            hAfter.mem hMem⟩
    · exact .inl (hHarmless hClean)

/- A reservation by an intent, in the terms above. -/
theorem meets_reserve
    {mandate : Option MandateEvaluation}
    {amountMinor : Int64}
    {currency : String}
    {Q : Unit → Moves → Prop}
    {X : Halt → Moves → Prop}
    (hReserved : Reserved past)
    (hHarmless : Harmless past)
    (hDone :
      ∀ later, AfterQuiet past later → Reserved later →
        Q () later)
    (hStop :
      ∀ halt later, AfterQuiet past later →
        Harmless later → X halt later) :
    (reserveMandateSpend mandate input.tenant.tenantId
      amountMinor currency).Meets
      (Rule svc (.intent input)) Q X past := by
  refine meets_reserveMandateSpend ?_ ?_ ?_ ?_ ?_
  · exact fun hPositive _ _ _ _ =>
      ⟨hPositive, input, rfl, rfl⟩
  · exact fun _ => hDone past .refl hReserved
  · intro jti now limits
    have hAfter :
        AfterQuiet past
          (⟨.recordSpend jti input.tenant.tenantId amountMinor
            now limits, .ok ()⟩ :: ⟨.now, now⟩ :: past) :=
      (AfterQuiet.refl.cons rfl).cons rfl
    refine hDone _ hAfter ⟨?_,
      .inl ⟨jti, _, _, now, limits, List.mem_cons_self⟩, ?_⟩
    · rw [hAfter.pendingCharge_eq]
      exact hReserved.settled
    · rintro ⟨buyer, currency, items, total, order, hMem⟩
      simp only [List.mem_cons, Move.mk.injEq] at hMem
      rcases hMem with hMem | hMem | hMem
      · cases hMem.1
      · cases hMem.1
      · exact hReserved.unordered
          ⟨buyer, currency, items, total, order, hMem⟩
  · exact fun _ => hStop _ past .refl hHarmless
  · intro jti now limits error
    refine hStop _ _ ((AfterQuiet.refl.cons rfl).cons rfl) ?_
    exact harmless_cons.mpr ⟨⟨error, rfl⟩,
      harmless_cons.mpr ⟨trivial, hHarmless⟩⟩

/- The placeholder of an intent that charges nothing. -/
theorem meets_subscriptionPseudoTxn
    {op : Op}
    {sub : Subscription}
    {state : TransactionState}
    {Q : Transaction → Moves → Prop}
    {X : Halt → Moves → Prop}
    (hDone :
      ∀ txn later, AfterIdle past later →
        txn.tenantId = input.tenant.tenantId →
        Fresh Eff.touchesTxns "txn_" txn.id later →
        Q txn later) :
    (subscriptionPseudoTxn input sub state).Meets
      (Rule svc op) Q X past := by
  simp only [subscriptionPseudoTxn, Svc.meets_bind]
  refine ⟨trivial, fun now => ⟨trivial, fun token => ?_⟩⟩
  exact hDone _ _ ((AfterIdle.refl.cons rfl).cons rfl) rfl
    ⟨token, rfl, .here⟩

end Markers

end Protocol

end IcpHandler

------------------------------------------------------------
-- Subscribe
------------------------------------------------------------

namespace IcpHandler

namespace Protocol

open Model Service Concurrency

section Subscribe

variable {svc : IcpService}
variable {input : IntentInput}
variable {past : Moves}
variable {mandate : Option MandateEvaluation}
variable {params : SubscribeParams}
variable {id currency : String}
variable {now : DateTime}

theorem meets_enrollTrial
    {priced : List LineItem × Totals}
    {trialDays : UInt32}
    (hReserved : Reserved past)
    (hFresh : Fresh Eff.touchesSubs "sub_" id past)
    (hParams :
      svc.deps.subscribeParams input.envelope.params =
        .ok params)
    (hDays : params.trialDays = some trialDays) :
    (enrollTrial svc input mandate params id currency now
      priced trialDays).Meets (Rule svc (.intent input))
      (fun _ later => pendingCharge later = none)
      (Stopped svc input) past := by
  rw [enrollTrial, Svc.meets_bind, Svc.meets_ensure]
  refine ⟨fun _ => ?_, fun hLong => ?_⟩
  · rw [Svc.meets_bind, Svc.meets_orFail]
    refine ⟨fun trialEnd _ => ?_, fun hNone => ?_⟩
    · rw [Svc.meets_bind]
      refine Svc.meets_act.mpr ⟨⟨input, rfl, rfl, hFresh,
        .inl ⟨hReserved.settled, rfl, rfl⟩⟩, fun _ => ?_⟩
      rw [Svc.meets_bind]
      refine meets_subscriptionPseudoTxn ?_
      intro txn later hLater hTenant hTxn
      rw [Svc.meets_bind]
      refine Svc.meets_act.mpr ⟨⟨input, rfl, hTenant,
        .inl hTxn⟩, fun _ => ?_⟩
      exact hLater.quiet.pendingCharge_eq
    · exact hReserved.stopped fun hSpent =>
        .trial params trialDays hParams hDays
          (.inr ⟨now, hNone⟩) hSpent
  · refine hReserved.stopped fun hSpent =>
      .trial params trialDays hParams hDays (.inl ?_) hSpent
    simpa using hLong

theorem meets_enrollCharged
    {priced : List LineItem × Totals}
    (hReserved : Reserved past)
    (hFresh : Fresh Eff.touchesSubs "sub_" id past)
    (hPriced :
      priceRequestItems params.items currency
        "subscription.items" = .ok priced) :
    (enrollCharged svc input mandate params id currency
      now).Meets (Rule svc (.intent input))
      (fun _ later => pendingCharge later = none)
      (Stopped svc input) past := by
  rw [enrollCharged]
  rw [Svc.meets_bind]
  refine meets_runSubscriptionCharge hReserved.settled ?_ ?_ ?_
  · exact fun later hLater =>
      ⟨rfl, .inl (hLater.freshSub hFresh)⟩
  · intro charge txn later hLater
    rw [Svc.meets_bind]
    refine Svc.meets_act.mpr ⟨⟨input, rfl, rfl,
      (hLater.freshSub hFresh).cons rfl,
      .inr ⟨rfl, rfl, rfl, ?_⟩⟩, fun _ => rfl⟩
    exact lt_periodAdvance _ _ _
  · intro later error hLater hHarmless hRefused
    exact hReserved.charge_stopped hPriced hLater hHarmless
      hRefused

theorem meets_doSubscribe
    (hIdle : Idle past) :
    (doSubscribe svc input mandate).Meets
      (Rule svc (.intent input))
      (fun _ later => pendingCharge later = none)
      (Stopped svc input) past := by
  rw [doSubscribe, Svc.meets_bind, Svc.meets_ofExcept]
  refine ⟨fun params hParams => ?_, fun _ _ => hIdle.stopped⟩
  rw [Svc.meets_bind, Svc.meets_ensure]
  refine ⟨fun _ => ?_, fun _ => hIdle.stopped⟩
  rw [Svc.meets_bind, Svc.meets_ofExcept]
  refine ⟨fun _ _ => ?_, fun _ _ => hIdle.stopped⟩
  rw [Svc.meets_bind]
  refine Svc.meets_act.mpr ⟨trivial, fun now => ?_⟩
  have hNow : Idle (⟨.now, now⟩ :: past : Moves) :=
    AfterIdle.idle (AfterIdle.refl.cons rfl) hIdle
  rw [Svc.meets_bind, Svc.meets_ofExcept]
  refine ⟨fun priced hPriced => ?_, fun _ _ => hNow.stopped⟩
  rw [Svc.meets_bind]
  refine meets_reserve (.of_idle hNow) hNow.harmless ?_ ?_
  · intro reserved _ hReserved
    rw [Svc.meets_bind]
    refine Svc.meets_act.mpr ⟨trivial, fun token => ?_⟩
    have hDrawn :
        Reserved (⟨.uuid, token⟩ :: reserved : Moves) :=
      hReserved.idle rfl
    have hFresh :
        Fresh Eff.touchesSubs "sub_" ("sub_" ++ token)
          (⟨.uuid, token⟩ :: reserved) := ⟨token, rfl, .here⟩
    dsimp only
    split
    · rename_i trialDays hDays
      exact meets_enrollTrial hDrawn hFresh hParams
        (Option.filter_eq_some_iff.mp hDays).1
    · exact meets_enrollCharged hDrawn hFresh
        (priceRequestItems_ok_congr _ hPriced)
  · intro halt later hLater hHarmless
    refine ⟨?_, fun _ _ => .inl hHarmless⟩
    rw [hLater.pendingCharge_eq]
    exact hNow.pendingCharge

end Subscribe

end Protocol

end IcpHandler

------------------------------------------------------------
-- Renew, Pause and Cancel
------------------------------------------------------------

namespace IcpHandler

namespace Protocol

open Model Service Concurrency

section Own

variable {svc : IcpService}
variable {input : IntentInput}
variable {past : Moves}
variable {id : String}

/-
  The caller's own subscription, read under its lock before
  anything was spent.
-/
structure OwnSub
    (input : IntentInput)
    (id : String)
    (sub : Subscription)
    (past : Moves) : Prop where
  owner : sub.tenantId = input.tenant.tenantId
  seen : SeenSub id sub past
  clear : Clear (subLock id) past
  reserved : Reserved past

theorem OwnSub.idle
    {sub : Subscription}
    {move : Move Eff.Res}
    (hOwn : OwnSub input id sub past)
    (hIdle : move.effect.isIdle = true) :
    OwnSub input id sub (move :: past) where
  owner := hOwn.owner
  seen :=
    AfterQuiet.seenSub
      (AfterQuiet.refl.cons (isIdle_iff.mp hIdle).1) hOwn.seen
  clear := hOwn.clear.idle hIdle
  reserved := hOwn.reserved.idle hIdle

/- Lock the subscription, read it, and go on. -/
theorem meets_lockedSub
    {body : Subscription → Svc Outcome}
    (hIdle : Idle past)
    (hBody :
      ∀ sub later, OwnSub input id sub later →
        MeetsHeld svc input (subLock id) (body sub) later) :
    (Svc.withLock (subLock id)
      (subscriptionForInput id input >>= body)).Meets
      (Rule svc (.intent input))
      (fun _ later => pendingCharge later = none)
      (Stopped svc input) past := by
  refine meets_withLock hIdle ?_
  have hLocked :
      Clear (subLock id) (⟨.lock (subLock id), ()⟩ :: past) :=
    .lock hIdle
  have hUnordered :
      ¬ Ordered (⟨.lock (subLock id), ()⟩ :: past) := by
    rintro ⟨buyer, currency, items, total, order, hMem⟩
    simp only [List.mem_cons, Move.mk.injEq] at hMem
    rcases hMem with hMem | hMem
    · cases hMem.1
    · cases (isIdle_iff.mp (hIdle _ hMem)).2
  have hReserved :
      Reserved (⟨.lock (subLock id), ()⟩ :: past) :=
    ⟨hLocked.settled, .inr hLocked.harmless, hUnordered⟩
  rw [Svc.meets_bind]
  refine meets_subscriptionForInput (fun sub hOwner => ?_)
    (fun found _ => (hLocked.idle rfl).stopped)
  exact hBody sub _ ⟨hOwner, .here hLocked.held,
    hLocked.idle rfl, hReserved.idle rfl⟩

/-
  The charge of a renewal and the write that follows it. A
  write that does not land is a panic.
-/
theorem meets_renewCharge
    {sub : Subscription}
    {mandate : Option MandateEvaluation}
    {payment : PaymentInstrument}
    {priced : List LineItem × Totals}
    {now : DateTime}
    (hOwner : sub.tenantId = input.tenant.tenantId)
    (hSeen : SeenSub id sub past)
    (hHeld : Held (subLock id) past)
    (hReserved : Reserved past)
    (hStatus : sub.status ≠ .canceled ∧ sub.status ≠ .paused)
    (hPriced :
      priceRequestItems sub.items sub.currency
        "subscription.items" = .ok priced) :
    MeetsHeld svc input (subLock id)
      (do
        let charge ←
          runSubscriptionCharge svc input sub.buyer sub.shipTo
            sub.items sub.currency ⟨id, sub.currentPeriodEnd⟩
        let found ←
          Svc.act (.subs (.update id
            (.renew sub.currentPeriodEnd
              (periodAdvance svc.deps.calendar
                sub.currentPeriodEnd sub.cadence)
              charge.1.id payment
              (mandate.map (·.payload.jti)) now)))
        let updated ←
          Svc.orPanic
            "subscription existed at the start of renew" found
        pure
          { transaction := charge.1
            order := charge.2
            subscription := some updated }) past := by
  rw [MeetsHeld, Svc.meets_bind]
  refine meets_runSubscriptionCharge hReserved.settled ?_ ?_ ?_
  · exact fun later hLater =>
      ⟨rfl, .inr ⟨sub, hLater.seenSub hSeen, rfl, hStatus⟩⟩
  · intro charge txn later hLater
    have hHeldLater := hHeld.afterQuiet hLater
    rw [Svc.meets_bind]
    refine Svc.meets_act.mpr ⟨?_, fun found => ?_⟩
    · exact ⟨input, sub, rfl, hOwner,
        (hLater.seenSub hSeen).cons ⟨rfl, rfl⟩, hStatus.1,
        hStatus.2, rfl, rfl, rfl⟩
    · rw [Svc.meets_bind, Svc.meets_orPanic]
      refine ⟨fun _ _ => ?_, fun _ => ?_⟩
      · exact ⟨(hHeldLater.cons rfl).cons rfl, rfl⟩
      · refine ⟨(hHeldLater.cons rfl).cons rfl, rfl, ?_⟩
        intro error hHalt
        cases hHalt
  · intro later error hLater hHarmless hRefused
    exact ⟨hHeld.afterQuiet hLater,
      hReserved.charge_stopped hPriced hLater hHarmless
        hRefused⟩

theorem meets_doRenew
    {mandate : Option MandateEvaluation}
    (hIdle : Idle past) :
    (doRenew svc input mandate).Meets (Rule svc (.intent input))
      (fun _ later => pendingCharge later = none)
      (Stopped svc input) past := by
  rw [doRenew, Svc.meets_bind, Svc.meets_ofExcept]
  refine ⟨fun params _ => ?_, fun _ _ => hIdle.stopped⟩
  rw [Svc.meets_bind, Svc.meets_ofExcept]
  refine ⟨fun _ _ => ?_, fun _ _ => hIdle.stopped⟩
  refine meets_lockedSub hIdle fun sub read hRead => ?_
  rw [MeetsHeld, Svc.meets_bind]
  have hRenewable :
      ∀ {Q : Unit → Moves → Prop},
        ((sub.status ≠ .canceled ∧ sub.status ≠ .paused) →
          Q () read) →
        (ensureRenewable sub).Meets (Rule svc (.intent input))
          Q
          (fun halt later =>
            Held (subLock params.subscriptionId) later ∧
              Stopped svc input halt later) read := by
    intro Q hOpen
    unfold ensureRenewable
    split
    · exact hRead.clear.stopped
    · exact hRead.clear.stopped
    · rename_i hNotCanceled hNotPaused
      exact hOpen ⟨hNotCanceled, hNotPaused⟩
  refine hRenewable fun hStatus => ?_
  rw [Svc.meets_bind]
  refine Svc.meets_act.mpr ⟨trivial, fun now => ?_⟩
  have hNow :
      OwnSub input params.subscriptionId sub
        (⟨.now, now⟩ :: read) := hRead.idle rfl
  rw [Svc.meets_bind, Svc.meets_ofExcept]
  refine ⟨fun priced hPriced => ?_,
    fun _ _ => hNow.clear.stopped⟩
  rw [Svc.meets_bind]
  refine meets_reserve hNow.reserved hNow.clear.harmless ?_ ?_
  · intro later hLater hReserved
    exact meets_renewCharge hNow.owner
      (hLater.seenSub hNow.seen)
      (hNow.clear.held.afterQuiet hLater) hReserved hStatus
      hPriced
  · intro halt later hLater hHarmless
    refine ⟨hNow.clear.held.afterQuiet hLater, ?_,
      fun _ _ => .inl hHarmless⟩
    rw [hLater.pendingCharge_eq]
    exact hNow.clear.settled

/-
  The end of a pause or a cancellation: the write, and the
  placeholder transaction.
-/
theorem meets_subMarker
    {patch : SubPatch}
    {message : String}
    (hHeld : Held (subLock id) past)
    (hRule : MayPatchSub svc (.intent input) past id patch) :
    MeetsHeld svc input (subLock id)
      (do
        let found ← Svc.act (.subs (.update id patch))
        let updated ← Svc.orPanic message found
        let txn ← subscriptionPseudoTxn input updated .canceled
        Svc.act (.txns (.insert txn))
        pure
          { transaction := txn, subscription := some updated })
      past := by
  rw [MeetsHeld, Svc.meets_bind]
  refine Svc.meets_act.mpr ⟨hRule, fun found => ?_⟩
  rw [Svc.meets_bind, Svc.meets_orPanic]
  refine ⟨fun updated _ => ?_, fun _ => ?_⟩
  · rw [Svc.meets_bind]
    refine meets_subscriptionPseudoTxn ?_
    intro txn later hLater hTenant hFresh
    rw [Svc.meets_bind]
    refine Svc.meets_act.mpr ⟨⟨input, rfl, hTenant,
      .inl hFresh⟩, fun _ => ⟨?_, ?_⟩⟩
    · exact ((hHeld.cons rfl).afterQuiet hLater.quiet).cons rfl
    · exact hLater.quiet.pendingCharge_eq
  · refine ⟨hHeld.cons rfl, rfl, ?_⟩
    intro error hHalt
    cases hHalt

theorem meets_doPause
    (hIdle : Idle past) :
    (doPause svc input).Meets (Rule svc (.intent input))
      (fun _ later => pendingCharge later = none)
      (Stopped svc input) past := by
  rw [doPause, Svc.meets_bind, Svc.meets_ofExcept]
  refine ⟨fun params _ => ?_, fun _ _ => hIdle.stopped⟩
  refine meets_lockedSub hIdle fun sub later hOwn => ?_
  rw [MeetsHeld, Svc.meets_bind, Svc.meets_ensure]
  refine ⟨fun hStatus => ?_, fun _ => hOwn.clear.stopped⟩
  have hNotCanceled : sub.status ≠ .canceled := by
    intro hCanceled
    rw [hCanceled] at hStatus
    cases hStatus
  rw [Svc.meets_bind]
  refine Svc.meets_act.mpr ⟨trivial, fun now => ?_⟩
  have hNow :
      OwnSub input params.subscriptionId sub
        (⟨.now, now⟩ :: later) := hOwn.idle rfl
  exact meets_subMarker hNow.clear.held
    ⟨input, sub, rfl, hNow.owner, hNow.seen, hNotCanceled,
      hNow.clear.settled⟩

theorem meets_doCancelSubscription
    (hIdle : Idle past) :
    (doCancelSubscription svc input).Meets
      (Rule svc (.intent input))
      (fun _ later => pendingCharge later = none)
      (Stopped svc input) past := by
  rw [doCancelSubscription, Svc.meets_bind,
    Svc.meets_ofExcept]
  refine ⟨fun params _ => ?_, fun _ _ => hIdle.stopped⟩
  refine meets_lockedSub hIdle fun sub later hOwn => ?_
  rw [MeetsHeld, Svc.meets_bind, Svc.meets_ensure]
  refine ⟨fun hStatus => ?_, fun _ => hOwn.clear.stopped⟩
  rw [Svc.meets_bind]
  refine Svc.meets_act.mpr ⟨trivial, fun now => ?_⟩
  have hNow :
      OwnSub input params.subscriptionId sub
        (⟨.now, now⟩ :: later) := hOwn.idle rfl
  exact meets_subMarker hNow.clear.held
    ⟨input, sub, rfl, hNow.owner, hNow.seen,
      by simpa using hStatus, hNow.clear.settled⟩

end Own

end Protocol

end IcpHandler
