import IcpHandler.Model.Concrete
import IcpHandler.Protocol.SubscriptionRuns

/-
  What every stored subscription looks like, and how its
  billing period moves: only a charge opens the next period,
  and it starts where the last one ended.

  Main declarations:
    * `WellKept`
    * `Turned.wellKept`
    * `PeriodTurn`, `Turned.period`
    * `subscription_rows_well_kept`
-/

------------------------------------------------------------
-- Well-Kept Rows
------------------------------------------------------------

namespace IcpHandler

namespace Protocol

open Model Service Concurrency

/- The dates and counters of a row agree with its status. -/
structure WellKept (sub : Subscription) : Prop where
  period : sub.currentPeriodStart < sub.currentPeriodEnd
  due :
    sub.status = .active → sub.failedRenewalAttempts = 0 →
      sub.nextChargeAt = sub.currentPeriodEnd
  trial :
    sub.status = .trialing →
      sub.chargesCompleted = 0 ∧
        sub.lastTransactionId = none ∧
        sub.trialEnd = some sub.currentPeriodEnd
  billed :
    sub.status ≠ .trialing →
      (sub.lastTransactionId.isSome ↔ 0 < sub.chargesCompleted)

section Rows

variable {svc : IcpService} {lost : Prop}
variable {sub : Subscription} {charge : Transaction}
variable {now : DateTime}

/- A row whose charge is on it, and that is not in trial. -/
theorem WellKept.of_charged
    (hPeriod : sub.currentPeriodStart < sub.currentPeriodEnd)
    (hNext : sub.nextChargeAt = sub.currentPeriodEnd)
    (hCharged : 0 < sub.chargesCompleted)
    (hLast : sub.lastTransactionId.isSome)
    (hStatus : sub.status ≠ .trialing) :
    WellKept sub where
  period := hPeriod
  due := fun _ _ => hNext
  trial := fun hTrial => absurd hTrial hStatus
  billed := fun _ => iff_of_true hLast hCharged

/- The row is well kept from the first. -/
theorem Enrolled.wellKept
    {input : IntentInput}
    {mandate : Option MandateEvaluation}
    {id : String}
    {before charges : List Transaction}
    (hEnrolled :
      Enrolled svc lost input mandate id before charges sub) :
    WellKept sub := by
  cases hEnrolled with
  | trial params currency now trialEnd hLater hCharges =>
      constructor
      · exact hLater
      · exact fun _ _ => rfl
      · exact fun _ => ⟨rfl, rfl, rfl⟩
      · exact fun hStatus => absurd rfl hStatus
  | charged params currency now charge hPrice hCharges =>
      refine .of_charged (lt_periodAdvance _ _ _) rfl ?_ rfl ?_
      · change (0 : UInt32) < 1
        decide
      · exact SubscriptionStatus.noConfusion

theorem wellKept_renewPatch
    (payment : PaymentInstrument)
    (mandate : Option MandateEvaluation) :
    WellKept
      ((renewPatch svc sub charge payment mandate now).apply
        sub) := by
  refine .of_charged (lt_periodAdvance _ _ _) rfl ?_ rfl ?_
  · exact Saturating.satAdd32_one_pos _
  · exact SubscriptionStatus.noConfusion

theorem wellKept_renewedPatch :
    WellKept ((renewedPatch svc sub charge now).apply sub) := by
  refine .of_charged (lt_periodAdvance _ _ _) rfl ?_ rfl ?_
  · exact Saturating.satAdd32_one_pos _
  · change (if sub.status = .trialing then
      SubscriptionStatus.active else sub.status) ≠ .trialing
    split
    · exact SubscriptionStatus.noConfusion
    · assumption

/- No charge and no last transaction, or both. -/
theorem WellKept.charged_iff (hKept : WellKept sub) :
    sub.lastTransactionId.isSome ↔ 0 < sub.chargesCompleted := by
  by_cases hTrial : sub.status = .trialing
  · obtain ⟨hNone, hLast, -⟩ := hKept.trial hTrial
    rw [hNone, hLast]
    decide
  · exact hKept.billed hTrial

/- A failure is counted, so the next charge may be later. -/
theorem WellKept.failedPatch (hKept : WellKept sub) :
    WellKept ((failedPatch svc sub now).apply sub) where
  period := hKept.period
  due := by
    intro _ hNone
    have hCounted :=
      Saturating.satAdd32_one_pos sub.failedRenewalAttempts
    exact absurd hNone (UInt32.ne_of_lt hCounted).symm
  trial := by
    intro hStatus
    refine hKept.trial ?_
    simp only [Protocol.failedPatch, SubPatch.apply] at hStatus
    split at hStatus
    · cases hStatus
    · exact hStatus
  billed := fun _ => hKept.charged_iff

/- A mark leaves dates and counters alone. -/
theorem WellKept.paused (hKept : WellKept sub) :
    WellKept ((SubPatch.pause now).apply sub) where
  period := hKept.period
  due := fun hStatus => SubscriptionStatus.noConfusion hStatus
  trial := fun hStatus => SubscriptionStatus.noConfusion hStatus
  billed := fun _ => hKept.charged_iff

theorem WellKept.canceled (hKept : WellKept sub) :
    WellKept ((SubPatch.cancel now).apply sub) where
  period := hKept.period
  due := fun hStatus => SubscriptionStatus.noConfusion hStatus
  trial := fun hStatus => SubscriptionStatus.noConfusion hStatus
  billed := fun _ => hKept.charged_iff

end Rows

end Protocol

end IcpHandler

------------------------------------------------------------
-- Turns of the Period
------------------------------------------------------------

namespace IcpHandler

namespace Protocol

open Model Service Concurrency

/- A renewal of the subscription, or a tick. -/
def Bills
    (svc : IcpService)
    (id : String) : Op → Prop
  | .intent input =>
      Intent.parse input.envelope.intent = .ok .renew ∧
        ∃ params,
          svc.deps.renewParams input.envelope.params =
              .ok params ∧
            params.subscriptionId = id
  | .tickSubscriptions _ => True
  | .tickExpiries _ => False

/-
  What an operation makes of a stored row and of the charges
  completed for it. It is charged and its next period starts
  where the last one ended, or neither, unless the database
  has failed in between.
-/
inductive PeriodTurn
    (svc : IcpService)
    (lost : Prop)
    (op : Op)
    (sub next : Subscription)
    (before after : List Transaction) : Prop where
  | kept
      (hStart :
        next.currentPeriodStart = sub.currentPeriodStart)
      (hEnd : next.currentPeriodEnd = sub.currentPeriodEnd)
      (hCharges : after = before ∨ lost)
  | opened
      (hBills : Bills svc sub.id op)
      (hStart : next.currentPeriodStart = sub.currentPeriodEnd)
      (hEnd :
        next.currentPeriodEnd =
          periodAdvance svc.deps.calendar sub.currentPeriodEnd
            sub.cadence)
      (hCharges : (∃ txn, after = txn :: before) ∨ lost)

section Turns

variable {svc : IcpService} {lost : Prop}
variable {op : Op} {result : OpResult}
variable {sub : Subscription}
variable {before after : SubBooks}

/- A row that is kept as it was is one kind of turn. -/
theorem PeriodTurn.same
    (hCharges : after.charges = before.charges ∨ lost) :
    PeriodTurn svc lost op sub sub before.charges
      after.charges :=
  .kept rfl rfl hCharges

/- A due row that a tick has billed. -/
theorem Billed.turn
    {now : DateTime}
    {failing : Prop}
    (hBilled : Billed svc lost now sub failing before after)
    (hRow : before.row = some sub)
    (hKept : WellKept sub) :
    ∃ next, after.row = some next ∧ WellKept next ∧
      PeriodTurn svc lost (.tickSubscriptions now) sub next
        before.charges after.charges := by
  cases hBilled with
  | charged txn charges hPrice hCharges hPatched =>
      rcases hPatched with rfl | ⟨hLost, rfl⟩
      · refine ⟨_, congrArg (Option.map _) hRow,
          wellKept_renewedPatch, .opened trivial rfl rfl ?_⟩
        exact hCharges.symm.imp_left fun hSame => ⟨txn, hSame⟩
      · exact ⟨sub, hRow, hKept, .kept rfl rfl (.inr hLost)⟩
  | failed hFailing hPatched =>
      rcases hPatched with rfl | ⟨hLost, rfl⟩
      · exact ⟨_, congrArg (Option.map _) hRow,
          hKept.failedPatch, .kept rfl rfl (.inl rfl)⟩
      · exact ⟨sub, hRow, hKept, .same (.inl rfl)⟩

/- A mark on a stored row. -/
theorem MarkDone.turn
    {mark : DateTime → SubPatch}
    (hDone : MarkDone mark before after)
    (hRow : before.row = some sub)
    (hKept : WellKept sub)
    (hMark :
      ∀ now, WellKept ((mark now).apply sub) ∧
        ((mark now).apply sub).currentPeriodStart =
            sub.currentPeriodStart ∧
          ((mark now).apply sub).currentPeriodEnd =
            sub.currentPeriodEnd) :
    ∃ next, after.row = some next ∧ WellKept next ∧
      PeriodTurn svc lost op sub next before.charges
        after.charges := by
  cases hDone with
  | other => exact ⟨sub, hRow, hKept, .same (.inl rfl)⟩
  | marked row now hFound =>
      rw [hRow] at hFound
      cases hFound
      obtain ⟨hMarked, hStart, hEnd⟩ := hMark now
      exact ⟨_, rfl, hMarked, .kept hStart hEnd (.inl rfl)⟩

/- What an intent that is carried out makes of a stored row. -/
theorem Carried.turn
    {input : IntentInput}
    {intent : Intent}
    {mandate : Option MandateEvaluation}
    (hCarried :
      Carried svc lost input mandate sub.id before after intent)
    (hIntent : Intent.parse input.envelope.intent = .ok intent)
    (hRow : before.row = some sub)
    (hKept : WellKept sub) :
    ∃ next, after.row = some next ∧ WellKept next ∧
      PeriodTurn svc lost (.intent input) sub next
        before.charges after.charges := by
  have hReserved :
      ∀ {amount books},
        Reserves svc.deps.rfc3339 mandate amount before books →
          ∃ next, books.row = some next ∧ WellKept next ∧
            PeriodTurn svc lost (.intent input) sub next
              before.charges books.charges := by
    rintro amount books ⟨ledger, -, rfl⟩
    exact ⟨sub, hRow, hKept, .kept rfl rfl (.inl rfl)⟩
  cases intent with
  | subscribe =>
      cases hCarried with
      | other amount books hReserves => exact hReserved hReserves
      | own row stored charges ledger hFree =>
          rw [hRow] at hFree
          cases hFree
  | renew =>
      cases hCarried with
      | other params hParams hOther amount books hReserves =>
          exact hReserved hReserves
      | own params hParams hOwn row charge charges ledger payment
          now hFound hUncanceled hUnpaused hSpends hPrice
          hCharges =>
          rw [hRow] at hFound
          cases hFound
          refine ⟨_, rfl, wellKept_renewPatch payment mandate,
            .opened ⟨hIntent, params, hParams, hOwn⟩ rfl rfl ?_⟩
          exact hCharges.symm.imp_left fun hSame =>
            ⟨charge, hSame⟩
  | pause =>
      exact MarkDone.turn hCarried hRow hKept fun _ =>
        ⟨hKept.paused, rfl, rfl⟩
  | cancelSubscription =>
      exact MarkDone.turn hCarried hRow hKept fun _ =>
        ⟨hKept.canceled, rfl, rfl⟩
  | _ => cases hCarried

/- What an operation makes of a stored row in its turn. -/
theorem Turned.turn
    (hTurned : Turned svc lost sub.id before after op result)
    (hRow : before.row = some sub)
    (hKept : WellKept sub) :
    ∃ next, after.row = some next ∧ WellKept next ∧
      PeriodTurn svc lost op sub next before.charges
        after.charges := by
  cases hTurned with
  | refused input halt hUnbilled =>
      obtain ⟨hSame, hCharges⟩ := hUnbilled
      exact ⟨sub, hSame.trans hRow, hKept, .same hCharges⟩
  | carried input intent mandate result hIntent hCarried =>
      exact hCarried.turn hIntent hRow hKept
  | ticked now report hTicked =>
      cases hTicked with
      | idle hIdle hSame =>
          subst hSame
          exact ⟨sub, hRow, hKept, .same (.inl rfl)⟩
      | billed due hDueRow hDue hBilled =>
          rw [hRow] at hDueRow
          cases hDueRow
          exact hBilled.turn hRow hKept
  | brokenOff now halt hBroken =>
      rcases hBroken with rfl | ⟨due, hDueRow, -, hBilled⟩
      · exact ⟨sub, hRow, hKept, .same (.inl rfl)⟩
      · rw [hRow] at hDueRow
        cases hDueRow
        exact hBilled.turn hRow hKept

/- A row that was not there is a new subscription. -/
theorem Turned.fresh
    {id : String}
    (hTurned : Turned svc lost id before after op result)
    (hNone : before.row = none)
    (hRow : after.row = some sub) :
    WellKept sub := by
  have hSame : after.row = before.row → WellKept sub := by
    intro hSame
    rw [hSame, hNone] at hRow
    cases hRow
  have hReserved :
      ∀ {mandate amount},
        Reserves svc.deps.rfc3339 mandate amount before after →
          WellKept sub := by
    rintro mandate amount ⟨ledger, -, rfl⟩
    exact hSame rfl
  cases hTurned with
  | refused input halt hUnbilled => exact hSame hUnbilled.1
  | carried input intent mandate result hIntent hCarried =>
      cases intent with
      | subscribe =>
          cases hCarried with
          | other amount books hReserves =>
              exact hReserved hReserves
          | own row stored charges ledger hFree hSpends hEnrolled
              hStored =>
              rcases hStored with rfl | ⟨-, rfl⟩
              · cases hRow
                exact hEnrolled.wellKept
              · cases hRow
      | renew =>
          cases hCarried with
          | other params hParams hOther amount books hReserves =>
              exact hReserved hReserves
          | own params hParams hOwn row charge charges ledger
              payment now hFound =>
              rw [hNone] at hFound
              cases hFound
      | pause =>
          cases hCarried with
          | other => exact hSame rfl
          | marked row now hFound =>
              rw [hNone] at hFound
              cases hFound
      | cancelSubscription =>
          cases hCarried with
          | other => exact hSame rfl
          | marked row now hFound =>
              rw [hNone] at hFound
              cases hFound
      | _ => cases hCarried
  | ticked now report hTicked =>
      cases hTicked with
      | idle hIdle hBooks => exact hSame (congrArg _ hBooks)
      | billed due hDueRow hDue hBilled =>
          rw [hNone] at hDueRow
          cases hDueRow
  | brokenOff now halt hBroken =>
      rcases hBroken with hBooks | ⟨due, hDueRow, -, hBilled⟩
      · exact hSame (congrArg _ hBooks)
      · rw [hNone] at hDueRow
        cases hDueRow

end Turns

section Runs

variable {svc : IcpService} {choices : Nat → List Choice}
variable {ops : Nat → Op}

/- One turn of a run keeps every row well. -/
theorem wellKept_turn
    {h later : Log}
    {n : Nat}
    {result : OpResult}
    {rest : List Choice}
    (hOps : ∀ n, OnSubs (ops n))
    (hEval :
      ((ops n).prog svc).eval (machine svc.deps.rfc3339) n
        (choices n) h = some (result, later, rest))
    (hKept :
      ∀ id sub, h.world.subscriptions.get id = some sub →
        WellKept sub) :
    ∀ id sub, later.world.subscriptions.get id = some sub →
      WellKept sub := by
  intro id sub hRow
  have hTurned := turned id (hOps n) hEval
  cases hBefore : h.world.subscriptions.get id with
  | none => exact hTurned.fresh hBefore hRow
  | some old =>
      have hId : old.id = id := Data.KeyedStore.key_of_get hBefore
      subst hId
      obtain ⟨next, hNext, hWell, -⟩ :=
        hTurned.turn hBefore (hKept _ old hBefore)
      have hSame : some sub = some next := hRow.symm.trans hNext
      cases hSame
      exact hWell

/-
  In a run of intents and ticks on subscriptions, one after
  the other, every stored row is well kept after each of them,
  and the next one moves a period only with a charge.
-/
theorem subscription_rows_well_kept
    (svc : IcpService)
    (ops : Nat → Op)
    (choices : Nat → List Choice)
    (w : World)
    (hOps : ∀ n, OnSubs (ops n))
    (hStart :
      ∀ id sub, w.subscriptions.get id = some sub →
        WellKept sub)
    (n : Nat)
    (h : Log)
    (hTurns : runInTurn svc ops choices w n = some h) :
    (∀ id sub, h.world.subscriptions.get id = some sub →
      WellKept sub) ∧
    ∀ result later rest,
      ((ops n).prog svc).eval (machine svc.deps.rfc3339) n
          (choices n) h = some (result, later, rest) →
      ∀ id sub, h.world.subscriptions.get id = some sub →
        ∃ next,
          later.world.subscriptions.get id = some next ∧
          PeriodTurn svc (Faulty (choices n)) (ops n) sub next
            (completedCharges id h.past)
            (completedCharges id later.past) := by
  have hKept :
      ∀ id sub, h.world.subscriptions.get id = some sub →
        WellKept sub :=
    turns_induct hTurns hStart
      fun _ _ _ _ _ _ _ hEval hBefore =>
        wellKept_turn hOps hEval hBefore
  refine ⟨hKept, fun result later rest hEval id sub hRow => ?_⟩
  have hId : sub.id = id := Data.KeyedStore.key_of_get hRow
  subst hId
  obtain ⟨next, hNext, -, hPeriod⟩ :=
    (turned sub.id (hOps n) hEval).turn hRow (hKept _ sub hRow)
  exact ⟨next, hNext, hPeriod⟩

end Runs

/- A weekly trial that is renewed, then ticks. -/
private def renewedTrialOps : Nat → Op
  | 0 =>
      .intent
        (sampleInput .subscribe
          [sampleItems 1, ("cadence", .str "weekly"),
            ("trial_days", .int 7), samplePayment] none)
  | 1 =>
      .intent
        (sampleInput .renew
          [("subscription_id", .str "sub_b"), samplePayment]
          none)
  | _ => .tickSubscriptions (Duration.days 14)

/- The tick lists the subscription. -/
private def renewedTrialChoices : Nat → List Choice
  | 2 => { order := ["sub_b"] } :: sampleChoices 2
  | n => sampleChoices n

theorem subscription_rows_well_kept_sample :
    ∃ h,
      runInTurn concreteService renewedTrialOps
          renewedTrialChoices (.fresh (.memory ∅) []) 3 =
            some h ∧
        ∃ row, h.world.subscriptions.get "sub_b" = some row ∧
          row.chargesCompleted = 2 ∧ WellKept row := by
  have hRun :
      ((runInTurn concreteService renewedTrialOps
        renewedTrialChoices (.fresh (.memory ∅) []) 3).any fun h =>
          (h.world.subscriptions.get "sub_b").any
            (·.chargesCompleted == 2)) = true := by
    decide +kernel
  obtain ⟨h, hTurns, hChecks⟩ :=
    (Option.any_eq_true _ _).mp hRun
  obtain ⟨row, hRow, hCharges⟩ :=
    (Option.any_eq_true _ _).mp hChecks
  refine ⟨h, hTurns, row, hRow, beq_iff_eq.mp hCharges, ?_⟩
  refine (subscription_rows_well_kept concreteService
    renewedTrialOps renewedTrialChoices
    (.fresh (.memory ∅) []) ?_ ?_ 3 h hTurns).1 "sub_b" row hRow
  · intro n
    match n with
    | 0 =>
        intro intent hIntent
        cases hIntent
        rfl
    | 1 =>
        intro intent hIntent
        cases hIntent
        rfl
    | _ + 2 => trivial
  · intro id sub hNone
    cases hNone

end Protocol

end IcpHandler
