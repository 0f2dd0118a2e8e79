import IcpHandler.Protocol.SubscriptionTurns

/-
  Subscription intents that run alone: what a subscribe, a
  renew, a pause and a cancel make of the books of one
  subscription, however they end.

  Main declarations:
    * `SpendsOn`, `does_reserve`
    * `RenewDone`, `does_doRenew`
    * `SubscribeDone`, `does_doSubscribe`
    * `MarkDone`, `does_doPause`, `does_doCancelSubscription`
-/

------------------------------------------------------------
-- Reservations
------------------------------------------------------------

namespace IcpHandler

namespace Protocol

open Model Service Concurrency

/-
  The ledger is as it was, or the amount was put to it once
  under the mandate.
-/
def SpendsOn
    (rfc3339 : Rfc3339)
    (mandate : Option MandateEvaluation)
    (amountMinor : Int64)
    (before after : MandateLedger) : Prop :=
  after = before ∨
    ∃ ev fault tenantId now limits result,
      mandate = some ev ∧
        before.tryRecordSpendChecked rfc3339 fault
            ev.payload.jti tenantId amountMinor now limits =
          (result, after)

/-
  The row is as it was, and so are the charges, unless the
  database has failed.
-/
def Unbilled
    (lost : Prop)
    (before after : SubBooks) : Prop :=
  after.row = before.row ∧
    (after.charges = before.charges ∨ lost)

/- A reservation only moves the ledger of the books. -/
def Reserves
    (rfc3339 : Rfc3339)
    (mandate : Option MandateEvaluation)
    (amountMinor : Int64)
    (before after : SubBooks) : Prop :=
  ∃ ledger, SpendsOn rfc3339 mandate amountMinor before.ledger
      ledger ∧
    after = { before with ledger := ledger }

section Reservations

variable {rfc3339 : Rfc3339} {fits : Choice → Prop}
variable {thread : Nat} {id : String}
variable {h : Log} {before : SubBooks}
variable {mandate : Option MandateEvaluation}
variable {tenantId currency : String} {amountMinor : Int64}

theorem Reserves.none :
    Reserves rfc3339 mandate amountMinor before before :=
  ⟨before.ledger, .inl rfl, rfl⟩

/- What a spend makes of the books. -/
theorem reserves_push
    {jti : String}
    {now : DateTime}
    {limits : MandateSpendLimits}
    {result : Except ApiError Unit}
    {after : World}
    {ev : MandateEvaluation}
    (hMandate : mandate = some ev)
    (hJti : ev.payload.jti = jti)
    (hBooks : booksOf id h = before)
    (hMakes :
      (machine rfc3339).Makes fits h
        ⟨thread, .recordSpend jti tenantId amountMinor now
          limits, result, h.world, after⟩) :
    Reserves rfc3339 mandate amountMinor before
      (booksOf id (h.push
        ⟨thread, .recordSpend jti tenantId amountMinor now
          limits, result, h.world, after⟩)) := by
  subst hBooks
  subst hJti
  obtain ⟨-, choice, -, hExec⟩ := hMakes
  cases hExec
  exact ⟨_, .inr ⟨ev, choice.fault, tenantId, now, limits, _,
    hMandate, rfl⟩, rfl⟩

theorem does_reserve
    (hBooks : booksOf id h = before)
    {Q : Unit → Log → Prop}
    {X : Halt → Log → Prop}
    (hHalt :
      ∀ halt later,
        Reserves rfc3339 mandate amountMinor before
          (booksOf id later) →
        X halt later)
    (hNext :
      ∀ later,
        Reserves rfc3339 mandate amountMinor before
          (booksOf id later) →
        Q () later) :
    (reserveMandateSpend mandate tenantId amountMinor
      currency).Does rfc3339 fits thread Q X h := by
  have hNone :
      ∀ later, booksOf id later = before →
        Reserves rfc3339 mandate amountMinor before
          (booksOf id later) := by
    intro later hSame
    rw [hSame]
    exact .none
  cases mandate with
  | none => exact hNext h (hNone h hBooks)
  | some ev =>
      unfold reserveMandateSpend
      dsimp only
      split
      · exact hNext h (hNone h hBooks)
      · rw [Svc.does_bind, Svc.does_ensure]
        refine ⟨fun _ => ?_, fun _ =>
          hHalt _ _ (hNone h hBooks)⟩
        split
        · rw [Svc.does_bind, Svc.does_pure]
          refine does_after hBooks (Svc.Only.act rfl)
            (fun halt later hSame =>
              hHalt halt later (hNone later hSame))
            fun now read hRead => ?_
          rw [Svc.does_bind, Svc.does_act]
          intro result after hMakes
          have hSpent :
              Reserves rfc3339 _ _ before _ :=
            reserves_push rfl rfl hRead hMakes
          rw [Svc.does_ofExcept]
          exact ⟨fun _ _ => hNext _ hSpent,
            fun _ _ => hHalt _ _ hSpent⟩
        · rw [Svc.does_bind, Svc.does_panic]
          exact hHalt _ _ (hNone h hBooks)

end Reservations

end Protocol

end IcpHandler

------------------------------------------------------------
-- Locks and Lookups
------------------------------------------------------------

namespace IcpHandler

namespace Protocol

open Model Service Concurrency

section Locks

variable {rfc3339 : Rfc3339} {fits : Choice → Prop}
variable {lost : Prop} {thread : Nat}
variable {id : String} {h : Log} {before : SubBooks}
variable {α : Type}

/- A lock makes no difference to what is said of the books. -/
theorem does_locked
    {key : String}
    {body : Svc α}
    {Q : α → SubBooks → Prop}
    {X : Halt → SubBooks → Prop}
    (hBooks : booksOf id h = before)
    (hBody :
      ∀ locked, booksOf id locked = before →
        body.Does rfc3339 fits thread
          (fun value later => Q value (booksOf id later))
          (fun halt later => X halt (booksOf id later)) locked) :
    (Svc.withLock key body).Does rfc3339 fits thread
      (fun value later => Q value (booksOf id later))
      (fun halt later => X halt (booksOf id later)) h :=
  (booksView rfc3339 fits id).does_locked ⟨rfl, rfl⟩ hBooks
    hBody

/- The caller's own subscription is the one that is stored. -/
theorem does_subscriptionForInput
    (hLoses : Loses fits lost)
    (hBooks : booksOf id h = before)
    {input : IntentInput}
    {Q : Subscription → Log → Prop}
    {X : Halt → Log → Prop}
    (hHalt :
      ∀ halt later, booksOf id later = before → X halt later)
    (hNext :
      ∀ sub later, before.row = some sub →
        booksOf id later = before → Q sub later) :
    (subscriptionForInput id input).Does rfc3339 fits thread Q
      X h := by
  rw [subscriptionForInput]
  rw [Svc.does_bind]
  refine does_getSub hLoses hBooks ?_
  intro found read hRead hFound
  rw [Svc.does_bind, Svc.does_orFail]
  refine ⟨fun sub hSub => ?_, fun _ => hHalt _ _ hRead⟩
  rw [Svc.does_bind, Svc.does_ensure]
  refine ⟨fun _ => ?_, fun _ => hHalt _ _ hRead⟩
  refine hNext sub read ?_ hRead
  rcases hFound with hFound | ⟨-, hNone⟩
  · rw [← hFound, hSub]
  · rw [hNone] at hSub
    cases hSub

theorem elsewhere_subscriptionForInput
    {key : String}
    {input : IntentInput} :
    Svc.Only (Elsewhere id) (subscriptionForInput key input) :=
  Svc.Only.bind (Svc.Only.act rfl) fun _ =>
    (Svc.Only.orFail _ _).bind fun _ =>
      (Svc.Only.ensure _ _).bind fun _ => Svc.Only.pure _

/- The placeholder transaction is always made. -/
theorem does_subscriptionPseudoTxn
    (hBooks : booksOf id h = before)
    {input : IntentInput}
    {sub : Subscription}
    {state : TransactionState}
    {Q : Transaction → Log → Prop}
    {X : Halt → Log → Prop}
    (hNext :
      ∀ txn later, booksOf id later = before → Q txn later) :
    (subscriptionPseudoTxn input sub state).Does rfc3339 fits
      thread Q X h := by
  rw [subscriptionPseudoTxn, Svc.does_bind]
  refine does_act hBooks rfl fun now told hTold => ?_
  rw [Svc.does_bind]
  refine does_act hTold rfl fun token drawn hDrawn => ?_
  exact hNext _ drawn hDrawn

end Locks

end Protocol

end IcpHandler

------------------------------------------------------------
-- Renew
------------------------------------------------------------

namespace IcpHandler

namespace Protocol

open Model Service Concurrency

/- What a renewal writes into the row. -/
def renewPatch
    (svc : IcpService)
    (sub : Subscription)
    (charge : Transaction)
    (payment : PaymentInstrument)
    (mandate : Option MandateEvaluation)
    (now : DateTime) : SubPatch :=
  .renew sub.currentPeriodEnd
    (periodAdvance svc.deps.calendar sub.currentPeriodEnd
      sub.cadence)
    charge.id payment (mandate.map (·.payload.jti)) now

/-
  What a renewal that succeeds makes of the books of a
  subscription: at most a reservation if it is another's, and
  else a reservation, a charge, and the next period.
-/
inductive RenewDone
    (svc : IcpService)
    (lost : Prop)
    (input : IntentInput)
    (mandate : Option MandateEvaluation)
    (id : String)
    (before : SubBooks) : SubBooks → Prop where
  | other
      (params : RenewParams)
      (hParams :
        svc.deps.renewParams input.envelope.params = .ok params)
      (hOther : params.subscriptionId ≠ id)
      (amountMinor : Int64)
      (after : SubBooks)
      (hReserves :
        Reserves svc.deps.rfc3339 mandate amountMinor before
          after) :
      RenewDone svc lost input mandate id before after
  | own
      (params : RenewParams)
      (hParams :
        svc.deps.renewParams input.envelope.params = .ok params)
      (hOwn : params.subscriptionId = id)
      (sub : Subscription)
      (charge : Transaction)
      (charges : List Transaction)
      (ledger : MandateLedger)
      (payment : PaymentInstrument)
      (now : DateTime)
      (hRow : before.row = some sub)
      (hUncanceled : sub.status ≠ .canceled)
      (hUnpaused : sub.status ≠ .paused)
      (hSpends :
        SpendsOn svc.deps.rfc3339 mandate
          (chargeMinor sub.items sub.currency) before.ledger
          ledger)
      (hPrice :
        totalAmountMinor charge.totals =
          chargeMinor sub.items sub.currency)
      (hCharges : lost ∨ charges = charge :: before.charges) :
      RenewDone svc lost input mandate id before
        { row :=
            some ((renewPatch svc sub charge payment mandate
              now).apply sub)
          charges := charges
          ledger := ledger }

section Renewals

variable {svc : IcpService} {fits : Choice → Prop}
variable {lost : Prop} {thread : Nat}
variable {id : String} {h : Log} {before : SubBooks}
variable {input : IntentInput}
variable {mandate : Option MandateEvaluation}

theorem Reserves.unbilled
    {rfc3339 : Rfc3339}
    {amountMinor : Int64}
    {after : SubBooks}
    (hReserves :
      Reserves rfc3339 mandate amountMinor before after) :
    Unbilled lost before after := by
  obtain ⟨ledger, -, rfl⟩ := hReserves
  exact ⟨rfl, .inl rfl⟩

theorem elsewhere_ensureRenewable (sub : Subscription) :
    Svc.Only (Elsewhere id) (ensureRenewable sub) := by
  unfold ensureRenewable
  split
  · exact Svc.Only.fail _
  · exact Svc.Only.fail _
  · exact Svc.Only.pure _

/- A subscription that can be renewed is neither stopped. -/
theorem does_ensureRenewable
    (hBooks : booksOf id h = before)
    {sub : Subscription}
    {Q : Unit → Log → Prop}
    {X : Halt → Log → Prop}
    (hHalt :
      ∀ halt later, booksOf id later = before → X halt later)
    (hNext :
      sub.status ≠ .canceled → sub.status ≠ .paused → Q () h) :
    (ensureRenewable sub).Does svc.deps.rfc3339 fits thread Q X
      h := by
  unfold ensureRenewable
  split
  · exact hHalt _ h hBooks
  · exact hHalt _ h hBooks
  · rename_i hUncanceled hUnpaused
    exact hNext hUncanceled hUnpaused

/- A renewal, under the lock of the subscription it names. -/
theorem does_doRenew
    (hLoses : Loses fits lost)
    (hBooks : booksOf id h = before) :
    (doRenew svc input mandate).Does svc.deps.rfc3339 fits
      thread
      (fun _ later =>
        RenewDone svc lost input mandate id before
          (booksOf id later))
      (fun _ later => Unbilled lost before (booksOf id later))
      h := by
  have hKept :
      ∀ later, booksOf id later = before →
        Unbilled lost before (booksOf id later) := by
    intro later hSame
    rw [hSame]
    exact ⟨rfl, .inl rfl⟩
  rw [doRenew, Svc.does_bind, Svc.does_ofExcept]
  refine ⟨fun params hParams => ?_, fun _ _ => hKept h hBooks⟩
  rw [Svc.does_bind, Svc.does_ofExcept]
  refine ⟨fun _ _ => ?_, fun _ _ => hKept h hBooks⟩
  dsimp only
  refine does_locked
    (Q := fun _ after =>
      RenewDone svc lost input mandate id before after)
    (X := fun _ after => Unbilled lost before after) hBooks
    fun locked hLocked => ?_
  by_cases hId : params.subscriptionId = id
  · subst hId
    rw [Svc.does_bind]
    refine does_subscriptionForInput hLoses hLocked
      (fun _ => hKept) ?_
    intro sub read hRow hRead
    rw [Svc.does_bind]
    refine does_ensureRenewable hRead (fun _ => hKept) ?_
    intro hUncanceled hUnpaused
    refine does_after hRead (Svc.Only.act rfl) (fun _ => hKept)
      fun now told hTold => ?_
    rw [Svc.does_bind, Svc.does_ofExcept]
    refine ⟨fun priced hPriced => ?_, fun _ _ =>
      hKept _ hTold⟩
    rw [Svc.does_bind]
    refine does_reserve hTold
      (fun _ _ hReserves => hReserves.unbilled) ?_
    rintro reserved ⟨ledger, hSpends, hReserved⟩
    rw [← chargeMinor_eq hPriced] at hSpends
    rw [Svc.does_bind]
    refine does_charge hLoses hReserved rfl ?_ ?_
    · intro halt later hSame
      rw [hSame]
      exact ⟨rfl, .inl rfl⟩
    intro charge charged charges hPrice hCharges hCharged
    rw [Svc.does_bind]
    refine does_updateSub hLoses hCharged ?_
    intro found updated hPatched hFound hMissing
    rw [Svc.does_bind, Svc.does_orPanic]
    refine ⟨fun row hSome => ?_, fun hNone => ?_⟩
    · obtain ⟨hMapped, hBooked⟩ := hFound row hSome
      rw [Svc.does_pure, hBooked]
      rw [hRow, Option.map_some] at hMapped
      cases hMapped
      exact .own params hParams rfl sub charge.1 charges ledger
        params.payment now hRow hUncanceled hUnpaused hSpends
        hPrice hCharges
    · obtain ⟨hBooked, hWhy⟩ := hMissing hNone
      rw [hBooked]
      rw [hRow] at hWhy
      exact ⟨rfl, .inr (hWhy.resolve_left
        (fun hNo => by cases hNo))⟩
  · refine does_after hLocked elsewhere_subscriptionForInput
      (fun _ => hKept) fun sub read hRead => ?_
    refine does_after hRead (elsewhere_ensureRenewable sub)
      (fun _ => hKept) fun _ open_ hOpen => ?_
    refine does_after hOpen (Svc.Only.act rfl) (fun _ => hKept)
      fun now told hTold => ?_
    refine does_after hTold (Svc.Only.ofExcept _ _)
      (fun _ => hKept) fun priced settled hSettled => ?_
    rw [Svc.does_bind]
    refine does_reserve hSettled
      (fun _ _ hReserves => hReserves.unbilled) ?_
    intro reserved hReserves
    generalize hReserved : booksOf id reserved = books
      at hReserves
    have hStill :
        ∀ later, booksOf id later = books →
          Unbilled lost before (booksOf id later) := by
      intro later hSame
      rw [hSame]
      exact hReserves.unbilled
    refine does_after hReserved (elsewhere_charge hId)
      (fun _ => hStill) fun charge charged hCharged => ?_
    refine does_after hCharged (Svc.Only.act ?_)
      (fun _ => hStill) fun found updated hUpdated => ?_
    · simpa [Elsewhere, concerns] using hId
    refine does_after hUpdated (Svc.Only.orPanic _ _)
      (fun _ => hStill) fun row later hLater => ?_
    rw [Svc.does_pure, hLater]
    exact .other params hParams hId _ _ hReserves

end Renewals

end Protocol

end IcpHandler

------------------------------------------------------------
-- Subscribe
------------------------------------------------------------

namespace IcpHandler

namespace Protocol

open Model Service Concurrency

/-
  The row a subscription starts from, and the charges there
  are with it: none in a trial, and else the first one.
-/
inductive Enrolled
    (svc : IcpService)
    (lost : Prop)
    (input : IntentInput)
    (mandate : Option MandateEvaluation)
    (id : String)
    (before charges : List Transaction) : Subscription → Prop where
  | trial
      (params : SubscribeParams)
      (currency : String)
      (now trialEnd : DateTime)
      (hLater : now < trialEnd)
      (hCharges : charges = before) :
      Enrolled svc lost input mandate id before charges
        (newSubscription input mandate params id currency now
          .trialing trialEnd 0 none (some trialEnd))
  | charged
      (params : SubscribeParams)
      (currency : String)
      (now : DateTime)
      (charge : Transaction)
      (hPrice :
        totalAmountMinor charge.totals =
          chargeMinor params.items currency)
      (hCharges : lost ∨ charges = charge :: before) :
      Enrolled svc lost input mandate id before charges
        (newSubscription input mandate params id currency now
          .active
          (periodAdvance svc.deps.calendar now params.cadence)
          1 (some charge.id) none)

/-
  What a subscribe that succeeds makes of the books of a
  subscription: at most a reservation, unless it is the one
  that it enrolls.
-/
inductive SubscribeDone
    (svc : IcpService)
    (lost : Prop)
    (input : IntentInput)
    (mandate : Option MandateEvaluation)
    (id : String)
    (before : SubBooks) : SubBooks → Prop where
  | other
      (amountMinor : Int64)
      (after : SubBooks)
      (hReserves :
        Reserves svc.deps.rfc3339 mandate amountMinor before
          after) :
      SubscribeDone svc lost input mandate id before after
  | own
      (sub : Subscription)
      (row : Option Subscription)
      (charges : List Transaction)
      (ledger : MandateLedger)
      (hFree : before.row = none)
      (hSpends :
        SpendsOn svc.deps.rfc3339 mandate
          (chargeMinor sub.items sub.currency) before.ledger
          ledger)
      (hEnrolled :
        Enrolled svc lost input mandate id before.charges
          charges sub)
      (hStored : row = some sub ∨ lost ∧ row = none) :
      SubscribeDone svc lost input mandate id before
        { row := row, charges := charges, ledger := ledger }

section Enrollments

variable {svc : IcpService} {fits : Choice → Prop}
variable {lost : Prop} {thread : Nat}
variable {id : String} {h : Log} {before : SubBooks}
variable {input : IntentInput}
variable {mandate : Option MandateEvaluation}

/- A token that is drawn is not that of a stored row. -/
theorem does_uuid
    {rfc3339 : Rfc3339}
    (hBooks : booksOf id h = before)
    {Q : String → Log → Prop}
    {X : Halt → Log → Prop}
    (hNext :
      ∀ token later, booksOf id later = before →
        (id = "sub_" ++ token → before.row = none) →
          Q token later) :
    (Svc.act .uuid).Does rfc3339 fits thread Q X h := by
  rw [Svc.does_act]
  intro token after hMakes
  refine hNext token _ ((booksOf_push hMakes rfl).trans hBooks)
    ?_
  rintro rfl
  obtain ⟨-, choice, -, hExec⟩ := hMakes
  unfold machine execEff at hExec
  dsimp only at hExec
  split at hExec
  · rename_i hUnused
    cases hExec
    rw [← hBooks]
    exact hUnused.2.2.1
  · cases hExec

/- The enrolled row is stored, unless it is lost. -/
theorem does_storeEnrolled
    (hLoses : Loses fits lost)
    {sub : Subscription}
    {charges : List Transaction}
    {ledger : MandateLedger}
    (hId : sub.id = id)
    (hBooks :
      booksOf id h =
        { before with charges := charges, ledger := ledger })
    (hFree : before.row = none)
    (hSpends :
      SpendsOn svc.deps.rfc3339 mandate
        (chargeMinor sub.items sub.currency) before.ledger
        ledger)
    (hEnrolled :
      Enrolled svc lost input mandate id before.charges charges
        sub)
    {Q : Unit → Log → Prop}
    {X : Halt → Log → Prop}
    (hNext :
      ∀ later,
        SubscribeDone svc lost input mandate id before
          (booksOf id later) →
        Q () later) :
    (Svc.act (.subs (.insert sub))).Does svc.deps.rfc3339 fits
      thread Q X h := by
  refine does_insertSub hLoses hId hBooks ?_
  intro later hLater
  refine hNext later ?_
  rcases hLater with hStored | ⟨hLost, hMissed⟩
  · rw [hStored]
    exact .own sub _ charges ledger hFree hSpends hEnrolled
      (.inl rfl)
  · rw [hMissed, hFree]
    exact .own sub _ charges ledger hFree hSpends hEnrolled
      (.inr ⟨hLost, rfl⟩)

/- A trial reserves the first charge and charges nothing. -/
theorem does_enrollTrial
    (hLoses : Loses fits lost)
    {params : SubscribeParams}
    {key currency : String}
    {now : DateTime}
    {priced : List LineItem × Totals}
    {trialDays : UInt32}
    (hDays : 0 < trialDays)
    {ledger : MandateLedger}
    (hBooks :
      booksOf id h = { before with ledger := ledger })
    (hFree : id = key → before.row = none)
    (hSpends :
      SpendsOn svc.deps.rfc3339 mandate
        (chargeMinor params.items currency) before.ledger
        ledger) :
    (enrollTrial svc input mandate params key currency now
      priced trialDays).Does svc.deps.rfc3339 fits thread
      (fun _ later =>
        SubscribeDone svc lost input mandate id before
          (booksOf id later))
      (fun _ later => Unbilled lost before (booksOf id later))
      h := by
  have hKept :
      ∀ later,
        booksOf id later = { before with ledger := ledger } →
          Unbilled lost before (booksOf id later) := by
    intro later hSame
    rw [hSame]
    exact ⟨rfl, .inl rfl⟩
  rw [enrollTrial, Svc.does_bind, Svc.does_ensure]
  refine ⟨fun _ => ?_, fun _ => hKept h hBooks⟩
  rw [Svc.does_bind, Svc.does_orFail]
  refine ⟨fun trialEnd hEnd => ?_, fun _ => hKept h hBooks⟩
  have hLater : now < trialEnd := by
    rw [svc.deps.calendar.addSigned_eq _ _ _ hEnd]
    refine lt_add_of_pos_right now (Duration.days_pos ?_)
    have hPos := UInt32.lt_iff_toNat_lt.mp hDays
    rw [UInt32.toNat_zero] at hPos
    omega
  dsimp only
  generalize hSub : newSubscription input mandate params key
    currency now .trialing trialEnd 0 none (some trialEnd) = sub
  have hKey : sub.id = key := by
    rw [← hSub]
    rfl
  have hDone :
      (Svc.act (.subs (.insert sub))).Does svc.deps.rfc3339
        fits thread
        (fun _ later =>
          SubscribeDone svc lost input mandate id before
            (booksOf id later))
        (fun _ later => Unbilled lost before (booksOf id later))
        h := by
    by_cases hId : id = key
    · refine does_storeEnrolled hLoses (hKey.trans hId.symm)
        hBooks (hFree hId) ?_ ?_ fun _ hDone => hDone
      · rw [← hSub]
        exact hSpends
      · rw [← hSub, ← hId]
        exact .trial params currency now trialEnd hLater rfl
    · refine does_act hBooks ?_ fun _ stored hStored => ?_
      · simpa [Elsewhere, concerns, hKey] using Ne.symm hId
      · rw [hStored]
        exact .other _ _ ⟨ledger, hSpends, rfl⟩
  rw [Svc.does_bind]
  refine hDone.mono (fun _ stored hStored => ?_)
    fun _ _ hRow => hRow
  generalize hBooked : booksOf id stored = books at hStored
  rw [Svc.does_bind]
  refine does_subscriptionPseudoTxn hBooked
    fun txn made hMade => ?_
  rw [Svc.does_bind]
  refine does_act hMade rfl fun _ later hLast => ?_
  rw [Svc.does_pure, hLast]
  exact hStored

/- Without a trial the first charge is made at once. -/
theorem does_enrollCharged
    (hLoses : Loses fits lost)
    {params : SubscribeParams}
    {key currency : String}
    {now : DateTime}
    {ledger : MandateLedger}
    (hBooks :
      booksOf id h = { before with ledger := ledger })
    (hFree : id = key → before.row = none)
    (hSpends :
      SpendsOn svc.deps.rfc3339 mandate
        (chargeMinor params.items currency) before.ledger
        ledger) :
    (enrollCharged svc input mandate params key currency
      now).Does svc.deps.rfc3339 fits thread
      (fun _ later =>
        SubscribeDone svc lost input mandate id before
          (booksOf id later))
      (fun _ later => Unbilled lost before (booksOf id later))
      h := by
  have hKept :
      ∀ later,
        booksOf id later = { before with ledger := ledger } →
          Unbilled lost before (booksOf id later) := by
    intro later hSame
    rw [hSame]
    exact ⟨rfl, .inl rfl⟩
  rw [enrollCharged]
  dsimp only
  by_cases hId : id = key
  · subst hId
    rw [Svc.does_bind]
    refine does_charge hLoses hBooks rfl (fun _ => hKept) ?_
    intro charge charged charges hPrice hCharges hCharged
    rw [Svc.does_bind]
    refine does_storeEnrolled hLoses rfl hCharged (hFree rfl)
      ?_ ?_ fun _ hDone => hDone
    · exact hSpends
    · exact .charged params currency now charge.1 hPrice
        hCharges
  · refine does_after hBooks (elsewhere_charge (Ne.symm hId))
      (fun _ => hKept) fun charge charged hCharged => ?_
    rw [Svc.does_bind]
    refine does_act hCharged ?_ fun _ stored hStored => ?_
    · exact beq_eq_false_iff_ne.mpr (Ne.symm hId)
    · rw [Svc.does_pure, hStored]
      exact .other _ _ ⟨ledger, hSpends, rfl⟩

/- A subscribe enrolls one subscription, and no other. -/
theorem does_doSubscribe
    (hLoses : Loses fits lost)
    (hBooks : booksOf id h = before) :
    (doSubscribe svc input mandate).Does svc.deps.rfc3339 fits
      thread
      (fun _ later =>
        SubscribeDone svc lost input mandate id before
          (booksOf id later))
      (fun _ later => Unbilled lost before (booksOf id later))
      h := by
  have hKept :
      ∀ later, booksOf id later = before →
        Unbilled lost before (booksOf id later) := by
    intro later hSame
    rw [hSame]
    exact ⟨rfl, .inl rfl⟩
  rw [doSubscribe, Svc.does_bind, Svc.does_ofExcept]
  refine ⟨fun params hParams => ?_, fun _ _ =>
    hKept h hBooks⟩
  rw [Svc.does_bind, Svc.does_ensure]
  refine ⟨fun _ => ?_, fun _ => hKept h hBooks⟩
  rw [Svc.does_bind, Svc.does_ofExcept]
  refine ⟨fun _ _ => ?_, fun _ _ => hKept h hBooks⟩
  refine does_after hBooks (Svc.Only.act rfl) (fun _ => hKept)
    fun now told hTold => ?_
  dsimp only
  rw [Svc.does_bind, Svc.does_ofExcept]
  refine ⟨fun priced hPriced => ?_, fun _ _ =>
    hKept told hTold⟩
  rw [Svc.does_bind]
  refine does_reserve hTold
    (fun _ _ hReserves => hReserves.unbilled) ?_
  rintro reserved ⟨ledger, hSpends, hReserved⟩
  rw [← chargeMinor_eq hPriced] at hSpends
  rw [Svc.does_bind]
  refine does_uuid hReserved ?_
  intro token drawn hDrawn hFree
  split
  · rename_i trialDays hDays
    have hPos : 0 < trialDays := by
      simpa using (Option.filter_eq_some_iff.mp hDays).2
    exact does_enrollTrial hLoses hPos hDrawn hFree hSpends
  · exact does_enrollCharged hLoses hDrawn hFree hSpends

end Enrollments

end Protocol

end IcpHandler

------------------------------------------------------------
-- Pause and Cancel
------------------------------------------------------------

namespace IcpHandler

namespace Protocol

open Model Service Concurrency

/-
  What a pause or a cancel makes of the books of a
  subscription: nothing, or its row is marked.
-/
inductive MarkDone
    (mark : DateTime → SubPatch)
    (before : SubBooks) : SubBooks → Prop where
  | other : MarkDone mark before before
  | marked
      (sub : Subscription)
      (now : DateTime)
      (hRow : before.row = some sub) :
      MarkDone mark before
        { before with row := some ((mark now).apply sub) }

section Marks

variable {svc : IcpService} {fits : Choice → Prop}
variable {lost : Prop} {thread : Nat}
variable {id : String} {h : Log} {before : SubBooks}
variable {input : IntentInput}

/- The row is marked, and a placeholder is answered with. -/
theorem does_mark
    {rfc3339 : Rfc3339}
    (hLoses : Loses fits lost)
    (hBooks : booksOf id h = before)
    {key message : String}
    {mark : DateTime → SubPatch}
    {X : Halt → Log → Prop}
    (hHalt :
      ∀ halt later, booksOf id later = before → X halt later) :
    (Svc.act .now >>= fun now =>
      Svc.act (.subs (.update key (mark now))) >>= fun found =>
        Svc.orPanic message found >>= fun updated =>
          subscriptionPseudoTxn input updated .canceled >>=
            fun txn =>
              Svc.act (.txns (.insert txn)) >>= fun _ =>
                (pure
                  { transaction := txn
                    subscription := some updated } :
                  Svc Outcome)).Does rfc3339 fits thread
      (fun _ later => MarkDone mark before (booksOf id later))
      X h := by
  rw [Svc.does_bind]
  refine does_act hBooks rfl fun now told hTold => ?_
  rw [Svc.does_bind]
  have hPlaceholder :
      ∀ (updated : Subscription) (marked : Log),
        MarkDone mark before (booksOf id marked) →
          (subscriptionPseudoTxn input updated .canceled >>=
            fun txn =>
              Svc.act (.txns (.insert txn)) >>= fun _ =>
                (pure
                  { transaction := txn
                    subscription := some updated } :
                  Svc Outcome)).Does rfc3339 fits thread
            (fun _ later =>
              MarkDone mark before (booksOf id later))
            X marked := by
    intro updated marked hMarked
    generalize hBooked : booksOf id marked = books at hMarked
    rw [Svc.does_bind]
    refine does_subscriptionPseudoTxn hBooked
      fun txn made hMade => ?_
    rw [Svc.does_bind]
    refine does_act hMade rfl fun _ later hLast => ?_
    rw [Svc.does_pure, hLast]
    exact hMarked
  by_cases hId : key = id
  · subst hId
    refine does_updateSub hLoses hTold ?_
    intro found patched hPatched hFound hMissing
    rw [Svc.does_bind, Svc.does_orPanic]
    refine ⟨fun updated hSome => ?_, fun hNone => ?_⟩
    · refine hPlaceholder updated patched ?_
      obtain ⟨hMapped, hBooked⟩ := hFound updated hSome
      obtain ⟨sub, hRow, rfl⟩ := Option.map_eq_some_iff.mp
        hMapped
      rw [hBooked]
      exact .marked sub now hRow
    · exact hHalt _ _ (hMissing hNone).1
  · refine does_act hTold ?_ fun found patched hPatched => ?_
    · exact beq_eq_false_iff_ne.mpr hId
    rw [Svc.does_bind, Svc.does_orPanic]
    refine ⟨fun updated _ => ?_, fun _ =>
      hHalt _ _ hPatched⟩
    refine hPlaceholder updated patched ?_
    rw [hPatched]
    exact .other

/- A pause marks the subscription it names. -/
theorem does_doPause
    (hLoses : Loses fits lost)
    (hBooks : booksOf id h = before) :
    (doPause svc input).Does svc.deps.rfc3339 fits thread
      (fun _ later => MarkDone .pause before (booksOf id later))
      (fun _ later => booksOf id later = before) h := by
  rw [doPause, Svc.does_bind, Svc.does_ofExcept]
  refine ⟨fun params hParams => ?_, fun _ _ => hBooks⟩
  dsimp only
  refine does_locked
    (Q := fun _ after => MarkDone .pause before after)
    (X := fun _ after => after = before) hBooks
    fun locked hLocked => ?_
  refine does_after hLocked elsewhere_subscriptionForInput
    (fun _ _ hSame => hSame) fun sub read hRead => ?_
  refine does_after hRead (Svc.Only.ensure _ _)
    (fun _ _ hSame => hSame) fun _ checked hChecked => ?_
  exact does_mark hLoses hChecked fun _ _ hSame => hSame

/- And so does a cancellation. -/
theorem does_doCancelSubscription
    (hLoses : Loses fits lost)
    (hBooks : booksOf id h = before) :
    (doCancelSubscription svc input).Does svc.deps.rfc3339 fits
      thread
      (fun _ later => MarkDone .cancel before (booksOf id later))
      (fun _ later => booksOf id later = before) h := by
  rw [doCancelSubscription, Svc.does_bind, Svc.does_ofExcept]
  refine ⟨fun params hParams => ?_, fun _ _ => hBooks⟩
  dsimp only
  refine does_locked
    (Q := fun _ after => MarkDone .cancel before after)
    (X := fun _ after => after = before) hBooks
    fun locked hLocked => ?_
  refine does_after hLocked elsewhere_subscriptionForInput
    (fun _ _ hSame => hSame) fun sub read hRead => ?_
  refine does_after hRead (Svc.Only.ensure _ _)
    (fun _ _ hSame => hSame) fun _ checked hChecked => ?_
  exact does_mark hLoses hChecked fun _ _ hSame => hSame

end Marks

end Protocol

end IcpHandler
