import IcpHandler.Concurrency.TwoRuns
import IcpHandler.Model.Concrete
import IcpHandler.Protocol.Alone
import IcpHandler.Protocol.Attempts
import IcpHandler.Protocol.SubscriptionRuns

/-
  The dunning schedule. Ticks that follow one another try a
  subscription again after each failure, when the schedule says
  so, until the failure that its entries do not cover any more.

  Main declarations:
    * `mostFailures`, `dunningPolicy`, `ScheduleFits`
    * `standingOf`, `Attempted.chance`
    * `BetweenTicks.turn`
    * `TickRun`, `FollowsDunning`
    * `TickRun.retryRun`
    * `ticks_follow_dunning`, `long_schedule_ends_at_once`
-/

------------------------------------------------------------
-- The Policy
------------------------------------------------------------

namespace IcpHandler

namespace Protocol

open Model Service Concurrency Data

section Policy

variable (svc : IcpService)

/- The entries of the schedule, in hours. -/
abbrev retryHours : List UInt32 :=
  svc.config.subscriptionDunningScheduleHours

/- The failure in a row with which a subscription is past due. -/
def mostFailures : Nat :=
  if (retryHours svc).isEmpty then 3
  else (retryHours svc).length + 1

def dunningPolicy : RetryPolicy DateTime where
  most := mostFailures svc
  again count now :=
    dunningNextAttempt svc (UInt32.ofNat count) now

/- The number of failures fits the counter of the code. -/
def ScheduleFits : Prop :=
  (retryHours svc).length + 1 < UInt32.size

variable {svc}

theorem mostFailures_pos : 0 < mostFailures svc := by
  rw [mostFailures]
  split
  · exact Nat.succ_pos 2
  · exact Nat.succ_pos _

theorem ScheduleFits.mostFailures_lt
    (hFits : ScheduleFits svc) :
    mostFailures svc < UInt32.size := by
  rw [mostFailures]
  split
  · decide
  · exact hFits

/- A schedule that fits is counted as it is. -/
theorem ScheduleFits.toNat_dunningMaxAttempts
    (hFits : ScheduleFits svc) :
    (dunningMaxAttempts svc).toNat = mostFailures svc := by
  rw [dunningMaxAttempts, mostFailures]
  split
  · rfl
  · have hLength :
        (UInt32.ofNat (retryHours svc).length).toNat =
          (retryHours svc).length :=
      UInt32.toNat_ofNat_of_lt' (Nat.lt_of_succ_lt hFits)
    rw [Saturating.toNat_satAdd32]
    · rw [hLength]
      rfl
    · rw [hLength]
      exact hFits

/- Each failure to spare has an entry of the schedule. -/
theorem ScheduleFits.again_eq
    (hFits : ScheduleFits svc)
    {count : Nat}
    (now : DateTime)
    (hSome : retryHours svc ≠ [])
    (hPos : 0 < count)
    (hSpare : count < mostFailures svc) :
    ∃ hours,
      (retryHours svc)[count - 1]? = some hours ∧
        (dunningPolicy svc).again count now =
          some (now + Duration.hours hours.toNat) := by
  have hNat : (UInt32.ofNat count).toNat = count :=
    UInt32.toNat_ofNat_of_lt'
      (Nat.lt_trans hSpare hFits.mostFailures_lt)
  have hEmpty : (retryHours svc).isEmpty = false :=
    List.isEmpty_eq_false_iff.mpr hSome
  have hCount : (UInt32.ofNat count == 0) = false := by
    refine beq_eq_false_iff_ne.mpr fun hZero => ?_
    rw [hZero] at hNat
    exact absurd hNat (Nat.ne_of_lt hPos)
  rw [mostFailures] at hSpare
  rw [hEmpty, if_neg Bool.false_ne_true] at hSpare
  have hLess : count - 1 < (retryHours svc).length := by
    omega
  refine ⟨_, List.getElem?_eq_getElem hLess, ?_⟩
  change dunningNextAttempt svc (UInt32.ofNat count) now = _
  rw [dunningNextAttempt, hEmpty, hCount, if_neg (by simp), hNat,
    List.getElem?_eq_getElem hLess]
  rfl

end Policy

end Protocol

end IcpHandler

------------------------------------------------------------
-- How a Subscription Stands
------------------------------------------------------------

namespace IcpHandler

namespace Protocol

open Model Service Concurrency Data

/- A subscription, as a task that is tried again. -/
def standingOf (sub : Subscription) : Standing DateTime where
  failures := sub.failedRenewalAttempts.toNat
  due := sub.nextChargeAt
  able := sub.paymentInstrument.isSome
  givenUp := sub.status == .pastDue

/- Ticks lead from one of these to another. -/
def Renewing (sub : Subscription) : Prop :=
  sub.status = .active ∨ sub.status = .trialing ∨
    sub.status = .pastDue

section Standings

variable {svc : IcpService} {now : DateTime}
variable {sub row : Subscription} {outcome : Option Bool}

theorem renewable_iff (hRenewing : Renewing sub) :
    (sub.status == .active || sub.status == .trialing) = true ↔
      (standingOf sub).givenUp = false := by
  change _ ↔ (sub.status == .pastDue) = false
  rcases hRenewing with hStatus | hStatus | hStatus
  · rw [hStatus]
    decide
  · rw [hStatus]
    decide
  · rw [hStatus]
    decide

/- What the ticks list is what is due to be tried. -/
theorem isDue_iff (hRenewing : Renewing sub) :
    Record.isDue now sub = true ↔
      (standingOf sub).IsDue now := by
  change (((sub.status == .active || sub.status == .trialing) &&
    decide (sub.nextChargeAt ≤ now)) &&
      sub.paymentInstrument.isSome) = true ↔ _
  rw [Bool.and_eq_true, Bool.and_eq_true, decide_eq_true_iff,
    renewable_iff hRenewing]
  constructor
  · rintro ⟨⟨hLive, hReached⟩, hAble⟩
    exact ⟨hAble, hLive, hReached⟩
  · rintro ⟨hAble, hLive, hReached⟩
    exact ⟨⟨hLive, hReached⟩, hAble⟩

/- A subscription that is tried is active or in its trial. -/
theorem live_of_isDue
    (hRenewing : Renewing sub)
    (hDue : (standingOf sub).IsDue now) :
    sub.status = .active ∨ sub.status = .trialing := by
  have hLive := (renewable_iff hRenewing).mpr hDue.2.1
  rw [Bool.or_eq_true, beq_iff_eq, beq_iff_eq] at hLive
  exact hLive

theorem renewing_of_live
    (hLive : sub.status = .active ∨ sub.status = .trialing) :
    Renewing sub :=
  hLive.imp_right Or.inl

/- A success makes the subscription active. -/
theorem renewed_status
    {txn : Transaction}
    (hLive : sub.status = .active ∨ sub.status = .trialing) :
    ((renewedPatch svc sub txn now).apply sub).status =
      .active := by
  change (if sub.status = .trialing then
    SubscriptionStatus.active else sub.status) = .active
  rcases hLive with hStatus | hStatus
  · rw [hStatus]
    rfl
  · exact if_pos hStatus

theorem failed_status
    (svc : IcpService)
    (sub : Subscription)
    (now : DateTime) :
    ((failedPatch svc sub now).apply sub).status =
      if dunningMaxAttempts svc ≤
          Saturating.satAdd32 sub.failedRenewalAttempts 1 then
        .pastDue
      else sub.status := rfl

/- A failure leaves it active or in its trial, or past due. -/
theorem failed_renewing
    (hLive : sub.status = .active ∨ sub.status = .trialing) :
    Renewing ((failedPatch svc sub now).apply sub) := by
  rw [Renewing, failed_status]
  split
  · exact .inr (.inr rfl)
  · exact renewing_of_live hLive

/- One more failure is counted exactly, below the last one. -/
theorem toNat_nextFailure
    (hFits : ScheduleFits svc)
    (hSpare :
      sub.failedRenewalAttempts.toNat < mostFailures svc) :
    (Saturating.satAdd32 sub.failedRenewalAttempts 1).toNat =
      sub.failedRenewalAttempts.toNat + 1 :=
  Saturating.toNat_satAdd32
    (Nat.lt_of_le_of_lt hSpare hFits.mostFailures_lt)

theorem standingOf_failed
    (hFits : ScheduleFits svc)
    (hSpare :
      sub.failedRenewalAttempts.toNat < mostFailures svc) :
    standingOf ((failedPatch svc sub now).apply sub) =
      (dunningPolicy svc).afterFailure now (standingOf sub) := by
  have hCount := toNat_nextFailure hFits hSpare
  have hNext :
      dunningNextAttempt svc
          (Saturating.satAdd32 sub.failedRenewalAttempts 1) now =
        (dunningPolicy svc).again
          (sub.failedRenewalAttempts.toNat + 1) now := by
    change _ = dunningNextAttempt svc (UInt32.ofNat _) now
    rw [← hCount, UInt32.ofNat_toNat]
  have hLast :
      dunningMaxAttempts svc ≤
          Saturating.satAdd32 sub.failedRenewalAttempts 1 ↔
        (dunningPolicy svc).most ≤
          (standingOf sub).failures + 1 := by
    rw [UInt32.le_iff_toNat_le, hFits.toNat_dunningMaxAttempts,
      hCount]
    rfl
  rw [RetryPolicy.afterFailure, failedPatch, SubPatch.apply,
    hNext]
  by_cases hMost :
      (dunningPolicy svc).most ≤ (standingOf sub).failures + 1
  · rw [if_pos hMost, if_pos (hLast.mpr hMost),
      if_pos (hLast.mpr hMost), standingOf, hCount]
    rfl
  · rw [if_neg hMost, if_neg (mt hLast.mp hMost),
      if_neg (mt hLast.mp hMost), standingOf, hCount]
    rfl

/- A try is a chance of the policy. -/
theorem Attempted.chance
    (hFits : ScheduleFits svc)
    (hRenewing : Renewing sub)
    (hSpare :
      (standingOf sub).IsDue now →
        sub.failedRenewalAttempts.toNat < mostFailures svc)
    (hAttempted : Attempted svc now sub outcome row) :
    Renewing row ∧
      (dunningPolicy svc).Chance now (standingOf sub) outcome
        (standingOf row) := by
  cases hAttempted with
  | passed hNotDue =>
      refine ⟨hRenewing, .passed fun hDue => ?_⟩
      rw [(isDue_iff hRenewing).mpr hDue] at hNotDue
      cases hNotDue
  | tried hListed ok row hTried =>
      have hDue := (isDue_iff hRenewing).mp hListed
      have hLive := live_of_isDue hRenewing hDue
      cases hTried with
      | renewed txn hAuto =>
          have hActive :
              ((renewedPatch svc sub txn now).apply sub).status =
                .active :=
            renewed_status hLive
          refine ⟨.inl hActive, ?_⟩
          have hStanding :
              standingOf
                  ((renewedPatch svc sub txn now).apply sub) =
                { standingOf sub with
                  failures := 0
                  due :=
                    periodAdvance svc.deps.calendar
                      sub.currentPeriodEnd sub.cadence } := by
            rw [Standing.mk.injEq]
            refine ⟨rfl, rfl, rfl, ?_⟩
            rw [hDue.2.1, standingOf, hActive]
            rfl
          rw [hStanding]
          exact .succeeded hDue _
      | failed =>
          constructor
          · exact failed_renewing hLive
          · rw [standingOf_failed hFits (hSpare hDue)]
            exact .failed hDue

end Standings

end Protocol

end IcpHandler

------------------------------------------------------------
-- A Tick in Its Turn
------------------------------------------------------------

namespace IcpHandler

namespace Protocol

open Model Service Concurrency Data

section Turn

variable {svc : IcpService} {now : DateTime}
variable {sub row next : Subscription}
variable {outcome : Option Bool}
variable {k : Nat} {tries : Tries} {id : String}

theorem renewed_ne_failed
    (svc : IcpService)
    (sub : Subscription)
    (txn : Transaction)
    (now : DateTime) :
    (renewedPatch svc sub txn now).apply sub ≠
      (failedPatch svc sub now).apply sub := by
  intro hSame
  have hNone :
      (0 : UInt32) =
        Saturating.satAdd32 sub.failedRenewalAttempts 1 :=
    congrArg Subscription.failedRenewalAttempts hSame
  exact UInt32.ne_of_lt (Saturating.satAdd32_one_pos _) hNone

/- A charge is completed when a try succeeds, and only then. -/
theorem Attempted.charged
    {lost failing : Prop}
    {before after : SubBooks}
    (hAttempted : Attempted svc now sub outcome row)
    (hTicked : Ticked svc lost now failing before after)
    (hKept : ¬ lost)
    (hBefore : before.row = some sub)
    (hAfter : after.row = some row)
    (hCharged :
      before.charges.length = tries.countP Prod.snd) :
    after.charges.length =
      (triesAfter k outcome tries).countP Prod.snd := by
  cases hAttempted with
  | passed hNotDue =>
      cases hTicked with
      | idle hIdle hSame =>
          rw [hSame]
          exact hCharged
      | billed listed hRow hDue hBilled =>
          cases hRow.symm.trans hBefore
          rw [hDue] at hNotDue
          cases hNotDue
  | tried hDue ok row hTried =>
      cases hTicked with
      | idle hIdle hSame =>
          exact absurd (hIdle sub hBefore hDue) hKept
      | billed listed hRow hListed hBilled =>
          cases hRow.symm.trans hBefore
          cases hBilled with
          | charged txn charges hPrice hCharges hPatched =>
              cases hCharges.resolve_left hKept
              cases hPatched.resolve_right fun hLost =>
                hKept hLost.1
              rw [hBefore] at hAfter
              have hRenewed := Option.some.inj hAfter
              cases hTried with
              | renewed other hAuto =>
                  have hMore := congrArg (· + 1) hCharged
                  exact hMore.trans
                    (List.countP_cons_of_pos rfl).symm
              | failed =>
                  exact absurd hRenewed
                    (renewed_ne_failed svc _ txn now)
          | failed hFailing hPatched =>
              cases hPatched.resolve_right fun hLost =>
                hKept hLost.1
              rw [hBefore] at hAfter
              have hFailed := Option.some.inj hAfter
              cases hTried with
              | renewed other hAuto =>
                  exact absurd hFailed.symm
                    (renewed_ne_failed svc _ other now)
              | failed => exact hCharged

/- What a tick has tried is known when it has ended. -/
theorem attempted_of_tick
    {h later : Log}
    {choices rest : List Choice}
    {result : OpResult}
    (hFaultless : ∀ choice ∈ choices, choice.fault = false)
    (hStored : h.world.subscriptions.get id = some row)
    (hEval :
      ((Op.tickSubscriptions now).prog svc).eval
          (machine svc.deps.rfc3339) k choices h =
        some (result, later, rest)) :
    ∃ report, result = .renewals (.ok report) ∧
      ∃ outcome next, Attempted svc now row outcome next ∧
        attemptsOf id later =
          ⟨some next,
            triesAfter k outcome (triesOf id h.past)⟩ := by
  have hAll : ∀ choice ∈ choices, choice ∈ choices :=
    fun _ hMem => hMem
  have hBefore :
      attemptsOf id h = ⟨some row, triesOf id h.past⟩ := by
    rw [attemptsOf, hStored]
  refine Prog.Ensures.eval
    (Q := fun result later =>
      ∃ report, result = .renewals (.ok report) ∧
        ∃ outcome next, Attempted svc now row outcome next ∧
          attemptsOf id later =
            ⟨some next,
              triesAfter k outcome (triesOf id h.past)⟩)
    (Prog.Ensures.bind_iff.mpr ?_) hAll hEval
  refine Prog.Ensures.mono
    (does_attempts hFaultless hBefore)
    fun answer last hPost => ?_
  cases answer with
  | ok report => exact ⟨report, rfl, hPost⟩
  | error halt => exact hPost.elim

/-
  How a log stands between two ticks: the subscription has
  counted its failures, and the charges are its successes.
-/
structure BetweenTicks
    (svc : IcpService)
    (id : String)
    (earlier : Nat)
    (h : Log)
    (row : Subscription) : Prop where
  stored : h.world.subscriptions.get id = some row
  renewing : Renewing row
  counted :
    (standingOf row).Counted (dunningPolicy svc) earlier
      (triesOf id h.past)
  charged :
    (completedCharges id h.past).length =
      (triesOf id h.past).countP Prod.snd

/- What one tick makes of the log and the subscription. -/
structure TickTurn
    (svc : IcpService)
    (id : String)
    (now : DateTime)
    (k : Nat)
    (h later : Log)
    (row : Subscription)
    (outcome : Option Bool)
    (next : Subscription) : Prop where
  attempted : Attempted svc now row outcome next
  chance :
    (dunningPolicy svc).Chance now (standingOf row) outcome
      (standingOf next)
  tries :
    triesOf id later.past =
      triesAfter k outcome (triesOf id h.past)

/- The step: one tick, from any log between two ticks. -/
theorem BetweenTicks.turn
    {earlier : Nat}
    {h later : Log}
    {choices rest : List Choice}
    {result : OpResult}
    (hFits : ScheduleFits svc)
    (hFaultless : ∀ choice ∈ choices, choice.fault = false)
    (hBetween : BetweenTicks svc id earlier h row)
    (hEval :
      ((Op.tickSubscriptions now).prog svc).eval
          (machine svc.deps.rfc3339) k choices h =
        some (result, later, rest)) :
    ∃ outcome next,
      TickTurn svc id now k h later row outcome next ∧
        BetweenTicks svc id earlier later next := by
  obtain ⟨report, rfl, outcome, next, hAttempted, hAfter⟩ :=
    attempted_of_tick hFaultless hBetween.stored hEval
  have hStored : later.world.subscriptions.get id = some next :=
    congrArg Attempts.row hAfter
  have hTries :
      triesOf id later.past =
        triesAfter k outcome (triesOf id h.past) :=
    congrArg Attempts.tries hAfter
  obtain ⟨hRenewing, hChance⟩ :=
    hAttempted.chance hFits hBetween.renewing fun hDue =>
      hBetween.counted.lt_most hDue.2.1
  refine ⟨outcome, next, ⟨hAttempted, hChance, hTries⟩,
    hStored, hRenewing, ?_, ?_⟩
  · rw [hTries]
    exact hBetween.counted.chance mostFailures_pos hChance
  · have hKept : ¬ Faulty choices := by
      rintro ⟨choice, hMem, hFault⟩
      rw [hFaultless choice hMem] at hFault
      cases hFault
    rw [hTries]
    have hTurned :
        Turned svc (Faulty choices) id (booksOf id h)
          (booksOf id later) (.tickSubscriptions now)
          (.renewals (.ok report)) :=
      turned id trivial hEval
    cases hTurned with
    | ticked now report hTicked =>
        exact hAttempted.charged hTicked hKept hBetween.stored
          hStored hBetween.charged

end Turn

end Protocol

end IcpHandler

------------------------------------------------------------
-- Ticks that Follow One Another
------------------------------------------------------------

namespace IcpHandler

namespace Protocol

open Model Service Concurrency Data

/- One unit of the cadence later, if the calendar has that day. -/
def unitAfter
    (calendar : Calendar)
    (start : DateTime) : BillingCadence → Option DateTime
  | .weekly => some (start + Duration.days 7)
  | .monthly => calendar.checkedAddMonths start 1
  | .annual => calendar.checkedAddMonths start 12

theorem periodAdvance_of_unitAfter
    {calendar : Calendar}
    {start later : DateTime}
    {cadence : BillingCadence}
    (hUnit : unitAfter calendar start cadence = some later) :
    periodAdvance calendar start cadence = later := by
  cases cadence with
  | weekly => exact Option.some.inj hUnit
  | monthly =>
      rw [periodAdvance,
        show calendar.checkedAddMonths start 1 = _ from hUnit]
      rfl
  | annual =>
      rw [periodAdvance,
        show calendar.checkedAddMonths start 12 = _ from hUnit]
      rfl

/-
  Ticks at times that do not go back, each to its end, from a
  world with a subscription that is still renewed. The database
  does not fail them; what becomes of a charge is open.
-/
structure TickRun
    (svc : IcpService)
    (times : Nat → DateTime)
    (choices : Nat → List Choice)
    (w : World)
    (sub : Subscription)
    (count : Nat)
    (logs : Nat → Log) : Prop where
  stored : w.subscriptions.get sub.id = some sub
  live : sub.status = .active ∨ sub.status = .trialing
  spare : sub.failedRenewalAttempts.toNat < mostFailures svc
  ordered : Monotone times
  faultless :
    ∀ k < count, ∀ choice ∈ choices k, choice.fault = false
  ran :
    ∀ k ≤ count,
      runInTurn svc (fun k => .tickSubscriptions (times k))
        choices w k = some (logs k)

/-
  What the schedule asks of the ticks. After each of them:
  the subscription is past due with the last failure that the
  schedule covers, not before, and it is not charged any more
  then; it is tried once at most; a failure with an entry of
  the schedule is followed by a try at the first tick from the
  entry's time on, and by none before; and a success starts the
  count anew and opens the next period.
-/
structure FollowsDunning
    (svc : IcpService)
    (times : Nat → DateTime)
    (sub : Subscription)
    (count : Nat)
    (logs : Nat → Log) : Prop where
  pastDue :
    ∀ k ≤ count, ∃ row,
      (logs k).world.subscriptions.get sub.id = some row ∧
      (row.status = .pastDue ↔
        failuresInARow sub.failedRenewalAttempts.toNat
          (triesOf sub.id (logs k).past) = mostFailures svc) ∧
      failuresInARow sub.failedRenewalAttempts.toNat
        (triesOf sub.id (logs k).past) ≤ mostFailures svc
  once :
    ∀ k < count, ∃ outcome,
      triesOf sub.id (logs (k + 1)).past =
        triesAfter k outcome (triesOf sub.id (logs k).past)
  charged :
    ∀ k ≤ count,
      (completedCharges sub.id (logs k).past).length =
        (triesOf sub.id (logs k).past).countP Prod.snd
  spaced :
    ∀ j < count, ∀ failures,
      triesOf sub.id (logs (j + 1)).past =
          (j, false) :: triesOf sub.id (logs j).past →
      failuresInARow sub.failedRenewalAttempts.toNat
          (triesOf sub.id (logs (j + 1)).past) = failures →
      retryHours svc ≠ [] → failures < mostFailures svc →
        ∃ hours, (retryHours svc)[failures - 1]? = some hours ∧
          (∀ m, j < m → m < count →
            times m < times j + Duration.hours hours.toNat →
            triesOf sub.id (logs (m + 1)).past =
              triesOf sub.id (logs (j + 1)).past) ∧
          ∀ m, j < m → m < count →
            times j + Duration.hours hours.toNat ≤ times m →
            (∀ i, j < i → i < m →
              times i <
                times j + Duration.hours hours.toNat) →
            ∃ ok, triesOf sub.id (logs (m + 1)).past =
              (m, ok) :: triesOf sub.id (logs (j + 1)).past
  renewed :
    ∀ k < count,
      triesOf sub.id (logs (k + 1)).past =
          (k, true) :: triesOf sub.id (logs k).past →
      ∃ old row,
        (logs k).world.subscriptions.get sub.id = some old ∧
        (logs (k + 1)).world.subscriptions.get sub.id =
            some row ∧
        row.failedRenewalAttempts = 0 ∧
        row.status = .active ∧
        ∀ later,
          unitAfter svc.deps.calendar old.currentPeriodEnd
              old.cadence = some later →
            row.nextChargeAt = later
  rests :
    ∀ k m row, k ≤ m → m ≤ count →
      (logs k).world.subscriptions.get sub.id = some row →
      row.status = .pastDue →
        (logs m).world.subscriptions.get sub.id = some row ∧
        triesOf sub.id (logs m).past =
            triesOf sub.id (logs k).past ∧
        (completedCharges sub.id (logs m).past).length =
          (completedCharges sub.id (logs k).past).length

section Ticks

variable {svc : IcpService} {times : Nat → DateTime}
variable {choices : Nat → List Choice} {w : World}
variable {sub : Subscription} {count : Nat}
variable {logs : Nat → Log} {k m : Nat}

/- The log before any tick. -/
theorem TickRun.start
    (hRun : TickRun svc times choices w sub count logs) :
    BetweenTicks svc sub.id sub.failedRenewalAttempts.toNat
      (logs 0) sub := by
  have hStart : logs 0 = .start w :=
    (Option.some.inj (hRun.ran 0 (Nat.zero_le _))).symm
  rw [hStart]
  refine ⟨hRun.stored, renewing_of_live hRun.live, ?_, rfl⟩
  refine ⟨rfl, Nat.le_of_lt hRun.spare, ?_⟩
  have hLive : (standingOf sub).givenUp = false := by
    refine (renewable_iff (renewing_of_live hRun.live)).mp ?_
    rw [Bool.or_eq_true, beq_iff_eq, beq_iff_eq]
    exact hRun.live
  rw [hLive]
  exact iff_of_false Bool.false_ne_true
    (Nat.ne_of_lt hRun.spare)

/- One tick of the run. -/
theorem TickRun.turn
    (hRun : TickRun svc times choices w sub count logs)
    (hFits : ScheduleFits svc)
    {row : Subscription}
    (hLess : k < count)
    (hBetween :
      BetweenTicks svc sub.id sub.failedRenewalAttempts.toNat
        (logs k) row) :
    ∃ outcome next,
      TickTurn svc sub.id (times k) k (logs k) (logs (k + 1))
          row outcome next ∧
        BetweenTicks svc sub.id sub.failedRenewalAttempts.toNat
          (logs (k + 1)) next := by
  obtain ⟨before, result, rest, hBefore, hEval, -⟩ :=
    runInTurn_succ (hRun.ran (k + 1) hLess)
  rw [hRun.ran k (Nat.le_of_lt hLess)] at hBefore
  cases hBefore
  exact hBetween.turn hFits (hRun.faultless k hLess) hEval

/- By induction on the number of ticks. -/
theorem TickRun.between
    (hRun : TickRun svc times choices w sub count logs)
    (hFits : ScheduleFits svc)
    (hLe : k ≤ count) :
    ∃ row,
      BetweenTicks svc sub.id sub.failedRenewalAttempts.toNat
        (logs k) row := by
  induction k with
  | zero => exact ⟨sub, hRun.start⟩
  | succ k ih =>
      obtain ⟨row, hBetween⟩ := ih (Nat.le_of_succ_le hLe)
      obtain ⟨outcome, next, -, hNext⟩ :=
        hRun.turn hFits hLe hBetween
      exact ⟨next, hNext⟩

/- How the subscription stands in a log. -/
def standingIn
    (sub : Subscription)
    (h : Log) : Standing DateTime :=
  standingOf ((h.world.subscriptions.get sub.id).getD sub)

theorem standingIn_of_stored
    {row : Subscription}
    {h : Log}
    (hStored : h.world.subscriptions.get sub.id = some row) :
    standingIn sub h = standingOf row := by
  rw [standingIn, hStored]
  rfl

/- The ticks are chances of the policy, one after the other. -/
theorem TickRun.retryRun
    (hRun : TickRun svc times choices w sub count logs)
    (hFits : ScheduleFits svc) :
    RetryRun (dunningPolicy svc) times count
      (fun k => standingIn sub (logs k))
      (fun k => triesOf sub.id (logs k).past) := by
  intro k hLess
  obtain ⟨row, hBetween⟩ :=
    hRun.between hFits (Nat.le_of_lt hLess)
  obtain ⟨outcome, next, hTurn, hNext⟩ :=
    hRun.turn hFits hLess hBetween
  refine ⟨outcome, ?_, hTurn.tries⟩
  dsimp only
  rw [standingIn_of_stored hBetween.stored,
    standingIn_of_stored hNext.stored]
  exact hTurn.chance

/- A row that is past due is kept by every later tick. -/
theorem TickRun.rests
    (hRun : TickRun svc times choices w sub count logs)
    (hFits : ScheduleFits svc)
    {row : Subscription}
    (hBetween :
      BetweenTicks svc sub.id sub.failedRenewalAttempts.toNat
        (logs k) row)
    (hPastDue : row.status = .pastDue)
    (hLe : k ≤ m)
    (hWithin : m ≤ count) :
    BetweenTicks svc sub.id sub.failedRenewalAttempts.toNat
        (logs m) row ∧
      triesOf sub.id (logs m).past =
        triesOf sub.id (logs k).past := by
  induction m, hLe using Nat.le_induction with
  | base => exact ⟨hBetween, rfl⟩
  | succ m hLe ih =>
      obtain ⟨hEarlier, hTries⟩ := ih (Nat.le_of_succ_le hWithin)
      obtain ⟨outcome, next, hTurn, hNext⟩ :=
        hRun.turn hFits hWithin hEarlier
      have hAfter := hTurn.tries
      have hAttempted := hTurn.attempted
      cases hAttempted with
      | passed hNotDue => exact ⟨hNext, hAfter.trans hTries⟩
      | tried hDue ok next hTried =>
          have hIsDue := (isDue_iff hEarlier.renewing).mp hDue
          rcases live_of_isDue hEarlier.renewing hIsDue with
            hLive | hLive
          · rw [hPastDue] at hLive
            cases hLive
          · rw [hPastDue] at hLive
            cases hLive

/- A try that succeeds starts the count anew. -/
theorem TickRun.renewed
    (hRun : TickRun svc times choices w sub count logs)
    (hFits : ScheduleFits svc)
    {old : Subscription}
    (hLess : k < count)
    (hBetween :
      BetweenTicks svc sub.id sub.failedRenewalAttempts.toNat
        (logs k) old)
    (hTries :
      triesOf sub.id (logs (k + 1)).past =
        (k, true) :: triesOf sub.id (logs k).past) :
    ∃ txn,
      (old.status = .active ∨ old.status = .trialing) ∧
      (logs (k + 1)).world.subscriptions.get sub.id =
        some ((renewedPatch svc old txn (times k)).apply
          old) := by
  obtain ⟨outcome, next, hTurn, hNext⟩ :=
    hRun.turn hFits hLess hBetween
  cases RetryRun.outcome_eq (hTurn.tries.symm.trans hTries)
  cases hTurn.attempted with
  | tried hDue ok next hTried =>
      have hIsDue := (isDue_iff hBetween.renewing).mp hDue
      cases hTried with
      | renewed txn hAuto =>
          exact ⟨txn, live_of_isDue hBetween.renewing hIsDue,
            hNext.stored⟩

end Ticks

end Protocol

end IcpHandler

------------------------------------------------------------
-- The Schedule Is Followed
------------------------------------------------------------

namespace IcpHandler

namespace Protocol

open Model Service Concurrency Data

section Followed

variable {svc : IcpService} {times : Nat → DateTime}
variable {choices : Nat → List Choice} {w : World}
variable {sub : Subscription} {count : Nat}
variable {logs : Nat → Log}

/- When a failure with an entry is followed by a try. -/
theorem TickRun.spaced
    (hRun : TickRun svc times choices w sub count logs)
    (hFits : ScheduleFits svc)
    {j failures : Nat}
    (hLess : j < count)
    (hFailed :
      triesOf sub.id (logs (j + 1)).past =
        (j, false) :: triesOf sub.id (logs j).past)
    (hCount :
      failuresInARow sub.failedRenewalAttempts.toNat
        (triesOf sub.id (logs (j + 1)).past) = failures)
    (hSome : retryHours svc ≠ [])
    (hSpare : failures < mostFailures svc) :
    ∃ hours, (retryHours svc)[failures - 1]? = some hours ∧
      (∀ m, j < m → m < count →
        times m < times j + Duration.hours hours.toNat →
        triesOf sub.id (logs (m + 1)).past =
          triesOf sub.id (logs (j + 1)).past) ∧
      ∀ m, j < m → m < count →
        times j + Duration.hours hours.toNat ≤ times m →
        (∀ i, j < i → i < m →
          times i < times j + Duration.hours hours.toNat) →
        ∃ ok, triesOf sub.id (logs (m + 1)).past =
          (m, ok) :: triesOf sub.id (logs (j + 1)).past := by
  have hRetries := hRun.retryRun hFits
  have hPos : 0 < failures := by
    rw [← hCount, hFailed]
    exact Nat.succ_pos _
  obtain ⟨hours, hEntry, hAgain⟩ :=
    hFits.again_eq (times j) hSome hPos hSpare
  obtain ⟨row, hBetween⟩ := hRun.between hFits hLess
  have hFailures :
      (standingIn sub (logs (j + 1))).failures = failures := by
    rw [standingIn_of_stored hBetween.stored,
      hBetween.counted.failures_eq, hCount]
  have hStillSpare :
      (standingIn sub (logs (j + 1))).failures <
        (dunningPolicy svc).most := by
    rw [hFailures]
    exact hSpare
  rw [← hFailures] at hAgain
  refine ⟨hours, hEntry, ?_, ?_⟩
  · intro m hLater hWithin hEarly
    exact hRetries.waits hRun.ordered hFailed hStillSpare hAgain
      hLater hWithin (not_le_of_gt hEarly)
  · intro m hLater hWithin hReached hFirst
    refine hRetries.retries hFailed hStillSpare hAgain hLater
      hWithin hReached fun i hFrom hUntil => ?_
    exact not_le_of_gt (hFirst i hFrom hUntil)

/-
  Ticks follow a schedule whose length is a proper count. The
  ones that are longer are cut off in the cast of the code.
-/
theorem ticks_follow_dunning
    (hRun : TickRun svc times choices w sub count logs)
    (hFits : ScheduleFits svc) :
    FollowsDunning svc times sub count logs where
  pastDue := by
    intro k hLe
    obtain ⟨row, hBetween⟩ := hRun.between hFits hLe
    have hCounted := hBetween.counted
    refine ⟨row, hBetween.stored, ?_, ?_⟩
    · rw [← hCounted.failures_eq]
      exact beq_iff_eq.symm.trans hCounted.givenUp_iff
    · rw [← hCounted.failures_eq]
      exact hCounted.le_most
  once := by
    intro k hLess
    obtain ⟨outcome, -, hTries⟩ := hRun.retryRun hFits k hLess
    exact ⟨outcome, hTries⟩
  charged := by
    intro k hLe
    obtain ⟨row, hBetween⟩ := hRun.between hFits hLe
    exact hBetween.charged
  spaced := by
    intro j hLess failures hFailed hCount hSome hSpare
    exact hRun.spaced hFits hLess hFailed hCount hSome hSpare
  renewed := by
    intro k hLess hTries
    obtain ⟨old, hBetween⟩ :=
      hRun.between hFits (Nat.le_of_lt hLess)
    obtain ⟨txn, hLive, hRow⟩ :=
      hRun.renewed hFits hLess hBetween hTries
    refine ⟨old, _, hBetween.stored, hRow, rfl,
      renewed_status hLive, ?_⟩
    intro later hUnit
    exact periodAdvance_of_unitAfter hUnit
  rests := by
    intro k m row hLe hWithin hStored hPastDue
    obtain ⟨kept, hBetween⟩ :=
      hRun.between hFits (Nat.le_trans hLe hWithin)
    cases hBetween.stored.symm.trans hStored
    obtain ⟨hLater, hTries⟩ :=
      hRun.rests hFits hBetween hPastDue hLe hWithin
    refine ⟨hLater.stored, hTries, ?_⟩
    rw [hLater.charged, hBetween.charged, hTries]

end Followed

/- A week of tea, charged by the engine at the week's end. -/
private def weeklyTea
    (payment : PaymentInstrument) : Subscription where
  id := "sub_tea"
  status := .trialing
  agentId := "bot"
  tenantId := "acme"
  mandateJti := none
  buyer := { email := some "a@b.example" }
  shipTo := none
  items := [⟨"tea", 1, none⟩]
  currency := "USD"
  cadence := .weekly
  currentPeriodStart := 0
  currentPeriodEnd := Duration.days 7
  nextChargeAt := Duration.days 7
  chargesCompleted := 0
  lastTransactionId := none
  paymentInstrument := some payment
  createdAt := 0
  updatedAt := 0
  canceledAt := none
  pausedAt := none
  failedRenewalAttempts := 0
  trialEnd := some (Duration.days 7)

/- A world with that subscription and no other. -/
private def teaWorld (payment : PaymentInstrument) : World :=
  { World.fresh (.memory ∅) [] with
    subscriptions := .insert .empty (weeklyTea payment) }

/- Two retries, after one hour and after two more. -/
private def twoRetries : IcpService :=
  { concreteService with
    config :=
      { concreteService.config with
        deploymentEnv := "production"
        subscriptionDunningScheduleHours := [1, 2] }
    hasEngine := true }

/-
  The charge of the first week succeeds, the next ones fail.
  The second tick finds nothing due, nor does the last one.
-/
private def teaChoices (k : Nat) : List Choice :=
  (sampleChoices k).map fun choice =>
    { choice with
      order := if k = 1 ∨ k = 5 then [] else ["sub_tea"]
      engine :=
        if k = 0 then .ok ("ord", "1") else .error "declined" }

private def teaTimes (k : Nat) : DateTime :=
  Duration.days 7 + Duration.hours (k * 84)

private def cardTea : Subscription :=
  weeklyTea (.card (some "tok") none none)

private def cardWorld : World :=
  teaWorld (.card (some "tok") none none)

private def teaLogs (k : Nat) : Log :=
  (runInTurn twoRetries
    (fun k => .tickSubscriptions (teaTimes k)) teaChoices
    cardWorld k).getD (.start cardWorld)

private theorem monotone_teaTimes : Monotone teaTimes := by
  intro earlier later hLe
  refine Int.add_le_add_left ?_ _
  rw [Duration.hours, Duration.hours, Duration.seconds,
    Duration.seconds]
  omega

private theorem teaRun :
    TickRun twoRetries teaTimes teaChoices cardWorld cardTea 6
      teaLogs where
  stored := by decide
  live := .inr rfl
  spare := by decide
  ordered := monotone_teaTimes
  faultless := by decide
  ran := by
    have hRan :
        ((List.range 7).all fun k =>
          (runInTurn twoRetries
            (fun k => .tickSubscriptions (teaTimes k))
            teaChoices cardWorld k).isSome) = true := by
      decide
    intro k hLe
    have hSome :=
      List.all_eq_true.mp hRan k
        (List.mem_range.mpr (Nat.lt_succ_of_le hLe))
    obtain ⟨h, hTurns⟩ := Option.isSome_iff_exists.mp hSome
    rw [teaLogs, hTurns]
    rfl

/- One success, then three failures: the last ends it. -/
theorem ticks_follow_dunning_sample :
    triesOf "sub_tea" (teaLogs 6).past =
        [(4, false), (3, false), (2, false), (0, true)] ∧
      FollowsDunning twoRetries teaTimes cardTea 6 teaLogs := by
  have hFits : ScheduleFits twoRetries := by
    change 2 + 1 < UInt32.size
    decide
  refine ⟨?_, ticks_follow_dunning teaRun hFits⟩
  decide

/- A schedule of as many entries as a `u32` has values. -/
private def longService : IcpService :=
  { concreteService with
    config :=
      { concreteService.config with
        subscriptionDunningScheduleHours :=
          List.replicate UInt32.size 1 } }

/- A subscription that a peer pays for. -/
private def peerTea : Subscription :=
  weeklyTea (.a2a "did:web:p.example" none)

private def peerWorld : World :=
  teaWorld (.a2a "did:web:p.example" none)

private theorem length_longSchedule :
    (retryHours longService).length = UInt32.size :=
  List.length_replicate

private theorem longSchedule_not_empty :
    (retryHours longService).isEmpty = false := by
  rw [List.isEmpty_eq_false_iff_exists_mem]
  exact ⟨1, List.mem_replicate.mpr ⟨by decide, rfl⟩⟩

private theorem longService_mostFailures :
    mostFailures longService = UInt32.size + 1 := by
  rw [mostFailures, longSchedule_not_empty, length_longSchedule]
  exact if_neg Bool.false_ne_true

private theorem longService_dunningMaxAttempts :
    dunningMaxAttempts longService = 1 := by
  rw [dunningMaxAttempts, longSchedule_not_empty,
    length_longSchedule]
  decide

/- The tick lists it, and draws two tokens. -/
private def peerChoices : List Choice :=
  [{ order := ["sub_tea"] }, {}, { token := "a" }, {},
    { token := "b" }, {}, {}, {}]

/- The charge of a subscription that a peer pays for. -/
theorem attempt_schedulerCharge_of_a2a
    {svc : IcpService}
    {sub : Subscription}
    (hPeer : isA2a sub.paymentInstrument = true) :
    Svc.attempt (schedulerCharge svc sub) =
      Svc.act .uuid >>= fun _ =>
        pure (.error (.preconditionFailed
          "A2A payment instruments cannot be auto-renewed")) := by
  unfold schedulerCharge
  rw [hPeer]
  rfl

private theorem longTick_ends :
    Svc.Succeeds longService.deps.rfc3339 0 peerChoices
      (.start peerWorld)
      (tickSubscriptions longService (Duration.days 7)) := by
  unfold tickSubscriptions
  refine Svc.succeeds_act_bind.mpr
    ⟨[peerTea], _, rfl, ?_⟩
  refine Svc.succeeds_act_bind.mpr ⟨1, _, rfl, ?_⟩
  unfold renewEach
  rw [attempt_schedulerCharge_of_a2a rfl]
  refine Svc.succeeds_act_bind.mpr ⟨"a", _, rfl, ?_⟩
  unfold recordFailed
  rw [longService_dunningMaxAttempts]
  refine Svc.succeeds_act_bind.mpr ⟨_, _, rfl, ?_⟩
  refine Svc.succeeds_act_bind.mpr ⟨"b", _, rfl, ?_⟩
  refine Svc.succeeds_act_bind.mpr ⟨_, _, rfl, ?_⟩
  refine Svc.succeeds_act_bind.mpr ⟨_, _, rfl, ?_⟩
  refine Svc.succeeds_act_bind.mpr ⟨_, _, rfl, ?_⟩
  exact Svc.succeeds_pure _

private theorem peerTea_stored :
    peerWorld.subscriptions.get peerTea.id = some peerTea := by
  decide

/- The first failure already ends the renewals. -/
private theorem longTick_ends_pastDue
    {later : Log}
    {rest : List Choice}
    {result : OpResult}
    (hEval :
      ((Op.tickSubscriptions (Duration.days 7)).prog
          longService).eval
        (machine longService.deps.rfc3339) 0 peerChoices
        (.start peerWorld) = some (result, later, rest)) :
    ∃ row,
      attemptsOf peerTea.id later = ⟨some row, [(0, false)]⟩ ∧
        row.status = .pastDue := by
  obtain ⟨_, -, outcome, next, hAttempted, hAfter⟩ :=
    attempted_of_tick (by decide) peerTea_stored hEval
  cases hAttempted with
  | passed hNotDue =>
      have hDue :
          Record.isDue (Duration.days 7) peerTea = true := by
        decide
      rw [hDue] at hNotDue
      cases hNotDue
  | tried hDue ok row hTried =>
      cases hTried with
      | renewed txn hAuto => cases hAuto
      | failed =>
          refine ⟨_, hAfter, ?_⟩
          rw [failed_status, longService_dunningMaxAttempts]
          exact if_pos (by decide)

/-
  The cast of the length to `u32` makes this schedule one of no
  entry: its subscription is past due after one failure.
-/
theorem long_schedule_ends_at_once :
    ¬ ∀ (svc : IcpService)
        (times : Nat → DateTime)
        (choices : Nat → List Choice)
        (w : World)
        (sub : Subscription)
        (count : Nat)
        (logs : Nat → Log),
        TickRun svc times choices w sub count logs →
          FollowsDunning svc times sub count logs := by
  intro hAll
  obtain ⟨report, ⟨later, rest⟩, hTick⟩ := longTick_ends
  have hEval :
      ((Op.tickSubscriptions (Duration.days 7)).prog
          longService).eval
        (machine longService.deps.rfc3339) 0 peerChoices
        (.start peerWorld) =
          some (.renewals (.ok report), later, rest) := by
    rw [Op.prog, Prog.eval_bind,
      show Prog.eval _ _ _ _ _ = _ from hTick]
    rfl
  let logs : Nat → Log := fun k =>
    if k = 0 then .start peerWorld else later
  have hRun :
      TickRun longService (fun _ => Duration.days 7)
        (fun _ => peerChoices) peerWorld peerTea 1 logs := by
    refine ⟨peerTea_stored, .inr rfl, mostFailures_pos,
      monotone_const, fun _ _ => by decide, fun k hLe => ?_⟩
    cases k with
    | zero => rfl
    | succ k =>
        cases Nat.le_zero.mp (Nat.le_of_succ_le_succ hLe)
        rw [runInTurn, turns, turns, Option.bind_some, hEval]
        rfl
  obtain ⟨stored, hStored, hPastDue, -⟩ :=
    (hAll _ _ _ _ _ _ _ hRun).pastDue 1 (Nat.le_refl 1)
  obtain ⟨row, hAfter, hStatus⟩ := longTick_ends_pastDue hEval
  have hRow : later.world.subscriptions.get peerTea.id = some row :=
    congrArg Attempts.row hAfter
  have hTries : triesOf peerTea.id later.past = [(0, false)] :=
    congrArg Attempts.tries hAfter
  cases hRow.symm.trans hStored
  have hLast := hPastDue.mp hStatus
  change failuresInARow _ (triesOf peerTea.id later.past) = _
    at hLast
  rw [hTries, longService_mostFailures] at hLast
  exact absurd hLast (by decide)

end Protocol

end IcpHandler
