import IcpHandler.Model.RequestItems
import IcpHandler.Properties.ExactPricing
import IcpHandler.Properties.LedgerBudget
import IcpHandler.Properties.SubscriptionRows

/-
  The balance of a subscription: what has been spent under
  its mandate against what has been charged. A trial reserves
  its first charge ahead; a renewal reserves its own charge,
  also while the trial's is still pending.

  Main declarations:
    * `spentUnder`, `chargedMinor`, `pendingMinor`, `Backed`
    * `spentUnder_le`
    * `backed_renewed`, `backed_ticked`
    * `BillingRun`, `DoublyReserved`
    * `reservations_backed`
-/

------------------------------------------------------------
-- One Spend
------------------------------------------------------------

namespace IcpHandler

namespace Model

namespace MandateLedger

variable {rfc3339 : Rfc3339} {fault : Bool}
variable {jti tenantId : String} {amountMinor : Int64}
variable {now : DateTime} {limits : MandateSpendLimits}
variable {ledger ledger' : MandateLedger}
variable {result : Except ApiError Unit}

/- What is spent under a mandate in its present window. -/
def spentUnder
    (rfc3339 : Rfc3339)
    (jti : String)
    (ledger : MandateLedger) : Int :=
  (ledger.usage rfc3339 jti).spentMinor.toInt

/- What a window starts from is what was spent, or nothing. -/
theorem rollWindow_spent_le
    (usage : MandateUsage)
    (now : DateTime)
    (window : Duration)
    (hSpent : 0 ≤ usage.spentMinor.toInt) :
    0 ≤ (usage.rollWindow now window).spentMinor.toInt ∧
      (usage.rollWindow now window).spentMinor.toInt ≤
        usage.spentMinor.toInt := by
  rcases usage.rollWindow_cases now window with
    ⟨-, -, hNone⟩ | ⟨-, hSame⟩
  · rw [hNone]
    exact ⟨Int.le_refl 0, hSpent⟩
  · rw [hSame]
    exact ⟨hSpent, Int.le_refl _⟩

/- A call moves what is spent by its amount at most. -/
theorem spentUnder_le
    (hCall :
      ledger.tryRecordSpendChecked rfc3339 fault jti tenantId
          amountMinor now limits = (result, ledger'))
    (hSpent : 0 ≤ ledger.spentUnder rfc3339 jti) :
    0 ≤ ledger'.spentUnder rfc3339 jti ∧
      ledger'.spentUnder rfc3339 jti ≤
        ledger.spentUnder rfc3339 jti +
          max 0 amountMinor.toInt := by
  have hSame :
      ledger' = ledger →
        0 ≤ ledger'.spentUnder rfc3339 jti ∧
          ledger'.spentUnder rfc3339 jti ≤
            ledger.spentUnder rfc3339 jti +
              max 0 amountMinor.toInt := by
    rintro rfl
    omega
  unfold tryRecordSpendChecked at hCall
  split at hCall
  · exact hSame (congrArg Prod.snd hCall).symm
  rename_i hAmount
  have hPositive : 0 < amountMinor.toInt :=
    Int64.lt_iff_toInt_lt.mp (Int64.not_le.mp hAmount)
  split at hCall
  · exact hSame (congrArg Prod.snd hCall).symm
  split at hCall
  · exact hSame (congrArg Prod.snd hCall).symm
  split at hCall
  · exact hSame (congrArg Prod.snd hCall).symm
  -- What both backends start from, and what they add up to.
  have hRolled := rollWindow_spent_le
    (ledger.usage rfc3339 jti) now limits.window hSpent
  rw [← MandateUsage.claimTenant_spentMinor _ tenantId]
    at hRolled
  generalize hEntry :
    ((ledger.usage rfc3339 jti).rollWindow now
      limits.window).claimTenant tenantId = entry
    at hCall hRolled
  have hAdded :
      (entry.addSpend amountMinor).spentMinor.toInt =
        Saturating.cap
          (entry.spentMinor.toInt + amountMinor.toInt) :=
    Saturating.toInt_satAdd_of_nonneg hRolled.1
      (Int.le_of_lt hPositive)
  have hNonneg :=
    Saturating.cap_nonneg (Int.add_nonneg hRolled.1
      (Int.le_of_lt hPositive))
  have hLe :=
    Saturating.cap_le
      (entry.spentMinor.toInt + amountMinor.toInt)
  have hBefore :
      ledger.spentUnder rfc3339 jti =
        (ledger.usage rfc3339 jti).spentMinor.toInt :=
    rfl
  cases ledger with
  | memory rows =>
      dsimp only at hCall
      split at hCall
      · cases hCall
        rw [spentUnder, usage_memory_insert]
        omega
      · cases hCall
        rw [spentUnder, usage_memory_insert, hAdded]
        omega
  | sqlite rows =>
      dsimp only at hCall
      split at hCall
      · exact hSame (congrArg Prod.snd hCall).symm
      · cases hCall
        rw [spentUnder, usage_sqlite_insert]
        change 0 ≤ (entry.addSpend amountMinor).spentMinor.toInt ∧
          (entry.addSpend amountMinor).spentMinor.toInt ≤ _
        omega

end MandateLedger

end Model

end IcpHandler

------------------------------------------------------------
-- The Balance of a Subscription
------------------------------------------------------------

namespace IcpHandler

namespace Protocol

open Model Service Concurrency

/- What the charges come to. -/
def chargedMinor (charges : List Transaction) : Int :=
  (charges.map fun txn =>
    (totalAmountMinor txn.totals).toInt).sum

/- The price of the first charge, while it is pending. -/
def pendingMinor (row : Option Subscription) : Int :=
  match row with
  | some sub =>
      if sub.status = .trialing then
        (chargeMinor sub.items sub.currency).toInt
      else 0
  | none => 0

/-
  What is spent under the mandate is backed by charges, and by
  the charge that a trial has reserved.
-/
structure Backed
    (rfc3339 : Rfc3339)
    (jti : String)
    (books : SubBooks) : Prop where
  spent_nonneg : 0 ≤ books.ledger.spentUnder rfc3339 jti
  spent_le :
    books.ledger.spentUnder rfc3339 jti ≤
      chargedMinor books.charges + pendingMinor books.row

section Balance

variable {rfc3339 : Rfc3339}
variable {before after : SubBooks}

theorem chargeMinor_nonneg
    (items : List RequestItem)
    (currency : String) :
    0 ≤ (chargeMinor items currency).toInt := by
  unfold chargeMinor
  split
  · rename_i priced hPriced
    obtain ⟨subtotal, tax, total, hExact, hNonneg⟩ :=
      pricedExactly_of_ok hPriced
    have hTotal : totalAmountMinor priced.2 = total := by
      rw [hExact.totals_eq]
      rfl
    rw [hTotal, hExact.total_eq]
    refine Saturating.cap_nonneg ?_
    have hTax := hExact.tax_eq
    omega
  · exact Int.le_refl 0

theorem pendingMinor_nonneg (row : Option Subscription) :
    0 ≤ pendingMinor row := by
  unfold pendingMinor
  split
  · split
    · exact chargeMinor_nonneg _ _
    · exact Int.le_refl 0
  · exact Int.le_refl 0

/- A spend, whatever mandate it is under. -/
theorem SpendsOn.spentUnder_le
    (jti : String)
    {mandate : Option MandateEvaluation}
    {amountMinor : Int64}
    {ledger ledger' : MandateLedger}
    (hSpends : SpendsOn rfc3339 mandate amountMinor ledger ledger')
    (hAmount : 0 ≤ amountMinor.toInt)
    (hSpent : 0 ≤ ledger.spentUnder rfc3339 jti) :
    0 ≤ ledger'.spentUnder rfc3339 jti ∧
      ledger'.spentUnder rfc3339 jti ≤
        ledger.spentUnder rfc3339 jti + amountMinor.toInt := by
  rcases hSpends with rfl |
    ⟨ev, fault, tenantId, now, limits, result, -, hCall⟩
  · omega
  · by_cases hJti : jti = ev.payload.jti
    · subst hJti
      have hLe := MandateLedger.spentUnder_le hCall hSpent
      omega
    · have hKept := MandateLedger.usage_of_ne hCall hJti
      have hSame :
          ledger'.spentUnder rfc3339 jti =
            ledger.spentUnder rfc3339 jti :=
        congrArg (fun usage => usage.spentMinor.toInt) hKept
      omega

end Balance

section Steps

variable {svc : IcpService} {jti id : String}
variable {input : IntentInput}
variable {mandate : Option MandateEvaluation}
variable {before after : SubBooks}

theorem chargedMinor_cons
    (txn : Transaction)
    (charges : List Transaction) :
    chargedMinor (txn :: charges) =
      (totalAmountMinor txn.totals).toInt +
        chargedMinor charges := by
  rw [chargedMinor, List.map_cons, List.sum_cons]
  rfl

/- Once it is out of its trial nothing is pending. -/
theorem pendingMinor_of_charged
    {sub : Subscription}
    (hStatus : sub.status ≠ .trialing) :
    pendingMinor (some sub) = 0 :=
  if_neg hStatus

/- An enrollment reserves what it charges, or what will be. -/
theorem backed_enrolled
    (hDone :
      SubscribeDone svc False input mandate id before after)
    (hCreated : after.row.isSome)
    (hRow : before.row = none)
    (hCharges : before.charges = [])
    (hUnspent :
      before.ledger.spentUnder svc.deps.rfc3339 jti = 0) :
    Backed svc.deps.rfc3339 jti after := by
  cases hDone with
  | other amount books hReserves =>
      have hUnbilled : Unbilled False before after :=
        hReserves.unbilled
      rw [hUnbilled.1, hRow] at hCreated
      cases hCreated
  | own sub row charges ledger hFree hSpends hEnrolled hStored =>
      obtain ⟨hNonneg, hLe⟩ :=
        hSpends.spentUnder_le jti (chargeMinor_nonneg _ _)
          (Int.le_of_eq hUnspent.symm)
      have hNew : row = some sub :=
        hStored.resolve_right fun hNo => hNo.1
      subst hNew
      refine ⟨hNonneg, ?_⟩
      dsimp only
      cases hEnrolled with
      | trial params currency now trialEnd hLater hSame =>
          rw [hSame, hCharges]
          change _ ≤ 0 +
            (chargeMinor params.items currency).toInt
          exact hUnspent ▸ hLe
      | charged params currency now charge hPrice hSame =>
          rw [hSame.resolve_left not_false, hCharges, chargedMinor_cons,
            hPrice, pendingMinor_of_charged
              SubscriptionStatus.noConfusion]
          change _ ≤
            (chargeMinor params.items currency).toInt + 0 + 0
          rw [Int.add_zero, Int.add_zero]
          rw [hUnspent, Int.zero_add] at hLe
          exact hLe

/-
  A renewal reserves what it charges. What was pending before
  is charged by no one.
-/
theorem backed_renewed
    (hDone :
      RenewDone svc False input mandate id before after)
    (hNamed :
      ∀ params,
        svc.deps.renewParams input.envelope.params =
            .ok params →
          params.subscriptionId = id)
    (hPending : pendingMinor before.row = 0)
    (hBacked : Backed svc.deps.rfc3339 jti before) :
    Backed svc.deps.rfc3339 jti after := by
  cases hDone with
  | other params hParams hOther amount books hReserves =>
      exact absurd (hNamed params hParams) hOther
  | own params hParams hOwn sub charge charges ledger payment now
      hRow hUncanceled hUnpaused hSpends hPrice hCharges =>
      obtain ⟨hNonneg, hLe⟩ :=
        hSpends.spentUnder_le jti (chargeMinor_nonneg _ _)
          hBacked.spent_nonneg
      refine ⟨hNonneg, ?_⟩
      have hBefore := hBacked.spent_le
      rw [hPending] at hBefore
      dsimp only
      rw [hCharges.resolve_left not_false, chargedMinor_cons, hPrice,
        pendingMinor_of_charged SubscriptionStatus.noConfusion]
      omega

/- A tick charges what was pending, or more. -/
theorem backed_ticked
    {now : DateTime}
    (hTicked : Ticked svc False now False before after)
    (hBacked : Backed svc.deps.rfc3339 jti before) :
    Backed svc.deps.rfc3339 jti after := by
  cases hTicked with
  | idle hIdle hSame =>
      rw [hSame]
      exact hBacked
  | billed sub hRow hDue hBilled =>
      cases hBilled with
      | failed hFailing hPatched => exact hFailing.elim
      | charged txn charges hPrice hCharges hPatched =>
          have hAfter := hPatched.resolve_right fun hNo => hNo.1
          subst hAfter
          refine ⟨hBacked.spent_nonneg, ?_⟩
          have hBefore := hBacked.spent_le
          have hPending :
              pendingMinor before.row ≤
                (chargeMinor sub.items sub.currency).toInt := by
            rw [hRow, pendingMinor]
            split
            · exact Int.le_refl _
            · exact chargeMinor_nonneg _ _
          have hNext :=
            pendingMinor_nonneg
              (before.row.map (renewedPatch svc sub txn now).apply)
          dsimp only
          rw [hCharges.resolve_left not_false, chargedMinor_cons, hPrice]
          exact Int.le_trans hBefore (by omega)

end Steps

end Protocol

end IcpHandler

------------------------------------------------------------
-- Runs of One Subscription
------------------------------------------------------------

namespace IcpHandler

namespace Protocol

open Model Service Concurrency

/-
  A sequential run that enrolls the subscription, and then
  renews it or ticks. All of it succeeds.
-/
structure BillingRun
    (svc : IcpService)
    (ops : Nat → Op)
    (choices : Nat → List Choice)
    (w : World)
    (id : String)
    (n : Nat) : Prop where
  fresh : w.subscriptions.get id = none
  enrolls :
    ∃ input, ops 0 = .intent input ∧
      Intent.parse input.envelope.intent = .ok .subscribe
  created :
    ∀ first, runInTurn svc ops choices w 1 = some first →
      (first.world.subscriptions.get id).isSome
  bills : ∀ k < n, k ≠ 0 → Bills svc id (ops k)
  succeeds :
    ∀ k < n, ∀ before result after rest,
      runInTurn svc ops choices w k = some before →
      ((ops k).prog svc).eval (machine svc.deps.rfc3339) k
          (choices k) before = some (result, after, rest) →
      succeeded result = true
  faultless : ∀ k < n, ¬ Faulty (choices k)

/- A renewal that finds the trial's reservation pending. -/
def DoublyReserves
    (svc : IcpService)
    (ops : Nat → Op)
    (choices : Nat → List Choice)
    (w : World)
    (id : String)
    (k : Nat) : Prop :=
  ∃ input before,
    ops k = .intent input ∧
      runInTurn svc ops choices w k = some before ∧
      0 < pendingMinor (before.world.subscriptions.get id)

section Runs

variable {svc : IcpService} {ops : Nat → Op}
variable {choices : Nat → List Choice} {w : World}
variable {id jti : String} {n : Nat}

/- The turn that enrolls the subscription. -/
theorem backed_first
    {before after : Log}
    {result : OpResult}
    {rest : List Choice}
    (hRun : BillingRun svc ops choices w id n)
    (hLess : 0 < n)
    (hUnspent : w.ledger.spentUnder svc.deps.rfc3339 jti = 0)
    (hBefore : runInTurn svc ops choices w 0 = some before)
    (hEval :
      ((ops 0).prog svc).eval (machine svc.deps.rfc3339) 0
        (choices 0) before = some (result, after, rest)) :
    Backed svc.deps.rfc3339 jti (booksOf id after) := by
  have hSucceeds :=
    hRun.succeeds 0 hLess before result after rest hBefore hEval
  have hCreated :
      (after.world.subscriptions.get id).isSome := by
    refine hRun.created after ?_
    rw [runInTurn] at hBefore
    rw [runInTurn, turns, hBefore, Option.bind_some, hEval]
    rfl
  cases hBefore
  obtain ⟨input, hOp, hIntent⟩ := hRun.enrolls
  have hOn : OnSubs (ops 0) := by
    rw [hOp]
    intro intent hParsed
    rw [hIntent] at hParsed
    cases hParsed
    rfl
  have hTurned := turned id hOn hEval
  rw [eq_false (hRun.faultless 0 hLess), hOp] at hTurned
  cases hTurned with
  | refused _ halt hUnbilled => cases hSucceeds
  | carried _ intent mandate result hParsed hCarried =>
      rw [hIntent] at hParsed
      cases hParsed
      exact backed_enrolled hCarried hCreated hRun.fresh rfl
        hUnspent

/- A later turn of the run, without a double reservation. -/
theorem backed_turn
    {k : Nat}
    {before after : Log}
    {result : OpResult}
    {rest : List Choice}
    (hRun : BillingRun svc ops choices w id n)
    (hLess : k < n)
    (hLater : k ≠ 0)
    (hOnce : ¬ DoublyReserves svc ops choices w id k)
    (hBefore : runInTurn svc ops choices w k = some before)
    (hEval :
      ((ops k).prog svc).eval (machine svc.deps.rfc3339) k
        (choices k) before = some (result, after, rest))
    (hBacked : Backed svc.deps.rfc3339 jti (booksOf id before)) :
    Backed svc.deps.rfc3339 jti (booksOf id after) := by
  have hBills := hRun.bills k hLess hLater
  have hSucceeds :=
    hRun.succeeds k hLess before result after rest hBefore hEval
  have hOn : OnSubs (ops k) := by
    cases hOp : ops k with
    | intent input =>
        rw [hOp] at hBills
        intro intent hIntent
        rw [hBills.1] at hIntent
        cases hIntent
        rfl
    | tickSubscriptions now => trivial
    | tickExpiries now =>
        rw [hOp] at hBills
        exact hBills
  have hTurned := turned id hOn hEval
  rw [eq_false (hRun.faultless k hLess)] at hTurned
  generalize hOp : ops k = op at hTurned hBills
  cases hTurned with
  | refused input halt hUnbilled => cases hSucceeds
  | brokenOff now halt hBroken => cases hSucceeds
  | carried input intent mandate result hIntent hCarried =>
      obtain ⟨hRenew, params, hParams, hNamed⟩ := hBills
      rw [hRenew] at hIntent
      cases hIntent
      refine backed_renewed hCarried ?_ ?_ hBacked
      · intro other hOther
        rw [hParams] at hOther
        cases hOther
        exact hNamed
      · by_contra hPending
        refine hOnce ⟨input, before, hOp, hBefore, ?_⟩
        have hNonneg := pendingMinor_nonneg
          (before.world.subscriptions.get id)
        change ¬ pendingMinor
          (before.world.subscriptions.get id) = 0 at hPending
        omega
  | ticked now report hTicked =>
      have hNone : report.failed = 0 := beq_iff_eq.mp hSucceeds
      rw [hNone, eq_false (Nat.lt_irrefl 0)] at hTicked
      exact backed_ticked hTicked hBacked

/-
  As long as no renewal finds the trial's reservation pending,
  what is spent under the mandate is backed by charges.
-/
theorem reservations_backed
    (svc : IcpService)
    (ops : Nat → Op)
    (choices : Nat → List Choice)
    (w : World)
    (id jti : String)
    (n : Nat)
    (h : Log)
    (hRun : BillingRun svc ops choices w id n)
    (hUnspent : w.ledger.spentUnder svc.deps.rfc3339 jti = 0)
    (hOnce :
      ∀ k < n, k ≠ 0 → ¬ DoublyReserves svc ops choices w id k)
    (hTurns : runInTurn svc ops choices w n = some h) :
    h.world.ledger.spentUnder svc.deps.rfc3339 jti ≤
      chargedMinor (completedCharges id h.past) +
        pendingMinor (h.world.subscriptions.get id) := by
  have hBacked :
      Backed svc.deps.rfc3339 jti (booksOf id h) := by
    refine turns_induct
      (P := fun h =>
        Backed svc.deps.rfc3339 jti (booksOf id h))
      hTurns ?_ ?_
    · refine ⟨Int.le_of_eq hUnspent.symm, ?_⟩
      change w.ledger.spentUnder svc.deps.rfc3339 jti ≤
        0 + pendingMinor (w.subscriptions.get id)
      rw [hUnspent, hRun.fresh]
      exact Int.le_refl 0
    intro k before result after rest hLess hBefore hEval hBacked
    by_cases hFirst : k = 0
    · subst hFirst
      exact backed_first hRun hLess hUnspent hBefore hEval
    · exact backed_turn hRun hLess hFirst
        (hOnce k hLess hFirst) hBefore hEval hBacked
  exact hBacked.spent_le

end Runs

/- The concrete service, for trials at a hinted price. -/
private def trialService : IcpService :=
  { mandateService with
    deps :=
      { mandateService.deps with
        subscribeParams := fun params =>
          match itemsOfParams params with
          | none => .error "missing field `items`"
          | some items => do
              pure
                { items := items
                  cadence := ← concreteCadence params
                  payment := ← concretePayment params
                  trialDays := concreteTrialDays params } } }

private theorem trialService_decodes :
    decodeUnverified trialService = fun other =>
      if other = sampleMandateJws then pure sampleMandate
      else decodeUnverified trialService other := by
  have hBytes :
      trialService.deps.base64Decode sampleMandateSegment =
        some sampleMandateBytes := by
    simp only [trialService, mandateService, if_true]
  have hPayload :
      trialService.deps.mandatePayload sampleMandateBytes =
        .ok sampleMandate := by
    simp only [trialService, mandateService, if_true]
  exact decodeUnverified_at splitCompact_sample hBytes hPayload

/- A weekly trial at a price of 40, and what follows it. -/
private def trialThen (next : Op) : Nat → Op
  | 0 =>
      .intent
        { sampleInput .subscribe
            [("items", .arr [.obj
                [("sku", .str "tea"), ("quantity", .int 1),
                  ("unit_price_hint", .obj
                    [("amount_minor", .int 40),
                      ("currency", .str "USD")])]]),
              ("cadence", .str "weekly"),
              ("trial_days", .int 7), samplePayment] none with
          mandateJws := some sampleMandateJws }
  | _ => next

/- Its renewal under the same mandate. -/
private def trialRenewal : IntentInput :=
  { sampleInput .renew
      [("subscription_id", .str "sub_f"), samplePayment]
      none with
    mandateJws := some sampleMandateJws }

/- The second turn can list the subscription. -/
private def trialChoices : Nat → List Choice
  | 1 => { order := ["sub_f"] } :: sampleChoices 1
  | n => sampleChoices n

/- The first two turns end well, and the first one enrolls. -/
private def trialChecks (ops : Nat → Op) : Bool :=
  ([0, 1].all fun k =>
    (runInTurn trialService ops trialChoices
      (.fresh (.memory ∅) []) k).all fun before =>
        (((ops k).prog trialService).eval
          (machine trialService.deps.rfc3339) k (trialChoices k)
          before).all fun ended => succeeded ended.1) &&
    (runInTurn trialService ops trialChoices
      (.fresh (.memory ∅) []) 1).all fun first =>
        (first.world.subscriptions.get "sub_f").isSome

private theorem trialChoices_faultless (k : Nat) :
    ¬ Faulty (trialChoices k) := by
  have hSample : ∀ n, ¬ Faulty (sampleChoices n) := by
    rintro n ⟨choice, hMem, hFault⟩
    obtain ⟨letter, -, rfl⟩ := List.mem_map.mp hMem
    cases hFault
  rintro ⟨choice, hMem, hFault⟩
  unfold trialChoices at hMem
  split at hMem
  · rcases List.mem_cons.mp hMem with rfl | hMem
    · cases hFault
    · exact hSample 1 ⟨choice, hMem, hFault⟩
  · exact hSample _ ⟨choice, hMem, hFault⟩

private theorem trialRun
    {next : Op}
    (hBills : Bills trialService "sub_f" next)
    (hChecks : trialChecks (trialThen next) = true) :
    BillingRun trialService (trialThen next) trialChoices
      (.fresh (.memory ∅) []) "sub_f" 2 := by
  rw [trialChecks, Bool.and_eq_true] at hChecks
  obtain ⟨hTurns, hFirst⟩ := hChecks
  refine
    { fresh := rfl
      enrolls := ⟨_, rfl, by decide⟩
      created := ?_
      bills := ?_
      succeeds := ?_
      faultless := fun k _ => trialChoices_faultless k }
  · intro first hRun
    rw [hRun] at hFirst
    exact hFirst
  · intro k _ hLater
    match k with
    | 0 => exact absurd rfl hLater
    | _ + 1 => exact hBills
  · intro k hLess before result after rest hRun hEval
    have hMem : k ∈ [0, 1] := by
      rw [List.mem_cons, List.mem_singleton]
      omega
    have hTurn := List.all_eq_true.mp hTurns k hMem
    rw [hRun, Option.all_some, hEval] at hTurn
    exact hTurn

/- A renewal in the trial reserves the first charge again. -/
theorem trial_renewal_unbacked :
    ¬ ∀ svc ops choices w id jti n h,
      BillingRun svc ops choices w id n →
      w.ledger.spentUnder svc.deps.rfc3339 jti = 0 →
      runInTurn svc ops choices w n = some h →
      h.world.ledger.spentUnder svc.deps.rfc3339 jti ≤
        chargedMinor (completedCharges id h.past) +
          pendingMinor (h.world.subscriptions.get id) := by
  intro hAll
  -- The checks of the run share one evaluation of it.
  have hTrial :
      (trialChecks (trialThen (.intent trialRenewal)) &&
        (runInTurn trialService
          (trialThen (.intent trialRenewal)) trialChoices
          (.fresh (.memory ∅) []) 2).any fun h =>
            decide (¬ h.world.ledger.spentUnder
                trialService.deps.rfc3339 "m1" ≤
              chargedMinor (completedCharges "sub_f" h.past) +
                pendingMinor
                  (h.world.subscriptions.get "sub_f"))) =
        true := by
    -- down to where the mandates are decoded
    delta trialChecks runInTurn Op.prog handleIntent
      mandateFor evaluate
    rw [trialService_decodes]
    decide +kernel
  obtain ⟨hChecks, hRun⟩ := Bool.and_eq_true_iff.mp hTrial
  obtain ⟨h, hTurns, hOver⟩ :=
    (Option.any_eq_true _ _).mp hRun
  have hBills :
      Bills trialService "sub_f" (.intent trialRenewal) :=
    ⟨by decide, _, rfl, rfl⟩
  exact of_decide_eq_true hOver
    (hAll trialService _ trialChoices _ "sub_f" "m1" 2 h
      (trialRun hBills hChecks)
      (by decide) hTurns)

/- A tick charges what the trial has reserved. -/
theorem reservations_backed_sample :
    ∃ h,
      runInTurn trialService
          (trialThen (.tickSubscriptions (Duration.days 7)))
          trialChoices (.fresh (.memory ∅) []) 2 = some h ∧
        0 < h.world.ledger.spentUnder
          trialService.deps.rfc3339 "m1" ∧
        h.world.ledger.spentUnder
            trialService.deps.rfc3339 "m1" ≤
          chargedMinor (completedCharges "sub_f" h.past) +
            pendingMinor (h.world.subscriptions.get "sub_f") := by
  have hTrial :
      (trialChecks
          (trialThen (.tickSubscriptions (Duration.days 7))) &&
        (runInTurn trialService
          (trialThen (.tickSubscriptions (Duration.days 7)))
          trialChoices (.fresh (.memory ∅) []) 2).any fun h =>
            decide (0 < h.world.ledger.spentUnder
              trialService.deps.rfc3339 "m1")) = true := by
    -- down to where the mandates are decoded
    delta trialChecks runInTurn Op.prog handleIntent
      mandateFor evaluate
    rw [trialService_decodes]
    decide +kernel
  obtain ⟨hChecks, hRun⟩ := Bool.and_eq_true_iff.mp hTrial
  obtain ⟨h, hTurns, hSpent⟩ :=
    (Option.any_eq_true _ _).mp hRun
  refine ⟨h, hTurns, of_decide_eq_true hSpent, ?_⟩
  have hBills :
      Bills trialService "sub_f"
        (.tickSubscriptions (Duration.days 7)) :=
    trivial
  refine reservations_backed trialService _ trialChoices _
    "sub_f" "m1" 2 h (trialRun hBills hChecks)
    (by decide) ?_ hTurns
  rintro k hLess hLater ⟨input, before, hOp, -⟩
  match k with
  | 0 => exact absurd rfl hLater
  | _ + 1 => cases hOp

end Protocol

end IcpHandler
