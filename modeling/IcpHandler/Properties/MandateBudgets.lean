import IcpHandler.Concurrency.Tallies
import IcpHandler.Properties.LedgerBudget
import IcpHandler.Properties.MandatedCharges

/-
  A mandate's budget caps what is charged under it. Each
  intent charges no more than it has reserved, the ledger adds
  up what all of them reserve, and it accepts no more than the
  budget.

  Main declarations:
    * `presentedMandate`, `chargeWeight`, `spendWeight`
    * `chargedUnder`, `reservedUnder`
    * `OneWindow`, `BudgetKept`
    * `charges_within_budget`
-/

------------------------------------------------------------
-- What Intents Charge and Reserve
------------------------------------------------------------

namespace IcpHandler

namespace Protocol

open Model Service Concurrency

/- The mandate that an intent is checked by, as it decodes. -/
def presentedMandate
    (svc : IcpService)
    (input : IntentInput) : Option MandatePayload :=
  if input.skipMandateCheck then none
  else do
    let jws ← input.mandateJws
    let segments ← (splitCompact jws).toOption
    let bytes ← svc.deps.base64Decode segments.2.1
    (svc.deps.mandatePayload bytes).toOption

theorem presentedMandate_eq
    {svc : IcpService}
    {input : IntentInput}
    {jws header segment signature : String}
    {bytes : List UInt8}
    {payload : MandatePayload}
    (hSkip : input.skipMandateCheck = false)
    (hJws : input.mandateJws = some jws)
    (hSplit :
      splitCompact jws = .ok (header, segment, signature))
    (hBytes : svc.deps.base64Decode segment = some bytes)
    (hPayload : svc.deps.mandatePayload bytes = .ok payload) :
    presentedMandate svc input = some payload := by
  simp [presentedMandate, hSkip, hJws, hSplit, hBytes, hPayload,
    Except.toOption]

/- The mandate of an operation. The ticks have none. -/
def opMandate
    (svc : IcpService) : Op → Option MandatePayload
  | .intent input => presentedMandate svc input
  | _ => none

/- What a move charges under a mandate. -/
def chargeWeight
    (svc : IcpService)
    (op : Op)
    (jti : String)
    (past : Moves)
    (move : Move Eff.Res) : Nat :=
  if bills move.effect = true ∧
      (opMandate svc op).map MandatePayload.jti = some jti
  then ((charged past move.effect).getD 0).toInt.toNat
  else 0

/- What a move reserves under a mandate. -/
def spendWeight
    (jti : String) : Move Eff.Res → Nat
  | ⟨.recordSpend other _ amount _ _, .ok ()⟩ =>
      if other = jti then amount.toInt.toNat else 0
  | _ => 0

/- All that has been charged under a mandate. -/
def chargedUnder
    (svc : IcpService)
    (ops : Nat → Op)
    (jti : String)
    (past : Past) : Nat :=
  tally
    (fun thread => chargeWeight svc (ops thread) jti) past

/- All that has been reserved under a mandate. -/
def reservedUnder
    (jti : String)
    (past : Past) : Nat :=
  tally (fun _ _ move => spendWeight jti move) past

section Weights

variable {svc : IcpService}
variable {ops : Nat → Op}
variable {w : World}
variable {h : History Eff.Res World}
variable {input : IntentInput}
variable {intent : Intent}
variable {ev : MandateEvaluation}
variable {jti : String}
variable {past : Moves}

/- The mandate that is approved is the one presented. -/
theorem Approved.presentedMandate_eq
    (hApproved : Approved svc input intent ev past)
    (hChecked : input.skipMandateCheck = false) :
    presentedMandate svc input = some ev.payload := by
  obtain ⟨segments, hSegments, ⟨bytes, hBytes, hPayload⟩, -⟩ :=
    hApproved.decoded
  unfold presentedMandate
  rw [hChecked, hApproved.presented]
  simp [hSegments, hBytes, hPayload, Except.toOption]

/- Whoever has charged nothing has a total of zero. -/
theorem Unbooked.chargeWeight_eq
    {op : Op}
    (hUnbooked : Unbooked past) :
    ownTally (chargeWeight svc op jti) past = 0 := by
  apply ownTally_eq_zero
  intro earlier move hMove
  unfold chargeWeight
  rw [if_neg]
  rintro ⟨hBills, -⟩
  rw [hUnbooked move hMove] at hBills
  cases hBills

/- A charge under a mandate has been reserved under it. -/
theorem Backing.reserved
    {amount : Int64}
    (hBacking : Backing svc input past amount)
    (hMandate :
      (presentedMandate svc input).map MandatePayload.jti =
        some jti) :
    amount.toInt.toNat ≤
      ownTally (fun _ move => spendWeight jti move) past := by
  have hChecked : input.skipMandateCheck = false := by
    rw [Bool.eq_false_iff]
    intro hSkip
    unfold presentedMandate at hMandate
    rw [if_pos hSkip] at hMandate
    cases hMandate
  rcases hBacking.mandate with (hSkip | ⟨hNone, -⟩) |
    ⟨intent, ev, -, hApproved, hReserved⟩
  · rw [hSkip] at hChecked
    cases hChecked
  · unfold presentedMandate at hMandate
    rw [hChecked, hNone] at hMandate
    cases hMandate
  · rw [hApproved.presentedMandate_eq hChecked] at hMandate
    cases hMandate
    by_cases hPositive : 0 < amount
    · obtain ⟨now, period, -, hMem⟩ := hReserved hPositive
      apply le_ownTally ?_ hMem
      intro earlier
      exact if_pos rfl
    · have hAmount := Int64.not_lt.mp hPositive
      rw [Int64.le_iff_toInt_le] at hAmount
      have hZero : (0 : Int64).toInt = 0 := by decide
      omega

/- What an operation may charge next is reserved already. -/
theorem ChargeRule.own_within
    {op : Op}
    {move : Move Eff.Res}
    (hRule : ChargeRule svc op past move.effect)
    (hCharges :
      bills move.effect = true ∧
        (opMandate svc op).map MandatePayload.jti = some jti) :
    chargeWeight svc op jti past move +
        ownTally (chargeWeight svc op jti) past ≤
      ownTally (fun _ move => spendWeight jti move) past := by
  cases op with
  | intent input =>
      obtain ⟨intent, mandate, hIntent, hMandated, hBill⟩ :=
        hRule.billed (.inl hCharges.1)
      obtain ⟨amount, hCharged, hBacking⟩ :=
        (hBill.books hCharges.1).backing hIntent hMandated
      rw [hBacking.first.chargeWeight_eq, Nat.add_zero]
      unfold chargeWeight
      rw [if_pos hCharges, hCharged]
      exact hBacking.reserved hCharges.2
  | tickSubscriptions now => cases hCharges.2
  | tickExpiries now => cases hCharges.2

/-
  A thread's charges are within its reservations. It charges
  once, when it has not charged before.
-/
theorem ChargeRun.own_within
    (hRun : ChargeRun svc ops w h)
    (thread : Nat) :
    ownTally (chargeWeight svc (ops thread) jti)
        (own thread h.past) ≤
      ownTally (fun _ move => spendWeight jti move)
        (own thread h.past) := by
  induction hRun with
  | start => exact Nat.le_refl 0
  | @push h o hBefore hAllows hRule ih =>
      rw [History.push_past, ownTally_cons, ownTally_cons]
      by_cases hThread : o.thread = thread
      · subst hThread
        rw [if_pos rfl, if_pos rfl]
        by_cases hCharges :
            bills o.move.effect = true ∧
              (opMandate svc (ops o.thread)).map
                MandatePayload.jti = some jti
        · have hNow :=
            ChargeRule.own_within hRule.2 hCharges
          exact hNow.trans (Nat.le_add_left _ _)
        · have hFree :
              chargeWeight svc (ops o.thread) jti
                (own o.thread h.past) o.move = 0 :=
            if_neg hCharges
          rw [hFree, Nat.zero_add]
          exact ih.trans (Nat.le_add_left _ _)
      · rw [if_neg hThread, if_neg hThread, Nat.zero_add,
          Nat.zero_add]
        exact ih

/- All charges under a mandate are within its reservations. -/
theorem ChargeRun.charged_le_reserved
    (hRun : ChargeRun svc ops w h)
    (jti : String) :
    chargedUnder svc ops jti h.past ≤
      reservedUnder jti h.past :=
  tally_le hRun.own_within

end Weights

end Protocol

end IcpHandler

------------------------------------------------------------
-- The Ledger's Side
------------------------------------------------------------

namespace IcpHandler

namespace Protocol

open Model Service Concurrency

/-
  The spends under a mandate are dated within one window of
  its budget, at instants that the ledger can store.
-/
def OneWindow
    (rfc3339 : Rfc3339)
    (jti : String)
    (first : DateTime)
    (past : Past) : Prop :=
  ∀ o ∈ past, ∀ tenantId amount now limits,
    o.effect = .recordSpend jti tenantId amount now limits →
    rfc3339.Valid now ∧ first ≤ now ∧
      now ≤ first + limits.window

/-
  The ledger's sum is what has been reserved in the window,
  and it is within the budget.
-/
structure BudgetKept
    (rfc3339 : Rfc3339)
    (limits : MandateSpendLimits)
    (first : DateTime)
    (usage : MandateUsage)
    (reserved : Nat) : Prop where
  started :
    ∀ start, usage.windowStart = some start →
      rfc3339.Valid start ∧ first ≤ start
  unstarted :
    usage.windowStart = none → reserved = 0
  exact : usage.spentMinor.toInt = reserved
  within :
    reserved ≠ 0 → (reserved : Int) ≤ limits.budgetMinor.toInt

section Ledger

variable {rfc3339 : Rfc3339}
variable {jti tenantId : String}
variable {limits : MandateSpendLimits}
variable {first now : DateTime}
variable {amount : Int64}
variable {fault : Bool}
variable {ledger ledger' : MandateLedger}
variable {result : Except ApiError Unit}
variable {reserved : Nat}
variable {usage usage' : MandateUsage}

theorem budgetKept_toWindow
    (hSame : usage'.toWindow = usage.toWindow)
    (hKept : BudgetKept rfc3339 limits first usage reserved) :
    BudgetKept rfc3339 limits first usage' reserved := by
  have hStart : usage'.windowStart = usage.windowStart :=
    congrArg Data.FixedWindow.Window.start hSame
  have hSpent :
      usage'.spentMinor.toInt = usage.spentMinor.toInt :=
    congrArg Data.FixedWindow.Window.spent hSame
  constructor
  · rw [hStart]
    exact hKept.started
  · rw [hStart]
    exact hKept.unstarted
  · rw [hSpent]
    exact hKept.exact
  · exact hKept.within

/- A window that is not over is not rolled over. -/
theorem budgetKept_roll
    (hKept :
      BudgetKept rfc3339 limits first usage reserved)
    (hValid : rfc3339.Valid now)
    (hFirst : first ≤ now)
    (hLast : now ≤ first + limits.window) :
    BudgetKept rfc3339 limits first
        (usage.rollWindow now limits.window) reserved ∧
      (usage.rollWindow now limits.window).windowStart ≠
        none := by
  rcases usage.rollWindow_cases now limits.window with
    ⟨hLapsed, hStart, hSpent⟩ | ⟨⟨start, hStart, -⟩, hSame⟩
  · have hNone : usage.windowStart = none := by
      cases hOpen : usage.windowStart with
      | none => rfl
      | some start =>
          have hAfter := hLapsed start hOpen
          have hBegan := (hKept.started start hOpen).2
          have hWindow :
              first + limits.window ≤ start + limits.window :=
            add_le_add_left hBegan limits.window
          exact absurd (hLast.trans hWindow)
            (not_le.mpr hAfter)
    have hZero : reserved = 0 := hKept.unstarted hNone
    subst hZero
    refine ⟨⟨?_, ?_, ?_, fun hNot => absurd rfl hNot⟩, ?_⟩
    · intro start hSome
      rw [hStart] at hSome
      cases hSome
      exact ⟨hValid, hFirst⟩
    · exact fun _ => rfl
    · rw [hSpent]
      rfl
    · rw [hStart]
      exact Option.some_ne_none now
  · rw [hSame]
    refine ⟨hKept, ?_⟩
    rw [hStart]
    exact Option.some_ne_none start

/- An accepted amount is added, and still within the budget. -/
theorem budgetKept_addSpend
    (hKept :
      BudgetKept rfc3339 limits first usage reserved)
    (hStart : usage.windowStart ≠ none)
    (hBudget : 0 ≤ limits.budgetMinor)
    (hPositive : 0 < amount)
    (hFits : amount ≤ usage.remaining limits.budgetMinor) :
    BudgetKept rfc3339 limits first (usage.addSpend amount)
      (amount.toInt.toNat + reserved) := by
  have hBudgetInt : 0 ≤ limits.budgetMinor.toInt :=
    Int64.le_iff_toInt_le.mp hBudget
  have hSpent : 0 ≤ usage.spentMinor.toInt := by
    rw [hKept.exact]
    exact Int.natCast_nonneg reserved
  have hAmount : 0 < amount.toInt :=
    Int64.lt_iff_toInt_lt.mp hPositive
  have hRoom := Int64.le_iff_toInt_le.mp hFits
  rw [MandateUsage.remaining,
    Saturating.toInt_satSub_of_nonneg hBudgetInt hSpent,
    hKept.exact] at hRoom
  have hMin : Int64.minValue.toInt = -(2 ^ 63) := by decide
  have hMax := Saturating.toInt_le_maxValue limits.budgetMinor
  have hExact := hKept.exact
  have hSum :
      (Saturating.satAdd usage.spentMinor amount).toInt =
        usage.spentMinor.toInt + amount.toInt :=
    Saturating.toInt_satAdd (by omega) (by omega)
  constructor
  · exact hKept.started
  · exact fun hNone => absurd hNone hStart
  · change (Saturating.satAdd usage.spentMinor amount).toInt = _
    rw [hSum]
    omega
  · intro _
    omega

/- A spend under the mandate keeps the budget. -/
theorem budgetKept_spend
    (hKept :
      BudgetKept rfc3339 limits first
        (ledger.usage rfc3339 jti) reserved)
    (hValid : rfc3339.Valid now)
    (hFirst : first ≤ now)
    (hLast : now ≤ first + limits.window)
    (hCall :
      ledger.tryRecordSpendChecked rfc3339 fault jti tenantId
          amount now limits = (result, ledger')) :
    BudgetKept rfc3339 limits first
      (ledger'.usage rfc3339 jti)
      (spendWeight jti
          ⟨.recordSpend jti tenantId amount now limits,
            result⟩ + reserved) := by
  have hStored :
      ∀ start,
        (ledger.usage rfc3339 jti).windowStart = some start →
          rfc3339.Valid start :=
    fun start hStart => (hKept.started start hStart).1
  obtain ⟨hRolled, hOpen⟩ :=
    budgetKept_roll hKept hValid hFirst hLast
  rcases MandateLedger.tryRecordSpendChecked_cases hValid
      hStored hCall with
    ⟨hZero, rfl, rfl⟩ | ⟨-, ⟨error, rfl⟩, hSame⟩ |
      ⟨hPositive, rfl, hBudget, -, hFits, hAfter⟩
  · -- no amount is reserved, and nothing happens
    have hNothing :
        spendWeight jti
          ⟨.recordSpend jti tenantId amount now limits,
            .ok ()⟩ = 0 := by
      rw [Int64.le_iff_toInt_le] at hZero
      have hZeroInt : (0 : Int64).toInt = 0 := by decide
      exact (if_pos rfl).trans (by omega)
    rw [hNothing, Nat.zero_add]
    exact hKept
  · rw [show spendWeight jti
      ⟨.recordSpend jti tenantId amount now limits,
        .error error⟩ = 0 from rfl, Nat.zero_add]
    rcases hSame with rfl | hEntry
    · exact hKept
    · exact budgetKept_toWindow hEntry hRolled
  · rw [show spendWeight jti
      ⟨.recordSpend jti tenantId amount now limits,
        .ok ()⟩ = amount.toInt.toNat from if_pos rfl]
    exact budgetKept_toWindow hAfter
      (budgetKept_addSpend hRolled hOpen hBudget hPositive
        hFits)

end Ledger

end Protocol

end IcpHandler

------------------------------------------------------------
-- Budgets of a Run
------------------------------------------------------------

namespace IcpHandler

namespace Protocol

open Model Service Concurrency

section Budgets

variable {svc : IcpService}
variable {ops : Nat → Op}
variable {w : World}
variable {h : History Eff.Res World}
variable {o : Happening}
variable {terms : MandatePayload}
variable {period : Option Duration}
variable {first : DateTime}

/- Only a spend changes the ledger. -/
theorem ledger_kept
    (hExec : Executes svc.deps.rfc3339 o)
    (hReserves : reserves o.effect = false) :
    o.after.ledger = o.before.ledger := by
  rcases o with ⟨thread, effect, answer, before, after⟩
  cases effect with
  | createOrder buyer currency lineItems total =>
      obtain ⟨choice, hExec⟩ := hExec
      unfold execEff at hExec
      dsimp only at hExec
      split at hExec
      · cases hExec
        rfl
      · cases hExec
        rfl
  | recordSpend jti tenantId amount now limits =>
      cases hReserves
  | _ => exact hExec.framed.ledger rfl

theorem spendWeight_eq_zero
    {move : Move Eff.Res}
    (jti : String)
    (hReserves : reserves move.effect = false) :
    spendWeight jti move = 0 := by
  rcases move with ⟨effect, answer⟩
  cases effect with
  | recordSpend other tenantId amount now limits =>
      cases hReserves
  | _ => rfl

/- What an intent reserves has the limits of its mandate. -/
theorem ChargeRule.limits_eq
    {input : IntentInput}
    {past : Moves}
    {jti tenantId : String}
    {amount : Int64}
    {now : DateTime}
    {limits : MandateSpendLimits}
    (hRule :
      ChargeRule svc (.intent input) past
        (.recordSpend jti tenantId amount now limits)) :
    ∃ payload period,
      presentedMandate svc input = some payload ∧
      payload.jti = jti ∧
      parsePeriod payload.icp.budget.period = .ok period ∧
      limits = limitsOf payload period := by
  obtain ⟨intent, mandate, -, hMandated, hBill⟩ :=
    hRule.billed (.inr (.inl rfl))
  obtain ⟨reserved, ev, period, hMandate, hPeriod, rfl, -, -,
    hLimits⟩ := hBill.reserve rfl
  obtain ⟨hChecked, hApproved⟩ :=
    hMandated.approved ev hMandate
  exact ⟨ev.payload, period,
    hApproved.presentedMandate_eq hChecked, rfl, hPeriod,
    hLimits⟩

/- One step keeps the budget of a mandate. -/
theorem budgetKept_step
    (hPeriod :
      parsePeriod terms.icp.budget.period = .ok period)
    (hTerms :
      ∀ payload,
        opMandate svc (ops o.thread) = some payload →
          payload.jti = terms.jti → payload = terms)
    (hWindow :
      ∀ tenantId amount now limits,
        o.effect =
            .recordSpend terms.jti tenantId amount now limits →
          svc.deps.rfc3339.Valid now ∧ first ≤ now ∧
            now ≤ first + limits.window)
    (hExec : Executes svc.deps.rfc3339 o)
    {past : Moves}
    (hRule : Rule svc (ops o.thread) past o.effect)
    (hCharge : ChargeRule svc (ops o.thread) past o.effect)
    {reserved : Nat}
    (hKept :
      BudgetKept svc.deps.rfc3339 (limitsOf terms period) first
        (o.before.ledger.usage svc.deps.rfc3339 terms.jti)
        reserved) :
    BudgetKept svc.deps.rfc3339 (limitsOf terms period) first
      (o.after.ledger.usage svc.deps.rfc3339 terms.jti)
      (spendWeight terms.jti o.move + reserved) := by
  cases hReserves : reserves o.effect with
  | false =>
      rw [ledger_kept hExec hReserves,
        spendWeight_eq_zero terms.jti hReserves, Nat.zero_add]
      exact hKept
  | true =>
      rcases o with ⟨thread, effect, answer, before, after⟩
      cases effect with
      | recordSpend jti tenantId amount now limits =>
          obtain ⟨choice, hExec⟩ := hExec
          dsimp only at hExec hKept hTerms hRule hCharge
          unfold execEff at hExec
          simp only [Option.some.injEq, Prod.mk.injEq] at hExec
          rcases hCall :
              before.ledger.tryRecordSpendChecked
                svc.deps.rfc3339 choice.fault jti tenantId
                amount now limits with
            ⟨result, ledger'⟩
          rw [hCall] at hExec
          obtain ⟨rfl, rfl⟩ := hExec
          by_cases hJti : jti = terms.jti
          · subst hJti
            obtain ⟨-, input, hOp, -⟩ := hRule
            rw [hOp] at hCharge hTerms
            obtain ⟨payload, other, hPresented, hSame, hOther,
              rfl⟩ := hCharge.limits_eq
            have hPayload := hTerms payload hPresented hSame
            subst hPayload
            rw [hPeriod] at hOther
            cases hOther
            obtain ⟨hValid, hFirst, hLast⟩ :=
              hWindow _ _ _ _ rfl
            exact budgetKept_spend hKept hValid hFirst hLast hCall
          · have hNothing :
                spendWeight terms.jti
                  ⟨.recordSpend jti tenantId amount now
                    limits, result⟩ = 0 := by
              cases result with
              | ok _ => exact if_neg hJti
              | error error => rfl
            have hUsage :=
              MandateLedger.usage_of_ne hCall (Ne.symm hJti)
            rw [Occurrence.move, hNothing, Nat.zero_add]
            dsimp only
            rw [hUsage]
            exact hKept
      | _ => cases hReserves

/- By induction on the run. -/
theorem ChargeRun.budgetKept
    (hRun : ChargeRun svc ops w h)
    (hPeriod :
      parsePeriod terms.icp.budget.period = .ok period)
    (hTerms :
      ∀ thread payload,
        opMandate svc (ops thread) = some payload →
          payload.jti = terms.jti → payload = terms)
    (hNew : w.ledger.usage svc.deps.rfc3339 terms.jti = {})
    (hWindow :
      OneWindow svc.deps.rfc3339 terms.jti first h.past) :
    BudgetKept svc.deps.rfc3339 (limitsOf terms period) first
      (h.world.ledger.usage svc.deps.rfc3339 terms.jti)
      (reservedUnder terms.jti h.past) := by
  induction hRun with
  | start =>
      rw [History.start_world, hNew]
      constructor
      · intro start hStart
        cases hStart
      · exact fun _ => rfl
      · rfl
      · exact fun hNot => absurd rfl hNot
  | @push h o hBefore hAllows hRule ih =>
      rw [History.push_past] at hWindow
      have hKept := ih fun other hOther =>
        hWindow other (List.mem_cons_of_mem _ hOther)
      rw [← hAllows.before_eq] at hKept
      exact budgetKept_step hPeriod (hTerms o.thread)
        (hWindow o List.mem_cons_self)
        (executes_of_allows hAllows) hRule.1 hRule.2 hKept

end Budgets

/- The sample handler only reads the sample mandate. -/
theorem opMandate_sample
    {op : Op}
    {payload : MandatePayload}
    (hPayload : opMandate chargeService op = some payload) :
    payload = sampleMandate := by
  have hRead :
      ∀ bytes,
        (chargeService.deps.mandatePayload bytes).toOption =
            some payload →
          payload = sampleMandate := by
    intro bytes hRead
    simp only [chargeService, mandateService] at hRead
    split at hRead
    · exact (Option.some.inj hRead).symm
    · cases hRead
  cases op with
  | intent input =>
      change presentedMandate chargeService input =
        some payload at hPayload
      unfold presentedMandate at hPayload
      by_cases hSkip : input.skipMandateCheck = true
      · rw [if_pos hSkip] at hPayload
        cases hPayload
      · rw [if_neg hSkip] at hPayload
        simp only [Option.bind_eq_bind,
          Option.bind_eq_some_iff] at hPayload
        obtain ⟨jws, -, segments, -, bytes, -, hBytes⟩ :=
          hPayload
        exact hRead bytes hBytes
  | tickSubscriptions now => cases hPayload
  | tickExpiries now => cases hPayload

/- The purchase presents the sample mandate. -/
theorem opMandate_mandatedPurchase :
    opMandate chargeService (.intent mandatedPurchase) =
      some sampleMandate :=
  presentedMandate_eq rfl rfl splitCompact_sample
    chargeService_bytes chargeService_payload

/- What has been charged at the end of the sale. -/
theorem chargedUnder_mandatedSale
    {o : Happening}
    {older : Past}
    (hThread : o.thread = 1)
    (hBills : bills o.effect = true)
    (hCharged : charged (own 1 older) o.effect = some 43)
    (hOlder : ∀ earlier ∈ older, bills earlier.effect = false) :
    chargedUnder chargeService mandatedSale "m1" (o :: older) =
      43 := by
  have hNone :
      chargedUnder chargeService mandatedSale "m1" older =
        0 := by
    apply tally_eq_zero
    intro earlier hEarlier past
    rw [chargeWeight, if_neg]
    rintro ⟨hOther, -⟩
    rw [Occurrence.move, hOlder earlier hEarlier] at hOther
    cases hOther
  have hMandate :
      (opMandate chargeService (mandatedSale o.thread)).map
        MandatePayload.jti = some "m1" := by
    rw [hThread]
    change (opMandate chargeService
      (.intent mandatedPurchase)).map _ = _
    rw [opMandate_mandatedPurchase]
    rfl
  rw [chargedUnder] at hNone ⊢
  rw [tally, hNone, chargeWeight,
    if_pos ⟨hBills, hMandate⟩, hThread]
  change ((charged (own 1 older) o.effect).getD 0).toInt.toNat +
    0 = 43
  rw [hCharged]
  rfl

end Protocol

end IcpHandler
