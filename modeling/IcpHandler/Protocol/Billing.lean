import IcpHandler.Protocol.PlainBlocks
import IcpHandler.Service.Dispatch

/-
  What an intent has done by the time it charges: it has
  reserved the amount under its mandate, if it has one, it
  has not charged before, and its payment is one the handler
  takes.

  Main declarations:
    * `charged`, `Covered`
    * `ExternallyAuthorized`, `paymentOf`
    * `BillRule`
    * `bills_dispatch`
-/

------------------------------------------------------------
-- Charges
------------------------------------------------------------

namespace IcpHandler

namespace Protocol

open Model Service Concurrency

/- The effects that book a payment. -/
def bills : Eff → Bool
  | .insertCharge _ _ => true
  | .txns (.insert txn) => txn.state == .completed
  | .txns (.update _ (.complete _ _)) => true
  | _ => false

/- The effects that reserve a spend. -/
def reserves : Eff → Bool
  | .recordSpend _ _ _ _ _ => true
  | _ => false

/- The effects that look a transaction up. -/
def looksUp : Eff → Bool
  | .txns (.get _) => true
  | _ => false

/- The instrument that an effect stores with a subscription. -/
def setsInstrument : Eff → Option (Option PaymentInstrument)
  | .subs (.insert sub) => some sub.paymentInstrument
  | .subs (.update _ (.renew _ _ _ payment _ _)) =>
      some (some payment)
  | _ => none

/- The effect has nothing to do with money. -/
def Free (effect : Eff) : Prop :=
  bills effect = false ∧ reserves effect = false ∧
    setsInstrument effect = none

/- Free, and it does not look a transaction up. -/
def Still (effect : Eff) : Prop :=
  Free effect ∧ looksUp effect = false

/- The transaction as a thread has read it last. -/
def lastRead (id : String) : Moves → Option Transaction
  | [] => none
  | ⟨.txns (.get other), found⟩ :: past =>
      if other = id then found else lastRead id past
  | _ :: past => lastRead id past

/-
  The amount that an effect charges. A completion charges the
  total that the thread has read.
-/
def charged (past : Moves) : Eff → Option Int64
  | .insertCharge txn _ => some (totalAmountMinor txn.totals)
  | .txns (.insert txn) =>
      if txn.state = .completed then
        some (totalAmountMinor txn.totals)
      else none
  | .txns (.update id (.complete _ _)) =>
      (lastRead id past).map fun txn =>
        totalAmountMinor txn.totals
  | _ => none

theorem charged_complete
    {past : Moves}
    {id : String}
    {txn : Transaction}
    (hRead : lastRead id past = some txn)
    (orderId : Option String)
    (now : DateTime) :
    charged past (.txns (.update id (.complete orderId now))) =
      some (totalAmountMinor txn.totals) := by
  change (lastRead id past).map _ = _
  rw [hRead]
  rfl

theorem charged_insert
    {txn : Transaction}
    (hState : txn.state = .completed)
    (past : Moves) :
    charged past (.txns (.insert txn)) =
      some (totalAmountMinor txn.totals) :=
  if_pos hState

/- The limits that a mandate puts on spends. -/
def limitsOf
    (payload : MandatePayload)
    (period : Option Duration) : MandateSpendLimits :=
  { budgetMinor := payload.icp.budget.amountMinor
    perTransaction := payload.icp.budget.perTransaction
    window := period.getD (Duration.days 1) }

/- The reservation that a mandate asks for. -/
def ReservesFor
    (input : IntentInput)
    (mandate : Option MandateEvaluation)
    (amount : Int64) : Eff → Prop
  | .recordSpend jti tenantId amountMinor _ limits =>
      ∃ ev period, mandate = some ev ∧
        parsePeriod ev.payload.icp.budget.period = .ok period ∧
        jti = ev.payload.jti ∧
        tenantId = input.tenant.tenantId ∧
        amountMinor = amount ∧
        limits = limitsOf ev.payload period
  | _ => False

/- The amount has been reserved under the mandate, if any. -/
def Covered
    (input : IntentInput)
    (mandate : Option MandateEvaluation)
    (amount : Int64)
    (past : Moves) : Prop :=
  mandate.isSome → 0 < amount →
    ∃ jti tenantId now limits,
      ReservesFor input mandate amount
        (.recordSpend jti tenantId amount now limits) ∧
      (⟨.recordSpend jti tenantId amount now limits, .ok ()⟩ :
        Move Eff.Res) ∈ past

/- Nothing has been booked yet. -/
def Unbooked (past : Moves) : Prop :=
  ∀ move ∈ past, bills move.effect = false

section Seen

variable {input : IntentInput}
variable {mandate : Option MandateEvaluation}
variable {amount : Int64}
variable {id : String}
variable {past : Moves}

theorem lastRead_cons
    {move : Move Eff.Res}
    (hStill : looksUp move.effect = false) :
    lastRead id (move :: past) = lastRead id past := by
  rcases move with ⟨effect, answer⟩
  cases effect with
  | txns op =>
      cases op with
      | get other => cases hStill
      | _ => rfl
  | _ => rfl

theorem lastRead_append
    (recent : Moves)
    (hStill : ∀ move ∈ recent, looksUp move.effect = false) :
    lastRead id (recent ++ past) = lastRead id past := by
  induction recent with
  | nil => rfl
  | cons move recent ih =>
      rw [List.cons_append,
        lastRead_cons (hStill move List.mem_cons_self)]
      apply ih
      intro other hOther
      exact hStill other (List.mem_cons_of_mem _ hOther)

theorem lastRead_here
    (found : Option Transaction) :
    lastRead id (⟨.txns (.get id), found⟩ :: past) = found := by
  rw [lastRead, if_pos rfl]

theorem Covered.append
    (hCovered : Covered input mandate amount past)
    (recent : Moves) :
    Covered input mandate amount (recent ++ past) := by
  intro hSome hPositive
  obtain ⟨jti, tenantId, now, limits, hFor, hMem⟩ :=
    hCovered hSome hPositive
  exact ⟨jti, tenantId, now, limits, hFor,
    List.mem_append_right _ hMem⟩

theorem Unbooked.append
    (hUnbooked : Unbooked past)
    (recent : Moves)
    (hRecent : ∀ move ∈ recent, bills move.effect = false) :
    Unbooked (recent ++ past) := by
  intro move hMove
  rcases List.mem_append.mp hMove with hMove | hMove
  · exact hRecent move hMove
  · exact hUnbooked move hMove

theorem Unbooked.cons
    (hUnbooked : Unbooked past)
    {move : Move Eff.Res}
    (hMove : bills move.effect = false) :
    Unbooked (move :: past) :=
  hUnbooked.append [move] (by simpa using hMove)

end Seen

end Protocol

end IcpHandler

------------------------------------------------------------
-- Payments from Outside
------------------------------------------------------------

namespace IcpHandler

namespace Protocol

open Model Service Concurrency

/- A payment that somebody else has authorized. -/
def ExternallyAuthorized : Option PaymentInstrument → Prop
  | some (.externalAuthorization provider authorizationId _) =>
      Text.trim provider ≠ "" ∧ Text.trim authorizationId ≠ ""
  | _ => False

private theorem nonEmpty_of_required
    {value field : String}
    (hRequired :
      requireNonEmpty (some value) field = .ok ()) :
    Text.trim value ≠ "" := by
  intro hEmpty
  unfold requireNonEmpty at hRequired
  rw [Option.any_some, hEmpty] at hRequired
  cases hRequired

/- What a handler takes that only takes such payments. -/
theorem externallyAuthorized_of_validated
    {payment : PaymentInstrument}
    (hValid :
      validatePaymentInstrument payment "external_required" =
        .ok ()) :
    ExternallyAuthorized (some payment) := by
  unfold validatePaymentInstrument at hValid
  cases payment with
  | externalAuthorization provider authorizationId hint =>
      simp only [bind, Except.bind] at hValid
      split at hValid
      · cases hValid
      · rename_i hProvider
        split at hValid
        · cases hValid
        · rename_i hAuthorization
          exact ⟨nonEmpty_of_required hProvider,
            nonEmpty_of_required hAuthorization⟩
  | card token network hint =>
      simp only [bind, Except.bind] at hValid
      split at hValid
      · cases hValid
      · cases hValid
  | a2a peerAgentId hint =>
      simp only [bind, Except.bind] at hValid
      split at hValid
      · cases hValid
      · cases hValid
  | delegatedVault token provider =>
      simp only [bind, Except.bind] at hValid
      split at hValid
      · cases hValid
      · split at hValid
        · split at hValid
          · cases hValid
          · cases hValid
        · cases hValid
  | stablecoin asset chain payer txHash =>
      simp only [bind, Except.bind] at hValid
      split at hValid
      · cases hValid
      · split at hValid
        · cases hValid
        · split at hValid
          · cases hValid
          · cases hValid

end Protocol

end IcpHandler

------------------------------------------------------------
-- Blocks without Money
------------------------------------------------------------

namespace IcpHandler

namespace Protocol

open Model Service Concurrency

/- The block is free, and returns a value of a kind. -/
def FreeTo
    {α : Type}
    (body : Svc α)
    (Q : α → Prop) : Prop :=
  ∀ past, body.Meets (fun _ effect => Free effect)
    (fun value _ => Q value) (fun _ _ => True) past

theorem FreeTo.bind
    {α β : Type}
    {body : Svc α}
    {next : α → Svc β}
    {P : α → Prop}
    {Q : β → Prop}
    (hBody : FreeTo body P)
    (hNext : ∀ value, P value → FreeTo (next value) Q) :
    FreeTo (body >>= next) Q := by
  intro past
  rw [Svc.meets_bind]
  apply (hBody past).mono
  · intro value later hValue
    exact hNext value hValue later
  · intro halt later _
    trivial

theorem FreeTo.only
    {α : Type}
    {body : Svc α}
    {Q : α → Prop}
    (hBody : FreeTo body Q) :
    Svc.Only Free body :=
  fun past => (hBody past).mono (fun _ _ _ => trivial)
    (fun _ _ _ => trivial)

theorem free_act
    {effect : Eff}
    (hBills : bills effect = false)
    (hReserves : reserves effect = false)
    (hSets : setsInstrument effect = none) :
    Svc.Only Free (Svc.act effect) :=
  Svc.Only.act ⟨hBills, hReserves, hSets⟩

section Free

variable {svc : IcpService}
variable {input : IntentInput}
variable {mandate : Option MandateEvaluation}

theorem free_freshTransaction (state : TransactionState) :
    FreeTo (freshTransaction input state)
      (fun txn => txn.state = state) := by
  unfold freshTransaction
  dsimp only
  cases input.envelope.transactionId with
  | some id =>
      have hNow : Svc.Only Free (Svc.act .now) :=
        free_act rfl rfl rfl
      exact FreeTo.bind (Svc.Only.pure _) fun id _ =>
        FreeTo.bind hNow fun createdAt _ =>
          FreeTo.bind hNow fun updatedAt _ => fun _ => rfl
  | none =>
      have hNow : Svc.Only Free (Svc.act .now) :=
        free_act rfl rfl rfl
      exact FreeTo.bind (free_act rfl rfl rfl) fun token _ =>
        FreeTo.bind (Svc.Only.pure _) fun id _ =>
          FreeTo.bind hNow fun createdAt _ =>
            FreeTo.bind hNow fun updatedAt _ => fun _ => rfl

theorem free_subscriptionPseudoTxn
    (sub : Subscription)
    (state : TransactionState) :
    FreeTo (subscriptionPseudoTxn input sub state)
      (fun txn => txn.state = state) := by
  unfold subscriptionPseudoTxn
  exact FreeTo.bind (free_act rfl rfl rfl) fun now _ =>
    FreeTo.bind (free_act rfl rfl rfl) fun token _ =>
      fun _ => rfl

/- A transaction that is not complete books nothing. -/
theorem free_insertTxn
    {txn : Transaction}
    (hState : txn.state ≠ .completed) :
    Svc.Only Free (Svc.act (.txns (.insert txn))) :=
  free_act (beq_false_of_ne hState) rfl rfl

theorem free_transactionForInput (id : String) :
    Svc.Only Free (transactionForInput id input) :=
  Svc.Only.bind (free_act rfl rfl rfl) fun _ =>
    (Svc.Only.orFail _ _).bind fun _ =>
      (Svc.Only.ensure _ _).bind fun _ => Svc.Only.pure _

theorem free_subscriptionForInput (id : String) :
    Svc.Only Free (subscriptionForInput id input) :=
  Svc.Only.bind (free_act rfl rfl rfl) fun _ =>
    (Svc.Only.orFail _ _).bind fun _ =>
      (Svc.Only.ensure _ _).bind fun _ => Svc.Only.pure _

theorem free_ensureQuoteOpen
    (txn : Transaction)
    (now : DateTime) :
    Svc.Only Free (ensureQuoteOpen txn now) :=
  only_ensureQuoteOpen (fun _ => ⟨rfl, rfl, rfl⟩) txn

/- The end of an intent that patches a transaction. -/
theorem free_lastUpdate
    {id : String}
    {patch : TxnPatch}
    {error : ApiError}
    {next : Transaction → Outcome}
    (hBills : bills (.txns (.update id patch)) = false) :
    Svc.Only Free
      (do
        let updated ← Svc.act (.txns (.update id patch))
        let txn ← Svc.orFail error updated
        pure (next txn)) :=
  Svc.Only.bind (free_act hBills rfl rfl) fun _ =>
    (Svc.Only.orFail _ _).bind fun _ => Svc.Only.pure _

/- Locks have nothing to do with money. -/
theorem free_withLock
    {α : Type}
    {key : String}
    {body : Svc α}
    (hBody : Svc.Only Free body) :
    Svc.Only Free (Svc.withLock key body) :=
  Svc.Only.withLock ⟨rfl, rfl, rfl⟩ ⟨rfl, rfl, rfl⟩ hBody

theorem free_advisory
    {state : TransactionState}
    (hState : state ≠ .completed) :
    Svc.Only Free
      (do
        let txn ← freshTransaction input state
        Svc.act (.txns (.insert txn))
        pure { transaction := txn } : Svc Outcome) := by
  refine FreeTo.only (Q := fun _ => True) ?_
  refine (free_freshTransaction state).bind fun txn hTxn => ?_
  refine (free_insertTxn ?_).bind fun _ => Svc.Only.pure _
  rw [hTxn]
  exact hState

theorem free_quoteTotals
    (params : QuoteParams)
    (totals : Totals)
    (currency : String) :
    Svc.Only Free (quoteTotals svc params totals currency) := by
  unfold quoteTotals
  split
  · refine Svc.Only.bind (free_act rfl rfl rfl)
      fun discount => ?_
    split
    · exact Svc.Only.pure _
    · exact Svc.Only.pure _
  · exact Svc.Only.pure _

theorem free_doQuote : Svc.Only Free (doQuote svc input) := by
  refine (Svc.Only.ofExcept _ _).bind fun params => ?_
  refine (Svc.Only.ensure _ _).bind fun _ => ?_
  refine (Svc.Only.ofExcept _ _).bind fun priced => ?_
  refine (free_quoteTotals _ _ _).bind fun totals => ?_
  refine FreeTo.only (Q := fun _ => True) ?_
  refine (free_freshTransaction _).bind fun txn hTxn => ?_
  refine Svc.Only.bind (free_act rfl rfl rfl) fun now => ?_
  refine (free_insertTxn ?_).bind fun _ => Svc.Only.pure _
  dsimp only
  rw [hTxn]
  decide

theorem free_doTrack : Svc.Only Free (doTrack input) := by
  refine (Svc.Only.orFail _ _).bind fun txnId => ?_
  exact (free_transactionForInput txnId).bind fun _ =>
    Svc.Only.pure _

theorem free_doAuthorize :
    Svc.Only Free (doAuthorize svc input) := by
  refine (Svc.Only.ofExcept _ _).bind fun params => ?_
  refine free_withLock ?_
  refine (free_transactionForInput _).bind fun txn => ?_
  refine (Svc.Only.ensure _ _).bind fun _ => ?_
  refine (Svc.Only.ensure _ _).bind fun _ => ?_
  refine Svc.Only.bind (free_act rfl rfl rfl) fun now => ?_
  refine (free_ensureQuoteOpen _ _).bind fun _ => ?_
  refine Svc.Only.bind (free_act rfl rfl rfl) fun now => ?_
  exact free_lastUpdate rfl

theorem free_doReturn : Svc.Only Free (doReturn input) := by
  refine (Svc.Only.orFail _ _).bind fun txnId => ?_
  refine free_withLock ?_
  refine (free_transactionForInput _).bind fun _ => ?_
  refine Svc.Only.bind (free_act rfl rfl rfl) fun now => ?_
  exact free_lastUpdate rfl

theorem free_doNegotiate :
    Svc.Only Free (doNegotiate svc input) := by
  refine (Svc.Only.ofExcept _ _).bind fun params => ?_
  refine (Svc.Only.ensure _ _).bind fun _ => ?_
  refine (Svc.Only.ensure _ _).bind fun _ => ?_
  refine free_withLock ?_
  refine (free_transactionForInput _).bind fun txn => ?_
  refine (Svc.Only.ensure _ _).bind fun _ => ?_
  refine Svc.Only.bind ?_ fun total => ?_
  · unfold negotiatedTotal
    split
    · exact (Svc.Only.ensure _ _).bind fun _ => Svc.Only.pure _
    · exact Svc.Only.pure _
  refine Svc.Only.bind (free_act rfl rfl rfl) fun now => ?_
  exact free_lastUpdate rfl

theorem free_doConfirmReceipt :
    Svc.Only Free (doConfirmReceipt svc input) := by
  refine (Svc.Only.ofExcept _ _).bind fun params => ?_
  refine free_withLock ?_
  refine (free_transactionForInput _).bind fun txn => ?_
  refine (Svc.Only.ensure _ _).bind fun _ => ?_
  refine (Svc.Only.ensure _ _).bind fun _ => ?_
  refine Svc.Only.bind (free_act rfl rfl rfl) fun now => ?_
  exact free_lastUpdate rfl

/- The placeholder of a pause or a cancellation. -/
theorem free_subMarker
    {subId message : String}
    {patch : SubPatch}
    (hSets : setsInstrument (.subs (.update subId patch)) =
      none) :
    Svc.Only Free
      (do
        let found ← Svc.act (.subs (.update subId patch))
        let updated ← Svc.orPanic message found
        let txn ← subscriptionPseudoTxn input updated .canceled
        Svc.act (.txns (.insert txn))
        pure { transaction := txn,
               subscription := some updated } :
        Svc Outcome) := by
  refine Svc.Only.bind (free_act rfl rfl hSets) fun found => ?_
  refine (Svc.Only.orPanic _ _).bind fun updated => ?_
  refine FreeTo.only (Q := fun _ => True) ?_
  refine (free_subscriptionPseudoTxn _ _).bind
    fun txn hTxn => ?_
  refine (free_insertTxn ?_).bind fun _ => Svc.Only.pure _
  rw [hTxn]
  decide

theorem free_doPause : Svc.Only Free (doPause svc input) := by
  refine (Svc.Only.ofExcept _ _).bind fun params => ?_
  refine free_withLock ?_
  refine (free_subscriptionForInput _).bind fun sub => ?_
  refine (Svc.Only.ensure _ _).bind fun _ => ?_
  refine Svc.Only.bind (free_act rfl rfl rfl) fun now => ?_
  exact free_subMarker rfl

theorem free_doCancelSubscription :
    Svc.Only Free (doCancelSubscription svc input) := by
  refine (Svc.Only.ofExcept _ _).bind fun params => ?_
  refine free_withLock ?_
  refine (free_subscriptionForInput _).bind fun sub => ?_
  refine (Svc.Only.ensure _ _).bind fun _ => ?_
  refine Svc.Only.bind (free_act rfl rfl rfl) fun now => ?_
  exact free_subMarker rfl

theorem free_doA2aQuote :
    Svc.Only Free (doA2aQuote svc input mandate) := by
  refine (Svc.Only.ofExcept _ _).bind fun params => ?_
  refine (Svc.Only.ensure _ _).bind fun _ => ?_
  refine Svc.Only.bind (free_act rfl rfl rfl) fun now => ?_
  refine Svc.Only.bind ?_ fun hinted => ?_
  · unfold priceHint
    split
    · exact (Svc.Only.ensure _ _).bind fun _ => Svc.Only.pure _
    · exact Svc.Only.pure _
  refine Svc.Only.bind (free_act rfl rfl rfl) fun token => ?_
  refine Svc.Only.bind (free_act rfl rfl rfl) fun _ => ?_
  refine Svc.Only.bind (free_act rfl rfl rfl) fun token => ?_
  refine (free_insertTxn ?_).bind fun _ => Svc.Only.pure _
  intro hState
  cases hState

end Free

end Protocol

end IcpHandler

------------------------------------------------------------
-- The Billing Rule
------------------------------------------------------------

namespace IcpHandler

namespace Protocol

open Model Service Concurrency

/- The payment that an intent brings. -/
def paymentOf
    (svc : IcpService)
    (input : IntentInput) : Intent → Option PaymentInstrument
  | .buy | .pay =>
      (svc.deps.buyParams input.envelope.params).toOption.map
        BuyParams.payment
  | .subscribe =>
      (svc.deps.subscribeParams
        input.envelope.params).toOption.map
          SubscribeParams.payment
  | .renew =>
      (svc.deps.renewParams input.envelope.params).toOption.map
        RenewParams.payment
  | .a2aPay =>
      (svc.deps.a2aPayParams
        input.envelope.params).toOption.bind
          A2aPayParams.payment
  | _ => none

/-
  The handler only takes payments authorized elsewhere. Between
  agents it does so in production, whatever its mode.
-/
def takesExternalOnly
    (svc : IcpService)
    (intent : Intent) : Prop :=
  svc.config.paymentExecutionMode = "external_required" ∨
    (intent = .a2aPay ∧ svc.config.isProduction = true)

/- What a thread has done for a charge it is about to make. -/
structure MayBook
    (svc : IcpService)
    (input : IntentInput)
    (intent : Intent)
    (mandate : Option MandateEvaluation)
    (past : Moves)
    (effect : Eff) : Prop where
  needsMandate : intent.scope ≠ none
  first : Unbooked past
  covered :
    ∃ amount, charged past effect = some amount ∧
      Covered input mandate amount past
  external :
    takesExternalOnly svc intent →
      ExternallyAuthorized (paymentOf svc input intent)

/-
  What an intent may do once its mandate has been evaluated.
  It reserves under that mandate only.
-/
structure BillRule
    (svc : IcpService)
    (input : IntentInput)
    (intent : Intent)
    (mandate : Option MandateEvaluation)
    (past : Moves)
    (effect : Eff) : Prop where
  books :
    bills effect = true →
      MayBook svc input intent mandate past effect
  reserve :
    reserves effect = true →
      ∃ amount, ReservesFor input mandate amount effect
  stores :
    ∀ instrument, setsInstrument effect = some instrument →
      svc.config.paymentExecutionMode = "external_required" →
        ExternallyAuthorized instrument

section Billing

variable {svc : IcpService}
variable {input : IntentInput}
variable {intent : Intent}
variable {mandate : Option MandateEvaluation}
variable {past : Moves}

theorem billRule_of_free
    {effect : Eff}
    (hFree : Free effect) :
    BillRule svc input intent mandate past effect where
  books := by
    intro hBills
    rw [hFree.1] at hBills
    cases hBills
  reserve := by
    intro hReserves
    rw [hFree.2.1] at hReserves
    cases hReserves
  stores := by
    intro instrument hSets
    rw [hFree.2.2] at hSets
    cases hSets

theorem billRule_now :
    BillRule svc input intent mandate past .now :=
  billRule_of_free ⟨rfl, rfl, rfl⟩

/- The moves that follow some are free. -/
def AfterFree (past later : Moves) : Prop :=
  ∃ recent, later = recent ++ past ∧
    ∀ move ∈ recent, Free move.effect

theorem AfterFree.unbooked
    {later : Moves}
    (hAfter : AfterFree past later)
    (hUnbooked : Unbooked past) :
    Unbooked later := by
  obtain ⟨recent, rfl, hRecent⟩ := hAfter
  exact hUnbooked.append recent fun move hMove =>
    (hRecent move hMove).1

theorem AfterFree.covered
    {later : Moves}
    {amount : Int64}
    (hAfter : AfterFree past later)
    (hCovered : Covered input mandate amount past) :
    Covered input mandate amount later := by
  obtain ⟨recent, rfl, -⟩ := hAfter
  exact hCovered.append recent

/- A free block follows the rule. -/
theorem bills_of_free
    {α : Type}
    {body : Svc α}
    {Q : α → Prop}
    (hBody : FreeTo body Q) :
    body.Meets (BillRule svc input intent mandate)
      (fun value later => Q value ∧ AfterFree past later)
      (fun _ later => AfterFree past later) past := by
  apply (Svc.Meets.of_kind (hBody past) fun _ _ hFree =>
    billRule_of_free hFree).mono
  · intro value later hPost
    exact hPost
  · intro halt later hPost
    exact hPost.2

/- A block of free effects ends a run under the rule. -/
theorem bills_last
    {α : Type}
    {body : Svc α}
    (hBody : Svc.Only Free body) :
    body.Meets (BillRule svc input intent mandate)
      (fun _ _ => True) (fun _ _ => True) past :=
  (bills_of_free hBody).mono (fun _ _ _ => trivial)
    (fun _ _ _ => trivial)

/-
  A reservation covers its amount. What it does besides are a
  clock reading and the one spend.
-/
theorem bills_reserve
    {amount : Int64}
    {currency : String} :
    (reserveMandateSpend mandate input.tenant.tenantId amount
      currency).Meets (BillRule svc input intent mandate)
      (fun _ later =>
        Covered input mandate amount later ∧
          ∃ recent, later = recent ++ past ∧
            ∀ move ∈ recent, bills move.effect = false ∧
              looksUp move.effect = false)
      (fun _ _ => True) past := by
  cases mandate with
  | none =>
      refine ⟨?_, [], rfl, ?_⟩
      · intro hSome
        cases hSome
      · intro move hMove
        cases hMove
  | some ev =>
      simp only [reserveMandateSpend]
      split
      · rename_i hAmount
        refine ⟨?_, [], rfl, ?_⟩
        · intro _ hPositive
          exact absurd hAmount (Int64.not_le.mpr hPositive)
        · intro move hMove
          cases hMove
      · rw [Svc.meets_bind, Svc.meets_ensure]
        refine ⟨fun _ => ?_, fun _ => trivial⟩
        cases hPeriod :
            parsePeriod ev.payload.icp.budget.period with
        | error message => exact trivial
        | ok period =>
            have hFor :
                ∀ now, ReservesFor input (some ev) amount
                  (.recordSpend ev.payload.jti
                    input.tenant.tenantId amount now
                    (limitsOf ev.payload period)) := by
              intro now
              exact ⟨ev, period, rfl, hPeriod, rfl, rfl, rfl,
                rfl⟩
            simp only [Svc.meets_pure, Svc.meets_bind,
              Svc.meets_ofExcept]
            refine ⟨billRule_now, fun now => ⟨?_,
              fun result => ⟨?_, fun _ _ => trivial⟩⟩⟩
            · constructor
              · intro hBills
                cases hBills
              · intro _
                exact ⟨amount, hFor now⟩
              · intro instrument hSets
                cases hSets
            · rintro value rfl
              constructor
              · intro _ _
                exact ⟨_, _, now, _, hFor now,
                  List.mem_cons_self⟩
              · refine ⟨[⟨.recordSpend _ _ _ now _, .ok ()⟩,
                  ⟨.now, now⟩], rfl, ?_⟩
                intro move hMove
                rcases List.mem_pair.mp hMove with rfl | rfl
                · exact ⟨rfl, rfl⟩
                · exact ⟨rfl, rfl⟩

end Billing

end Protocol

end IcpHandler

------------------------------------------------------------
-- Intents that Charge
------------------------------------------------------------

namespace IcpHandler

namespace Protocol

open Model Service Concurrency

section Charging

variable {svc : IcpService}
variable {input : IntentInput}
variable {intent : Intent}
variable {mandate : Option MandateEvaluation}
variable {past : Moves}

/- The moves that follow some book nothing and read nothing. -/
def AfterCalm (past later : Moves) : Prop :=
  ∃ recent, later = recent ++ past ∧
    ∀ move ∈ recent, bills move.effect = false ∧
      looksUp move.effect = false

theorem AfterCalm.trans
    {middle later : Moves}
    (hFirst : AfterCalm past middle)
    (hSecond : AfterCalm middle later) :
    AfterCalm past later := by
  obtain ⟨recent, rfl, hRecent⟩ := hFirst
  obtain ⟨latest, rfl, hLatest⟩ := hSecond
  refine ⟨latest ++ recent, by simp, ?_⟩
  intro move hMove
  rcases List.mem_append.mp hMove with hMove | hMove
  · exact hLatest move hMove
  · exact hRecent move hMove

theorem AfterCalm.cons
    {later : Moves}
    {move : Move Eff.Res}
    (hAfter : AfterCalm past later)
    (hBills : bills move.effect = false)
    (hReads : looksUp move.effect = false) :
    AfterCalm past (move :: later) := by
  apply hAfter.trans
  refine ⟨[move], rfl, ?_⟩
  intro other hOther
  rw [List.mem_singleton] at hOther
  rw [hOther]
  exact ⟨hBills, hReads⟩

theorem AfterCalm.unbooked
    {later : Moves}
    (hAfter : AfterCalm past later)
    (hUnbooked : Unbooked past) :
    Unbooked later := by
  obtain ⟨recent, rfl, hRecent⟩ := hAfter
  exact hUnbooked.append recent fun move hMove =>
    (hRecent move hMove).1

theorem AfterCalm.covered
    {later : Moves}
    {amount : Int64}
    (hAfter : AfterCalm past later)
    (hCovered : Covered input mandate amount past) :
    Covered input mandate amount later := by
  obtain ⟨recent, rfl, -⟩ := hAfter
  exact hCovered.append recent

theorem AfterCalm.lastRead
    {later : Moves}
    (hAfter : AfterCalm past later)
    (id : String) :
    lastRead id later = lastRead id past := by
  obtain ⟨recent, rfl, hRecent⟩ := hAfter
  exact lastRead_append recent fun move hMove =>
    (hRecent move hMove).2

/- A block of still effects follows the rule. -/
theorem bills_of_still
    {α : Type}
    {body : Svc α}
    (hBody : Svc.Only Still body) :
    body.Meets (BillRule svc input intent mandate)
      (fun _ later => AfterCalm past later)
      (fun _ _ => True) past := by
  apply (Svc.Meets.of_kind (hBody past) fun _ _ hStill =>
    billRule_of_free hStill.1).mono
  · rintro value later ⟨-, recent, rfl, hRecent⟩
    exact ⟨recent, rfl, fun move hMove =>
      ⟨(hRecent move hMove).1.1, (hRecent move hMove).2⟩⟩
  · intro halt later _
    trivial

/- A move that has nothing to do with money is allowed. -/
theorem bills_act
    {effect : Eff}
    {Q : effect.Res → Moves → Prop}
    {X : Halt → Moves → Prop}
    (hFree : Free effect)
    (hNext : ∀ answer, Q answer (⟨effect, answer⟩ :: past)) :
    (Svc.act effect).Meets
      (BillRule svc input intent mandate) Q X past :=
  Svc.meets_act.mpr ⟨billRule_of_free hFree, hNext⟩

/- The order of a charge is no charge. -/
theorem bills_persistOrder (txn : Transaction) :
    (persistOrderForTransaction svc txn).Meets
      (BillRule svc input intent mandate)
      (fun _ later => AfterCalm past later)
      (fun _ _ => True) past := by
  apply bills_of_still
  apply only_persistOrderForTransaction
  intro buyer currency items total
  exact ⟨⟨rfl, rfl, rfl⟩, rfl⟩

/- What the handler takes, of payments it has validated. -/
theorem external_of_validated
    {payment : PaymentInstrument}
    (hIntent : intent ≠ .a2aPay)
    (hPayment : paymentOf svc input intent = some payment)
    (hValid :
      validatePaymentInstrument payment
        svc.config.paymentExecutionMode = .ok ())
    (hTakes : takesExternalOnly svc intent) :
    ExternallyAuthorized (paymentOf svc input intent) := by
  rcases hTakes with hMode | ⟨hA2a, -⟩
  · rw [hMode] at hValid
    rw [hPayment]
    exact externallyAuthorized_of_validated hValid
  · exact absurd hA2a hIntent

/- A lock around a block that follows the rule. -/
theorem bills_withLock
    {α : Type}
    {key : String}
    {body : Svc α}
    (hBody :
      body.Meets (BillRule svc input intent mandate)
        (fun _ _ => True) (fun _ _ => True)
        (⟨.lock key, ()⟩ :: past)) :
    (Svc.withLock key body).Meets
      (BillRule svc input intent mandate)
      (fun _ _ => True) (fun _ _ => True) past := by
  have hUnlock :
      ∀ moves, BillRule svc input intent mandate moves
        (.unlock key) :=
    fun _ => billRule_of_free ⟨rfl, rfl, rfl⟩
  refine Svc.meets_withLock.mpr
    ⟨billRule_of_free ⟨rfl, rfl, rfl⟩, ?_⟩
  apply hBody.mono
  · intro value later _
    exact ⟨hUnlock later, trivial⟩
  · intro halt later _
    exact ⟨hUnlock later, trivial⟩

/- The transaction that is looked up is the one last read. -/
theorem bills_transactionForInput (id : String) :
    (transactionForInput id input).Meets
      (BillRule svc input intent mandate)
      (fun txn later => later =
        ⟨.txns (.get id), some txn⟩ :: past)
      (fun _ _ => True) past := by
  simp only [transactionForInput, Svc.meets_bind,
    Svc.meets_orFail, Svc.meets_ensure, Svc.meets_pure]
  refine bills_act ⟨rfl, rfl, rfl⟩ fun found => ?_
  refine ⟨?_, fun _ => trivial⟩
  rintro txn rfl
  exact ⟨fun _ => rfl, fun _ => trivial⟩

theorem bills_doBuy
    (hIntent : intent = .buy ∨ intent = .pay)
    (hUnbooked : Unbooked past) :
    (doBuy svc input mandate).Meets
      (BillRule svc input intent mandate)
      (fun _ _ => True) (fun _ _ => True) past := by
  simp only [doBuy, Svc.meets_bind, Svc.meets_ofExcept]
  refine ⟨fun params hParams => ⟨fun _ hValid => ?_,
    fun _ _ => trivial⟩, fun _ _ => trivial⟩
  have hExternal :
      takesExternalOnly svc intent →
        ExternallyAuthorized (paymentOf svc input intent) := by
    rcases hIntent with rfl | rfl
    · exact external_of_validated (by decide)
        (by simp [paymentOf, hParams, Except.toOption]) hValid
    · exact external_of_validated (by decide)
        (by simp [paymentOf, hParams, Except.toOption]) hValid
  apply bills_withLock
  rw [Svc.meets_bind]
  apply (bills_transactionForInput _).mono ?_
    (fun _ _ _ => trivial)
  rintro txn _ rfl
  simp only [ensureNotSubscriptionLinked, Svc.meets_bind,
    Svc.meets_ensure]
  refine ⟨fun _ => ?_, fun _ => trivial⟩
  have hStill :
      Svc.Only Still (ensureBuyable txn) :=
    only_ensureBuyable ⟨⟨rfl, rfl, rfl⟩, rfl⟩
      (fun _ _ => ⟨⟨rfl, rfl, rfl⟩, rfl⟩) txn
  apply (bills_of_still hStill).mono ?_ (fun _ _ _ => trivial)
  intro _ checked hChecked
  apply bills_reserve.mono ?_ (fun _ _ _ => trivial)
  rintro _ reserved ⟨hCovered, hReserved⟩
  apply (bills_persistOrder txn).mono ?_
    (fun _ _ _ => trivial)
  intro order ordered hOrdered
  refine bills_act ⟨rfl, rfl, rfl⟩ fun now => ?_
  have hCalm := (hChecked.trans hReserved).trans hOrdered
  have hScoped : intent.scope ≠ none := by
    rcases hIntent with rfl | rfl
    · decide
    · decide
  have hLast :
      lastRead params.transactionId
          (⟨.now, now⟩ :: ordered) = some txn := by
    rw [(hCalm.cons rfl rfl).lastRead, lastRead_here]
  refine Svc.meets_act.mpr ⟨⟨fun _ => ?_, ?_, ?_⟩, ?_⟩
  · constructor
    · exact hScoped
    · apply (hCalm.cons rfl rfl).unbooked
      exact (hUnbooked.cons rfl).cons rfl
    · exact ⟨_, charged_complete hLast _ _,
        (hOrdered.covered hCovered).append [_]⟩
    · exact hExternal
  · intro hReserves
    cases hReserves
  · intro instrument hSets
    cases hSets
  · intro updated
    simp

/-
  A subscription's charge books the priced total, which the
  thread has reserved before.
-/
theorem bills_runSubscriptionCharge
    {buyer : Buyer}
    {shipTo : Option Address}
    {items : List RequestItem}
    {currency : String}
    {bill : Billing}
    {amount : Int64}
    (hScoped : intent.scope ≠ none)
    (hPriced :
      ∀ priced,
        priceRequestItems items currency "subscription.items" =
            .ok priced →
          totalAmountMinor priced.2 = amount)
    (hCovered : Covered input mandate amount past)
    (hUnbooked : Unbooked past)
    (hExternal :
      takesExternalOnly svc intent →
        ExternallyAuthorized (paymentOf svc input intent)) :
    (runSubscriptionCharge svc input buyer shipTo items currency
      bill).Meets (BillRule svc input intent mandate)
      (fun _ _ => True) (fun _ _ => True) past := by
  simp only [runSubscriptionCharge, Svc.meets_bind,
    Svc.meets_ofExcept]
  refine ⟨fun priced hOk => ?_, fun _ _ => trivial⟩
  refine bills_act ⟨rfl, rfl, rfl⟩ fun now => ?_
  refine bills_act ⟨rfl, rfl, rfl⟩ fun token => ?_
  apply (bills_persistOrder _).mono ?_ (fun _ _ _ => trivial)
  intro order ordered hOrdered
  refine Svc.meets_act.mpr ⟨⟨fun _ => ?_, ?_, ?_⟩,
    fun _ => trivial⟩
  · constructor
    · exact hScoped
    · apply hOrdered.unbooked
      exact (hUnbooked.cons rfl).cons rfl
    · refine ⟨amount, ?_, ?_⟩
      · rw [← hPriced priced hOk]
        rfl
      · exact hOrdered.covered (hCovered.append [_, _])
    · exact hExternal
  · intro hReserves
    cases hReserves
  · intro instrument hSets
    cases hSets

/- A row that is stored with a payment the handler takes. -/
theorem bills_storeSub
    {effect : Eff}
    {payment : PaymentInstrument}
    {Q : effect.Res → Moves → Prop}
    {X : Halt → Moves → Prop}
    (hBills : bills effect = false)
    (hReserves : reserves effect = false)
    (hSets : setsInstrument effect = some (some payment))
    (hValid :
      validatePaymentInstrument payment
        svc.config.paymentExecutionMode = .ok ())
    (hNext : ∀ answer, Q answer (⟨effect, answer⟩ :: past)) :
    (Svc.act effect).Meets
      (BillRule svc input intent mandate) Q X past := by
  refine Svc.meets_act.mpr ⟨⟨?_, ?_, ?_⟩, hNext⟩
  · intro hBooks
    rw [hBills] at hBooks
    cases hBooks
  · intro hSpends
    rw [hReserves] at hSpends
    cases hSpends
  · intro instrument hStored hMode
    rw [hSets] at hStored
    cases hStored
    rw [hMode] at hValid
    exact externallyAuthorized_of_validated hValid

theorem bills_doSubscribe
    (hUnbooked : Unbooked past) :
    (doSubscribe svc input mandate).Meets
      (BillRule svc input .subscribe mandate)
      (fun _ _ => True) (fun _ _ => True) past := by
  simp only [doSubscribe, Svc.meets_bind, Svc.meets_ofExcept,
    Svc.meets_ensure]
  refine ⟨fun params hParams => ⟨fun _ => ⟨fun _ hValid => ?_,
    fun _ _ => trivial⟩, fun _ => trivial⟩,
    fun _ _ => trivial⟩
  have hPayment :
      paymentOf svc input .subscribe = some params.payment := by
    simp [paymentOf, hParams, Except.toOption]
  have hExternal :=
    external_of_validated (by decide) hPayment hValid
  refine bills_act ⟨rfl, rfl, rfl⟩ fun now => ?_
  refine ⟨fun priced hPriced => ?_, fun _ _ => trivial⟩
  apply bills_reserve.mono ?_ (fun _ _ _ => trivial)
  rintro _ reserved ⟨hCovered, hReserved⟩
  refine bills_act ⟨rfl, rfl, rfl⟩ fun token => ?_
  have hQuiet :
      Unbooked (⟨.uuid, token⟩ :: reserved) := by
    apply Unbooked.cons ?_ rfl
    exact AfterCalm.unbooked hReserved (hUnbooked.cons rfl)
  split
  · simp only [enrollTrial, Svc.meets_bind, Svc.meets_ensure,
      Svc.meets_orFail]
    refine ⟨fun _ => ⟨fun trialEnd _ => ?_, fun _ => trivial⟩,
      fun _ => trivial⟩
    refine bills_storeSub rfl rfl rfl hValid fun _ => ?_
    apply (bills_of_free
      (free_subscriptionPseudoTxn _ _)).mono ?_
      (fun _ _ _ => trivial)
    rintro txn later ⟨hState, -⟩
    refine bills_act ⟨?_, rfl, rfl⟩ fun _ => trivial
    apply beq_false_of_ne
    dsimp only
    rw [hState]
    decide
  · simp only [enrollCharged, Svc.meets_bind]
    apply (bills_runSubscriptionCharge (by decide) ?_
      (hCovered.append [_]) hQuiet hExternal).mono ?_
      (fun _ _ _ => trivial)
    · intro again hAgain
      rw [priceRequestItems_ok_congr _ hPriced] at hAgain
      cases hAgain
      rfl
    · intro charge later _
      exact bills_storeSub rfl rfl rfl hValid fun _ => trivial

theorem bills_doRenew
    (hUnbooked : Unbooked past) :
    (doRenew svc input mandate).Meets
      (BillRule svc input .renew mandate)
      (fun _ _ => True) (fun _ _ => True) past := by
  simp only [doRenew, Svc.meets_bind, Svc.meets_ofExcept]
  refine ⟨fun params hParams => ⟨fun _ hValid => ?_,
    fun _ _ => trivial⟩, fun _ _ => trivial⟩
  have hPayment :
      paymentOf svc input .renew = some params.payment := by
    simp [paymentOf, hParams, Except.toOption]
  have hExternal :=
    external_of_validated (by decide) hPayment hValid
  apply bills_withLock
  rw [Svc.meets_bind]
  apply (bills_of_free (free_subscriptionForInput _)).mono ?_
    (fun _ _ _ => trivial)
  rintro sub found ⟨-, hFound⟩
  rw [Svc.meets_bind]
  have hRenewable : Svc.Only Free (ensureRenewable sub) := by
    unfold ensureRenewable
    split
    · exact Svc.Only.fail _
    · exact Svc.Only.fail _
    · exact Svc.Only.pure _
  apply (bills_of_free hRenewable).mono ?_
    (fun _ _ _ => trivial)
  rintro _ checked ⟨-, hChecked⟩
  have hClean : Unbooked checked :=
    hChecked.unbooked (hFound.unbooked (hUnbooked.cons rfl))
  simp only [Svc.meets_bind, Svc.meets_ofExcept]
  refine bills_act ⟨rfl, rfl, rfl⟩ fun now => ?_
  refine ⟨fun priced hPriced => ?_, fun _ _ => trivial⟩
  apply bills_reserve.mono ?_ (fun _ _ _ => trivial)
  rintro _ reserved ⟨hCovered, hReserved⟩
  apply (bills_runSubscriptionCharge (by decide) ?_ hCovered
    (AfterCalm.unbooked hReserved (hClean.cons rfl))
    hExternal).mono ?_ (fun _ _ _ => trivial)
  · intro again hAgain
    rw [hPriced] at hAgain
    cases hAgain
    rfl
  · intro charge later _
    refine bills_storeSub rfl rfl rfl hValid fun updated => ?_
    simp

/- What a payment between agents has to bring. -/
theorem external_of_a2a
    {params : A2aPayParams}
    {past : Moves}
    {Q : Unit → Moves → Prop}
    (hNext :
      (takesExternalOnly svc .a2aPay →
        ExternallyAuthorized params.payment) →
      Q () past) :
    (ensureA2aPayment svc params).Meets
      (BillRule svc input intent mandate) Q
      (fun _ _ => True) past := by
  have hMode :
      takesExternalOnly svc .a2aPay →
        (if svc.config.isProduction then "external_required"
          else svc.config.paymentExecutionMode) =
            "external_required" := by
    rintro (hMode | ⟨-, hProduction⟩)
    · split
      · rfl
      · exact hMode
    · exact if_pos hProduction
  unfold ensureA2aPayment
  dsimp only
  cases hPayment : params.payment with
  | some payment =>
      refine Svc.meets_ofExcept.mpr
        ⟨fun _ hValid => hNext fun hTakes => ?_,
          fun _ _ => trivial⟩
      rw [hMode hTakes] at hValid
      rw [hPayment]
      exact externallyAuthorized_of_validated hValid
  | none =>
      refine Svc.meets_ensure.mpr
        ⟨fun hOther => hNext fun hTakes => ?_,
          fun _ => trivial⟩
      rw [hMode hTakes] at hOther
      cases hOther

/- Once the terms stand, their amount is reserved and booked. -/
theorem bills_payWith
    {now : DateTime}
    {terms : A2aTerms}
    {makeTxn : String → Transaction}
    (hScoped : intent.scope ≠ none)
    (hUnbooked : Unbooked past)
    (hExternal :
      takesExternalOnly svc intent →
        ExternallyAuthorized (paymentOf svc input intent))
    (hState : ∀ token, (makeTxn token).state = .completed)
    (hTotal :
      ∀ token,
        totalAmountMinor (makeTxn token).totals =
          terms.money.amountMinor) :
    (do
      reserveMandateSpend mandate input.tenant.tenantId
        terms.money.amountMinor terms.money.currency
      let token ← Svc.act .uuid
      Svc.act (.txns (.insert (makeTxn token)))
      let updatedQuote ←
        match terms.quote with
        | some quote =>
            Svc.act (.quotes (.update quote.id
              (.accept (makeTxn token).id now)))
        | none => pure none
      pure
        { transaction := makeTxn token
          peerQuote := updatedQuote } : Svc Outcome).Meets
      (BillRule svc input intent mandate)
      (fun _ _ => True) (fun _ _ => True) past := by
  rw [Svc.meets_bind]
  apply bills_reserve.mono ?_ (fun _ _ _ => trivial)
  rintro _ reserved ⟨hCovered, hReserved⟩
  rw [Svc.meets_bind]
  refine bills_act ⟨rfl, rfl, rfl⟩ fun token => ?_
  rw [Svc.meets_bind]
  refine Svc.meets_act.mpr ⟨⟨fun _ => ?_, ?_, ?_⟩, fun _ => ?_⟩
  · constructor
    · exact hScoped
    · apply Unbooked.cons ?_ rfl
      exact AfterCalm.unbooked hReserved hUnbooked
    · refine ⟨terms.money.amountMinor, ?_, hCovered.append [_]⟩
      rw [charged_insert (hState token), hTotal]
    · exact hExternal
  · intro hReserves
    cases hReserves
  · intro instrument hSets
    cases hSets
  · apply bills_last
    cases terms.quote with
    | none => exact (Svc.Only.pure _).bind fun _ =>
        Svc.Only.pure _
    | some quote =>
        exact (free_act rfl rfl rfl).bind fun _ =>
          Svc.Only.pure _

theorem bills_payTerms
    {params : A2aPayParams}
    (hScoped : intent.scope ≠ none)
    (hUnbooked : Unbooked past)
    (hExternal :
      takesExternalOnly svc intent →
        ExternallyAuthorized (paymentOf svc input intent)) :
    (payTerms input mandate params).Meets
      (BillRule svc input intent mandate)
      (fun _ _ => True) (fun _ _ => True) past := by
  rw [payTerms, Svc.meets_bind]
  refine bills_act ⟨rfl, rfl, rfl⟩ fun now => ?_
  have hNow : Unbooked (⟨.now, now⟩ :: past) :=
    hUnbooked.cons rfl
  cases hId : params.peerQuoteId with
  | none =>
      have hDirect :
          Svc.Only Free (directTerms input params) := by
        refine (Svc.Only.orFail _ _).bind fun peerId => ?_
        refine (Svc.Only.orFail _ _).bind fun money => ?_
        refine (Svc.Only.ensure _ _).bind fun _ => ?_
        exact (Svc.Only.ensure _ _).bind fun _ =>
          Svc.Only.pure _
      dsimp only
      rw [Svc.meets_bind]
      apply (bills_of_free hDirect).mono ?_
        (fun _ _ _ => trivial)
      rintro terms later ⟨-, hLater⟩
      exact bills_payWith hScoped (hLater.unbooked hNow)
        hExternal (fun _ => rfl) (fun _ => rfl)
  | some quoteId =>
      have hQuote :
          Svc.Only Free (quoteTerms input quoteId now) :=
        only_quoteTerms (fun _ => ⟨rfl, rfl, rfl⟩)
          (fun _ => ⟨rfl, rfl, rfl⟩) quoteId
      dsimp only
      rw [Svc.meets_bind]
      apply (bills_of_free hQuote).mono ?_
        (fun _ _ _ => trivial)
      rintro terms later ⟨-, hLater⟩
      exact bills_payWith hScoped (hLater.unbooked hNow)
        hExternal (fun _ => rfl) (fun _ => rfl)

theorem bills_doA2aPay
    (hUnbooked : Unbooked past) :
    (doA2aPay svc input mandate).Meets
      (BillRule svc input .a2aPay mandate)
      (fun _ _ => True) (fun _ _ => True) past := by
  rw [doA2aPay, Svc.meets_bind, Svc.meets_ofExcept]
  refine ⟨fun params hParams => ?_, fun _ _ => trivial⟩
  rw [Svc.meets_bind, Svc.meets_ensure]
  refine ⟨fun _ => ?_, fun _ => trivial⟩
  rw [Svc.meets_bind]
  apply external_of_a2a
  intro hTaken
  have hExternal :
      takesExternalOnly svc .a2aPay →
        ExternallyAuthorized (paymentOf svc input .a2aPay) := by
    intro hTakes
    have hPayment :
        paymentOf svc input .a2aPay = params.payment := by
      simp [paymentOf, hParams, Except.toOption]
    rw [hPayment]
    exact hTaken hTakes
  split
  · apply bills_withLock
    exact bills_payTerms (by decide) (hUnbooked.cons rfl)
      hExternal
  · exact bills_payTerms (by decide) hUnbooked hExternal

/- Every intent follows the billing rule. -/
theorem bills_dispatch
    (hUnbooked : Unbooked past) :
    (dispatch svc intent input mandate).Meets
      (BillRule svc input intent mandate)
      (fun _ _ => True) (fun _ _ => True) past := by
  cases intent with
  | search => exact bills_last (free_advisory (by decide))
  | describe => exact bills_last (free_advisory (by decide))
  | quote => exact bills_last free_doQuote
  | negotiate => exact bills_last free_doNegotiate
  | authorize => exact bills_last free_doAuthorize
  | buy => exact bills_doBuy (.inl rfl) hUnbooked
  | pay => exact bills_doBuy (.inr rfl) hUnbooked
  | subscribe => exact bills_doSubscribe hUnbooked
  | renew => exact bills_doRenew hUnbooked
  | pause => exact bills_last free_doPause
  | cancelSubscription =>
      exact bills_last free_doCancelSubscription
  | track => exact bills_last free_doTrack
  | confirmReceipt => exact bills_last free_doConfirmReceipt
  | «return» => exact bills_last free_doReturn
  | refundRequest => exact bills_last free_doReturn
  | a2aPay => exact bills_doA2aPay hUnbooked
  | a2aQuote => exact bills_last free_doA2aQuote

end Charging

end Protocol

end IcpHandler
