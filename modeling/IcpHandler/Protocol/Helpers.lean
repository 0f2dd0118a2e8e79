import IcpHandler.Protocol.Stops

/-
  Tracing the shared helpers: the lookups, the quote deadline,
  the reservation of mandate spend, the order, the webhooks
  and the charge of a subscription.

  Main declarations:
    * `meets_transactionForInput`
    * `meets_ensureQuoteOpen`
    * `meets_reserveMandateSpend`
    * `meets_persistOrderForTransaction`
    * `meets_enqueueWebhook`
    * `meets_runSubscriptionCharge`
-/

------------------------------------------------------------
-- Idle Blocks
------------------------------------------------------------

namespace IcpHandler

namespace Protocol

open Model Service Concurrency

/- The rule that only allows idle effects. -/
def IdleRule (_ : Moves) (effect : Eff) : Prop :=
  effect.isIdle = true

section Idle

variable {α : Type}
variable {svc : IcpService}
variable {op : Op}
variable {past : Moves}

/- The moves after an idle block, and after a quiet one. -/
def AfterIdle (past later : Moves) : Prop :=
  ∃ recent, later = recent ++ past ∧ Idle recent

def AfterQuiet (past later : Moves) : Prop :=
  ∃ recent, later = recent ++ past ∧
    ∀ move ∈ recent, move.effect.isQuiet = true

/- An idle block follows every rule of the service. -/
theorem meets_of_idle
    {body : Svc α}
    {Q : α → Moves → Prop}
    {X : Halt → Moves → Prop}
    (hIdle : body.Meets IdleRule Q X past) :
    body.Meets (Rule svc op)
      (fun value later =>
        Q value later ∧ AfterIdle past later)
      (fun halt later =>
        X halt later ∧ AfterIdle past later) past :=
  Svc.Meets.of_kind hIdle fun _ _ hKind =>
    rule_of_isIdle hKind

theorem Idle.append
    {recent : Moves}
    (hRecent : Idle recent)
    (hPast : Idle past) :
    Idle (recent ++ past) := by
  intro move hMove
  rcases List.mem_append.mp hMove with hMove | hMove
  · exact hRecent move hMove
  · exact hPast move hMove

theorem AfterIdle.refl : AfterIdle past past :=
  ⟨[], rfl, fun _ hMove => by cases hMove⟩

theorem AfterIdle.cons
    {later : Moves}
    {move : Move Eff.Res}
    (hAfter : AfterIdle past later)
    (hIdle : move.effect.isIdle = true) :
    AfterIdle past (move :: later) := by
  rcases hAfter with ⟨recent, rfl, hRecent⟩
  refine ⟨move :: recent, rfl, fun other hOther => ?_⟩
  rcases List.mem_cons.mp hOther with rfl | hOther
  · exact hIdle
  · exact hRecent other hOther

theorem AfterIdle.idle
    {later : Moves}
    (hAfter : AfterIdle past later)
    (hIdle : Idle past) :
    Idle later := by
  rcases hAfter with ⟨recent, rfl, hRecent⟩
  exact hRecent.append hIdle

theorem AfterIdle.quiet
    {later : Moves}
    (hAfter : AfterIdle past later) :
    AfterQuiet past later := by
  rcases hAfter with ⟨recent, rfl, hRecent⟩
  exact ⟨recent, rfl, fun move hMove =>
    (isIdle_iff.mp (hRecent move hMove)).1⟩

theorem AfterIdle.harmless
    {later : Moves}
    (hAfter : AfterIdle past later)
    (hHarmless : Harmless past) :
    Harmless later := by
  rcases hAfter with ⟨recent, rfl, hRecent⟩
  intro move hMove
  rcases List.mem_append.mp hMove with hMove | hMove
  · exact harmlessMove_of_isIdle (hRecent move hMove)
  · exact hHarmless move hMove

namespace AfterQuiet

variable {later : Moves}

theorem refl : AfterQuiet past past :=
  ⟨[], rfl, fun _ hMove => by cases hMove⟩

theorem cons
    {move : Move Eff.Res}
    (hAfter : AfterQuiet past later)
    (hQuiet : move.effect.isQuiet = true) :
    AfterQuiet past (move :: later) := by
  rcases hAfter with ⟨recent, rfl, hRecent⟩
  refine ⟨move :: recent, rfl, fun other hOther => ?_⟩
  rcases List.mem_cons.mp hOther with rfl | hOther
  · exact hQuiet
  · exact hRecent other hOther

theorem trans
    {latest : Moves}
    (hAfter : AfterQuiet past later)
    (hLatest : AfterQuiet later latest) :
    AfterQuiet past latest := by
  rcases hAfter with ⟨middle, rfl, hMiddle⟩
  rcases hLatest with ⟨recent, rfl, hRecent⟩
  refine ⟨recent ++ middle, by simp, fun move hMove => ?_⟩
  rcases List.mem_append.mp hMove with hMove | hMove
  · exact hRecent move hMove
  · exact hMiddle move hMove

theorem mem
    {move : Move Eff.Res}
    (hAfter : AfterQuiet past later)
    (hMove : move ∈ past) :
    move ∈ later := by
  rcases hAfter with ⟨recent, rfl, _⟩
  exact List.mem_append_right _ hMove

/- What a quiet block leaves as it was. -/
theorem pendingCharge_eq
    (hAfter : AfterQuiet past later) :
    pendingCharge later = pendingCharge past := by
  rcases hAfter with ⟨recent, rfl, hRecent⟩
  exact pendingCharge_append recent fun move hMove =>
    ⟨(isQuiet_iff.mp (hRecent move hMove)).2.1,
      (isQuiet_iff.mp (hRecent move hMove)).1⟩

theorem seenTxn
    {id : String}
    {txn : Transaction}
    (hAfter : AfterQuiet past later)
    (hSeen : SeenTxn id txn past) :
    SeenTxn id txn later := by
  rcases hAfter with ⟨recent, rfl, hRecent⟩
  exact hSeen.append recent fun move hMove =>
    ⟨(isQuiet_iff.mp (hRecent move hMove)).1,
      (isQuiet_iff.mp (hRecent move hMove)).2.2.2⟩

theorem seenSub
    {id : String}
    {sub : Subscription}
    (hAfter : AfterQuiet past later)
    (hSeen : SeenSub id sub past) :
    SeenSub id sub later := by
  rcases hAfter with ⟨recent, rfl, hRecent⟩
  exact hSeen.append recent fun move hMove =>
    ⟨(isQuiet_iff.mp (hRecent move hMove)).2.1,
      (isQuiet_iff.mp (hRecent move hMove)).2.2.2⟩

theorem seenQuote
    {id : String}
    {quote : PeerQuote}
    (hAfter : AfterQuiet past later)
    (hSeen : SeenQuote id quote past) :
    SeenQuote id quote later := by
  rcases hAfter with ⟨recent, rfl, hRecent⟩
  exact hSeen.append recent fun move hMove =>
    ⟨(isQuiet_iff.mp (hRecent move hMove)).2.2.1,
      (isQuiet_iff.mp (hRecent move hMove)).2.2.2⟩

theorem freshSub
    {id : String}
    (hAfter : AfterQuiet past later)
    (hFresh : Fresh Eff.touchesSubs "sub_" id past) :
    Fresh Eff.touchesSubs "sub_" id later := by
  rcases hAfter with ⟨recent, rfl, hRecent⟩
  exact hFresh.append recent fun move hMove =>
    (isQuiet_iff.mp (hRecent move hMove)).2.1

end AfterQuiet

/- Webhooks are idle, however many there are. -/
def WebhookRule (_ : Moves) (effect : Eff) : Prop :=
  effect.isIdle = true ∧ effect.announces = false

theorem meets_enqueueAll
    (event : Event)
    (tenantId payloadJson : String)
    (now : DateTime)
    (urls : List String) :
    (enqueueAll event tenantId payloadJson now urls).Meets
      WebhookRule (fun _ _ => True) (fun _ _ => False)
      past := by
  induction urls generalizing past with
  | nil => trivial
  | cons url urls ih =>
      simp only [enqueueAll, Svc.meets_bind]
      exact ⟨⟨rfl, rfl⟩, fun _ => ⟨⟨rfl, rfl⟩, fun _ => ih⟩⟩

theorem meets_webhookRule
    (event : Event)
    (tenantId : String) :
    (enqueueWebhook svc event tenantId).Meets WebhookRule
      (fun _ _ => True) (fun _ _ => False) past := by
  simp only [enqueueWebhook, Svc.meets_bind]
  exact ⟨⟨rfl, rfl⟩, fun _ => ⟨⟨rfl, rfl⟩, fun _ =>
    meets_enqueueAll event tenantId _ _ _⟩⟩

theorem meets_enqueueWebhook
    (event : Event)
    (tenantId : String) :
    (enqueueWebhook svc event tenantId).Meets (Rule svc op)
      (fun _ later =>
        ∃ recent, later = recent ++ past ∧ Idle recent ∧
          ∀ move ∈ recent, move.effect.announces = false)
      (fun _ _ => False) past := by
  refine (Svc.Meets.of_kind (meets_webhookRule _ _)
    fun _ _ hMove => rule_of_isIdle hMove.1).mono ?_
    (fun _ _ hPost => hPost.1)
  rintro _ later ⟨-, recent, rfl, hRecent⟩
  exact ⟨recent, rfl, fun move hMove => (hRecent move hMove).1,
    fun move hMove => (hRecent move hMove).2⟩

end Idle

end Protocol

end IcpHandler

------------------------------------------------------------
-- Lookups
------------------------------------------------------------

namespace IcpHandler

namespace Protocol

open Model Service Concurrency

section Lookups

variable {svc : IcpService}
variable {op : Op}
variable {past : Moves}
variable {input : IntentInput}
variable {id : String}
variable {X : Halt → Moves → Prop}

theorem meets_transactionForInput
    {Q : Transaction → Moves → Prop}
    (hFound :
      ∀ txn, txn.tenantId = input.tenant.tenantId →
        Q txn (⟨.txns (.get id), some txn⟩ :: past))
    (hMissing :
      ∀ found error,
        X (.error error) (⟨.txns (.get id), found⟩ :: past)) :
    (transactionForInput id input).Meets (Rule svc op) Q X
      past := by
  simp only [transactionForInput, Svc.meets_bind,
    Svc.meets_orFail, Svc.meets_ensure, Svc.meets_pure,
    beq_iff_eq]
  refine ⟨trivial, fun found => ⟨?_, fun _ =>
    hMissing found _⟩⟩
  rintro txn rfl
  exact ⟨hFound txn, fun _ => hMissing _ _⟩

theorem meets_subscriptionForInput
    {Q : Subscription → Moves → Prop}
    (hFound :
      ∀ sub, sub.tenantId = input.tenant.tenantId →
        Q sub (⟨.subs (.get id), some sub⟩ :: past))
    (hMissing :
      ∀ found error,
        X (.error error) (⟨.subs (.get id), found⟩ :: past)) :
    (subscriptionForInput id input).Meets (Rule svc op) Q X
      past := by
  simp only [subscriptionForInput, Svc.meets_bind,
    Svc.meets_orFail, Svc.meets_ensure, Svc.meets_pure,
    beq_iff_eq]
  refine ⟨trivial, fun found => ⟨?_, fun _ =>
    hMissing found _⟩⟩
  rintro sub rfl
  exact ⟨hFound sub, fun _ => hMissing _ _⟩

theorem meets_peerQuoteForInput
    {Q : PeerQuote → Moves → Prop}
    (hFound :
      ∀ quote, quote.tenantId = input.tenant.tenantId →
        Q quote (⟨.quotes (.get id), some quote⟩ :: past))
    (hMissing :
      ∀ found error,
        X (.error error)
          (⟨.quotes (.get id), found⟩ :: past)) :
    (peerQuoteForInput id input).Meets (Rule svc op) Q X
      past := by
  simp only [peerQuoteForInput, Svc.meets_bind,
    Svc.meets_orFail, Svc.meets_ensure, Svc.meets_pure,
    beq_iff_eq]
  refine ⟨trivial, fun found => ⟨?_, fun _ =>
    hMissing found _⟩⟩
  rintro quote rfl
  exact ⟨hFound quote, fun _ => hMissing _ _⟩

/-
  A lapsed quote is refused, after marking it expired where
  it is still open.
-/
theorem meets_ensureQuoteOpen
    {Q : Unit → Moves → Prop}
    {txn : Transaction}
    {now : DateTime}
    (hRule :
      Rule svc op past (.txns (.update txn.id
        (.expireIfOpen now))))
    (hOpen : Q () past)
    (hLapsed : ∀ error, X (.error error) past)
    (hMarked :
      ∀ found error,
        X (.error error)
          (⟨.txns (.update txn.id (.expireIfOpen now)),
            found⟩ :: past)) :
    (ensureQuoteOpen txn now).Meets (Rule svc op) Q X
      past := by
  unfold ensureQuoteOpen expireOpenQuote
  split
  · split
    · simp only [Svc.meets_bind, Svc.meets_pure,
        Svc.meets_fail]
      exact ⟨hRule, fun found => hMarked found _⟩
    · simp only [Svc.meets_bind, Svc.meets_pure,
        Svc.meets_fail]
      exact hLapsed _
  · exact hOpen

end Lookups

end Protocol

end IcpHandler

------------------------------------------------------------
-- Money
------------------------------------------------------------

namespace IcpHandler

namespace Protocol

open Model Service Concurrency

section Money

variable {svc : IcpService}
variable {op : Op}
variable {past : Moves}
variable {X : Halt → Moves → Prop}

/-
  A reservation records the amount asked, once, and only a
  positive amount on a mandate.
-/
theorem meets_reserveMandateSpend
    {mandate : Option MandateEvaluation}
    {tenantId currency : String}
    {amountMinor : Int64}
    {Q : Unit → Moves → Prop}
    (hRule :
      0 < amountMinor →
        ∀ moves jti now limits,
          Rule svc op moves
            (.recordSpend jti tenantId amountMinor now limits))
    (hNone :
      (mandate = none ∨ amountMinor ≤ 0) → Q () past)
    (hSpent :
      ∀ jti now limits,
        Q () (⟨.recordSpend jti tenantId amountMinor now
          limits, .ok ()⟩ :: ⟨.now, now⟩ :: past))
    (hStop : ∀ halt, X halt past)
    (hRefused :
      ∀ jti now limits error,
        X (.error error)
          (⟨.recordSpend jti tenantId amountMinor now limits,
            .error error⟩ :: ⟨.now, now⟩ :: past)) :
    (reserveMandateSpend mandate tenantId amountMinor
      currency).Meets (Rule svc op) Q X past := by
  cases mandate with
  | none => exact hNone (.inl rfl)
  | some ev =>
      simp only [reserveMandateSpend]
      split
      · exact hNone (.inr ‹_›)
      · rename_i hPositive
        have hPos : 0 < amountMinor :=
          Int64.not_le.mp hPositive
        rw [Svc.meets_bind, Svc.meets_ensure]
        refine ⟨fun _ => ?_, fun _ => hStop _⟩
        cases parsePeriod ev.payload.icp.budget.period with
        | error message => exact hStop _
        | ok period =>
            simp only [Svc.meets_pure, Svc.meets_bind,
              Svc.meets_ofExcept]
            refine ⟨trivial, fun now => ⟨hRule hPos _ _ _ _,
              fun result => ⟨?_, ?_⟩⟩⟩
            · rintro value rfl
              exact hSpent _ now _
            · rintro error rfl
              exact hRefused _ now _ error

/-
  An order is created at most once, with the transaction's
  total. Only production insists on one.
-/
theorem meets_persistOrderForTransaction
    {txn : Transaction}
    {Q : Option OrderSummary → Moves → Prop}
    (hNone : Q none past)
    (hCreated :
      ∀ order summary, summary.id = order.id →
        Q (some summary)
          (⟨.createOrder txn.buyer txn.currency txn.lineItems
              (txn.totals.total.getD (.new 0 txn.currency)),
            .ok order⟩ :: past))
    (hFailed :
      ∀ error,
        Q none
          (⟨.createOrder txn.buyer txn.currency txn.lineItems
              (txn.totals.total.getD (.new 0 txn.currency)),
            .error error⟩ :: past))
    (hStop :
      svc.config.isProduction = true →
        ∀ error, X (.error error) past)
    (hRefused :
      svc.config.isProduction = true →
        ∀ error,
          X (.error error)
            (⟨.createOrder txn.buyer txn.currency
                txn.lineItems
                (txn.totals.total.getD
                  (.new 0 txn.currency)),
              .error error⟩ :: past)) :
    (persistOrderForTransaction svc txn).Meets (Rule svc op)
      Q X past := by
  unfold persistOrderForTransaction enginePersistOrder
  dsimp only
  split
  · rw [Svc.meets_bind]
    split
    · simp only [Svc.meets_bind, Svc.meets_pure]
      refine ⟨trivial, fun created => ?_⟩
      cases created with
      | ok order => exact hCreated order _ rfl
      | error error =>
          simp only [Except.map]
          split
          · exact hRefused ‹_› error
          · exact hFailed error
    · simp only [Svc.meets_pure]
      split
      · exact hStop ‹_› _
      · exact hNone
  · split
    · exact hStop ‹_› _
    · exact hNone

end Money

end Protocol

end IcpHandler

------------------------------------------------------------
-- Subscription Charges
------------------------------------------------------------

namespace IcpHandler

namespace Protocol

open Model Service Concurrency

/- Whether items can be priced does not depend on the field. -/
theorem priceLoop_ok_congr
    {currency fieldPrefix other : String}
    {idx : Nat}
    {subtotalMinor : Int64}
    {items : List RequestItem}
    {priced : List LineItem × Int64}
    (hPriced :
      priceLoop currency fieldPrefix idx subtotalMinor items =
        .ok priced) :
    priceLoop currency other idx subtotalMinor items =
      .ok priced := by
  induction items generalizing idx subtotalMinor priced with
  | nil => exact hPriced
  | cons req items ih =>
      simp only [priceLoop] at hPriced ⊢
      split at hPriced
      · cases hPriced
      · split at hPriced
        · cases hPriced
        · rename_i hQuantity hUnit
          rw [if_neg hQuantity, if_neg hUnit]
          cases hRest : priceLoop currency fieldPrefix
              (idx + 1) _ items with
          | error error =>
              rw [hRest] at hPriced
              cases hPriced
          | ok rest =>
              rw [hRest] at hPriced
              rw [ih hRest]
              exact hPriced

theorem priceRequestItems_ok_congr
    {items : List RequestItem}
    {currency fieldPrefix : String}
    {priced : List LineItem × Totals}
    (other : String)
    (hPriced :
      priceRequestItems items currency fieldPrefix =
        .ok priced) :
    priceRequestItems items currency other = .ok priced := by
  unfold priceRequestItems at hPriced ⊢
  cases hLoop : priceLoop currency fieldPrefix 0 0 items with
  | error error =>
      rw [hLoop] at hPriced
      cases hPriced
  | ok found =>
      rw [hLoop] at hPriced
      rw [priceLoop_ok_congr hLoop]
      exact hPriced

section Charges

variable {svc : IcpService}
variable {op : Op}
variable {past : Moves}
variable {input : IntentInput}
variable {buyer : Buyer}
variable {shipTo : Option Address}
variable {items : List RequestItem}
variable {currency : String}
variable {bills : Billing}
variable {X : Halt → Moves → Prop}

/-
  Why a charge is refused: the items have no price, or
  production has no order for it.
-/
def ChargeRefused
    (svc : IcpService)
    (items : List RequestItem)
    (currency : String)
    (past later : Moves) : Prop :=
  (∃ error,
      priceRequestItems items currency "subscription.items" =
        .error error) ∨
    (svc.config.isProduction = true ∧
      (¬ Ordered past → ¬ Ordered later))

/-
  A charge is the last thing the block does. Where it is
  refused, nothing was written.
-/
theorem meets_runSubscriptionCharge
    {Q : Transaction × Option OrderSummary → Moves → Prop}
    (hSettled : pendingCharge past = none)
    (hBill :
      ∀ later, AfterQuiet past later →
        MayBill op later input.tenant.tenantId bills)
    (hDone :
      ∀ charge txn later, AfterQuiet past later →
        Q charge (⟨.insertCharge txn bills, ()⟩ :: later))
    (hRefused :
      ∀ later error, AfterQuiet past later →
        (Harmless past → Harmless later) →
        ChargeRefused svc items currency past later →
        X (.error error) later) :
    (runSubscriptionCharge svc input buyer shipTo items
      currency bills).Meets (Rule svc op) Q X past := by
  simp only [runSubscriptionCharge, Svc.meets_bind,
    Svc.meets_ofExcept]
  refine ⟨fun priced _ => ?_, fun error hError => ?_⟩
  · refine ⟨trivial, fun now => ⟨trivial, fun token => ?_⟩⟩
    have hDrawn : AfterQuiet past
        (⟨.uuid, token⟩ :: ⟨.now, now⟩ :: past) :=
      (AfterQuiet.refl.cons rfl).cons rfl
    have hHere :
        Fresh Eff.touchesTxns "txn_" ("txn_" ++ token)
          (⟨.uuid, token⟩ :: ⟨.now, now⟩ :: past) :=
      ⟨token, rfl, .here⟩
    -- Whatever came of the order, the charge is inserted.
    have hInsert :
        ∀ later txn, AfterQuiet past later →
          Fresh Eff.touchesTxns "txn_" txn.id later →
          txn.state = .completed →
          txn.tenantId = input.tenant.tenantId →
          Rule svc op later (.insertCharge txn bills) := by
      intro later txn hLater hFresh hState hTenant
      refine ⟨hFresh, hState, ?_, ?_⟩
      · rw [hLater.pendingCharge_eq, hSettled]
      · rw [hTenant]
        exact hBill later hLater
    refine meets_persistOrderForTransaction ?_ ?_ ?_ ?_ ?_
    · exact ⟨hInsert _ _ hDrawn hHere rfl rfl,
        fun _ => hDone _ _ _ hDrawn⟩
    · intro order summary _
      exact ⟨hInsert _ _ (hDrawn.cons rfl) (hHere.cons rfl)
          rfl rfl,
        fun _ => hDone _ _ _ (hDrawn.cons rfl)⟩
    · intro error
      exact ⟨hInsert _ _ (hDrawn.cons rfl) (hHere.cons rfl)
          rfl rfl,
        fun _ => hDone _ _ _ (hDrawn.cons rfl)⟩
    · intro hProduction error
      refine hRefused _ error hDrawn ?_
        (.inr ⟨hProduction, fun hNone => ?_⟩)
      · intro hHarmless
        exact harmless_cons.mpr ⟨trivial,
          harmless_cons.mpr ⟨trivial, hHarmless⟩⟩
      · rintro ⟨buyer, currency, items, total, order, hMem⟩
        refine hNone ⟨buyer, currency, items, total, order, ?_⟩
        simpa using hMem
    · intro hProduction error
      refine hRefused _ error (hDrawn.cons rfl) ?_
        (.inr ⟨hProduction, fun hNone => ?_⟩)
      · intro hHarmless
        exact harmless_cons.mpr ⟨⟨_, rfl⟩,
          harmless_cons.mpr ⟨trivial,
            harmless_cons.mpr ⟨trivial, hHarmless⟩⟩⟩
      · rintro ⟨buyer, currency, items, total, order, hMem⟩
        refine hNone ⟨buyer, currency, items, total, order, ?_⟩
        simp only [List.mem_cons, Move.mk.injEq] at hMem
        rcases hMem with ⟨hEq, hAnswer⟩ | hMem | hMem | hMem
        · cases hEq
          cases eq_of_heq hAnswer
        · cases hMem.1
        · cases hMem.1
        · exact hMem
  · exact hRefused past error .refl (fun hHarmless => hHarmless)
      (.inl ⟨error, hError⟩)

end Charges

end Protocol

end IcpHandler
