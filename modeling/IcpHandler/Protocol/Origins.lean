import IcpHandler.Properties.ExactPricing
import IcpHandler.Protocol.Runs
import IcpHandler.Protocol.TransactionTurns

/-
  Where the amounts of a stored transaction come from: the
  items it was priced for, the payment it stands for, or
  nothing at all. A counter-offer is the only way to write an
  amount into a transaction that is already stored. The lines
  of a stored transaction count at least one piece each, and
  are priced in the transaction's currency.

  Main declarations:
    * `PricedFor`, `Origin`
    * `CounterOffer`
    * `OriginRule`, `origin_of_stored`
    * `CountedLines`, `CountsLines`
    * `storing_traced`, `Reaches.originated`
    * `Reaches.countsLines`
-/

------------------------------------------------------------
-- Origins
------------------------------------------------------------

namespace IcpHandler

namespace Protocol

open Model Service Concurrency

/-
  The items that a transaction is priced for, and the currency
  it is priced in: the caller's own, or those of a stored
  subscription.
-/
inductive PricedFor
    (svc : IcpService)
    (op : Op)
    (past : Moves)
    (effect : Eff) :
    List RequestItem → String → Prop where
  | quoted
      (input : IntentInput)
      (params : QuoteParams)
      (hOp : op = .intent input)
      (hIntent :
        Intent.parse input.envelope.intent = .ok .quote)
      (hParams :
        svc.deps.quoteParams input.envelope.params = .ok params) :
      PricedFor svc op past effect params.items
        (input.envelope.context.currency.getD "USD")
  | enrolled
      (input : IntentInput)
      (params : SubscribeParams)
      (hOp : op = .intent input)
      (hIntent :
        Intent.parse input.envelope.intent = .ok .subscribe)
      (hParams :
        svc.deps.subscribeParams input.envelope.params =
          .ok params) :
      PricedFor svc op past effect params.items
        (input.envelope.context.currency.getD "USD")
  | renewed
      (input : IntentInput)
      (params : RenewParams)
      (sub : Subscription)
      (hOp : op = .intent input)
      (hIntent :
        Intent.parse input.envelope.intent = .ok .renew)
      (hParams :
        svc.deps.renewParams input.envelope.params = .ok params)
      (hRead :
        (⟨.subs (.get params.subscriptionId), some sub⟩ :
          Move Eff.Res) ∈ past) :
      PricedFor svc op past effect sub.items sub.currency
  | billed
      (now : DateTime)
      (sub : Subscription)
      (row : Transaction)
      (hOp : op = .tickSubscriptions now)
      (hEffect :
        effect =
          .insertCharge row ⟨sub.id, sub.currentPeriodEnd⟩)
      (hListed : ListedSub sub past) :
      PricedFor svc op past effect sub.items sub.currency

/- The intents that price items. -/
def pricesItems : Intent → Bool
  | .quote | .subscribe | .renew => true
  | _ => false

/- The operation prices no items. -/
def ItemFree (op : Op) : Prop :=
  ∃ input intent, op = .intent input ∧
    Intent.parse input.envelope.intent = .ok intent ∧
    pricesItems intent = false

/- The ways a transaction comes by its amounts. -/
inductive Origin
    (svc : IcpService)
    (op : Op)
    (past : Moves)
    (effect : Eff)
    (row : Transaction) : Prop where
  | blank
      (hFree : ItemFree op)
      (hTotals : row.totals = {})
      (hLines : row.lineItems = [])
  | priced
      (items : List RequestItem)
      (fieldPrefix : String)
      (totals : Totals)
      (hFor : PricedFor svc op past effect items row.currency)
      (hPriced :
        priceRequestItems items row.currency fieldPrefix =
          .ok (row.lineItems, totals))
      (hTotals :
        row.totals = totals ∨
          ∃ discountMinor,
            row.totals =
              applyDiscountToTotals totals discountMinor
                row.currency)
  | paid
      (money : Money)
      (hFree : ItemFree op)
      (hPositive : 0 < money.amountMinor)
      (hCurrency : row.currency = money.currency)
      (hTotals :
        row.totals =
          { subtotal := some money, total := some money })
      (hLines :
        ∀ line ∈ row.lineItems,
          line.unitPrice = money ∧ line.subtotal = money ∧
            line.total = money)

/- An offer on a transaction that the intent has read. -/
structure CounterOffer
    (svc : IcpService)
    (input : IntentInput)
    (params : NegotiateParams)
    (txn : Transaction)
    (op : Op)
    (past : Moves)
    (id : String)
    (patch : TxnPatch) : Prop where
  operation : op = .intent input
  intent : Intent.parse input.envelope.intent = .ok .negotiate
  decoded :
    svc.deps.negotiateParams input.envelope.params = .ok params
  names : params.transactionId = id
  read : (⟨.txns (.get id), some txn⟩ : Move Eff.Res) ∈ past
  acceptable : Acceptable svc input params txn
  writes : ∃ now, patch = offerPatch svc input params txn now

/- The update writes an amount. -/
def reprices : TxnPatch → Bool
  | .renegotiate _ _ _ _ _ => true
  | _ => false

/- The effect writes an amount into a transaction. -/
def prices : Eff → Bool
  | .txns (.insert _) => true
  | .txns (.update _ patch) => reprices patch
  | .insertCharge _ _ => true
  | _ => false

def Unpriced (effect : Eff) : Prop := prices effect = false

def OriginRule
    (svc : IcpService)
    (op : Op)
    (past : Moves) : Eff → Prop
  | .txns (.insert row) =>
      Origin svc op past (.txns (.insert row)) row
  | .insertCharge row bills =>
      Origin svc op past (.insertCharge row bills) row
  | .txns (.update id patch) =>
      reprices patch = true →
        ∃ input params txn,
          CounterOffer svc input params txn op past id patch
  | _ => True

/-
  Every line is for one piece at least, in the currency of the
  transaction.
-/
def CountedLines (row : Transaction) : Prop :=
  ∀ line ∈ row.lineItems,
    0 < line.quantity ∧ line.unitPrice.currency = row.currency

/- What the effect stores has counted lines. -/
def CountsLines : Eff → Prop
  | .txns (.insert row) => CountedLines row
  | .insertCharge row _ => CountedLines row
  | _ => True

section Rules

variable {svc : IcpService} {op : Op}
variable {past : Moves} {effect : Eff}
variable {items : List RequestItem} {currency : String}

theorem countedLines_of_blank
    {row : Transaction}
    (hLines : row.lineItems = []) :
    CountedLines row := by
  intro line hLine
  rw [hLines] at hLine
  cases hLine

/- What a relation gives to every element on its right. -/
private theorem forall_mem_of_forall₂
    {α β : Type}
    {R : α → β → Prop}
    {P : β → Prop}
    {left : List α}
    {right : List β}
    (hRelated : List.Forall₂ R left right)
    (hGives : ∀ a ∈ left, ∀ b, R a b → P b) :
    ∀ b ∈ right, P b := by
  induction hRelated with
  | nil => exact fun _ hMem => nomatch hMem
  | cons hHead hTail ih =>
      refine List.forall_mem_cons.mpr
        ⟨hGives _ List.mem_cons_self _ hHead, ih ?_⟩
      exact fun a hMem =>
        hGives a (List.mem_cons_of_mem _ hMem)

theorem countedLines_of_priced
    {row : Transaction}
    {fieldPrefix : String}
    {totals : Totals}
    (hPriced :
      priceRequestItems items row.currency fieldPrefix =
        .ok (row.lineItems, totals)) :
    CountedLines row := by
  obtain ⟨_, _, _, hExact, -⟩ := pricedExactly_of_ok hPriced
  have hItems := priceable_of_ok hPriced
  refine forall_mem_of_forall₂ hExact.lines_for ?_
  intro item hItem line hFor
  rw [hFor.quantity, hFor.unitPrice]
  exact ⟨(hItems item hItem).1, rfl⟩

theorem countsLines_of_unpriced
    (hUnpriced : Unpriced effect) :
    CountsLines effect := by
  cases effect with
  | txns act =>
      cases act with
      | insert row => cases hUnpriced
      | _ => exact trivial
  | insertCharge row bills => cases hUnpriced
  | _ => exact trivial

theorem PricedFor.append
    (hFor : PricedFor svc op past effect items currency)
    (recent : Moves) :
    PricedFor svc op (recent ++ past) effect items currency := by
  cases hFor with
  | quoted input params hOp hIntent hParams =>
      exact .quoted input params hOp hIntent hParams
  | enrolled input params hOp hIntent hParams =>
      exact .enrolled input params hOp hIntent hParams
  | renewed input params sub hOp hIntent hParams hRead =>
      exact .renewed input params sub hOp hIntent hParams
        (List.mem_append_right recent hRead)
  | billed now sub row hOp hEffect hListed =>
      obtain ⟨listed, due, hDue, hMem⟩ := hListed
      exact .billed now sub row hOp hEffect
        ⟨listed, due, hDue, List.mem_append_right recent hMem⟩

theorem originRule_of_unpriced
    (hUnpriced : Unpriced effect) :
    OriginRule svc op past effect := by
  cases effect with
  | txns act =>
      cases act with
      | insert row => cases hUnpriced
      | update id patch =>
          intro hReprices
          have hNot : reprices patch = false := hUnpriced
          rw [hReprices] at hNot
          cases hNot
      | _ => exact trivial
  | insertCharge row bills => cases hUnpriced
  | _ => exact trivial

/- The occurrence is to store the row. -/
def StoredBy (o : Happening) (row : Transaction) : Prop :=
  o.effect = .txns (.insert row) ∨
    ∃ bills, o.effect = .insertCharge row bills

theorem origin_of_stored
    {o : Happening}
    {row : Transaction}
    (hRule : OriginRule svc op past o.effect)
    (hStored : StoredBy o row) :
    Origin svc op past o.effect row := by
  rcases hStored with hEffect | ⟨bills, hEffect⟩
  · rw [hEffect] at hRule ⊢
    exact hRule
  · rw [hEffect] at hRule ⊢
    exact hRule

theorem unpriced_of_quiet
    (hQuiet : effect.isQuiet = true) :
    Unpriced effect := by
  have hUntouched := (isQuiet_iff.mp hQuiet).1
  cases effect with
  | txns act =>
      cases act with
      | insert row => cases hUntouched
      | update id patch => cases hUntouched
      | _ => rfl
  | insertCharge row bills => cases hUntouched
  | _ => rfl

end Rules

end Protocol

end IcpHandler

------------------------------------------------------------
-- Blocks that Write No Amount
------------------------------------------------------------

namespace IcpHandler

/- A hushed block writes no amount. -/
theorem Model.Svc.Only.unpriced
    {α : Type}
    {body : Model.Svc α}
    (hHushed : Model.Svc.Only Protocol.Hushed body) :
    Model.Svc.Only Protocol.Unpriced body :=
  hHushed.mono fun _ hEffect =>
    Protocol.unpriced_of_quiet hEffect.quiet

namespace Protocol

open Model Service Concurrency

section Unpriced

variable {svc : IcpService} {op : Op}
variable {input : IntentInput} {intent : Intent}
variable {mandate : Option MandateEvaluation}
variable {past : Moves}

theorem unpriced_ensureQuoteOpen
    (txn : Transaction)
    (now : DateTime) :
    Svc.Only Unpriced (ensureQuoteOpen txn now) :=
  only_ensureQuoteOpen (fun _ => rfl) txn

theorem unpriced_ensureBuyable (txn : Transaction) :
    Svc.Only Unpriced (ensureBuyable txn) :=
  have hNow : Unpriced .now := rfl
  only_ensureBuyable hNow (fun _ _ => rfl) txn

theorem unpriced_doAuthorize :
    Svc.Only Unpriced (doAuthorize svc input) := by
  refine (Svc.Only.ofExcept _ _).bind fun params => ?_
  refine Svc.Only.withLock rfl rfl ?_
  refine (hushed_transactionForInput _).unpriced.bind
    fun txn => ?_
  refine (Svc.Only.ensure _ _).bind fun _ => ?_
  refine (Svc.Only.ensure _ _).bind fun _ => ?_
  refine Svc.Only.bind (Svc.Only.act rfl) fun checked => ?_
  refine (unpriced_ensureQuoteOpen _ _).bind fun _ => ?_
  refine Svc.Only.bind (Svc.Only.act rfl) fun now => ?_
  refine Svc.Only.bind (Svc.Only.act rfl) fun updated => ?_
  exact (Svc.Only.orFail _ _).bind fun _ => Svc.Only.pure _

theorem unpriced_doBuy :
    Svc.Only Unpriced (doBuy svc input mandate) := by
  refine (Svc.Only.ofExcept _ _).bind fun params => ?_
  refine (Svc.Only.ofExcept _ _).bind fun _ => ?_
  refine Svc.Only.withLock rfl rfl ?_
  refine (hushed_transactionForInput _).unpriced.bind
    fun txn => ?_
  refine (Svc.Only.ensure _ _).bind fun _ => ?_
  refine (unpriced_ensureBuyable _).bind fun _ => ?_
  refine (hushed_reserve _ _ _ _).unpriced.bind fun _ => ?_
  refine (hushed_persistOrderForTransaction _).unpriced.bind
    fun order => ?_
  refine Svc.Only.bind (Svc.Only.act rfl) fun now => ?_
  refine Svc.Only.bind (Svc.Only.act rfl) fun updated => ?_
  exact (Svc.Only.orFail _ _).bind fun _ => Svc.Only.pure _

theorem unpriced_doTrack :
    Svc.Only Unpriced (doTrack input) := by
  refine (Svc.Only.orFail _ _).bind fun txnId => ?_
  exact (hushed_transactionForInput _).unpriced.bind fun _ =>
    Svc.Only.pure _

theorem unpriced_doReturn :
    Svc.Only Unpriced (doReturn input) := by
  refine (Svc.Only.orFail _ _).bind fun txnId => ?_
  refine Svc.Only.withLock rfl rfl ?_
  refine (hushed_transactionForInput _).unpriced.bind
    fun txn => ?_
  refine Svc.Only.bind (Svc.Only.act rfl) fun now => ?_
  refine Svc.Only.bind (Svc.Only.act rfl) fun updated => ?_
  exact (Svc.Only.orFail _ _).bind fun _ => Svc.Only.pure _

theorem unpriced_doConfirmReceipt :
    Svc.Only Unpriced (doConfirmReceipt svc input) := by
  refine (Svc.Only.ofExcept _ _).bind fun params => ?_
  refine Svc.Only.withLock rfl rfl ?_
  refine (hushed_transactionForInput _).unpriced.bind
    fun txn => ?_
  refine (Svc.Only.ensure _ _).bind fun _ => ?_
  refine (Svc.Only.ensure _ _).bind fun _ => ?_
  refine Svc.Only.bind (Svc.Only.act rfl) fun now => ?_
  refine Svc.Only.bind (Svc.Only.act rfl) fun updated => ?_
  exact (Svc.Only.orFail _ _).bind fun _ => Svc.Only.pure _

/- What follows an intent writes no amount. -/
theorem unpriced_respond (outcome : Outcome) :
    Svc.Only Unpriced
      (respond svc intent input mandate outcome) := by
  unfold respond announce
  refine Svc.Only.bind (Svc.Only.act rfl) fun issuedAt => ?_
  refine hushed_intentIdFor.unpriced.bind fun intentId => ?_
  refine (hushed_receiptFor _).unpriced.bind fun receipt => ?_
  refine Svc.Only.bind ?_ fun _ => Svc.Only.pure _
  refine Svc.Only.bind (Svc.Only.act rfl) fun token => ?_
  refine Svc.Only.bind (Svc.Only.act rfl) fun occurredAt => ?_
  dsimp only
  split
  · exact (hushed_enqueueWebhook _ _).unpriced.bind fun _ =>
      Svc.Only.act rfl
  · exact Svc.Only.act rfl

end Unpriced

end Protocol

end IcpHandler

------------------------------------------------------------
-- Blocks that Write Amounts
------------------------------------------------------------

namespace IcpHandler

namespace Protocol

open Model Service Concurrency

/- Amounts come from somewhere, and lines are counted. -/
def StoringRule
    (svc : IcpService)
    (op : Op)
    (past : Moves)
    (effect : Eff) : Prop :=
  OriginRule svc op past effect ∧ CountsLines effect

theorem storingRule_of_unpriced
    {svc : IcpService} {op : Op}
    {past : Moves} {effect : Eff}
    (hUnpriced : Unpriced effect) :
    StoringRule svc op past effect :=
  ⟨originRule_of_unpriced hUnpriced,
    countsLines_of_unpriced hUnpriced⟩

/- The block writes amounts by the rule only. -/
abbrev Traces
    {α : Type}
    (svc : IcpService)
    (op : Op)
    (body : Svc α)
    (past : Moves) : Prop :=
  body.Meets (StoringRule svc op) (fun _ _ => True)
    (fun _ _ => True) past

section Blocks

variable {α β : Type}
variable {svc : IcpService} {op : Op}
variable {input : IntentInput}
variable {past : Moves}

theorem traces_of_unpriced
    {body : Svc α}
    (hBody : Svc.Only Unpriced body) :
    Traces svc op body past :=
  (Svc.Meets.of_kind (hBody past) fun _ _ hUnpriced =>
    storingRule_of_unpriced hUnpriced).mono
    (fun _ _ _ => trivial) (fun _ _ _ => trivial)

/- After a block that writes no amount. -/
theorem traces_after
    {body : Svc α}
    {next : α → Svc β}
    (hBody : Svc.Only Unpriced body)
    (hNext :
      ∀ value recent,
        Traces svc op (next value) (recent ++ past)) :
    Traces svc op (body >>= next) past :=
  hBody.andThen
    (fun _ _ hUnpriced => storingRule_of_unpriced hUnpriced)
    (fun _ _ => trivial) hNext

/- After such a block that tells of its value. -/
theorem traces_told
    {body : Svc α}
    {next : α → Svc β}
    {Q : α → Moves → Prop}
    (hBody :
      body.Meets (fun _ effect => Unpriced effect) Q
        (fun _ _ => True) past)
    (hNext :
      ∀ value recent, Q value (recent ++ past) →
        Traces svc op (next value) (recent ++ past)) :
    Traces svc op (body >>= next) past := by
  rw [Traces, Svc.meets_bind]
  refine Svc.Meets.mono
    (Svc.Meets.of_kind hBody fun _ _ hUnpriced =>
      storingRule_of_unpriced hUnpriced)
    ?_ (fun _ _ _ => trivial)
  rintro value later ⟨hValue, recent, rfl, -⟩
  exact hNext value recent hValue

theorem traces_withLock
    {key : String}
    {body : Svc α}
    (hBody :
      Traces svc op body (⟨.lock key, ()⟩ :: past)) :
    Traces svc op (Svc.withLock key body) past :=
  Svc.meets_withLock.mpr ⟨⟨trivial, trivial⟩, hBody.mono
    (fun _ _ _ => ⟨⟨trivial, trivial⟩, trivial⟩)
    (fun _ _ _ => ⟨⟨trivial, trivial⟩, trivial⟩)⟩

/- A transaction that is stored, and what comes after. -/
theorem traces_insert
    {row : Transaction}
    {next : Unit → Svc β}
    (hOrigin :
      Origin svc op past (.txns (.insert row)) row)
    (hLines : CountedLines row)
    (hNext : Svc.Only Unpriced (next ())) :
    Traces svc op (Svc.act (.txns (.insert row)) >>= next)
      past := by
  rw [Traces, Svc.meets_bind]
  exact Svc.meets_act.mpr ⟨⟨hOrigin, hLines⟩, fun _ =>
    traces_of_unpriced hNext⟩

/- A fresh transaction has no amounts. -/
theorem told_freshTransaction
    (state : TransactionState) :
    (freshTransaction input state).Meets
      (fun _ effect => Unpriced effect)
      (fun txn _ => txn.totals = {} ∧ txn.lineItems = [])
      (fun _ _ => True) past := by
  unfold freshTransaction
  split
  · rw [Svc.meets_bind, Svc.meets_pure, Svc.meets_bind]
    refine Svc.meets_act.mpr ⟨rfl, fun createdAt => ?_⟩
    rw [Svc.meets_bind]
    exact Svc.meets_act.mpr ⟨rfl, fun _ => ⟨rfl, rfl⟩⟩
  · rw [Svc.meets_bind]
    refine Svc.meets_act.mpr ⟨rfl, fun token => ?_⟩
    rw [Svc.meets_bind, Svc.meets_pure, Svc.meets_bind]
    refine Svc.meets_act.mpr ⟨rfl, fun createdAt => ?_⟩
    rw [Svc.meets_bind]
    exact Svc.meets_act.mpr ⟨rfl, fun _ => ⟨rfl, rfl⟩⟩

/- The placeholder of an intent that charges nothing. -/
theorem told_subscriptionPseudoTxn
    (sub : Subscription)
    (state : TransactionState) :
    (subscriptionPseudoTxn input sub state).Meets
      (fun _ effect => Unpriced effect)
      (fun txn _ => txn.totals = {} ∧ txn.lineItems = [] ∧
        txn.currency = sub.currency)
      (fun _ _ => True) past := by
  rw [subscriptionPseudoTxn, Svc.meets_bind]
  refine Svc.meets_act.mpr ⟨rfl, fun now => ?_⟩
  rw [Svc.meets_bind]
  exact Svc.meets_act.mpr ⟨rfl, fun _ => ⟨rfl, rfl, rfl⟩⟩

/- Promotions put a discount on the totals, if anything. -/
theorem told_quoteTotals
    (params : QuoteParams)
    (totals : Totals)
    (currency : String) :
    (quoteTotals svc params totals currency).Meets
      (fun _ effect => Unpriced effect)
      (fun after _ => after = totals ∨ ∃ discountMinor,
        after =
          applyDiscountToTotals totals discountMinor currency)
      (fun _ _ => True) past := by
  unfold quoteTotals
  split
  · rw [Svc.meets_bind]
    refine Svc.meets_act.mpr ⟨rfl, fun discount => ?_⟩
    split
    · exact .inr ⟨discount, rfl⟩
    · exact .inl rfl
  · exact .inl rfl

/- The caller's own subscription is one the intent has read. -/
theorem told_subscriptionForInput (id : String) :
    (subscriptionForInput id input).Meets
      (fun _ effect => Unpriced effect)
      (fun sub later =>
        (⟨.subs (.get id), some sub⟩ : Move Eff.Res) ∈ later)
      (fun _ _ => True) past := by
  rw [subscriptionForInput, Svc.meets_bind]
  refine Svc.meets_act.mpr ⟨rfl, fun found => ?_⟩
  rw [Svc.meets_bind, Svc.meets_orFail]
  refine ⟨?_, fun _ => trivial⟩
  rintro sub rfl
  rw [Svc.meets_bind, Svc.meets_ensure]
  exact ⟨fun _ => List.mem_cons_self, fun _ => trivial⟩

theorem told_transactionForInput (id : String) :
    (transactionForInput id input).Meets
      (fun _ effect => Unpriced effect)
      (fun txn later =>
        txn.tenantId = input.tenant.tenantId ∧
          (⟨.txns (.get id), some txn⟩ : Move Eff.Res) ∈ later)
      (fun _ _ => True) past := by
  rw [transactionForInput, Svc.meets_bind]
  refine Svc.meets_act.mpr ⟨rfl, fun found => ?_⟩
  rw [Svc.meets_bind, Svc.meets_orFail]
  refine ⟨?_, fun _ => trivial⟩
  rintro txn rfl
  rw [Svc.meets_bind, Svc.meets_ensure, beq_iff_eq]
  exact ⟨fun hOwner => ⟨hOwner, List.mem_cons_self⟩,
    fun _ => trivial⟩

/- The offered total, unless it is negative. -/
theorem told_negotiatedTotal
    (params : NegotiateParams)
    (original : Int64) :
    (negotiatedTotal svc params original).Meets
      (fun _ effect => Unpriced effect)
      (fun total _ =>
        total = offeredMinor svc params original ∧
          ∀ proposed, params.proposedTotal = some proposed →
            ¬ proposed.amountMinor < 0)
      (fun _ _ => True) past := by
  rw [negotiatedTotal, offeredMinor]
  cases params.proposedTotal with
  | some proposed =>
      dsimp only
      rw [Svc.meets_bind, Svc.meets_ensure]
      refine ⟨fun hCheck => ⟨rfl, ?_⟩, fun _ => trivial⟩
      rintro other ⟨⟩
      simpa using hCheck
  | none => exact ⟨rfl, fun _ hNo => by cases hNo⟩

/- A payment is for a positive amount. -/
theorem told_quoteTerms
    (quoteId : String)
    (now : DateTime) :
    (quoteTerms input quoteId now).Meets
      (fun _ effect => Unpriced effect)
      (fun terms _ => 0 < terms.money.amountMinor)
      (fun _ _ => True) past := by
  unfold quoteTerms ensurePeerQuoteLive
  have hFound :
      Svc.Only Unpriced (peerQuoteForInput quoteId input) :=
    Svc.Only.bind (Svc.Only.act rfl) fun _ =>
      (Svc.Only.orFail _ _).bind fun _ =>
        (Svc.Only.ensure _ _).bind fun _ => Svc.Only.pure _
  have hAllows :
      ∀ (_ : Moves) (effect : Eff),
        Unpriced effect → Unpriced effect :=
    fun _ _ hUnpriced => hUnpriced
  refine hFound.andThen hAllows (fun _ _ => trivial)
    fun quote read => ?_
  refine (Svc.Only.ensure _ _).andThen hAllows
    (fun _ _ => trivial) fun _ owned => ?_
  refine (Svc.Only.ensure _ _).andThen hAllows
    (fun _ _ => trivial) fun _ quoted => ?_
  refine Svc.Only.andThen ?_ hAllows (fun _ _ => trivial)
    fun _ live => ?_
  · split
    · exact Svc.Only.bind (Svc.Only.act rfl) fun _ =>
        Svc.Only.fail _
    · exact Svc.Only.pure _
  · rw [Svc.meets_bind, Svc.meets_orFail]
    refine ⟨fun money _ => ?_, fun _ => trivial⟩
    rw [Svc.meets_bind, Svc.meets_ensure, decide_eq_true_iff]
    exact ⟨fun hPositive => hPositive, fun _ => trivial⟩

theorem told_directTerms (params : A2aPayParams) :
    (directTerms input params).Meets
      (fun _ effect => Unpriced effect)
      (fun terms _ => 0 < terms.money.amountMinor)
      (fun _ _ => True) past := by
  unfold directTerms
  rw [Svc.meets_bind, Svc.meets_orFail]
  refine ⟨fun peerId _ => ?_, fun _ => trivial⟩
  rw [Svc.meets_bind, Svc.meets_orFail]
  refine ⟨fun money _ => ?_, fun _ => trivial⟩
  rw [Svc.meets_bind, Svc.meets_ensure, decide_eq_true_iff]
  refine ⟨fun hPositive => ?_, fun _ => trivial⟩
  rw [Svc.meets_bind, Svc.meets_ensure]
  exact ⟨fun _ => hPositive, fun _ => trivial⟩

/- A charge stores what its items have been priced at. -/
theorem meets_pricedCharge
    {buyer : Buyer}
    {shipTo : Option Address}
    {items : List RequestItem}
    {currency : String}
    {bills : Billing}
    (hFor :
      ∀ row, PricedFor svc op past (.insertCharge row bills)
        items currency) :
    (runSubscriptionCharge svc input buyer shipTo items currency
      bills).Meets (StoringRule svc op) (fun _ _ => True)
      (fun _ _ => True) past := by
  rw [runSubscriptionCharge, Svc.meets_bind,
    Svc.meets_ofExcept]
  refine ⟨fun priced hPriced => ?_, fun _ _ => trivial⟩
  refine traces_after (Svc.Only.act rfl) fun now told => ?_
  refine traces_after (Svc.Only.act rfl) fun token drawn => ?_
  refine traces_after
    (hushed_persistOrderForTransaction _).unpriced
    fun summary ordered => ?_
  refine Svc.meets_bind.mpr
    (Svc.meets_act.mpr ⟨⟨?_, ?_⟩, fun _ => trivial⟩)
  · exact .priced items _ priced.2
      ((((hFor _).append told).append drawn).append ordered)
      hPriced (.inl rfl)
  · exact countedLines_of_priced hPriced

end Blocks

end Protocol

end IcpHandler

------------------------------------------------------------
-- Intents
------------------------------------------------------------

namespace IcpHandler

namespace Protocol

open Model Service Concurrency

section Intents

variable {svc : IcpService} {op : Op}
variable {input : IntentInput} {intent : Intent}
variable {mandate : Option MandateEvaluation}
variable {past : Moves}

/- The amounts of a row that stands for one payment. -/
def Pays (money : Money) (row : Transaction) : Prop :=
  row.currency = money.currency ∧
    row.totals =
      { subtotal := some money, total := some money } ∧
    (∀ line ∈ row.lineItems,
      line.unitPrice = money ∧ line.subtotal = money ∧
        line.total = money) ∧
    CountedLines row

theorem traces_advisory
    (hFree : ItemFree op)
    (state : TransactionState) :
    Traces svc op
      (do
        let txn ← freshTransaction input state
        Svc.act (.txns (.insert txn))
        pure ({ transaction := txn } : Outcome)) past := by
  refine traces_told (told_freshTransaction state)
    fun txn recent hBlank => ?_
  exact traces_insert (.blank hFree hBlank.1 hBlank.2)
    (countedLines_of_blank hBlank.2)
    (Svc.Only.pure _)

theorem traces_doQuote
    (hOp : op = .intent input)
    (hIntent :
      Intent.parse input.envelope.intent = .ok .quote) :
    Traces svc op (doQuote svc input) past := by
  rw [Traces, doQuote, Svc.meets_bind, Svc.meets_ofExcept]
  refine ⟨fun params hParams => ?_, fun _ _ => trivial⟩
  refine traces_after (Svc.Only.ensure _ _) fun _ checked => ?_
  dsimp only
  rw [Traces, Svc.meets_bind, Svc.meets_ofExcept]
  refine ⟨fun priced hPriced => ?_, fun _ _ => trivial⟩
  refine traces_told (told_quoteTotals params priced.2 _)
    fun totals discounted hTotals => ?_
  refine traces_after (hushed_freshTransaction _).unpriced
    fun txn made => ?_
  refine traces_after (Svc.Only.act rfl) fun now told => ?_
  refine traces_insert ?_ (countedLines_of_priced hPriced)
    (Svc.Only.pure _)
  exact .priced params.items _ priced.2
    (.quoted input params hOp hIntent hParams) hPriced hTotals

theorem traces_doSubscribe
    (hOp : op = .intent input)
    (hIntent :
      Intent.parse input.envelope.intent = .ok .subscribe) :
    Traces svc op (doSubscribe svc input mandate) past := by
  rw [Traces, doSubscribe, Svc.meets_bind, Svc.meets_ofExcept]
  refine ⟨fun params hParams => ?_, fun _ _ => trivial⟩
  have hFor :
      ∀ moves effect,
        PricedFor svc op moves effect params.items
          (input.envelope.context.currency.getD "USD") :=
    fun _ _ => .enrolled input params hOp hIntent hParams
  refine traces_after (Svc.Only.ensure _ _) fun _ filled => ?_
  refine traces_after (Svc.Only.ofExcept _ _) fun _ paid => ?_
  refine traces_after (Svc.Only.act rfl) fun now told => ?_
  dsimp only
  rw [Traces, Svc.meets_bind, Svc.meets_ofExcept]
  refine ⟨fun priced hPriced => ?_, fun _ _ => trivial⟩
  refine traces_after (hushed_reserve _ _ _ _).unpriced
    fun _ reserved => ?_
  refine traces_after (Svc.Only.act rfl) fun token drawn => ?_
  split
  · refine traces_after (Svc.Only.ensure _ _)
      fun _ short => ?_
    refine traces_after (Svc.Only.orFail _ _)
      fun trialEnd ends => ?_
    dsimp only
    refine traces_after (Svc.Only.act rfl) fun _ stored => ?_
    refine traces_told (told_subscriptionPseudoTxn _ _)
      fun txn made hTxn => ?_
    have hCurrency :
        txn.currency =
          input.envelope.context.currency.getD "USD" :=
      hTxn.2.2
    rw [← hCurrency] at hPriced
    refine traces_insert ?_ (countedLines_of_priced hPriced)
      (Svc.Only.pure _)
    refine .priced params.items "subscribe.params.items"
      priced.2 ?_ hPriced (.inl rfl)
    rw [hCurrency]
    exact hFor _ _
  · refine Svc.meets_bind.mpr
      ((meets_pricedCharge fun _ => hFor _ _).mono ?_
        fun _ _ _ => trivial)
    intro charge later _
    refine traces_after (Svc.Only.act rfl) fun _ stored => ?_
    exact trivial

theorem traces_doRenew
    (hOp : op = .intent input)
    (hIntent :
      Intent.parse input.envelope.intent = .ok .renew) :
    Traces svc op (doRenew svc input mandate) past := by
  rw [Traces, doRenew, Svc.meets_bind, Svc.meets_ofExcept]
  refine ⟨fun params hParams => ?_, fun _ _ => trivial⟩
  refine traces_after (Svc.Only.ofExcept _ _) fun _ paid => ?_
  refine traces_withLock ?_
  refine traces_told (told_subscriptionForInput _)
    fun sub read hRead => ?_
  refine traces_after (hushed_ensureRenewable _).unpriced
    fun _ live => ?_
  refine traces_after (Svc.Only.act rfl) fun now told => ?_
  refine traces_after (Svc.Only.ofExcept _ _)
    fun priced estimated => ?_
  refine traces_after (hushed_reserve _ _ _ _).unpriced
    fun _ reserved => ?_
  have hFor :
      ∀ effect,
        PricedFor svc op
          (reserved ++ (estimated ++ (told ++ (live ++
            (read ++ ⟨.lock (subLock params.subscriptionId),
              ()⟩ :: (paid ++ past))))))
          effect sub.items sub.currency :=
    fun effect =>
      ((((PricedFor.renewed input params sub hOp hIntent hParams
        hRead).append live).append told).append
          estimated).append reserved
  refine Svc.meets_bind.mpr
    ((meets_pricedCharge fun _ => hFor _).mono ?_
      fun _ _ _ => trivial)
  intro charge later _
  refine traces_after (Svc.Only.act rfl) fun found wrote => ?_
  refine traces_after (Svc.Only.orPanic _ _)
    fun updated there => ?_
  exact trivial

/- A pause or a cancellation stores a placeholder. -/
theorem traces_subMarker
    (hFree : ItemFree op)
    {subId message : String}
    {patch : SubPatch} :
    Traces svc op
      (do
        let found ← Svc.act (.subs (.update subId patch))
        let updated ← Svc.orPanic message found
        let txn ← subscriptionPseudoTxn input updated .canceled
        Svc.act (.txns (.insert txn))
        pure
          ({ transaction := txn
             subscription := some updated } : Outcome))
      past := by
  refine traces_after (Svc.Only.act rfl) fun found wrote => ?_
  refine traces_after (Svc.Only.orPanic _ _)
    fun updated there => ?_
  refine traces_told (told_subscriptionPseudoTxn _ _)
    fun txn made hTxn => ?_
  exact traces_insert (.blank hFree hTxn.1 hTxn.2.1)
    (countedLines_of_blank hTxn.2.1)
    (Svc.Only.pure _)

theorem traces_doPause (hFree : ItemFree op) :
    Traces svc op (doPause svc input) past := by
  refine traces_after (Svc.Only.ofExcept _ _)
    fun params decoded => ?_
  refine traces_withLock ?_
  refine traces_after (hushed_subscriptionForInput _).unpriced
    fun sub read => ?_
  refine traces_after (Svc.Only.ensure _ _) fun _ live => ?_
  refine traces_after (Svc.Only.act rfl) fun now told => ?_
  exact traces_subMarker hFree

theorem traces_doCancelSubscription (hFree : ItemFree op) :
    Traces svc op (doCancelSubscription svc input) past := by
  refine traces_after (Svc.Only.ofExcept _ _)
    fun params decoded => ?_
  refine traces_withLock ?_
  refine traces_after (hushed_subscriptionForInput _).unpriced
    fun sub read => ?_
  refine traces_after (Svc.Only.ensure _ _) fun _ live => ?_
  refine traces_after (Svc.Only.act rfl) fun now told => ?_
  exact traces_subMarker hFree

theorem traces_doA2aQuote (hFree : ItemFree op) :
    Traces svc op (doA2aQuote svc input mandate) past := by
  refine traces_after (Svc.Only.ofExcept _ _)
    fun params decoded => ?_
  refine traces_after (Svc.Only.ensure _ _) fun _ other => ?_
  refine traces_after (Svc.Only.act rfl) fun now told => ?_
  refine traces_after (hushed_priceHint _).unpriced
    fun hinted priced => ?_
  refine traces_after (Svc.Only.act rfl) fun token drawn => ?_
  refine traces_after (Svc.Only.act rfl) fun _ stored => ?_
  refine traces_after (Svc.Only.act rfl) fun token again => ?_
  exact traces_insert (.blank hFree rfl rfl)
    (countedLines_of_blank rfl) (Svc.Only.pure _)

/- A payment, once its terms are known. -/
theorem traces_settle
    (hFree : ItemFree op)
    {terms : A2aTerms}
    {now : DateTime}
    {makeTxn : String → Transaction}
    (hPositive : 0 < terms.money.amountMinor)
    (hPays : ∀ token, Pays terms.money (makeTxn token)) :
    Traces svc op
      (do
        reserveMandateSpend mandate input.tenant.tenantId
          terms.money.amountMinor terms.money.currency
        let token ← Svc.act .uuid
        Svc.act (.txns (.insert (makeTxn token)))
        let updatedQuote ←
          match terms.quote with
          | some quote =>
              Svc.act (.quotes (.update quote.id
                (.accept (makeTxn token).id now)))
          | none => pure none
        pure
          ({ transaction := makeTxn token
             peerQuote := updatedQuote } : Outcome)) past := by
  refine traces_after (hushed_reserve _ _ _ _).unpriced
    fun _ reserved => ?_
  refine traces_after (Svc.Only.act rfl) fun token drawn => ?_
  obtain ⟨hCurrency, hTotals, hLines, hCounted⟩ := hPays token
  refine traces_insert
    (.paid terms.money hFree hPositive hCurrency hTotals hLines)
    hCounted ?_
  split
  · exact Svc.Only.bind (Svc.Only.act rfl) fun _ =>
      Svc.Only.pure _
  · exact (Svc.Only.pure _).bind fun _ => Svc.Only.pure _

theorem traces_payTerms
    (hFree : ItemFree op)
    (params : A2aPayParams) :
    Traces svc op (payTerms input mandate params) past := by
  have hPays :
      ∀ (terms : A2aTerms) (row : Transaction),
        row.currency = terms.money.currency →
        row.totals =
          { subtotal := some terms.money
            total := some terms.money } →
        row.lineItems =
          [{ id := "li_a2a"
             sku := "a2a:" ++ terms.peerId
             name := "Peer payment to " ++ terms.peerId
             quantity := 1
             unitPrice := terms.money
             subtotal := terms.money
             tax := none
             total := terms.money }] →
        Pays terms.money row := by
    intro terms row hCurrency hTotals hLines
    refine ⟨hCurrency, hTotals, fun line hLine => ?_,
      fun line hLine => ?_⟩
    · rw [hLines, List.mem_singleton] at hLine
      subst hLine
      exact ⟨rfl, rfl, rfl⟩
    · rw [hLines, List.mem_singleton] at hLine
      subst hLine
      exact ⟨(by decide : (0 : Int64) < 1), hCurrency.symm⟩
  refine traces_after (Svc.Only.act rfl) fun now told => ?_
  split
  · refine traces_told (told_quoteTerms _ _)
      fun terms asked hPositive => ?_
    exact traces_settle hFree hPositive fun _ =>
      hPays terms _ rfl rfl rfl
  · refine traces_told (told_directTerms _)
      fun terms asked hPositive => ?_
    exact traces_settle hFree hPositive fun _ =>
      hPays terms _ rfl rfl rfl

theorem traces_doA2aPay (hFree : ItemFree op) :
    Traces svc op (doA2aPay svc input mandate) past := by
  refine traces_after (Svc.Only.ofExcept _ _)
    fun params decoded => ?_
  refine traces_after (Svc.Only.ensure _ _) fun _ sent => ?_
  refine traces_after (hushed_ensureA2aPayment _).unpriced
    fun _ payable => ?_
  split
  · exact traces_withLock (traces_payTerms hFree params)
  · exact traces_payTerms hFree params

theorem traces_doNegotiate
    (hOp : op = .intent input)
    (hIntent :
      Intent.parse input.envelope.intent = .ok .negotiate) :
    Traces svc op (doNegotiate svc input) past := by
  rw [Traces, doNegotiate, Svc.meets_bind, Svc.meets_ofExcept]
  refine ⟨fun params hParams => ?_, fun _ _ => trivial⟩
  rw [Svc.meets_bind, Svc.meets_ensure]
  refine ⟨fun hOffers => ?_, fun _ => trivial⟩
  rw [Svc.meets_bind, Svc.meets_ensure]
  refine ⟨fun hRange => ?_, fun _ => trivial⟩
  refine traces_withLock ?_
  refine traces_told (told_transactionForInput _)
    fun txn read hTxn => ?_
  obtain ⟨hOwner, hRead⟩ := hTxn
  rw [Traces, Svc.meets_bind, Svc.meets_ensure, beq_iff_eq]
  refine ⟨fun hQuoted => ?_, fun _ => trivial⟩
  refine traces_told (told_negotiatedTotal _ _)
    fun total offered hTotal => ?_
  obtain ⟨rfl, hNonneg⟩ := hTotal
  refine traces_after (Svc.Only.act rfl) fun now told => ?_
  refine Svc.meets_bind.mpr
    (Svc.meets_act.mpr ⟨⟨?_, trivial⟩, ?_⟩)
  · intro _
    exact ⟨input, params, txn,
      { operation := hOp
        intent := hIntent
        decoded := hParams
        names := rfl
        read := List.mem_append_right _
          (List.mem_append_right _ hRead)
        acceptable :=
          ⟨hOffers, hRange, hNonneg, hOwner, hQuoted⟩
        writes := ⟨now, rfl⟩ }⟩
  · intro updated
    exact traces_after (Svc.Only.orFail _ _)
      fun _ _ => trivial

theorem traces_dispatch
    (hOp : op = .intent input)
    (hIntent :
      Intent.parse input.envelope.intent = .ok intent) :
    Traces svc op (dispatch svc intent input mandate) past := by
  have hFree : pricesItems intent = false → ItemFree op :=
    fun hNot => ⟨input, intent, hOp, hIntent, hNot⟩
  cases intent with
  | search => exact traces_advisory (hFree rfl) _
  | describe => exact traces_advisory (hFree rfl) _
  | quote => exact traces_doQuote hOp hIntent
  | authorize =>
      exact traces_of_unpriced unpriced_doAuthorize
  | buy => exact traces_of_unpriced unpriced_doBuy
  | pay => exact traces_of_unpriced unpriced_doBuy
  | track => exact traces_of_unpriced unpriced_doTrack
  | «return» => exact traces_of_unpriced unpriced_doReturn
  | refundRequest =>
      exact traces_of_unpriced unpriced_doReturn
  | subscribe => exact traces_doSubscribe hOp hIntent
  | renew => exact traces_doRenew hOp hIntent
  | pause => exact traces_doPause (hFree rfl)
  | cancelSubscription => exact traces_doCancelSubscription (hFree rfl)
  | a2aQuote => exact traces_doA2aQuote (hFree rfl)
  | a2aPay => exact traces_doA2aPay (hFree rfl)
  | negotiate => exact traces_doNegotiate hOp hIntent
  | confirmReceipt =>
      exact traces_of_unpriced unpriced_doConfirmReceipt

theorem traces_handleIntent (hOp : op = .intent input) :
    Traces svc op (handleIntent svc input) past := by
  refine traces_after (Svc.Only.ensure _ _)
    fun _ signed => ?_
  rw [Traces, Svc.meets_bind, Svc.meets_ofExcept]
  refine ⟨fun intent hIntent => ?_, fun _ _ => trivial⟩
  have hMandate :
      Svc.Only Unpriced (mandateFor svc input intent) :=
    have hRead : Unpriced .now := rfl
    only_mandateFor hRead (fun _ => rfl) (fun _ => rfl) intent
  refine traces_after hMandate fun mandate evaluated => ?_
  refine traces_after (only_ensureSubject mandate)
    fun _ allowed => ?_
  refine Svc.meets_bind.mpr
    (Svc.Meets.mono (traces_dispatch hOp hIntent) ?_
      (fun _ _ _ => trivial))
  intro outcome later _
  exact traces_of_unpriced (unpriced_respond outcome)

end Intents

end Protocol

end IcpHandler

------------------------------------------------------------
-- Ticks
------------------------------------------------------------

namespace IcpHandler

namespace Protocol

open Model Service Concurrency

section Ticks

variable {svc : IcpService} {op : Op}
variable {now : DateTime}
variable {past : Moves}

/- The event of a step of a tick, and where it goes. -/
theorem unpriced_event
    (event : Event)
    (tenantId : String) :
    Svc.Only Unpriced
      (do
        enqueueWebhook svc event tenantId
        Svc.act (.emit event)) :=
  (hushed_enqueueWebhook event tenantId).unpriced.bind fun _ =>
    Svc.Only.act rfl

theorem unpriced_recordRenewed
    (sub : Subscription)
    (charge : Transaction × Option OrderSummary) :
    Svc.Only Unpriced (recordRenewed svc sub charge now) :=
  Svc.Only.bind (Svc.Only.act rfl) fun _ =>
    Svc.Only.bind (Svc.Only.act rfl) fun _ =>
      unpriced_event _ _

theorem unpriced_recordFailed
    (sub : Subscription)
    (err : ApiError) :
    Svc.Only Unpriced (recordFailed svc sub err now) := by
  refine Svc.Only.bind (Svc.Only.act rfl) fun updated => ?_
  dsimp only
  split
  · refine Svc.Only.bind (Svc.Only.act rfl) fun token => ?_
    refine (hushed_enqueueWebhook _ _).unpriced.bind
      fun _ => ?_
    exact Svc.Only.bind (Svc.Only.act rfl) fun _ =>
      Svc.Only.pure _
  · exact Svc.Only.pure _

/- A listed subscription is charged for its own items. -/
theorem traces_schedulerCharge
    {sub : Subscription}
    (hOp : op = .tickSubscriptions now)
    (hListed : ListedSub sub past) :
    (Svc.attempt (schedulerCharge svc sub)).Meets
      (StoringRule svc op) (fun _ _ => True) (fun _ _ => True)
      past := by
  have hCharge : Traces svc op (schedulerCharge svc sub) past := by
    refine traces_after (Svc.Only.act rfl)
      fun token drawn => ?_
    refine traces_after (Svc.Only.ensure _ _)
      fun _ checked => ?_
    refine meets_pricedCharge fun row => ?_
    have hFor :
        PricedFor svc op past
          (.insertCharge row ⟨sub.id, sub.currentPeriodEnd⟩)
          sub.items sub.currency :=
      .billed now sub row hOp rfl hListed
    exact (hFor.append drawn).append checked
  rw [Svc.meets_attempt]
  refine hCharge.mono (fun _ _ _ => trivial) ?_
  intro halt later _
  cases halt with
  | error err => exact trivial
  | panicked message => exact trivial

/- Every row that is still due was listed. -/
theorem traces_renewEach
    {due : List Subscription}
    {report : SchedulerTickReport}
    (hOp : op = .tickSubscriptions now)
    (hDue : ∀ sub ∈ due, ListedSub sub past) :
    Traces svc op (renewEach svc now due report) past := by
  induction due generalizing past report with
  | nil => exact trivial
  | cons sub due ih =>
      have hRest :
          ∀ recent : Moves,
            ∀ other ∈ due, ListedSub other (recent ++ past) := by
        intro recent other hOther
        obtain ⟨listed, all, hAll, hMem⟩ :=
          hDue other (List.mem_cons_of_mem _ hOther)
        exact ⟨listed, all, hAll,
          List.mem_append_right recent hMem⟩
      rw [Traces, renewEach, Svc.meets_bind]
      refine Svc.Meets.mono
        (traces_schedulerCharge hOp
          (hDue sub List.mem_cons_self)).appended ?_
        (fun _ _ _ => trivial)
      rintro result _ ⟨-, charged, rfl⟩
      cases result with
      | ok charge =>
          refine traces_after (unpriced_recordRenewed sub charge)
            fun _ recorded => ?_
          rw [← List.append_assoc]
          exact ih (hRest _)
      | error err =>
          refine traces_after (unpriced_recordFailed sub err)
            fun pastDue recorded => ?_
          rw [← List.append_assoc]
          exact ih (hRest _)

theorem traces_tickSubscriptions
    (hOp : op = .tickSubscriptions now) :
    Traces svc op (tickSubscriptions svc now) past := by
  rw [Traces, tickSubscriptions, Svc.meets_bind]
  refine Svc.meets_act.mpr
    ⟨⟨trivial, trivial⟩, fun due => ?_⟩
  refine traces_after (Svc.Only.act rfl)
    fun scanned counted => ?_
  refine traces_renewEach hOp fun sub hSub => ?_
  exact ⟨now, due, hSub,
    List.mem_append_right counted List.mem_cons_self⟩

theorem unpriced_expireTransactions
    (due : List Transaction) :
    Svc.Only Unpriced (expireTransactions svc now due) := by
  induction due with
  | nil => exact Svc.Only.pure _
  | cons txn due ih =>
      refine Svc.Only.bind ?_ fun _ => ih
      refine Svc.Only.bind (Svc.Only.act rfl) fun _ => ?_
      exact Svc.Only.bind (Svc.Only.act rfl) fun _ =>
        unpriced_event _ _

theorem unpriced_expirePeerQuotes
    (due : List PeerQuote) :
    Svc.Only Unpriced (expirePeerQuotes svc now due) := by
  induction due with
  | nil => exact Svc.Only.pure _
  | cons quote due ih =>
      refine Svc.Only.bind ?_ fun _ => ih
      refine Svc.Only.bind (Svc.Only.act rfl) fun _ => ?_
      exact Svc.Only.bind (Svc.Only.act rfl) fun _ =>
        unpriced_event _ _

theorem unpriced_tickExpiries :
    Svc.Only Unpriced (tickExpiries svc now) := by
  refine Svc.Only.bind (Svc.Only.act rfl) fun dueTxns => ?_
  refine (unpriced_expireTransactions dueTxns).bind
    fun _ => ?_
  refine Svc.Only.bind (Svc.Only.act rfl) fun dueQuotes => ?_
  exact (unpriced_expirePeerQuotes dueQuotes).bind fun _ =>
    Svc.Only.pure _

/- Every operation follows the rules. -/
theorem storing_traced
    (svc : IcpService)
    (op : Op) :
    (op.prog svc).Traced (StoringRule svc op)
      (fun _ _ => True) [] := by
  cases op with
  | intent input =>
      rw [Op.prog, Prog.Traced.bind_iff]
      exact Prog.Traced.mono (traces_handleIntent rfl)
        (fun _ _ _ => trivial)
  | tickSubscriptions now =>
      rw [Op.prog, Prog.Traced.bind_iff]
      exact Prog.Traced.mono (traces_tickSubscriptions rfl)
        (fun _ _ _ => trivial)
  | tickExpiries now =>
      rw [Op.prog, Prog.Traced.bind_iff]
      exact Prog.Traced.mono
        (traces_of_unpriced unpriced_tickExpiries)
        (fun _ _ _ => trivial)

section Runs

variable {ops : Nat → Op} {w : World}
variable {pool : Pool Eff.Res World OpResult}

theorem Reaches.stores
    (hReaches : Reaches svc ops w pool) :
    Lawful (machine svc.deps.rfc3339)
      (fun thread => StoringRule svc (ops thread)) w
      pool.history := by
  obtain ⟨schedule, hRun⟩ := hReaches
  exact (Pool.run_lawful .start
    (fun thread => storing_traced svc (ops thread)) hRun).1

/- The histories in which amounts come from somewhere. -/
theorem Reaches.originated
    (hReaches : Reaches svc ops w pool) :
    Lawful (machine svc.deps.rfc3339)
      (fun thread => OriginRule svc (ops thread)) w
      pool.history :=
  hReaches.stores.mono fun _ _ _ hRule => hRule.1

/- The lines of every stored transaction are counted. -/
theorem Reaches.countsLines
    (hReaches : Reaches svc ops w pool)
    (hStart :
      ∀ id row, w.transactions.get id = some row →
        CountedLines row)
    {id : String}
    {row : Transaction}
    (hStored :
      pool.history.world.transactions.get id = some row) :
    CountedLines row := by
  have hLawful := hReaches.stores
  generalize pool.history = h at hLawful hStored
  induction hLawful generalizing row with
  | start => exact hStart id row hStored
  | @push h o hBefore hAllows hRule ih =>
      have hExec := executes_of_allows hAllows
      have hWorld := hAllows.before_eq
      rw [History.push_world] at hStored
      cases hExec.txnChange id with
      | kept hKept =>
          rw [hKept, hWorld] at hStored
          exact ih hStored
      | inserted stored hEffect hId hAfter =>
          rw [hAfter] at hStored
          cases hStored
          have hLines := hRule.2
          rcases hEffect with hInsert | ⟨bills, hInsert⟩
          · rw [hInsert] at hLines
            exact hLines
          · rw [hInsert] at hLines
            exact hLines
      | patched patch old hMove hOld hAfter =>
          rw [hAfter] at hStored
          cases hStored
          rw [hWorld] at hOld
          have hLines := ih hOld
          have hSame :
              (patch.apply old).lineItems = old.lineItems ∧
                (patch.apply old).currency =
                  old.currency := by
            cases patch with
            | expireIfOpen now =>
                simp only [TxnPatch.apply]
                split
                · exact ⟨rfl, rfl⟩
                · exact ⟨rfl, rfl⟩
            | _ => exact ⟨rfl, rfl⟩
          rw [CountedLines, hSame.1, hSame.2]
          exact hLines

end Runs

end Ticks

end Protocol

end IcpHandler
