import IcpHandler.Protocol.Operations

/-
  The blocks of an intent between its locks and before its
  event: they put nothing on the bus, and neither take a lock
  nor give one back. Most of them write no row either.

  Main declarations:
    * `Plain`, `Hushed`
    * `hushed_reserve`
    * `hushed_persistOrderForTransaction`
    * `only_ensureQuoteOpen`, `only_quoteTerms`
    * `hushed_receiptFor`
-/

------------------------------------------------------------
-- Plain Effects
------------------------------------------------------------

namespace IcpHandler

namespace Protocol

open Model Service Concurrency

/- The effect is no event, and has to do with no lock. -/
def Plain (effect : Eff) : Prop :=
  (!effect.announces && !effect.isLocking) = true

theorem plain_iff
    {effect : Eff} :
    Plain effect ↔
      effect.announces = false ∧ effect.isLocking = false := by
  simp [Plain]

/- Plain, and writes no store of rows either. -/
def Hushed (effect : Eff) : Prop :=
  (effect.isQuiet && !effect.announces) = true

section Hushed

variable {effect : Eff}

theorem hushed_of_idle
    (hIdle : effect.isIdle = true)
    (hSilent : effect.announces = false) :
    Hushed effect := by
  rw [Hushed, (isIdle_iff.mp hIdle).1, hSilent]
  rfl

theorem Hushed.quiet
    (hHushed : Hushed effect) :
    effect.isQuiet = true :=
  (Bool.and_eq_true_iff.mp hHushed).1

theorem Hushed.plain (hHushed : Hushed effect) : Plain effect := by
  obtain ⟨hQuiet, hSilent⟩ := Bool.and_eq_true_iff.mp hHushed
  refine plain_iff.mpr ⟨?_, (isQuiet_iff.mp hQuiet).2.2.2⟩
  simpa using hSilent

end Hushed

end Protocol

end IcpHandler

------------------------------------------------------------
-- Plain Blocks
------------------------------------------------------------

namespace IcpHandler

/- A hushed block is a plain one. -/
theorem Model.Svc.Only.plain
    {α : Type}
    {body : Model.Svc α}
    (hHushed : Model.Svc.Only Protocol.Hushed body) :
    Model.Svc.Only Protocol.Plain body :=
  hHushed.mono fun _ hEffect => hEffect.plain

namespace Protocol

open Model Service Concurrency

section Plain

variable {svc : IcpService}
variable {input : IntentInput}
variable {mandate : Option MandateEvaluation}
variable {intent : Intent}

theorem hushed_enqueueWebhook
    (event : Event)
    (tenantId : String) :
    Svc.Only Hushed (enqueueWebhook svc event tenantId) :=
  fun _ =>
    Svc.Meets.mono
      (Svc.Meets.of_kind (meets_webhookRule event tenantId)
        fun _ _ hMove => hushed_of_idle hMove.1 hMove.2)
      (fun _ _ _ => trivial) (fun _ _ _ => trivial)

theorem hushed_reserve
    (mandate : Option MandateEvaluation)
    (tenantId : String)
    (amountMinor : Int64)
    (currency : String) :
    Svc.Only Hushed
      (reserveMandateSpend mandate tenantId amountMinor
        currency) := by
  cases mandate with
  | none => exact Svc.Only.pure _
  | some ev =>
      unfold reserveMandateSpend
      dsimp only
      split
      · exact Svc.Only.pure _
      · refine (Svc.Only.ensure _ _).bind fun _ => ?_
        split
        · refine (Svc.Only.pure _).bind fun period => ?_
          refine Svc.Only.bind (Svc.Only.act rfl) fun now => ?_
          exact Svc.Only.bind (Svc.Only.act rfl) fun result =>
            Svc.Only.ofExcept _ _
        · exact (Svc.Only.panic _).bind fun period =>
            Svc.Only.bind (Svc.Only.act rfl) fun now =>
              Svc.Only.bind (Svc.Only.act rfl) fun result =>
                Svc.Only.ofExcept _ _

/- The block stops early with an error, and never panics. -/
def StopsInError (halt : Halt) : Prop :=
  ∃ error, halt = .error error

/- Orders are made by one effect, if at all. -/
theorem confined_enginePersistOrder
    {kind : Eff → Prop}
    (hCreate :
      ∀ buyer currency items total,
        kind (.createOrder buyer currency items total))
    (txn : Transaction) :
    Svc.Confined kind StopsInError (enginePersistOrder txn) := by
  unfold enginePersistOrder
  split
  · exact Svc.Confined.bind
      (Svc.Confined.act (hCreate _ _ _ _))
      fun _ => Svc.Confined.pure _
  · exact Svc.Confined.pure _

theorem confined_persistOrderForTransaction
    {kind : Eff → Prop}
    (hCreate :
      ∀ buyer currency items total,
        kind (.createOrder buyer currency items total))
    (txn : Transaction) :
    Svc.Confined kind StopsInError
      (persistOrderForTransaction svc txn) := by
  have hFail :
      ∀ (next : Option PersistedOrder → Option OrderSummary)
        (error : ApiError),
        Svc.Confined kind StopsInError
          (if svc.config.isProduction then
            Svc.fail error >>= fun order => pure (next order)
          else
            pure none >>= fun order => pure (next order)) := by
    intro next error
    split
    · exact (Svc.Confined.fail ⟨error, rfl⟩).bind
        fun _ => Svc.Confined.pure _
    · exact (Svc.Confined.pure _).bind
        fun _ => Svc.Confined.pure _
  unfold persistOrderForTransaction
  dsimp only
  split
  · refine Svc.Confined.bind
      (confined_enginePersistOrder hCreate txn)
      fun created => ?_
    split
    · exact (Svc.Confined.pure _).bind
        fun _ => Svc.Confined.pure _
    · exact hFail _ _
    · exact hFail _ _
  · exact hFail _ _

theorem only_persistOrderForTransaction
    {kind : Eff → Prop}
    (hCreate :
      ∀ buyer currency items total,
        kind (.createOrder buyer currency items total))
    (txn : Transaction) :
    Svc.Only kind (persistOrderForTransaction svc txn) :=
  (confined_persistOrderForTransaction hCreate txn).only

theorem hushed_persistOrderForTransaction
    (txn : Transaction) :
    Svc.Only Hushed (persistOrderForTransaction svc txn) :=
  only_persistOrderForTransaction (fun _ _ _ _ => rfl) txn

/- A quote that is closed is at most marked as expired. -/
theorem only_ensureQuoteOpen
    {kind : Eff → Prop}
    {now : DateTime}
    (hExpire :
      ∀ id, kind (.txns (.update id (.expireIfOpen now))))
    (txn : Transaction) :
    Svc.Only kind (ensureQuoteOpen txn now) := by
  unfold ensureQuoteOpen expireOpenQuote
  split
  · refine Svc.Only.bind ?_ fun _ => Svc.Only.fail _
    split
    · exact Svc.Only.bind (Svc.Only.act (hExpire _)) fun _ =>
        Svc.Only.pure _
    · exact Svc.Only.pure _
  · exact Svc.Only.pure _

theorem only_ensureBuyable
    {kind : Eff → Prop}
    (hNow : kind .now)
    (hExpire :
      ∀ id now, kind (.txns (.update id (.expireIfOpen now))))
    (txn : Transaction) :
    Svc.Only kind (ensureBuyable txn) := by
  unfold ensureBuyable
  split
  · exact Svc.Only.bind (Svc.Only.act hNow) fun now =>
      only_ensureQuoteOpen (fun id => hExpire id now) txn
  · exact Svc.Only.pure _
  · exact Svc.Only.fail _

theorem plain_ensureQuoteOpen
    (txn : Transaction)
    (now : DateTime) :
    Svc.Only Plain (ensureQuoteOpen txn now) :=
  only_ensureQuoteOpen (fun _ => rfl) txn

theorem plain_ensureBuyable (txn : Transaction) :
    Svc.Only Plain (ensureBuyable txn) :=
  have hNow : Plain .now := rfl
  only_ensureBuyable hNow (fun _ _ => rfl) txn

theorem hushed_quoteTotals
    (params : QuoteParams)
    (totals : Totals)
    (currency : String) :
    Svc.Only Hushed (quoteTotals svc params totals currency) := by
  unfold quoteTotals
  split
  · refine Svc.Only.bind (Svc.Only.act rfl) fun discount => ?_
    split
    · exact Svc.Only.pure _
    · exact Svc.Only.pure _
  · exact Svc.Only.pure _

theorem hushed_negotiatedTotal
    (params : NegotiateParams)
    (originalTotalMinor : Int64) :
    Svc.Only Hushed
      (negotiatedTotal svc params originalTotalMinor) := by
  unfold negotiatedTotal
  split
  · exact (Svc.Only.ensure _ _).bind fun _ => Svc.Only.pure _
  · exact Svc.Only.pure _

theorem hushed_ensureRenewable (sub : Subscription) :
    Svc.Only Hushed (ensureRenewable sub) := by
  unfold ensureRenewable
  split
  · exact Svc.Only.fail _
  · exact Svc.Only.fail _
  · exact Svc.Only.pure _

theorem hushed_subscriptionForInput (id : String) :
    Svc.Only Hushed (subscriptionForInput id input) :=
  Svc.Only.bind (Svc.Only.act rfl) fun _ =>
    (Svc.Only.orFail _ _).bind fun _ =>
      (Svc.Only.ensure _ _).bind fun _ => Svc.Only.pure _

theorem hushed_transactionForInput (id : String) :
    Svc.Only Hushed (transactionForInput id input) :=
  Svc.Only.bind (Svc.Only.act rfl) fun _ =>
    (Svc.Only.orFail _ _).bind fun _ =>
      (Svc.Only.ensure _ _).bind fun _ => Svc.Only.pure _

theorem hushed_freshTransaction (state : TransactionState) :
    Svc.Only Hushed (freshTransaction input state) := by
  unfold freshTransaction
  split
  · refine (Svc.Only.pure _).bind fun id => ?_
    refine Svc.Only.bind (Svc.Only.act rfl) fun createdAt => ?_
    exact Svc.Only.bind (Svc.Only.act rfl) fun updatedAt =>
      Svc.Only.pure _
  · refine Svc.Only.bind (Svc.Only.act rfl) fun token => ?_
    refine (Svc.Only.pure _).bind fun id => ?_
    refine Svc.Only.bind (Svc.Only.act rfl) fun createdAt => ?_
    exact Svc.Only.bind (Svc.Only.act rfl) fun updatedAt =>
      Svc.Only.pure _

theorem hushed_subscriptionPseudoTxn
    (sub : Subscription)
    (state : TransactionState) :
    Svc.Only Hushed (subscriptionPseudoTxn input sub state) :=
  Svc.Only.bind (Svc.Only.act rfl) fun _ =>
    Svc.Only.bind (Svc.Only.act rfl) fun _ => Svc.Only.pure _

theorem hushed_ensureA2aPayment (params : A2aPayParams) :
    Svc.Only Hushed (ensureA2aPayment svc params) := by
  unfold ensureA2aPayment
  dsimp only
  split
  · exact Svc.Only.ofExcept _ _
  · exact Svc.Only.ensure _ _

/- A peer quote that is closed is at most marked expired. -/
theorem only_quoteTerms
    {kind : Eff → Prop}
    {now : DateTime}
    (hGet : ∀ id, kind (.quotes (.get id)))
    (hExpire : ∀ id, kind (.quotes (.update id (.expire now))))
    (quoteId : String) :
    Svc.Only kind (quoteTerms input quoteId now) := by
  unfold quoteTerms peerQuoteForInput ensurePeerQuoteLive
  refine Svc.Only.bind ?_ fun quote => ?_
  · exact Svc.Only.bind (Svc.Only.act (hGet _)) fun _ =>
      (Svc.Only.orFail _ _).bind fun _ =>
        (Svc.Only.ensure _ _).bind fun _ => Svc.Only.pure _
  refine (Svc.Only.ensure _ _).bind fun _ => ?_
  refine (Svc.Only.ensure _ _).bind fun _ => ?_
  refine Svc.Only.bind ?_ fun _ => ?_
  · split
    · exact Svc.Only.bind (Svc.Only.act (hExpire _)) fun _ =>
        Svc.Only.fail _
    · exact Svc.Only.pure _
  refine (Svc.Only.orFail _ _).bind fun money => ?_
  exact (Svc.Only.ensure _ _).bind fun _ => Svc.Only.pure _

theorem plain_quoteTerms
    (quoteId : String)
    (now : DateTime) :
    Svc.Only Plain (quoteTerms input quoteId now) :=
  only_quoteTerms (fun _ => rfl) (fun _ => rfl) quoteId

theorem hushed_directTerms (params : A2aPayParams) :
    Svc.Only Hushed (directTerms input params) :=
  (Svc.Only.orFail _ _).bind fun _ =>
    (Svc.Only.orFail _ _).bind fun _ =>
      (Svc.Only.ensure _ _).bind fun _ =>
        (Svc.Only.ensure _ _).bind fun _ => Svc.Only.pure _

theorem hushed_priceHint (hint : Option Money) :
    Svc.Only Hushed (priceHint hint) := by
  cases hint with
  | none => exact Svc.Only.pure _
  | some price =>
      exact (Svc.Only.ensure _ _).bind fun _ => Svc.Only.pure _

theorem hushed_intentIdFor :
    Svc.Only Hushed (intentIdFor input) := by
  unfold intentIdFor
  split
  · exact Svc.Only.pure _
  · exact Svc.Only.bind (Svc.Only.act rfl) fun _ =>
      Svc.Only.pure _

theorem hushed_receiptFor (body : IntentResponseBody) :
    Svc.Only Hushed
      (receiptFor svc intent input mandate body) := by
  unfold receiptFor signReceipt
  split
  · refine (Svc.Only.ofExcept _ _).bind fun bytes => ?_
    refine Svc.Only.bind (Svc.Only.act rfl) fun now => ?_
    refine Svc.Only.bind (Svc.Only.act rfl) fun token => ?_
    refine Svc.Only.bind (Svc.Only.act rfl) fun signed => ?_
    refine (Svc.Only.ofExcept _ _).bind fun jws => ?_
    exact Svc.Only.bind (Svc.Only.act rfl) fun _ =>
      Svc.Only.pure _
  · exact Svc.Only.pure _

end Plain

end Protocol

end IcpHandler
