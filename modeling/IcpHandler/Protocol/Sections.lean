import IcpHandler.Protocol.PlainBlocks

/-
  How the intents are put together: of steps that have to do
  with no lock, and of critical sections, each under the lock
  of one row. Where such a section marks nothing expired, its
  steps are steady.

  Main declarations:
    * `Eff.marking`, `Steady`
    * `Sections`
    * `sections_doReturn`, `sections_doRenew`
    * `sections_dispatch`
-/

------------------------------------------------------------
-- Steady Effects
------------------------------------------------------------

namespace IcpHandler

/- The time by which an intent marks a row as expired. -/
def Model.Eff.marking : Model.Eff → Option Model.DateTime
  | .txns (.update _ (.expireIfOpen time)) => some time
  | .quotes (.update _ (.expire time)) => some time
  | _ => none

namespace Protocol

open Model Service Concurrency

/- Plain, and marks nothing as expired. -/
def Steady (effect : Eff) : Prop :=
  (!effect.announces && !effect.isLocking &&
    effect.marking.isNone) = true

section Steady

variable {effect : Eff}

theorem Steady.plain (hSteady : Steady effect) : Plain effect :=
  (Bool.and_eq_true_iff.mp hSteady).1

theorem Steady.unmarking
    (hSteady : Steady effect) :
    effect.marking = none :=
  Option.isNone_iff_eq_none.mp
    (Bool.and_eq_true_iff.mp hSteady).2

theorem marking_of_quiet
    (hQuiet : effect.isQuiet = true) :
    effect.marking = none := by
  obtain ⟨hTxns, -, hQuotes, -⟩ := isQuiet_iff.mp hQuiet
  cases effect with
  | txns op =>
      cases op with
      | update id patch => cases hTxns
      | _ => rfl
  | quotes op =>
      cases op with
      | update id patch => cases hQuotes
      | _ => rfl
  | _ => rfl

theorem Hushed.steady
    (hHushed : Hushed effect) :
    Steady effect := by
  have hPlain :
      (!effect.announces && !effect.isLocking) = true :=
    hHushed.plain
  rw [Steady, hPlain, marking_of_quiet hHushed.quiet]
  rfl

end Steady

end Protocol

/- A hushed block is a steady one. -/
theorem Model.Svc.Only.steady
    {α : Type}
    {body : Model.Svc α}
    (hHushed : Model.Svc.Only Protocol.Hushed body) :
    Model.Svc.Only Protocol.Steady body :=
  hHushed.mono fun _ hEffect => hEffect.steady

end IcpHandler

------------------------------------------------------------
-- Steady Blocks
------------------------------------------------------------

namespace IcpHandler

namespace Protocol

open Model Service Concurrency

/- A steady block is a plain one. -/
theorem plain_of_steady
    {α : Type}
    {body : Svc α}
    (hSteady : Svc.Only Steady body) :
    Svc.Only Plain body :=
  hSteady.mono fun _ hEffect => hEffect.plain

section Blocks

variable {svc : IcpService}
variable {input : IntentInput}
variable {mandate : Option MandateEvaluation}

/- The last step of many intents: patch the row, return it. -/
theorem steady_lastUpdate
    {id : String}
    {patch : TxnPatch}
    {error : ApiError}
    {next : Transaction → Outcome}
    (hSteady : Steady (.txns (.update id patch))) :
    Svc.Only Steady
      (do
        let updated ← Svc.act (.txns (.update id patch))
        let txn ← Svc.orFail error updated
        pure (next txn)) :=
  Svc.Only.bind (Svc.Only.act hSteady) fun _ =>
    (Svc.Only.orFail _ _).bind fun _ => Svc.Only.pure _

theorem steady_advisory (state : TransactionState) :
    Svc.Only Steady
      (do
        let txn ← freshTransaction input state
        Svc.act (.txns (.insert txn))
        pure { transaction := txn } : Svc Outcome) :=
  (hushed_freshTransaction state).steady.bind fun _ =>
    Svc.Only.bind (Svc.Only.act rfl) fun _ => Svc.Only.pure _

theorem steady_doQuote :
    Svc.Only Steady (doQuote svc input) := by
  refine (Svc.Only.ofExcept _ _).bind fun params => ?_
  refine (Svc.Only.ensure _ _).bind fun _ => ?_
  refine (Svc.Only.ofExcept _ _).bind fun priced => ?_
  refine (hushed_quoteTotals _ _ _).steady.bind fun totals => ?_
  refine (hushed_freshTransaction _).steady.bind fun txn => ?_
  refine Svc.Only.bind (Svc.Only.act rfl) fun now => ?_
  exact Svc.Only.bind (Svc.Only.act rfl) fun _ =>
    Svc.Only.pure _

theorem steady_doTrack : Svc.Only Steady (doTrack input) := by
  refine (Svc.Only.orFail _ _).bind fun txnId => ?_
  exact (hushed_transactionForInput txnId).steady.bind fun _ =>
    Svc.Only.pure _

theorem steady_runSubscriptionCharge
    (buyer : Buyer)
    (shipTo : Option Address)
    (items : List RequestItem)
    (currency : String)
    (bills : Billing) :
    Svc.Only Steady
      (runSubscriptionCharge svc input buyer shipTo items
        currency bills) := by
  refine (Svc.Only.ofExcept _ _).bind fun priced => ?_
  refine Svc.Only.bind (Svc.Only.act rfl) fun now => ?_
  refine Svc.Only.bind (Svc.Only.act rfl) fun token => ?_
  refine (hushed_persistOrderForTransaction _).steady.bind
    fun summary => ?_
  exact Svc.Only.bind (Svc.Only.act rfl) fun _ =>
    Svc.Only.pure _

theorem steady_doSubscribe :
    Svc.Only Steady (doSubscribe svc input mandate) := by
  refine (Svc.Only.ofExcept _ _).bind fun params => ?_
  refine (Svc.Only.ensure _ _).bind fun _ => ?_
  refine (Svc.Only.ofExcept _ _).bind fun _ => ?_
  refine Svc.Only.bind (Svc.Only.act rfl) fun now => ?_
  refine (Svc.Only.ofExcept _ _).bind fun priced => ?_
  refine (hushed_reserve _ _ _ _).steady.bind fun _ => ?_
  refine Svc.Only.bind (Svc.Only.act rfl) fun token => ?_
  dsimp only
  split
  · refine (Svc.Only.ensure _ _).bind fun _ => ?_
    refine (Svc.Only.orFail _ _).bind fun trialEnd => ?_
    refine Svc.Only.bind (Svc.Only.act rfl) fun _ => ?_
    refine (hushed_subscriptionPseudoTxn _ _).steady.bind
      fun txn => ?_
    exact Svc.Only.bind (Svc.Only.act rfl) fun _ =>
      Svc.Only.pure _
  · refine (steady_runSubscriptionCharge _ _ _ _ _).bind
      fun charge => ?_
    exact Svc.Only.bind (Svc.Only.act rfl) fun _ =>
      Svc.Only.pure _

/- The placeholder of a pause or a cancellation. -/
theorem steady_subMarker
    {subId message : String}
    {patch : SubPatch} :
    Svc.Only Steady
      (do
        let found ← Svc.act (.subs (.update subId patch))
        let updated ← Svc.orPanic message found
        let txn ← subscriptionPseudoTxn input updated .canceled
        Svc.act (.txns (.insert txn))
        pure
          { transaction := txn
            subscription := some updated } : Svc Outcome) := by
  refine Svc.Only.bind (Svc.Only.act rfl) fun found => ?_
  refine (Svc.Only.orPanic _ _).bind fun updated => ?_
  refine (hushed_subscriptionPseudoTxn _ _).steady.bind
    fun txn => ?_
  exact Svc.Only.bind (Svc.Only.act rfl) fun _ =>
    Svc.Only.pure _

theorem steady_doA2aQuote :
    Svc.Only Steady (doA2aQuote svc input mandate) := by
  refine (Svc.Only.ofExcept _ _).bind fun params => ?_
  refine (Svc.Only.ensure _ _).bind fun _ => ?_
  refine Svc.Only.bind (Svc.Only.act rfl) fun now => ?_
  refine (hushed_priceHint _).steady.bind fun hinted => ?_
  refine Svc.Only.bind (Svc.Only.act rfl) fun token => ?_
  refine Svc.Only.bind (Svc.Only.act rfl) fun _ => ?_
  refine Svc.Only.bind (Svc.Only.act rfl) fun txnToken => ?_
  exact Svc.Only.bind (Svc.Only.act rfl) fun _ =>
    Svc.Only.pure _

/- What a payment does once its terms are known. -/
theorem steady_settle
    (terms : A2aTerms)
    (now : DateTime)
    (makeTxn : String → Transaction) :
    Svc.Only Steady
      (do
        reserveMandateSpend mandate input.tenant.tenantId
          terms.money.amountMinor terms.money.currency
        let token ← Svc.act .uuid
        Svc.act (.txns (.insert (makeTxn token)))
        let updatedQuote ←
          match terms.quote with
          | some quote =>
              Svc.act (.quotes (.update quote.id
                (.accept (makeTxn token).id now)))
          | none => pure none
        pure
          { transaction := makeTxn token
            peerQuote := updatedQuote } : Svc Outcome) := by
  refine (hushed_reserve _ _ _ _).steady.bind fun _ => ?_
  refine Svc.Only.bind (Svc.Only.act rfl) fun token => ?_
  refine Svc.Only.bind (Svc.Only.act rfl) fun _ => ?_
  split
  · exact Svc.Only.bind (Svc.Only.act rfl) fun _ =>
      Svc.Only.pure _
  · exact (Svc.Only.pure _).bind fun _ => Svc.Only.pure _

end Blocks

end Protocol

end IcpHandler

------------------------------------------------------------
-- Critical Sections
------------------------------------------------------------

namespace IcpHandler

namespace Protocol

open Model Service Concurrency

/- The lock of a transaction, subscription or peer quote. -/
def IsRowLock (key : String) : Prop :=
  ∃ id, key = txnLock id ∨ key = subLock id ∨
    key = quoteLock id

/-
  The block is made of steps of one kind, and of critical
  sections with such steps.
-/
inductive Sections
    (kind : Eff → Prop) :
    {α : Type} → Svc α → Prop where
  | only
      {α : Type}
      {body : Svc α}
      (hOnly : Svc.Only kind body) :
      Sections kind body
  | bind
      {α β : Type}
      {body : Svc α}
      {next : α → Svc β}
      (hBody : Sections kind body)
      (hNext : ∀ value, Sections kind (next value)) :
      Sections kind (body >>= next)
  | locked
      {α : Type}
      {key : String}
      {body : Svc α}
      (hKey : IsRowLock key)
      (hOnly : Svc.Only kind body) :
      Sections kind (Svc.withLock key body)

namespace Sections

variable {kind : Eff → Prop}
variable {α β : Type}

theorem mono
    {kind' : Eff → Prop}
    {body : Svc α}
    (hBody : Sections kind body)
    (hImp : ∀ effect, kind effect → kind' effect) :
    Sections kind' body := by
  induction hBody with
  | only hOnly => exact .only (hOnly.mono hImp)
  | bind hBody hNext ihBody ihNext => exact .bind ihBody ihNext
  | locked hKey hOnly => exact .locked hKey (hOnly.mono hImp)

/- Steps of the kind before the rest. -/
theorem after
    {body : Svc α}
    {next : α → Svc β}
    (hOnly : Svc.Only kind body)
    (hNext : ∀ value, Sections kind (next value)) :
    Sections kind (body >>= next) :=
  .bind (.only hOnly) hNext

variable {id : String}
variable {body : Svc α}

theorem lockedTxn
    (hOnly : Svc.Only kind body) :
    Sections kind (Svc.withLock (txnLock id) body) :=
  .locked ⟨id, .inl rfl⟩ hOnly

theorem lockedSub
    (hOnly : Svc.Only kind body) :
    Sections kind (Svc.withLock (subLock id) body) :=
  .locked ⟨id, .inr (.inl rfl)⟩ hOnly

theorem lockedQuote
    (hOnly : Svc.Only kind body) :
    Sections kind (Svc.withLock (quoteLock id) body) :=
  .locked ⟨id, .inr (.inr rfl)⟩ hOnly

end Sections

end Protocol

end IcpHandler

------------------------------------------------------------
-- The Intents
------------------------------------------------------------

namespace IcpHandler

namespace Protocol

open Model Service Concurrency

section Bodies

variable {svc : IcpService}
variable {input : IntentInput}
variable {mandate : Option MandateEvaluation}

theorem sections_doReturn :
    Sections Steady (doReturn input) := by
  refine .after (Svc.Only.orFail _ _) fun txnId => ?_
  refine .lockedTxn ?_
  refine (hushed_transactionForInput _).steady.bind
    fun _ => ?_
  exact Svc.Only.bind (Svc.Only.act rfl) fun now =>
    steady_lastUpdate rfl

theorem sections_doNegotiate :
    Sections Steady (doNegotiate svc input) := by
  refine .after (Svc.Only.ofExcept _ _) fun params => ?_
  refine .after (Svc.Only.ensure _ _) fun _ => ?_
  refine .after (Svc.Only.ensure _ _) fun _ => ?_
  refine .lockedTxn ?_
  refine (hushed_transactionForInput _).steady.bind
    fun txn => ?_
  refine (Svc.Only.ensure _ _).bind fun _ => ?_
  refine (hushed_negotiatedTotal _ _).steady.bind
    fun total => ?_
  exact Svc.Only.bind (Svc.Only.act rfl) fun now =>
    steady_lastUpdate rfl

theorem sections_doConfirmReceipt :
    Sections Steady (doConfirmReceipt svc input) := by
  refine .after (Svc.Only.ofExcept _ _) fun params => ?_
  refine .lockedTxn ?_
  refine (hushed_transactionForInput _).steady.bind
    fun txn => ?_
  refine (Svc.Only.ensure _ _).bind fun _ => ?_
  refine (Svc.Only.ensure _ _).bind fun _ => ?_
  exact Svc.Only.bind (Svc.Only.act rfl) fun now =>
    steady_lastUpdate rfl

theorem sections_doRenew :
    Sections Steady (doRenew svc input mandate) := by
  refine .after (Svc.Only.ofExcept _ _) fun params => ?_
  refine .after (Svc.Only.ofExcept _ _) fun _ => ?_
  refine .lockedSub ?_
  refine (hushed_subscriptionForInput _).steady.bind
    fun sub => ?_
  refine (hushed_ensureRenewable _).steady.bind fun _ => ?_
  refine Svc.Only.bind (Svc.Only.act rfl) fun now => ?_
  refine (Svc.Only.ofExcept _ _).bind fun priced => ?_
  refine (hushed_reserve _ _ _ _).steady.bind fun _ => ?_
  refine (steady_runSubscriptionCharge _ _ _ _ _).bind
    fun charge => ?_
  refine Svc.Only.bind (Svc.Only.act rfl) fun found => ?_
  exact (Svc.Only.orPanic _ _).bind fun _ => Svc.Only.pure _

theorem sections_doPause :
    Sections Steady (doPause svc input) := by
  refine .after (Svc.Only.ofExcept _ _) fun params => ?_
  refine .lockedSub ?_
  refine (hushed_subscriptionForInput _).steady.bind
    fun sub => ?_
  refine (Svc.Only.ensure _ _).bind fun _ => ?_
  exact Svc.Only.bind (Svc.Only.act rfl) fun now =>
    steady_subMarker

theorem sections_doCancelSubscription :
    Sections Steady (doCancelSubscription svc input) := by
  refine .after (Svc.Only.ofExcept _ _) fun params => ?_
  refine .lockedSub ?_
  refine (hushed_subscriptionForInput _).steady.bind
    fun sub => ?_
  refine (Svc.Only.ensure _ _).bind fun _ => ?_
  exact Svc.Only.bind (Svc.Only.act rfl) fun now =>
    steady_subMarker

/- The next three may mark the row they find expired. -/
theorem sections_doAuthorize :
    Sections Plain (doAuthorize svc input) := by
  refine .after (Svc.Only.ofExcept _ _) fun params => ?_
  refine .lockedTxn ?_
  refine (hushed_transactionForInput _).plain.bind fun txn => ?_
  refine (Svc.Only.ensure _ _).bind fun _ => ?_
  refine (Svc.Only.ensure _ _).bind fun _ => ?_
  refine Svc.Only.bind (Svc.Only.act rfl) fun now => ?_
  refine (plain_ensureQuoteOpen _ _).bind fun _ => ?_
  exact Svc.Only.bind (Svc.Only.act rfl) fun now =>
    plain_of_steady (steady_lastUpdate rfl)

theorem sections_doBuy :
    Sections Plain (doBuy svc input mandate) := by
  refine .after (Svc.Only.ofExcept _ _) fun params => ?_
  refine .after (Svc.Only.ofExcept _ _) fun _ => ?_
  refine .lockedTxn ?_
  refine (hushed_transactionForInput _).plain.bind fun txn => ?_
  refine (Svc.Only.ensure _ _).bind fun _ => ?_
  refine (plain_ensureBuyable _).bind fun _ => ?_
  refine (hushed_reserve _ _ _ _).plain.bind fun _ => ?_
  refine (hushed_persistOrderForTransaction _).plain.bind
    fun order => ?_
  exact Svc.Only.bind (Svc.Only.act rfl) fun now =>
    plain_of_steady (steady_lastUpdate rfl)

theorem plain_payTerms (params : A2aPayParams) :
    Svc.Only Plain (payTerms input mandate params) := by
  refine Svc.Only.bind (Svc.Only.act rfl) fun now => ?_
  split
  · exact (plain_quoteTerms _ _).bind fun terms =>
      plain_of_steady (steady_settle terms now _)
  · exact (hushed_directTerms _).plain.bind fun terms =>
      plain_of_steady (steady_settle terms now _)

theorem sections_doA2aPay :
    Sections Plain (doA2aPay svc input mandate) := by
  refine .after (Svc.Only.ofExcept _ _) fun params => ?_
  refine .after (Svc.Only.ensure _ _) fun _ => ?_
  refine .after (hushed_ensureA2aPayment _).plain fun _ => ?_
  split
  · exact .lockedQuote (plain_payTerms params)
  · exact .only (plain_payTerms params)

theorem sections_dispatch (intent : Intent) :
    Sections Plain (dispatch svc intent input mandate) := by
  have hSteady :
      ∀ {body : Svc Outcome},
        Sections Steady body → Sections Plain body :=
    fun hBody => hBody.mono fun _ hEffect => hEffect.plain
  cases intent with
  | search => exact hSteady (.only (steady_advisory _))
  | describe => exact hSteady (.only (steady_advisory _))
  | quote => exact hSteady (.only steady_doQuote)
  | negotiate => exact hSteady sections_doNegotiate
  | authorize => exact sections_doAuthorize
  | buy => exact sections_doBuy
  | pay => exact sections_doBuy
  | subscribe => exact hSteady (.only steady_doSubscribe)
  | renew => exact hSteady sections_doRenew
  | pause => exact hSteady sections_doPause
  | cancelSubscription =>
      exact hSteady sections_doCancelSubscription
  | track => exact hSteady (.only steady_doTrack)
  | confirmReceipt => exact hSteady sections_doConfirmReceipt
  | «return» => exact hSteady sections_doReturn
  | refundRequest => exact hSteady sections_doReturn
  | a2aPay => exact sections_doA2aPay
  | a2aQuote => exact hSteady (.only steady_doA2aQuote)

end Bodies

end Protocol

end IcpHandler
