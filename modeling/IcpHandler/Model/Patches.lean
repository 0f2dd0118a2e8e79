import IcpHandler.Data.KeyedStore
import IcpHandler.Data.Saturating
import IcpHandler.Model.Records

/-
  The closures that the service hands to the stores' `update`,
  one constructor for each call site, and the three stores as
  keyed stores.

  Main declarations:
    * `TxnPatch`
    * `SubPatch`
    * `QuotePatch`
-/

------------------------------------------------------------
-- Transactions
------------------------------------------------------------

namespace IcpHandler

namespace Model

/- A quote whose deadline has been reached. -/
def Transaction.quoteLapsed
    (txn : Transaction)
    (now : DateTime) : Bool :=
  txn.quoteExpiresAt.any fun expiresAt => expiresAt ≤ now

/- `Draft | Quoted` -/
def TransactionState.isOpen : TransactionState → Bool
  | .draft | .quoted => true
  | _ => false

/- The updates of a stored transaction. -/
inductive TxnPatch where
  /- `ensure_quote_open` -/
  | expireIfOpen (now : DateTime)
  /- `tick_expiries` -/
  | expire (now : DateTime)
  /- `do_authorize` -/
  | authorize
      (buyer : Option Buyer)
      (shipTo billTo : Option Address)
      (now : DateTime)
  /- `do_buy` -/
  | complete (orderId : Option String) (now : DateTime)
  /- `do_return` -/
  | reverse (now : DateTime)
  /- `do_negotiate`; the entry text depends on the old total -/
  | renegotiate
      (originalTotalMinor newTotalMinor : Int64)
      (currency : String)
      (entry : Int64 → String)
      (now : DateTime)
  /- `do_confirm_receipt` -/
  | confirmReceipt
      (confirmedAt confirmedBy : String)
      (note : Option String)
      (now : DateTime)

namespace TxnPatch

/- The body of each closure. -/
def apply (patch : TxnPatch) (t : Transaction) : Transaction :=
  match patch with
  | .expireIfOpen now =>
      if t.state.isOpen && t.quoteLapsed now then
        { t with state := .expired, updatedAt := now }
      else t
  | .expire now =>
      { t with state := .expired, updatedAt := now }
  | .authorize buyer shipTo billTo now =>
      { t with
        buyer := buyer.getD t.buyer
        shipTo := shipTo <|> t.shipTo
        billTo := billTo <|> t.billTo
        state := .authorized
        updatedAt := now }
  | .complete orderId now =>
      { t with
        state := .completed
        orderId := orderId
        updatedAt := now }
  | .reverse now =>
      { t with state := .reversed, updatedAt := now }
  | .renegotiate original new currency entry now =>
      let prior := t.totals.total.getD (.new original currency)
      let count :=
        (t.externalRefs.keys.filter
          (Text.startsWith "negotiation_")).length
      { t with
        totals :=
          { t.totals with total := some (.new new currency) }
        externalRefs :=
          t.externalRefs.insert
            ("negotiation_" ++ Text.zeroPadded 3 count)
            (entry prior.amountMinor)
        updatedAt := now }
  | .confirmReceipt confirmedAt confirmedBy note now =>
      let refs :=
        (t.externalRefs.insert "receipt_confirmed_at"
          confirmedAt).insert "receipt_confirmed_by" confirmedBy
      { t with
        externalRefs :=
          match note with
          | some note => refs.insert "receipt_note" note
          | none => refs
        updatedAt := now }

theorem apply_id (patch : TxnPatch) (t : Transaction) :
    (patch.apply t).id = t.id := by
  cases patch <;> simp only [apply]
  split <;> rfl

@[simp] theorem apply_tenantId
    (patch : TxnPatch)
    (t : Transaction) :
    (patch.apply t).tenantId = t.tenantId := by
  cases patch <;> simp only [apply]
  split <;> rfl

end TxnPatch

/- `list_due_for_expiry` selects these rows. -/
instance : Data.Record Transaction TxnPatch DateTime where
  key := Transaction.id
  apply := TxnPatch.apply
  isDue now txn := txn.state.isOpen && txn.quoteLapsed now
  key_apply := TxnPatch.apply_id

end Model

end IcpHandler

------------------------------------------------------------
-- Subscriptions
------------------------------------------------------------

namespace IcpHandler

namespace Model

/- The updates of a stored subscription. -/
inductive SubPatch where
  /- `do_renew` -/
  | renew
      (periodStart periodEnd : DateTime)
      (transactionId : String)
      (payment : PaymentInstrument)
      (mandateJti : Option String)
      (now : DateTime)
  /- `do_pause` -/
  | pause (now : DateTime)
  /- `do_cancel_subscription` -/
  | cancel (now : DateTime)
  /- `tick_subscriptions`, after a charge -/
  | autoRenew
      (periodStart periodEnd : DateTime)
      (chargesCompleted : UInt32)
      (transactionId : String)
      (now : DateTime)
  /- `tick_subscriptions`, after a failure -/
  | chargeFailed
      (failureCount maxAttempts : UInt32)
      (nextAttempt : Option DateTime)
      (now : DateTime)

namespace SubPatch

/- The body of each closure. -/
def apply (patch : SubPatch) (s : Subscription) : Subscription :=
  match patch with
  | .renew periodStart periodEnd txnId payment jti now =>
      { s with
        currentPeriodStart := periodStart
        currentPeriodEnd := periodEnd
        nextChargeAt := periodEnd
        chargesCompleted := Saturating.satAdd32 s.chargesCompleted 1
        lastTransactionId := some txnId
        status := .active
        trialEnd := none
        failedRenewalAttempts := 0
        paymentInstrument := some payment
        updatedAt := now
        mandateJti := jti <|> s.mandateJti }
  | .pause now =>
      { s with
        status := .paused
        pausedAt := some now
        updatedAt := now }
  | .cancel now =>
      { s with
        status := .canceled
        canceledAt := some now
        updatedAt := now }
  | .autoRenew periodStart periodEnd charges txnId now =>
      { s with
        status :=
          if s.status = .trialing then .active else s.status
        trialEnd :=
          if s.status = .trialing then none else s.trialEnd
        currentPeriodStart := periodStart
        currentPeriodEnd := periodEnd
        nextChargeAt := periodEnd
        chargesCompleted := charges
        lastTransactionId := some txnId
        failedRenewalAttempts := 0
        updatedAt := now }
  | .chargeFailed failures maxAttempts nextAttempt now =>
      { s with
        failedRenewalAttempts := failures
        status :=
          if maxAttempts ≤ failures then .pastDue else s.status
        nextChargeAt :=
          if maxAttempts ≤ failures then s.nextChargeAt
          else nextAttempt.getD s.nextChargeAt
        updatedAt := now }

theorem apply_id (patch : SubPatch) (s : Subscription) :
    (patch.apply s).id = s.id := by
  cases patch <;> rfl

@[simp] theorem apply_tenantId
    (patch : SubPatch)
    (s : Subscription) :
    (patch.apply s).tenantId = s.tenantId := by
  cases patch <;> rfl

end SubPatch

/- `list_due_for_renewal` selects these rows. -/
instance : Data.Record Subscription SubPatch DateTime where
  key := Subscription.id
  apply := SubPatch.apply
  isDue now sub :=
    (sub.status == .active || sub.status == .trialing) &&
      sub.nextChargeAt ≤ now && sub.paymentInstrument.isSome
  key_apply := SubPatch.apply_id

end Model

end IcpHandler

------------------------------------------------------------
-- Peer Quotes
------------------------------------------------------------

namespace IcpHandler

namespace Model

/- The updates of a stored peer quote. -/
inductive QuotePatch where
  /- `do_a2a_pay` past the deadline, and `tick_expiries` -/
  | expire (now : DateTime)
  /- `do_a2a_pay` -/
  | accept (transactionId : String) (now : DateTime)

namespace QuotePatch

/- The body of each closure. -/
def apply (patch : QuotePatch) (q : PeerQuote) : PeerQuote :=
  match patch with
  | .expire now =>
      { q with status := .expired, updatedAt := now }
  | .accept transactionId now =>
      { q with
        status := .accepted
        acceptedAt := some now
        chargeTransactionId := some transactionId
        updatedAt := now }

theorem apply_id (patch : QuotePatch) (q : PeerQuote) :
    (patch.apply q).id = q.id := by
  cases patch <;> rfl

@[simp] theorem apply_tenantId
    (patch : QuotePatch)
    (q : PeerQuote) :
    (patch.apply q).tenantId = q.tenantId := by
  cases patch <;> rfl

end QuotePatch

/- `list_due_for_expiry` selects these rows. -/
instance : Data.Record PeerQuote QuotePatch DateTime where
  key := PeerQuote.id
  apply := QuotePatch.apply
  isDue now quote :=
    (quote.status == .pending || quote.status == .quoted) &&
      quote.expiresAt ≤ now
  key_apply := QuotePatch.apply_id

end Model

end IcpHandler
