import IcpHandler.Concurrency.Machine
import IcpHandler.Model.Deps
import IcpHandler.Model.Ledger
import IcpHandler.Model.Patches

/-
  The world the service acts on, and the atomic effects
  through which it acts. Every store call is one effect; the
  operation locks are taken and released by effects of their
  own.

  Main declarations:
    * `World`
    * `Eff`
    * `Choice`
    * `execEff`
    * `machine`
-/

------------------------------------------------------------
-- Effects
------------------------------------------------------------

namespace IcpHandler

namespace Model

open Data

abbrev TxnOp := StoreOp Transaction TxnPatch DateTime
abbrev SubOp := StoreOp Subscription SubPatch DateTime
abbrev QuoteOp := StoreOp PeerQuote QuotePatch DateTime

/-
  What a charge is for: a subscription, and the start of the
  billing period it pays. The source keeps no such link on the
  charge transaction, so it rides on the effect.
-/
structure Billing where
  subscriptionId : String
  periodStart : DateTime
  deriving DecidableEq

/- The atomic effects of the service. -/
inductive Eff where
  /- `Utc::now()` -/
  | now
  /- `Uuid::new_v4().simple()` -/
  | uuid
  | lock (key : String)
  | unlock (key : String)
  | txns (op : TxnOp)
  | subs (op : SubOp)
  | quotes (op : QuoteOp)
  /- the insertion of a charge by `run_subscription_charge` -/
  | insertCharge (txn : Transaction) (bills : Billing)
  | tryUsage (jti : String)
  | recordSpend
      (jti tenantId : String)
      (amountMinor : Int64)
      (now : DateTime)
      (limits : MandateSpendLimits)
  /- `PrincipalResolver::resolve` -/
  | resolve (did : String)
  /- `CommerceEngine::compute_discount_minor` -/
  | computeDiscount
      (items : List RequestItem)
      (currency : String)
      (shipTo : Option Address)
      (couponCodes : List String)
  /- the engine calls of `CommerceEngine::persist_order` -/
  | createOrder
      (buyer : Buyer)
      (currency : String)
      (lineItems : List LineItem)
      (total : Money)
  /- `serde_jcs` on the claims, and the Ed25519 signature -/
  | signClaims (claims : ReceiptClaims)
  | insertReceipt (receipt : StoredReceipt)
  | activeSubscribers (tenantId : String)
  | enqueue (delivery : WebhookDelivery)
  | emit (event : Event)

/- What each effect answers. -/
abbrev Eff.Res : Eff → Type
  | .now => DateTime
  | .uuid => String
  | .lock _ => Unit
  | .unlock _ => Unit
  | .txns op => op.Res
  | .subs op => op.Res
  | .quotes op => op.Res
  | .insertCharge _ _ => Unit
  | .tryUsage _ => Except ApiError MandateUsage
  | .recordSpend _ _ _ _ _ => Except ApiError Unit
  | .resolve _ => Except String (List VerifyingKeyEntry)
  | .computeDiscount _ _ _ _ => Int64
  | .createOrder _ _ _ _ => Except ApiError PersistedOrder
  | .signClaims _ => Except String String
  | .insertReceipt _ => Unit
  | .activeSubscribers _ => List WebhookSubscriber
  | .enqueue _ => Unit
  | .emit _ => Unit

end Model

end IcpHandler

------------------------------------------------------------
-- The World
------------------------------------------------------------

namespace IcpHandler

namespace Model

open Data

/- Everything that outlives one call of the service. -/
structure World where
  transactions : KeyedStore Transaction
  subscriptions : KeyedStore Subscription
  peerQuotes : KeyedStore PeerQuote
  ledger : MandateLedger
  orders : List PersistedOrder
  receipts : List StoredReceipt
  subscribers : List WebhookSubscriber
  deliveries : List WebhookDelivery
  events : List Event
  -- the operation locks that are held, with their holders
  locks : List (String × Nat)
  -- the random tokens handed out so far, with their owners
  issued : List (String × Nat)

/- The empty stores, over a given ledger. -/
def World.fresh
    (ledger : MandateLedger)
    (subscribers : List WebhookSubscriber) : World :=
  { transactions := .empty
    subscriptions := .empty
    peerQuotes := .empty
    ledger := ledger
    orders := []
    receipts := []
    subscribers := subscribers
    deliveries := []
    events := []
    locks := []
    issued := [] }

/-
  What the outside decides at one effect: the clock, a random
  token, whether the store is out of order, the order of a
  listing, and the answers of other services.
-/
structure Choice where
  clock : DateTime := 0
  token : String := ""
  fault : Bool := false
  order : List String := []
  keys : Except String (List VerifyingKeyEntry) := .ok []
  discount : Int64 := 0
  engine : Except String (String × String) := .ok ("", "")
  signature : Except String String := .ok ""

/- The token has not been handed out, nor is it in a key. -/
def World.Unused (w : World) (token : String) : Prop :=
  token ∉ w.issued.map Prod.fst ∧
    w.transactions.get ("txn_" ++ token) = none ∧
    w.subscriptions.get ("sub_" ++ token) = none ∧
    (w.peerQuotes.get ("pq_" ++ token)).isNone

instance (w : World) (token : String) :
    Decidable (w.Unused token) :=
  inferInstanceAs (Decidable (_ ∧ _ ∧ _ ∧ _))

/- The meaning of each effect. -/
def execEff
    (rfc3339 : Rfc3339)
    (thread : Nat)
    (c : Choice)
    (w : World) :
    (effect : Eff) → Option (effect.Res × World)
  | .now => some (c.clock, w)
  | .uuid =>
      if w.Unused c.token then
        some (c.token,
          { w with issued := (c.token, thread) :: w.issued })
      else none
  | .lock key =>
      if key ∈ w.locks.map Prod.fst then none
      else
        some ((), { w with locks := (key, thread) :: w.locks })
  | .unlock key =>
      some ((),
        { w with locks := w.locks.erase (key, thread) })
  | .txns op =>
      (op.exec c.fault c.order w.transactions).map fun result =>
        (result.1, { w with transactions := result.2 })
  | .subs op =>
      (op.exec c.fault c.order w.subscriptions).map fun result =>
        (result.1, { w with subscriptions := result.2 })
  | .quotes op =>
      (op.exec c.fault c.order w.peerQuotes).map fun result =>
        (result.1, { w with peerQuotes := result.2 })
  | .insertCharge txn _ =>
      some ((),
        { w with
          transactions :=
            if c.fault then w.transactions
            else w.transactions.insert txn })
  | .tryUsage jti =>
      some (w.ledger.tryUsage rfc3339 c.fault jti, w)
  | .recordSpend jti tenantId amountMinor now limits =>
      let result :=
        w.ledger.tryRecordSpendChecked rfc3339 c.fault jti
          tenantId amountMinor now limits
      some (result.1, { w with ledger := result.2 })
  | .resolve _ => some (c.keys, w)
  | .computeDiscount _ _ _ _ =>
      some (if c.discount < 0 then 0 else c.discount, w)
  | .createOrder _ _ _ total =>
      match c.engine with
      | .error message =>
          some (.error (.engineUnavailable message), w)
      | .ok (id, orderNumber) =>
          let order : PersistedOrder := ⟨id, orderNumber, total⟩
          some (.ok order,
            { w with orders := order :: w.orders })
  | .signClaims _ => some (c.signature, w)
  | .insertReceipt receipt =>
      some ((),
        if c.fault then w
        else { w with receipts := receipt :: w.receipts })
  | .activeSubscribers tenantId =>
      some (if c.fault then []
        else w.subscribers.filter (·.tenantId == tenantId), w)
  | .enqueue delivery =>
      some ((),
        if c.fault then w
        else { w with deliveries := delivery :: w.deliveries })
  | .emit event =>
      some ((), { w with events := event :: w.events })

/- The service's machine. -/
def machine
    (rfc3339 : Rfc3339) :
    Concurrency.Machine Eff.Res World Choice :=
  ⟨execEff rfc3339⟩

end Model

end IcpHandler

------------------------------------------------------------
-- Programs of the Service
------------------------------------------------------------

namespace IcpHandler

namespace Model

open Concurrency

/- A service operation: effects, and an early stop. -/
abbrev Svc (α : Type) :=
  ExceptT Halt (Prog Eff.Res) α

namespace Svc

/- Perform one effect. -/
def act (effect : Eff) : Svc effect.Res :=
  ExceptT.lift (Prog.perform effect)

/- Return an error to the caller. -/
def fail {α : Type} (error : ApiError) : Svc α :=
  throw (.error error)

/- Abort the process. -/
def panic {α : Type} (message : String) : Svc α :=
  throw (.panicked message)

/- Continue only if the check holds. -/
def ensure (check : Bool) (error : ApiError) : Svc Unit :=
  if check then pure () else fail error

/- The value of an option, or an error. -/
def orFail
    {α : Type}
    (error : ApiError) : Option α → Svc α
  | some value => pure value
  | none => fail error

/- The value of an option, or a panic. -/
def orPanic
    {α : Type}
    (message : String) : Option α → Svc α
  | some value => pure value
  | none => panic message

/- The value of a result, or its error. -/
def ofExcept
    {α ε : Type}
    (error : ε → ApiError) : Except ε α → Svc α
  | .ok value => pure value
  | .error e => fail (error e)

/- The error of a block as a value. A panic goes through. -/
def attempt
    {α : Type}
    (body : Svc α) : Svc (Except ApiError α) :=
  ExceptT.mk do
    match ← body.run with
    | .ok value => pure (.ok (.ok value))
    | .error (.error e) => pure (.ok (.error e))
    | .error (.panicked message) =>
        pure (.error (.panicked message))

/-
  Run a block under an operation lock. The guard is dropped
  at the end of the block, however it ends.
-/
def withLock
    {α : Type}
    (key : String)
    (body : Svc α) : Svc α :=
  ExceptT.mk do
    let _ ← Prog.perform (.lock key)
    let result ← body.run
    let _ ← Prog.perform (.unlock key)
    pure result

end Svc

end Model

end IcpHandler
