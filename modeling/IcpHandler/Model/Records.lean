import Mathlib.Data.List.AList
import IcpHandler.Model.Chrono
import IcpHandler.Model.Json

/-
  The wire types of the protocol: envelopes, the three stored
  aggregates, and the parameters of every intent.

  Main declarations:
    * `IntentEnvelope`
    * `Transaction`, `TransactionState`
    * `Subscription`, `SubscriptionStatus`
    * `PeerQuote`, `PeerQuoteStatus`
    * `IntentResponseBody`
-/

------------------------------------------------------------
-- Money, Addresses and Buyers
------------------------------------------------------------

namespace IcpHandler

namespace Model

/- An amount in the minor unit of its currency. -/
structure Money where
  amountMinor : Int64
  amountDisplay : Option String
  currency : String
  deriving DecidableEq

/- `Money::new` -/
def Money.new
    (amountMinor : Int64)
    (currency : String) : Money :=
  ⟨amountMinor, none, currency⟩

structure Address where
  name : Option String := none
  lineOne : Option String := none
  lineTwo : Option String := none
  city : Option String := none
  state : Option String := none
  postalCode : Option String := none
  country : Option String := none
  phoneNumber : Option String := none
  email : Option String := none
  deriving DecidableEq, Inhabited

structure Buyer where
  firstName : Option String := none
  lastName : Option String := none
  email : Option String := none
  phoneNumber : Option String := none
  principalDid : Option String := none
  deriving DecidableEq, Inhabited

/- A `BTreeMap<String, String>` of references. -/
abbrev Refs := AList fun _ : String => String

end Model

end IcpHandler

------------------------------------------------------------
-- Envelopes
------------------------------------------------------------

namespace IcpHandler

namespace Model

structure IntentContext where
  locale : Option String := none
  jurisdiction : Option String := none
  currency : Option String := none
  channel : Option String := none
  sessionHint : Option String := none
  deriving Inhabited

structure IntentEnvelope where
  intent : String
  intentId : Option String := none
  transactionId : Option String := none
  agentId : String
  mandateJti : Option String := none
  params : Json := .null
  context : IntentContext := {}

structure ResponseEnvelope where
  icpVersion : String
  requestId : String
  traceId : Option String
  issuedAt : DateTime

end Model

end IcpHandler

------------------------------------------------------------
-- Transactions
------------------------------------------------------------

namespace IcpHandler

namespace Model

inductive TransactionState where
  | draft
  | quoted
  | authorized
  | captured
  | fulfilled
  | completed
  | reversed
  | canceled
  | expired
  deriving DecidableEq, Repr

namespace TransactionState

def isTerminal : TransactionState → Bool
  | .completed | .reversed | .canceled | .expired => true
  | _ => false

def wireName : TransactionState → String
  | .draft => "draft"
  | .quoted => "quoted"
  | .authorized => "authorized"
  | .captured => "captured"
  | .fulfilled => "fulfilled"
  | .completed => "completed"
  | .reversed => "reversed"
  | .canceled => "canceled"
  | .expired => "expired"

/- The `Debug` text, used in error messages. -/
def debug : TransactionState → String
  | .draft => "Draft"
  | .quoted => "Quoted"
  | .authorized => "Authorized"
  | .captured => "Captured"
  | .fulfilled => "Fulfilled"
  | .completed => "Completed"
  | .reversed => "Reversed"
  | .canceled => "Canceled"
  | .expired => "Expired"

end TransactionState

structure LineItem where
  id : String
  sku : String
  name : String
  quantity : Int64
  unitPrice : Money
  subtotal : Money
  tax : Option Money
  total : Money
  deriving DecidableEq

structure Totals where
  subtotal : Option Money := none
  discount : Option Money := none
  shipping : Option Money := none
  tax : Option Money := none
  total : Option Money := none
  deriving DecidableEq, Inhabited

structure Transaction where
  id : String
  state : TransactionState
  agentId : String
  tenantId : String
  mandateJti : Option String
  currency : String
  jurisdiction : Option String
  buyer : Buyer
  shipTo : Option Address
  billTo : Option Address
  lineItems : List LineItem
  totals : Totals
  orderId : Option String
  quoteExpiresAt : Option DateTime
  createdAt : DateTime
  updatedAt : DateTime
  externalRefs : Refs
  deriving DecidableEq

end Model

end IcpHandler

------------------------------------------------------------
-- Intent Parameters
------------------------------------------------------------

namespace IcpHandler

namespace Model

structure RequestItem where
  sku : String
  quantity : Int64
  unitPriceHint : Option Money := none
  deriving DecidableEq

structure QuoteParams where
  items : List RequestItem
  buyer : Option Buyer := none
  shipTo : Option Address := none
  discountCodes : List String := []

structure AuthorizeParams where
  transactionId : String
  buyer : Option Buyer := none
  shipTo : Option Address := none
  billTo : Option Address := none

inductive PaymentInstrument where
  | card
      (token : Option String)
      (lastDigits : Option String)
      (brand : Option String)
  | delegatedVault
      (token : String)
      (provider : Option String)
  | stablecoin
      (asset : String)
      (chain : String)
      (from_ : String)
      (networkMemo : Option String)
  | a2a
      (peerAgentId : String)
      (memo : Option String)
  | externalAuthorization
      (provider : String)
      (authorizationId : String)
      (instrumentHint : Option String)
  deriving DecidableEq

structure BuyParams where
  transactionId : String
  payment : PaymentInstrument

structure NegotiateParams where
  transactionId : String
  proposedTotal : Option Money := none
  discountPct : Option F64 := none
  message : Option String := none

structure ConfirmReceiptParams where
  transactionId : String
  note : Option String := none

inductive BillingCadence where
  | weekly
  | monthly
  | annual
  deriving DecidableEq, Repr

structure SubscribeParams where
  items : List RequestItem
  buyer : Option Buyer := none
  shipTo : Option Address := none
  cadence : BillingCadence
  payment : PaymentInstrument
  trialDays : Option UInt32 := none

structure RenewParams where
  subscriptionId : String
  payment : PaymentInstrument

structure SubscriptionRefParams where
  subscriptionId : String

inductive A2aServiceKind where
  | compute
  | dataFeed
  | imageGeneration
  | adHoc
  deriving DecidableEq, Repr

/- The `snake_case` name serde writes. -/
def A2aServiceKind.wireName : A2aServiceKind → String
  | .compute => "compute"
  | .dataFeed => "data_feed"
  | .imageGeneration => "image_generation"
  | .adHoc => "ad_hoc"

structure A2aServiceSpec where
  kind : A2aServiceKind
  description : String
  params : Json := .null

structure A2aQuoteParams where
  peerAgentId : String
  service : A2aServiceSpec
  priceHint : Option Money := none
  expiresInSeconds : Option UInt64 := none
  referenceId : Option String := none

structure A2aPayParams where
  peerQuoteId : Option String := none
  peerAgentId : Option String := none
  amount : Option Money := none
  from_ : String
  payment : Option PaymentInstrument := none
  memo : Option String := none

end Model

end IcpHandler

------------------------------------------------------------
-- Subscriptions
------------------------------------------------------------

namespace IcpHandler

namespace Model

inductive SubscriptionStatus where
  | trialing
  | active
  | paused
  | canceled
  | pastDue
  deriving DecidableEq, Repr

namespace SubscriptionStatus

def wireName : SubscriptionStatus → String
  | .trialing => "trialing"
  | .active => "active"
  | .paused => "paused"
  | .canceled => "canceled"
  | .pastDue => "past_due"

/- The `Debug` text, used in error messages. -/
def debug : SubscriptionStatus → String
  | .trialing => "Trialing"
  | .active => "Active"
  | .paused => "Paused"
  | .canceled => "Canceled"
  | .pastDue => "PastDue"

def isTerminal : SubscriptionStatus → Bool
  | .canceled => true
  | _ => false

end SubscriptionStatus

structure Subscription where
  id : String
  status : SubscriptionStatus
  agentId : String
  tenantId : String
  mandateJti : Option String
  buyer : Buyer
  shipTo : Option Address
  items : List RequestItem
  currency : String
  cadence : BillingCadence
  currentPeriodStart : DateTime
  currentPeriodEnd : DateTime
  nextChargeAt : DateTime
  chargesCompleted : UInt32
  lastTransactionId : Option String
  paymentInstrument : Option PaymentInstrument
  createdAt : DateTime
  updatedAt : DateTime
  canceledAt : Option DateTime
  pausedAt : Option DateTime
  failedRenewalAttempts : UInt32
  trialEnd : Option DateTime
  deriving DecidableEq

end Model

end IcpHandler

------------------------------------------------------------
-- Peer Quotes
------------------------------------------------------------

namespace IcpHandler

namespace Model

inductive PeerQuoteStatus where
  | pending
  | quoted
  | accepted
  | expired
  | rejected
  deriving DecidableEq, Repr

namespace PeerQuoteStatus

def wireName : PeerQuoteStatus → String
  | .pending => "pending"
  | .quoted => "quoted"
  | .accepted => "accepted"
  | .expired => "expired"
  | .rejected => "rejected"

end PeerQuoteStatus

structure PeerQuote where
  id : String
  status : PeerQuoteStatus
  tenantId : String
  requesterAgentId : String
  peerAgentId : String
  service : A2aServiceSpec
  price : Option Money
  createdAt : DateTime
  updatedAt : DateTime
  expiresAt : DateTime
  acceptedAt : Option DateTime
  chargeTransactionId : Option String
  mandateJti : Option String
  referenceId : Option String

end Model

end IcpHandler

------------------------------------------------------------
-- Responses, Events and Deliveries
------------------------------------------------------------

namespace IcpHandler

namespace Model

structure OrderSummary where
  id : String
  orderNumber : String
  status : String
  permalinkUrl : Option String
  total : Money

structure ReceiptStub where
  jti : String
  kid : String
  jws : String
  bodyDigest : String

structure IntentResponseBody where
  intent : String
  intentId : String
  transaction : Transaction
  order : Option OrderSummary
  subscription : Option Subscription
  peerQuote : Option PeerQuote
  receipt : ReceiptStub
  envelope : ResponseEnvelope

structure ReceiptIcp where
  version : String
  intent : String
  transactionId : String
  orderId : Option String
  mandateJti : Option String
  bodyDigest : String
  bodyCanonicalization : String

structure ReceiptClaims where
  iss : String
  aud : String
  iat : Int
  jti : String
  icp : ReceiptIcp

structure StoredReceipt where
  jti : String
  kid : String
  jws : String
  bodyDigest : String
  claims : ReceiptClaims

/- An event of the in-process bus. -/
structure Event where
  id : String
  type : String
  transactionId : Option String
  orderId : Option String
  agentId : Option String
  occurredAt : DateTime
  payload : Json

inductive DeliveryStatus where
  | pending
  | inFlight
  | delivered
  | failed
  | deadLettered
  deriving DecidableEq, Repr

/- A row of the webhook outbox. -/
structure WebhookDelivery where
  id : String
  eventId : String
  eventType : String
  url : String
  payloadJson : String
  status : DeliveryStatus
  attempts : UInt32
  maxAttempts : UInt32
  nextAttemptAt : DateTime
  lastStatusCode : Option UInt16
  lastError : Option String
  createdAt : DateTime
  updatedAt : DateTime
  deliveredAt : Option DateTime
  tenantId : String

/- An active webhook subscriber of a tenant. -/
structure WebhookSubscriber where
  tenantId : String
  url : String
  secret : Option String

/- An order the commerce engine has persisted. -/
structure PersistedOrder where
  id : String
  orderNumber : String
  total : Money

end Model

end IcpHandler
