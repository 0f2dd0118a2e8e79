import IcpHandler.Data.Newest
import IcpHandler.Model.DocumentStore
import Mathlib.Data.String.Basic

/-
  The listings that a tenant asks for: its own records, with
  one state or status if it names one, the newest first. In
  memory a listing goes through all records. On SQLite it is a
  page of a query by columns, to which the records that the
  columns may not tell about are added when the page is not
  full.

  Main declarations:
    * `Listed`, `owns`
    * `PagePlan`, `ListOrders`
    * `listForTenantIndexed`, `mergeLegacy`
    * `JsonBackend`, `listForTenant`
-/

------------------------------------------------------------
-- What a Listing Reads
------------------------------------------------------------

namespace IcpHandler

namespace Model

open Data

/-
  Records with a tenant, a time of creation and a state or a
  status of type `F`, which has a column of its own.
-/
class Listed
    (V : Type)
    (F : outParam Type) where
  tenantId : V → String
  createdAt : V → DateTime
  status : V → F
  wireName : F → String
  statusColumn : String

instance : Listed Transaction TransactionState where
  tenantId := Transaction.tenantId
  createdAt := Transaction.createdAt
  status := Transaction.state
  wireName := TransactionState.wireName
  statusColumn := "state"

instance : Listed Subscription SubscriptionStatus where
  tenantId := Subscription.tenantId
  createdAt := Subscription.createdAt
  status := Subscription.status
  wireName := SubscriptionStatus.wireName
  statusColumn := "status"

instance : Listed PeerQuote PeerQuoteStatus where
  tenantId := PeerQuote.tenantId
  createdAt := PeerQuote.createdAt
  status := PeerQuote.status
  wireName := PeerQuoteStatus.wireName
  statusColumn := "status"

/- The record is the tenant's and passes the filter. -/
def owns
    {V F : Type}
    [Listed V F]
    [DecidableEq F]
    (tenantId : String)
    (statusFilter : Option F)
    (value : V) : Bool :=
  decide (Listed.tenantId value = tenantId) &&
    match statusFilter with
    | none => true
    | some status => decide (Listed.status value = status)

/- The text in a column. -/
def DocumentRow.text
    (row : DocumentRow)
    (name : String) : String :=
  match row.columns name with
  | some (.text value) => value
  | _ => ""

/- A plan for `ORDER BY created_at DESC`. -/
structure PagePlan extends Plan where
  descends :
    ∀ rows,
      Descending (fun row => row.text "created_at")
        (arrange rows)

/-
  The orders that a listing leaves open: that of the map in
  memory, and those of the two queries.
-/
structure ListOrders (V : Type) where
  visit : List V → List V
  visit_perm : ∀ values, (visit values).Perm values
  scan : Plan
  page : PagePlan

end Model

end IcpHandler

------------------------------------------------------------
-- Listings
------------------------------------------------------------

namespace IcpHandler

namespace Model

open Data

namespace DocumentStore

section Listings

variable {V F : Type} [Listed V F]
variable (codec : Codec V)

/- `WHERE tenant_id = ?1`, and the state if one is named. -/
def tenantCondition
    (V : Type)
    {F : Type}
    [Listed V F]
    (tenantId : String)
    (statusFilter : Option F)
    (row : DocumentRow) : Bool :=
  row.columns "tenant_id" == some (.text tenantId) &&
    match statusFilter with
    | none => true
    | some status =>
        row.columns (Listed.statusColumn V) ==
          some (.text (Listed.wireName V status))

/-
  `list_for_tenant_indexed`. A limit above `i64::MAX` is
  negative to the database and no limit at all, which is the
  same to a table with fewer rows.
-/
def listForTenantIndexed
    (page : PagePlan)
    (table : DocumentTable)
    (tenantId : String)
    (limit : Nat)
    (statusFilter : Option F) : List V :=
  ((page.arrange
    (table.values.filter
      (tenantCondition V tenantId statusFilter))).take
        limit).filterMap (deserializePayload codec)

/- The values whose id `seen` takes in, one after the other. -/
def unseen
    {I : Type}
    [Document V I] : List String → List V → List V
  | _, [] => []
  | seen, value :: values =>
      if Document.id value ∈ seen then unseen seen values
      else
        value :: unseen (Document.id value :: seen) values

/-
  `merge_legacy_transactions`, `merge_legacy_subscriptions`
  and `merge_legacy_peer_quotes`
-/
def mergeLegacy
    {I : Type}
    [Document V I]
    [DecidableEq F]
    (indexed scanned : List V)
    (tenantId : String)
    (statusFilter : Option F) : List V :=
  indexed ++
    unseen (indexed.map Document.id)
      (scanned.filter (owns tenantId statusFilter))

end Listings

end DocumentStore

/- Where a store has its records. -/
inductive JsonBackend
    (V : Type)
    {P T : Type}
    [Record V P T] where
  | memory (store : KeyedStore V)
  | sqlite (table : DocumentTable)

namespace DocumentStore

/- `list_for_tenant` of each of the three stores. -/
def listForTenant
    {V F I P T : Type}
    [Listed V F]
    [Document V I]
    [Record V P T]
    [DecidableEq F]
    (codec : Codec V)
    (orders : ListOrders V)
    (backend : JsonBackend V)
    (tenantId : String)
    (limit : Nat)
    (statusFilter : Option F) : List V :=
  let all : List V :=
    match backend with
    | .memory store =>
        (orders.visit store.values).filter
          (owns tenantId statusFilter)
    | .sqlite table =>
        let rows := listForTenantIndexed codec orders.page table
          tenantId limit statusFilter
        if rows.length < limit ∧
            hasLegacyMetadataRows table = true then
          mergeLegacy rows (list codec orders.scan table)
            tenantId statusFilter
        else rows
  newestOf Listed.createdAt limit all

/- `TransactionStore::list_for_tenant` -/
def listTransactionsForTenant :
    Codec Transaction → ListOrders Transaction →
      JsonBackend Transaction → String → Nat →
      Option TransactionState → List Transaction :=
  listForTenant

/- `SubscriptionStore::list_for_tenant` -/
def listSubscriptionsForTenant :
    Codec Subscription → ListOrders Subscription →
      JsonBackend Subscription → String → Nat →
      Option SubscriptionStatus → List Subscription :=
  listForTenant

/- `PeerQuoteStore::list_for_tenant` -/
def listPeerQuotesForTenant :
    Codec PeerQuote → ListOrders PeerQuote →
      JsonBackend PeerQuote → String → Nat →
      Option PeerQuoteStatus → List PeerQuote :=
  listForTenant

end DocumentStore

end Model

end IcpHandler
