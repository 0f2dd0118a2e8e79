import IcpHandler.Data.Selection
import IcpHandler.Model.Patches
import IcpHandler.Model.Text

/-
  The document stores on SQLite. Each row has its record as
  JSON and, in columns of their own, the fields that queries
  look for. A query tests the columns; where some row has no
  tenant in its column, the rows are older than the columns,
  and the query reads every record instead.

  Main declarations:
    * `SqlValue`, `DocumentRow`, `DocumentTable`
    * `Document`, `Codec`
    * `insert`, `update`, `list`
    * `hasLegacyMetadataRows`
    * `listDueForExpiry`, `listDueForRenewal`, `statusCounts`
    * `migrateTenantId`, `migrateQueryColumns`
-/

------------------------------------------------------------
-- Rows
------------------------------------------------------------

namespace IcpHandler

namespace Model

open Data

/- A value in a column. -/
inductive SqlValue where
  | text (value : String)
  | integer (value : Int)
  deriving DecidableEq

/- The columns of type INTEGER; the others have type TEXT. -/
def isIntegerColumn (name : String) : Bool :=
  name == "payment_present"

/- The number that a text of digits spells. -/
def digitsValue : List Char → Option Nat
  | [] => none
  | digits => Text.parseDigits digits 0

/- The integer that a text spells. -/
def integerValue (value : String) : Option Int :=
  match value.toList with
  | '-' :: digits =>
      (digitsValue digits).map fun number => -(number : Int)
  | digits => (digitsValue digits).map Int.ofNat

/-
  What a column makes of a text that is bound to it. A text
  that spells an integer becomes one in an INTEGER column.
-/
def SqlValue.bound (name value : String) : SqlValue :=
  if isIntegerColumn name then
    match integerValue value with
    | some number => .integer number
    | none => .text value
  else .text value

/- The default of an index column, in all of its tables. -/
def SqlValue.default (name : String) : SqlValue :=
  if isIntegerColumn name then .integer 0 else .text ""

/- Index columns by name, as texts to be bound. -/
abbrev IndexColumns := List (String × String)

/- A row, with its value in each column the table has. -/
structure DocumentRow where
  id : String
  payloadJson : String
  columns : String → Option SqlValue

/- `SET payload_json = …` and every index column. -/
structure RowWrite where
  payloadJson : String
  index : IndexColumns

def RowWrite.apply
    (write : RowWrite)
    (row : DocumentRow) : DocumentRow :=
  { row with
    payloadJson := write.payloadJson
    columns := fun name =>
      match write.index.lookup name with
      | some value => some (.bound name value)
      | none => row.columns name }

/- A condition on rows selects what is due. -/
instance :
    Record DocumentRow RowWrite (DocumentRow → Bool) where
  key := DocumentRow.id
  apply := RowWrite.apply
  isDue condition row := condition row
  key_apply _ _ := rfl

abbrev DocumentTable := KeyedStore DocumentRow

end Model

end IcpHandler

------------------------------------------------------------
-- Documents
------------------------------------------------------------

namespace IcpHandler

namespace Model

/- The texts of a record: `to_string` and `from_str`. -/
structure Codec (V : Type) where
  encode : V → Except String String
  decode : String → Except String V

/-
  Records that a store keeps, with the fields of type `I` that
  the index columns are made of.
-/
class Document
    (V : Type)
    (I : outParam Type) where
  id : V → String
  indexed : V → I
  columns : Rfc3339 → I → IndexColumns
  times : I → List DateTime

/- `index_columns` -/
def indexColumns
    {V I : Type}
    [Document V I]
    (rfc3339 : Rfc3339)
    (value : V) : IndexColumns :=
  Document.columns V rfc3339 (Document.indexed value)

structure TransactionIndex where
  updatedAt : DateTime
  tenantId : String
  createdAt : DateTime
  state : TransactionState
  quoteExpiresAt : Option DateTime
  deriving DecidableEq

/- `TransactionStore::index_columns` -/
def TransactionIndex.columns
    (rfc3339 : Rfc3339)
    (txn : TransactionIndex) : IndexColumns :=
  [("updated_at", rfc3339.print txn.updatedAt),
    ("tenant_id", txn.tenantId),
    ("created_at", rfc3339.print txn.createdAt),
    ("state", txn.state.wireName),
    ("quote_expires_at",
      (txn.quoteExpiresAt.map rfc3339.print).getD "")]

instance : Document Transaction TransactionIndex where
  id := Transaction.id
  indexed txn :=
    ⟨txn.updatedAt, txn.tenantId, txn.createdAt, txn.state,
      txn.quoteExpiresAt⟩
  columns := TransactionIndex.columns
  times txn :=
    txn.updatedAt :: txn.createdAt :: txn.quoteExpiresAt.toList

structure SubscriptionIndex where
  updatedAt : DateTime
  tenantId : String
  createdAt : DateTime
  status : SubscriptionStatus
  nextChargeAt : DateTime
  paymentPresent : Bool
  deriving DecidableEq

/- `SubscriptionStore::index_columns` -/
def SubscriptionIndex.columns
    (rfc3339 : Rfc3339)
    (sub : SubscriptionIndex) : IndexColumns :=
  [("updated_at", rfc3339.print sub.updatedAt),
    ("tenant_id", sub.tenantId),
    ("created_at", rfc3339.print sub.createdAt),
    ("status", sub.status.wireName),
    ("next_charge_at", rfc3339.print sub.nextChargeAt),
    ("payment_present",
      if sub.paymentPresent then "1" else "0")]

instance : Document Subscription SubscriptionIndex where
  id := Subscription.id
  indexed sub :=
    ⟨sub.updatedAt, sub.tenantId, sub.createdAt, sub.status,
      sub.nextChargeAt, sub.paymentInstrument.isSome⟩
  columns := SubscriptionIndex.columns
  times sub := [sub.updatedAt, sub.createdAt, sub.nextChargeAt]

structure PeerQuoteIndex where
  updatedAt : DateTime
  tenantId : String
  createdAt : DateTime
  status : PeerQuoteStatus
  expiresAt : DateTime
  deriving DecidableEq

/- `PeerQuoteStore::index_columns` -/
def PeerQuoteIndex.columns
    (rfc3339 : Rfc3339)
    (quote : PeerQuoteIndex) : IndexColumns :=
  [("updated_at", rfc3339.print quote.updatedAt),
    ("tenant_id", quote.tenantId),
    ("created_at", rfc3339.print quote.createdAt),
    ("status", quote.status.wireName),
    ("expires_at", rfc3339.print quote.expiresAt)]

instance : Document PeerQuote PeerQuoteIndex where
  id := PeerQuote.id
  indexed quote :=
    ⟨quote.updatedAt, quote.tenantId, quote.createdAt,
      quote.status, quote.expiresAt⟩
  columns := PeerQuoteIndex.columns
  times quote :=
    [quote.updatedAt, quote.createdAt, quote.expiresAt]

end Model

end IcpHandler

------------------------------------------------------------
-- The Generic Store
------------------------------------------------------------

namespace IcpHandler

namespace Model

open Data

namespace DocumentStore

variable {V I : Type} [Document V I]
variable (rfc3339 : Rfc3339)
variable (codec : Codec V)

/- The row that has these columns only. -/
def bareRow (id : String) : DocumentRow :=
  ⟨id, "", fun name => some (.default name)⟩

/-
  `INSERT … ON CONFLICT(id) DO UPDATE SET …`. A fault is any
  error of the database; the store logs it and nothing is
  written.
-/
def insert
    (fault : Bool)
    (table : DocumentTable)
    (value : V) : DocumentTable :=
  match codec.encode value with
  | .error _ => table
  | .ok json =>
      if fault then table
      else
        let id := Document.id value
        let row := (table.get id).getD (bareRow id)
        let write : RowWrite :=
          ⟨json, indexColumns rfc3339 value⟩
        table.insert (write.apply row)

/- `deserialize_payload` -/
def deserializePayload (row : DocumentRow) : Option V :=
  (codec.decode row.payloadJson).toOption

/- Read, change and write one row, in a transaction. -/
def update
    (fault : Bool)
    (table : DocumentTable)
    (id : String)
    (f : V → V) : DocumentTable :=
  match table.get id with
  | none => table
  | some row =>
      match deserializePayload codec row with
      | none => table
      | some value =>
          match codec.encode (f value) with
          | .error _ => table
          | .ok json =>
              if fault then table
              else
                table.update id
                  ⟨json, indexColumns rfc3339 (f value)⟩

end DocumentStore

/-
  The order in which the database returns the rows of a query,
  which its text leaves open.
-/
structure Plan where
  arrange : List DocumentRow → List DocumentRow
  perm : ∀ rows, (arrange rows).Perm rows

namespace DocumentStore

variable {V : Type}
variable (codec : Codec V)
variable (plan : Plan)

/- `SELECT … WHERE condition` -/
def select
    (condition : DocumentRow → Bool)
    (table : DocumentTable) : List V :=
  (plan.arrange (table.values.filter condition)).filterMap
    (deserializePayload codec)

/- `list(usize::MAX)`, whose limit is -1 to the database. -/
def list (table : DocumentTable) : List V :=
  (plan.arrange table.values).filterMap (deserializePayload codec)

/- `WHERE tenant_id = ''` has a row. -/
def hasLegacyMetadataRows (table : DocumentTable) : Bool :=
  table.values.any fun row =>
    row.columns "tenant_id" == some (.text "")

end DocumentStore

end Model

end IcpHandler

------------------------------------------------------------
-- Queries
------------------------------------------------------------

namespace IcpHandler

namespace Model

open Data

/- `name IN (…)` -/
def DocumentRow.isOneOf
    (row : DocumentRow)
    (name : String)
    (values : List String) : Bool :=
  values.any fun value => row.columns name == some (.text value)

/- `name != '' AND name <= limit` -/
def DocumentRow.isReached
    (row : DocumentRow)
    (name limit : String) : Bool :=
  match row.columns name with
  | some (.text value) => value != "" && decide (value ≤ limit)
  | _ => false

namespace DocumentStore

variable (rfc3339 : Rfc3339)

/-
  Query by the columns, or go through all records where some
  row is too old for its columns. The two ways take their own
  plans.
-/
def listDue
    {V P : Type}
    [Record V P DateTime]
    (condition : DateTime → DocumentRow → Bool)
    (codec : Codec V)
    (scan plan : Plan)
    (table : DocumentTable)
    (now : DateTime) : List V :=
  if hasLegacyMetadataRows table then
    (list codec scan table).filter (Record.isDue now)
  else select codec plan (condition now) table

/- The condition of the transaction expiry list. -/
def transactionExpired
    (now : DateTime)
    (row : DocumentRow) : Bool :=
  row.isOneOf "state" ["draft", "quoted"] &&
    row.isReached "quote_expires_at" (rfc3339.print now)

/- `TransactionStore::list_due_for_expiry` -/
def listTransactionsDue :
    Codec Transaction → Plan → Plan → DocumentTable →
      DateTime → List Transaction :=
  listDue (transactionExpired rfc3339)

/- The condition of the subscription renewal list. -/
def renewalReached
    (now : DateTime)
    (row : DocumentRow) : Bool :=
  row.isOneOf "status" ["active", "trialing"] &&
    row.columns "payment_present" == some (.integer 1) &&
    row.isReached "next_charge_at" (rfc3339.print now)

/- `SubscriptionStore::list_due_for_renewal` -/
def listDueForRenewal :
    Codec Subscription → Plan → Plan → DocumentTable →
      DateTime → List Subscription :=
  listDue (renewalReached rfc3339)

/- The condition of the peer quote expiry list. -/
def quoteExpired
    (now : DateTime)
    (row : DocumentRow) : Bool :=
  row.isOneOf "status" ["pending", "quoted"] &&
    row.isReached "expires_at" (rfc3339.print now)

/- `PeerQuoteStore::list_due_for_expiry` -/
def listQuotesDue :
    Codec PeerQuote → Plan → Plan → DocumentTable →
      DateTime → List PeerQuote :=
  listDue (quoteExpired rfc3339)

end DocumentStore

structure SubscriptionStatusCounts where
  trialing : Nat := 0
  active : Nat := 0
  paused : Nat := 0
  canceled : Nat := 0
  pastDue : Nat := 0
  deriving DecidableEq

namespace SubscriptionStatusCounts

/- Count one more record. -/
def countRecord
    (counts : SubscriptionStatusCounts)
    (sub : Subscription) : SubscriptionStatusCounts :=
  match sub.status with
  | .trialing => { counts with trialing := counts.trialing + 1 }
  | .active => { counts with active := counts.active + 1 }
  | .paused => { counts with paused := counts.paused + 1 }
  | .canceled => { counts with canceled := counts.canceled + 1 }
  | .pastDue => { counts with pastDue := counts.pastDue + 1 }

/- Take over the count of one group. -/
def setGroup
    (counts : SubscriptionStatusCounts)
    (group : String × Nat) : SubscriptionStatusCounts :=
  if group.1 = "trialing" then
    { counts with trialing := group.2 }
  else if group.1 = "active" then
    { counts with active := group.2 }
  else if group.1 = "paused" then
    { counts with paused := group.2 }
  else if group.1 = "canceled" then
    { counts with canceled := group.2 }
  else if group.1 = "past_due" then
    { counts with pastDue := group.2 }
  else counts

end SubscriptionStatusCounts

namespace DocumentStore

/- The text in the status column, if it is not empty. -/
def statusText (row : DocumentRow) : Option String :=
  match row.columns "status" with
  | some (.text value) => if value = "" then none else some value
  | _ => none

/- `SELECT status, COUNT(*) … GROUP BY status` -/
def statusCountsIndexed
    (table : DocumentTable) : SubscriptionStatusCounts :=
  (groups (table.values.filterMap statusText)).foldl
    SubscriptionStatusCounts.setGroup {}

/- Count all records. -/
def statusCountsScanned
    (codec : Codec Subscription)
    (scan : Plan)
    (table : DocumentTable) : SubscriptionStatusCounts :=
  (list codec scan table).foldl
    SubscriptionStatusCounts.countRecord {}

/- `SubscriptionStore::status_counts` -/
def statusCounts
    (codec : Codec Subscription)
    (scan : Plan)
    (table : DocumentTable) : SubscriptionStatusCounts :=
  if hasLegacyMetadataRows table then
    statusCountsScanned codec scan table
  else statusCountsIndexed table

end DocumentStore

end Model

end IcpHandler

------------------------------------------------------------
-- Migrations
------------------------------------------------------------

namespace IcpHandler

namespace Model

open Data

/-
  `ALTER TABLE … ADD COLUMN`, tolerating the columns that are
  there already.
-/
def DocumentRow.addColumns
    (names : List String)
    (row : DocumentRow) : DocumentRow :=
  { row with
    columns := fun name =>
      match row.columns name with
      | some value => some value
      | none =>
          if name ∈ names then some (.default name) else none }

/- The columns that migration v3 adds to each table. -/
def transactionQueryColumns : List String :=
  ["created_at", "state", "quote_expires_at"]

def subscriptionQueryColumns : List String :=
  ["created_at", "status", "next_charge_at", "payment_present"]

def peerQuoteQueryColumns : List String :=
  ["created_at", "status", "expires_at"]

/- `migration_v2_tenant_id_columns`, on a row. -/
def DocumentRow.migrateTenantId
    (row : DocumentRow) : DocumentRow :=
  row.addColumns ["tenant_id"]

/- `migration_v3_query_columns_and_indexes`, on a row. -/
def DocumentRow.migrateQueryColumns
    (names : List String)
    (row : DocumentRow) : DocumentRow :=
  row.addColumns names

end Model

end IcpHandler
