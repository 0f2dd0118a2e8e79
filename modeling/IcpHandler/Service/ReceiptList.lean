import IcpHandler.Data.Newest
import IcpHandler.Model.Records
import Mathlib.Data.String.Basic

/-
  The receipts that a tenant lists. A receipt has no tenant of
  its own. It is the tenant's whose transaction it is about,
  and the store is asked for more than a page, of all tenants,
  before the others' are left out.

  Main declarations:
    * `ReceiptRow`, `ReceiptBackend`
    * `ReceiptOrders`, `listRecent`
    * `ListReceiptsQuery`, `scanLimit`
    * `listReceipts`
-/

------------------------------------------------------------
-- The Receipt Store
------------------------------------------------------------

namespace IcpHandler

namespace Service

open Model Data

/- A row of the table `receipts`. -/
structure ReceiptRow where
  jti : String
  kid : String
  jws : String
  bodyDigest : String
  claimsJson : String
  createdAt : String

/-
  The receipts of a store. The map and the table have one
  receipt under each `jti`.
-/
inductive ReceiptBackend where
  | memory
      (receipts : List StoredReceipt)
      (nodup : (receipts.map StoredReceipt.jti).Nodup)
  | sqlite
      (rows : List ReceiptRow)
      (nodup : (rows.map ReceiptRow.jti).Nodup)

/-
  The orders that a listing leaves open: that of the map, and
  that of rows which were created at the same time.
-/
structure ReceiptOrders where
  visit : List StoredReceipt → List StoredReceipt
  visit_perm : ∀ receipts, (visit receipts).Perm receipts
  arrange : List ReceiptRow → List ReceiptRow
  arrange_perm : ∀ rows, (arrange rows).Perm rows
  descends :
    ∀ rows, Descending ReceiptRow.createdAt (arrange rows)

section Store

-- `serde_json::from_str` of the claims
variable (parseClaims : String → Option ReceiptClaims)

/- The receipt in a row, if its claims can be read. -/
def ReceiptRow.read (row : ReceiptRow) : Option StoredReceipt :=
  (parseClaims row.claimsJson).map fun claims =>
    { jti := row.jti
      kid := row.kid
      jws := row.jws
      bodyDigest := row.bodyDigest
      claims }

def signedAt (receipt : StoredReceipt) : Int :=
  receipt.claims.iat

/- What `list_recent` finds before it sorts. -/
def gatherRecent
    (orders : ReceiptOrders)
    (backend : ReceiptBackend)
    (limit : Nat) : List StoredReceipt :=
  match backend with
  | .memory receipts _ => orders.visit receipts
  | .sqlite rows _ =>
      -- `ORDER BY created_at DESC LIMIT ?1`
      ((orders.arrange rows).take limit).filterMap
        (ReceiptRow.read parseClaims)

/- `list_recent` -/
def listRecent
    (orders : ReceiptOrders)
    (backend : ReceiptBackend)
    (limit : Nat) : List StoredReceipt :=
  newestOf signedAt limit
    (gatherRecent parseClaims orders backend limit)

end Store

end Service

end IcpHandler

------------------------------------------------------------
-- The Listing
------------------------------------------------------------

namespace IcpHandler

namespace Service

open Model Data

structure ListReceiptsQuery where
  intent : Option String
  limit : Option Nat

def ListReceiptsQuery.pageLimit (q : ListReceiptsQuery) : Nat :=
  min (q.limit.getD 100) 500

/- The receipt passes the intent filter. -/
def ListReceiptsQuery.wants
    (q : ListReceiptsQuery)
    (receipt : StoredReceipt) : Bool :=
  match q.intent with
  | some want => receipt.claims.icp.intent == want
  | none => true

/-
  How many receipts are looked at for a page. A page has 500
  at most, so that the product does not saturate.
-/
def scanLimit (limit : Nat) : Nat := min (limit * 3) 1500

/- The response of `list_receipts`. -/
structure ReceiptPage where
  data : List StoredReceipt
  count : Nat

/- Whether the receipt is about a transaction of the tenant. -/
def ownsReceipt
    (getTransaction : String → Option Transaction)
    (tenantId : String)
    (receipt : StoredReceipt) : Bool :=
  (getTransaction receipt.claims.icp.transactionId).any
    fun t => t.tenantId == tenantId

/- `list_receipts`, once the tenant is known -/
def listReceipts
    (parseClaims : String → Option ReceiptClaims)
    (orders : ReceiptOrders)
    (backend : ReceiptBackend)
    (getTransaction : String → Option Transaction)
    (tenantId : String)
    (q : ListReceiptsQuery) : ReceiptPage :=
  let limit := q.pageLimit
  let raw := listRecent parseClaims orders backend
    (scanLimit limit)
  let rows :=
    ((raw.filter q.wants).filter
      (ownsReceipt getTransaction tenantId)).take limit
  { data := rows, count := rows.length }

end Service

end IcpHandler
