import Mathlib.Data.List.Sort
import IcpHandler.Data.KeyedStore
import IcpHandler.Model.Chrono
import IcpHandler.Model.Records

/-
  The registry of webhook subscribers, and the secret that the
  delivery worker signs with. A delivery remembers the tenant
  and the URL it was fanned out to, and the worker looks for a
  subscriber that fits.

  Main declarations:
    * `RegisteredSubscriber`, `SubscriberRow`
    * `SubscriberStore`
    * `insert`, `get`, `listForTenant`, `listActiveForTenant`
    * `setActive`, `patch`, `delete`
    * `SigningKeys.secretForDelivery`
-/

------------------------------------------------------------
-- Subscribers and Rows
------------------------------------------------------------

namespace IcpHandler

namespace Model

open Data

/- A destination that a tenant has registered, in full. -/
structure RegisteredSubscriber extends WebhookSubscriber where
  id : String
  active : Bool
  createdAt : DateTime
  updatedAt : DateTime

/- A row of the table `webhook_subscribers`. -/
structure SubscriberRow where
  id : String
  tenantId : String
  url : String
  secret : String
  active : Int
  createdAt : String
  updatedAt : String

namespace SubscriberRow

/- The parameters of the insertion. -/
def ofSubscriber
    (rfc3339 : Rfc3339)
    (sub : RegisteredSubscriber) : SubscriberRow :=
  { id := sub.id
    tenantId := sub.tenantId
    url := sub.url
    secret := sub.secret.getD ""
    active := if sub.active then 1 else 0
    createdAt := rfc3339.print sub.createdAt
    updatedAt := rfc3339.print sub.updatedAt }

/-
  `row_to_subscriber`. An empty secret is none, and a time
  that cannot be read is taken to be the current time.
-/
def toSubscriber
    (rfc3339 : Rfc3339)
    (clock : DateTime)
    (row : SubscriberRow) : RegisteredSubscriber :=
  { id := row.id
    tenantId := row.tenantId
    url := row.url
    secret := if row.secret = "" then none else some row.secret
    active := row.active != 0
    createdAt := (rfc3339.parse row.createdAt).getD clock
    updatedAt := (rfc3339.parse row.updatedAt).getD clock }

end SubscriberRow

/- The changes of a subscriber. -/
inductive SubscriberPatch where
  /- `set_active` -/
  | active (isActive : Bool) (now : DateTime)
  /- `patch`, where what is not given stays as it is -/
  | fields (url secret : Option String) (now : DateTime)

def SubscriberPatch.apply
    (patch : SubscriberPatch)
    (sub : RegisteredSubscriber) : RegisteredSubscriber :=
  match patch with
  | .active isActive now =>
      { sub with active := isActive, updatedAt := now }
  | .fields url secret now =>
      { sub with
        url := url.getD sub.url
        secret := secret.or sub.secret
        updatedAt := now }

instance :
    Record RegisteredSubscriber SubscriberPatch Unit where
  key := RegisteredSubscriber.id
  apply := SubscriberPatch.apply
  isDue _ _ := false
  key_apply patch sub := by
    cases patch <;> rfl

/- The statements that change a row. -/
inductive SubscriberWrite where
  /- `SET active = ?1, updated_at = ?2` -/
  | active (isActive : Int) (updatedAt : String)
  /- `SET url = ?1, secret = ?2, updated_at = ?3` -/
  | fields (url secret updatedAt : String)

def SubscriberWrite.apply
    (write : SubscriberWrite)
    (row : SubscriberRow) : SubscriberRow :=
  match write with
  | .active isActive updatedAt =>
      { row with active := isActive, updatedAt := updatedAt }
  | .fields url secret updatedAt =>
      { row with
        url := url, secret := secret, updatedAt := updatedAt }

instance : Record SubscriberRow SubscriberWrite Unit where
  key := SubscriberRow.id
  apply := SubscriberWrite.apply
  isDue _ _ := false
  key_apply write row := by
    cases write <;> rfl

end Model

end IcpHandler

------------------------------------------------------------
-- The Registry
------------------------------------------------------------

namespace IcpHandler

namespace Model

open Data

inductive SubscriberStore where
  | memory (rows : KeyedStore RegisteredSubscriber)
  | sqlite (rows : KeyedStore SubscriberRow)

/-
  The order in which the map, or the table, happens to list
  its rows. The table sorts them by date afterwards.
-/
structure ListingOrder where
  memory :
    List RegisteredSubscriber → List RegisteredSubscriber
  memory_perm : ∀ rows, (memory rows).Perm rows
  sqlite : List SubscriberRow → List SubscriberRow
  sqlite_perm : ∀ rows, (sqlite rows).Perm rows

namespace SubscriberStore

variable (rfc3339 : Rfc3339)

/- The table refuses a row whose id it has already. -/
def insert
    (fault : Bool)
    (sub : RegisteredSubscriber)
    (store : SubscriberStore) : SubscriberStore :=
  match store with
  | .memory rows => .memory (rows.insert sub)
  | .sqlite rows =>
      if fault || (rows.get sub.id).isSome then .sqlite rows
      else .sqlite (rows.insert (.ofSubscriber rfc3339 sub))

def get
    (fault : Bool)
    (clock : DateTime)
    (id : String)
    (store : SubscriberStore) : Option RegisteredSubscriber :=
  match store with
  | .memory rows => rows.get id
  | .sqlite rows =>
      if fault then none
      else
        (rows.get id).map
          (SubscriberRow.toSubscriber rfc3339 clock)

/- All subscribers of a tenant, the latest first in a table. -/
def listForTenant
    (order : ListingOrder)
    (fault : Bool)
    (clock : DateTime)
    (tenantId : String)
    (store : SubscriberStore) : List RegisteredSubscriber :=
  match store with
  | .memory rows =>
      (order.memory rows.values).filter (·.tenantId == tenantId)
  | .sqlite rows =>
      if fault then []
      else
        ((order.sqlite
            (rows.values.filter (·.tenantId == tenantId))).insertionSort
          fun row row' => row'.createdAt ≤ row.createdAt).map
          (SubscriberRow.toSubscriber rfc3339 clock)

/- What the fan-out uses. -/
def listActiveForTenant
    (order : ListingOrder)
    (fault : Bool)
    (clock : DateTime)
    (tenantId : String)
    (store : SubscriberStore) : List RegisteredSubscriber :=
  (store.listForTenant rfc3339 order fault clock
    tenantId).filter (·.active)

def setActive
    (fault : Bool)
    (clock : DateTime)
    (id : String)
    (active : Bool)
    (now : DateTime)
    (store : SubscriberStore) :
    Option RegisteredSubscriber × SubscriberStore :=
  let after :=
    match store with
    | .memory rows =>
        .memory (rows.update id (.active active now))
    | .sqlite rows =>
        if fault then .sqlite rows
        else
          .sqlite
            (rows.update id
              (.active (if active then 1 else 0)
                (rfc3339.print now)))
  (after.get rfc3339 fault clock id, after)

/-
  Change the URL or the secret in place. The table reads the
  row, changes it and writes the columns.
-/
def patch
    (fault : Bool)
    (clock : DateTime)
    (id : String)
    (url secret : Option String)
    (now : DateTime)
    (store : SubscriberStore) :
    Option RegisteredSubscriber × SubscriberStore :=
  match store with
  | .memory rows =>
      let after := rows.update id (.fields url secret now)
      (after.get id, .memory after)
  | .sqlite rows =>
      match store.get rfc3339 fault clock id with
      | none => (none, .sqlite rows)
      | some found =>
          let current :=
            (SubscriberPatch.fields url secret now).apply found
          (some current,
            .sqlite
              (rows.update id
                (.fields current.url (current.secret.getD "")
                  (rfc3339.print current.updatedAt))))

def delete
    (fault : Bool)
    (id : String)
    (store : SubscriberStore) : Bool × SubscriberStore :=
  match store with
  | .memory rows =>
      ((rows.get id).isSome,
        .memory (rows.retain fun sub => sub.id != id))
  | .sqlite rows =>
      if fault then (false, .sqlite rows)
      else
        ((rows.get id).isSome,
          .sqlite (rows.retain fun row => row.id != id))

end SubscriberStore

end Model

end IcpHandler

------------------------------------------------------------
-- The Secret of a Delivery
------------------------------------------------------------

namespace IcpHandler

namespace Model

/- What the worker was given to sign with. -/
structure SigningKeys where
  globalSecret : Option String
  subscribers : Option SubscriberStore

namespace SigningKeys

variable (rfc3339 : Rfc3339)
variable (order : ListingOrder)
variable (fault : Bool)
variable (clock : DateTime)

/-
  The secret of the first active subscriber of the tenant that
  is registered for the URL of the delivery.
-/
def subscriberSecret
    (keys : SigningKeys)
    (delivery : WebhookDelivery) : Option String :=
  if delivery.tenantId = "" then none
  else
    match keys.subscribers with
    | none => none
    | some store =>
        ((store.listActiveForTenant rfc3339 order fault clock
            delivery.tenantId).find?
          (·.url == delivery.url)).bind (·.secret)

/- `secret_for_delivery`: that one, or else the global one. -/
def secretForDelivery
    (keys : SigningKeys)
    (delivery : WebhookDelivery) : Option String :=
  match
    keys.subscriberSecret rfc3339 order fault clock delivery
  with
  | some secret => some secret
  | none => keys.globalSecret

end SigningKeys

end Model

end IcpHandler
