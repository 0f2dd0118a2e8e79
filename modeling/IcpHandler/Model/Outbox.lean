import Mathlib.Data.List.Sort
import IcpHandler.Model.Patches

/-
  The webhook outbox. Each delivery is a row that goes through
  its attempts until it is delivered or given up; the rows are
  kept in memory or in a table, where times and statuses are
  texts.

  Main declarations:
    * `DeliveryPatch`
    * `DeliveryRow`
    * `WebhookOutbox`
    * `enqueue`, `listDue`, `update`, `reclaimInFlight`
    * `retryCheck`, `prune`
-/

------------------------------------------------------------
-- Statuses and Patches
------------------------------------------------------------

namespace IcpHandler

namespace Model

open Data

namespace DeliveryStatus

def wireName : DeliveryStatus → String
  | .pending => "pending"
  | .inFlight => "in_flight"
  | .delivered => "delivered"
  | .failed => "failed"
  | .deadLettered => "dead_lettered"

def parse (name : String) : DeliveryStatus :=
  if name = "pending" then .pending
  else if name = "in_flight" then .inFlight
  else if name = "delivered" then .delivered
  else if name = "failed" then .failed
  else if name = "dead_lettered" then .deadLettered
  else .pending

end DeliveryStatus

/- `backoff_for` -/
def backoffFor (attempts : UInt32) : Duration :=
  Duration.seconds
    (min (attempts.toNat * attempts.toNat : Nat) (3600 : Nat))

/- The changes of a delivery. -/
inductive DeliveryPatch where
  /- `mark_in_flight` -/
  | inFlight (now : DateTime)
  /- `reclaim_in_flight` -/
  | reclaim (now : DateTime)
  /- `mark_delivered` -/
  | delivered (statusCode : UInt16) (now : DateTime)
  /- `reset_for_retry` -/
  | retry (now : DateTime)
  /- `bump_failure` -/
  | failure
      (statusCode : Option UInt16)
      (error : Option String)
      (now : DateTime)

namespace DeliveryPatch

def apply
    (patch : DeliveryPatch)
    (d : WebhookDelivery) : WebhookDelivery :=
  match patch with
  | .inFlight now =>
      { d with status := .inFlight, updatedAt := now }
  | .reclaim now =>
      { d with
        status := .pending
        nextAttemptAt := now
        updatedAt := now }
  | .delivered statusCode now =>
      { d with
        status := .delivered
        lastStatusCode := some statusCode
        lastError := none
        deliveredAt := some now
        updatedAt := now
        attempts := Saturating.satAdd32 d.attempts 1 }
  | .retry now =>
      { d with
        status := .pending
        attempts := 0
        lastStatusCode := none
        lastError := none
        deliveredAt := none
        nextAttemptAt := now
        updatedAt := now }
  | .failure statusCode error now =>
      let attempts := Saturating.satAdd32 d.attempts 1
      if d.maxAttempts ≤ attempts then
        { d with
          attempts := attempts
          lastStatusCode := statusCode
          lastError := error
          updatedAt := now
          status := .deadLettered }
      else
        { d with
          attempts := attempts
          lastStatusCode := statusCode
          lastError := error
          updatedAt := now
          status := .failed
          nextAttemptAt := now + backoffFor attempts }

theorem apply_id
    (patch : DeliveryPatch)
    (d : WebhookDelivery) :
    (patch.apply d).id = d.id := by
  cases patch <;> simp only [apply]
  split <;> rfl

end DeliveryPatch

/- `list_due` selects these rows. -/
instance :
    Record WebhookDelivery DeliveryPatch DateTime where
  key := WebhookDelivery.id
  apply := DeliveryPatch.apply
  isDue now d :=
    (d.status == .pending || d.status == .failed) &&
      d.nextAttemptAt ≤ now
  key_apply := DeliveryPatch.apply_id

end Model

end IcpHandler

------------------------------------------------------------
-- Rows of the Table
------------------------------------------------------------

namespace IcpHandler

namespace Model

open Data

structure DeliveryRow where
  id : String
  eventId : String
  eventType : String
  url : String
  payloadJson : String
  status : String
  attempts : Int
  maxAttempts : Int
  nextAttemptAt : String
  lastStatusCode : Option Int
  lastError : Option String
  createdAt : String
  updatedAt : String
  deliveredAt : Option String
  tenantId : String

/- The columns an update writes. -/
structure DeliveryColumns where
  status : String
  attempts : Int
  nextAttemptAt : String
  lastStatusCode : Option Int
  lastError : Option String
  updatedAt : String
  deliveredAt : Option String

namespace DeliveryRow

/- The parameters of the insertion. -/
def ofDelivery
    (rfc3339 : Rfc3339)
    (d : WebhookDelivery) : DeliveryRow :=
  { id := d.id
    eventId := d.eventId
    eventType := d.eventType
    url := d.url
    payloadJson := d.payloadJson
    status := d.status.wireName
    attempts := d.attempts.toNat
    maxAttempts := d.maxAttempts.toNat
    nextAttemptAt := rfc3339.print d.nextAttemptAt
    lastStatusCode := d.lastStatusCode.map fun c => c.toNat
    lastError := d.lastError
    createdAt := rfc3339.print d.createdAt
    updatedAt := rfc3339.print d.updatedAt
    deliveredAt := d.deliveredAt.map rfc3339.print
    tenantId := d.tenantId }

/- `max(0) as u32` -/
def toU32 (value : Int) : UInt32 :=
  UInt32.ofNat value.toNat

/- `u16::try_from(c).ok()` -/
def toU16? (value : Int) : Option UInt16 :=
  if 0 ≤ value ∧ value < 65536 then
    some (UInt16.ofNat value.toNat)
  else none

/-
  `WebhookDelivery::from_row`. A time that cannot be read is
  taken to be the current time.
-/
def toDelivery
    (rfc3339 : Rfc3339)
    (clock : DateTime)
    (row : DeliveryRow) : WebhookDelivery :=
  let parseTime (text : String) : DateTime :=
    (rfc3339.parse text).getD clock
  { id := row.id
    eventId := row.eventId
    eventType := row.eventType
    url := row.url
    payloadJson := row.payloadJson
    status := .parse row.status
    attempts := toU32 row.attempts
    maxAttempts := toU32 row.maxAttempts
    nextAttemptAt := parseTime row.nextAttemptAt
    lastStatusCode := row.lastStatusCode.bind toU16?
    lastError := row.lastError
    createdAt := parseTime row.createdAt
    updatedAt := parseTime row.updatedAt
    deliveredAt := row.deliveredAt.map parseTime
    tenantId := row.tenantId }

def columnsOf
    (rfc3339 : Rfc3339)
    (d : WebhookDelivery) : DeliveryColumns :=
  { status := d.status.wireName
    attempts := d.attempts.toNat
    nextAttemptAt := rfc3339.print d.nextAttemptAt
    lastStatusCode := d.lastStatusCode.map fun c => c.toNat
    lastError := d.lastError
    updatedAt := rfc3339.print d.updatedAt
    deliveredAt := d.deliveredAt.map rfc3339.print }

end DeliveryRow

/- The statements that change rows. -/
inductive DeliveryWrite where
  /- `UPDATE … WHERE id = ?8` -/
  | columns (columns : DeliveryColumns)
  /- `UPDATE … WHERE status = 'in_flight'` -/
  | reclaim (now : String)

def DeliveryWrite.apply
    (write : DeliveryWrite)
    (row : DeliveryRow) : DeliveryRow :=
  match write with
  | .columns c =>
      { row with
        status := c.status
        attempts := c.attempts
        nextAttemptAt := c.nextAttemptAt
        lastStatusCode := c.lastStatusCode
        lastError := c.lastError
        updatedAt := c.updatedAt
        deliveredAt := c.deliveredAt }
  | .reclaim now =>
      { row with
        status := "pending"
        nextAttemptAt := now
        updatedAt := now }

/- The condition of the due list, on texts. -/
instance : Record DeliveryRow DeliveryWrite String where
  key := DeliveryRow.id
  apply := DeliveryWrite.apply
  isDue now row :=
    (row.status == "pending" || row.status == "failed") &&
      decide (row.nextAttemptAt ≤ now)
  key_apply write row := by
    cases write <;> rfl

end Model

end IcpHandler

------------------------------------------------------------
-- The Outbox
------------------------------------------------------------

namespace IcpHandler

namespace Model

open Data

inductive WebhookOutbox where
  | memory (rows : KeyedStore WebhookDelivery)
  | sqlite (rows : KeyedStore DeliveryRow)

/- Why a retry is refused. -/
inductive RetryError where
  | notFound
  | alreadyPending
  | inFlight
  | alreadyDelivered
  deriving DecidableEq

structure PruneReport where
  deliveredPruned : Nat := 0
  deadLetteredPruned : Nat := 0
  deriving DecidableEq

namespace WebhookOutbox

variable (rfc3339 : Rfc3339)

/- The table leaves a row alone that has the id already. -/
def enqueue
    (outbox : WebhookOutbox)
    (d : WebhookDelivery) : WebhookOutbox :=
  match outbox with
  | .memory rows => .memory (rows.insert d)
  | .sqlite rows =>
      match rows.get d.id with
      | some _ => .sqlite rows
      | none => .sqlite (rows.insert (.ofDelivery rfc3339 d))

def get
    (clock : DateTime)
    (outbox : WebhookOutbox)
    (id : String) : Option WebhookDelivery :=
  match outbox with
  | .memory rows => rows.get id
  | .sqlite rows =>
      (rows.get id).map (DeliveryRow.toDelivery rfc3339 clock)

/- The due rows, those that wait longest first. -/
def listDue
    (clock : DateTime)
    (outbox : WebhookOutbox)
    (now : DateTime)
    (limit : Nat) : List WebhookDelivery :=
  match outbox with
  | .memory rows =>
      ((rows.values.filter (Record.isDue now)).insertionSort
        fun d d' => d.nextAttemptAt ≤ d'.nextAttemptAt).take
          limit
  | .sqlite rows =>
      let due :=
        rows.values.filter (Record.isDue (rfc3339.print now))
      ((due.insertionSort fun row row' =>
          row.nextAttemptAt ≤ row'.nextAttemptAt).take
            limit).map
        (DeliveryRow.toDelivery rfc3339 clock)

/- `update`, which reads, changes and writes one row. -/
def update
    (clock : DateTime)
    (outbox : WebhookOutbox)
    (id : String)
    (patch : DeliveryPatch) : WebhookOutbox :=
  match outbox with
  | .memory rows => .memory (rows.update id patch)
  | .sqlite rows =>
      match rows.get id with
      | none => .sqlite rows
      | some row =>
          let d := row.toDelivery rfc3339 clock
          .sqlite
            (rows.update id
              (.columns
                (DeliveryRow.columnsOf rfc3339 (patch.apply d))))

/- `reclaim_in_flight`, with the number of rows. -/
def reclaimInFlight
    (outbox : WebhookOutbox)
    (now : DateTime) : Nat × WebhookOutbox :=
  match outbox with
  | .memory rows =>
      let stuck (d : WebhookDelivery) : Bool :=
        d.status == .inFlight
      ((rows.values.filter stuck).length,
        .memory (rows.patchWhere stuck (.reclaim now)))
  | .sqlite rows =>
      let stuck (row : DeliveryRow) : Bool :=
        row.status == "in_flight"
      ((rows.values.filter stuck).length,
        .sqlite
          (rows.patchWhere stuck
            (.reclaim (rfc3339.print now))))

/- The check that a retry makes on the row it has read. -/
def retryCheck :
    Option WebhookDelivery → Except RetryError Unit
  | none => .error .notFound
  | some d =>
      match d.status with
      | .pending => .error .alreadyPending
      | .inFlight => .error .inFlight
      | .delivered => .error .alreadyDelivered
      | .failed | .deadLettered => .ok ()

/- `reset_for_retry`: read, check, reset, and read again. -/
def resetForRetry
    (clock : DateTime)
    (outbox : WebhookOutbox)
    (id : String)
    (now : DateTime) :
    Except RetryError WebhookDelivery × WebhookOutbox :=
  match retryCheck (outbox.get rfc3339 clock id) with
  | .error refused => (.error refused, outbox)
  | .ok _ =>
      let after := outbox.update rfc3339 clock id (.retry now)
      match after.get rfc3339 clock id with
      | some d => (.ok d, after)
      | none => (.error .notFound, after)

/- A row with this status, made before the cutoff if any. -/
def droppedRow
    (rfc3339 : Rfc3339)
    (status : DeliveryStatus)
    (cutoff : Option DateTime)
    (row : DeliveryRow) : Bool :=
  row.status == status.wireName &&
    cutoff.any fun limit =>
      decide (row.createdAt < rfc3339.print limit)

def droppedDelivery
    (status : DeliveryStatus)
    (cutoff : Option DateTime)
    (d : WebhookDelivery) : Bool :=
  d.status == status &&
    cutoff.any fun limit => decide (d.createdAt < limit)

def prune
    (outbox : WebhookOutbox)
    (deliveredCutoff deadLetteredCutoff : Option DateTime) :
    PruneReport × WebhookOutbox :=
  match outbox with
  | .memory rows =>
      let delivered := droppedDelivery .delivered deliveredCutoff
      let dead := droppedDelivery .deadLettered deadLetteredCutoff
      (⟨(rows.values.filter delivered).length,
          (rows.values.filter dead).length⟩,
        .memory (rows.retain fun d => !(delivered d || dead d)))
  | .sqlite rows =>
      let delivered :=
        droppedRow rfc3339 .delivered deliveredCutoff
      let dead :=
        droppedRow rfc3339 .deadLettered deadLetteredCutoff
      (⟨(rows.values.filter delivered).length,
          (rows.values.filter dead).length⟩,
        .sqlite
          ((rows.retain fun row => !delivered row).retain
            fun row => !dead row))

end WebhookOutbox

end Model

end IcpHandler
