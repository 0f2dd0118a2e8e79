import IcpHandler.Concurrency.Machine
import IcpHandler.Model.Outbox

/-
  The delivery worker, the operators and the intents around
  one outbox. The worker is a loop over its calls on the
  outbox, and it can die between any two of them; the next
  one starts by taking back what is in flight.

  Main declarations:
    * `WorkerState`, `OutboxWorld`
    * `NewDelivery`
    * `OutboxEff`
    * `execOutbox`, `outboxMachine`
    * `resetForRetry`
-/

------------------------------------------------------------
-- The Worker
------------------------------------------------------------

namespace IcpHandler

namespace Service

open Model

structure TickReport where
  due : Nat := 0
  delivered : Nat := 0
  failed : Nat := 0
  deadLettered : Nat := 0
  deriving DecidableEq

/- How long rows are retained, if not for ever. -/
structure Retention where
  delivered : Option Duration
  deadLettered : Option Duration

/- `prune_now` -/
def pruneNow
    (rfc3339 : Rfc3339)
    (retention : Retention)
    (now : DateTime)
    (outbox : WebhookOutbox) : PruneReport × WebhookOutbox :=
  let delivered := retention.delivered.map (now - ·)
  let deadLettered := retention.deadLettered.map (now - ·)
  if delivered = none ∧ deadLettered = none then ({}, outbox)
  else outbox.prune rfc3339 delivered deadLettered

/- The answer of an attempt: an HTTP status, or an error. -/
abbrev SendResult := Except String UInt16

/- `(200..300).contains(&status)` -/
def isSuccess (status : UInt16) : Bool :=
  200 ≤ status.toNat && status.toNat < 300

/-
  Where the worker is: not running, between two ticks, before
  the next delivery of a tick, with a delivery marked and on
  its way, with the answer to it, or about to count a failure.
-/
inductive WorkerState where
  | stopped
  | idle
  | draining
      (now : DateTime)
      (due : List WebhookDelivery)
      (report : TickReport)
  | sending
      (now : DateTime)
      (delivery : WebhookDelivery)
      (rest : List WebhookDelivery)
      (report : TickReport)
  | answered
      (now : DateTime)
      (delivery : WebhookDelivery)
      (result : SendResult)
      (rest : List WebhookDelivery)
      (report : TickReport)
  | counting
      (now : DateTime)
      (delivery : WebhookDelivery)
      (rest : List WebhookDelivery)
      (report : TickReport)

/-
  The outbox, its worker, and the retries that have read their
  row and not reset it yet. The ids handed out so far never
  come up again.
-/
structure OutboxWorld where
  outbox : WebhookOutbox
  worker : WorkerState := .stopped
  retries : List String := []
  issued : List String := []

/- A delivery as it is enqueued: pending, and not tried yet. -/
structure NewDelivery where
  delivery : WebhookDelivery
  pending : delivery.status = .pending
  untried : delivery.attempts = 0
  hasAttempts : 0 < delivery.maxAttempts

/- What can happen, one call on the outbox at a time. -/
inductive OutboxEff where
  | enqueue (new : NewDelivery)
  /- `tick`: the due list, and each delivery in turn -/
  | startTick (now : DateTime)
  | markInFlight (id : String)
  | attempt (id : String) (result : SendResult)
  | recordResult (id : String) (after : DateTime)
  | countFailure (id : String)
  | finishTick
  /- the retention sweep of `run_loop` -/
  | prune (retention : Retention) (now : DateTime)
  /- the worker dies, and the next one starts -/
  | crash
  | restart (now : DateTime)
  /- `reset_for_retry`: the read with its check, the update -/
  | readForRetry (id : String)
  | resetRow (id : String) (now : DateTime)

/- What each of them answers. -/
abbrev OutboxEff.Res : OutboxEff → Type
  | .startTick _ => Nat
  | .finishTick => TickReport
  | .prune _ _ => PruneReport
  | .restart _ => Nat
  | .readForRetry _ => Except RetryError Unit
  | .resetRow _ _ => Option WebhookDelivery
  | _ => Unit

end Service

end IcpHandler

------------------------------------------------------------
-- The Machine
------------------------------------------------------------

namespace IcpHandler

namespace Service

open Model Concurrency

variable (rfc3339 : Rfc3339)

/- `WebhookOutbox::list_due` is asked for 50 rows. -/
def tickLimit : Nat := 50

/- How a tick records the answer to an attempt. -/
def resultPatch
    (result : SendResult)
    (after : DateTime) : DeliveryPatch :=
  match result with
  | .ok status =>
      if isSuccess status then .delivered status after
      else
        .failure (some status)
          (some ("HTTP " ++ toString status.toNat)) after
  | .error e => .failure none (some e) after

/- The worker after it has recorded the answer. -/
def afterRecord
    (now : DateTime)
    (delivery : WebhookDelivery)
    (result : SendResult)
    (rest : List WebhookDelivery)
    (report : TickReport) : WorkerState :=
  match result with
  | .ok status =>
      if isSuccess status then
        .draining now rest
          { report with delivered := report.delivered + 1 }
      else .counting now delivery rest report
  | .error _ => .counting now delivery rest report

/- A failure is counted by what its row has become. -/
def countRow
    (row : Option WebhookDelivery)
    (report : TickReport) : TickReport :=
  match row with
  | none => report
  | some d =>
      if d.status = .deadLettered then
        { report with deadLettered := report.deadLettered + 1 }
      else { report with failed := report.failed + 1 }

/-
  The meaning of each call. The outside decides what the clock
  says where a time in the table cannot be read.
-/
def execOutbox
    (clock : DateTime)
    (w : OutboxWorld) :
    (effect : OutboxEff) → Option (effect.Res × OutboxWorld)
  | .enqueue new =>
      if new.delivery.id ∈ w.issued then none
      else
        some ((),
          { w with
            outbox := w.outbox.enqueue rfc3339 new.delivery
            issued := new.delivery.id :: w.issued })
  | .startTick now =>
      match w.worker with
      | .idle =>
          let due :=
            w.outbox.listDue rfc3339 clock now tickLimit
          some (due.length,
            { w with
              worker :=
                .draining now due { due := due.length } })
      | _ => none
  | .markInFlight id =>
      match w.worker with
      | .draining now (delivery :: rest) report =>
          if delivery.id = id then
            some ((),
              { w with
                outbox :=
                  w.outbox.update rfc3339 clock id
                    (.inFlight now)
                worker := .sending now delivery rest report })
          else none
      | _ => none
  | .attempt id result =>
      match w.worker with
      | .sending now delivery rest report =>
          if delivery.id = id then
            some ((),
              { w with
                worker :=
                  .answered now delivery result rest report })
          else none
      | _ => none
  | .recordResult id after =>
      match w.worker with
      | .answered now delivery result rest report =>
          if delivery.id = id then
            some ((),
              { w with
                outbox :=
                  w.outbox.update rfc3339 clock id
                    (resultPatch result after)
                worker :=
                  afterRecord now delivery result rest report })
          else none
      | _ => none
  | .countFailure id =>
      match w.worker with
      | .counting now delivery rest report =>
          if delivery.id = id then
            some ((),
              { w with
                worker :=
                  .draining now rest
                    (countRow (w.outbox.get rfc3339 clock id)
                      report) })
          else none
      | _ => none
  | .finishTick =>
      match w.worker with
      | .draining _ [] report =>
          some (report, { w with worker := .idle })
      | _ => none
  | .prune retention now =>
      let result := pruneNow rfc3339 retention now w.outbox
      some (result.1, { w with outbox := result.2 })
  | .crash => some ((), { w with worker := .stopped })
  | .restart now =>
      match w.worker with
      | .stopped =>
          let result := w.outbox.reclaimInFlight rfc3339 now
          some (result.1,
            { w with outbox := result.2, worker := .idle })
      | _ => none
  | .readForRetry id =>
      match WebhookOutbox.retryCheck
          (w.outbox.get rfc3339 clock id) with
      | .error refused => some (.error refused, w)
      | .ok _ =>
          some (.ok (), { w with retries := id :: w.retries })
  | .resetRow id now =>
      if id ∈ w.retries then
        let after :=
          w.outbox.update rfc3339 clock id (.retry now)
        some (after.get rfc3339 clock id,
          { w with
            outbox := after
            retries := w.retries.erase id })
      else none

/- The machine of the outbox. -/
def outboxMachine :
    Machine OutboxEff.Res OutboxWorld DateTime :=
  ⟨fun _ clock w effect => execOutbox rfc3339 clock w effect⟩

end Service

end IcpHandler

------------------------------------------------------------
-- Retries
------------------------------------------------------------

namespace IcpHandler

namespace Service

open Model Concurrency

/-
  `reset_for_retry`, as the request of an operator performs
  it: the read with its check, and the update with the read
  after it.
-/
def resetForRetry
    (id : String)
    (now : DateTime) :
    Prog OutboxEff.Res (Except RetryError WebhookDelivery) := do
  match ← Prog.perform (OutboxEff.readForRetry id) with
  | .error refused => pure (.error refused)
  | .ok _ =>
      match ← Prog.perform (OutboxEff.resetRow id now) with
      | some d => pure (.ok d)
      | none => pure (.error .notFound)

end Service

end IcpHandler
