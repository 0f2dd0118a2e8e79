import IcpHandler.Data.Broadcast
import IcpHandler.Service.EventStream
import IcpHandler.Service.FrontDoors

/-
  The event streams of both doors, beside the requests and the
  work in the background that fill the bus. A stream belongs
  to the tenant of its key: it looks at every event on the bus
  and passes on those that are the tenant's.

  Main declarations:
    * `StreamRequest`, `StreamRequest.frame`
    * `ServerEff`, `ServerWorld`, `serverMachine`
    * `feed`, `StreamRequest.prog`
    * `ServerOp.prog`, `serverPool`
-/

------------------------------------------------------------
-- Frames
------------------------------------------------------------

namespace IcpHandler

namespace Service

open Model

/- What a stream sends: an SSE event, or an `EventMessage`. -/
inductive StreamFrame where
  | sse (id event data : String)
  | grpc
      (id type transactionId occurredAt payloadJson : String)
  deriving DecidableEq

/- A request for the stream of events, at one of the doors. -/
inductive StreamRequest where
  | sse (headers : HeaderMap)
  | grpc (metadata : HeaderMap)

namespace StreamRequest

/- The bearer token of the request. -/
def bearer : StreamRequest → Option String
  | .sse headers => httpBearer headers
  | .grpc metadata => grpcBearer metadata

/- The frame of an event. -/
def frame
    (deps : Deps) : StreamRequest → Event → StreamFrame
  | .sse _, event =>
      .sse event.id event.type (deps.eventToString event)
  | .grpc _, event =>
      .grpc event.id event.type (event.transactionId.getD "")
        (deps.rfc3339.print event.occurredAt)
        (deps.jsonToString event.payload)

end StreamRequest

end Service

end IcpHandler

------------------------------------------------------------
-- The Server
------------------------------------------------------------

namespace IcpHandler

namespace Service

open Model Concurrency Data.Broadcast

/-
  The effects of whatever runs in the server. Whose an event
  is, a stream finds out from one row of one store.
-/
inductive ServerEff where
  | door (effect : FrontEff)
  | subscribe
  | recv
  | belongs (event : Event) (tenantId : String)
  | send (frame : StreamFrame)

abbrev ServerEff.Res : ServerEff → Type
  | .door effect => effect.Res
  | .subscribe => Unit
  | .recv => Received Event
  | .belongs _ _ => Bool
  | .send _ => Unit

/- What the requests act on, and where the streams stand. -/
structure ServerWorld (S : Type) where
  front : FrontWorld S
  cursors : List (Nat × Nat) := []

variable {S : Type}

namespace ServerWorld

/- The records of the service. -/
def base (w : ServerWorld S) : World :=
  w.front.service.base

/- What has been emitted, oldest first. -/
def log (w : ServerWorld S) : List Event :=
  w.base.events.reverse

/- Where the stream of a thread stands, once it has begun. -/
def cursor (w : ServerWorld S) (thread : Nat) : Option Nat :=
  w.cursors.lookup thread

def moveCursor
    (w : ServerWorld S)
    (thread next : Nat) : ServerWorld S :=
  { w with cursors := (thread, next) :: w.cursors }

end ServerWorld

/- `EventBus::default` -/
def busCapacity : Nat := 1024

variable (doors : FrontDoors S)

/- The meaning of each effect. -/
def execServer
    (thread : Nat)
    (c : FrontChoice)
    (w : ServerWorld S) :
    (effect : ServerEff) → Option (effect.Res × ServerWorld S)
  | .door effect =>
      (execFront doors thread c w.front effect).map fun result =>
        (result.1, { w with front := result.2 })
  | .subscribe => some ((), w.moveCursor thread w.log.length)
  | .recv =>
      (w.cursor thread).map fun next =>
        let looked := receive busCapacity w.log next
        (looked.1, w.moveCursor thread looked.2)
  | .belongs event tenantId =>
      some
        (!c.fault && eventBelongsToTenant w.base event tenantId,
          w)
  | .send _ => some ((), w)

/- The machine of the server. -/
def serverMachine :
    Machine ServerEff.Res (ServerWorld S) FrontChoice :=
  ⟨execServer doors⟩

end Service

end IcpHandler

------------------------------------------------------------
-- Streams
------------------------------------------------------------

namespace IcpHandler

namespace Service

open Model Concurrency

/- A step at a door, as a step in the server. -/
def doorAnswer
    (effect : FrontEff)
    (answer : (ServerEff.door effect).Res) : effect.Res :=
  answer

def atDoor {α : Type} (p : Prog FrontEff.Res α) :
    Prog ServerEff.Res α :=
  p.via ServerEff.door doorAnswer

/-
  `BroadcastStream`, filtered, for as many looks at the bus as
  the client stays for. A stream that has lagged goes on
  without a word.
-/
def feed
    (frame : Event → StreamFrame)
    (tenantId : String) : Nat → Prog ServerEff.Res Unit
  | 0 => pure ()
  | looks + 1 => do
      match ← Prog.perform ServerEff.recv with
      | .empty => feed frame tenantId looks
      | .lagged _ => feed frame tenantId looks
      | .value event => do
          let own ←
            Prog.perform (ServerEff.belongs event tenantId)
          if own then do
            let _ ← Prog.perform (ServerEff.send (frame event))
            feed frame tenantId looks
          else feed frame tenantId looks

variable {S : Type}
variable (doors : FrontDoors S)

/- `authenticate_bearer`, of a token that has to be there. -/
def authenticateStream
    (metadata : HeaderMap) : Front GrpcStatus ApiKey := do
  let bearer ←
    Fallible.orFail ⟨.unauthenticated, "missing bearer token"⟩
      (grpcBearer metadata)
  authenticateBearer doors bearer

/- What a stream ends with. -/
inductive StreamReply where
  | refusedHttp (error : ApiError)
  | refusedGrpc (status : GrpcStatus)
  | closed

/- Go on with the stream of a tenant, once it is known. -/
def follow
    {ε : Type}
    (refused : ε → StreamReply)
    (frame : Event → StreamFrame)
    (looks : Nat)
    (known : Front ε ApiKey) :
    Prog ServerEff.Res StreamReply := do
  match ← atDoor known.run with
  | .error e => pure (refused e)
  | .ok tenant => do
      let _ ← Prog.perform ServerEff.subscribe
      feed frame tenant.tenantId looks
      pure .closed

/- `sse_events` and `stream_events` -/
def StreamRequest.prog
    (looks : Nat)
    (request : StreamRequest) :
    Prog ServerEff.Res StreamReply :=
  let frame := request.frame doors.svc.deps
  match request with
  | .sse headers =>
      follow .refusedHttp frame looks
        (resolveTenant doors headers)
  | .grpc metadata =>
      follow .refusedGrpc frame looks
        (authenticateStream doors metadata)

/- What runs on a thread of the server. -/
inductive ServerOp where
  | serve (request : DoorRequest)
  | background (op : Op)
  | stream (request : StreamRequest) (looks : Nat)

inductive ServerReply where
  | served (reply : DoorReply)
  | background (result : OpResult)
  | stream (reply : StreamReply)

/- An effect of the service, as one of a door. -/
def innerFront (effect : Eff) : FrontEff :=
  .service (.inner effect)

def innerFrontAnswer
    (effect : Eff)
    (answer : (innerFront effect).Res) : effect.Res :=
  answer

def ServerOp.prog : ServerOp → Prog ServerEff.Res ServerReply
  | .serve request => do
      let reply ← atDoor (request.prog doors)
      pure (.served reply)
  | .background op => do
      let result ←
        atDoor
          ((op.prog doors.svc).via innerFront innerFrontAnswer)
      pure (.background result)
  | .stream request looks => do
      let reply ← request.prog doors looks
      pure (.stream reply)

/- One operation on every thread. -/
def serverPool
    (ops : Nat → ServerOp)
    (w : ServerWorld S) :
    Pool ServerEff.Res (ServerWorld S) ServerReply where
  history := .start w
  threads thread := (ops thread).prog doors

end Service

end IcpHandler
