import IcpHandler.Model.Idempotency
import IcpHandler.Service.Dispatch

/-
  An intent under idempotency protection. The request claims
  its key in the cache before it runs, and what it answers is
  replayed to everybody who comes with the same key and body.

  Main declarations:
    * `DedupEff`, `DedupWorld`, `dedupMachine`
    * `effectiveKey`
    * `handleIntentIdempotent`
    * `DedupOp`
-/

------------------------------------------------------------
-- Effects
------------------------------------------------------------

namespace IcpHandler

namespace Model

open Concurrency

/-
  The effects of a protected request: those of the intent
  itself, the rate limiter, and the calls on the cache. A call
  on the cache reads the clock as it is made, and `reserve`
  draws its token itself.
-/
inductive DedupEff where
  | inner (effect : Eff)
  | checkTenantRateLimit (tenantId : String)
  | lookup (key : IdempotencyKey) (digest : String)
  | reserve
      (key : IdempotencyKey)
      (digest : String)
      (lease : Duration)
  | release (key : IdempotencyKey) (token : String)
  /- `IdempotencyStore::store` -/
  | record
      (key : IdempotencyKey)
      (digest : String)
      (response : CachedResponse)
      (token : String)
  | prune

/- What each effect answers, with the reading of the clock. -/
abbrev DedupEff.Res : DedupEff → Type
  | .inner effect => effect.Res
  | .checkTenantRateLimit _ => Except ApiError Bool
  | .lookup _ _ => DateTime × LookupOutcome
  | .reserve _ _ _ => DateTime × ReserveOutcome
  | .release _ _ => Bool
  | .record _ _ _ _ => DateTime × Bool
  | .prune => DateTime × Nat

/- The stores of the service, and its cache. -/
structure DedupWorld where
  base : World
  idempotency : IdempotencyStore

/-
  The outside also decides what the rate limiter says, or what
  keeps it from being reached.
-/
structure DedupChoice extends Choice where
  rate : Except String Bool := .ok true

/- The meaning of each effect. A token is never empty. -/
def execDedup
    (rfc3339 : Rfc3339)
    (thread : Nat)
    (c : DedupChoice)
    (w : DedupWorld) :
    (effect : DedupEff) → Option (effect.Res × DedupWorld)
  | .inner effect =>
      (execEff rfc3339 thread c.toChoice w.base effect).map
        fun result => (result.1, { w with base := result.2 })
  | .checkTenantRateLimit _ =>
      some
        (c.rate.mapError fun reason =>
          .engineUnavailable
            ("distributed tenant rate limiter unavailable: " ++
              reason), w)
  | .lookup key digest =>
      some
        ((c.clock,
          w.idempotency.lookup rfc3339 c.fault key digest
            c.clock), w)
  | .reserve key digest lease =>
      if c.token = "" then none
      else
        let result :=
          w.idempotency.reserve rfc3339 c.fault c.token key
            digest c.clock lease
        some ((c.clock, result.1),
          { w with idempotency := result.2 })
  | .release key token =>
      let result := w.idempotency.release c.fault key token
      some (result.1, { w with idempotency := result.2 })
  | .record key digest response token =>
      let result :=
        w.idempotency.store rfc3339 c.fault key digest response
          c.clock token
      some ((c.clock, result.1),
        { w with idempotency := result.2 })
  | .prune =>
      let result := w.idempotency.prune rfc3339 c.fault c.clock
      some ((c.clock, result.1),
        { w with idempotency := result.2 })

/- The machine of protected requests. -/
def dedupMachine
    (rfc3339 : Rfc3339) :
    Machine DedupEff.Res DedupWorld DedupChoice :=
  ⟨execDedup rfc3339⟩

end Model

end IcpHandler

------------------------------------------------------------
-- Keys
------------------------------------------------------------

namespace IcpHandler

namespace Service

open Model

/- The explicit key, when it is one to go by. -/
def givenKey (explicitKey : Option String) : Option String :=
  explicitKey.filter fun key => !key.isEmpty

/- The client's id of the intent, when it is not empty. -/
def givenIntentId (input : IntentInput) : Option String :=
  input.envelope.intentId.filter fun id => !id.isEmpty

/- The key of an agent's intent. -/
def derivedKey (agentId intentId : String) : String :=
  "intent:" ++ agentId ++ ":" ++ intentId

/- The key a request is protected by. -/
def effectiveKey
    (input : IntentInput)
    (explicitKey : Option String) : Option String :=
  match givenKey explicitKey with
  | some key => some key
  | none =>
      (givenIntentId input).map (derivedKey input.agent.raw)

/- The lock of a key, inside the process. -/
def idempotencyLock (tenantId key : String) : String :=
  "idem:" ++ toString tenantId.utf8ByteSize ++ ":" ++
    tenantId ++ key

end Service

end IcpHandler

------------------------------------------------------------
-- The Protected Request
------------------------------------------------------------

namespace IcpHandler

namespace Service

open Model Concurrency

variable (svc : IcpService)

structure IntentExecution where
  body : IntentResponseBody
  replayed : Bool

/- What a protected request comes to. -/
abbrev ExecutionResult := Except Halt IntentExecution

/- Perform one effect of a protected request. -/
def perform (effect : DedupEff) :
    Prog DedupEff.Res effect.Res :=
  Prog.perform effect

/- The answer of an effect of the intent itself. -/
def innerAnswer
    (effect : Eff)
    (answer : (DedupEff.inner effect).Res) : effect.Res :=
  answer

/- An operation of the service, inside a protected request. -/
def runInner {α : Type} (body : Svc α) :
    Prog DedupEff.Res (Except Halt α) :=
  body.run.via DedupEff.inner innerAnswer

/- Release the lock of the process, and answer. -/
def unlockThen
    (lock : String)
    (result : ExecutionResult) :
    Prog DedupEff.Res ExecutionResult := do
  let _ ← perform (.inner (.unlock lock))
  pure result

/- The digest of the canonical envelope. -/
def requestDigest
    (envelope : IntentEnvelope) : Except ApiError String :=
  match svc.deps.jcsEnvelope envelope with
  | .ok canonical => .ok (svc.deps.bodySha256 canonical)
  | .error e => .error (.processingError ("jcs: " ++ e))

/- A cached response as an answer. -/
def replay (cached : CachedResponse) : ExecutionResult :=
  match svc.deps.bodyOfText cached.bodyJson with
  | .ok body => .ok ⟨body, true⟩
  | .error e =>
      .error (.error
        (.processingError ("cached response JSON: " ++ e)))

def keyConflict (key : String) : ApiError :=
  .idempotencyConflict
    ("idempotency key `" ++ key ++
      "` was used previously with a different request body")

def keyInProgress (key : String) : ApiError :=
  .engineUnavailable
    ("a request with idempotency key `" ++ key ++
      "` is already in progress; retry shortly")

/-
  Execute under the claim `token`, then record the response,
  or release the claim so that the attempt can be repeated.
-/
def executeClaimed
    (input : IntentInput)
    (key digest token lock : String) :
    Prog DedupEff.Res ExecutionResult := do
  let cacheKey := (input.tenant.tenantId, key)
  match ← runInner (handleIntent svc input) with
  | .error (.panicked message) =>
      -- unwinding drops the guard
      unlockThen lock (.error (.panicked message))
  | .error (.error e) => do
      let _ ← perform (.release cacheKey token)
      unlockThen lock (.error (.error e))
  | .ok body =>
      match svc.deps.bodyToText body with
      | .error e =>
          unlockThen lock
            (.error (.error (.processingError
              ("serialize for cache: " ++ e))))
      | .ok text => do
          let _ ← perform
            (.record cacheKey digest ⟨200, text⟩ token)
          unlockThen lock (.ok ⟨body, false⟩)

/- Wait for another worker's response. -/
def awaitResponse
    (tenantId key digest : String) :
    Nat → Prog DedupEff.Res ExecutionResult
  | 0 => pure (.error (.error (keyInProgress key)))
  | polls + 1 => do
      let found ← perform (.lookup (tenantId, key) digest)
      match found.2 with
      | .replay cached => pure (replay svc cached)
      | .conflict => pure (.error (.error (keyConflict key)))
      | .miss => awaitResponse tenantId key digest polls

/- `MAX_POLLS` -/
def maxPolls : Nat := 20

/- The lease of a claim. -/
def claimLease : Duration :=
  Duration.seconds (max svc.config.idempotencyLeaseSecs 1)

/- A request under its key. -/
def executeUnderKey
    (input : IntentInput)
    (key digest : String) :
    Prog DedupEff.Res ExecutionResult := do
  let tenantId := input.tenant.tenantId
  let lock := idempotencyLock tenantId key
  let _ ← perform (.inner (.lock lock))
  let claim ← perform
    (.reserve (tenantId, key) digest (claimLease svc))
  match claim.2 with
  | .replay cached => unlockThen lock (replay svc cached)
  | .conflict =>
      unlockThen lock (.error (.error (keyConflict key)))
  | .won token =>
      executeClaimed svc input key digest token lock
  | .inProgress => do
      let _ ← perform (.inner (.unlock lock))
      awaitResponse svc tenantId key digest maxPolls

/- Past the rate limit. -/
def executeAdmitted
    (input : IntentInput)
    (explicitKey : Option String) :
    Prog DedupEff.Res ExecutionResult :=
  match effectiveKey input explicitKey with
  | none => do
      let result ← runInner (handleIntent svc input)
      pure (result.map fun body => ⟨body, false⟩)
  | some key =>
      match requestDigest svc input.envelope with
      | .error e => pure (.error (.error e))
      | .ok digest => executeUnderKey svc input key digest

def handleIntentIdempotent
    (input : IntentInput)
    (explicitKey : Option String) :
    Prog DedupEff.Res ExecutionResult :=
  if input.skipRateLimit then
    executeAdmitted svc input explicitKey
  else do
    let decision ← perform
      (.checkTenantRateLimit input.tenant.tenantId)
    match decision with
    | .error e => pure (.error (.error e))
    | .ok false => pure (.error (.error .rateLimited))
    | .ok true => executeAdmitted svc input explicitKey

/- What runs against the cache: requests, and the sweeper. -/
inductive DedupOp where
  | request
      (input : IntentInput)
      (explicitKey : Option String)
  | sweep

inductive DedupResult where
  | answered (result : ExecutionResult)
  | swept (count : Nat)

def DedupOp.prog : DedupOp → Prog DedupEff.Res DedupResult
  | .request input explicitKey => do
      let result ← handleIntentIdempotent svc input explicitKey
      pure (.answered result)
  | .sweep => do
      let pruned ← perform .prune
      pure (.swept pruned.2)

end Service

end IcpHandler
