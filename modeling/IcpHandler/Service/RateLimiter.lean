import Mathlib.Data.List.AList
import IcpHandler.Data.Saturating

/-
  The rate limiter in memory. Instants and durations are
  counted in nanoseconds.

  Main declarations:
    * `RateLimitDecision`, `Bucket`, `RateLimiter`
    * `Bucket.charge`
    * `RateLimiter.checkAt`, `RateLimiter.check`
    * `RateLimiter.answered`
-/

------------------------------------------------------------
-- The Limiter
------------------------------------------------------------

namespace IcpHandler

namespace Service

def nanosPerSec : Nat := 1000000000

inductive RateLimitDecision where
  | allowed (limit remaining : UInt32) (resetInSecs : Nat)
  | denied (limit : UInt32) (retryAfterSecs : Nat)
  deriving DecidableEq

def RateLimitDecision.isAllowed : RateLimitDecision → Bool
  | .allowed _ _ _ => true
  | .denied _ _ => false

structure Bucket where
  -- the requests that are counted in the current window
  used : UInt32
  -- when the current window started
  windowStart : Nat
  deriving DecidableEq

/- The limiter, and whether its mutex has been poisoned. -/
structure RateLimiter where
  defaultCapacity : UInt32
  window : Nat
  poisoned : Bool := false
  buckets : AList fun _ : String => Bucket := ∅

/- Roll the window over if it has run out. -/
def Bucket.rolled
    (window now : Nat)
    (bucket : Bucket) : Bucket :=
  if window ≤ now - bucket.windowStart then
    { used := 0, windowStart := now }
  else bucket

/- Count one request, and what is answered to it. -/
def Bucket.charge
    (window : Nat)
    (capacity : UInt32)
    (now : Nat)
    (bucket : Bucket) : RateLimitDecision × Bucket :=
  let bucket := bucket.rolled window now
  let elapsed := now - bucket.windowStart
  let resetIn := window - elapsed
  let resetInSecs := max (resetIn / nanosPerSec) 1
  if capacity ≤ bucket.used then
    (.denied capacity resetInSecs, bucket)
  else
    let bucket :=
      { bucket with used := Saturating.satAdd32 bucket.used 1 }
    (.allowed capacity
      (Saturating.satSub32 capacity bucket.used) resetInSecs,
      bucket)

namespace RateLimiter

/- `RateLimiter::new` -/
def new
    (defaultCapacity : UInt32)
    (window : Nat) : RateLimiter :=
  { defaultCapacity := defaultCapacity, window := window }

/-
  `check_at`. A poisoned limiter denies, and forgets the
  tenant's bucket.
-/
def checkAt
    (limiter : RateLimiter)
    (tenantId : String)
    (capacity : UInt32)
    (now : Nat) : RateLimitDecision × RateLimiter :=
  if limiter.poisoned then
    (.denied capacity 1,
      { limiter with
        buckets := limiter.buckets.erase tenantId })
  else
    let bucket :=
      (limiter.buckets.lookup tenantId).getD
        { used := 0, windowStart := now }
    let charged := bucket.charge limiter.window capacity now
    (charged.1,
      { limiter with
        buckets := limiter.buckets.insert tenantId charged.2 })

/- `check`: a capacity of 0 disables the limit. -/
def check
    (limiter : RateLimiter)
    (tenantId : String)
    (tenantCapacity : Option UInt32)
    (now : Nat) : RateLimitDecision × RateLimiter :=
  let capacity := tenantCapacity.getD limiter.defaultCapacity
  if capacity = 0 then
    (.allowed 0 4294967295 (limiter.window / nanosPerSec),
      limiter)
  else limiter.checkAt tenantId capacity now

end RateLimiter

end Service

end IcpHandler

------------------------------------------------------------
-- Sequences of Calls
------------------------------------------------------------

namespace IcpHandler

namespace Service

/- A request of a tenant, and when it is made. -/
structure RateCall where
  tenantId : String
  now : Nat
  deriving DecidableEq

/- A request with its answer. -/
abbrev RateAnswer := RateCall × RateLimitDecision

namespace RateLimiter

/-
  The answers to some calls, one after the other. Each tenant
  has a capacity of its own.
-/
def answered
    (capacity : String → UInt32)
    (limiter : RateLimiter) : List RateCall → List RateAnswer
  | [] => []
  | call :: calls =>
      let checked :=
        limiter.checkAt call.tenantId (capacity call.tenantId)
          call.now
      (call, checked.1) :: answered capacity checked.2 calls

end RateLimiter

end Service

end IcpHandler
