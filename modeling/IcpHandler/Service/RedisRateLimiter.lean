import IcpHandler.Data.ExpiringCounters
import IcpHandler.Model.Bytes
import IcpHandler.Model.Errors
import IcpHandler.Service.RateLimiter
import Mathlib.Algebra.Group.Nat.Defs

/-
  The rate limiter on a shared server, and how a process picks
  between it and the limiter in memory. Clocks are read in
  milliseconds.

  Main declarations:
    * `RedisRateLimiter`, `RedisRateLimiter.key`
    * `RedisRateLimiter.checkAtEpoch`
    * `RedisRateLimiter.check`
    * `checkRateLimit`
    * `startLimiter`
-/

------------------------------------------------------------
-- The Limiter
------------------------------------------------------------

namespace IcpHandler

namespace Service

open Data.ExpiringCounters
open Model

/- The server, with texts as its keys. -/
abbrev Redis (S : Type) := CounterServer S String

/- What becomes of one command on its way to the server. -/
inductive Transit where
  | answered
  -- the script ran, but its reply did not come back
  | replyLost (error : String)
  | unreached (error : String)
  deriving DecidableEq

/- The window is counted in nanoseconds. -/
structure RedisRateLimiter where
  defaultCapacity : UInt32
  window : Nat
  keyPrefix : String
  deriving DecidableEq

namespace RedisRateLimiter

/- `RedisRateLimiter::per_minute` -/
def perMinute
    (keyPrefix : String)
    (defaultCapacity : UInt32) : RedisRateLimiter :=
  { defaultCapacity := defaultCapacity
    window := 60 * nanosPerSec
    keyPrefix := keyPrefix }

/- `self.window.as_secs().max(1)` -/
def windowSecs (limiter : RedisRateLimiter) : Nat :=
  max (limiter.window / nanosPerSec) 1

/- `(window_secs + 1) as i64` -/
def lease (limiter : RedisRateLimiter) : Int :=
  ((limiter.windowSecs + 1 : Nat) : Int).bmod (2 ^ 64)

/- The digest of a bucket's id stands for it in the key. -/
def key
    (sha256 : Bytes → Bytes)
    (limiter : RedisRateLimiter)
    (bucketId : String)
    (windowIndex : Nat) : String :=
  limiter.keyPrefix ++ ":" ++ toString windowIndex ++ ":" ++
    hexEncode (sha256 (utf8Bytes bucketId))

/- `now_secs / window_secs` -/
def windowIndex
    (limiter : RedisRateLimiter)
    (nowSecs : Nat) : Nat :=
  nowSecs / limiter.windowSecs

/- The seconds that are left of the window. -/
def resetInSecs
    (limiter : RedisRateLimiter)
    (nowSecs : Nat) : Nat :=
  max (limiter.windowSecs - nowSecs % limiter.windowSecs) 1

/- What a count is answered with. -/
def decide
    (limiter : RedisRateLimiter)
    (capacity : UInt32)
    (nowSecs : Nat)
    (count : Int) : RateLimitDecision :=
  if (capacity.toNat : Int) < count then
    .denied capacity (limiter.resetInSecs nowSecs)
  else
    -- `u32::try_from(count).unwrap_or(u32::MAX)`
    let used : UInt32 :=
      if 0 ≤ count ∧ count < 2 ^ 32 then .ofNat count.toNat
      else 4294967295
    .allowed capacity (Saturating.satSub32 capacity used)
      (limiter.resetInSecs nowSecs)

variable {S : Type}

/-
  `check_at_epoch`. The script runs at an instant of the
  server's, the window is read off the caller's clock.
-/
def checkAtEpoch
    (redis : Redis S)
    (sha256 : Bytes → Bytes)
    (limiter : RedisRateLimiter)
    (bucketId : String)
    (capacity : UInt32)
    (nowSecs executedAt : Nat)
    (transit : Transit)
    (s : S) : Except String RateLimitDecision × S :=
  let key :=
    limiter.key sha256 bucketId (limiter.windowIndex nowSecs)
  match transit with
  | .unreached error => (.error error, s)
  | .replyLost error =>
      (.error error,
        (countUse redis limiter.lease executedAt key s).2)
  | .answered =>
      let counted :=
        countUse redis limiter.lease executedAt key s
      (counted.1.map (limiter.decide capacity nowSecs),
        counted.2)

/- `check`: a capacity of 0 disables the limit. -/
def check
    (redis : Redis S)
    (sha256 : Bytes → Bytes)
    (limiter : RedisRateLimiter)
    (bucketId : String)
    (bucketCapacity : Option UInt32)
    (clock executedAt : Nat)
    (transit : Transit)
    (s : S) : Except String RateLimitDecision × S :=
  let capacity :=
    bucketCapacity.getD limiter.defaultCapacity
  if capacity = 0 then
    (.ok (.allowed 0 4294967295
      (limiter.window / nanosPerSec)), s)
  else
    limiter.checkAtEpoch redis sha256 bucketId capacity
      (clock / 1000) executedAt transit s

end RedisRateLimiter

end Service

end IcpHandler

------------------------------------------------------------
-- The Choice of a Limiter
------------------------------------------------------------

namespace IcpHandler

namespace Service

open Model

variable {S : Type}

/-
  `check_rate_limit`. Where the server is out of order, a
  handler in production refuses, and any other one falls back
  to its own counts.
-/
def checkRateLimit
    (redis : Redis S)
    (sha256 : Bytes → Bytes)
    (production : Bool)
    (scope bucketId : String)
    (bucketCapacity : Option UInt32)
    (limiter : RateLimiter)
    (distributed : Option RedisRateLimiter)
    (instant clock executedAt : Nat)
    (transit : Transit)
    (s : S) :
    Except ApiError RateLimitDecision × RateLimiter × S :=
  match distributed with
  | none =>
      let checked :=
        limiter.check bucketId bucketCapacity instant
      (.ok checked.1, checked.2, s)
  | some distributed =>
      let counted :=
        distributed.check redis sha256 bucketId bucketCapacity
          clock executedAt transit s
      match counted.1 with
      | .ok decision => (.ok decision, limiter, counted.2)
      | .error error =>
          if production then
            (.error (.engineUnavailable
              ("distributed " ++ scope ++
                " rate limiter unavailable: " ++ error)),
              limiter, counted.2)
          else
            let checked :=
              limiter.check bucketId bucketCapacity instant
            (.ok checked.1, checked.2, counted.2)

/-
  The shared limiter that a process starts with, if a server
  is configured. A process in production does not start
  without a connection to it.
-/
def startLimiter
    (connects : String → Except String Unit)
    (production : Bool)
    (redisUrl : Option String)
    (name keyPrefix : String)
    (capacity : UInt32) :
    Except String (Option RedisRateLimiter) :=
  match redisUrl with
  | none => .ok none
  | some url =>
      match connects url with
      | .ok () => .ok (some (.perMinute keyPrefix capacity))
      | .error error =>
          if production then
            .error ("connect REDIS_URL for " ++ name ++
              " rate limiting: " ++ error)
          else .ok none

end Service

end IcpHandler
