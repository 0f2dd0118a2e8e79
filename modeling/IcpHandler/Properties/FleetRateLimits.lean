import Mathlib.Data.List.Induction
import IcpHandler.Data.ShortestDecimal
import IcpHandler.Service.RedisRateLimiter

/-
  What a fleet of handlers lets through that shares one server
  of counters. The window of a call is read off the clock of
  the process that makes it; the server forgets a window's
  counter a second after the window's length, so clocks and
  networks may be apart by that second.

  Main declarations:
    * `FleetCall`, `fleetAnswers`
    * `key_inj`
    * `InStep`, `FleetAnswer`
    * `fleet_rate_limits_hold`
-/

------------------------------------------------------------
-- Keys
------------------------------------------------------------

namespace IcpHandler

namespace Service

open Data.ExpiringCounters
open Model

/- The last separator parts a text in one way only. -/
theorem append_separator_inj
    {separator : Char}
    {first second rest rest' : List Char}
    (hRest : separator ∉ rest)
    (hRest' : separator ∉ rest')
    (hSame :
      first ++ separator :: rest = second ++ separator :: rest') :
    first = second ∧ rest = rest' := by
  rcases List.append_eq_append_iff.mp hSame with
    ⟨middle, hSecond, hTail⟩ | ⟨middle, hFirst, hTail⟩
  · cases middle with
    | nil =>
        rw [List.append_nil] at hSecond
        exact ⟨hSecond.symm, (List.cons.inj hTail).2⟩
    | cons c middle =>
        rw [List.cons_append] at hTail
        exfalso
        apply hRest
        rw [(List.cons.inj hTail).2]
        exact List.mem_append_right _ List.mem_cons_self
  · cases middle with
    | nil =>
        rw [List.append_nil] at hFirst
        exact ⟨hFirst, (List.cons.inj hTail).2.symm⟩
    | cons c middle =>
        rw [List.cons_append] at hTail
        exfalso
        apply hRest'
        rw [(List.cons.inj hTail).2]
        exact List.mem_append_right _ List.mem_cons_self

private theorem colon_notMem_hex (bytes : Bytes) :
    ':' ∉ (hexEncode bytes).toList := by
  intro hMem
  have hPlain := isAlphanum_of_mem_hexEncode hMem
  exact absurd hPlain (by decide)

private theorem colon_notMem_digits (n : Nat) :
    ':' ∉ Nat.toDigits 10 n := by
  intro hMem
  have hDigit :=
    Nat.isDigit_of_mem_toDigits (by decide) (by decide) hMem
  exact absurd hDigit (by decide)

/-
  A key names its limiter, the window and the digest of the
  bucket.
-/
theorem key_inj
    {sha256 : Bytes → Bytes}
    {limiter limiter' : RedisRateLimiter}
    {bucketId bucketId' : String}
    {index index' : Nat}
    (hSame :
      limiter.key sha256 bucketId index =
        limiter'.key sha256 bucketId' index') :
    limiter.keyPrefix = limiter'.keyPrefix ∧
      index = index' ∧
      sha256 (utf8Bytes bucketId) =
        sha256 (utf8Bytes bucketId') := by
  have hText := congrArg String.toList hSame
  have hColon : ":".toList = [':'] := rfl
  have hIndex :
      ∀ n : Nat, (toString n).toList = Nat.toDigits 10 n := by
    intro n
    exact String.toList_ofList
  simp only [RedisRateLimiter.key, String.toList_append, hColon,
    hIndex, List.append_assoc, List.singleton_append] at hText
  rw [← List.append_assoc, ← List.append_assoc] at hText
  obtain ⟨hHead, hHex⟩ :=
    append_separator_inj (colon_notMem_hex _)
      (colon_notMem_hex _) hText
  obtain ⟨hPrefix, hDigits⟩ :=
    append_separator_inj (colon_notMem_digits _)
      (colon_notMem_digits _) hHead
  exact ⟨String.toList_inj.mp hPrefix,
    Data.toDigits_inj hDigits,
    hexEncode_inj (String.toList_inj.mp hHex)⟩

end Service

end IcpHandler

------------------------------------------------------------
-- Calls of the Fleet
------------------------------------------------------------

namespace IcpHandler

namespace Service

open Data.ExpiringCounters
open Model

/-
  A call of `check` by some process. The clock is the one of
  that process; `executedAt` is when the script runs, by the
  clock of the server.
-/
structure FleetCall where
  limiter : RedisRateLimiter
  bucketId : String
  bucketCapacity : Option UInt32
  clock : Nat
  executedAt : Nat
  transit : Transit
  deriving DecidableEq

namespace FleetCall

def capacity (call : FleetCall) : UInt32 :=
  call.bucketCapacity.getD call.limiter.defaultCapacity

def windowIndex (call : FleetCall) : Nat :=
  call.limiter.windowIndex (call.clock / 1000)

/- The call has the server count it. -/
def Executes (call : FleetCall) : Prop :=
  call.capacity ≠ 0 ∧ ∀ error, call.transit ≠ .unreached error

instance (call : FleetCall) : Decidable call.Executes :=
  match hTransit : call.transit with
  | .unreached error =>
      .isFalse fun hRun => hRun.2 error hTransit
  | .answered | .replyLost _ =>
      decidable_of_iff (call.capacity ≠ 0) (by
        unfold Executes
        rw [hTransit]
        simp)

/- Two calls of one bucket, in one window of its limiter. -/
def SameWindow (first second : FleetCall) : Prop :=
  first.limiter.keyPrefix = second.limiter.keyPrefix ∧
    first.bucketId = second.bucketId ∧
    first.windowIndex = second.windowIndex

instance (first second : FleetCall) :
    Decidable (first.SameWindow second) :=
  inferInstanceAs (Decidable (_ ∧ _ ∧ _))

/- The calls so far that count against a call. -/
def counted
    (earlier : List FleetCall)
    (call : FleetCall) : Nat :=
  earlier.countP fun other =>
    other.Executes ∧ other.SameWindow call

variable {S : Type}

/- One call against the server. -/
def run
    (redis : Redis S)
    (sha256 : Bytes → Bytes)
    (s : S)
    (call : FleetCall) : Except String RateLimitDecision × S :=
  call.limiter.check redis sha256 call.bucketId
    call.bucketCapacity call.clock call.executedAt call.transit s

end FleetCall

/- The answers to calls, in the order the server runs them. -/
def fleetAnswers
    {S : Type}
    (redis : Redis S)
    (sha256 : Bytes → Bytes) :
    S → List FleetCall →
      List (FleetCall × Except String RateLimitDecision)
  | _, [] => []
  | s, call :: calls =>
      let answered := call.run redis sha256 s
      (call, answered.1) ::
        fleetAnswers redis sha256 answered.2 calls

/-
  The answer to a call that one counter for each bucket and
  window asks for. The server's integers end at 2^63 - 1.
-/
def FleetAnswer
    (earlier : List FleetCall)
    (call : FleetCall) :
    Except String RateLimitDecision → Prop
  | .ok (.allowed limit remaining resetInSecs) =>
      limit = call.capacity ∧
        (call.capacity ≠ 0 →
          call.transit = .answered ∧
            remaining.toNat + (call.counted earlier + 1) =
              call.capacity.toNat ∧
            resetInSecs =
              call.limiter.resetInSecs (call.clock / 1000))
  | .ok (.denied limit retryAfterSecs) =>
      call.capacity ≠ 0 ∧ limit = call.capacity ∧
        call.capacity.toNat ≤ call.counted earlier ∧
        retryAfterSecs =
          call.limiter.resetInSecs (call.clock / 1000)
  | .error _ =>
      call.capacity ≠ 0 ∧
        (call.transit = .answered →
          2 ^ 63 - 1 ≤ call.counted earlier)

/-
  What the outside owes the fleet. The server runs the scripts
  in the order of its clock, no two buckets share a digest,
  and a limiter's window is the same everywhere; between
  reading its clock and being executed a call may take a
  second more or less than another of its window.
-/
structure InStep
    (sha256 : Bytes → Bytes)
    (calls : List FleetCall) : Prop where
  ordered :
    (calls.filter fun call => call.Executes).Pairwise
      fun older newer => older.executedAt ≤ newer.executedAt
  apart :
    ∀ first ∈ calls, ∀ second ∈ calls,
      sha256 (utf8Bytes first.bucketId) =
          sha256 (utf8Bytes second.bucketId) →
        first.bucketId = second.bucketId
  windows :
    ∀ first ∈ calls, ∀ second ∈ calls,
      first.limiter.keyPrefix = second.limiter.keyPrefix →
        first.limiter.window = second.limiter.window
  leases :
    ∀ call ∈ calls,
      call.limiter.windowSecs + 1 < 2 ^ 63
  skew :
    ∀ first ∈ calls, ∀ second ∈ calls,
      first.Executes → second.Executes →
      first.SameWindow second →
        second.executedAt + first.clock ≤
          first.executedAt + second.clock + 1000

end Service

end IcpHandler

------------------------------------------------------------
-- One Call
------------------------------------------------------------

namespace IcpHandler

namespace Service

open Data.ExpiringCounters
open Model

namespace FleetCall

variable {sha256 : Bytes → Bytes}

def key
    (sha256 : Bytes → Bytes)
    (call : FleetCall) : String :=
  call.limiter.key sha256 call.bucketId call.windowIndex

/- What a call is to the server. -/
def use
    (sha256 : Bytes → Bytes)
    (call : FleetCall) : Use String :=
  { key := call.key sha256
    now := call.executedAt
    lease := call.limiter.lease }

@[simp] theorem use_key (call : FleetCall) :
    (call.use sha256).key = call.key sha256 := by
  unfold use
  rfl

@[simp] theorem use_now (call : FleetCall) :
    (call.use sha256).now = call.executedAt := by
  unfold use
  rfl

@[simp] theorem use_lease (call : FleetCall) :
    (call.use sha256).lease = call.limiter.lease := by
  simp only [use]

end FleetCall

/- The uses that some calls have made, most recent first. -/
def usesOf
    (sha256 : Bytes → Bytes)
    (earlier : List FleetCall) : List (Use String) :=
  ((earlier.filter fun call => call.Executes).map
    (FleetCall.use sha256)).reverse

/- The largest value of a counter. -/
def counterLimit : Int := 2 ^ 63 - 1

variable {S : Type}
variable {redis : Redis S} {sha256 : Bytes → Bytes}
variable {calls : List FleetCall}

theorem lease_eq
    {limiter : RedisRateLimiter}
    (hSmall : limiter.windowSecs + 1 < 2 ^ 63) :
    limiter.lease = limiter.windowSecs + 1 := by
  unfold RedisRateLimiter.lease
  apply Int.bmod_eq_of_le
  · omega
  · omega

/- Calls of one window share a key, and only they do. -/
theorem key_eq_iff
    (hInStep : InStep sha256 calls)
    {first second : FleetCall}
    (hFirst : first ∈ calls)
    (hSecond : second ∈ calls) :
    first.key sha256 = second.key sha256 ↔
      first.SameWindow second := by
  constructor
  · intro hSame
    obtain ⟨hPrefix, hIndex, hDigest⟩ := key_inj hSame
    exact ⟨hPrefix, hInStep.apart _ hFirst _ hSecond hDigest,
      hIndex⟩
  · rintro ⟨hPrefix, hBucket, hIndex⟩
    unfold FleetCall.key RedisRateLimiter.key
    rw [hPrefix, hBucket, hIndex]

theorem mem_usesOf
    {earlier : List FleetCall}
    {used : Use String}
    (hUsed : used ∈ usesOf sha256 earlier) :
    ∃ other ∈ earlier,
      other.Executes ∧ other.use sha256 = used := by
  unfold usesOf at hUsed
  rw [List.mem_reverse, List.mem_map] at hUsed
  obtain ⟨other, hOther, hUse⟩ := hUsed
  rw [List.mem_filter, decide_eq_true_eq] at hOther
  exact ⟨other, hOther.1, hOther.2, hUse⟩

/- The uses of a call's key are the calls that count. -/
theorem countOf_usesOf
    (hInStep : InStep sha256 calls)
    {earlier : List FleetCall}
    (hEarlier : ∀ other ∈ earlier, other ∈ calls)
    {call : FleetCall}
    (hCall : call ∈ calls) :
    countOf (call.key sha256) (usesOf sha256 earlier) =
      call.counted earlier := by
  unfold countOf usesOf FleetCall.counted
  rw [List.countP_reverse, List.countP_map, List.countP_filter]
  apply List.countP_congr
  intro other hOther
  have hKey := key_eq_iff hInStep (hEarlier other hOther) hCall
  simp only [Function.comp_apply, FleetCall.use,
    Bool.and_eq_true, decide_eq_true_eq, hKey]
  exact And.comm

/- Readings of one window are less than its length apart. -/
theorem clock_lt_of_sameWindow
    {first second : FleetCall}
    (hWindow : first.limiter.window = second.limiter.window)
    (hSame : first.SameWindow second) :
    second.clock <
      first.clock + 1000 * first.limiter.windowSecs := by
  have hIndex := hSame.2.2
  unfold FleetCall.windowIndex RedisRateLimiter.windowIndex
    at hIndex
  have hSecs :
      second.limiter.windowSecs = first.limiter.windowSecs := by
    unfold RedisRateLimiter.windowSecs
    rw [hWindow]
  rw [hSecs] at hIndex
  have hPos : 0 < first.limiter.windowSecs := by
    unfold RedisRateLimiter.windowSecs
    omega
  have hLow :=
    Nat.div_mul_le_self (first.clock / 1000)
      first.limiter.windowSecs
  have hHigh :=
    Nat.lt_div_mul_add hPos (a := second.clock / 1000)
  rw [← hIndex] at hHigh
  omega

/- A call comes while the counter of its window is there. -/
theorem timely_of_inStep
    (hInStep : InStep sha256 calls)
    {earlier : List FleetCall}
    (hEarlier : ∀ other ∈ earlier, other ∈ calls)
    {call : FleetCall}
    (hCall : call ∈ calls)
    (hRun : call.Executes) :
    Timely (usesOf sha256 earlier) (call.use sha256) := by
  intro first hFirst
  obtain ⟨hMem, hKey⟩ := mem_of_firstUse hFirst
  obtain ⟨other, hOther, hOtherRun, rfl⟩ := mem_usesOf hMem
  have hOtherCall := hEarlier other hOther
  have hSame :=
    (key_eq_iff hInStep hOtherCall hCall).mp hKey
  have hClock :=
    clock_lt_of_sameWindow
      (hInStep.windows _ hOtherCall _ hCall hSame.1) hSame
  have hSkew :=
    hInStep.skew _ hOtherCall _ hCall hOtherRun hRun hSame
  have hLease := lease_eq (hInStep.leases other hOtherCall)
  have hSeconds :
      (other.use sha256).lease.toNat =
        other.limiter.windowSecs + 1 := by
    unfold FleetCall.use
    dsimp only
    omega
  unfold Use.until
  rw [hSeconds]
  change call.executedAt <
    other.executedAt + 1000 * (other.limiter.windowSecs + 1)
  omega

/- How a count is decided. -/
theorem fleetAnswer_decide
    {earlier : List FleetCall}
    {call : FleetCall}
    (hRun : call.Executes)
    (hAnswered : call.transit = .answered)
    {answer : Except String Int}
    (hAnswer :
      AnswersUse counterLimit (call.counted earlier) answer) :
    FleetAnswer earlier call
      (answer.map
        (call.limiter.decide call.capacity
          (call.clock / 1000))) := by
  cases answer with
  | error error =>
      refine ⟨hRun.1, fun _ => ?_⟩
      have hOver : counterLimit ≤ call.counted earlier := hAnswer
      unfold counterLimit at hOver
      omega
  | ok current =>
      obtain ⟨rfl, -⟩ := hAnswer
      have hWord := call.capacity.toNat_lt
      change FleetAnswer earlier call
        (.ok (call.limiter.decide call.capacity _ _))
      unfold RedisRateLimiter.decide
      split
      · rename_i hOver
        exact ⟨hRun.1, rfl, by omega, rfl⟩
      · rename_i hRoom
        refine ⟨rfl, fun _ => ⟨hAnswered, ?_, rfl⟩⟩
        rw [if_pos (by omega), Saturating.toNat_satSub32]
        have hUsed :
            (UInt32.ofNat
              ((call.counted earlier : Int) + 1).toNat).toNat =
              call.counted earlier + 1 := by
          rw [UInt32.toNat_ofNat']
          omega
        rw [hUsed]
        omega

end Service

end IcpHandler

------------------------------------------------------------
-- Runs of the Fleet
------------------------------------------------------------

namespace IcpHandler

namespace Service

open Data.ExpiringCounters
open Model

variable {S : Type}
variable {redis : Redis S} {sha256 : Bytes → Bytes}
variable {calls : List FleetCall}

/- The server counts each call's window as it should. -/
def Counts
    (redis : Redis S)
    (sha256 : Bytes → Bytes)
    (calls earlier : List FleetCall)
    (s : S)
    (now : Nat) : Prop :=
  ∀ call ∈ calls,
    Tracks redis counterLimit (call.key sha256)
      (usesOf sha256 earlier) s now

theorem usesOf_push
    (earlier : List FleetCall)
    {call : FleetCall}
    (hRun : call.Executes) :
    usesOf sha256 (earlier ++ [call]) =
      call.use sha256 :: usesOf sha256 earlier := by
  unfold usesOf
  simp [List.filter_append, hRun]

theorem usesOf_skip
    (earlier : List FleetCall)
    {call : FleetCall}
    (hRun : ¬ call.Executes) :
    usesOf sha256 (earlier ++ [call]) =
      usesOf sha256 earlier := by
  unfold usesOf
  simp [List.filter_append, hRun]

/- A call that the server does not count leaves it alone. -/
theorem run_skip
    (s : S)
    {call : FleetCall}
    (hRun : ¬ call.Executes)
    (earlier : List FleetCall) :
    FleetAnswer earlier call (call.run redis sha256 s).1 ∧
      (call.run redis sha256 s).2 = s := by
  unfold FleetCall.run RedisRateLimiter.check
  by_cases hZero : call.capacity = 0
  · unfold FleetCall.capacity at hZero
    rw [if_pos hZero]
    refine ⟨⟨?_, ?_⟩, rfl⟩
    · exact hZero.symm
    · intro hCapacity
      exact absurd hZero hCapacity
  · have hTransit :
        ∃ error, call.transit = .unreached error := by
      by_contra hNone
      apply hRun
      refine ⟨hZero, fun error hError => ?_⟩
      exact hNone ⟨error, hError⟩
    obtain ⟨error, hError⟩ := hTransit
    unfold FleetCall.capacity at hZero
    rw [if_neg hZero]
    unfold RedisRateLimiter.checkAtEpoch
    rw [hError]
    refine ⟨⟨hZero, ?_⟩, rfl⟩
    intro hAnswered
    rw [hError] at hAnswered
    cases hAnswered

/- What the server is left with by a call that it counts. -/
theorem run_count
    (s : S)
    {call : FleetCall}
    (hRun : call.Executes) :
    (call.run redis sha256 s).2 =
        (countUse redis call.limiter.lease call.executedAt
          (call.key sha256) s).2 ∧
      (call.transit = .answered →
        (call.run redis sha256 s).1 =
          (countUse redis call.limiter.lease call.executedAt
            (call.key sha256) s).1.map
              (call.limiter.decide call.capacity
                (call.clock / 1000))) ∧
      (call.transit ≠ .answered →
        ∃ error,
          (call.run redis sha256 s).1 = .error error) := by
  have hCapacity := hRun.1
  unfold FleetCall.capacity at hCapacity
  unfold FleetCall.run RedisRateLimiter.check
  rw [if_neg hCapacity]
  unfold RedisRateLimiter.checkAtEpoch
  cases hTransit : call.transit with
  | answered =>
      refine ⟨rfl, fun _ => rfl, ?_⟩
      intro hOther
      exact absurd rfl hOther
  | replyLost error =>
      refine ⟨rfl, ?_, fun _ => ⟨error, rfl⟩⟩
      intro hAnswered
      cases hAnswered
  | unreached error => exact absurd hTransit (hRun.2 error)

/- One call is answered by its window's count. -/
theorem counts_step
    (hServer : redis.Lawful counterLimit)
    (hInStep : InStep sha256 calls)
    {earlier : List FleetCall}
    (hEarlier : ∀ other ∈ earlier, other ∈ calls)
    {s : S}
    {now : Nat}
    (hCounts : Counts redis sha256 calls earlier s now)
    {call : FleetCall}
    (hCall : call ∈ calls)
    (hRun : call.Executes)
    (hLater : now ≤ call.executedAt) :
    FleetAnswer earlier call (call.run redis sha256 s).1 ∧
      Counts redis sha256 calls (earlier ++ [call])
        (call.run redis sha256 s).2 call.executedAt := by
  obtain ⟨hAfter, hAnswered, hLost⟩ :=
    @run_count S redis sha256 s call hRun
  have hLease := lease_eq (hInStep.leases call hCall)
  have hTracks := hCounts call hCall
  have hPositive : 0 < (call.use sha256).lease := by
    rw [FleetCall.use_lease]
    omega
  rw [← FleetCall.use_key] at hTracks
  rw [← @FleetCall.use_now sha256 call] at hLater
  have hUse :=
    tracks_countUse hServer (by decide) hTracks hLater
      hPositive (timely_of_inStep hInStep hEarlier hCall hRun)
  rw [FleetCall.use_key, FleetCall.use_now, FleetCall.use_lease,
    countOf_usesOf hInStep hEarlier hCall] at hUse
  constructor
  · by_cases hTransit : call.transit = .answered
    · rw [hAnswered hTransit]
      exact fleetAnswer_decide hRun hTransit hUse.1
    · obtain ⟨error, hError⟩ := hLost hTransit
      rw [hError]
      exact ⟨hRun.1, fun hDone => absurd hDone hTransit⟩
  · intro other hOther
    rw [usesOf_push earlier hRun, hAfter]
    by_cases hKey : call.key sha256 = other.key sha256
    · rw [← hKey]
      exact hUse.2
    · have hOtherUse :=
        tracks_countUse_other hServer (hCounts other hOther)
          hLater hKey
      rw [FleetCall.use_key, FleetCall.use_now,
        FleetCall.use_lease] at hOtherUse
      exact hOtherUse

/- Every answer of a run is the one its window asks for. -/
theorem answers_of_counts
    (hServer : redis.Lawful counterLimit)
    (hInStep : InStep sha256 calls)
    {earlier rest : List FleetCall}
    (hCalls : calls = earlier ++ rest)
    {s : S}
    {now : Nat}
    (hCounts : Counts redis sha256 calls earlier s now)
    (hLater :
      ∀ call ∈ rest, call.Executes → now ≤ call.executedAt)
    {older newer :
      List (FleetCall × Except String RateLimitDecision)}
    {entry : FleetCall × Except String RateLimitDecision}
    (hSplit :
      fleetAnswers redis sha256 s rest =
        older ++ entry :: newer) :
    FleetAnswer (earlier ++ older.map Prod.fst) entry.1
      entry.2 := by
  induction rest generalizing earlier s now older with
  | nil =>
      cases older with
      | nil => cases hSplit
      | cons first older => cases hSplit
  | cons call rest ih =>
      have hCall : call ∈ calls := by
        rw [hCalls]
        exact List.mem_append_right _ List.mem_cons_self
      have hEarlier : ∀ other ∈ earlier, other ∈ calls := by
        intro other hOther
        rw [hCalls]
        exact List.mem_append_left _ hOther
      have hNext : calls = (earlier ++ [call]) ++ rest := by
        rw [hCalls, List.append_assoc, List.singleton_append]
      have hStep :
          FleetAnswer earlier call (call.run redis sha256 s).1 ∧
            ∃ after,
              Counts redis sha256 calls (earlier ++ [call])
                (call.run redis sha256 s).2 after ∧
              ∀ other ∈ rest, other.Executes →
                after ≤ other.executedAt := by
        by_cases hRun : call.Executes
        · obtain ⟨hAnswer, hAfter⟩ :=
            counts_step hServer hInStep hEarlier hCounts hCall
              hRun (hLater call List.mem_cons_self hRun)
          refine ⟨hAnswer, call.executedAt, hAfter, ?_⟩
          intro other hOther hOtherRun
          have hOrdered := hInStep.ordered
          have hFirst :
              (call :: rest).filter (fun call => call.Executes) =
                call :: rest.filter fun call => call.Executes :=
            List.filter_cons_of_pos (by simp [hRun])
          rw [hCalls, List.filter_append, hFirst] at hOrdered
          have hTail := (List.pairwise_append.mp hOrdered).2.1
          apply (List.pairwise_cons.mp hTail).1
          rw [List.mem_filter, decide_eq_true_eq]
          exact ⟨hOther, hOtherRun⟩
        · obtain ⟨hAnswer, hSame⟩ :=
            @run_skip S redis sha256 s call hRun earlier
          rw [hSame]
          refine ⟨hAnswer, now, ?_, ?_⟩
          · intro other hOther
            rw [usesOf_skip earlier hRun]
            exact hCounts other hOther
          · intro other hOther hOtherRun
            exact hLater other (List.mem_cons_of_mem _ hOther)
              hOtherRun
      obtain ⟨hAnswer, after, hAfter, hRest⟩ := hStep
      rw [fleetAnswers] at hSplit
      cases older with
      | nil =>
          rw [List.nil_append] at hSplit
          obtain ⟨rfl, -⟩ := List.cons.inj hSplit
          rw [List.map_nil, List.append_nil]
          exact hAnswer
      | cons first older =>
          rw [List.cons_append] at hSplit
          obtain ⟨rfl, hTail⟩ := List.cons.inj hSplit
          have hDone := ih hNext hAfter hRest hTail
          rw [List.append_assoc] at hDone
          exact hDone

end Service

end IcpHandler

------------------------------------------------------------
-- The Fleet's Limit
------------------------------------------------------------

namespace IcpHandler

namespace Service

open Data.ExpiringCounters
open Model

/- A call of the window that its limit has let through. -/
def LetThrough
    (call : FleetCall)
    (entry : FleetCall × Except String RateLimitDecision) :
    Prop :=
  entry.1.SameWindow call ∧ entry.1.capacity ≠ 0 ∧
    entry.2.toOption.any RateLimitDecision.isAllowed

instance
    (call : FleetCall)
    (entry : FleetCall × Except String RateLimitDecision) :
    Decidable (LetThrough call entry) :=
  inferInstanceAs (Decidable (_ ∧ _ ∧ _))

/-
  What the fleet's answers amount to: every call is answered
  as its window's only counter would have it, so no window
  lets through more than its capacity; and who is refused
  comes into the next window by waiting as long as he is told.
-/
structure FleetLimited
    (calls : List FleetCall)
    (answers :
      List (FleetCall × Except String RateLimitDecision)) :
    Prop where
  answered :
    answers.map Prod.fst = calls ∧
      ∀ earlier entry later,
        answers = earlier ++ entry :: later →
        FleetAnswer (earlier.map Prod.fst) entry.1 entry.2
  bounded :
    ∀ call limit,
      (∀ other ∈ calls, other.SameWindow call →
        other.capacity.toNat ≤ limit) →
      (answers.countP fun entry => LetThrough call entry) ≤
        limit
  retry :
    ∀ entry ∈ answers, ∀ limit seconds clock,
      entry.2 = .ok (.denied limit seconds) →
      entry.1.clock + 1000 * seconds ≤ clock →
      entry.1.windowIndex <
        entry.1.limiter.windowIndex (clock / 1000)

variable {S : Type}
variable {redis : Redis S} {sha256 : Bytes → Bytes}

theorem map_fst_fleetAnswers
    (s : S)
    (calls : List FleetCall) :
    (fleetAnswers redis sha256 s calls).map Prod.fst = calls := by
  induction calls generalizing s with
  | nil => rfl
  | cons call calls ih =>
      rw [fleetAnswers, List.map_cons, ih]

/- What a call that was let through says of the counter. -/
theorem counted_lt_of_letThrough
    {earlier : List FleetCall}
    {call : FleetCall}
    {entry : FleetCall × Except String RateLimitDecision}
    (hAnswer : FleetAnswer earlier entry.1 entry.2)
    (hThrough : LetThrough call entry) :
    entry.1.Executes ∧
      entry.1.counted earlier < entry.1.capacity.toNat := by
  obtain ⟨-, hCapacity, hAllowed⟩ := hThrough
  rcases entry with ⟨entry, error | decision⟩
  · cases hAllowed
  · cases decision with
    | denied limit seconds => cases hAllowed
    | allowed limit remaining seconds =>
        obtain ⟨-, hCounted⟩ := hAnswer
        obtain ⟨hTransit, hRemaining, -⟩ := hCounted hCapacity
        constructor
        · refine ⟨hCapacity, fun error hError => ?_⟩
          rw [hTransit] at hError
          cases hError
        · omega

/- The calls of a window are the same from all of them. -/
theorem counted_of_sameWindow
    {first second : FleetCall}
    (hSame : first.SameWindow second)
    (earlier : List FleetCall) :
    first.counted earlier = second.counted earlier := by
  obtain ⟨hPrefix, hBucket, hIndex⟩ := hSame
  apply List.countP_congr
  intro other _
  have hIff :
      other.SameWindow first ↔ other.SameWindow second := by
    unfold FleetCall.SameWindow
    rw [hPrefix, hBucket, hIndex]
  rw [decide_eq_true_eq, decide_eq_true_eq, hIff]

/-
  Answers of this kind let no window's calls through beyond
  its capacity. The calls let through are among the counted.
-/
theorem letThrough_le
    {answers :
      List (FleetCall × Except String RateLimitDecision)}
    (hAnswered :
      ∀ earlier entry later,
        answers = earlier ++ entry :: later →
        FleetAnswer (earlier.map Prod.fst) entry.1 entry.2)
    {call : FleetCall}
    {limit : Nat}
    (hLimit :
      ∀ other ∈ answers.map Prod.fst, other.SameWindow call →
        other.capacity.toNat ≤ limit) :
    (answers.countP fun entry => LetThrough call entry) ≤
        call.counted (answers.map Prod.fst) ∧
      (answers.countP fun entry => LetThrough call entry) ≤
        limit := by
  induction answers using List.reverseRecOn with
  | nil => exact ⟨Nat.zero_le _, Nat.zero_le _⟩
  | append_singleton answers entry ih =>
      have hEarlier :
          ∀ earlier entry later,
            answers = earlier ++ entry :: later →
            FleetAnswer (earlier.map Prod.fst) entry.1
              entry.2 := by
        intro earlier older later hSplit
        apply hAnswered earlier older (later ++ [entry])
        rw [hSplit, List.append_assoc, List.cons_append]
      rw [List.map_append] at hLimit ⊢
      obtain ⟨hCounted, hBound⟩ := ih hEarlier
        (fun other hOther =>
          hLimit other (List.mem_append_left _ hOther))
      have hPush :
          ∀ run : FleetCall,
            call.counted (answers.map Prod.fst ++ [run]) =
              call.counted (answers.map Prod.fst) +
                if run.Executes ∧ run.SameWindow call then 1
                else 0 := by
        intro run
        unfold FleetCall.counted
        rw [List.countP_append, List.countP_singleton]
        simp
      rw [List.map_singleton, List.countP_append,
        List.countP_singleton]
      by_cases hThrough : LetThrough call entry
      · obtain ⟨hRun, hLess⟩ :=
          counted_lt_of_letThrough
            (hAnswered answers entry [] rfl) hThrough
        have hCapacity :=
          hLimit entry.1
            (List.mem_append_right _ List.mem_cons_self)
            hThrough.1
        rw [counted_of_sameWindow hThrough.1] at hLess
        rw [hPush, if_pos (decide_eq_true hThrough),
          if_pos ⟨hRun, hThrough.1⟩]
        omega
      · rw [hPush, if_neg (by simpa using hThrough)]
        omega

/- Who waits for the reset is in a later window. -/
theorem windowIndex_lt_of_reset
    {limiter : RedisRateLimiter}
    {nowSecs later : Nat}
    (hLater : nowSecs + limiter.resetInSecs nowSecs ≤ later) :
    limiter.windowIndex nowSecs < limiter.windowIndex later := by
  unfold RedisRateLimiter.resetInSecs at hLater
  unfold RedisRateLimiter.windowIndex
  have hPos : 0 < limiter.windowSecs := by
    unfold RedisRateLimiter.windowSecs
    omega
  have hRest := Nat.mod_lt nowSecs hPos
  have hSplit := Nat.div_add_mod nowSecs limiter.windowSecs
  rw [Nat.lt_iff_add_one_le, Nat.le_div_iff_mul_le hPos]
  calc (nowSecs / limiter.windowSecs + 1) * limiter.windowSecs
      = limiter.windowSecs * (nowSecs / limiter.windowSecs) +
          limiter.windowSecs := by
        rw [Nat.add_mul, Nat.one_mul, Nat.mul_comm]
    _ ≤ later := by omega

/-
  However many processes share the server, and however their
  calls interleave, each bucket's window is limited once.
-/
theorem fleet_rate_limits_hold
    (hServer : redis.Lawful counterLimit)
    {calls : List FleetCall}
    (hInStep : InStep sha256 calls)
    {s : S}
    {start : Nat}
    (hStart :
      ∀ call ∈ calls, call.Executes → start ≤ call.executedAt)
    (hFresh :
      ∀ call ∈ calls,
        redis.entry s start
          (call.limiter.key sha256 call.bucketId
            call.windowIndex) = none) :
    FleetLimited calls (fleetAnswers redis sha256 s calls) := by
  have hCounts : Counts redis sha256 calls [] s start := by
    intro call hCall
    exact tracks_nil (hFresh call hCall)
  have hAnswered :
      ∀ earlier entry later,
        fleetAnswers redis sha256 s calls =
          earlier ++ entry :: later →
        FleetAnswer (earlier.map Prod.fst) entry.1 entry.2 := by
    intro earlier entry later hSplit
    have hAnswer :=
      answers_of_counts hServer hInStep rfl hCounts hStart
        hSplit
    rw [List.nil_append] at hAnswer
    exact hAnswer
  have hCalls :
      (fleetAnswers redis sha256 s calls).map Prod.fst =
        calls :=
    map_fst_fleetAnswers s calls
  refine ⟨⟨hCalls, hAnswered⟩, ?_, ?_⟩
  · intro call limit hLimit
    apply (letThrough_le hAnswered ?_).2
    rw [hCalls]
    exact hLimit
  · intro entry hEntry limit seconds clock hDenied hClock
    obtain ⟨earlier, later, hSplit⟩ :=
      List.append_of_mem hEntry
    have hAnswer := hAnswered earlier entry later hSplit
    rw [hDenied] at hAnswer
    obtain ⟨-, -, -, hSeconds⟩ := hAnswer
    unfold FleetCall.windowIndex
    apply windowIndex_lt_of_reset
    rw [← hSeconds]
    omega

/-
  Three calls of two processes whose clocks differ. The second
  one's reply is lost, and the third comes at the very end of
  the window.
-/
def sampleFleet : List FleetCall :=
  let limiter :=
    RedisRateLimiter.perMinute "icp:rate_limit:tenant" 300
  [⟨limiter, "acme", some 2, 60000, 60500, .answered⟩,
    ⟨limiter, "acme", some 2, 61000, 60700,
      .replyLost "broken pipe"⟩,
    ⟨limiter, "acme", some 2, 119999, 120400, .answered⟩]

theorem fleet_rate_limits_hold_sample :
    FleetLimited sampleFleet
      (fleetAnswers (mapServer counterLimit) id (fun _ => none)
        sampleFleet) := by
  have hStart :
      ∀ call ∈ sampleFleet, call.Executes →
        60000 ≤ call.executedAt := by
    decide
  exact fleet_rate_limits_hold (mapServer_lawful counterLimit)
    ⟨by decide, by decide, by decide, by decide, by decide⟩
    hStart (fun _ _ => rfl)

end Service

end IcpHandler
