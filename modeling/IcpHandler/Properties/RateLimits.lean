import Mathlib.Algebra.Order.Group.Nat
import Mathlib.Data.List.Induction
import IcpHandler.Data.CallWindows
import IcpHandler.Service.RateLimiter

/-
  What the rate limiter lets through. Each tenant is counted
  on its own, in windows that its own calls open; a bucket is
  all that is left of the calls of its window.

  Main declarations:
    * `Decides`, `Recalls`
    * `decides_charge`
    * `tenantAnswers`, `answered_tenant`
    * `RateLimited`, `rate_limits_hold`
    * `retry_after_suffices_iff`
-/

------------------------------------------------------------
-- One Bucket
------------------------------------------------------------

namespace IcpHandler

namespace Service

open Data

/- An answer, with the start of its window. -/
abbrev WindowAnswer := Nat × RateAnswer

/- The calls of a window that were allowed. -/
def allowedIn
    (start : Nat)
    (answers : List WindowAnswer) : Nat :=
  answers.countP fun entry =>
    entry.2.2.isAllowed && decide (entry.1 = start)

/-
  The answer that a window's earlier calls ask for: a call is
  allowed while they are fewer than the capacity.
-/
def Decides
    (capacity : UInt32)
    (earlier : List WindowAnswer)
    (start : Nat) : RateLimitDecision → Prop
  | .allowed limit remaining _ =>
      limit = capacity ∧
        remaining.toNat + (allowedIn start earlier + 1) =
          capacity.toNat
  | .denied limit _ =>
      limit = capacity ∧
        allowedIn start earlier = capacity.toNat

/- The bucket counts the allowed calls of the last window. -/
structure Recalls
    (window : Nat)
    (capacity : UInt32)
    (earlier : List WindowAnswer)
    (bucket : Bucket) : Prop where
  used :
    bucket.used.toNat = allowedIn bucket.windowStart earlier
  bounded : bucket.used.toNat ≤ capacity.toNat
  starts :
    ∀ entry ∈ earlier,
      entry.1 = bucket.windowStart ∨
        entry.1 + window ≤ bucket.windowStart

theorem allowedIn_append
    (start : Nat)
    (earlier later : List WindowAnswer) :
    allowedIn start (earlier ++ later) =
      allowedIn start earlier + allowedIn start later :=
  List.countP_append

theorem allowedIn_eq_zero
    {start : Nat}
    {answers : List WindowAnswer}
    (hNone : ∀ entry ∈ answers, entry.1 ≠ start) :
    allowedIn start answers = 0 := by
  unfold allowedIn
  rw [List.countP_eq_zero]
  intro entry hEntry hCounts
  rw [Bool.and_eq_true, decide_eq_true_eq] at hCounts
  exact hNone entry hEntry hCounts.2

variable {window : Nat} {capacity : UInt32}
variable {earlier : List WindowAnswer}

/- Rolling over opens the window of the call. -/
theorem rolled_windowStart
    (hWindow : 0 < window)
    (bucket : Bucket)
    (now : Nat) :
    (bucket.rolled window now).windowStart =
      CallWindows.opened window (some bucket.windowStart)
        now := by
  unfold Bucket.rolled CallWindows.opened
  dsimp only
  by_cases hOver : bucket.windowStart + window ≤ now
  · rw [if_pos (by omega), if_pos hOver]
  · rw [if_neg (by omega), if_neg hOver]

/- No earlier call is in a window that opens behind them. -/
theorem Recalls.rolled
    (hWindow : 0 < window)
    {bucket : Bucket}
    (hRecalls : Recalls window capacity earlier bucket)
    (now : Nat) :
    Recalls window capacity earlier
      (bucket.rolled window now) := by
  unfold Bucket.rolled
  split
  · rename_i hOver
    have hBehind :
        ∀ entry ∈ earlier, entry.1 + window ≤ now := by
      intro entry hEntry
      rcases hRecalls.starts entry hEntry with hSame | hBefore
      · omega
      · omega
    constructor
    · refine (allowedIn_eq_zero fun entry hEntry => ?_).symm
      have := hBehind entry hEntry
      dsimp only
      omega
    · exact Nat.zero_le _
    · exact fun entry hEntry => .inr (hBehind entry hEntry)
  · exact hRecalls

/- One more call of the window, counted if it is allowed. -/
theorem Recalls.push
    {bucket : Bucket}
    (hRecalls : Recalls window capacity earlier bucket)
    (call : RateCall)
    (decision : RateLimitDecision)
    {used : UInt32}
    (hUsed :
      used.toNat =
        bucket.used.toNat +
          (if decision.isAllowed = true then 1 else 0))
    (hBounded : used.toNat ≤ capacity.toNat) :
    Recalls window capacity
      (earlier ++ [(bucket.windowStart, (call, decision))])
      { bucket with used := used } := by
  constructor
  · have hOne :
        allowedIn bucket.windowStart
            [(bucket.windowStart, (call, decision))] =
          if decision.isAllowed = true then 1 else 0 := by
      simp [allowedIn, List.countP_singleton]
    rw [allowedIn_append, hOne, ← hRecalls.used]
    exact hUsed
  · exact hBounded
  · intro entry hEntry
    rcases List.mem_append.mp hEntry with hBefore | hLast
    · exact hRecalls.starts entry hBefore
    · exact .inl (by rw [List.mem_singleton.mp hLast])

/- A bucket is charged as the calls it recalls ask for. -/
theorem decides_charge
    (hWindow : 0 < window)
    {bucket : Bucket}
    (hRecalls : Recalls window capacity earlier bucket)
    (call : RateCall) :
    let start := CallWindows.opened window
      (some bucket.windowStart) call.now
    let charged := bucket.charge window capacity call.now
    Decides capacity earlier start charged.1 ∧
      charged.2.windowStart = start ∧
      Recalls window capacity
        (earlier ++ [(start, (call, charged.1))])
        charged.2 := by
  have hRolled := hRecalls.rolled hWindow call.now
  have hStart := rolled_windowStart hWindow bucket call.now
  dsimp only
  rw [← hStart]
  unfold Bucket.charge
  dsimp only
  generalize bucket.rolled window call.now = current at hRolled
  have hUsed := hRolled.used
  have hBounded := hRolled.bounded
  by_cases hFull : capacity ≤ current.used
  · have hLe := UInt32.le_iff_toNat_le.mp hFull
    rw [if_pos hFull]
    exact ⟨⟨rfl, by omega⟩, rfl,
      hRolled.push call _ (Nat.add_zero _).symm hBounded⟩
  · have hLess :=
      UInt32.lt_iff_toNat_lt.mp (UInt32.not_le.mp hFull)
    have hCounted :
        (Saturating.satAdd32 current.used 1).toNat =
          current.used.toNat + 1 := by
      refine Saturating.toNat_satAdd32 ?_
      exact Nat.lt_of_le_of_lt hLess capacity.toNat_lt
    rw [if_neg hFull]
    refine ⟨⟨rfl, ?_⟩, rfl, ?_⟩
    · rw [Saturating.toNat_satSub32, hCounted]
      omega
    · exact hRolled.push call _ hCounted
        (by rw [hCounted]; exact hLess)

end Service

end IcpHandler

------------------------------------------------------------
-- The Calls of a Tenant
------------------------------------------------------------

namespace IcpHandler

namespace Service

open Data

/- The bucket a call finds, or the one it opens. -/
def foundBucket (bucket : Option Bucket) (now : Nat) : Bucket :=
  bucket.getD { used := 0, windowStart := now }

/- The answers to the calls of one tenant. -/
def tenantAnswers
    (window : Nat)
    (capacity : UInt32) :
    Option Bucket → List RateCall → List RateAnswer
  | _, [] => []
  | bucket, call :: calls =>
      let charged :=
        (foundBucket bucket call.now).charge window capacity
          call.now
      (call, charged.1) ::
        tenantAnswers window capacity (some charged.2) calls

def ofTenant
    (tenant : String)
    (answers : List RateAnswer) : List RateAnswer :=
  answers.filter fun answer => answer.1.tenantId == tenant

section Tenant

variable {window : Nat} {capacity : UInt32}

theorem map_fst_tenantAnswers
    (bucket : Option Bucket)
    (calls : List RateCall) :
    (tenantAnswers window capacity bucket calls).map Prod.fst =
      calls := by
  induction calls generalizing bucket with
  | nil => rfl
  | cons call calls ih =>
      rw [tenantAnswers]
      exact congrArg (List.cons call) (ih _)

/- A call without a bucket opens its own window. -/
theorem opened_foundBucket
    (hWindow : 0 < window)
    (bucket : Option Bucket)
    (now : Nat) :
    CallWindows.opened window
        (some (foundBucket bucket now).windowStart) now =
      CallWindows.opened window
        (bucket.map Bucket.windowStart) now := by
  cases bucket with
  | some bucket => rfl
  | none =>
      unfold CallWindows.opened foundBucket
      dsimp only [Option.getD_none, Option.map_none]
      rw [if_neg (by omega)]

/- Every answer is what the earlier calls ask for. -/
theorem decides_tenantAnswers
    (hWindow : 0 < window)
    {bucket : Option Bucket}
    {earlier : List WindowAnswer}
    (hRecalls :
      ∀ now, Recalls window capacity earlier
        (foundBucket bucket now))
    {calls : List RateCall}
    {between later : List WindowAnswer}
    {entry : WindowAnswer}
    (hSplit :
      CallWindows.label window (fun answer => answer.1.now)
          (bucket.map Bucket.windowStart)
          (tenantAnswers window capacity bucket calls) =
        between ++ entry :: later) :
    Decides capacity (earlier ++ between) entry.1
      entry.2.2 := by
  induction calls generalizing bucket earlier between with
  | nil => simp [tenantAnswers, CallWindows.label] at hSplit
  | cons call calls ih =>
      obtain ⟨hDecides, hStart, hNext⟩ :=
        decides_charge hWindow (hRecalls call.now) call
      rw [opened_foundBucket hWindow] at hDecides hStart hNext
      rw [tenantAnswers, CallWindows.label] at hSplit
      dsimp only at hSplit
      cases between with
      | nil =>
          obtain ⟨rfl, -⟩ := List.cons.inj hSplit
          rw [List.append_nil]
          exact hDecides
      | cons first between =>
          obtain ⟨rfl, hRest⟩ := List.cons.inj hSplit
          rw [← hStart] at hRest
          rw [List.append_cons]
          exact @ih (some _) _ (fun _ => hNext) _ hRest

/- What the earlier calls ask for keeps to the capacity. -/
theorem allowedIn_le_of_decides
    {answers : List WindowAnswer}
    (hDecides :
      ∀ earlier entry later,
        answers = earlier ++ entry :: later →
          Decides capacity earlier entry.1 entry.2.2)
    (start : Nat) :
    allowedIn start answers ≤ capacity.toNat := by
  induction answers using List.reverseRecOn with
  | nil => exact Nat.zero_le _
  | append_singleton answers last ih =>
      have hBefore :=
        ih fun earlier entry later hSplit =>
          hDecides earlier entry (later ++ [last])
            (by rw [hSplit]; simp)
      have hLast := hDecides answers last [] rfl
      rcases last with ⟨own, call, decision⟩
      rw [allowedIn_append]
      cases decision with
      | denied limit secs =>
          simpa [allowedIn, RateLimitDecision.isAllowed]
            using hBefore
      | allowed limit remaining secs =>
          have hLess := hLast.2
          by_cases hSame : own = start
          · subst hSame
            simp only [allowedIn, RateLimitDecision.isAllowed,
              List.countP_singleton, decide_true,
              Bool.and_true, if_true] at hLess ⊢
            omega
          · simpa [allowedIn, hSame] using hBefore

end Tenant

end Service

end IcpHandler

------------------------------------------------------------
-- All Tenants
------------------------------------------------------------

namespace IcpHandler

namespace Service

open Data

/- The limiter with another bucket for the tenant. -/
def RateLimiter.withBucket
    (limiter : RateLimiter)
    (tenant : String)
    (bucket : Bucket) : RateLimiter :=
  { limiter with
    buckets := limiter.buckets.insert tenant bucket }

theorem lookup_withBucket
    (limiter : RateLimiter)
    (tenant other : String)
    (bucket : Bucket) :
    (limiter.withBucket tenant bucket).buckets.lookup other =
      if other = tenant then some bucket
      else limiter.buckets.lookup other := by
  unfold RateLimiter.withBucket
  dsimp only
  by_cases hOwn : other = tenant
  · subst hOwn
    rw [if_pos rfl, AList.lookup_insert]
  · rw [if_neg hOwn, AList.lookup_insert_ne hOwn]

/- Limiters that answer every call alike. -/
structure Alike (first second : RateLimiter) : Prop where
  window : first.window = second.window
  sound : first.poisoned = false
  sound' : second.poisoned = false
  buckets :
    ∀ tenant,
      first.buckets.lookup tenant = second.buckets.lookup tenant

theorem Alike.refl
    {limiter : RateLimiter}
    (hSound : limiter.poisoned = false) :
    Alike limiter limiter :=
  ⟨rfl, hSound, hSound, fun _ => rfl⟩

/- The limiter after some calls, each with its capacity. -/
def RateLimiter.afterCalls
    (limiter : RateLimiter) :
    List (RateCall × UInt32) → RateLimiter
  | [] => limiter
  | (call, limit) :: calls =>
      (limiter.checkAt call.tenantId limit
        call.now).2.afterCalls calls

def withCapacity
    (capacity : String → UInt32)
    (calls : List RateCall) : List (RateCall × UInt32) :=
  calls.map fun call => (call, capacity call.tenantId)

section Calls

variable {capacity : String → UInt32}
variable {limiter : RateLimiter}

theorem checkAt_of_sound
    (hSound : limiter.poisoned = false)
    (tenant : String)
    (limit : UInt32)
    (now : Nat) :
    limiter.checkAt tenant limit now =
      let charged :=
        (foundBucket (limiter.buckets.lookup tenant)
          now).charge limiter.window limit now
      (charged.1, limiter.withBucket tenant charged.2) := by
  unfold RateLimiter.checkAt
  rw [if_neg (by rw [hSound]; decide)]
  rfl

theorem map_fst_answered
    (limiter : RateLimiter)
    (calls : List RateCall) :
    (limiter.answered capacity calls).map Prod.fst = calls := by
  induction calls generalizing limiter with
  | nil => rfl
  | cons call calls ih =>
      rw [RateLimiter.answered]
      exact congrArg (List.cons call) (ih _)

theorem answered_append
    (limiter : RateLimiter)
    (earlier later : List RateCall) :
    limiter.answered capacity (earlier ++ later) =
      limiter.answered capacity earlier ++
        (limiter.afterCalls
          (withCapacity capacity earlier)).answered capacity
            later := by
  induction earlier generalizing limiter with
  | nil => rfl
  | cons call earlier ih =>
      exact congrArg (List.cons _) (ih _)

/- A call leaves the rest of the limiter alone. -/
theorem checkAt_rest
    (limiter : RateLimiter)
    (tenant : String)
    (limit : UInt32)
    (now : Nat) :
    let after := (limiter.checkAt tenant limit now).2
    after.window = limiter.window ∧
      after.poisoned = limiter.poisoned ∧
      ∀ other, other ≠ tenant →
        after.buckets.lookup other =
          limiter.buckets.lookup other := by
  unfold RateLimiter.checkAt
  split
  · exact ⟨rfl, rfl, fun other hOther =>
      AList.lookup_erase_ne hOther⟩
  · exact ⟨rfl, rfl, fun other hOther =>
      AList.lookup_insert_ne hOther⟩

/- So do calls of others. -/
theorem afterCalls_rest
    (limiter : RateLimiter)
    (tenant : String)
    {calls : List (RateCall × UInt32)}
    (hOthers : ∀ other ∈ calls, other.1.tenantId ≠ tenant) :
    let after := limiter.afterCalls calls
    after.window = limiter.window ∧
      after.poisoned = limiter.poisoned ∧
      after.buckets.lookup tenant =
        limiter.buckets.lookup tenant := by
  induction calls generalizing limiter with
  | nil => exact ⟨rfl, rfl, rfl⟩
  | cons first calls ih =>
      obtain ⟨hFirst, hRest⟩ := List.forall_mem_cons.mp hOthers
      obtain ⟨hWindow, hPoisoned, hLookup⟩ :=
        checkAt_rest limiter first.1.tenantId first.2
          first.1.now
      obtain ⟨hWindow', hPoisoned', hLookup'⟩ :=
        ih (limiter.checkAt first.1.tenantId first.2
          first.1.now).2 hRest
      exact ⟨hWindow'.trans hWindow,
        hPoisoned'.trans hPoisoned,
        hLookup'.trans (hLookup tenant hFirst.symm)⟩

theorem sound_afterCalls
    (hSound : limiter.poisoned = false)
    (calls : List (RateCall × UInt32)) :
    (limiter.afterCalls calls).poisoned = false := by
  induction calls generalizing limiter with
  | nil => exact hSound
  | cons first calls ih =>
      exact ih ((checkAt_rest limiter first.1.tenantId first.2
        first.1.now).2.1.trans hSound)

/- The answers to a tenant's calls depend on them only. -/
theorem answered_tenant
    (hSound : limiter.poisoned = false)
    (tenant : String)
    (calls : List RateCall) :
    ofTenant tenant (limiter.answered capacity calls) =
      tenantAnswers limiter.window (capacity tenant)
        (limiter.buckets.lookup tenant)
        (calls.filter (·.tenantId == tenant)) := by
  induction calls generalizing limiter with
  | nil => rfl
  | cons call calls ih =>
      rw [RateLimiter.answered, checkAt_of_sound hSound,
        List.filter_cons]
      unfold ofTenant at ih ⊢
      dsimp only
      rw [List.filter_cons]
      dsimp only
      by_cases hOwn : call.tenantId = tenant
      · subst hOwn
        rw [if_pos (beq_self_eq_true _),
          if_pos (beq_self_eq_true _), tenantAnswers]
        refine congrArg (List.cons _) ((ih ?_).trans ?_)
        · exact hSound
        · rw [lookup_withBucket, if_pos rfl]
          rfl
      · rw [if_neg (by simpa using hOwn),
          if_neg (by simpa using hOwn)]
        refine (ih ?_).trans ?_
        · exact hSound
        · rw [lookup_withBucket, if_neg (Ne.symm hOwn)]
          rfl

theorem answered_congr
    {first second : RateLimiter}
    (hAlike : Alike first second)
    (calls : List RateCall) :
    first.answered capacity calls =
      second.answered capacity calls := by
  induction calls generalizing first second with
  | nil => rfl
  | cons call calls ih =>
      rw [RateLimiter.answered, RateLimiter.answered,
        checkAt_of_sound hAlike.sound,
        checkAt_of_sound hAlike.sound', hAlike.window,
        hAlike.buckets]
      dsimp only
      refine congrArg (List.cons _) (ih ?_)
      constructor
      · exact hAlike.window
      · exact hAlike.sound
      · exact hAlike.sound'
      · intro tenant
        rw [lookup_withBucket, lookup_withBucket,
          hAlike.buckets]

/-
  A denied call has found a bucket that is full and still
  runs, and leaves it as it was.
-/
theorem denied_cases
    {found : Option Bucket}
    {window secs now : Nat}
    {capacity limit : UInt32}
    (hCapacity : 1 ≤ capacity)
    (hDenied :
      ((foundBucket found now).charge window capacity now).1 =
        .denied limit secs) :
    ∃ bucket, found = some bucket ∧
      now - bucket.windowStart < window ∧
      capacity ≤ bucket.used ∧
      ((foundBucket found now).charge window capacity now).2 =
        bucket ∧
      secs =
        max ((window - (now - bucket.windowStart)) /
          nanosPerSec) 1 := by
  have hPositive := UInt32.le_iff_toNat_le.mp hCapacity
  unfold Bucket.charge at hDenied ⊢
  dsimp only at hDenied ⊢
  by_cases hFull :
      capacity ≤ ((foundBucket found now).rolled window now).used
  · rw [if_pos hFull] at hDenied ⊢
    simp only [RateLimitDecision.denied.injEq] at hDenied
    have hUsed := UInt32.le_iff_toNat_le.mp hFull
    have hRuns :
        now - (foundBucket found now).windowStart < window := by
      by_contra hOver
      unfold Bucket.rolled at hUsed
      rw [if_pos (not_lt.mp hOver)] at hUsed
      exact Nat.not_succ_le_zero 0 (le_trans hPositive hUsed)
    have hSame :
        (foundBucket found now).rolled window now =
          foundBucket found now := by
      unfold Bucket.rolled
      rw [if_neg (not_le.mpr hRuns)]
    rw [hSame] at hFull hUsed hDenied ⊢
    cases found with
    | none =>
        exact (Nat.not_succ_le_zero 0
          (le_trans hPositive hUsed)).elim
    | some bucket =>
        exact ⟨bucket, rfl, hRuns, hFull, rfl, hDenied.2.symm⟩
  · rw [if_neg hFull] at hDenied
    cases hDenied

/- A denied call leaves a limiter that answers as before. -/
theorem alike_of_denied
    (hSound : limiter.poisoned = false)
    {tenant : String}
    {limit limit' : UInt32}
    {now secs : Nat}
    (hCapacity : 1 ≤ limit)
    (hDenied :
      (limiter.checkAt tenant limit now).1 =
        .denied limit' secs) :
    Alike (limiter.checkAt tenant limit now).2 limiter := by
  rw [checkAt_of_sound hSound] at hDenied ⊢
  obtain ⟨bucket, hFound, -, -, hSame, -⟩ :=
    denied_cases hCapacity hDenied
  constructor
  · rfl
  · exact hSound
  · exact hSound
  · intro other
    dsimp only
    rw [hSame, lookup_withBucket]
    by_cases hOwn : other = tenant
    · rw [if_pos hOwn, hOwn, hFound]
    · rw [if_neg hOwn]

end Calls

end Service

end IcpHandler

------------------------------------------------------------
-- Limits
------------------------------------------------------------

namespace IcpHandler

namespace Service

open Data

/- A tenant's answers, each with the start of its window. -/
def windowsOf
    (window : Nat)
    (tenant : String)
    (answers : List RateAnswer) : List WindowAnswer :=
  CallWindows.label window (fun answer => answer.1.now) none
    (ofTenant tenant answers)

/- What the limiter owes its tenants, on a list of calls. -/
structure RateLimited
    (limiter : RateLimiter)
    (capacity : String → UInt32)
    (calls : List RateCall) : Prop where
  perWindow :
    ∀ tenant start,
      allowedIn start (windowsOf limiter.window tenant
        (limiter.answered capacity calls)) ≤
          (capacity tenant).toNat
  perInterval :
    ∀ tenant left,
      (ofTenant tenant
        (limiter.answered capacity calls)).countP (fun answer =>
          answer.2.isAllowed &&
            decide (CallWindows.During limiter.window left
              answer.1.now)) ≤
        2 * (capacity tenant).toNat
  remaining :
    ∀ tenant earlier start call limit remaining reset later,
      windowsOf limiter.window tenant
          (limiter.answered capacity calls) =
        earlier ++
          (start, (call, .allowed limit remaining reset)) ::
            later →
      remaining.toNat + (allowedIn start earlier + 1) =
        (capacity tenant).toNat
  denied :
    ∀ earlier call later limit secs,
      calls = earlier ++ call :: later →
      (limiter.answered capacity calls)[earlier.length]? =
          some (call, .denied limit secs) →
      limiter.answered capacity (earlier ++ later) =
        (limiter.answered capacity calls).eraseIdx
          earlier.length
  alone :
    ∀ tenant,
      ofTenant tenant (limiter.answered capacity calls) =
        limiter.answered capacity
          (calls.filter (·.tenantId == tenant))

section Limits

variable {capacity : String → UInt32}
variable {limiter : RateLimiter}
variable {calls : List RateCall}

theorem decides_windowsOf
    (hWindow : 0 < limiter.window)
    (hSound : limiter.poisoned = false)
    (hNew : limiter.buckets = ∅)
    (tenant : String)
    {earlier later : List WindowAnswer}
    {entry : WindowAnswer}
    (hSplit :
      windowsOf limiter.window tenant
          (limiter.answered capacity calls) =
        earlier ++ entry :: later) :
    Decides (capacity tenant) earlier entry.1 entry.2.2 := by
  unfold windowsOf at hSplit
  rw [answered_tenant hSound, hNew, AList.lookup_empty]
    at hSplit
  have hRecalls :
      ∀ now, Recalls limiter.window (capacity tenant) []
        (foundBucket none now) :=
    fun now => ⟨rfl, Nat.zero_le _, fun _ hMem => nomatch hMem⟩
  exact @decides_tenantAnswers _ _ hWindow none _ hRecalls _ _ _
    _ hSplit

/- The answers of a tenant are in the order of their times. -/
theorem sorted_ofTenant
    (hTimes :
      calls.Pairwise fun older newer => older.now ≤ newer.now)
    (tenant : String) :
    (ofTenant tenant (limiter.answered capacity calls)).Pairwise
      fun older newer => older.1.now ≤ newer.1.now := by
  refine List.Pairwise.filter _ ?_
  rw [← map_fst_answered limiter calls, List.pairwise_map]
    at hTimes
  exact hTimes

/- Taking a denied call out takes out its answer only. -/
theorem answered_without_denied
    (hSound : limiter.poisoned = false)
    (hCapacity : ∀ tenant, 1 ≤ capacity tenant)
    (earlier later : List RateCall)
    (call : RateCall)
    {limit : UInt32}
    {secs : Nat}
    (hDenied :
      (limiter.answered capacity
          (earlier ++ call :: later))[earlier.length]? =
        some (call, .denied limit secs)) :
    limiter.answered capacity (earlier ++ later) =
      (limiter.answered capacity
        (earlier ++ call :: later)).eraseIdx
          earlier.length := by
  have hLength :
      (limiter.answered capacity earlier).length =
        earlier.length := by
    rw [← List.length_map Prod.fst, map_fst_answered]
  rw [answered_append, RateLimiter.answered,
    List.getElem?_append_right (le_of_eq hLength), hLength,
    Nat.sub_self, List.getElem?_cons_zero, Option.some.injEq,
    Prod.mk.injEq] at hDenied
  have hAlike :=
    alike_of_denied (sound_afterCalls hSound _)
      (hCapacity call.tenantId) hDenied.2
  rw [answered_append, answered_append, RateLimiter.answered,
    List.eraseIdx_append_of_length_le (le_of_eq hLength),
    hLength, Nat.sub_self, List.eraseIdx_cons_zero,
    answered_congr hAlike]

/- A limiter without buckets keeps to all the limits. -/
theorem rateLimited_of_empty
    (hWindow : 0 < limiter.window)
    (hSound : limiter.poisoned = false)
    (hNew : limiter.buckets = ∅)
    (hCapacity : ∀ tenant, 1 ≤ capacity tenant)
    (hTimes :
      calls.Pairwise fun older newer => older.now ≤ newer.now) :
    RateLimited limiter capacity calls := by
  have hPerWindow :
      ∀ tenant start,
        allowedIn start (windowsOf limiter.window tenant
          (limiter.answered capacity calls)) ≤
            (capacity tenant).toNat :=
    fun tenant start =>
      allowedIn_le_of_decides
        (fun _ _ _ hSplit =>
          decides_windowsOf hWindow hSound hNew tenant hSplit)
        start
  constructor
  · exact hPerWindow
  · intro tenant left
    have hWindowed :
        CallWindows.Windowed limiter.window _
          (windowsOf limiter.window tenant
            (limiter.answered capacity calls)) :=
      CallWindows.windowed_label hWindow
        (sorted_ofTenant hTimes tenant)
    have hInterval :=
      @CallWindows.Windowed.countP_interval_le _ _ _ _ _ _ _ _
        hWindowed (fun answer => answer.2.isAllowed) _
        (hPerWindow tenant) left
    have hSame :=
      CallWindows.map_snd_label limiter.window
        (fun answer : RateAnswer => answer.1.now) none
        (ofTenant tenant (limiter.answered capacity calls))
    rw [← hSame, List.countP_map]
    exact hInterval
  · intro tenant earlier start call limit remaining reset later
      hSplit
    exact (decides_windowsOf hWindow hSound hNew tenant
      hSplit).2
  · rintro earlier call later limit secs rfl hDenied
    exact answered_without_denied hSound hCapacity earlier later
      call hDenied
  · intro tenant
    have hAll :
        ofTenant tenant (limiter.answered capacity
            (calls.filter (·.tenantId == tenant))) =
          limiter.answered capacity
            (calls.filter (·.tenantId == tenant)) := by
      refine List.filter_eq_self.mpr fun answer hAnswer => ?_
      have hCall := List.mem_map_of_mem (f := Prod.fst) hAnswer
      rw [map_fst_answered] at hCall
      exact (List.mem_filter.mp hCall).2
    rw [← hAll, answered_tenant hSound, answered_tenant hSound,
      List.filter_filter]
    simp only [Bool.and_self]

end Limits

/-
  A new limiter keeps each tenant to its capacity in each of
  the windows that the tenant's calls open, and to twice that
  in any interval of a window's length. It says exactly what
  is left, forgets denied calls and keeps tenants apart.
-/
theorem rate_limits_hold
    (defaultCapacity : UInt32)
    (window : Nat)
    (hWindow : 0 < window)
    (capacity : String → UInt32)
    (hCapacity : ∀ tenant, 1 ≤ capacity tenant)
    (calls : List RateCall)
    (hTimes :
      calls.Pairwise fun older newer => older.now ≤ newer.now) :
    RateLimited (.new defaultCapacity window) capacity
      calls :=
  rateLimited_of_empty hWindow rfl rfl hCapacity hTimes

/- Two windows of one tenant, and a call of another. -/
private def sampleCalls : List RateCall :=
  [⟨"a", 0⟩, ⟨"a", 1⟩, ⟨"b", 1⟩, ⟨"a", 9⟩, ⟨"a", 10⟩, ⟨"a", 11⟩]

theorem rate_limits_hold_sample :
    RateLimited (.new 1 10) (fun _ => 2) sampleCalls ∧
      ((RateLimiter.new 1 10).answered (fun _ => 2)
        sampleCalls).map (·.2.isAllowed) =
        [true, true, true, false, true, true] :=
  ⟨rate_limits_hold 1 10 (by decide) (fun _ => 2)
    (fun _ => by decide) sampleCalls (by decide),
    by decide⟩

end Service

end IcpHandler

------------------------------------------------------------
-- After a Denial
------------------------------------------------------------

namespace IcpHandler

namespace Service

/- How far a bucket's window reaches beyond an instant. -/
def Bucket.left
    (window now : Nat)
    (bucket : Bucket) : Nat :=
  bucket.windowStart + window - now

/-
  The window ends within a second, or after whole seconds of
  it that the limiter can see.
-/
def Bucket.EndsOnSecond
    (window now : Nat)
    (bucket : Bucket) : Prop :=
  bucket.left window now ≤ nanosPerSec ∨
    bucket.windowStart ≤ now ∧
      nanosPerSec ∣ bucket.left window now

/- A tenant that only has to wait, and can be told how long. -/
def RetrySuffices
    (limiter : RateLimiter)
    (tenant : String)
    (capacity : UInt32)
    (now : Nat) : Prop :=
  limiter.poisoned = false ∧ 1 ≤ capacity ∧
    ∃ bucket, limiter.buckets.lookup tenant = some bucket ∧
      bucket.EndsOnSecond limiter.window now

/- Whole seconds reach the end only if it is on one of them. -/
theorem retry_reaches_iff
    {start now window : Nat}
    (hRuns : now - start < window) :
    window ≤
        now +
          max ((window - (now - start)) / nanosPerSec) 1 *
            nanosPerSec - start ↔
      start + window - now ≤ nanosPerSec ∨
        start ≤ now ∧ nanosPerSec ∣ start + window - now := by
  unfold nanosPerSec
  omega

/- A full bucket lets a call through once its window is over. -/
theorem allowed_iff_over
    {window now : Nat}
    {capacity : UInt32}
    {bucket : Bucket}
    (hCapacity : 1 ≤ capacity)
    (hFull : capacity ≤ bucket.used) :
    (bucket.charge window capacity now).1.isAllowed = true ↔
      window ≤ now - bucket.windowStart := by
  have hPositive := UInt32.le_iff_toNat_le.mp hCapacity
  unfold Bucket.charge Bucket.rolled
  dsimp only
  by_cases hOver : window ≤ now - bucket.windowStart
  · have hRoom : ¬ capacity ≤ 0 := fun hNone =>
      Nat.not_succ_le_zero 0
        (le_trans hPositive (UInt32.le_iff_toNat_le.mp hNone))
    rw [if_pos hOver, if_neg hRoom]
    exact ⟨fun _ => hOver, fun _ => rfl⟩
  · rw [if_neg hOver, if_pos hFull]
    exact ⟨fun hNo => (Bool.false_ne_true hNo).elim,
      fun hNo => (hOver hNo).elim⟩

/- A poisoned limiter and a capacity of none deny everything. -/
theorem not_allowed_of_shut
    {limiter : RateLimiter}
    {capacity : UInt32}
    (hShut : limiter.poisoned = true ∨ ¬ 1 ≤ capacity)
    (tenant : String)
    (now : Nat) :
    (limiter.checkAt tenant capacity now).1.isAllowed =
      false := by
  unfold RateLimiter.checkAt
  by_cases hPoisoned : limiter.poisoned = true
  · rw [if_pos hPoisoned]
    rfl
  · have hNone : ¬ 1 ≤ capacity := hShut.resolve_left hPoisoned
    have hFull :
        ∀ used : UInt32, capacity ≤ used := by
      intro used
      rw [UInt32.le_iff_toNat_le] at hNone ⊢
      have hOne : (1 : UInt32).toNat = 1 := rfl
      omega
    rw [if_neg hPoisoned]
    unfold Bucket.charge
    dsimp only
    rw [if_pos (hFull _)]
    rfl

/-
  A denied tenant that waits as long as it is told gets
  through exactly if its window ends within a second, or on a
  whole second of the wait.
-/
theorem retry_after_suffices_iff
    (limiter : RateLimiter)
    (tenant : String)
    (capacity limit : UInt32)
    (now secs : Nat)
    (hDenied :
      (limiter.checkAt tenant capacity now).1 =
        .denied limit secs)
    (others : List (RateCall × UInt32))
    (hOthers : ∀ other ∈ others, other.1.tenantId ≠ tenant) :
    (((limiter.checkAt tenant capacity now).2.afterCalls
        others).checkAt tenant capacity
          (now + secs * nanosPerSec)).1.isAllowed = true ↔
      RetrySuffices limiter tenant capacity now := by
  obtain ⟨hWindow, hPoisoned, hLookup⟩ :=
    afterCalls_rest (limiter.checkAt tenant capacity now).2
      tenant hOthers
  have hRest := checkAt_rest limiter tenant capacity now
  rw [hRest.1] at hWindow
  rw [hRest.2.1] at hPoisoned
  by_cases hShut : limiter.poisoned = true ∨ ¬ 1 ≤ capacity
  · rw [← hPoisoned] at hShut
    rw [not_allowed_of_shut hShut]
    rw [hPoisoned] at hShut
    refine ⟨fun hNo => (Bool.false_ne_true hNo).elim, ?_⟩
    rintro ⟨hSound, hCapacity, -⟩
    rcases hShut with hBad | hNone
    · rw [hSound] at hBad
      cases hBad
    · exact absurd hCapacity hNone
  · rw [not_or, Bool.not_eq_true, not_not] at hShut
    obtain ⟨hSound, hCapacity⟩ := hShut
    have hAlike := alike_of_denied hSound hCapacity hDenied
    rw [hAlike.buckets] at hLookup
    rw [checkAt_of_sound hSound] at hDenied
    obtain ⟨bucket, hFound, hRuns, hFull, -, rfl⟩ :=
      denied_cases hCapacity hDenied
    rw [checkAt_of_sound (hPoisoned.trans hSound), hLookup,
      hWindow, hFound]
    refine (allowed_iff_over hCapacity hFull).trans
      ((retry_reaches_iff hRuns).trans ?_)
    constructor
    · exact fun hEnds =>
        ⟨hSound, hCapacity, bucket, hFound, hEnds⟩
    · rintro ⟨-, -, other, hOther, hEnds⟩
      rw [hFound, Option.some.injEq] at hOther
      subst hOther
      exact hEnds

/- A limiter of one call a minute, after its first call. -/
private def minuteLimiter : RateLimiter :=
  ((RateLimiter.new 1 (60 * nanosPerSec)).checkAt "a" 1 0).2

/- The last half second of a window is cut off. -/
theorem retry_after_too_soon :
    ¬ ∀ (limiter : RateLimiter) (tenant : String)
        (capacity limit : UInt32) (now secs : Nat),
      (limiter.checkAt tenant capacity now).1 =
          .denied limit secs →
        ((limiter.checkAt tenant capacity now).2.checkAt tenant
            capacity (now + secs * nanosPerSec)).1.isAllowed =
          true := by
  intro hAll
  have hAgain :=
    hAll minuteLimiter "a" 1 1 (nanosPerSec / 2) 59
      (by decide)
  exact absurd hAgain (by decide)

theorem retry_after_suffices_iff_sample :
    ((((minuteLimiter.checkAt "a" 1 nanosPerSec).2.afterCalls
        [(⟨"b", nanosPerSec⟩, 5)]).checkAt "a" 1
          (nanosPerSec + 59 * nanosPerSec)).1.isAllowed =
        true ↔
      RetrySuffices minuteLimiter "a" 1 nanosPerSec) ∧
    RetrySuffices minuteLimiter "a" 1 nanosPerSec :=
  ⟨retry_after_suffices_iff minuteLimiter "a" 1 1 nanosPerSec 59
    (by decide) [(⟨"b", nanosPerSec⟩, 5)]
    (by decide),
    rfl, by decide, ⟨1, 0⟩, by decide,
    .inr ⟨by decide, ⟨59, by decide⟩⟩⟩

end Service

end IcpHandler
