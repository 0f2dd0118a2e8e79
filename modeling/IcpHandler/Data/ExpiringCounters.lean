import Mathlib.Algebra.Order.Group.Int
import Mathlib.Data.Int.ConditionallyCompleteOrder
import Mathlib.Logic.Function.Basic

/-
  Counters on a server that forgets them. A counter that has a
  deadline is kept until then; counting it up leaves the
  deadline alone. The first use of a key gives its counter a
  lease, so the uses that come within that lease are counted
  one after the other.

  Main declarations:
    * `CounterServer`, `CounterServer.Lawful`
    * `countUse`
    * `Tracks`
    * `tracks_countUse`, `tracks_countUse_other`
    * `mapServer`, `mapServer_lawful`
-/

------------------------------------------------------------
-- Servers of Counters
------------------------------------------------------------

namespace IcpHandler

namespace Data

namespace ExpiringCounters

/- A counter, and the instant at which it is forgotten. -/
structure Counter where
  value : Int
  deadline : Option Nat
  deriving DecidableEq

/-
  A server of counters. Instants are in milliseconds of the
  server's own clock, lifetimes in seconds.
-/
structure CounterServer (S K : Type) where
  -- the counter under a key, as it is at an instant
  entry : S → Nat → K → Option Counter
  incrBy : S → Nat → K → Int → Except String Int × S
  expire : S → Nat → K → Int → S

namespace CounterServer

variable {S K : Type}

/- The value under a key, which is 0 where there is none. -/
def valueAt
    (server : CounterServer S K)
    (s : S)
    (now : Nat)
    (key : K) : Int :=
  ((server.entry s now key).map Counter.value).getD 0

/- The deadline of the counter under a key. -/
def deadlineAt
    (server : CounterServer S K)
    (s : S)
    (now : Nat)
    (key : K) : Option Nat :=
  (server.entry s now key).bind Counter.deadline

/-
  What the server promises. Values are bounded by the limit,
  and an increment beyond it is an error without an effect.
-/
structure Lawful
    (server : CounterServer S K)
    (limit : Int) : Prop where
  stays :
    ∀ {s now later key counter},
      now ≤ later →
      server.entry s now key = some counter →
      (∀ deadline, counter.deadline = some deadline →
        later < deadline) →
      server.entry s later key = some counter
  absent :
    ∀ {s now later key},
      now ≤ later →
      server.entry s now key = none →
      server.entry s later key = none
  incr_answer :
    ∀ {s now key amount},
      server.valueAt s now key + amount ≤ limit →
      (server.incrBy s now key amount).1 =
        .ok (server.valueAt s now key + amount)
  incr_entry :
    ∀ {s now key amount},
      server.valueAt s now key + amount ≤ limit →
      server.entry (server.incrBy s now key amount).2 now key =
        some ⟨server.valueAt s now key + amount,
          server.deadlineAt s now key⟩
  incr_over :
    ∀ {s now key amount},
      limit < server.valueAt s now key + amount →
      (∃ error,
          (server.incrBy s now key amount).1 = .error error) ∧
        server.entry (server.incrBy s now key amount).2 now key =
          server.entry s now key
  incr_other :
    ∀ {s now key amount other},
      other ≠ key →
      server.entry (server.incrBy s now key amount).2 now other =
        server.entry s now other
  expire_entry :
    ∀ {s now key} {seconds : Int} {counter},
      0 < seconds →
      server.entry s now key = some counter →
      server.entry (server.expire s now key seconds) now key =
        some { counter with
          deadline := some (now + 1000 * seconds.toNat) }
  expire_other :
    ∀ {s now key seconds other},
      other ≠ key →
      server.entry (server.expire s now key seconds) now
          other =
        server.entry s now other

end CounterServer

/-
  Count one use of a key. The use that makes the counter gives
  it its lifetime.
-/
def countUse
    {S K : Type}
    (server : CounterServer S K)
    (lease : Int)
    (now : Nat)
    (key : K)
    (s : S) : Except String Int × S :=
  match server.incrBy s now key 1 with
  | (.error error, s) => (.error error, s)
  | (.ok current, s) =>
      if current = 1 then
        (.ok current, server.expire s now key lease)
      else (.ok current, s)

/- A count that the server refuses. -/
theorem countUse_of_error
    {S K : Type}
    {server : CounterServer S K}
    {now : Nat}
    {key : K}
    {s : S}
    {error : String}
    (hError : (server.incrBy s now key 1).1 = .error error)
    (lease : Int) :
    countUse server lease now key s =
      (.error error, (server.incrBy s now key 1).2) := by
  unfold countUse
  split
  · rename_i other after hIncr
    rw [hIncr] at hError ⊢
    cases hError
    rfl
  · rename_i current after hIncr
    rw [hIncr] at hError
    cases hError

/- A count that the server makes. -/
theorem countUse_of_ok
    {S K : Type}
    {server : CounterServer S K}
    {now : Nat}
    {key : K}
    {s : S}
    {current : Int}
    (hOk : (server.incrBy s now key 1).1 = .ok current)
    (lease : Int) :
    countUse server lease now key s =
      (.ok current,
        if current = 1 then
          server.expire (server.incrBy s now key 1).2 now key
            lease
        else (server.incrBy s now key 1).2) := by
  unfold countUse
  split
  · rename_i other after hIncr
    rw [hIncr] at hOk
    cases hOk
  · rename_i counted after hIncr
    rw [hIncr] at hOk ⊢
    cases hOk
    split
    · rfl
    · rfl

/- A use of another key is nothing to this one. -/
theorem countUse_other
    {S K : Type}
    {server : CounterServer S K}
    {limit : Int}
    (hServer : server.Lawful limit)
    {lease : Int}
    {now : Nat}
    {key other : K}
    (hOther : other ≠ key)
    (s : S) :
    server.entry (countUse server lease now key s).2 now other =
      server.entry s now other := by
  have hIncr :
      server.entry (server.incrBy s now key 1).2 now other =
        server.entry s now other :=
    hServer.incr_other hOther
  cases hAnswer : (server.incrBy s now key 1).1 with
  | error error =>
      rw [countUse_of_error hAnswer]
      exact hIncr
  | ok current =>
      rw [countUse_of_ok hAnswer]
      dsimp only
      split
      · exact (hServer.expire_other hOther).trans hIncr
      · exact hIncr

end ExpiringCounters

end Data

end IcpHandler

------------------------------------------------------------
-- Uses of a Key
------------------------------------------------------------

namespace IcpHandler

namespace Data

namespace ExpiringCounters

variable {K : Type} [DecidableEq K]

/- One use of a key, with the lease it would start. -/
structure Use (K : Type) where
  key : K
  now : Nat
  lease : Int

/- When the counter is forgotten that this use has made. -/
def Use.until (use : Use K) : Nat :=
  use.now + 1000 * use.lease.toNat

/- How often a key has been used. -/
def countOf (key : K) (past : List (Use K)) : Nat :=
  past.countP fun use => use.key = key

/- The first use of a key in a past, most recent first. -/
def firstUse (key : K) : List (Use K) → Option (Use K)
  | [] => none
  | use :: past =>
      match firstUse key past with
      | some first => some first
      | none => if use.key = key then some use else none

theorem firstUse_cons_of_some
    {key : K}
    {past : List (Use K)}
    {first : Use K}
    (hFirst : firstUse key past = some first)
    (use : Use K) :
    firstUse key (use :: past) = some first := by
  rw [firstUse, hFirst]

theorem firstUse_cons_of_none
    {key : K}
    {past : List (Use K)}
    (hFirst : firstUse key past = none)
    (use : Use K) :
    firstUse key (use :: past) =
      if use.key = key then some use else none := by
  rw [firstUse, hFirst]

/- The first use is one of the uses of the key. -/
theorem mem_of_firstUse
    {key : K}
    {past : List (Use K)}
    {first : Use K}
    (hFirst : firstUse key past = some first) :
    first ∈ past ∧ first.key = key := by
  induction past with
  | nil => cases hFirst
  | cons use past ih =>
      cases hPast : firstUse key past with
      | some older =>
          rw [firstUse_cons_of_some hPast] at hFirst
          cases hFirst
          obtain ⟨hMem, hKey⟩ := ih hPast
          exact ⟨List.mem_cons_of_mem _ hMem, hKey⟩
      | none =>
          rw [firstUse_cons_of_none hPast] at hFirst
          split at hFirst
          · rename_i hKey
            cases hFirst
            exact ⟨List.mem_cons_self, hKey⟩
          · cases hFirst

/- A key without a first use has not been used. -/
theorem countOf_of_firstUse_none
    {key : K}
    {past : List (Use K)}
    (hFirst : firstUse key past = none) :
    countOf key past = 0 := by
  induction past with
  | nil => rfl
  | cons use past ih =>
      cases hPast : firstUse key past with
      | some older =>
          rw [firstUse_cons_of_some hPast] at hFirst
          cases hFirst
      | none =>
          rw [firstUse_cons_of_none hPast] at hFirst
          split at hFirst
          · cases hFirst
          · rename_i hKey
            have hNone := ih hPast
            unfold countOf at hNone ⊢
            simp [hKey, hNone]

theorem countOf_cons_self
    {key : K}
    {use : Use K}
    (hKey : use.key = key)
    (past : List (Use K)) :
    countOf key (use :: past) = countOf key past + 1 := by
  simp [countOf, hKey]

theorem countOf_cons_other
    {key : K}
    {use : Use K}
    (hKey : use.key ≠ key)
    (past : List (Use K)) :
    countOf key (use :: past) = countOf key past := by
  simp [countOf, hKey]

theorem countOf_pos
    {key : K}
    {past : List (Use K)}
    {first : Use K}
    (hFirst : firstUse key past = some first) :
    0 < countOf key past := by
  obtain ⟨hMem, hKey⟩ := mem_of_firstUse hFirst
  apply List.countP_pos_iff.mpr
  exact ⟨first, hMem, decide_eq_true hKey⟩

end ExpiringCounters

end Data

end IcpHandler

------------------------------------------------------------
-- Counting within a Lease
------------------------------------------------------------

namespace IcpHandler

namespace Data

namespace ExpiringCounters

variable {S K : Type} [DecidableEq K]
variable {server : CounterServer S K} {limit : Int}

/-
  What the server holds under a key after some uses: nothing
  before the first of them, and until its lease is over the
  number of them.
-/
def Tracks
    (server : CounterServer S K)
    (limit : Int)
    (key : K)
    (past : List (Use K))
    (s : S)
    (now : Nat) : Prop :=
  match firstUse key past with
  | none => server.entry s now key = none
  | some first =>
      now < first.until →
        server.entry s now key =
          some ⟨min (countOf key past : Int) limit,
            some first.until⟩

/- The use comes before the counter of its key is forgotten. -/
def Timely (past : List (Use K)) (use : Use K) : Prop :=
  ∀ first, firstUse use.key past = some first →
    use.now < first.until

/- The answer to a use that some uses of its key precede. -/
def AnswersUse
    (limit : Int)
    (earlier : Nat) : Except String Int → Prop
  | .ok current => current = earlier + 1 ∧ current ≤ limit
  | .error _ => limit ≤ earlier

theorem tracks_nil
    {key : K}
    {s : S}
    {now : Nat}
    (hFresh : server.entry s now key = none) :
    Tracks server limit key [] s now :=
  hFresh

/- Time alone does not change what is tracked. -/
theorem Tracks.later
    (hServer : server.Lawful limit)
    {key : K}
    {past : List (Use K)}
    {s : S}
    {now later : Nat}
    (hTracks : Tracks server limit key past s now)
    (hLater : now ≤ later) :
    Tracks server limit key past s later := by
  unfold Tracks at hTracks ⊢
  cases hFirst : firstUse key past with
  | none =>
      rw [hFirst] at hTracks
      exact hServer.absent hLater hTracks
  | some first =>
      rw [hFirst] at hTracks
      intro hBefore
      apply hServer.stays hLater
        (hTracks (lt_of_le_of_lt hLater hBefore))
      intro deadline hDeadline
      cases hDeadline
      exact hBefore

theorem tracks_countUse_other
    (hServer : server.Lawful limit)
    {key : K}
    {past : List (Use K)}
    {s : S}
    {now : Nat}
    {use : Use K}
    (hTracks : Tracks server limit key past s now)
    (hLater : now ≤ use.now)
    (hOther : use.key ≠ key) :
    Tracks server limit key (use :: past)
      (countUse server use.lease use.now use.key s).2
      use.now := by
  have hNow := hTracks.later hServer hLater
  have hSame :
      server.entry
          (countUse server use.lease use.now use.key s).2
          use.now key =
        server.entry s use.now key :=
    countUse_other hServer hOther.symm s
  unfold Tracks at hNow ⊢
  rw [hSame, countOf_cons_other hOther]
  cases hFirst : firstUse key past with
  | none =>
      rw [hFirst] at hNow
      rw [firstUse_cons_of_none hFirst, if_neg hOther]
      exact hNow
  | some first =>
      rw [hFirst] at hNow
      rw [firstUse_cons_of_some hFirst]
      exact hNow

/-
  The first use of a key makes its counter, which the server
  keeps for the use's lease.
-/
theorem tracks_countUse_first
    (hServer : server.Lawful limit)
    (hLimit : 1 ≤ limit)
    {past : List (Use K)}
    {s : S}
    {use : Use K}
    (hLease : 0 < use.lease)
    (hFirst : firstUse use.key past = none)
    (hFresh : server.entry s use.now use.key = none) :
    (countUse server use.lease use.now use.key s).1 = .ok 1 ∧
      Tracks server limit use.key (use :: past)
        (countUse server use.lease use.now use.key s).2
        use.now := by
  have hValue : server.valueAt s use.now use.key = 0 := by
    unfold CounterServer.valueAt
    rw [hFresh]
    rfl
  have hRoom :
      server.valueAt s use.now use.key + 1 ≤ limit := by
    omega
  have hAnswer := hServer.incr_answer hRoom
  have hEntry := hServer.incr_entry hRoom
  rw [hValue] at hAnswer hEntry
  have hExpired := hServer.expire_entry hLease hEntry
  rw [countUse_of_ok hAnswer, if_pos (by omega)]
  constructor
  · rfl
  · unfold Tracks
    rw [firstUse_cons_of_none hFirst, if_pos rfl,
      countOf_cons_self rfl, countOf_of_firstUse_none hFirst]
    intro _
    rw [hExpired]
    have hOne : min ((0 + 1 : Nat) : Int) limit = 0 + 1 := by
      omega
    rw [hOne]
    rfl

/-
  A further use of a key within the lease of the first is
  counted, and leaves the deadline where it is.
-/
theorem tracks_countUse_again
    (hServer : server.Lawful limit)
    {past : List (Use K)}
    {s : S}
    {use first : Use K}
    (hFirst : firstUse use.key past = some first)
    (hEntry :
      server.entry s use.now use.key =
        some ⟨min (countOf use.key past : Int) limit,
          some first.until⟩) :
    AnswersUse limit (countOf use.key past)
        (countUse server use.lease use.now use.key s).1 ∧
      Tracks server limit use.key (use :: past)
        (countUse server use.lease use.now use.key s).2
        use.now := by
  have hPos := countOf_pos hFirst
  have hValue :
      server.valueAt s use.now use.key =
        min (countOf use.key past : Int) limit := by
    unfold CounterServer.valueAt
    rw [hEntry]
    rfl
  have hDeadline :
      server.deadlineAt s use.now use.key =
        some first.until := by
    unfold CounterServer.deadlineAt
    rw [hEntry]
    rfl
  by_cases hRoom :
      server.valueAt s use.now use.key + 1 ≤ limit
  · have hAnswer := hServer.incr_answer hRoom
    have hAfter := hServer.incr_entry hRoom
    rw [hValue] at hRoom hAnswer hAfter
    have hCount :
        min (countOf use.key past : Int) limit + 1 =
          countOf use.key past + 1 := by
      omega
    rw [hCount] at hAnswer hAfter
    rw [hDeadline] at hAfter
    rw [countUse_of_ok hAnswer, if_neg (by omega)]
    constructor
    · exact ⟨rfl, by omega⟩
    · unfold Tracks
      rw [firstUse_cons_of_some hFirst, countOf_cons_self rfl]
      intro _
      rw [hAfter]
      congr 2
      omega
  · obtain ⟨⟨error, hError⟩, hAfter⟩ :=
      hServer.incr_over (not_le.mp hRoom)
    rw [countUse_of_error hError]
    rw [hValue] at hRoom
    constructor
    · unfold AnswersUse
      dsimp only
      omega
    · unfold Tracks
      rw [firstUse_cons_of_some hFirst, countOf_cons_self rfl]
      intro _
      rw [hAfter, hEntry]
      congr 2
      omega

/- A use in time is counted behind the uses before it. -/
theorem tracks_countUse
    (hServer : server.Lawful limit)
    (hLimit : 1 ≤ limit)
    {past : List (Use K)}
    {s : S}
    {now : Nat}
    {use : Use K}
    (hTracks : Tracks server limit use.key past s now)
    (hLater : now ≤ use.now)
    (hLease : 0 < use.lease)
    (hTimely : Timely past use) :
    AnswersUse limit (countOf use.key past)
        (countUse server use.lease use.now use.key s).1 ∧
      Tracks server limit use.key (use :: past)
        (countUse server use.lease use.now use.key s).2
        use.now := by
  have hNow := hTracks.later hServer hLater
  unfold Tracks at hNow
  cases hFirst : firstUse use.key past with
  | none =>
      rw [hFirst] at hNow
      obtain ⟨hAnswer, hAfter⟩ :=
        tracks_countUse_first hServer hLimit hLease hFirst hNow
      rw [hAnswer, countOf_of_firstUse_none hFirst]
      exact ⟨⟨rfl, hLimit⟩, hAfter⟩
  | some first =>
      rw [hFirst] at hNow
      exact tracks_countUse_again hServer hFirst
        (hNow (hTimely first hFirst))

end ExpiringCounters

end Data

end IcpHandler

------------------------------------------------------------
-- A Server in Memory
------------------------------------------------------------

namespace IcpHandler

namespace Data

namespace ExpiringCounters

variable {K : Type}

/- What is left of a counter at an instant. -/
def Counter.leftAt
    (now : Nat)
    (counter : Counter) : Option Counter :=
  if counter.deadline.all (now < ·) then some counter else none

/- The counter stored under a key, while it is not over. -/
def storedAt
    (s : K → Option Counter)
    (now : Nat)
    (key : K) : Option Counter :=
  (s key).bind (Counter.leftAt now)

theorem leftAt_later
    {counter : Counter}
    {later : Nat}
    (hBefore :
      ∀ deadline, counter.deadline = some deadline →
        later < deadline) :
    counter.leftAt later = some counter := by
  unfold Counter.leftAt
  apply if_pos
  cases hDeadline : counter.deadline with
  | none => rfl
  | some deadline =>
      exact decide_eq_true (hBefore deadline hDeadline)

theorem storedAt_eq_some
    {s : K → Option Counter}
    {now : Nat}
    {key : K}
    {counter : Counter}
    (hStored : storedAt s now key = some counter) :
    s key = some counter ∧
      ∀ deadline, counter.deadline = some deadline →
        now < deadline := by
  unfold storedAt at hStored
  rw [Option.bind_eq_some_iff] at hStored
  obtain ⟨found, hFound, hLeft⟩ := hStored
  unfold Counter.leftAt at hLeft
  split at hLeft
  · rename_i hAll
    cases hLeft
    refine ⟨hFound, fun deadline hDeadline => ?_⟩
    rw [hDeadline] at hAll
    exact of_decide_eq_true hAll
  · cases hLeft

variable [DecidableEq K]

/- A server whose counters are a map. -/
def mapServer
    (limit : Int) : CounterServer (K → Option Counter) K where
  entry := storedAt
  incrBy := fun s now key amount =>
    let value :=
      ((storedAt s now key).map Counter.value).getD 0
    if value + amount ≤ limit then
      (.ok (value + amount),
        Function.update s key (some ⟨value + amount,
          (storedAt s now key).bind Counter.deadline⟩))
    else
      (.error "ERR increment or decrement would overflow", s)
  expire := fun s now key seconds =>
    Function.update s key
      ((storedAt s now key).map fun counter =>
        { counter with
          deadline := some (now + 1000 * seconds.toNat) })

theorem storedAt_update_other
    {s : K → Option Counter}
    {now : Nat}
    {key other : K}
    {counter : Option Counter}
    (hOther : other ≠ key) :
    storedAt (Function.update s key counter) now other =
      storedAt s now other := by
  unfold storedAt
  rw [Function.update_of_ne hOther]

theorem storedAt_update_self
    {s : K → Option Counter}
    {now : Nat}
    {key : K}
    {counter : Counter}
    (hBefore :
      ∀ deadline, counter.deadline = some deadline →
        now < deadline) :
    storedAt (Function.update s key (some counter)) now key =
      some counter := by
  unfold storedAt
  rw [Function.update_self, Option.bind_some,
    leftAt_later hBefore]

/- Such a server keeps the promises. -/
theorem mapServer_lawful (limit : Int) :
    (mapServer (K := K) limit).Lawful limit where
  stays := by
    intro s now later key counter hLater hEntry hBefore
    obtain ⟨hStored, -⟩ := storedAt_eq_some hEntry
    change storedAt s later key = some counter
    unfold storedAt
    rw [hStored, Option.bind_some, leftAt_later hBefore]
  absent := by
    intro s now later key hLater hEntry
    change storedAt s later key = none
    cases hFound : storedAt s later key with
    | none => rfl
    | some counter =>
        obtain ⟨hStored, hBefore⟩ := storedAt_eq_some hFound
        have hNow : storedAt s now key = some counter := by
          unfold storedAt
          rw [hStored, Option.bind_some]
          apply leftAt_later
          intro deadline hDeadline
          exact lt_of_le_of_lt hLater
            (hBefore deadline hDeadline)
        exact absurd (hNow.symm.trans hEntry) (by simp)
  incr_answer := by
    intro s now key amount hRoom
    exact congrArg Prod.fst (if_pos hRoom)
  incr_entry := by
    intro s now key amount hRoom
    have hAfter :
        ((mapServer limit).incrBy s now key amount).2 =
          Function.update s key (some
            ⟨(mapServer limit).valueAt s now key + amount,
              (mapServer limit).deadlineAt s now key⟩) :=
      congrArg Prod.snd (if_pos hRoom)
    rw [hAfter]
    apply storedAt_update_self
    intro deadline hDeadline
    change (storedAt s now key).bind Counter.deadline =
      some deadline at hDeadline
    rw [Option.bind_eq_some_iff] at hDeadline
    obtain ⟨counter, hStored, hCounter⟩ := hDeadline
    exact (storedAt_eq_some hStored).2 deadline hCounter
  incr_over := by
    intro s now key amount hOver
    have hAfter :
        (mapServer limit).incrBy s now key amount =
          (.error "ERR increment or decrement would overflow",
            s) :=
      if_neg (not_le.mpr hOver)
    rw [hAfter]
    exact ⟨⟨_, rfl⟩, rfl⟩
  incr_other := by
    intro s now key amount other hOther
    change storedAt (Prod.snd (ite _ _ _)) now other =
      storedAt s now other
    split
    · exact storedAt_update_other hOther
    · rfl
  expire_entry := by
    intro s now key seconds counter hPositive hEntry
    have hStored : storedAt s now key = some counter := hEntry
    change storedAt (Function.update s key
      ((storedAt s now key).map _)) now key = _
    rw [hStored, Option.map_some]
    apply storedAt_update_self
    rintro deadline ⟨⟩
    omega
  expire_other := by
    intro s now key seconds other hOther
    exact storedAt_update_other hOther

end ExpiringCounters

end Data

end IcpHandler
