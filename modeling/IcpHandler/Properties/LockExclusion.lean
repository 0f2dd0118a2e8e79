import IcpHandler.Data.ShortestDecimal
import IcpHandler.Service.OperationLocks

/-
  The operation locks exclude. An entry is evicted only when
  no call refers to its mutex, so all calls under a key that
  refer to a mutex refer to the one in the map, and only one
  of them can have it locked.

  Main declarations:
    * `lockKey_inj`
    * `LocksShared`, `LocksShared.step`
    * `TableStep`, `LocksShared.step_refines`
    * `operation_locks_exclude`
-/

------------------------------------------------------------
-- Lock Keys
------------------------------------------------------------

namespace IcpHandler

namespace Service

open Data

/- Texts of one length in front of a text are determined. -/
theorem append_inj_of_utf8ByteSize
    {left right left' right' : String}
    (hSize : left.utf8ByteSize = left'.utf8ByteSize)
    (hSame : left ++ right = left' ++ right') :
    left = left' ∧ right = right' := by
  have hBytes :=
    congrArg (fun text : String => text.toByteArray.data.toList)
      hSame
  simp only [String.toByteArray_append, ByteArray.data_append,
    Array.toList_append] at hBytes
  have hLength :
      left.toByteArray.data.toList.length =
        left'.toByteArray.data.toList.length := hSize
  obtain ⟨hLeft, hRight⟩ := List.append_inj hBytes hLength
  constructor
  · exact String.toByteArray_inj.mp
      (ByteArray.ext (Array.toList_inj.mp hLeft))
  · exact String.toByteArray_inj.mp
      (ByteArray.ext (Array.toList_inj.mp hRight))

private theorem digits_noColon (n : Nat) :
    ':' ∉ Nat.toDigits 10 n := by
  intro hMem
  have hDigit :=
    Nat.isDigit_of_mem_toDigits (by decide) (by decide) hMem
  exact absurd hDigit (by decide)

/- One number does not go on where another meets its colon. -/
private theorem middle_nil
    {n m : Nat}
    {middle rest rest' : List Char}
    (hDigits :
      Nat.toDigits 10 m = Nat.toDigits 10 n ++ middle)
    (hRest : ':' :: rest = middle ++ ':' :: rest') :
    middle = [] := by
  cases middle with
  | nil => rfl
  | cons c middle =>
      exfalso
      rw [List.cons_append] at hRest
      obtain ⟨rfl, _⟩ := List.cons.inj hRest
      apply digits_noColon m
      rw [hDigits]
      exact List.mem_append_right _ List.mem_cons_self

/- Digits come to an end at a colon. -/
theorem toDigits_colon_inj
    {n m : Nat}
    {rest rest' : List Char}
    (hSame :
      Nat.toDigits 10 n ++ ':' :: rest =
        Nat.toDigits 10 m ++ ':' :: rest') :
    n = m ∧ rest = rest' := by
  rcases List.append_eq_append_iff.mp hSame with
    ⟨middle, hDigits, hRest⟩ | ⟨middle, hDigits, hRest⟩
  · obtain rfl := middle_nil hDigits hRest
    rw [List.append_nil] at hDigits
    exact ⟨(toDigits_inj hDigits).symm, (List.cons.inj hRest).2⟩
  · obtain rfl := middle_nil hDigits hRest
    rw [List.append_nil] at hDigits
    exact ⟨toDigits_inj hDigits, (List.cons.inj hRest).2.symm⟩

/- The key of a tenant's idempotency lock tells both apart. -/
theorem idempotencyLock_inj
    {tenantId key tenantId' key' : String}
    (hSame :
      idempotencyLock tenantId key =
        idempotencyLock tenantId' key') :
    tenantId = tenantId' ∧ key = key' := by
  have hText :
      Nat.toDigits 10 tenantId.utf8ByteSize ++
          ':' :: (tenantId ++ key).toList =
        Nat.toDigits 10 tenantId'.utf8ByteSize ++
          ':' :: (tenantId' ++ key').toList := by
    have hList := congrArg String.toList hSame
    simp only [idempotencyLock, String.toList_append,
      List.append_assoc] at hList
    have hRest := List.append_cancel_left hList
    simpa using hRest
  obtain ⟨hSize, hRest⟩ := toDigits_colon_inj hText
  exact append_inj_of_utf8ByteSize hSize
    (String.toList_inj.mp hRest)

private theorem stem_inj
    {stem id id' : String}
    (hSame : stem ++ id = stem ++ id') :
    id = id' := by
  have hList := congrArg String.toList hSame
  rw [String.toList_append, String.toList_append] at hList
  exact String.toList_inj.mp (List.append_cancel_left hList)

/- The first letter of the lock's key tells the kind. -/
private def initial : Resource → Char
  | .idempotencyKey _ _ => 'i'
  | .transaction _ => 't'
  | .subscription _ => 's'
  | .peerQuote _ => 'p'

private theorem lockKey_head (resource : Resource) :
    resource.lockKey.toList.head? = some (initial resource) := by
  cases resource <;>
    simp [Resource.lockKey, idempotencyLock, txnLock, subLock,
      quoteLock, initial]

/- Different resources have different locks. -/
theorem lockKey_inj
    {first second : Resource}
    (hSame : first.lockKey = second.lockKey) :
    first = second := by
  have hInitial : initial first = initial second := by
    have hFirst := lockKey_head first
    rw [hSame, lockKey_head second] at hFirst
    exact (Option.some.inj hFirst).symm
  cases first with
  | idempotencyKey tenantId key =>
      cases second with
      | idempotencyKey tenantId' key' =>
          obtain ⟨rfl, rfl⟩ := idempotencyLock_inj hSame
          rfl
      | _ => simp [initial] at hInitial
  | transaction id =>
      cases second with
      | transaction id' => rw [stem_inj hSame]
      | _ => simp [initial] at hInitial
  | subscription id =>
      cases second with
      | subscription id' => rw [stem_inj hSame]
      | _ => simp [initial] at hInitial
  | peerQuote id =>
      cases second with
      | peerQuote id' => rw [stem_inj hSame]
      | _ => simp [initial] at hInitial

end Service

end IcpHandler

------------------------------------------------------------
-- The Invariant
------------------------------------------------------------

namespace IcpHandler

namespace Service

namespace KeyedLocks

variable {locks locks' : KeyedLocks}
variable {call : Nat}
variable {key : String}

/- The call has this key and is at this stage. -/
def At
    (locks : KeyedLocks)
    (call : Nat)
    (key : String)
    (stage : Stage) : Prop :=
  locks.calls[call]? = some ⟨key, stage⟩

/- After a change of stage. -/
theorem at_setStage
    {stage : Stage}
    {other : Nat}
    {otherKey : String}
    {found : Stage} :
    (locks.setStage call stage).At other otherKey found ↔
      if call = other then
        found = stage ∧ ∃ before, locks.At other otherKey before
      else locks.At other otherKey found := by
  unfold At setStage
  dsimp only
  rw [List.getElem?_modify]
  split
  · cases hCall : locks.calls[other]? with
    | none => simp
    | some known =>
        rcases known with ⟨knownKey, before⟩
        constructor
        · intro hSome
          cases hSome
          exact ⟨rfl, before, rfl⟩
        · rintro ⟨rfl, earlier, hEarlier⟩
          cases hEarlier
          rfl
  · rw [Option.map_eq_map, Option.map_id']

/-
  A call that refers to a mutex refers to the one that the map
  has under its key, a guard's mutex is locked, and no two
  calls have it locked.
-/
structure Shared (locks : KeyedLocks) : Prop where
  mapped :
    ∀ call key stage lock, locks.At call key stage →
      stage.reference = some lock →
      locks.entries.lookup key = some lock
  locked :
    ∀ call key lock, locks.At call key (.holding lock) →
      lock ∈ locks.locked
  alone :
    ∀ first second key key' lock,
      locks.At first key (.holding lock) →
      locks.At second key' (.holding lock) →
      first = second

theorem shared_empty : empty.Shared where
  mapped _ _ _ _ hAt := nomatch hAt
  locked _ _ _ hAt := nomatch hAt
  alone _ _ _ _ _ hAt := nomatch hAt

/- Both counts see what refers to a mutex. -/
theorem one_lt_strongCount
    {stage : Stage}
    {lock : Nat}
    (hEntry : locks.entries.lookup key = some lock)
    (hAt : locks.At call key stage)
    (hReference : stage.reference = some lock) :
    1 < locks.strongCount lock := by
  have hMap :
      0 < locks.entries.entries.countP fun entry =>
        entry.2 == lock := by
    rw [List.countP_pos_iff]
    exact ⟨⟨key, lock⟩, AList.mem_lookup_iff.mp hEntry,
      beq_self_eq_true lock⟩
  have hCall :
      0 < locks.calls.countP fun call =>
        call.stage.reference == some lock := by
    rw [List.countP_pos_iff]
    exact ⟨⟨key, stage⟩, List.mem_of_getElem? hAt,
      beq_iff_eq.mpr hReference⟩
  unfold strongCount
  omega

theorem retain_calls :
    (locks.retain key).calls = locks.calls ∧
      (locks.retain key).locked = locks.locked := by
  unfold retain
  split
  · exact ⟨rfl, rfl⟩
  · split
    · exact ⟨rfl, rfl⟩
    · exact ⟨rfl, rfl⟩

/- No entry is evicted that a call refers to. -/
theorem Shared.lookup_retain
    (hShared : locks.Shared)
    {visited : String}
    {stage : Stage}
    {lock : Nat}
    (hAt : locks.At call key stage)
    (hReference : stage.reference = some lock) :
    (locks.retain visited).entries.lookup key = some lock := by
  have hEntry := hShared.mapped call key stage lock hAt hReference
  unfold retain
  by_cases hKey : visited = key
  · rw [hKey, hEntry]
    dsimp only
    rw [if_pos (one_lt_strongCount hEntry hAt hReference)]
    exact hEntry
  · split
    · exact hEntry
    · split
      · exact hEntry
      · dsimp only
        rw [AList.lookup_erase_ne (Ne.symm hKey)]
        exact hEntry

theorem entry_calls :
    (locks.entry key).2.calls = locks.calls ∧
      (locks.entry key).2.locked = locks.locked := by
  unfold entry
  split
  · exact ⟨rfl, rfl⟩
  · exact ⟨rfl, rfl⟩

/- The map has the mutex that was found or made. -/
theorem lookup_entry :
    (locks.entry key).2.entries.lookup key =
      some (locks.entry key).1 := by
  unfold entry
  split
  · assumption
  · exact AList.lookup_insert locks.entries

/- What the map had before, it still has. -/
theorem lookup_entry_of_lookup
    {other : String}
    {lock : Nat}
    (hEntry : locks.entries.lookup other = some lock) :
    (locks.entry key).2.entries.lookup other = some lock := by
  unfold entry
  split
  · exact hEntry
  · rename_i hNone
    dsimp only
    rw [AList.lookup_insert_ne]
    · exact hEntry
    · rintro rfl
      rw [hEntry] at hNone
      cases hNone

end KeyedLocks

end Service

end IcpHandler

------------------------------------------------------------
-- Steps
------------------------------------------------------------

namespace IcpHandler

namespace Service

namespace KeyedLocks

variable {locks locks' : KeyedLocks}

/-
  What a step of a call does: the stages before and after it,
  and the map and the locked mutexes after it.
-/
inductive Advance
    (locks : KeyedLocks)
    (key : String) : Stage → Stage → KeyedLocks → Prop where
  | enter (order : List String) :
      Advance locks key .waiting (.retaining order) locks
  | visit (visited : String) (todo : List String) :
      Advance locks key (.retaining (visited :: todo))
        (.retaining todo) (locks.retain visited)
  | fetch :
      Advance locks key (.retaining [])
        (.fetched (locks.entry key).1) (locks.entry key).2
  | acquire
      (lock : Nat)
      (hFree : lock ∉ locks.locked) :
      Advance locks key (.fetched lock) (.holding lock)
        { locks with locked := lock :: locks.locked }
  | release (lock : Nat) :
      Advance locks key (.holding lock) (.dropping lock)
        { locks with locked := locks.locked.erase lock }
  | dropReference (lock : Nat) :
      Advance locks key (.dropping lock) .gone locks
  | cancelWaiting :
      Advance locks key .waiting .gone locks
  | cancelFetched (lock : Nat) :
      Advance locks key (.fetched lock) .gone locks

/- A step is a new call or a step of a call. -/
theorem step_cases
    {move : LockMove}
    (hStep : locks.step move = some locks') :
    (∃ key,
      locks' =
        { locks with
          calls := locks.calls ++ [⟨key, .waiting⟩] }) ∨
      ∃ call key before stage between,
        locks.At call key before ∧
        Advance locks key before stage between ∧
        locks' = between.setStage call stage := by
  cases move with
  | call key =>
      cases hStep
      exact .inl ⟨key, rfl⟩
  | enter call order =>
      right
      rw [step] at hStep
      split at hStep
      · rename_i key hCall
        split at hStep
        · cases hStep
          exact ⟨call, key, _, _, _, hCall, .enter order, rfl⟩
        · cases hStep
      · cases hStep
  | visit call =>
      right
      rw [step] at hStep
      split at hStep
      · rename_i key visited todo hCall
        cases hStep
        exact ⟨call, key, _, _, _, hCall, .visit visited todo,
          rfl⟩
      · cases hStep
  | fetch call =>
      right
      rw [step] at hStep
      split at hStep
      · rename_i key hCall
        cases hStep
        exact ⟨call, key, _, _, _, hCall, .fetch, rfl⟩
      · cases hStep
  | acquire call =>
      right
      rw [step] at hStep
      split at hStep
      · rename_i key lock hCall
        split at hStep
        · cases hStep
        · rename_i hFree
          cases hStep
          exact ⟨call, key, _, _, _, hCall,
            .acquire lock hFree, rfl⟩
      · cases hStep
  | release call =>
      right
      rw [step] at hStep
      split at hStep
      · rename_i key lock hCall
        cases hStep
        exact ⟨call, key, _, _, _, hCall, .release lock, rfl⟩
      · cases hStep
  | dropReference call =>
      right
      rw [step] at hStep
      split at hStep
      · rename_i key lock hCall
        cases hStep
        exact ⟨call, key, _, _, _, hCall, .dropReference lock,
          rfl⟩
      · cases hStep
  | cancel call =>
      right
      rw [step] at hStep
      split at hStep
      · rename_i key hCall
        cases hStep
        exact ⟨call, key, _, _, _, hCall, .cancelWaiting, rfl⟩
      · rename_i key lock hCall
        cases hStep
        exact ⟨call, key, _, _, _, hCall, .cancelFetched lock,
          rfl⟩
      · cases hStep

/- Of the calls only the one that makes the step changes. -/
theorem Advance.calls
    {key : String}
    {before stage : Stage}
    {between : KeyedLocks}
    (hAdvance : Advance locks key before stage between) :
    between.calls = locks.calls := by
  cases hAdvance with
  | visit visited todo => exact retain_calls.1
  | fetch => exact entry_calls.1
  | _ => rfl

/- What a call refers to, the map still has. -/
theorem Advance.mapped
    (hShared : locks.Shared)
    {key : String}
    {before stage : Stage}
    {between : KeyedLocks}
    (hAdvance : Advance locks key before stage between)
    {other : Nat}
    {otherKey : String}
    {found : Stage}
    {lock : Nat}
    (hAt : locks.At other otherKey found)
    (hReference : found.reference = some lock) :
    between.entries.lookup otherKey = some lock := by
  have hEntry := hShared.mapped other otherKey found lock hAt
    hReference
  cases hAdvance with
  | visit visited todo =>
      exact hShared.lookup_retain hAt hReference
  | fetch => exact lookup_entry_of_lookup hEntry
  | _ => exact hEntry

/- The new stage refers to what the map has. -/
theorem Advance.stage_mapped
    (hShared : locks.Shared)
    {call : Nat}
    {key : String}
    {before stage : Stage}
    {between : KeyedLocks}
    (hAt : locks.At call key before)
    (hAdvance : Advance locks key before stage between)
    {lock : Nat}
    (hReference : stage.reference = some lock) :
    between.entries.lookup key = some lock := by
  cases hAdvance with
  | fetch =>
      cases hReference
      exact lookup_entry
  | acquire lock' hFree =>
      exact hShared.mapped call key _ lock hAt hReference
  | release lock' =>
      exact hShared.mapped call key _ lock hAt hReference
  | _ => cases hReference

/- The mutex of a guard elsewhere stays locked. -/
theorem Advance.locked
    (hShared : locks.Shared)
    {call : Nat}
    {key : String}
    {before stage : Stage}
    {between : KeyedLocks}
    (hAt : locks.At call key before)
    (hAdvance : Advance locks key before stage between)
    {other : Nat}
    {otherKey : String}
    {lock : Nat}
    (hOther : other ≠ call)
    (hHolds : locks.At other otherKey (.holding lock)) :
    lock ∈ between.locked := by
  have hLocked := hShared.locked other otherKey lock hHolds
  cases hAdvance with
  | visit visited todo =>
      rw [retain_calls.2]
      exact hLocked
  | fetch =>
      rw [entry_calls.2]
      exact hLocked
  | acquire lock' hFree => exact List.mem_cons_of_mem _ hLocked
  | release lock' =>
      have hNe : lock ≠ lock' := by
        rintro rfl
        exact hOther (hShared.alone other call otherKey key lock
          hHolds hAt)
      exact (List.mem_erase_of_ne hNe).mpr hLocked
  | _ => exact hLocked

/- A guard is new only where its mutex was not locked. -/
theorem Advance.holding
    {key : String}
    {before : Stage}
    {lock : Nat}
    {between : KeyedLocks}
    (hAdvance :
      Advance locks key before (.holding lock) between) :
    before = .fetched lock ∧ lock ∉ locks.locked ∧
      lock ∈ between.locked := by
  cases hAdvance with
  | acquire lock hFree =>
      exact ⟨rfl, hFree, List.mem_cons_self⟩

/- Where a call is after a step. -/
theorem Advance.at_iff
    {call : Nat}
    {key : String}
    {before stage : Stage}
    {between : KeyedLocks}
    (hAt : locks.At call key before)
    (hAdvance : Advance locks key before stage between)
    {other : Nat}
    {otherKey : String}
    {found : Stage} :
    (between.setStage call stage).At other otherKey found ↔
      if call = other then found = stage ∧ otherKey = key
      else locks.At other otherKey found := by
  have hSame :
      ∀ c k st, between.At c k st ↔ locks.At c k st := by
    intro c k st
    unfold At
    rw [hAdvance.calls]
  rw [at_setStage]
  split
  · rename_i hCall
    subst hCall
    refine and_congr_right fun _ => ?_
    constructor
    · rintro ⟨earlier, hEarlier⟩
      have hBoth := ((hSame _ _ _).mp hEarlier).symm.trans hAt
      cases hBoth
      rfl
    · rintro rfl
      exact ⟨before, (hSame _ _ _).mpr hAt⟩
  · exact hSame other otherKey found

theorem at_call
    {key : String}
    {call : Nat}
    {callKey : String}
    {stage : Stage}
    (hAt :
      At { locks with calls := locks.calls ++ [⟨key, .waiting⟩] }
        call callKey stage) :
    locks.At call callKey stage ∨ stage = .waiting := by
  unfold At at hAt
  dsimp only at hAt
  rw [List.getElem?_append] at hAt
  split at hAt
  · exact .inl hAt
  · right
    have hLast := List.mem_of_getElem? hAt
    rw [List.mem_singleton] at hLast
    cases hLast
    rfl

/- Every step keeps the invariant. -/
theorem Shared.step
    (hShared : locks.Shared)
    {move : LockMove}
    (hStep : locks.step move = some locks') :
    locks'.Shared := by
  rcases step_cases hStep with
    ⟨key, rfl⟩ |
      ⟨call, key, before, stage, between, hAt, hAdvance, rfl⟩
  · constructor
    · intro call callKey stage lock hCall hReference
      rcases at_call hCall with hOld | rfl
      · exact hShared.mapped call callKey stage lock hOld
          hReference
      · cases hReference
    · intro call callKey lock hCall
      rcases at_call hCall with hOld | hNew
      · exact hShared.locked call callKey lock hOld
      · cases hNew
    · intro first second firstKey secondKey lock hFirst hSecond
      rcases at_call hFirst with hFirst | hNew
      · rcases at_call hSecond with hSecond | hNew
        · exact hShared.alone first second firstKey secondKey
            lock hFirst hSecond
        · cases hNew
      · cases hNew
  · constructor
    · intro other otherKey found lock hFound hReference
      change between.entries.lookup otherKey = some lock
      rw [hAdvance.at_iff hAt] at hFound
      split at hFound
      · obtain ⟨rfl, rfl⟩ := hFound
        exact hAdvance.stage_mapped hShared hAt hReference
      · exact hAdvance.mapped hShared hFound hReference
    · intro other otherKey lock hFound
      change lock ∈ between.locked
      rw [hAdvance.at_iff hAt] at hFound
      split at hFound
      · obtain ⟨rfl, rfl⟩ := hFound
        exact hAdvance.holding.2.2
      · rename_i hOther
        exact hAdvance.locked hShared hAt (Ne.symm hOther) hFound
    · intro first second firstKey secondKey lock hFirst hSecond
      rw [hAdvance.at_iff hAt] at hFirst hSecond
      split at hFirst
      · rename_i hCall
        split at hSecond
        · rename_i hCall'
          rw [← hCall, ← hCall']
        · -- The new guard's mutex was not locked elsewhere.
          obtain ⟨rfl, rfl⟩ := hFirst
          exact absurd
            (hShared.locked second secondKey lock hSecond)
            hAdvance.holding.2.1
      · split at hSecond
        · obtain ⟨rfl, rfl⟩ := hSecond
          exact absurd
            (hShared.locked first firstKey lock hFirst)
            hAdvance.holding.2.1
        · exact hShared.alone first second firstKey secondKey
            lock hFirst hSecond

theorem Shared.run
    (hShared : locks.Shared)
    {moves : List LockMove}
    (hRun : KeyedLocks.run moves locks = some locks') :
    locks'.Shared := by
  induction moves generalizing locks with
  | nil =>
      cases hRun
      exact hShared
  | cons move moves ih =>
      rw [KeyedLocks.run, Option.bind_eq_some_iff] at hRun
      obtain ⟨middle, hStep, hRest⟩ := hRun
      exact ih (hShared.step hStep) hRest

/- No two calls have a guard of one key. -/
theorem Shared.exclusive
    (hShared : locks.Shared)
    {first second : Nat}
    {key : String}
    (hFirst : locks.Holds first key)
    (hSecond : locks.Holds second key) :
    first = second := by
  obtain ⟨lock, hFirst⟩ := hFirst
  obtain ⟨lock', hSecond⟩ := hSecond
  have hMapped :=
    hShared.mapped first key _ lock hFirst rfl
  rw [hShared.mapped second key _ lock' hSecond rfl] at hMapped
  cases hMapped
  exact hShared.alone first second key key lock hFirst hSecond

end KeyedLocks

/-
  What a step is to those who only see who holds which key: a
  key that nobody held is taken, a key is given back, or
  nothing happens.
-/
inductive TableStep
    (held held' : Nat → String → Prop) : Prop where
  | lock
      (call : Nat)
      (key : String)
      (hFree : ∀ other, ¬ held other key)
      (hAfter :
        ∀ other name, held' other name ↔
          held other name ∨ (other = call ∧ name = key))
  | unlock
      (call : Nat)
      (key : String)
      (hHeld : held call key)
      (hAfter :
        ∀ other name, held' other name ↔
          held other name ∧ ¬(other = call ∧ name = key))
  | nothing
      (hAfter :
        ∀ other name, held' other name ↔ held other name)

namespace KeyedLocks

variable {locks locks' : KeyedLocks}

/- A step of a call that holds no guard before or after it. -/
private theorem nothing_of_advance
    {call : Nat}
    {key : String}
    {before stage : Stage}
    {between : KeyedLocks}
    (hAt : locks.At call key before)
    (hAdvance : Advance locks key before stage between)
    (hBefore : ∀ lock, before ≠ .holding lock)
    (hStage : ∀ lock, stage ≠ .holding lock) :
    TableStep locks.Holds (between.setStage call stage).Holds := by
  refine .nothing fun other name => ?_
  constructor
  · rintro ⟨lock, hHolds⟩
    have hFound := (hAdvance.at_iff hAt).mp hHolds
    split at hFound
    · exact absurd hFound.1.symm (hStage lock)
    · exact ⟨lock, hFound⟩
  · rintro ⟨lock, hHolds⟩
    refine ⟨lock, (hAdvance.at_iff hAt).mpr ?_⟩
    split
    · rename_i hCall
      subst hCall
      have hBoth := hAt.symm.trans hHolds
      cases hBoth
      exact absurd rfl (hBefore lock)
    · exact hHolds

/- The map of mutexes is a table of who holds which key. -/
theorem Shared.step_refines
    (hShared : locks.Shared)
    {move : LockMove}
    (hStep : locks.step move = some locks') :
    TableStep locks.Holds locks'.Holds := by
  rcases step_cases hStep with
    ⟨key, rfl⟩ |
      ⟨call, key, before, stage, between, hAt, hAdvance, rfl⟩
  · refine .nothing fun other name => ?_
    constructor
    · rintro ⟨lock, hHolds⟩
      rcases at_call hHolds with hOld | hNew
      · exact ⟨lock, hOld⟩
      · cases hNew
    · rintro ⟨lock, hHolds⟩
      refine ⟨lock, ?_⟩
      obtain ⟨hLength, _⟩ := List.getElem?_eq_some_iff.mp hHolds
      dsimp only
      rw [List.getElem?_append_left hLength]
      exact hHolds
  · cases hStage : stage with
    | holding lock =>
        subst hStage
        obtain ⟨rfl, hFree, _⟩ := hAdvance.holding
        refine .lock call key ?_ ?_
        · rintro other ⟨lock', hHolds⟩
          have hMapped := hShared.mapped call key _ lock hAt rfl
          rw [hShared.mapped other key _ lock' hHolds rfl]
            at hMapped
          cases hMapped
          exact hFree (hShared.locked other key lock hHolds)
        · intro other name
          constructor
          · rintro ⟨lock', hHolds⟩
            have hFound := (hAdvance.at_iff hAt).mp hHolds
            split at hFound
            · rename_i hCall
              exact .inr ⟨hCall.symm, hFound.2⟩
            · exact .inl ⟨lock', hFound⟩
          · rintro (⟨lock', hHolds⟩ | ⟨rfl, rfl⟩)
            · refine ⟨lock', (hAdvance.at_iff hAt).mpr ?_⟩
              split
              · rename_i hCall
                subst hCall
                have hBoth := hAt.symm.trans hHolds
                cases hBoth
              · exact hHolds
            · refine ⟨lock, (hAdvance.at_iff hAt).mpr ?_⟩
              rw [if_pos rfl]
              exact ⟨rfl, rfl⟩
    | dropping lock =>
        subst hStage
        cases hAdvance with
        | release lock =>
            have hAdvance :
                Advance locks key (.holding lock)
                  (.dropping lock) _ := .release lock
            refine .unlock call key ⟨lock, hAt⟩ ?_
            intro other name
            constructor
            · rintro ⟨lock', hHolds⟩
              have hFound := (hAdvance.at_iff hAt).mp hHolds
              split at hFound
              · cases hFound.1
              · rename_i hCall
                exact ⟨⟨lock', hFound⟩, fun hSame =>
                  hCall hSame.1.symm⟩
            · rintro ⟨⟨lock', hHolds⟩, hOther⟩
              refine ⟨lock', (hAdvance.at_iff hAt).mpr ?_⟩
              split
              · rename_i hCall
                subst hCall
                have hBoth := hAt.symm.trans hHolds
                cases hBoth
                exact absurd ⟨rfl, rfl⟩ hOther
              · exact hHolds
    | _ =>
        subst hStage
        refine nothing_of_advance hAt hAdvance ?_ nofun
        intro lock hHolding
        subst hHolding
        cases hAdvance

end KeyedLocks

/-
  In any run of any number of calls there is at most one guard
  of a key, and no two resources have one key.
-/
theorem operation_locks_exclude :
    (∀ moves locks, KeyedLocks.run moves .empty = some locks →
      ∀ first second key, locks.Holds first key →
        locks.Holds second key → first = second) ∧
      ∀ first second : Resource,
        first.lockKey = second.lockKey → first = second := by
  constructor
  · intro moves locks hRun first second key hFirst hSecond
    exact (KeyedLocks.shared_empty.run hRun).exclusive hFirst
      hSecond
  · exact fun first second hSame => lockKey_inj hSame

/-
  Two calls for one transaction fetch its mutex, a call for a
  subscription goes through the map in between, and the first
  of the two acquires.
-/
private def sharedMoves : List LockMove :=
  [.call "txn:t1", .call "txn:t1", .call "sub:s1",
    .enter 0 [], .fetch 0,
    .enter 1 ["txn:t1"], .visit 1, .fetch 1,
    .enter 2 ["txn:t1"], .visit 2, .fetch 2,
    .acquire 0]

theorem operation_locks_exclude_sample :
    ∃ locks, KeyedLocks.run sharedMoves .empty = some locks ∧
      locks.Holds 0 "txn:t1" ∧ ¬ locks.Holds 1 "txn:t1" := by
  have hHolds :
      ((KeyedLocks.run sharedMoves .empty).bind fun locks =>
          locks.calls[0]?) =
        some ⟨"txn:t1", .holding 0⟩ := by
    decide
  obtain ⟨locks, hRun, hCall⟩ :=
    Option.bind_eq_some_iff.mp hHolds
  refine ⟨locks, hRun, ⟨0, hCall⟩, fun hOther => ?_⟩
  exact absurd
    (operation_locks_exclude.1 sharedMoves locks hRun 0 1
      "txn:t1" ⟨0, hCall⟩ hOther)
    (by decide)

end Service

end IcpHandler
