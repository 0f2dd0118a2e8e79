import IcpHandler.Properties.IdempotencyCells

/-
  The responses an idempotency store holds: a completed key
  keeps its response until its time to live has passed, and
  whatever is replayed was stored by some call before.

  Main declarations:
    * `CellsKept`
    * `perform_keeps_done`
    * `store_lands`
    * `perform_completed`
    * `lookup_replay`, `reserve_replay`
-/

------------------------------------------------------------
-- Completed Keys
------------------------------------------------------------

namespace IcpHandler

namespace Model

open Data

variable {rfc3339 : Rfc3339}
variable {store : IdempotencyStore}
variable {key : IdempotencyKey}
variable {cell : KeyCell}
variable {lease : Duration}

/- The winner of a claim is told the token it has drawn. -/
theorem reserve_won_token
    {fault : Bool}
    {digest token holder : String}
    {now : DateTime}
    (hWon :
      (store.reserve rfc3339 fault token key digest now
        lease).1 = .won holder) :
    holder = token := by
  cases hOut : store.unreachable fault with
  | true =>
      rcases store with ⟨entries | rows, ttl⟩
      · cases hOut
      · have hYes : fault = true := hOut
        simp [IdempotencyStore.reserve, hYes] at hWon
  | false =>
      rw [reserve_eq hOut] at hWon
      dsimp only at hWon
      split at hWon
      · cases hWon
        rfl
      · split_ifs at hWon <;> cases hWon <;> rfl

/- A response that was stored got through. -/
theorem store_reached
    {fault : Bool}
    {digest token : String}
    {response : CachedResponse}
    {now : DateTime}
    (hStored :
      (store.store rfc3339 fault key digest response now
        token).1 = true) :
    store.unreachable fault = false := by
  cases hOut : store.unreachable fault with
  | false => rfl
  | true =>
      rcases store with ⟨entries | rows, ttl⟩
      · cases hOut
      · have hYes : fault = true := hOut
        simp [IdempotencyStore.store, hYes] at hStored

/- Every key holds a cell that the calls can build. -/
def CellsKept
    (rfc3339 : Rfc3339)
    (store : IdempotencyStore) : Prop :=
  ∀ key, ∃ cell,
    CellOk rfc3339 cell ∧ store.Holds rfc3339 key cell

theorem CellsKept.perform
    {call : IdempotencyCall}
    (hKept : CellsKept rfc3339 store)
    (hProper : call.Proper rfc3339 store.ttl lease) :
    CellsKept rfc3339 (call.perform rfc3339 store).2 := by
  intro key
  obtain ⟨cell, hOk, hHolds⟩ := hKept key
  rcases perform_cell hOk hHolds hProper with
    ⟨_, hSame⟩ | ⟨op, _, hStep⟩
  · exact ⟨cell, hOk, hSame⟩
  · exact ⟨_, hStep.ok, hStep.holds⟩

/-
  A completed key stays completed until a call reads the clock
  past its time to live.
-/
theorem perform_keeps_done
    {call : IdempotencyCall}
    {digest : String}
    {response : CachedResponse}
    {since : DateTime}
    (hOk : CellOk rfc3339 (.done digest response since))
    (hHolds :
      store.Holds rfc3339 key (.done digest response since))
    (hProper : call.Proper rfc3339 store.ttl lease) :
    (call.perform rfc3339 store).2.Holds rfc3339 key
        (.done digest response since) ∨
      ∃ now, call.now? = some now ∧
        since + store.ttl < now := by
  rcases perform_cell hOk hHolds hProper with
    ⟨_, hSame⟩ | ⟨op, hOp, hStep⟩
  · exact .inl hSame
  · rcases LeaseCell.done_stays op digest response since with
      hStays | ⟨now, hNow, hLapsed⟩
    · left
      have hAfter := hStep.holds
      rwa [hStays] at hAfter
    · right
      rw [cellOp?_now hOp] at hNow
      exact ⟨now, hNow, hLapsed⟩

/-
  A response lands on a key that is not completed, and
  completes it.
-/
theorem store_lands
    {fault : Bool}
    {digest token : String}
    {response : CachedResponse}
    {now : DateTime}
    (hOk : CellOk rfc3339 cell)
    (hHolds : store.Holds rfc3339 key cell)
    (hProper :
      (IdempotencyCall.store key digest response now token
        fault).Proper rfc3339 store.ttl lease)
    (hStored :
      (store.store rfc3339 fault key digest response now
        token).1 = true) :
    (∀ known old since, cell ≠ .done known old since) ∧
      CellOk rfc3339 (.done digest response now) ∧
      (store.store rfc3339 fault key digest response now
        token).2.Holds rfc3339 key
          (.done digest response now) := by
  obtain ⟨hValid, hToken, hStatus⟩ := hProper
  have hStep :
      CellStep rfc3339 key
        (LeaseCell.step store.ttl lease
          (.complete digest response now token) cell)
        ((IdempotencyCall.store key digest response now token
          fault).perform rfc3339 store) :=
    store_step hOk hHolds (store_reached hStored) hToken
      hStatus hValid
  have hAnswer := hStep.answer
  simp only [IdempotencyCall.perform, hStored] at hAnswer
  have hHeld := hStep.holds
  refine ⟨?_, ⟨hStatus, hValid⟩, ?_⟩
  · rintro known old since rfl
    cases hAnswer
  · cases cell with
    | empty => exact hHeld
    | claimed known owner since =>
        simp only [LeaseCell.step] at hAnswer hHeld
        split at hHeld
        · exact hHeld
        · rename_i hOther
          rw [if_neg hOther] at hAnswer
          cases hAnswer
    | done known old since => cases hAnswer

end Model

end IcpHandler

------------------------------------------------------------
-- Where a Response Comes From
------------------------------------------------------------

namespace IcpHandler

namespace Model

open Data

variable {rfc3339 : Rfc3339}
variable {store : IdempotencyStore}
variable {key asked : IdempotencyKey}
variable {now : DateTime}

/- The entry completes the key with this response. -/
structure CompletedBy
    (digest : String)
    (response : CachedResponse)
    (entry : IdempotencyEntry) : Prop where
  digest_eq : entry.requestDigest = digest
  response_eq : entry.response = response
  completed : entry.response.status ≠ pendingStatus

/- A response is read back as it was written. -/
theorem toEntry_ofEntry_response
    (entry : IdempotencyEntry) :
    ((IdempotencyRow.ofEntry rfc3339 entry).toEntry
        rfc3339 now).requestDigest = entry.requestDigest ∧
      ((IdempotencyRow.ofEntry rfc3339 entry).toEntry
        rfc3339 now).response = entry.response := by
  refine ⟨rfl, ?_⟩
  simp only [IdempotencyRow.toEntry, IdempotencyRow.ofEntry,
    status_ofInt]

/- What is read under a key after a write. -/
theorem entryAt_put
    {written entry : IdempotencyEntry}
    (hEntry :
      (store.put rfc3339 asked written).entryAt rfc3339 now
        key = some entry) :
    (asked = key ∧
        entry.requestDigest = written.requestDigest ∧
        entry.response = written.response) ∨
      store.entryAt rfc3339 now key = some entry := by
  by_cases hKey : asked = key
  · left
    subst hKey
    refine ⟨rfl, ?_⟩
    rcases store with ⟨entries | rows, ttl⟩
    · simp [IdempotencyStore.entryAt, IdempotencyStore.put]
        at hEntry
      subst hEntry
      exact ⟨rfl, rfl⟩
    · simp [IdempotencyStore.entryAt, IdempotencyStore.put]
        at hEntry
      subst hEntry
      exact toEntry_ofEntry_response written
  · right
    have hNe : key ≠ asked := fun hEq => hKey hEq.symm
    rcases store with ⟨entries | rows, ttl⟩
    · simpa [IdempotencyStore.entryAt, IdempotencyStore.put,
        AList.lookup_insert_ne hNe] using hEntry
    · simpa [IdempotencyStore.entryAt, IdempotencyStore.put,
        AList.lookup_insert_ne hNe] using hEntry

theorem entryAt_drop
    {entry : IdempotencyEntry}
    (hEntry :
      (store.drop asked).entryAt rfc3339 now key =
        some entry) :
    store.entryAt rfc3339 now key = some entry := by
  by_cases hKey : key = asked
  · subst hKey
    rcases store with ⟨entries | rows, ttl⟩
    · simp [IdempotencyStore.entryAt, IdempotencyStore.drop]
        at hEntry
    · simp [IdempotencyStore.entryAt, IdempotencyStore.drop]
        at hEntry
  · rcases store with ⟨entries | rows, ttl⟩
    · simpa [IdempotencyStore.entryAt, IdempotencyStore.drop,
        AList.lookup_erase_ne hKey] using hEntry
    · simpa [IdempotencyStore.entryAt, IdempotencyStore.drop,
        AList.lookup_erase_ne hKey] using hEntry

theorem entryAt_prune
    {cutoff : DateTime}
    {fault : Bool}
    {entry : IdempotencyEntry}
    (hEntry :
      (store.prune rfc3339 fault cutoff).2.entryAt rfc3339 now
        key = some entry) :
    store.entryAt rfc3339 now key = some entry := by
  rcases store with ⟨entries | rows, ttl⟩
  · simp only [IdempotencyStore.prune,
      IdempotencyStore.entryAt, lookup_retain] at hEntry
    exact (Option.filter_eq_some_iff.mp hEntry).1
  · simp only [IdempotencyStore.prune] at hEntry
    split at hEntry
    · exact hEntry
    · simp only [IdempotencyStore.entryAt, lookup_retain,
        Option.map_eq_some_iff] at hEntry ⊢
      obtain ⟨row, hRow, hRead⟩ := hEntry
      exact ⟨row, (Option.filter_eq_some_iff.mp hRow).1, hRead⟩

/- A claim writes a pending entry, if anything. -/
theorem reserve_cases
    {fault : Bool}
    {digest token : String}
    {lease : Duration} :
    (store.reserve rfc3339 fault token asked digest now
        lease).2 = store ∨
      (store.reserve rfc3339 fault token asked digest now
        lease).2 =
        store.put rfc3339 asked
          (IdempotencyStore.pendingEntry digest now token) := by
  cases hOut : store.unreachable fault with
  | true =>
      rcases store with ⟨entries | rows, ttl⟩
      · cases hOut
      · have hYes : fault = true := hOut
        simp [IdempotencyStore.reserve, hYes]
  | false =>
      rw [reserve_eq hOut]
      dsimp only
      split
      · exact .inr rfl
      · split_ifs <;> simp

/- A release drops the entry, if anything. -/
theorem release_cases
    {fault : Bool}
    {token : String} :
    (store.release fault asked token).2 = store ∨
      (store.release fault asked token).2 =
        store.drop asked := by
  rcases store with ⟨entries | rows, ttl⟩
  · simp only [IdempotencyStore.release]
    split
    · exact .inr rfl
    · exact .inl rfl
  · simp only [IdempotencyStore.release]
    split
    · exact .inr rfl
    · exact .inl rfl

/- A response is written, or the call says that it is not. -/
theorem store_cases
    {fault : Bool}
    {digest token : String}
    {response : CachedResponse} :
    store.store rfc3339 fault asked digest response now
        token =
      (true,
        store.put rfc3339 asked ⟨digest, response, now, ""⟩) ∨
    store.store rfc3339 fault asked digest response now
        token = (false, store) := by
  rcases store with ⟨entries | rows, ttl⟩
  · simp only [IdempotencyStore.store]
    split
    · exact .inl rfl
    · exact .inr rfl
  · simp only [IdempotencyStore.store]
    split
    · exact .inl rfl
    · exact .inr rfl

/-
  A completed entry was there before the call, or the call has
  just stored it.
-/
theorem perform_completed
    {call : IdempotencyCall}
    {digest : String}
    {response : CachedResponse}
    {entry : IdempotencyEntry}
    (hEntry :
      (call.perform rfc3339 store).2.entryAt rfc3339 now key =
        some entry)
    (hCompleted : CompletedBy digest response entry) :
    store.entryAt rfc3339 now key = some entry ∨
      ∃ storedAt token fault,
        call =
            .store key digest response storedAt token fault ∧
          (store.store rfc3339 fault key digest response
            storedAt token).1 = true := by
  cases call with
  | lookup asked known readAt fault => exact .inl hEntry
  | reserve asked known readAt lease token fault =>
      left
      simp only [IdempotencyCall.perform] at hEntry
      have hCases :
          (store.reserve rfc3339 fault token asked known readAt
            lease).2 = store ∨ _ := reserve_cases
      rcases hCases with hSame | hPut
      · rwa [hSame] at hEntry
      · rw [hPut] at hEntry
        rcases entryAt_put hEntry with ⟨_, _, hPending⟩ | hOld
        · refine absurd ?_ hCompleted.completed
          rw [hPending]
          rfl
        · exact hOld
  | release asked token fault =>
      left
      simp only [IdempotencyCall.perform] at hEntry
      have hCases :
          (store.release fault asked token).2 = store ∨ _ :=
        release_cases
      rcases hCases with hSame | hDrop
      · rwa [hSame] at hEntry
      · rw [hDrop] at hEntry
        exact entryAt_drop hEntry
  | store asked known stored storedAt token fault =>
      have hCases :
          store.store rfc3339 fault asked known stored storedAt
            token = _ ∨ _ := store_cases
      simp only [IdempotencyCall.perform] at hEntry
      rcases hCases with hPut | hSame
      · rw [hPut] at hEntry
        rcases entryAt_put hEntry with
          ⟨rfl, hDigest, hResponse⟩ | hOld
        · right
          have hKnown : known = digest :=
            hDigest.symm.trans hCompleted.digest_eq
          have hStored : stored = response :=
            hResponse.symm.trans hCompleted.response_eq
          subst hKnown
          subst hStored
          exact ⟨storedAt, token, fault, rfl, by rw [hPut]⟩
        · exact .inl hOld
      · rw [hSame] at hEntry
        exact .inl hEntry
  | prune cutoff fault => exact .inl (entryAt_prune hEntry)

/- A replay comes from a completed entry. -/
theorem lookup_replay
    {fault : Bool}
    {digest : String}
    {response : CachedResponse}
    (hReplay :
      store.lookup rfc3339 fault key digest now =
        .replay response) :
    ∃ entry, store.entryAt rfc3339 now key = some entry ∧
      CompletedBy digest response entry := by
  cases hOut : store.unreachable fault with
  | true =>
      rcases store with ⟨entries | rows, ttl⟩
      · cases hOut
      · have hYes : fault = true := hOut
        simp [IdempotencyStore.lookup, hYes] at hReplay
  | false =>
      rw [lookup_eq hOut] at hReplay
      split at hReplay
      · cases hReplay
      · rename_i entry hEntry
        split_ifs at hReplay with hLapsed hPending hDigest
        cases hReplay
        exact ⟨entry, hEntry, hDigest, rfl, hPending⟩

theorem reserve_replay
    {fault : Bool}
    {digest token : String}
    {lease : Duration}
    {response : CachedResponse}
    (hReplay :
      (store.reserve rfc3339 fault token key digest now
        lease).1 = .replay response) :
    ∃ entry, store.entryAt rfc3339 now key = some entry ∧
      CompletedBy digest response entry := by
  cases hOut : store.unreachable fault with
  | true =>
      rcases store with ⟨entries | rows, ttl⟩
      · cases hOut
      · have hYes : fault = true := hOut
        simp [IdempotencyStore.reserve, hYes] at hReplay
  | false =>
      rw [reserve_eq hOut] at hReplay
      dsimp only at hReplay
      split at hReplay
      · cases hReplay
      · rename_i entry hEntry
        split_ifs at hReplay with hLapsed hPending hLease hDigest
        cases hReplay
        exact ⟨entry, hEntry, hDigest, rfl, hPending⟩

end Model

end IcpHandler
