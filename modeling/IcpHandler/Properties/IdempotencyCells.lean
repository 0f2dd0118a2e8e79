import Mathlib.Algebra.Order.Group.Unbundled.Basic
import Mathlib.Algebra.Order.Ring.Int
import IcpHandler.Data.LeaseCell
import IcpHandler.Model.Idempotency

/-
  What an idempotency store holds under one key is a lease
  cell, on either backend, and every call is an operation on
  the cell of its key.

  Main declarations:
    * `IdempotencyStore.Holds`
    * `IdempotencyCall`, `IdempotencyCall.perform`
    * `perform_cell`
    * `runIdempotency_cell`
-/

------------------------------------------------------------
-- The Cell of a Key
------------------------------------------------------------

namespace IcpHandler

namespace Model

open Data

/- The cell of one key: holders are reservation tokens. -/
abbrev KeyCell :=
  LeaseCell.Cell DateTime String String CachedResponse

abbrev KeyOp :=
  LeaseCell.Op DateTime String String CachedResponse

abbrev KeyAnswer := LeaseCell.Answer CachedResponse

/- The entry a cell stands for. -/
def cellEntry : KeyCell → Option IdempotencyEntry
  | .empty => none
  | .claimed digest token since =>
      some ⟨digest, ⟨pendingStatus, ""⟩, since, token⟩
  | .done digest response since =>
      some ⟨digest, response, since, ""⟩

/-
  The cell is one the calls can build: its date is a clock
  reading, a claim carries a token, and a completed response
  has a real status.
-/
def CellOk (rfc3339 : Rfc3339) : KeyCell → Prop
  | .empty => True
  | .claimed _ token since =>
      token ≠ "" ∧ rfc3339.Valid since
  | .done _ response since =>
      response.status ≠ pendingStatus ∧ rfc3339.Valid since

namespace IdempotencyStore

/- The store holds the cell under the key. -/
def Holds
    (rfc3339 : Rfc3339)
    (store : IdempotencyStore)
    (key : IdempotencyKey)
    (cell : KeyCell) : Prop :=
  match store.backend with
  | .memory entries => entries.lookup key = cellEntry cell
  | .sqlite rows =>
      rows.lookup key =
        (cellEntry cell).map (IdempotencyRow.ofEntry rfc3339)

/- The entry a reader makes out under the key. -/
def entryAt
    (rfc3339 : Rfc3339)
    (now : DateTime)
    (key : IdempotencyKey)
    (store : IdempotencyStore) : Option IdempotencyEntry :=
  match store.backend with
  | .memory entries => entries.lookup key
  | .sqlite rows =>
      (rows.lookup key).map (IdempotencyRow.toEntry rfc3339 now)

/- The store with the entry written under the key. -/
def put
    (rfc3339 : Rfc3339)
    (key : IdempotencyKey)
    (entry : IdempotencyEntry)
    (store : IdempotencyStore) : IdempotencyStore :=
  match store.backend with
  | .memory entries =>
      { store with backend := .memory (entries.insert key entry) }
  | .sqlite rows =>
      { store with
        backend :=
          .sqlite (rows.insert key (.ofEntry rfc3339 entry)) }

/- The store with nothing under the key. -/
def drop
    (key : IdempotencyKey)
    (store : IdempotencyStore) : IdempotencyStore :=
  match store.backend with
  | .memory entries =>
      { store with backend := .memory (entries.erase key) }
  | .sqlite rows =>
      { store with backend := .sqlite (rows.erase key) }

/- The store is the table, and the table is out of reach. -/
def unreachable
    (store : IdempotencyStore)
    (fault : Bool) : Bool :=
  match store.backend with
  | .memory _ => false
  | .sqlite _ => fault

end IdempotencyStore

/- The date of a cell. -/
theorem valid_of_cellEntry
    {rfc3339 : Rfc3339}
    {cell : KeyCell}
    {entry : IdempotencyEntry}
    (hOk : CellOk rfc3339 cell)
    (hEntry : cellEntry cell = some entry) :
    rfc3339.Valid entry.createdAt := by
  cases cell with
  | empty => cases hEntry
  | claimed digest token since =>
      cases hEntry
      exact hOk.2
  | done digest response since =>
      cases hEntry
      exact hOk.2

/- A status is read back as it was written. -/
theorem status_ofInt (status : UInt16) :
    UInt16.ofInt (status.toNat : Int) = status := by
  have hLt : status.toNat < 2 ^ 16 := status.toNat_lt
  refine UInt16.toNat_inj.mp ?_
  rw [UInt16.ofInt, UInt16.toNat_ofNat']
  omega

/- A row reads back as the entry it was written from. -/
theorem toEntry_ofEntry
    {rfc3339 : Rfc3339}
    {entry : IdempotencyEntry}
    (now : DateTime)
    (hValid : rfc3339.Valid entry.createdAt) :
    (IdempotencyRow.ofEntry rfc3339 entry).toEntry
      rfc3339 now = entry := by
  rcases entry with ⟨digest, ⟨status, body⟩, date, token⟩
  simp [IdempotencyRow.toEntry, IdempotencyRow.ofEntry,
    rfc3339.parse_print date hValid, status_ofInt]

end Model

end IcpHandler

------------------------------------------------------------
-- Calls
------------------------------------------------------------

namespace IcpHandler

namespace Model

open Data

/- One call on the store. -/
inductive IdempotencyCall where
  | lookup
      (key : IdempotencyKey)
      (digest : String)
      (now : DateTime)
      (fault : Bool)
  | reserve
      (key : IdempotencyKey)
      (digest : String)
      (now : DateTime)
      (lease : Duration)
      (token : String)
      (fault : Bool)
  | release
      (key : IdempotencyKey)
      (token : String)
      (fault : Bool)
  | store
      (key : IdempotencyKey)
      (digest : String)
      (response : CachedResponse)
      (now : DateTime)
      (token : String)
      (fault : Bool)
  | prune (now : DateTime) (fault : Bool)

/- What a call came to. -/
inductive CallOutcome where
  | looked (outcome : LookupOutcome)
  | reserved (outcome : ReserveOutcome)
  | released (yes : Bool)
  | stored (yes : Bool)
  | pruned (count : Nat)

namespace IdempotencyCall

/- Make the call. -/
def perform
    (rfc3339 : Rfc3339)
    (store : IdempotencyStore) :
    IdempotencyCall → CallOutcome × IdempotencyStore
  | .lookup key digest now fault =>
      (.looked (store.lookup rfc3339 fault key digest now),
        store)
  | .reserve key digest now lease token fault =>
      let result :=
        store.reserve rfc3339 fault token key digest now lease
      (.reserved result.1, result.2)
  | .release key token fault =>
      let result := store.release fault key token
      (.released result.1, result.2)
  | .store key digest response now token fault =>
      let result :=
        store.store rfc3339 fault key digest response now token
      (.stored result.1, result.2)
  | .prune now fault =>
      let result := store.prune rfc3339 fault now
      (.pruned result.1, result.2)

/- The clock reading of a call. -/
def now? : IdempotencyCall → Option DateTime
  | .lookup _ _ now _ => some now
  | .reserve _ _ now _ _ _ => some now
  | .release _ _ _ => none
  | .store _ _ _ now _ _ => some now
  | .prune now _ => some now

/-
  What the callers see to: the clock reads instants that have
  a text form, tokens are the random ones and never empty, a
  stored response has a real status, and the lease is the one
  that is configured.
-/
def Proper
    (rfc3339 : Rfc3339)
    (ttl lease : Duration) : IdempotencyCall → Prop
  | .lookup _ _ _ _ => True
  | .reserve _ _ now asked token _ =>
      rfc3339.Valid now ∧ asked = lease ∧ token ≠ ""
  | .release _ _ _ => True
  | .store _ _ response now token _ =>
      rfc3339.Valid now ∧ token ≠ "" ∧
        response.status ≠ pendingStatus
  | .prune now _ => rfc3339.Valid (now - ttl)

/-
  The operation a call is on the cell of a key, if it concerns
  the key and gets through.
-/
def cellOp?
    (store : IdempotencyStore)
    (key : IdempotencyKey) : IdempotencyCall → Option KeyOp
  | .lookup asked digest now fault =>
      if asked = key ∧ store.unreachable fault = false then
        some (.peek digest now)
      else none
  | .reserve asked digest now _ token fault =>
      if asked = key ∧ store.unreachable fault = false then
        some (.claim digest token now)
      else none
  | .release asked token fault =>
      if asked = key ∧ store.unreachable fault = false then
        some (.abandon token)
      else none
  | .store asked digest response now token fault =>
      if asked = key ∧ store.unreachable fault = false then
        some (.complete digest response now token)
      else none
  | .prune now fault =>
      if store.unreachable fault = false then some (.evict now)
      else none

end IdempotencyCall

/- What an outcome is in the terms of the cell. -/
def CallOutcome.answer : CallOutcome → KeyAnswer
  | .looked .miss => .miss
  | .looked (.replay response) => .replay response
  | .looked .conflict => .conflict
  | .reserved (.won _) => .won
  | .reserved (.replay response) => .replay response
  | .reserved .conflict => .conflict
  | .reserved .inProgress => .busy
  | .released yes => .landed yes
  | .stored yes => .landed yes
  | .pruned _ => .evicted

end Model

end IcpHandler

------------------------------------------------------------
-- Calls on the Cell
------------------------------------------------------------

namespace IcpHandler

namespace Model

open Data

variable {rfc3339 : Rfc3339}
variable {store : IdempotencyStore}
variable {key asked : IdempotencyKey}
variable {cell : KeyCell}
variable {fault : Bool}

/- What is held is what is read. -/
theorem entryAt_of_holds
    (now : DateTime)
    (hOk : CellOk rfc3339 cell)
    (hHolds : store.Holds rfc3339 key cell) :
    store.entryAt rfc3339 now key = cellEntry cell := by
  rcases store with ⟨entries | rows, ttl⟩
  · exact hHolds
  · have hRow :
        rows.lookup key =
          (cellEntry cell).map
            (IdempotencyRow.ofEntry rfc3339) := hHolds
    simp only [IdempotencyStore.entryAt, hRow, Option.map_map]
    cases hEntry : cellEntry cell with
    | none => rfl
    | some entry =>
        exact congrArg some
          (toEntry_ofEntry now (valid_of_cellEntry hOk hEntry))

/- A write is held under its key, and only there. -/
theorem holds_put
    {entry : IdempotencyEntry}
    (hEntry : cellEntry cell = some entry) :
    (store.put rfc3339 key entry).Holds rfc3339 key cell := by
  rcases store with ⟨entries | rows, ttl⟩
  · simp [IdempotencyStore.Holds, IdempotencyStore.put, hEntry]
  · simp [IdempotencyStore.Holds, IdempotencyStore.put, hEntry]

theorem holds_put_other
    {entry : IdempotencyEntry}
    (hOther : asked ≠ key)
    (hHolds : store.Holds rfc3339 key cell) :
    (store.put rfc3339 asked entry).Holds rfc3339 key cell := by
  rcases store with ⟨entries | rows, ttl⟩
  · simpa [IdempotencyStore.Holds, IdempotencyStore.put,
      AList.lookup_insert_ne hOther.symm] using hHolds
  · simpa [IdempotencyStore.Holds, IdempotencyStore.put,
      AList.lookup_insert_ne hOther.symm] using hHolds

theorem holds_drop :
    (store.drop key).Holds rfc3339 key .empty := by
  rcases store with ⟨entries | rows, ttl⟩
  · simp [IdempotencyStore.Holds, IdempotencyStore.drop,
      cellEntry]
  · simp [IdempotencyStore.Holds, IdempotencyStore.drop,
      cellEntry]

theorem holds_drop_other
    (hOther : asked ≠ key)
    (hHolds : store.Holds rfc3339 key cell) :
    (store.drop asked).Holds rfc3339 key cell := by
  rcases store with ⟨entries | rows, ttl⟩
  · simpa [IdempotencyStore.Holds, IdempotencyStore.drop,
      AList.lookup_erase_ne hOther.symm] using hHolds
  · simpa [IdempotencyStore.Holds, IdempotencyStore.drop,
      AList.lookup_erase_ne hOther.symm] using hHolds

end Model

end IcpHandler

------------------------------------------------------------
-- The Calls, on Either Backend
------------------------------------------------------------

namespace IcpHandler

namespace Model

open Data

variable {rfc3339 : Rfc3339}
variable {store : IdempotencyStore}
variable {key : IdempotencyKey}
variable {fault : Bool}
variable {digest token : String}
variable {now : DateTime}

/-
  On both backends a call decides from the entry it reads and
  writes at most its own key. An unreachable table answers
  without deciding and stays as it is.
-/
theorem lookup_eq
    (hReached : store.unreachable fault = false) :
    store.lookup rfc3339 fault key digest now =
      match store.entryAt rfc3339 now key with
      | none => .miss
      | some entry =>
          if now - entry.createdAt > store.ttl then .miss
          else if entry.response.status = pendingStatus then
            .miss
          else if entry.requestDigest = digest then
            .replay entry.response
          else .conflict := by
  rcases store with ⟨entries | rows, ttl⟩
  · rfl
  · have hFault : fault = false := hReached
    simp only [IdempotencyStore.lookup,
      IdempotencyStore.entryAt, hFault]
    rfl

theorem reserve_eq
    {lease : Duration}
    (hReached : store.unreachable fault = false) :
    store.reserve rfc3339 fault token key digest now lease =
      let claimed :=
        (ReserveOutcome.won token,
          store.put rfc3339 key
            (IdempotencyStore.pendingEntry digest now token))
      match store.entryAt rfc3339 now key with
      | none => claimed
      | some entry =>
          if now - entry.createdAt > store.ttl then claimed
          else if entry.response.status = pendingStatus then
            if now - entry.createdAt > lease then claimed
            else (.inProgress, store)
          else if entry.requestDigest = digest then
            (.replay entry.response, store)
          else (.conflict, store) := by
  rcases store with ⟨entries | rows, ttl⟩
  · simp only [IdempotencyStore.reserve,
      IdempotencyStore.entryAt, IdempotencyStore.put]
    cases entries.lookup key with
    | none => rfl
    | some entry =>
        simp only
        by_cases hLapsed : now - entry.createdAt > ttl
        · rw [if_pos hLapsed, if_neg (not_le.mpr hLapsed)]
        · rw [if_neg hLapsed, if_pos (not_lt.mp hLapsed)]
  · have hFault : fault = false := hReached
    simp only [IdempotencyStore.reserve,
      IdempotencyStore.entryAt, IdempotencyStore.put, hFault]
    cases rows.lookup key with
    | none => rfl
    | some row => rfl

/- A row is pending as its entry is. -/
theorem ofEntry_status_beq
    (entry : IdempotencyEntry) :
    ((IdempotencyRow.ofEntry rfc3339 entry).responseStatus ==
        0) =
      (entry.response.status == pendingStatus) := by
  have hZero :
      (entry.response.status.toNat : Int) = 0 ↔
        entry.response.status = pendingStatus := by
    rw [Int.natCast_eq_zero]
    exact ⟨fun hNat => UInt16.toNat_inj.mp hNat,
      fun hStatus => by rw [hStatus]; rfl⟩
  rw [Bool.eq_iff_iff, beq_iff_eq, beq_iff_eq]
  exact hZero

theorem release_eq
    {cell : KeyCell}
    (hHolds : store.Holds rfc3339 key cell)
    (hReached : store.unreachable fault = false) :
    store.release fault key token =
      if (cellEntry cell).any fun entry =>
          entry.response.status == pendingStatus &&
            entry.reservationId == token then
        (true, store.drop key)
      else (false, store) := by
  rcases store with ⟨entries | rows, ttl⟩
  · have hEntry :
        entries.lookup key = cellEntry cell := hHolds
    simp only [IdempotencyStore.release, hEntry]
    rfl
  · have hFault : fault = false := hReached
    have hRow :
        rows.lookup key =
          (cellEntry cell).map
            (IdempotencyRow.ofEntry rfc3339) := hHolds
    simp only [IdempotencyStore.release, hRow, hFault,
      Option.any_map, Bool.not_false, Bool.true_and,
      ofEntry_status_beq]
    rfl

theorem store_eq
    {cell : KeyCell}
    {response : CachedResponse}
    (hHolds : store.Holds rfc3339 key cell)
    (hReached : store.unreachable fault = false) :
    store.store rfc3339 fault key digest response now token =
      if (cellEntry cell).all fun entry =>
          entry.reservationId == token then
        (true,
          store.put rfc3339 key ⟨digest, response, now, ""⟩)
      else (false, store) := by
  rcases store with ⟨entries | rows, ttl⟩
  · have hEntry :
        entries.lookup key = cellEntry cell := hHolds
    simp only [IdempotencyStore.store, hEntry]
    rfl
  · have hFault : fault = false := hReached
    have hRow :
        rows.lookup key =
          (cellEntry cell).map
            (IdempotencyRow.ofEntry rfc3339) := hHolds
    simp only [IdempotencyStore.store, hRow, hFault,
      Option.all_map, Bool.not_false, Bool.true_and]
    rfl

/- A sweep keeps of a key what it keeps of its cell. -/
theorem holds_prune
    {cell : KeyCell}
    (hOk : CellOk rfc3339 cell)
    (hHolds : store.Holds rfc3339 key cell)
    (hValid : rfc3339.Valid (now - store.ttl))
    (hReached : store.unreachable fault = false) :
    (store.prune rfc3339 fault now).2.Holds rfc3339 key
      (if (cellEntry cell).any fun entry =>
          decide (entry.createdAt + store.ttl < now) then
        .empty
      else cell) := by
  have hKept :
      cellEntry (if (cellEntry cell).any fun entry =>
          decide (entry.createdAt + store.ttl < now) then
          .empty
        else cell) =
        (cellEntry cell).filter fun entry =>
          !decide (entry.createdAt + store.ttl < now) := by
    cases hEntry : cellEntry cell with
    | none => simpa using hEntry
    | some entry =>
        by_cases hLapsed : entry.createdAt + store.ttl < now
        · simp [hLapsed, cellEntry, Option.filter]
        · simp [hLapsed, hEntry, Option.filter]
  rcases store with ⟨entries | rows, ttl⟩
  · have hEntry :
        entries.lookup key = cellEntry cell := hHolds
    simp only [IdempotencyStore.Holds,
      IdempotencyStore.prune, lookup_retain, hEntry, hKept]
    congr 1
    funext entry
    rw [← decide_not, decide_eq_decide, not_lt,
      sub_le_iff_le_add]
  · have hFault : fault = false := hReached
    have hRow :
        rows.lookup key =
          (cellEntry cell).map
            (IdempotencyRow.ofEntry rfc3339) := hHolds
    simp only [IdempotencyStore.Holds,
      IdempotencyStore.prune, hFault, lookup_retain, hRow,
      hKept, Bool.false_eq_true, if_false]
    cases hEntry : cellEntry cell with
    | none => rfl
    | some entry =>
        have hText :
            rfc3339.print entry.createdAt <
                rfc3339.print (now - ttl) ↔
              entry.createdAt + ttl < now := by
          rw [rfc3339.print_lt_iff _ _
            (valid_of_cellEntry hOk hEntry) hValid]
          exact lt_sub_iff_add_lt
        by_cases hLapsed : entry.createdAt + ttl < now
        · simp [Option.filter, IdempotencyRow.ofEntry, hText,
            hLapsed]
        · simp [Option.filter, IdempotencyRow.ofEntry, hText,
            hLapsed]

end Model

end IcpHandler

------------------------------------------------------------
-- One Call
------------------------------------------------------------

namespace IcpHandler

namespace Model

open Data

variable {rfc3339 : Rfc3339}
variable {store : IdempotencyStore}
variable {key asked : IdempotencyKey}
variable {cell : KeyCell}
variable {lease : Duration}

/- Whether the table is out of reach for the call. -/
def IdempotencyCall.fault : IdempotencyCall → Bool
  | .lookup _ _ _ fault => fault
  | .reserve _ _ _ _ _ fault => fault
  | .release _ _ fault => fault
  | .store _ _ _ _ _ fault => fault
  | .prune _ fault => fault

/- A call that does not get through changes nothing. -/
theorem perform_unreachable
    {call : IdempotencyCall}
    (hOut : store.unreachable call.fault = true) :
    (call.perform rfc3339 store).2 = store := by
  rcases store with ⟨entries | rows, ttl⟩
  · cases hOut
  · have hFault : call.fault = true := hOut
    cases call with
    | lookup key digest now fault => rfl
    | reserve key digest now lease token fault =>
        have hYes : fault = true := hFault
        simp [IdempotencyCall.perform,
          IdempotencyStore.reserve, hYes]
    | release key token fault =>
        have hYes : fault = true := hFault
        simp [IdempotencyCall.perform,
          IdempotencyStore.release, hYes]
    | store key digest response now token fault =>
        have hYes : fault = true := hFault
        simp [IdempotencyCall.perform,
          IdempotencyStore.store, hYes]
    | prune now fault =>
        have hYes : fault = true := hFault
        simp [IdempotencyCall.perform,
          IdempotencyStore.prune, hYes]

/- The key of a call, if it has one. -/
def IdempotencyCall.key? :
    IdempotencyCall → Option IdempotencyKey
  | .lookup key _ _ _ => some key
  | .reserve key _ _ _ _ _ => some key
  | .release key _ _ => some key
  | .store key _ _ _ _ _ => some key
  | .prune _ _ => none

/-
  A call on a key leaves the store as it is, or writes that
  key, or drops it.
-/
theorem perform_cases
    {call : IdempotencyCall}
    (hKey : call.key? = some asked) :
    (call.perform rfc3339 store).2 = store ∨
      (∃ entry, (call.perform rfc3339 store).2 =
        store.put rfc3339 asked entry) ∨
      (call.perform rfc3339 store).2 = store.drop asked := by
  cases call with
  | lookup key digest now fault => exact .inl rfl
  | reserve key digest now lease token fault =>
      cases hKey
      cases hOut : store.unreachable fault with
      | true => exact .inl (perform_unreachable hOut)
      | false =>
          simp only [IdempotencyCall.perform, reserve_eq hOut]
          split
          · exact .inr (.inl ⟨_, rfl⟩)
          · split_ifs
            · exact .inr (.inl ⟨_, rfl⟩)
            · exact .inr (.inl ⟨_, rfl⟩)
            · exact .inl rfl
            · exact .inl rfl
            · exact .inl rfl
  | release key token fault =>
      cases hKey
      rcases store with ⟨entries | rows, ttl⟩
      · simp only [IdempotencyCall.perform,
          IdempotencyStore.release]
        split
        · exact .inr (.inr rfl)
        · exact .inl rfl
      · simp only [IdempotencyCall.perform,
          IdempotencyStore.release]
        split
        · exact .inr (.inr rfl)
        · exact .inl rfl
  | store key digest response now token fault =>
      cases hKey
      rcases store with ⟨entries | rows, ttl⟩
      · simp only [IdempotencyCall.perform,
          IdempotencyStore.store]
        split
        · exact .inr (.inl ⟨_, rfl⟩)
        · exact .inl rfl
      · simp only [IdempotencyCall.perform,
          IdempotencyStore.store]
        split
        · exact .inr (.inl ⟨_, rfl⟩)
        · exact .inl rfl
  | prune now fault => cases hKey

/- A call on another key leaves the cell alone. -/
theorem holds_perform_other
    {call : IdempotencyCall}
    (hKey : call.key? = some asked)
    (hOther : asked ≠ key)
    (hHolds : store.Holds rfc3339 key cell) :
    (call.perform rfc3339 store).2.Holds rfc3339 key cell := by
  rcases perform_cases hKey with hSame | ⟨entry, hPut⟩ | hDrop
  · rwa [hSame]
  · rw [hPut]
    exact holds_put_other hOther hHolds
  · rw [hDrop]
    exact holds_drop_other hOther hHolds

/- No call changes the time to live or the kind of backend. -/
theorem perform_ttl
    (call : IdempotencyCall) :
    (call.perform rfc3339 store).2.ttl = store.ttl ∧
      (call.perform rfc3339 store).2.unreachable =
        store.unreachable := by
  cases hKey : call.key? with
  | some asked =>
      have hCases :
          (call.perform rfc3339 store).2 = store ∨ _ :=
        perform_cases hKey
      rcases hCases with hSame | ⟨entry, hPut⟩ | hDrop
      · rw [hSame]
        exact ⟨rfl, rfl⟩
      · rw [hPut]
        rcases store with ⟨entries | rows, ttl⟩
        · exact ⟨rfl, rfl⟩
        · exact ⟨rfl, rfl⟩
      · rw [hDrop]
        rcases store with ⟨entries | rows, ttl⟩
        · exact ⟨rfl, rfl⟩
        · exact ⟨rfl, rfl⟩
  | none =>
      cases call with
      | prune now fault =>
          rcases store with ⟨entries | rows, ttl⟩
          · exact ⟨rfl, rfl⟩
          · cases fault with
            | true => exact ⟨rfl, rfl⟩
            | false => exact ⟨rfl, rfl⟩
      | _ => cases hKey

/-
  A call that concerns the key and gets through answers as its
  operation on the cell does, and leaves the cell the
  operation leaves.
-/
structure CellStep
    (rfc3339 : Rfc3339)
    (key : IdempotencyKey)
    (expected : KeyAnswer × KeyCell)
    (result : CallOutcome × IdempotencyStore) : Prop where
  answer : result.1.answer = expected.1
  holds : result.2.Holds rfc3339 key expected.2
  ok : CellOk rfc3339 expected.2

theorem lookup_step
    {digest : String}
    {now : DateTime}
    {fault : Bool}
    (hOk : CellOk rfc3339 cell)
    (hHolds : store.Holds rfc3339 key cell)
    (hReached : store.unreachable fault = false) :
    CellStep rfc3339 key
      (LeaseCell.step store.ttl lease (.peek digest now) cell)
      ((IdempotencyCall.lookup key digest now fault).perform
        rfc3339 store) := by
  have hCell :
      (LeaseCell.step store.ttl lease
        (.peek digest now) cell).2 = cell := by
    cases cell with
    | empty => rfl
    | claimed known token since => rfl
    | done known response since =>
        simp only [LeaseCell.step]
        split <;> rfl
  refine ⟨?_, by rwa [hCell], by rwa [hCell]⟩
  simp only [IdempotencyCall.perform, lookup_eq hReached,
    entryAt_of_holds now hOk hHolds]
  cases cell with
  | empty => rfl
  | claimed known token since =>
      simp only [cellEntry, LeaseCell.step]
      split <;> rfl
  | done known response since =>
      have hStatus : response.status ≠ pendingStatus := hOk.1
      simp only [cellEntry, LeaseCell.step,
        LeaseCell.answerDone, gt_iff_lt, lt_sub_iff_add_lt',
        if_neg hStatus]
      split_ifs <;> rfl

theorem reserve_step
    {digest token : String}
    {now : DateTime}
    {fault : Bool}
    (hOk : CellOk rfc3339 cell)
    (hHolds : store.Holds rfc3339 key cell)
    (hReached : store.unreachable fault = false)
    (hToken : token ≠ "")
    (hValid : rfc3339.Valid now) :
    CellStep rfc3339 key
      (LeaseCell.step store.ttl lease
        (.claim digest token now) cell)
      ((IdempotencyCall.reserve key digest now lease token
        fault).perform rfc3339 store) := by
  have hClaimed :
      CellStep rfc3339 key
        (.won, .claimed digest token now)
        (.reserved (.won token),
          store.put rfc3339 key
            (IdempotencyStore.pendingEntry digest now token)) :=
    ⟨rfl, holds_put rfl, hToken, hValid⟩
  simp only [IdempotencyCall.perform, reserve_eq hReached,
    entryAt_of_holds now hOk hHolds]
  cases cell with
  | empty => exact hClaimed
  | claimed known owner since =>
      simp only [cellEntry, LeaseCell.step, gt_iff_lt,
        lt_sub_iff_add_lt', if_true]
      split_ifs
      · exact hClaimed
      · exact hClaimed
      · exact ⟨rfl, hHolds, hOk⟩
  | done known response since =>
      have hStatus : response.status ≠ pendingStatus := hOk.1
      simp only [cellEntry, LeaseCell.step,
        LeaseCell.answerDone, gt_iff_lt, lt_sub_iff_add_lt',
        if_neg hStatus]
      split_ifs
      · exact hClaimed
      · exact ⟨rfl, hHolds, hOk⟩
      · exact ⟨rfl, hHolds, hOk⟩

theorem release_step
    {token : String}
    {fault : Bool}
    (hOk : CellOk rfc3339 cell)
    (hHolds : store.Holds rfc3339 key cell)
    (hReached : store.unreachable fault = false) :
    CellStep rfc3339 key
      (LeaseCell.step store.ttl lease (.abandon token) cell)
      ((IdempotencyCall.release key token fault).perform
        rfc3339 store) := by
  simp only [IdempotencyCall.perform,
    release_eq hHolds hReached]
  cases cell with
  | empty => exact ⟨rfl, hHolds, hOk⟩
  | claimed known owner since =>
      by_cases hOwner : owner = token
      · simp only [cellEntry, LeaseCell.step, hOwner,
          Option.any_some, BEq.rfl, Bool.and_self, if_true]
        exact ⟨rfl, holds_drop, trivial⟩
      · simp only [cellEntry, LeaseCell.step, if_neg hOwner,
          Option.any_some, beq_eq_false_iff_ne.mpr hOwner,
          Bool.and_false, Bool.false_eq_true, if_false]
        exact ⟨rfl, hHolds, hOk⟩
  | done known response since =>
      have hStatus : response.status ≠ pendingStatus := hOk.1
      simp only [cellEntry, LeaseCell.step, Option.any_some,
        beq_eq_false_iff_ne.mpr hStatus, Bool.false_and,
        Bool.false_eq_true, if_false]
      exact ⟨rfl, hHolds, hOk⟩

theorem store_step
    {digest token : String}
    {response : CachedResponse}
    {now : DateTime}
    {fault : Bool}
    (hOk : CellOk rfc3339 cell)
    (hHolds : store.Holds rfc3339 key cell)
    (hReached : store.unreachable fault = false)
    (hToken : token ≠ "")
    (hStatus : response.status ≠ pendingStatus)
    (hValid : rfc3339.Valid now) :
    CellStep rfc3339 key
      (LeaseCell.step store.ttl lease
        (.complete digest response now token) cell)
      ((IdempotencyCall.store key digest response now token
        fault).perform rfc3339 store) := by
  have hWritten :
      CellStep rfc3339 key
        (.landed true, .done digest response now)
        (.stored true,
          store.put rfc3339 key
            ⟨digest, response, now, ""⟩) :=
    ⟨rfl, holds_put rfl, hStatus, hValid⟩
  simp only [IdempotencyCall.perform,
    store_eq hHolds hReached]
  cases cell with
  | empty => exact hWritten
  | claimed known owner since =>
      by_cases hOwner : owner = token
      · simp only [cellEntry, LeaseCell.step, hOwner,
          Option.all_some, BEq.rfl, if_true]
        exact hWritten
      · simp only [cellEntry, LeaseCell.step, if_neg hOwner,
          Option.all_some, beq_eq_false_iff_ne.mpr hOwner,
          Bool.false_eq_true, if_false]
        exact ⟨rfl, hHolds, hOk⟩
  | done known old since =>
      -- A completed row carries no token, and callers do.
      simp only [cellEntry, LeaseCell.step, Option.all_some,
        beq_eq_false_iff_ne.mpr hToken.symm,
        Bool.false_eq_true, if_false]
      exact ⟨rfl, hHolds, hOk⟩

theorem prune_step
    {now : DateTime}
    {fault : Bool}
    (hOk : CellOk rfc3339 cell)
    (hHolds : store.Holds rfc3339 key cell)
    (hReached : store.unreachable fault = false)
    (hValid : rfc3339.Valid (now - store.ttl)) :
    CellStep rfc3339 key
      (LeaseCell.step store.ttl lease (.evict now) cell)
      ((IdempotencyCall.prune now fault).perform
        rfc3339 store) := by
  have hKept := holds_prune hOk hHolds hValid hReached
  cases cell with
  | empty => exact ⟨rfl, hKept, trivial⟩
  | claimed known owner since =>
      simp only [cellEntry, Option.any_some,
        decide_eq_true_eq] at hKept
      simp only [LeaseCell.step]
      split
      · rw [if_pos ‹_›] at hKept
        exact ⟨rfl, hKept, trivial⟩
      · rw [if_neg ‹_›] at hKept
        exact ⟨rfl, hKept, hOk⟩
  | done known response since =>
      simp only [cellEntry, Option.any_some,
        decide_eq_true_eq] at hKept
      simp only [LeaseCell.step]
      split
      · rw [if_pos ‹_›] at hKept
        exact ⟨rfl, hKept, trivial⟩
      · rw [if_neg ‹_›] at hKept
        exact ⟨rfl, hKept, hOk⟩

end Model

end IcpHandler

------------------------------------------------------------
-- Runs
------------------------------------------------------------

namespace IcpHandler

namespace Model

open Data

/- A call and what it came to. -/
abbrev IdempotencyLog := List (IdempotencyCall × CallOutcome)

/-
  Calls one after another, oldest first, by any workers and on
  any keys. Each is atomic, so this is every interleaving.
-/
def runIdempotency
    (rfc3339 : Rfc3339) :
    List IdempotencyCall → IdempotencyStore →
      IdempotencyLog × IdempotencyStore
  | [], store => ([], store)
  | call :: calls, store =>
      let result := call.perform rfc3339 store
      let rest := runIdempotency rfc3339 calls result.2
      ((call, result.1) :: rest.1, rest.2)

/- What a log says about the cell of a key. -/
def IdempotencyStore.cellLog
    (store : IdempotencyStore)
    (key : IdempotencyKey)
    (log : IdempotencyLog) : List (KeyOp × KeyAnswer) :=
  log.filterMap fun entry =>
    (entry.1.cellOp? store key).map fun op =>
      (op, entry.2.answer)

variable {rfc3339 : Rfc3339}
variable {store : IdempotencyStore}
variable {key : IdempotencyKey}
variable {cell : KeyCell}
variable {lease : Duration}

/- What a call does to the cell of a key, in one statement. -/
theorem perform_cell
    {call : IdempotencyCall}
    (hOk : CellOk rfc3339 cell)
    (hHolds : store.Holds rfc3339 key cell)
    (hProper : call.Proper rfc3339 store.ttl lease) :
    (call.cellOp? store key = none ∧
        (call.perform rfc3339 store).2.Holds
          rfc3339 key cell) ∨
      ∃ op, call.cellOp? store key = some op ∧
        CellStep rfc3339 key
          (LeaseCell.step store.ttl lease op cell)
          (call.perform rfc3339 store) := by
  cases hOut : store.unreachable call.fault with
  | true =>
      left
      refine ⟨?_, by rwa [perform_unreachable hOut]⟩
      cases call with
      | lookup _ _ _ fault =>
          have hFault : store.unreachable fault = true := hOut
          simp [IdempotencyCall.cellOp?, hFault]
      | reserve _ _ _ _ _ fault =>
          have hFault : store.unreachable fault = true := hOut
          simp [IdempotencyCall.cellOp?, hFault]
      | release _ _ fault =>
          have hFault : store.unreachable fault = true := hOut
          simp [IdempotencyCall.cellOp?, hFault]
      | store _ _ _ _ _ fault =>
          have hFault : store.unreachable fault = true := hOut
          simp [IdempotencyCall.cellOp?, hFault]
      | prune _ fault =>
          have hFault : store.unreachable fault = true := hOut
          simp [IdempotencyCall.cellOp?, hFault]
  | false =>
      by_cases hOther :
          ∃ asked, call.key? = some asked ∧ asked ≠ key
      · rcases hOther with ⟨asked, hKey, hNe⟩
        left
        refine ⟨?_, holds_perform_other hKey hNe hHolds⟩
        cases call with
        | prune now fault => cases hKey
        | _ =>
            cases hKey
            exact if_neg fun hBoth => hNe hBoth.1
      · right
        have hKey :
            ∀ asked, call.key? = some asked → asked = key :=
          fun asked hAsked => by
            by_contra hNe
            exact hOther ⟨asked, hAsked, hNe⟩
        cases call with
        | lookup asked digest now fault =>
            cases hKey asked rfl
            exact ⟨_, if_pos ⟨rfl, hOut⟩,
              lookup_step hOk hHolds hOut⟩
        | reserve asked digest now wanted token fault =>
            cases hKey asked rfl
            rcases hProper with ⟨hValid, rfl, hToken⟩
            exact ⟨_, if_pos ⟨rfl, hOut⟩,
              reserve_step hOk hHolds hOut hToken hValid⟩
        | release asked token fault =>
            cases hKey asked rfl
            exact ⟨_, if_pos ⟨rfl, hOut⟩,
              release_step hOk hHolds hOut⟩
        | store asked digest response now token fault =>
            cases hKey asked rfl
            rcases hProper with ⟨hValid, hToken, hStatus⟩
            exact ⟨_, if_pos ⟨rfl, hOut⟩,
              store_step hOk hHolds hOut hToken hStatus
                hValid⟩
        | prune now fault =>
            exact ⟨_, if_pos hOut,
              prune_step hOk hHolds hOut hProper⟩

/- Which operation a call is depends on the backend only. -/
theorem cellOp?_congr
    {other : IdempotencyStore}
    (hSame : other.unreachable = store.unreachable)
    (call : IdempotencyCall) :
    call.cellOp? other key = call.cellOp? store key := by
  cases call with
  | _ => simp only [IdempotencyCall.cellOp?, hSame]

/-
  A run of calls is a run of the cell of every key. By
  induction on the calls.
-/
theorem runIdempotency_cell
    (calls : List IdempotencyCall)
    (hOk : CellOk rfc3339 cell)
    (hHolds : store.Holds rfc3339 key cell)
    (hProper :
      ∀ call ∈ calls, call.Proper rfc3339 store.ttl lease) :
    ∃ ops,
      (LeaseCell.run store.ttl lease ops cell).1 =
        store.cellLog key
          (runIdempotency rfc3339 calls store).1 := by
  induction calls generalizing store cell with
  | nil => exact ⟨[], rfl⟩
  | cons call calls ih =>
      have hKept :
          (call.perform rfc3339 store).2.ttl = store.ttl ∧ _ :=
        perform_ttl call
      have hCalls :
          ∀ other ∈ calls, other.Proper rfc3339
            (call.perform rfc3339 store).2.ttl lease := by
        intro other hOther
        rw [hKept.1]
        exact hProper other (List.mem_cons_of_mem _ hOther)
      have hLog :
          ∀ log,
            (call.perform rfc3339 store).2.cellLog key log =
              store.cellLog key log := by
        intro log
        simp only [IdempotencyStore.cellLog,
          cellOp?_congr hKept.2]
      rcases perform_cell hOk hHolds
          (hProper call List.mem_cons_self) with
        ⟨hNone, hSame⟩ | ⟨op, hOp, hStep⟩
      · rcases ih hOk hSame hCalls with ⟨ops, hOps⟩
        refine ⟨ops, ?_⟩
        rw [hKept.1, hLog] at hOps
        rw [hOps]
        simp [runIdempotency, IdempotencyStore.cellLog, hNone]
      · rcases ih hStep.ok hStep.holds hCalls with ⟨ops, hOps⟩
        refine ⟨op :: ops, ?_⟩
        rw [hKept.1, hLog] at hOps
        simp [runIdempotency, IdempotencyStore.cellLog, hOp,
          LeaseCell.run, hStep.answer, hOps]

/- An operation on a cell reads the clock as its call does. -/
theorem cellOp?_now
    {call : IdempotencyCall}
    {op : KeyOp}
    (hOp : call.cellOp? store key = some op) :
    op.now? = call.now? := by
  cases call with
  | _ =>
      simp only [IdempotencyCall.cellOp?] at hOp
      split at hOp
      · cases hOp
        rfl
      · cases hOp

/- The cell sees some of the readings, in their order. -/
theorem cellLog_clock
    (store : IdempotencyStore)
    (key : IdempotencyKey)
    (log : IdempotencyLog) :
    ((store.cellLog key log).filterMap
      fun entry => entry.1.now?).Sublist
        (log.filterMap fun entry => entry.1.now?) := by
  induction log with
  | nil => exact List.Sublist.slnil
  | cons entry log ih =>
      rcases entry with ⟨call, outcome⟩
      have hCall :
          call.cellOp? store key = none ∨
            ∃ op, call.cellOp? store key = some op ∧
              op.now? = call.now? := by
        cases hOp : call.cellOp? store key with
        | none => exact .inl rfl
        | some op => exact .inr ⟨op, rfl, cellOp?_now hOp⟩
      rcases hCall with hNone | ⟨op, hOp, hNow⟩
      · rw [IdempotencyStore.cellLog, List.filterMap_cons,
          hNone]
        refine ih.trans ?_
        rw [List.filterMap_cons]
        split
        · exact List.Sublist.refl _
        · exact List.sublist_cons_self _ _
      · rw [IdempotencyStore.cellLog, List.filterMap_cons, hOp]
        simp only [Option.map_some, List.filterMap_cons, hNow]
        split
        · exact ih
        · exact ih.cons_cons _

/- The calls of a log are the calls that were made. -/
theorem runIdempotency_calls
    (calls : List IdempotencyCall) :
    (runIdempotency rfc3339 calls store).1.map Prod.fst =
      calls := by
  induction calls generalizing store with
  | nil => rfl
  | cons call calls ih =>
      simp [runIdempotency, ih]

/- An outcome in a log is that of its call on some store. -/
theorem outcome_of_mem
    {calls : List IdempotencyCall}
    {entry : IdempotencyCall × CallOutcome}
    (hMem :
      entry ∈ (runIdempotency rfc3339 calls store).1) :
    ∃ found : IdempotencyStore,
      found.unreachable = store.unreachable ∧
        entry.2 = (entry.1.perform rfc3339 found).1 := by
  induction calls generalizing store with
  | nil => cases hMem
  | cons call calls ih =>
      rcases List.mem_cons.mp hMem with rfl | hTail
      · exact ⟨store, rfl, rfl⟩
      · rcases ih hTail with ⟨found, hSame, hOutcome⟩
        have hKept :
            (call.perform rfc3339 store).2.ttl = store.ttl ∧
              _ := perform_ttl call
        exact ⟨found, hSame.trans hKept.2, hOutcome⟩

end Model

end IcpHandler
