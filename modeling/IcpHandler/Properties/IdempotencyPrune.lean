import IcpHandler.Properties.IdempotencyBackends

/-
  A sweep of the idempotency cache cannot be observed. It
  removes what a lookup at its instant already passes over,
  and whatever is called later, by callers who won their
  claims since, comes to the same as without it.

  Main declarations:
    * `IdempotencyStore.stored`
    * `PastTtl`, `prune_stored`
    * `Later`
    * `swept_bisimulation`
    * `prune_unobservable`
    * `prune_observed`
-/

------------------------------------------------------------
-- What Is Stored under a Key
------------------------------------------------------------

namespace IcpHandler

namespace Model

open Data

/- What a key holds: an entry of the map, or a row. -/
abbrev StoredEntry := IdempotencyEntry ⊕ IdempotencyRow

/- The entry that a reader makes out. -/
def StoredEntry.read
    (rfc3339 : Rfc3339)
    (now : DateTime) : StoredEntry → IdempotencyEntry
  | .inl entry => entry
  | .inr row => row.toEntry rfc3339 now

namespace IdempotencyStore

def stored
    (key : IdempotencyKey)
    (store : IdempotencyStore) : Option StoredEntry :=
  match store.backend with
  | .memory entries => (entries.lookup key).map .inl
  | .sqlite rows => (rows.lookup key).map .inr

/-
  The dates of the table are texts of instants that have one,
  and so is the date the sweep compares them with. Nothing is
  asked of a map.
-/
def Readable
    (rfc3339 : Rfc3339)
    (cutoff : DateTime)
    (store : IdempotencyStore) : Prop :=
  match store.backend with
  | .memory _ => True
  | .sqlite rows =>
      rfc3339.Valid cutoff ∧
        ∀ row ∈ rows.entries,
          ∃ date, rfc3339.Valid date ∧
            row.2.createdAt = rfc3339.print date

end IdempotencyStore

variable {rfc3339 : Rfc3339}
variable {store first second : IdempotencyStore}
variable {key asked : IdempotencyKey}
variable {now : DateTime}

theorem entryAt_eq_stored :
    store.entryAt rfc3339 now key =
      (store.stored key).map (StoredEntry.read rfc3339 now) := by
  rcases store with ⟨entries | rows, ttl⟩
  · simp [IdempotencyStore.entryAt, IdempotencyStore.stored,
      StoredEntry.read, Function.comp_def]
  · simp [IdempotencyStore.entryAt, IdempotencyStore.stored,
      StoredEntry.read, Function.comp_def]

/- A write under a key is stored there, the rest as before. -/
theorem stored_put_other
    {entry : IdempotencyEntry}
    (hOther : asked ≠ key) :
    (store.put rfc3339 asked entry).stored key =
      store.stored key := by
  rcases store with ⟨entries | rows, ttl⟩
  · simp [IdempotencyStore.stored, IdempotencyStore.put,
      AList.lookup_insert_ne hOther.symm]
  · simp [IdempotencyStore.stored, IdempotencyStore.put,
      AList.lookup_insert_ne hOther.symm]

theorem stored_drop_other
    (hOther : asked ≠ key) :
    (store.drop asked).stored key = store.stored key := by
  rcases store with ⟨entries | rows, ttl⟩
  · simp [IdempotencyStore.stored, IdempotencyStore.drop,
      AList.lookup_erase_ne hOther.symm]
  · simp [IdempotencyStore.stored, IdempotencyStore.drop,
      AList.lookup_erase_ne hOther.symm]

/- A call on another key leaves what is stored alone. -/
theorem stored_perform_other
    {call : IdempotencyCall}
    (hKey : call.key? = some asked)
    (hOther : asked ≠ key) :
    (call.perform rfc3339 store).2.stored key =
      store.stored key := by
  rcases perform_cases hKey with hSame | ⟨entry, hPut⟩ | hDrop
  · rw [hSame]
  · rw [hPut]
    exact stored_put_other hOther
  · rw [hDrop]
    exact stored_drop_other hOther

end Model

end IcpHandler

------------------------------------------------------------
-- What a Sweep Removes
------------------------------------------------------------

namespace IcpHandler

namespace Model

open Data

/-
  The key holds an entry that a lookup at this instant treats
  as past its time to live.
-/
def PastTtl
    (rfc3339 : Rfc3339)
    (now : DateTime)
    (key : IdempotencyKey)
    (store : IdempotencyStore) : Prop :=
  ∃ entry, store.entryAt rfc3339 now key = some entry ∧
    now - entry.createdAt > store.ttl

/- Past the time to live is before the cutoff. -/
theorem pastTtl_cutoff
    {now date span : Int} :
    now - date > span ↔ date < now - span := by
  omega

theorem pastTtl_onward
    {now later date span : Int}
    (hPast : now - date > span)
    (hLater : now ≤ later) :
    later - date > span := by
  omega

variable {rfc3339 : Rfc3339}
variable {store : IdempotencyStore}
variable {key : IdempotencyKey}
variable {now : DateTime}

/- A table out of reach has nothing to find. -/
theorem lookup_unreachable
    {fault : Bool}
    {digest : String}
    {now : DateTime}
    (hOut : store.unreachable fault = true) :
    store.lookup rfc3339 fault key digest now = .miss := by
  rcases store with ⟨entries | rows, ttl⟩
  · cases hOut
  · have hFault : fault = true := hOut
    simp [IdempotencyStore.lookup, hFault]

/- A lookup finds nothing where the entry is past it. -/
theorem lookup_of_pastTtl
    {fault : Bool}
    {digest : String}
    (hPast : PastTtl rfc3339 now key store) :
    store.lookup rfc3339 fault key digest now = .miss := by
  rcases hPast with ⟨entry, hEntry, hLapsed⟩
  cases hOut : store.unreachable fault with
  | false =>
      rw [lookup_eq hOut, hEntry]
      exact if_pos hLapsed
  | true => exact lookup_unreachable hOut

/-
  The sweep removes exactly what is past its time to live and
  leaves the rest as it is stored. In the table the texts of
  the dates decide, which compare as the dates do.
-/
theorem prune_stored
    (key : IdempotencyKey)
    (hReadable :
      store.Readable rfc3339 (now - store.ttl)) :
    (PastTtl rfc3339 now key store ∧
        (store.prune rfc3339 false now).2.stored key = none) ∨
      (¬ PastTtl rfc3339 now key store ∧
        (store.prune rfc3339 false now).2.stored key =
          store.stored key) := by
  rcases store with ⟨entries | rows, ttl⟩
  · simp only [PastTtl, IdempotencyStore.entryAt,
      IdempotencyStore.prune, IdempotencyStore.stored,
      lookup_retain]
    cases hEntry : entries.lookup key with
    | none => exact .inr ⟨by simp, rfl⟩
    | some entry =>
        by_cases hLapsed : now - entry.createdAt > ttl
        · have hDrop : ¬ now - ttl ≤ entry.createdAt :=
            not_le.mpr (pastTtl_cutoff.mp hLapsed)
          left
          exact ⟨⟨entry, rfl, hLapsed⟩, by
            simp [Option.filter, hDrop]⟩
        · have hKeep : now - ttl ≤ entry.createdAt :=
            not_lt.mp fun hBefore =>
              hLapsed (pastTtl_cutoff.mpr hBefore)
          right
          exact ⟨by simpa using hLapsed, by
            simp [Option.filter, hKeep]⟩
  · rcases hReadable with ⟨hCutoff, hRows⟩
    simp only [PastTtl, IdempotencyStore.entryAt,
      IdempotencyStore.prune, IdempotencyStore.stored,
      lookup_retain, Bool.false_eq_true, if_false]
    cases hRow : rows.lookup key with
    | none => exact .inr ⟨by simp, rfl⟩
    | some row =>
        obtain ⟨date, hValid, hText⟩ :
            ∃ date, rfc3339.Valid date ∧
              row.createdAt = rfc3339.print date :=
          hRows ⟨key, row⟩ (AList.mem_lookup_iff.mp hRow)
        have hDate :
            (row.toEntry rfc3339 now).createdAt = date := by
          simp [IdempotencyRow.toEntry, hText,
            rfc3339.parse_print date hValid]
        have hCompare :
            row.createdAt < rfc3339.print (now - ttl) ↔
              date < now - ttl := by
          rw [hText]
          exact rfc3339.print_lt_iff _ _ hValid hCutoff
        by_cases hLapsed : now - date > ttl
        · have hDrop :
              row.createdAt < rfc3339.print (now - ttl) :=
            hCompare.mpr (pastTtl_cutoff.mp hLapsed)
          left
          refine ⟨⟨row.toEntry rfc3339 now, rfl, ?_⟩, ?_⟩
          · rwa [hDate]
          · simp [Option.filter, hDrop]
        · have hKeep :
              ¬ row.createdAt < rfc3339.print (now - ttl) :=
            fun hBefore =>
              hLapsed (pastTtl_cutoff.mpr (hCompare.mp hBefore))
          right
          refine ⟨?_, ?_⟩
          · rintro ⟨entry, hEntry, hPast⟩
            cases hEntry
            rw [hDate] at hPast
            exact hLapsed hPast
          · simp [Option.filter, hKeep]

/- What is past its time to live stays so. -/
theorem PastTtl.later
    {later : DateTime}
    (hReadable :
      store.Readable rfc3339 (now - store.ttl))
    (hPast : PastTtl rfc3339 now key store)
    (hLater : now ≤ later) :
    PastTtl rfc3339 later key store := by
  rcases hPast with ⟨entry, hEntry, hLapsed⟩
  rcases store with ⟨entries | rows, ttl⟩
  · exact ⟨entry, hEntry, pastTtl_onward hLapsed hLater⟩
  · rcases hReadable with ⟨_, hRows⟩
    simp only [IdempotencyStore.entryAt,
      Option.map_eq_some_iff] at hEntry
    rcases hEntry with ⟨row, hRow, rfl⟩
    obtain ⟨date, hValid, hText⟩ :
        ∃ date, rfc3339.Valid date ∧
          row.createdAt = rfc3339.print date :=
      hRows ⟨key, row⟩ (AList.mem_lookup_iff.mp hRow)
    have hDate :
        ∀ read : DateTime,
          (row.toEntry rfc3339 read).createdAt = date := by
      intro read
      simp [IdempotencyRow.toEntry, hText,
        rfc3339.parse_print date hValid]
    refine ⟨row.toEntry rfc3339 later, ?_, ?_⟩
    · simp [IdempotencyStore.entryAt, hRow]
    · rw [hDate] at hLapsed ⊢
      exact pastTtl_onward hLapsed hLater

end Model

end IcpHandler

------------------------------------------------------------
-- Calls That Find the Same
------------------------------------------------------------

namespace IcpHandler

namespace Model

open Data

namespace StoredEntry

def pending : StoredEntry → Bool
  | .inl entry => entry.response.status == pendingStatus
  | .inr row => row.responseStatus == 0

def reservationId : StoredEntry → String
  | .inl entry => entry.reservationId
  | .inr row => row.reservationId

end StoredEntry

variable {rfc3339 : Rfc3339}
variable {store first second : IdempotencyStore}
variable {key : IdempotencyKey}
variable {call : IdempotencyCall}

/- A release, read off what is stored. -/
theorem release_stored
    {fault : Bool}
    {token : String} :
    store.release fault key token =
      if !store.unreachable fault &&
          (store.stored key).any fun found =>
            found.pending && found.reservationId == token then
        (true, store.drop key)
      else (false, store) := by
  rcases store with ⟨entries | rows, ttl⟩
  · simp only [IdempotencyStore.release,
      IdempotencyStore.unreachable, IdempotencyStore.stored,
      Option.any_map, Bool.not_false, Bool.true_and]
    rfl
  · simp only [IdempotencyStore.release,
      IdempotencyStore.unreachable, IdempotencyStore.stored,
      Option.any_map]
    rfl

/- A store, read off what is stored. -/
theorem store_stored
    {fault : Bool}
    {digest token : String}
    {response : CachedResponse}
    {now : DateTime} :
    store.store rfc3339 fault key digest response now token =
      if !store.unreachable fault &&
          (store.stored key).all fun found =>
            found.reservationId == token then
        (true,
          store.put rfc3339 key ⟨digest, response, now, ""⟩)
      else (false, store) := by
  rcases store with ⟨entries | rows, ttl⟩
  · simp only [IdempotencyStore.store,
      IdempotencyStore.unreachable, IdempotencyStore.stored,
      Option.all_map, Bool.not_false, Bool.true_and]
    rfl
  · simp only [IdempotencyStore.store,
      IdempotencyStore.unreachable, IdempotencyStore.stored,
      Option.all_map]
    rfl

/-
  A write of the same entry is stored alike, in two maps or in
  two tables.
-/
theorem stored_put_congr
    {entry : IdempotencyEntry}
    (hKind : first.unreachable = second.unreachable) :
    (first.put rfc3339 key entry).stored key =
      (second.put rfc3339 key entry).stored key := by
  rcases first with ⟨entries | rows, ttl⟩
  · rcases second with ⟨others | others, other⟩
    · simp [IdempotencyStore.stored, IdempotencyStore.put]
    · exact absurd (congrFun hKind true) Bool.false_ne_true
  · rcases second with ⟨others | others, other⟩
    · exact absurd (congrFun hKind true).symm
        Bool.false_ne_true
    · simp [IdempotencyStore.stored, IdempotencyStore.put]

theorem stored_drop :
    (store.drop key).stored key = none := by
  rcases store with ⟨entries | rows, ttl⟩
  · simp [IdempotencyStore.stored, IdempotencyStore.drop]
  · simp [IdempotencyStore.stored, IdempotencyStore.drop]

/-
  Two results of a call: the same outcome, and the same stored
  under the key.
-/
structure SameUnder
    (key : IdempotencyKey)
    {Outcome : Type}
    (left right : Outcome × IdempotencyStore) : Prop where
  outcome : left.1 = right.1
  stored : left.2.stored key = right.2.stored key

theorem SameUnder.map
    {Outcome : Type}
    {left right : Outcome × IdempotencyStore}
    (hSame : SameUnder key left right)
    (f : Outcome → CallOutcome) :
    SameUnder key (f left.1, left.2) (f right.1, right.2) :=
  ⟨congrArg f hSame.outcome, hSame.stored⟩

/- It answers a claim so that nobody executes. -/
theorem reserve_unreachable
    {fault : Bool}
    {digest token : String}
    {now : DateTime}
    {lease : Duration}
    (hOut : store.unreachable fault = true) :
    store.reserve rfc3339 fault token key digest now lease =
      (.inProgress, store) := by
  rcases store with ⟨entries | rows, ttl⟩
  · cases hOut
  · have hFault : fault = true := hOut
    simp [IdempotencyStore.reserve, hFault]

/- A call decides from what is stored under its key. -/
theorem sameUnder_of_stored
    (hTtl : first.ttl = second.ttl)
    (hKind : first.unreachable = second.unreachable)
    (hKey : call.key? = some key)
    (hStored : first.stored key = second.stored key) :
    SameUnder key (call.perform rfc3339 first)
      (call.perform rfc3339 second) := by
  have hRead :
      ∀ now, first.entryAt rfc3339 now key =
        second.entryAt rfc3339 now key := by
    intro now
    rw [entryAt_eq_stored, entryAt_eq_stored, hStored]
  cases call with
  | lookup asked digest now fault =>
      cases hKey
      refine ⟨congrArg CallOutcome.looked ?_, hStored⟩
      cases hOut : second.unreachable fault with
      | true =>
          rw [lookup_unreachable hOut, lookup_unreachable]
          rwa [hKind]
      | false =>
          rw [lookup_eq hOut,
            lookup_eq (by rwa [hKind]), hRead,
            hTtl]
  | reserve asked digest now lease token fault =>
      cases hKey
      refine SameUnder.map ?_ CallOutcome.reserved
      cases hOut : second.unreachable fault with
      | true =>
          rw [reserve_unreachable hOut, reserve_unreachable
            (by rwa [hKind])]
          exact ⟨rfl, hStored⟩
      | false =>
          rw [reserve_eq hOut,
            reserve_eq (by rwa [hKind]), hRead,
            hTtl]
          cases second.entryAt rfc3339 now key with
          | none => exact ⟨rfl, stored_put_congr hKind⟩
          | some entry =>
              dsimp only
              split_ifs
              · exact ⟨rfl, stored_put_congr hKind⟩
              · exact ⟨rfl, stored_put_congr hKind⟩
              · exact ⟨rfl, hStored⟩
              · exact ⟨rfl, hStored⟩
              · exact ⟨rfl, hStored⟩
  | release asked token fault =>
      cases hKey
      refine SameUnder.map ?_ CallOutcome.released
      rw [release_stored, release_stored, hStored,
        hKind]
      split
      · exact ⟨rfl, stored_drop.trans stored_drop.symm⟩
      · exact ⟨rfl, hStored⟩
  | store asked digest response now token fault =>
      cases hKey
      refine SameUnder.map ?_ CallOutcome.stored
      rw [store_stored, store_stored, hStored,
        hKind]
      split
      · exact ⟨rfl, stored_put_congr hKind⟩
      · exact ⟨rfl, hStored⟩
  | prune now fault => cases hKey

end Model

end IcpHandler

------------------------------------------------------------
-- Later Calls
------------------------------------------------------------

namespace IcpHandler

namespace Model

open Data

/- A call of the log won the key with the token. -/
def Won
    (key : IdempotencyKey)
    (token : String)
    (past : IdempotencyLog) : Prop :=
  ∃ entry ∈ past, entry.1.key? = some key ∧
    entry.2 = .reserved (.won token)

/-
  The calls that may follow a sweep: lookups and claims from
  its instant on, and the settling of a claim won since.
-/
def Later
    (now : DateTime)
    (past : IdempotencyLog) : IdempotencyCall → Prop
  | .lookup _ _ time _ => now ≤ time
  | .reserve _ _ time _ _ _ => now ≤ time
  | .release key token _ => Won key token past
  | .store key _ _ _ token _ => Won key token past
  | .prune _ _ => False

/-
  What the sweep removed under the key: it is past its time to
  live from then on, and nobody has won the key since.
-/
structure Gone
    (rfc3339 : Rfc3339)
    (now : DateTime)
    (key : IdempotencyKey)
    (past : IdempotencyLog)
    (store pruned : IdempotencyStore) : Prop where
  lapsed :
    ∀ later, now ≤ later → PastTtl rfc3339 later key store
  removed : pruned.stored key = none
  unclaimed : ∀ token, ¬ Won key token past

/-
  A store and the same store with a sweep in between: under
  every key they hold the same, or the sweep removed it.
-/
structure Swept
    (rfc3339 : Rfc3339)
    (now : DateTime)
    (past : IdempotencyLog)
    (store pruned : IdempotencyStore) : Prop where
  ttl : store.ttl = pruned.ttl
  kind : store.unreachable = pruned.unreachable
  under :
    ∀ key, store.stored key = pruned.stored key ∨
      Gone rfc3339 now key past store pruned

variable {rfc3339 : Rfc3339}
variable {now : DateTime}
variable {key asked : IdempotencyKey}
variable {past : IdempotencyLog}
variable {store pruned : IdempotencyStore}
variable {call : IdempotencyCall}

/- Being past depends on what is stored. -/
theorem PastTtl.congr
    {other : IdempotencyStore}
    (hPast : PastTtl rfc3339 now key store)
    (hStored : other.stored key = store.stored key)
    (hTtl : other.ttl = store.ttl) :
    PastTtl rfc3339 now key other := by
  rcases hPast with ⟨entry, hEntry, hLapsed⟩
  refine ⟨entry, ?_, ?_⟩
  · rw [entryAt_eq_stored, hStored, ← entryAt_eq_stored]
    exact hEntry
  · rwa [hTtl]

/- A claim is won by the last call or was won before. -/
theorem Won.of_append
    {outcome : CallOutcome}
    {token : String}
    (hWon : Won key token (past ++ [(call, outcome)])) :
    Won key token past ∨
      (call.key? = some key ∧
        outcome = .reserved (.won token)) := by
  rcases hWon with ⟨entry, hMem, hKey, hOutcome⟩
  rcases List.mem_append.mp hMem with hOld | hLast
  · exact .inl ⟨entry, hOld, hKey, hOutcome⟩
  · cases List.mem_singleton.mp hLast
    exact .inr ⟨hKey, hOutcome⟩

namespace Gone

/- What is removed stays so under calls that win nothing. -/
theorem step
    {outcome : CallOutcome}
    {store' pruned' : IdempotencyStore}
    (hGone : Gone rfc3339 now key past store pruned)
    (hStore : store'.stored key = store.stored key)
    (hTtl : store'.ttl = store.ttl)
    (hPruned : pruned'.stored key = pruned.stored key)
    (hIdle :
      call.key? = some key →
        ∀ token, outcome ≠ .reserved (.won token)) :
    Gone rfc3339 now key (past ++ [(call, outcome)])
      store' pruned' where
  lapsed := fun later hLater =>
    (hGone.lapsed later hLater).congr hStore hTtl
  removed := hPruned.trans hGone.removed
  unclaimed := by
    intro token hWon
    rcases hWon.of_append with hOld | ⟨hKey, hOutcome⟩
    · exact hGone.unclaimed token hOld
    · exact hIdle hKey token hOutcome

/-
  A later call under such a key either wins it on both sides,
  and then both hold the same claim, or changes nothing.
-/
theorem perform
    (hGone : Gone rfc3339 now key past store pruned)
    (hKind : store.unreachable = pruned.unreachable)
    (hKey : call.key? = some key)
    (hLater : Later now past call) :
    SameUnder key (call.perform rfc3339 store)
        (call.perform rfc3339 pruned) ∨
      ((call.perform rfc3339 store).1 =
          (call.perform rfc3339 pruned).1 ∧
        (call.perform rfc3339 store).2 = store ∧
        (call.perform rfc3339 pruned).2 = pruned ∧
        ∀ token,
          (call.perform rfc3339 store).1 ≠
            .reserved (.won token)) := by
  have hNothing :
      ∀ time, pruned.entryAt rfc3339 time key = none := by
    intro time
    rw [entryAt_eq_stored, hGone.removed]
    rfl
  cases call with
  | lookup asked digest time fault =>
      cases hKey
      have hMiss :
          store.lookup rfc3339 fault key digest time = .miss :=
        lookup_of_pastTtl (hGone.lapsed time hLater)
      have hNone :
          pruned.lookup rfc3339 fault key digest time =
            .miss := by
        cases hOut : pruned.unreachable fault with
        | true => exact lookup_unreachable hOut
        | false => rw [lookup_eq hOut, hNothing]
      right
      refine ⟨?_, rfl, rfl, ?_⟩
      · simp only [IdempotencyCall.perform, hMiss, hNone]
      · intro token hWon
        cases hWon
  | reserve asked digest time lease token fault =>
      cases hKey
      cases hOut : pruned.unreachable fault with
      | true =>
          have hStore :
              store.unreachable fault = true := by
            rwa [hKind]
          right
          rw [IdempotencyCall.perform, IdempotencyCall.perform,
            reserve_unreachable hOut,
            reserve_unreachable hStore]
          refine ⟨rfl, rfl, rfl, ?_⟩
          intro token hWon
          cases hWon
      | false =>
          have hStore :
              store.unreachable fault = false := by
            rwa [hKind]
          rcases hGone.lapsed time hLater with
            ⟨entry, hEntry, hLapsed⟩
          left
          refine SameUnder.map ?_ CallOutcome.reserved
          rw [reserve_eq hOut, reserve_eq hStore, hNothing,
            hEntry]
          dsimp only
          rw [if_pos hLapsed]
          exact ⟨rfl, stored_put_congr hKind⟩
  | release asked token fault =>
      cases hKey
      exact absurd hLater (hGone.unclaimed token)
  | store asked digest response time token fault =>
      cases hKey
      exact absurd hLater (hGone.unclaimed token)
  | prune time fault => cases hKey

end Gone

/-
  A later call comes to the same on both sides, and leaves
  under every key the same, or what is still removed.
-/
theorem Swept.perform
    (hSwept : Swept rfc3339 now past store pruned)
    (hLater : Later now past call) :
    (call.perform rfc3339 store).1 =
        (call.perform rfc3339 pruned).1 ∧
      Swept rfc3339 now
        (past ++ [(call, (call.perform rfc3339 store).1)])
        (call.perform rfc3339 store).2
        (call.perform rfc3339 pruned).2 := by
  cases hKey : call.key? with
  | none =>
      cases call with
      | prune time fault => cases hLater
      | _ => cases hKey
  | some asked =>
      have hLeft :
          (call.perform rfc3339 store).2.ttl = store.ttl ∧
            (call.perform rfc3339 store).2.unreachable =
              store.unreachable := perform_ttl call
      have hRight :
          (call.perform rfc3339 pruned).2.ttl = pruned.ttl ∧
            (call.perform rfc3339 pruned).2.unreachable =
              pruned.unreachable := perform_ttl call
      have hTtl :
          (call.perform rfc3339 store).2.ttl =
            (call.perform rfc3339 pruned).2.ttl := by
        rw [hLeft.1, hRight.1, hSwept.ttl]
      have hKind :
          (call.perform rfc3339 store).2.unreachable =
            (call.perform rfc3339 pruned).2.unreachable := by
        rw [hLeft.2, hRight.2, hSwept.kind]
      -- The key of the call, then every other key.
      have hAsked :
          (call.perform rfc3339 store).1 =
              (call.perform rfc3339 pruned).1 ∧
            ((call.perform rfc3339 store).2.stored asked =
                (call.perform rfc3339 pruned).2.stored asked ∨
              Gone rfc3339 now asked
                (past ++
                  [(call, (call.perform rfc3339 store).1)])
                (call.perform rfc3339 store).2
                (call.perform rfc3339 pruned).2) := by
        rcases hSwept.under asked with hSame | hGone
        · have hBoth :
              SameUnder asked (call.perform rfc3339 store)
                (call.perform rfc3339 pruned) :=
            sameUnder_of_stored hSwept.ttl hSwept.kind hKey
              hSame
          exact ⟨hBoth.outcome, .inl hBoth.stored⟩
        · rcases hGone.perform hSwept.kind hKey hLater with
            hBoth | ⟨hOutcome, hStore, hPruned, hIdle⟩
          · exact ⟨hBoth.outcome, .inl hBoth.stored⟩
          · refine ⟨hOutcome, .inr ?_⟩
            refine hGone.step ?_ hLeft.1 ?_ fun _ => hIdle
            · rw [hStore]
            · rw [hPruned]
      refine ⟨hAsked.1, hTtl, hKind, ?_⟩
      intro key
      by_cases hOwn : asked = key
      · subst hOwn
        exact hAsked.2
      · have hStore :
            (call.perform rfc3339 store).2.stored key =
              store.stored key :=
          stored_perform_other hKey hOwn
        have hPruned :
            (call.perform rfc3339 pruned).2.stored key =
              pruned.stored key :=
          stored_perform_other hKey hOwn
        rcases hSwept.under key with hSame | hGone
        · exact .inl ((hStore.trans hSame).trans hPruned.symm)
        · right
          refine hGone.step hStore hLeft.1 hPruned ?_
          intro hAgain
          rw [hKey] at hAgain
          exact absurd (Option.some.inj hAgain) hOwn

theorem swept_bisimulation
    (rfc3339 : Rfc3339)
    (now : DateTime) :
    Bisimulation
      (fun store call =>
        IdempotencyCall.perform rfc3339 store call)
      (fun store call =>
        IdempotencyCall.perform rfc3339 store call)
      (Later now)
      (Swept rfc3339 now) where
  outcome := fun _ _ _ _ hSwept hLater =>
    (hSwept.perform hLater).1
  step := fun _ _ _ _ hSwept hLater =>
    (hSwept.perform hLater).2

/- A sweep makes such a pair. -/
theorem swept_prune
    (hReadable :
      store.Readable rfc3339 (now - store.ttl)) :
    Swept rfc3339 now [] store
      (store.prune rfc3339 false now).2 := by
  have hKept :
      (store.prune rfc3339 false now).2.ttl = store.ttl ∧
        (store.prune rfc3339 false now).2.unreachable =
          store.unreachable :=
    perform_ttl (.prune now false)
  refine ⟨hKept.1.symm, hKept.2.symm, ?_⟩
  intro key
  rcases prune_stored key hReadable with
    ⟨hPast, hNone⟩ | ⟨_, hSame⟩
  · right
    refine ⟨fun later hLater => hPast.later hReadable hLater,
      hNone, ?_⟩
    rintro token ⟨entry, hMem, _⟩
    cases hMem
  · exact .inl hSame.symm

end Model

end IcpHandler

------------------------------------------------------------
-- No Call Can Tell
------------------------------------------------------------

namespace IcpHandler

namespace Model

open Data

/-
  The sweep removes what is past its time to live and nothing
  else, and every later run of calls comes to the same as
  without it.
-/
theorem prune_unobservable
    (rfc3339 : Rfc3339)
    (store : IdempotencyStore)
    (now : DateTime)
    (hReadable :
      store.Readable rfc3339 (now - store.ttl)) :
    (∀ key,
      (PastTtl rfc3339 now key store ∧
          (store.prune rfc3339 false now).2.stored key =
            none) ∨
        (¬ PastTtl rfc3339 now key store ∧
          (store.prune rfc3339 false now).2.stored key =
            store.stored key)) ∧
      ∀ calls,
        Admits (Later now) []
            (runIdempotency rfc3339 calls store).1 →
          (runIdempotency rfc3339 calls
              (store.prune rfc3339 false now).2).1 =
            (runIdempotency rfc3339 calls store).1 := by
  refine ⟨fun key => prune_stored key hReadable, ?_⟩
  intro calls hAdmits
  rw [runIdempotency_eq_transcript] at hAdmits
  rw [runIdempotency_eq_transcript,
    runIdempotency_eq_transcript]
  exact ((swept_bisimulation rfc3339 now).transcript_eq
    (swept_prune hReadable) hAdmits).symm

/- A completed response, of the first instant of the epoch. -/
def completedRow (text : String) : IdempotencyRow :=
  { requestDigest := "d1"
    responseStatus := 200
    responseBody := "\x7b\x7d"
    createdAt := text
    reservationId := "" }

/- A table with one completed row. -/
def oneRow (text : String) : IdempotencyStore :=
  ⟨.sqlite
    ((∅ : AList fun _ : IdempotencyKey =>
      IdempotencyRow).insert ("acme", "k1")
        (completedRow text)),
    defaultTtl⟩

/-
  The row is swept two days later and its key claimed and
  completed again; the same calls without the sweep.
-/
theorem prune_unobservable_sample :
    let store := oneRow "1970-01-01T00:00:00+00:00"
    let now := Duration.seconds 60 + Duration.hours 24
    let calls : List IdempotencyCall :=
      [.lookup ("acme", "k1") "d1" now false,
        .reserve ("acme", "k1") "d2" now
          (Duration.seconds 60) "t1" false,
        .store ("acme", "k1") "d2" ⟨200, "[]"⟩ now "t1" false,
        .lookup ("acme", "k1") "d2" now false]
    (runIdempotency concreteRfc3339 calls
        (store.prune concreteRfc3339 false now).2).1 =
      (runIdempotency concreteRfc3339 calls store).1 := by
  intro store now calls
  have hReadable :
      store.Readable concreteRfc3339 (now - store.ttl) := by
    refine ⟨?_, ?_⟩
    · change _ ∈ concreteInstants.map Prod.fst
      decide
    · intro row hRow
      cases List.mem_singleton.mp hRow
      refine ⟨Duration.seconds 0, ?_, by decide⟩
      change _ ∈ concreteInstants.map Prod.fst
      decide
  have hNow : now ≤ now := le_refl now
  refine (prune_unobservable concreteRfc3339 store now
    hReadable).2 calls ?_
  refine .cons hNow (.cons hNow (.cons ?_ (.cons hNow
    admits_nil)))
  exact ⟨_, List.mem_cons_of_mem _ List.mem_cons_self, rfl,
    rfl⟩

/-
  RFC 3339 text around two instants: the epoch, and the first
  of January 10000, whose text the library writes with a sign.
-/
def farRfc3339 : Rfc3339 where
  print instant :=
    if instant = Duration.seconds 253402300800 then
      "+10000-01-01T00:00:00+00:00"
    else "1970-01-01T00:00:00+00:00"
  parse text :=
    if text = "1970-01-01T00:00:00+00:00" then
      some (Duration.seconds 0)
    else none
  Valid instant := instant = Duration.seconds 0
  parse_print := by
    rintro instant rfl
    decide
  print_lt_iff := by
    rintro first second rfl rfl
    decide

/-
  A day into the year 10000 the row of 1970 is long past its
  time to live, and the sweep leaves it: in the text order a
  plus sign comes before every digit.
-/
theorem prune_observed :
    let store := oneRow "1970-01-01T00:00:00+00:00"
    let now :=
      Duration.seconds 253402300800 + Duration.hours 24
    PastTtl farRfc3339 now ("acme", "k1") store ∧
      (store.prune farRfc3339 false now).2.stored
          ("acme", "k1") =
        store.stored ("acme", "k1") ∧
      store.stored ("acme", "k1") ≠ none := by
  refine ⟨⟨_, rfl, by decide⟩, rfl, ?_⟩
  intro hNone
  cases hNone

end Model

end IcpHandler
