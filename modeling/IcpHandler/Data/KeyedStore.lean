import IcpHandler.Data.Maps

/-
  A store of rows, each under its own key, with the four
  operations of a document store: insert or replace, read,
  read-modify-write, and a listing of the rows that are due.

  Main declarations:
    * `Record`
    * `KeyedStore`, `KeyedStore.retain`,
      `KeyedStore.patchWhere`
    * `StoreOp`
    * `StoreOp.exec`
    * `StoreOp.exec_get_ne`
-/

------------------------------------------------------------
-- Records and Stores
------------------------------------------------------------

namespace IcpHandler

namespace Data

/-
  Rows of type `V`, changed by patches of type `P` that never
  touch the key, and due or not at an instant of type `T`.
-/
class Record
    (V : Type)
    (P T : outParam Type) where
  key : V → String
  apply : P → V → V
  isDue : T → V → Bool
  key_apply : ∀ patch row, key (apply patch row) = key row

/- Rows by key. Every row is stored under its own key. -/
structure KeyedStore
    (V : Type)
    {P T : outParam Type}
    [Record V P T] where
  rows : AList fun _ : String => V
  keyed :
    ∀ id row, rows.lookup id = some row →
      Record.key row = id

namespace KeyedStore

variable {V P T : Type} [Record V P T]

/- The store without rows. -/
def empty : KeyedStore V :=
  ⟨∅, by
    intro id row hRow
    rw [AList.lookup_empty] at hRow
    cases hRow⟩

instance : Inhabited (KeyedStore V) :=
  ⟨empty⟩

/- The row under a key. -/
def get
    (store : KeyedStore V)
    (id : String) : Option V :=
  store.rows.lookup id

/- Insert a row, or replace the one under its key. -/
def insert
    (store : KeyedStore V)
    (row : V) : KeyedStore V :=
  ⟨store.rows.insert (Record.key row) row, by
    intro id found hFound
    by_cases hId : id = Record.key row
    · subst hId
      rw [AList.lookup_insert] at hFound
      cases hFound
      rfl
    · rw [AList.lookup_insert_ne hId] at hFound
      exact store.keyed id found hFound⟩

/- Apply a patch to the row under a key, if there is one. -/
def update
    (store : KeyedStore V)
    (id : String)
    (patch : P) : KeyedStore V :=
  match store.get id with
  | none => store
  | some row => store.insert (Record.apply patch row)

/- All rows, in the order the map happens to have. -/
def values (store : KeyedStore V) : List V :=
  store.rows.entries.map Sigma.snd

/- The number of rows. -/
def size (store : KeyedStore V) : Nat :=
  store.rows.entries.length

@[simp] theorem get_empty (id : String) :
    (empty : KeyedStore V).get id = none :=
  AList.lookup_empty id

theorem key_of_get
    {store : KeyedStore V}
    {id : String}
    {row : V}
    (hGet : store.get id = some row) :
    Record.key row = id :=
  store.keyed id row hGet

@[simp] theorem get_insert_self
    (store : KeyedStore V)
    (row : V) :
    (store.insert row).get (Record.key row) = some row :=
  AList.lookup_insert store.rows

theorem get_insert_ne
    (store : KeyedStore V)
    {row : V}
    {id : String}
    (hId : id ≠ Record.key row) :
    (store.insert row).get id = store.get id :=
  AList.lookup_insert_ne hId

theorem get_insert
    (store : KeyedStore V)
    (row : V)
    (id : String) :
    (store.insert row).get id =
      if id = Record.key row then some row
      else store.get id := by
  by_cases hId : id = Record.key row
  · subst hId
    rw [if_pos rfl]
    exact get_insert_self store row
  · rw [if_neg hId]
    exact get_insert_ne store hId

/- An update patches the row it names and no other. -/
theorem get_update
    (store : KeyedStore V)
    (target : String)
    (patch : P)
    (id : String) :
    (store.update target patch).get id =
      if id = target then
        (store.get id).map (Record.apply patch)
      else store.get id := by
  unfold update
  cases hRow : store.get target with
  | none =>
      by_cases hId : id = target
      · subst hId
        simp [hRow]
      · simp [hId]
  | some row =>
      have hKey : Record.key (Record.apply patch row) =
          target := by
        rw [Record.key_apply, key_of_get hRow]
      simp only [get_insert, hKey]
      by_cases hId : id = target
      · subst hId
        simp [hRow]
      · simp [hId]

theorem mem_values_iff
    {store : KeyedStore V}
    {row : V} :
    row ∈ store.values ↔
      store.get (Record.key row) = some row := by
  unfold values get
  constructor
  · intro hMem
    rcases List.mem_map.mp hMem with ⟨⟨id, found⟩, hEntry, rfl⟩
    have hLookup : store.rows.lookup id = some found :=
      AList.mem_lookup_iff.mpr hEntry
    rw [store.keyed id found hLookup]
    exact hLookup
  · intro hLookup
    exact List.mem_map.mpr
      ⟨⟨Record.key row, row⟩,
        AList.mem_lookup_iff.mp hLookup, rfl⟩

/- No two rows are stored under one key. -/
theorem nodup_keys (store : KeyedStore V) :
    (store.values.map Record.key).Nodup := by
  have hKeys :
      store.values.map Record.key =
        store.rows.entries.map Sigma.fst := by
    unfold values
    rw [List.map_map]
    refine List.map_congr_left fun entry hEntry => ?_
    exact store.keyed entry.1 entry.2
      (AList.mem_lookup_iff.mpr hEntry)
  rw [hKeys]
  exact store.rows.nodupKeys

/- The rows that satisfy the test. -/
def retain
    (store : KeyedStore V)
    (keep : V → Bool) : KeyedStore V :=
  ⟨Data.retain keep store.rows, by
    intro id row hRow
    rw [lookup_retain] at hRow
    exact store.keyed id row
      (Option.filter_eq_some_iff.mp hRow).1⟩

theorem get_retain
    (store : KeyedStore V)
    (keep : V → Bool)
    (id : String) :
    (store.retain keep).get id = (store.get id).filter keep :=
  lookup_retain keep store.rows id

theorem retain_congr
    {store : KeyedStore V}
    {keep keep' : V → Bool}
    (hSame : ∀ row ∈ store.values, keep row = keep' row) :
    store.retain keep = store.retain keep' := by
  have hRows :
      Data.retain keep store.rows =
        Data.retain keep' store.rows := by
    apply Data.retain_congr
    intro entry hEntry
    exact hSame entry.2
      (List.mem_map_of_mem hEntry)
  unfold retain
  simp only [hRows]

/- Apply a patch to every row that satisfies the test. -/
def patchWhere
    (store : KeyedStore V)
    (test : V → Bool)
    (patch : P) : KeyedStore V :=
  ⟨mapValues
      (fun row =>
        if test row then Record.apply patch row else row)
      store.rows, by
    intro id row hRow
    rw [lookup_mapValues] at hRow
    obtain ⟨old, hOld, rfl⟩ := Option.map_eq_some_iff.mp hRow
    split
    · rw [Record.key_apply]
      exact store.keyed id old hOld
    · exact store.keyed id old hOld⟩

theorem get_patchWhere
    (store : KeyedStore V)
    (test : V → Bool)
    (patch : P)
    (id : String) :
    (store.patchWhere test patch).get id =
      (store.get id).map fun row =>
        if test row then Record.apply patch row else row :=
  lookup_mapValues _ store.rows id

/- Reading stored keys gives the rows of these keys. -/
theorem map_key_filterMap
    {store : KeyedStore V}
    {ids : List String}
    (hStored : ∀ id ∈ ids, ∃ row, store.get id = some row) :
    (ids.filterMap store.get).map Record.key = ids := by
  induction ids with
  | nil => rfl
  | cons id ids ih =>
      rcases hStored id List.mem_cons_self with ⟨row, hRow⟩
      rw [List.filterMap_cons_some hRow, List.map_cons,
        key_of_get hRow]
      have hRest :
          (ids.filterMap store.get).map Record.key = ids :=
        ih fun other hOther =>
          hStored other (List.mem_cons_of_mem _ hOther)
      rw [hRest]

end KeyedStore

end Data

end IcpHandler

------------------------------------------------------------
-- Store Operations
------------------------------------------------------------

namespace IcpHandler

namespace Data

/- The operations of a store, each one atomic. -/
inductive StoreOp (V P T : Type) where
  | insert (row : V)
  | get (id : String)
  | update (id : String) (patch : P)
  | listDue (now : T)
  | len

namespace StoreOp

/- What each operation answers. -/
abbrev Res
    {V P T : Type} :
    StoreOp V P T → Type
  | .insert _ => Unit
  | .get _ => Option V
  | .update _ _ => Option V
  | .listDue _ => List V
  | .len => Nat

variable {V P T : Type} [Record V P T]

/-
  The effect of an operation. A fault (the database refuses
  the statement) is logged by the store and shows to the
  caller as an empty answer. A listing comes in any order; the
  outside names the order by keys.
-/
def exec
    (fault : Bool)
    (order : List String)
    (store : KeyedStore V) :
    (op : StoreOp V P T) → Option (op.Res × KeyedStore V)
  | .insert row =>
      some ((), if fault then store else store.insert row)
  | .get id =>
      some (if fault then none else store.get id, store)
  | .update id patch =>
      if fault then some (none, store)
      else
        some ((store.get id).map (Record.apply patch),
          store.update id patch)
  | .listDue now =>
      if fault then some ([], store)
      else
        let due := store.values.filter (Record.isDue now)
        if order.Perm (due.map Record.key) then
          some (order.filterMap store.get, store)
        else none
  | .len =>
      some (if fault then 0 else store.size, store)

/- The key an operation may write, if it may write at all. -/
def target : StoreOp V P T → Option String
  | .insert row => some (Record.key row)
  | .update id _ => some id
  | _ => none

variable {fault : Bool} {order : List String}
variable {store store' : KeyedStore V}
variable {op : StoreOp V P T} {answer : op.Res}

/- An operation leaves every row alone but its target. -/
theorem get_of_exec
    (hExec : exec fault order store op = some (answer, store'))
    {id : String}
    (hId : op.target ≠ some id) :
    store'.get id = store.get id := by
  cases op with
  | insert row =>
      have hKey : id ≠ Record.key row := by
        rintro rfl
        exact hId rfl
      simp only [exec, Option.some.injEq,
        Prod.mk.injEq] at hExec
      rw [← hExec.2]
      split
      · rfl
      · exact KeyedStore.get_insert_ne store hKey
  | update row patch =>
      have hKey : id ≠ row := by
        rintro rfl
        exact hId rfl
      simp only [exec] at hExec
      split at hExec
      · cases hExec
        rfl
      · cases hExec
        rw [KeyedStore.get_update, if_neg hKey]
  | get row =>
      cases hExec
      rfl
  | listDue now =>
      simp only [exec] at hExec
      split at hExec
      · cases hExec
        rfl
      · split at hExec
        · cases hExec
          rfl
        · cases hExec
  | len =>
      cases hExec
      rfl

/- A read answers with the stored row, or with nothing. -/
theorem exec_get
    {id : String}
    {found : Option V}
    (hExec :
      exec fault order store (.get id : StoreOp V P T) =
        some (found, store')) :
    store' = store ∧
      ∀ row, found = some row → store.get id = some row := by
  cases hExec
  refine ⟨rfl, ?_⟩
  intro row hRow
  split at hRow
  · cases hRow
  · exact hRow

/-
  An update either patches the row and answers with the
  result, or answers with nothing and changes nothing.
-/
theorem exec_update
    {id : String}
    {patch : P}
    {found : Option V}
    (hExec :
      exec fault order store
          (.update id patch : StoreOp V P T) =
        some (found, store')) :
    (found = none ∧ store' = store) ∨
      ∃ row, store.get id = some row ∧
        found = some (Record.apply patch row) ∧
        store' = store.update id patch := by
  simp only [exec] at hExec
  split at hExec
  · cases hExec
    exact .inl ⟨rfl, rfl⟩
  · cases hExec
    cases hRow : store.get id with
    | none =>
        refine .inl ⟨rfl, ?_⟩
        simp [KeyedStore.update, hRow]
    | some row => exact .inr ⟨row, rfl, rfl, rfl⟩

/- An update that lands answers with the row it has stored. -/
theorem exec_updated
    {id : String}
    {patch : P}
    {updated : V}
    (hExec :
      exec fault order store
          (.update id patch : StoreOp V P T) =
        some (some updated, store')) :
    ∃ row, store.get id = some row ∧
      updated = Record.apply patch row ∧
      store'.get id = some updated := by
  rcases exec_update hExec with
    ⟨hNone, -⟩ | ⟨row, hRow, hFound, hAfter⟩
  · cases hNone
  · cases hFound
    refine ⟨row, hRow, rfl, ?_⟩
    rw [hAfter, KeyedStore.get_update, if_pos rfl, hRow]
    rfl

/- A listing answers with stored rows that are due. -/
theorem exec_listDue
    {now : T}
    {due : List V}
    (hExec :
      exec fault order store
          (.listDue now : StoreOp V P T) =
        some (due, store')) :
    store' = store ∧
      (∀ row ∈ due, store.get (Record.key row) = some row ∧
        Record.isDue now row = true) := by
  simp only [exec] at hExec
  split at hExec
  · cases hExec
    exact ⟨rfl, by simp⟩
  · split at hExec
    · rename_i hPerm
      cases hExec
      refine ⟨rfl, ?_⟩
      intro row hRow
      rcases List.mem_filterMap.mp hRow with
        ⟨id, hId, hGet⟩
      have hKey := KeyedStore.key_of_get hGet
      subst hKey
      refine ⟨hGet, ?_⟩
      rcases List.mem_map.mp (hPerm.mem_iff.mp hId) with
        ⟨found, hFound, hFoundKey⟩
      rcases List.mem_filter.mp hFound with
        ⟨hStored, hDue⟩
      rw [KeyedStore.mem_values_iff, hFoundKey,
        hGet] at hStored
      cases hStored
      exact hDue
    · cases hExec

/- What an operation can do to the row under a key. -/
theorem exec_get_cases
    (hExec : exec fault order store op = some (answer, store'))
    (id : String) :
    store'.get id = store.get id ∨
      (∃ row, op = .insert row ∧ Record.key row = id ∧
        store'.get id = some row) ∨
      ∃ patch row, op = .update id patch ∧
        HEq answer (some (Record.apply patch row)) ∧
        store.get id = some row ∧
        store'.get id = some (Record.apply patch row) := by
  by_cases hTarget : op.target = some id
  · cases op with
    | insert row =>
        have hKey : Record.key row = id :=
          Option.some.inj hTarget
        cases hExec
        cases fault with
        | true => exact .inl rfl
        | false =>
            refine .inr (.inl ⟨row, rfl, hKey, ?_⟩)
            rw [← hKey]
            exact KeyedStore.get_insert_self store row
    | update key patch =>
        have hKey : key = id := Option.some.inj hTarget
        subst hKey
        rcases exec_update hExec with
          ⟨-, rfl⟩ | ⟨row, hRow, rfl, rfl⟩
        · exact .inl rfl
        · refine .inr (.inr ⟨patch, row, rfl, HEq.rfl, hRow, ?_⟩)
          rw [KeyedStore.get_update, if_pos rfl, hRow]
          rfl
    | get key => cases hTarget
    | listDue now => cases hTarget
    | len => cases hTarget
  · exact .inl (get_of_exec hExec hTarget)

/- An operation without a target leaves the store alone. -/
theorem exec_of_target_none
    (hExec : exec fault order store op = some (answer, store'))
    (hTarget : op.target = none) :
    store' = store := by
  cases op with
  | insert row => cases hTarget
  | update key patch => cases hTarget
  | get key =>
      cases hExec
      rfl
  | listDue now => exact (exec_listDue hExec).1
  | len =>
      cases hExec
      rfl

/- A listing names no key twice. -/
theorem exec_listDue_nodup
    {now : T}
    {due : List V}
    (hExec :
      exec fault order store
          (.listDue now : StoreOp V P T) =
        some (due, store')) :
    (due.map Record.key).Nodup := by
  simp only [exec] at hExec
  split at hExec
  · cases hExec
    exact List.nodup_nil
  · split at hExec
    · rename_i hPerm
      cases hExec
      have hValues : (store.values.map Record.key).Nodup :=
        store.nodup_keys
      have hDue :
          ((store.values.filter (Record.isDue now)).map
            Record.key).Nodup :=
        hValues.sublist (List.filter_sublist.map _)
      have hOrder : order.Nodup := hPerm.nodup_iff.mpr hDue
      have hStored :
          ∀ id ∈ order, ∃ row, store.get id = some row := by
        intro id hId
        rcases List.mem_map.mp (hPerm.mem_iff.mp hId) with
          ⟨row, hRow, rfl⟩
        exact ⟨row, KeyedStore.mem_values_iff.mp
          (List.mem_filter.mp hRow).1⟩
      have hKeys :
          (order.filterMap store.get).map Record.key =
            order :=
        KeyedStore.map_key_filterMap hStored
      rw [hKeys]
      exact hOrder
    · cases hExec

end StoreOp

end Data

end IcpHandler
