import IcpHandler.Model.Outbox

/-
  What the calls on the outbox do to the state of a delivery,
  which is its status with its attempts. Both backends keep
  the same states.

  Main declarations:
    * `DeliveryState`, `WebhookOutbox.state?`
    * `DeliveryPatch.onState`
    * `state?_enqueue`, `state?_update`
    * `state?_reclaimInFlight`, `state?_prune`
    * `mem_listDue`, `listDue_nodup`
-/

------------------------------------------------------------
-- States
------------------------------------------------------------

namespace IcpHandler

namespace Model

open Data

/- The part of a delivery that decides what happens to it. -/
structure DeliveryState where
  status : DeliveryStatus
  attempts : UInt32
  maxAttempts : UInt32

/- Still to be delivered: waiting for an attempt, or in one. -/
def DeliveryState.IsOpen (s : DeliveryState) : Prop :=
  s.status = .pending ∨ s.status = .inFlight ∨
    s.status = .failed

def WebhookDelivery.state
    (d : WebhookDelivery) : DeliveryState :=
  ⟨d.status, d.attempts, d.maxAttempts⟩

def DeliveryRow.state (row : DeliveryRow) : DeliveryState :=
  ⟨.parse row.status, toU32 row.attempts,
    toU32 row.maxAttempts⟩

/- What a patch does to the state. -/
def DeliveryPatch.onState
    (patch : DeliveryPatch)
    (s : DeliveryState) : DeliveryState :=
  match patch with
  | .inFlight _ => { s with status := .inFlight }
  | .reclaim _ => { s with status := .pending }
  | .delivered _ _ =>
      { s with
        status := .delivered
        attempts := Saturating.satAdd32 s.attempts 1 }
  | .retry _ => { s with status := .pending, attempts := 0 }
  | .failure _ _ _ =>
      { s with
        attempts := Saturating.satAdd32 s.attempts 1
        status :=
          if s.maxAttempts ≤ Saturating.satAdd32 s.attempts 1
          then .deadLettered
          else .failed }

theorem state_apply
    (patch : DeliveryPatch)
    (d : WebhookDelivery) :
    (patch.apply d).state = patch.onState d.state := by
  cases patch with
  | failure statusCode error now =>
      unfold DeliveryPatch.apply DeliveryPatch.onState
      dsimp only
      by_cases hLast :
          d.maxAttempts ≤ Saturating.satAdd32 d.attempts 1
      · have hState :
            d.state.maxAttempts ≤
              Saturating.satAdd32 d.state.attempts 1 :=
          hLast
        rw [if_pos hLast, if_pos hState]
        rfl
      · have hState :
            ¬ d.state.maxAttempts ≤
              Saturating.satAdd32 d.state.attempts 1 :=
          hLast
        rw [if_neg hLast, if_neg hState]
        rfl
  | _ => rfl

namespace DeliveryStatus

@[simp] theorem parse_wireName (status : DeliveryStatus) :
    parse status.wireName = status := by
  cases status <;> decide

/- No other text is read as being in flight. -/
theorem parse_eq_inFlight
    {name : String}
    (hParse : parse name = .inFlight) :
    name = "in_flight" := by
  unfold parse at hParse
  split_ifs at hParse with hPending hInFlight
  exact hInFlight

end DeliveryStatus

theorem toU32_toNat (value : UInt32) :
    DeliveryRow.toU32 (value.toNat : Int) = value := by
  unfold DeliveryRow.toU32
  rw [Int.toNat_natCast, UInt32.ofNat_toNat]

/- A row keeps the state of the delivery it is made from. -/
theorem state_ofDelivery
    (rfc3339 : Rfc3339)
    (d : WebhookDelivery) :
    (DeliveryRow.ofDelivery rfc3339 d).state = d.state := by
  unfold DeliveryRow.state DeliveryRow.ofDelivery
  dsimp only
  rw [DeliveryStatus.parse_wireName, toU32_toNat, toU32_toNat]
  rfl

theorem state_toDelivery
    (rfc3339 : Rfc3339)
    (clock : DateTime)
    (row : DeliveryRow) :
    (row.toDelivery rfc3339 clock).state = row.state :=
  rfl

/- A patch leaves the bound on the attempts alone. -/
theorem onState_maxAttempts
    (patch : DeliveryPatch)
    (s : DeliveryState) :
    (patch.onState s).maxAttempts = s.maxAttempts := by
  cases patch <;> rfl

/- Writing the columns of a delivery writes its state. -/
theorem state_columns
    {rfc3339 : Rfc3339}
    {d : WebhookDelivery}
    {row : DeliveryRow}
    (hMax : row.state.maxAttempts = d.maxAttempts) :
    ((DeliveryWrite.columns
        (DeliveryRow.columnsOf rfc3339 d)).apply row).state =
      d.state := by
  unfold DeliveryRow.state DeliveryWrite.apply
    DeliveryRow.columnsOf
  dsimp only
  rw [DeliveryStatus.parse_wireName, toU32_toNat]
  have hBound :
      DeliveryRow.toU32 row.maxAttempts = d.maxAttempts :=
    hMax
  rw [hBound]
  rfl

end Model

end IcpHandler

------------------------------------------------------------
-- Calls on the Outbox
------------------------------------------------------------

namespace IcpHandler

namespace Model

open Data

namespace WebhookOutbox

/- The state of the delivery with this id. -/
def state?
    (outbox : WebhookOutbox)
    (id : String) : Option DeliveryState :=
  match outbox with
  | .memory rows => (rows.get id).map WebhookDelivery.state
  | .sqlite rows => (rows.get id).map DeliveryRow.state

variable {rfc3339 : Rfc3339}
variable {clock : DateTime}
variable {outbox : WebhookOutbox}

/- A read tells the state. -/
theorem get_state (id : String) :
    (outbox.get rfc3339 clock id).map
        WebhookDelivery.state =
      outbox.state? id := by
  cases outbox with
  | memory rows => rfl
  | sqlite rows =>
      unfold get state?
      dsimp only
      rw [Option.map_map]
      rfl

/- A delivery that is new gets a row of its own. -/
theorem state?_enqueue
    {d : WebhookDelivery}
    (hNew : outbox.state? d.id = none)
    (id : String) :
    (outbox.enqueue rfc3339 d).state? id =
      if id = d.id then some d.state
      else outbox.state? id := by
  cases outbox with
  | memory rows =>
      change ((rows.insert d).get id).map _ = _
      rw [KeyedStore.get_insert]
      change Option.map _ (if id = d.id then _ else _) = _
      by_cases hId : id = d.id
      · rw [if_pos hId, if_pos hId]
        rfl
      · rw [if_neg hId, if_neg hId]
        rfl
  | sqlite rows =>
      have hNone : rows.get d.id = none :=
        Option.map_eq_none_iff.mp hNew
      simp only [enqueue, hNone]
      change ((rows.insert _).get id).map _ = _
      rw [KeyedStore.get_insert]
      change Option.map _ (if id = d.id then _ else _) = _
      by_cases hId : id = d.id
      · rw [if_pos hId, if_pos hId]
        exact congrArg some (state_ofDelivery rfc3339 d)
      · rw [if_neg hId, if_neg hId]
        rfl

/- An update does to the state what its patch does. -/
theorem state?_update
    (target : String)
    (patch : DeliveryPatch)
    (id : String) :
    (outbox.update rfc3339 clock target patch).state? id =
      if id = target then
        (outbox.state? id).map patch.onState
      else outbox.state? id := by
  cases outbox with
  | memory rows =>
      change ((rows.update target patch).get id).map _ = _
      rw [KeyedStore.get_update]
      split
      · change ((rows.get id).map _).map _ =
          ((rows.get id).map _).map _
        rw [Option.map_map, Option.map_map]
        congr 1
        funext d
        exact state_apply patch d
      · rfl
  | sqlite rows =>
      cases hRow : rows.get target with
      | none =>
          simp only [update, hRow]
          by_cases hId : id = target
          · rw [if_pos hId]
            change (rows.get id).map _ =
              ((rows.get id).map _).map _
            rw [hId, hRow]
            rfl
          · rw [if_neg hId]
      | some row =>
          simp only [update, hRow]
          change ((rows.update target _).get id).map _ = _
          rw [KeyedStore.get_update]
          by_cases hId : id = target
          · rw [if_pos hId, if_pos hId]
            change ((rows.get id).map _).map _ =
              ((rows.get id).map _).map _
            rw [hId, hRow]
            refine congrArg some ?_
            change ((DeliveryWrite.columns _).apply row).state =
              patch.onState row.state
            rw [state_columns, state_apply, state_toDelivery]
            change _ = (patch.apply _).state.maxAttempts
            rw [state_apply, onState_maxAttempts]
            rfl
          · rw [if_neg hId, if_neg hId]
            rfl

/- After the reclaim a row in flight is pending again. -/
theorem state?_reclaimInFlight
    (now : DateTime)
    (id : String) :
    (outbox.reclaimInFlight rfc3339 now).2.state? id =
      (outbox.state? id).map fun s =>
        if s.status = .inFlight then
          { s with status := .pending }
        else s := by
  cases outbox with
  | memory rows =>
      change ((rows.patchWhere _ _).get id).map _ = _
      rw [KeyedStore.get_patchWhere]
      change _ = ((rows.get id).map _).map _
      rw [Option.map_map, Option.map_map]
      congr 1
      funext d
      dsimp only [Function.comp_apply]
      by_cases hStuck : d.status = .inFlight
      · simp only [hStuck, beq_self_eq_true, if_true]
        simp only [WebhookDelivery.state, hStuck, if_true]
        rfl
      · have hOther : (d.status == .inFlight) = false := by
          simpa using hStuck
        simp only [hOther, Bool.false_eq_true, if_false]
        simp only [WebhookDelivery.state, hStuck, if_false]
  | sqlite rows =>
      change ((rows.patchWhere _ _).get id).map _ = _
      rw [KeyedStore.get_patchWhere]
      change _ = ((rows.get id).map _).map _
      rw [Option.map_map, Option.map_map]
      congr 1
      funext row
      dsimp only [Function.comp_apply]
      by_cases hStuck : row.status = "in_flight"
      · have hParse :
            DeliveryStatus.parse row.status = .inFlight := by
          rw [hStuck]
          decide
        simp only [hStuck, beq_self_eq_true, if_true]
        simp only [DeliveryRow.state, hParse, if_true]
        rfl
      · have hOther : (row.status == "in_flight") = false := by
          simpa using hStuck
        have hParse :
            DeliveryStatus.parse row.status ≠ .inFlight :=
          fun hNo => hStuck (DeliveryStatus.parse_eq_inFlight hNo)
        simp only [hOther, Bool.false_eq_true, if_false]
        simp only [DeliveryRow.state, hParse, if_false]

/-
  The prune leaves every row as it is or drops it, and drops
  only what is delivered or given up.
-/
theorem state?_prune
    (deliveredCutoff deadLetteredCutoff : Option DateTime)
    (id : String) :
    let after :=
      (outbox.prune rfc3339 deliveredCutoff
        deadLetteredCutoff).2.state? id
    after = outbox.state? id ∨
      (after = none ∧ ∃ s, outbox.state? id = some s ∧
        (s.status = .delivered ∨
          s.status = .deadLettered)) := by
  intro after
  cases outbox with
  | memory rows =>
      change Option.map _ ((rows.retain _).get id) = _ ∨
        (Option.map _ ((rows.retain _).get id) = _ ∧ _)
      rw [KeyedStore.get_retain]
      change _ = Option.map _ (rows.get id) ∨
        (_ ∧ ∃ s, Option.map _ (rows.get id) = some s ∧ _)
      cases hRow : rows.get id with
      | none => exact .inl rfl
      | some d =>
          rw [Option.filter_some]
          split
          · exact .inl rfl
          · rename_i hDropped
            right
            refine ⟨rfl, d.state, rfl, ?_⟩
            rw [Bool.not_eq_true', Bool.not_eq_false,
              Bool.or_eq_true] at hDropped
            unfold droppedDelivery at hDropped
            simp only [Bool.and_eq_true, beq_iff_eq] at hDropped
            rcases hDropped with ⟨hStatus, _⟩ | ⟨hStatus, _⟩
            · exact .inl hStatus
            · exact .inr hStatus
  | sqlite rows =>
      change Option.map _
          (((rows.retain _).retain _).get id) = _ ∨
        (Option.map _
          (((rows.retain _).retain _).get id) = _ ∧ _)
      rw [KeyedStore.get_retain, KeyedStore.get_retain]
      change _ = Option.map _ (rows.get id) ∨
        (_ ∧ ∃ s, Option.map _ (rows.get id) = some s ∧ _)
      have hDrop :
          ∀ {status cutoff} {row : DeliveryRow},
            droppedRow rfc3339 status cutoff row = true →
              row.state.status = status := by
        intro status cutoff row hDropped
        unfold droppedRow at hDropped
        simp only [Bool.and_eq_true, beq_iff_eq] at hDropped
        change DeliveryStatus.parse row.status = status
        rw [hDropped.1, DeliveryStatus.parse_wireName]
      cases hRow : rows.get id with
      | none => exact .inl rfl
      | some row =>
          rw [Option.filter_some]
          split
          · rw [Option.filter_some]
            split
            · exact .inl rfl
            · rename_i hDropped
              right
              refine ⟨rfl, row.state, rfl, .inr ?_⟩
              rw [Bool.not_eq_true', Bool.not_eq_false]
                at hDropped
              exact hDrop hDropped
          · rename_i hDropped
            right
            refine ⟨rfl, row.state, rfl, .inl ?_⟩
            rw [Bool.not_eq_true', Bool.not_eq_false]
              at hDropped
            exact hDrop hDropped

/- What is due is pending or has failed. -/
theorem mem_listDue
    {now : DateTime}
    {limit : Nat}
    {d : WebhookDelivery}
    (hDue : d ∈ outbox.listDue rfc3339 clock now limit) :
    ∃ s, outbox.state? d.id = some s ∧
      (s.status = .pending ∨ s.status = .failed) := by
  cases outbox with
  | memory rows =>
      have hSorted := List.mem_of_mem_take hDue
      rw [List.mem_insertionSort] at hSorted
      obtain ⟨hStored, hOpen⟩ := List.mem_filter.mp hSorted
      have hGet : rows.get d.id = some d :=
        KeyedStore.mem_values_iff.mp hStored
      refine ⟨d.state,
        congrArg (Option.map WebhookDelivery.state) hGet, ?_⟩
      change ((d.status == .pending || d.status == .failed) &&
        decide (d.nextAttemptAt ≤ now)) = true at hOpen
      simp only [Bool.and_eq_true, Bool.or_eq_true,
        beq_iff_eq] at hOpen
      exact hOpen.1
  | sqlite rows =>
      obtain ⟨row, hRow, rfl⟩ := List.mem_map.mp hDue
      have hSorted := List.mem_of_mem_take hRow
      rw [List.mem_insertionSort] at hSorted
      obtain ⟨hStored, hOpen⟩ := List.mem_filter.mp hSorted
      have hGet : rows.get row.id = some row :=
        KeyedStore.mem_values_iff.mp hStored
      refine ⟨row.state,
        congrArg (Option.map DeliveryRow.state) hGet, ?_⟩
      change ((row.status == "pending" ||
          row.status == "failed") &&
        decide (row.nextAttemptAt ≤ rfc3339.print now)) =
          true at hOpen
      simp only [Bool.and_eq_true, Bool.or_eq_true,
        beq_iff_eq] at hOpen
      change DeliveryStatus.parse row.status = _ ∨
        DeliveryStatus.parse row.status = _
      rcases hOpen.1 with hStatus | hStatus
      · left
        rw [hStatus]
        decide
      · right
        rw [hStatus]
        decide

/- No delivery is due twice. -/
theorem listDue_nodup
    (now : DateTime)
    (limit : Nat) :
    ((outbox.listDue rfc3339 clock now limit).map
      WebhookDelivery.id).Nodup := by
  cases outbox with
  | memory rows =>
      have hValues :
          ((rows.values.filter (Record.isDue now)).map
            WebhookDelivery.id).Nodup :=
        rows.nodup_keys.sublist (List.filter_sublist.map _)
      have hSorted :=
        (((rows.values.filter
          (Record.isDue now)).perm_insertionSort fun d d' =>
            d.nextAttemptAt ≤ d'.nextAttemptAt).map
              WebhookDelivery.id).nodup_iff.mpr hValues
      exact hSorted.sublist ((List.take_sublist _ _).map _)
  | sqlite rows =>
      have hValues :
          ((rows.values.filter
            (Record.isDue (rfc3339.print now))).map
              DeliveryRow.id).Nodup :=
        rows.nodup_keys.sublist (List.filter_sublist.map _)
      have hSorted :=
        (((rows.values.filter
          (Record.isDue
            (rfc3339.print now))).perm_insertionSort
              fun row row' =>
                row.nextAttemptAt ≤ row'.nextAttemptAt).map
                  DeliveryRow.id).nodup_iff.mpr hValues
      unfold listDue
      dsimp only
      rw [List.map_map]
      exact hSorted.sublist ((List.take_sublist _ _).map _)

end WebhookOutbox

end Model

end IcpHandler
