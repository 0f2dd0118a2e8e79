import Mathlib.Data.List.Induction
import IcpHandler.Data.Maps
import IcpHandler.Properties.SignatureBinding
import IcpHandler.Service.ApiKeys

/-
  A store of keys finds exactly the keys it was configured
  with, however its map iterates.

  Main declarations:
    * `lookup_new`
    * `WellFormedKeys`, `validateApiKeys_iff`
    * `configured_keys_are_found`
-/

------------------------------------------------------------
-- Lookup
------------------------------------------------------------

namespace IcpHandler

namespace Service

open Data Model

section Lookup

/- The map from keys to what they are configured as. -/
def keyMap
    (keys : List ApiKey) : AList fun _ : String => ApiKey :=
  keys.foldl
    (fun (map : AList fun _ : String => ApiKey) info =>
      map.insert info.key info) ∅

/- A map holds the last of the keys of each name. -/
theorem lookup_keyMap
    (keys : List ApiKey)
    (bearer : String) :
    (keyMap keys).lookup bearer =
      keys.reverse.find? fun info => info.key == bearer := by
  unfold keyMap
  induction keys using List.reverseRecOn with
  | nil => rfl
  | append_singleton keys info ih =>
      rw [List.foldl_append, List.reverse_append]
      simp only [List.foldl_cons, List.foldl_nil,
        List.reverse_cons, List.reverse_nil, List.nil_append,
        List.singleton_append, List.find?_cons]
      cases hSame : info.key == bearer with
      | true =>
          rw [beq_iff_eq] at hSame
          rw [← hSame, AList.lookup_insert]
      | false =>
          rw [beq_eq_false_iff_ne] at hSame
          rw [AList.lookup_insert_ne (Ne.symm hSame), ih]

/- Every value of the map is under its own key. -/
theorem key_of_mem_keyMap
    {keys : List ApiKey}
    {name : String}
    {info : ApiKey}
    (hLookup : (keyMap keys).lookup name = some info) :
    info.key = name := by
  rw [lookup_keyMap] at hLookup
  have hSame := List.find?_some hLookup
  exact beq_iff_eq.mp hSame

/- A scan of the values finds what the map has. -/
theorem lookup_new
    (order : IterationOrder ApiKey)
    (keys : List ApiKey)
    (bearer : String) :
    (ApiKeyStore.new order keys).lookup bearer =
      keys.reverse.find? fun info => info.key == bearer := by
  have hPerm := (ApiKeyStore.new order keys).perm
  have hScan :=
    find?_values (fun info : ApiKey => info.key)
      (fun _ _ hLookup => key_of_mem_keyMap hLookup)
      ((List.reverse_perm _).trans hPerm) bearer
  rw [← lookup_keyMap, ← hScan]
  unfold ApiKeyStore.lookup
  rw [foldl_scan, Option.or_none]
  congr 1
  funext info
  rw [Bool.eq_iff_iff, constantTimeEq_iff, beq_iff_eq]
  exact ⟨utf8Bytes_inj, congrArg utf8Bytes⟩

end Lookup

end Service

end IcpHandler

------------------------------------------------------------
-- Validation
------------------------------------------------------------

namespace IcpHandler

namespace Service

open Model

/- A text that says something, and has nothing around it. -/
def TrimmedText (text : String) : Prop :=
  Text.trim text ≠ "" ∧ Text.trim text = text

/- An entry on its own. -/
structure WellFormedKey (info : ApiKey) : Prop where
  key : TrimmedText info.key
  tenant : TrimmedText info.tenantId
  name : Text.trim info.name ≠ ""
  agents :
    ∀ agents, info.allowedAgents = some agents →
      ∀ agent ∈ agents, TrimmedText agent

/- Entries with one name each. -/
structure WellFormedKeys (keys : List ApiKey) : Prop where
  entries : ∀ info ∈ keys, WellFormedKey info
  distinct : (keys.map fun info : ApiKey => info.key).Nodup

section Validation

theorem textIssues_eq_nil_iff {place text : String} :
    textIssues place text = [] ↔ TrimmedText text := by
  unfold textIssues TrimmedText
  split
  · rename_i hEmpty
    rw [String.isEmpty_iff] at hEmpty
    simp [hEmpty]
  · rename_i hSome
    rw [String.isEmpty_iff] at hSome
    split
    · rename_i hPadded
      rw [bne_iff_ne] at hPadded
      simp [hPadded]
    · rename_i hPlain
      rw [bne_iff_ne, not_not] at hPlain
      exact iff_of_true rfl ⟨hSome, hPlain⟩

theorem agentIssues_eq_nil_iff
    {entry : String}
    {agents : List String} :
    agentIssues entry agents = [] ↔
      ∀ agent ∈ agents, TrimmedText agent := by
  unfold agentIssues
  rw [List.flatMap_eq_nil_iff]
  simp only [textIssues_eq_nil_iff]
  constructor
  · intro hAll agent hAgent
    obtain ⟨i, hLess, rfl⟩ := List.getElem_of_mem hAgent
    exact hAll (agents[i], i)
      (List.mk_mem_zipIdx_iff_getElem?.mpr
        (List.getElem?_eq_getElem hLess))
  · intro hAll indexed hIndexed
    exact hAll indexed.1 (List.fst_mem_of_mem_zipIdx hIndexed)

/- An entry has no issue when it is well formed and new. -/
theorem entryIssues_eq_nil_iff
    {idx : Nat}
    {seen : List String}
    {info : ApiKey} :
    entryIssues idx seen info = [] ↔
      WellFormedKey info ∧ info.key ∉ seen := by
  unfold entryIssues
  dsimp only
  simp only [List.append_eq_nil_iff, textIssues_eq_nil_iff,
    agentIssues_eq_nil_iff, ite_eq_right_iff, List.cons_ne_nil,
    imp_false, String.isEmpty_iff]
  have hAgents :
      (∀ agent ∈ info.allowedAgents.getD [],
          TrimmedText agent) ↔
        ∀ agents, info.allowedAgents = some agents →
          ∀ agent ∈ agents, TrimmedText agent := by
    cases info.allowedAgents with
    | none => simp
    | some agents => simp
  rw [hAgents]
  constructor
  · rintro ⟨⟨⟨⟨hKey, hTenant⟩, hName⟩, hNew⟩, hEach⟩
    exact ⟨⟨hKey, hTenant, hName, hEach⟩, hNew⟩
  · rintro ⟨⟨hKey, hTenant, hName, hEach⟩, hNew⟩
    exact ⟨⟨⟨⟨hKey, hTenant⟩, hName⟩, hNew⟩, hEach⟩

theorem wellFormedKeys_cons
    {info : ApiKey}
    {keys : List ApiKey} :
    WellFormedKeys (info :: keys) ↔
      WellFormedKey info ∧ WellFormedKeys keys ∧
        ∀ other ∈ keys, other.key ≠ info.key := by
  constructor
  · rintro ⟨hEntries, hDistinct⟩
    rw [List.map_cons, List.nodup_cons] at hDistinct
    rw [List.forall_mem_cons] at hEntries
    refine ⟨hEntries.1, ⟨hEntries.2, hDistinct.2⟩, ?_⟩
    intro other hOther hSame
    apply hDistinct.1
    rw [← hSame]
    exact List.mem_map_of_mem hOther
  · rintro ⟨hInfo, ⟨hEntries, hDistinct⟩, hOthers⟩
    constructor
    · rw [List.forall_mem_cons]
      exact ⟨hInfo, hEntries⟩
    · rw [List.map_cons, List.nodup_cons]
      refine ⟨fun hMem => ?_, hDistinct⟩
      obtain ⟨other, hOther, hSame⟩ := List.mem_map.mp hMem
      exact hOthers other hOther hSame

/- The issues of all entries, by induction on them. -/
theorem issuesFrom_eq_nil_iff
    {idx : Nat}
    {seen : List String}
    {keys : List ApiKey} :
    issuesFrom idx seen keys = [] ↔
      WellFormedKeys keys ∧
        ∀ info ∈ keys, info.key ∉ seen := by
  induction keys generalizing idx seen with
  | nil =>
      constructor
      · intro _
        exact ⟨⟨by simp, List.nodup_nil⟩, by simp⟩
      · intro _
        rfl
  | cons info keys ih =>
      rw [issuesFrom, List.append_eq_nil_iff,
        entryIssues_eq_nil_iff, ih, wellFormedKeys_cons,
        List.forall_mem_cons]
      have hSeen :
          (∀ other ∈ keys, other.key ∉ info.key :: seen) ↔
            (∀ other ∈ keys, other.key ≠ info.key) ∧
              ∀ other ∈ keys, other.key ∉ seen := by
        simp only [List.mem_cons, not_or, ← forall_and]
      rw [hSeen]
      constructor
      · rintro ⟨⟨hInfo, hNew⟩, hKeys, hOthers, hRest⟩
        exact ⟨⟨hInfo, hKeys, hOthers⟩, hNew, hRest⟩
      · rintro ⟨⟨hInfo, hKeys, hOthers⟩, hNew, hRest⟩
        exact ⟨⟨hInfo, hNew⟩, hKeys, hOthers, hRest⟩

theorem validateApiKeys_iff {keys : List ApiKey} :
    validateApiKeys keys = .ok () ↔ WellFormedKeys keys := by
  have hIssues :
      issuesFrom 0 [] keys = [] ↔ WellFormedKeys keys := by
    rw [issuesFrom_eq_nil_iff]
    simp
  rw [← hIssues]
  unfold validateApiKeys
  dsimp only
  split
  · rename_i hEmpty
    simp [List.isEmpty_iff.mp hEmpty]
  · rename_i hSome
    rw [List.isEmpty_iff] at hSome
    simp [hSome]

/- A lookup by one of distinct keys finds it. -/
theorem find?_reverse_iff
    {keys : List ApiKey}
    (hDistinct : (keys.map fun info : ApiKey => info.key).Nodup)
    {bearer : String}
    {info : ApiKey} :
    (keys.reverse.find? fun info => info.key == bearer) =
        some info ↔
      info ∈ keys ∧ info.key = bearer := by
  constructor
  · intro hFound
    have hKey := List.find?_some hFound
    exact ⟨List.mem_reverse.mp
      (List.mem_of_find?_eq_some hFound), beq_iff_eq.mp hKey⟩
  · rintro ⟨hMem, hKey⟩
    cases hFound :
        keys.reverse.find? fun info => info.key == bearer with
    | none =>
        rw [List.find?_eq_none] at hFound
        exact absurd (beq_iff_eq.mpr hKey)
          (hFound info (List.mem_reverse.mpr hMem))
    | some other =>
        have hOther := List.find?_some hFound
        have hOtherMem := List.mem_reverse.mp
          (List.mem_of_find?_eq_some hFound)
        have hSame : other.key = info.key :=
          (beq_iff_eq.mp hOther).trans hKey.symm
        rw [List.inj_on_of_nodup_map hDistinct hOtherMem hMem
          hSame]

/- A checked store finds what it was configured with. -/
theorem lookup_tryNew
    {order : IterationOrder ApiKey}
    {keys : List ApiKey}
    {store : ApiKeyStore}
    (hStore : ApiKeyStore.tryNew order keys = .ok store)
    {bearer : String}
    {info : ApiKey} :
    store.lookup bearer = some info ↔
      info ∈ keys ∧ info.key = bearer := by
  unfold ApiKeyStore.tryNew at hStore
  cases hValid : validateApiKeys keys with
  | error issues =>
      rw [hValid] at hStore
      cases hStore
  | ok done =>
      rw [hValid] at hStore
      cases hStore
      have hKeys := validateApiKeys_iff.mp hValid
      rw [lookup_new, find?_reverse_iff hKeys.distinct]

end Validation

end Service

end IcpHandler
