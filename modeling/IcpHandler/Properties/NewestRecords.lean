import IcpHandler.Model.TenantLists
import IcpHandler.Properties.LegacyRows

/-
  What a tenant's listing shows. It should be the newest of
  the records that the tenant owns and the filter lets pass.
  On SQLite it is a page by columns, and rows with blank
  columns come in only when the page is not full and one of
  them lacks its tenant.

  Main declarations:
    * `KeepsRecord`, `RecordsKept`
    * `recordsKept_of_upgraded`
    * `ListsNewest`, `PageSuffices`
    * `listsNewest_memory`, `listsNewest_sqlite_iff`
    * `tenant_lists_newest_iff`
    * `tenant_lists_miss_newest`
-/

------------------------------------------------------------
-- Rows That a Listing Can Meet
------------------------------------------------------------

namespace IcpHandler

namespace Model

open Data DocumentStore

/-
  The names in the columns of a store, and that the columns a
  listing looks at are among those the migrations added.
-/
structure ListedColumns
    (V : Type)
    {F I : Type}
    [Listed V F]
    [Document V I]
    (names : List String) : Prop where
  name_inj :
    ∀ first second : F,
      Listed.wireName V first = Listed.wireName V second →
      first = second
  name_ne : ∀ status : F, Listed.wireName V status ≠ ""
  tenant_lookup :
    ∀ (rfc3339 : Rfc3339) (value : V),
      (indexColumns rfc3339 value).lookup "tenant_id" =
        some (Listed.tenantId value)
  status_lookup :
    ∀ (rfc3339 : Rfc3339) (value : V),
      (indexColumns rfc3339 value).lookup
          (Listed.statusColumn V) =
        some (Listed.wireName V (Listed.status value))
  created_lookup :
    ∀ (rfc3339 : Rfc3339) (value : V),
      (indexColumns rfc3339 value).lookup "created_at" =
        some (rfc3339.print (Listed.createdAt value))
  created_times :
    ∀ value : V,
      Listed.createdAt value ∈
        Document.times V (Document.indexed value)
  status_text : isIntegerColumn (Listed.statusColumn V) = false
  status_mem : Listed.statusColumn V ∈ names
  created_mem : "created_at" ∈ names

section Rows

variable {V F I : Type} [Listed V F] [Document V I]

/-
  The row keeps a record under the record's id, and each of
  the columns that a listing looks at says what the record
  says, or is blank.
-/
structure KeepsRecord
    (rfc3339 : Rfc3339)
    (codec : Codec V)
    (row : DocumentRow)
    (value : V) : Prop where
  reads : deserializePayload codec row = some value
  id : Document.id value = row.id
  created_valid : rfc3339.Valid (Listed.createdAt value)
  tenant :
    row.columns "tenant_id" =
        some (.text (Listed.tenantId value)) ∨
      row.columns "tenant_id" = some (.text "")
  status :
    row.columns (Listed.statusColumn V) =
        some (.text (Listed.wireName V (Listed.status value))) ∨
      row.columns (Listed.statusColumn V) = some (.text "")
  created :
    row.columns "created_at" =
        some (.text (rfc3339.print (Listed.createdAt value))) ∨
      row.columns "created_at" = some (.text "")

def RecordsKept
    (rfc3339 : Rfc3339)
    (codec : Codec V)
    (table : DocumentTable) : Prop :=
  ∀ row ∈ table.values, ∃ value : V,
    KeepsRecord rfc3339 codec row value

variable {rfc3339 : Rfc3339}
variable {codec : Codec V}
variable {names : List String}

/-
  A column that was written has the record's text, and one
  that a migration added is blank.
-/
theorem migrated_text
    {version : HandlerVersion}
    {value : V}
    {written : DocumentRow}
    (hWritten :
      WrittenBy rfc3339 codec names version value written)
    {name text : String}
    (hText : isIntegerColumn name = false)
    (hLookup :
      (indexColumns rfc3339 value).lookup name = some text)
    (hAdded : name = "tenant_id" ∨ name ∈ names) :
    (migrated names written).columns name =
        some (.text text) ∨
      (migrated names written).columns name =
        some (.text "") := by
  have hBound : SqlValue.bound name text = .text text := by
    unfold SqlValue.bound
    rw [hText]
    rfl
  have hBlank : SqlValue.default name = .text "" := by
    unfold SqlValue.default
    rw [hText]
    rfl
  rw [migrated_columns, hWritten.columns]
  by_cases hWrites : version.writes names name
  · left
    rw [if_pos hWrites, hLookup, Option.map_some, hBound]
  · right
    rw [if_neg hWrites]
    dsimp only
    rw [if_pos hAdded, hBlank]

/- A row that some handler has written is such a row. -/
theorem keepsRecord_of_written
    (hStore : ListedColumns V names)
    {version : HandlerVersion}
    {value : V}
    {written : DocumentRow}
    (hWritten :
      WrittenBy rfc3339 codec names version value written)
    (hId : Document.id value = written.id) :
    KeepsRecord rfc3339 codec (migrated names written)
      value where
  reads := hWritten.reads
  id := hId
  created_valid := hWritten.times _ (hStore.created_times value)
  tenant :=
    migrated_text hWritten rfl
      (hStore.tenant_lookup rfc3339 value) (.inl rfl)
  status :=
    migrated_text hWritten hStore.status_text
      (hStore.status_lookup rfc3339 value)
      (.inr hStore.status_mem)
  created :=
    migrated_text hWritten rfl
      (hStore.created_lookup rfc3339 value)
      (.inr hStore.created_mem)

/- The tables of all handlers have such rows. -/
theorem recordsKept_of_upgraded
    {table : DocumentTable}
    (hStore : ListedColumns V names)
    (hUpgraded : Upgraded rfc3339 codec names table)
    (hIds :
      ∀ row ∈ table.values, ∀ value : V,
        deserializePayload codec row = some value →
        Document.id value = row.id) :
    RecordsKept rfc3339 codec table := by
  intro row hRow
  obtain ⟨version, value, written, hWritten, rfl⟩ :=
    hUpgraded row hRow
  exact ⟨value, keepsRecord_of_written hStore hWritten
    (hIds _ hRow value hWritten.reads)⟩

end Rows

end Model

end IcpHandler

------------------------------------------------------------
-- The Merge
------------------------------------------------------------

namespace IcpHandler

namespace Model

open Data DocumentStore

section Merge

variable {V F I : Type} [Listed V F] [Document V I]

theorem mem_unseen
    {value : V}
    {seen : List String}
    {values : List V}
    (hValue : value ∈ unseen seen values) :
    value ∈ values ∧ Document.id value ∉ seen := by
  induction values generalizing seen with
  | nil => cases hValue
  | cons first values ih =>
      rw [unseen] at hValue
      split at hValue
      · obtain ⟨hIn, hNew⟩ := ih hValue
        exact ⟨List.mem_cons_of_mem _ hIn, hNew⟩
      · rename_i hFirst
        rcases List.mem_cons.mp hValue with rfl | hLater
        · exact ⟨List.mem_cons_self, hFirst⟩
        · obtain ⟨hIn, hNew⟩ := ih hLater
          exact ⟨List.mem_cons_of_mem _ hIn, fun hSeen =>
            hNew (List.mem_cons_of_mem _ hSeen)⟩

/- Among values with ids of their own, all new ones remain. -/
theorem mem_unseen_of_new
    {value : V}
    {seen : List String}
    {values : List V}
    (hIds : (values.map Document.id).Nodup)
    (hValue : value ∈ values)
    (hNew : Document.id value ∉ seen) :
    value ∈ unseen seen values := by
  induction values generalizing seen with
  | nil => cases hValue
  | cons first values ih =>
      rw [List.map_cons, List.nodup_cons] at hIds
      rw [unseen]
      rcases List.mem_cons.mp hValue with rfl | hLater
      · rw [if_neg hNew]
        exact List.mem_cons_self
      · have hOther :
            Document.id value ≠ Document.id first := by
          intro hSame
          apply hIds.1
          rw [← hSame]
          exact List.mem_map_of_mem hLater
        split
        · exact ih hIds.2 hLater hNew
        · refine List.mem_cons_of_mem _ (ih hIds.2 hLater ?_)
          intro hSeen
          rcases List.mem_cons.mp hSeen with hSame | hOld
          · exact hOther hSame
          · exact hNew hOld

theorem unseen_sublist
    (seen : List String)
    (values : List V) :
    (unseen seen values).Sublist values := by
  induction values generalizing seen with
  | nil => exact List.Sublist.refl []
  | cons first values ih =>
      rw [unseen]
      split
      · exact (ih seen).cons first
      · exact (ih _).cons_cons first

/-
  What a page lacks of the values is added to it, and nothing
  comes twice.
-/
theorem append_unseen_perm
    {page values : List V}
    (hIds : (values.map Document.id).Nodup)
    (hNodup : page.Nodup)
    (hPage : page ⊆ values) :
    (page ++ unseen (page.map Document.id) values).Perm
      values := by
  have hValues : values.Nodup := List.Nodup.of_map _ hIds
  refine (List.perm_ext_iff_of_nodup ?_ hValues).mpr ?_
  · refine hNodup.append
      (hValues.sublist (unseen_sublist _ values)) ?_
    intro value hIn hUnseen
    exact (mem_unseen hUnseen).2 (List.mem_map_of_mem hIn)
  · intro value
    rw [List.mem_append]
    constructor
    · rintro (hIn | hUnseen)
      · exact hPage hIn
      · exact (mem_unseen hUnseen).1
    · intro hValue
      by_cases hIn : value ∈ page
      · exact .inl hIn
      · right
        refine mem_unseen_of_new hIds hValue ?_
        intro hSeen
        obtain ⟨other, hOther, hSame⟩ := List.mem_map.mp hSeen
        have hEq :=
          List.inj_on_of_nodup_map hIds (hPage hOther) hValue
            hSame
        rw [hEq] at hOther
        exact hIn hOther

end Merge

end Model

end IcpHandler

------------------------------------------------------------
-- Listings
------------------------------------------------------------

namespace IcpHandler

namespace Model

open Data DocumentStore

section Lists

variable {V F I P T : Type}
variable [Listed V F] [Document V I] [Record V P T]
variable [DecidableEq F]

/- The records in a store. -/
def JsonBackend.records
    (codec : Codec V) :
    JsonBackend V → List V
  | .memory store => store.values
  | .sqlite table =>
      table.values.filterMap (deserializePayload codec)

/-
  The listing shows the newest of all records that the tenant
  owns and the filter lets pass, whatever the orders that it
  leaves open.
-/
def ListsNewest
    (listing :
      Codec V → ListOrders V → JsonBackend V → String → Nat →
        Option F → List V)
    (codec : Codec V)
    (backend : JsonBackend V)
    (tenantId : String)
    (limit : Nat)
    (statusFilter : Option F) : Prop :=
  ∀ orders : ListOrders V,
    IsNewest Listed.createdAt limit
      ((backend.records codec).filter
        (owns tenantId statusFilter))
      (listing codec orders backend tenantId limit
        statusFilter)

/- The rows that the query finds. -/
def selected
    (V : Type)
    {F : Type}
    [Listed V F]
    (table : DocumentTable)
    (tenantId : String)
    (statusFilter : Option F) : List DocumentRow :=
  table.values.filter (tenantCondition V tenantId statusFilter)

/- The query leaves room and the probe finds a row to merge. -/
def Merges
    (V : Type)
    {F : Type}
    [Listed V F]
    (table : DocumentTable)
    (tenantId : String)
    (limit : Nat)
    (statusFilter : Option F) : Prop :=
  (selected V table tenantId statusFilter).length < limit ∧
    hasLegacyMetadataRows table = true

/-
  The row may be off the page for its blank columns: the query
  misses it, or it comes after all others on a page that has
  no room for all.
-/
def MayMiss
    (V : Type)
    {F : Type}
    [Listed V F]
    (table : DocumentTable)
    (tenantId : String)
    (limit : Nat)
    (statusFilter : Option F)
    (row : DocumentRow) : Prop :=
  tenantCondition V tenantId statusFilter row = false ∨
    (row.text "created_at" = "" ∧
      limit < (selected V table tenantId statusFilter).length)

/- The row may be on the page. -/
def MayShow
    (V : Type)
    {F : Type}
    [Listed V F]
    (table : DocumentTable)
    (tenantId : String)
    (limit : Nat)
    (statusFilter : Option F)
    (row : DocumentRow) : Prop :=
  row ∈ selected V table tenantId statusFilter ∧
    above (fun row => row.text "created_at")
      (selected V table tenantId statusFilter) row < limit

/-
  The page will do: it is full or the query misses no record,
  and no record that may be missed is newer than one that may
  be shown.
-/
structure PageSuffices
    (codec : Codec V)
    (table : DocumentTable)
    (tenantId : String)
    (limit : Nat)
    (statusFilter : Option F) : Prop where
  covers :
    limit ≤ (selected V table tenantId statusFilter).length ∨
      ∀ row ∈ table.values, ∀ value : V,
        deserializePayload codec row = some value →
        owns tenantId statusFilter value = true →
        tenantCondition V tenantId statusFilter row = true
  newest :
    ∀ shown, MayShow V table tenantId limit statusFilter shown →
      ∀ first : V, deserializePayload codec shown = some first →
      ∀ missed ∈ table.values,
        MayMiss V table tenantId limit statusFilter missed →
      ∀ value : V,
        deserializePayload codec missed = some value →
        owns tenantId statusFilter value = true →
        Listed.createdAt value ≤ Listed.createdAt first

/- In memory a listing goes through all records. -/
theorem listsNewest_memory
    (codec : Codec V)
    (store : KeyedStore V)
    (tenantId : String)
    (limit : Nat)
    (statusFilter : Option F) :
    ListsNewest listForTenant codec (.memory store) tenantId
      limit statusFilter := by
  intro orders
  refine isNewest_newestOf
    ((orders.visit_perm store.values).filter _) ?_
  exact ((List.Nodup.of_map _ store.nodup_keys).filter _)

end Lists

section Pages

variable {V F I P T : Type}
variable [Listed V F] [Document V I] [Record V P T]
variable [DecidableEq F]
variable {rfc3339 : Rfc3339}
variable {codec : Codec V}
variable {table : DocumentTable}
variable {tenantId : String}
variable {limit : Nat}
variable {statusFilter : Option F}
variable {read : DocumentRow → V}

theorem values_nodup (table : DocumentTable) :
    table.values.Nodup :=
  List.Nodup.of_map _ table.nodup_keys

omit [DecidableEq F] in
theorem selected_subset :
    selected V table tenantId statusFilter ⊆ table.values :=
  fun _ hRow => (List.mem_filter.mp hRow).1

omit [Record V P T] [DecidableEq F] in
/- Where every row can be read, reading is a function. -/
theorem filterMap_read
    (hRead :
      ∀ row ∈ table.values,
        KeepsRecord rfc3339 codec row (read row))
    {rows : List DocumentRow}
    (hRows : rows ⊆ table.values) :
    rows.filterMap (deserializePayload codec) =
      rows.map read := by
  rw [← List.filterMap_eq_map]
  refine List.filterMap_congr fun row hRow => ?_
  exact (hRead row (hRows hRow)).reads

omit [Record V P T] [DecidableEq F] in
theorem read_inj
    (hRead :
      ∀ row ∈ table.values,
        KeepsRecord rfc3339 codec row (read row)) :
    ∀ first ∈ table.values, ∀ second ∈ table.values,
      read first = read second → first = second := by
  intro first hFirst second hSecond hSame
  refine List.inj_on_of_nodup_map table.nodup_keys hFirst
    hSecond ?_
  change first.id = second.id
  rw [← (hRead first hFirst).id, ← (hRead second hSecond).id,
    hSame]

omit [Record V P T] in
/- A row that the query finds has a record of the tenant's. -/
theorem owns_of_condition
    {names : List String}
    (hStore : ListedColumns V names)
    (hTenant : tenantId ≠ "")
    {row : DocumentRow}
    {value : V}
    (hKeeps : KeepsRecord rfc3339 codec row value)
    (hCondition :
      tenantCondition V tenantId statusFilter row = true) :
    owns tenantId statusFilter value = true := by
  obtain ⟨hTenantId, hStatus⟩ := Bool.and_eq_true_iff.mp hCondition
  have hOwner : Listed.tenantId value = tenantId := by
    have hColumn := eq_of_beq hTenantId
    rcases hKeeps.tenant with hSame | hBlank
    · rw [hSame] at hColumn
      cases hColumn
      rfl
    · rw [hBlank] at hColumn
      cases hColumn
      exact absurd rfl hTenant
  unfold owns
  rw [decide_eq_true hOwner, Bool.true_and]
  cases statusFilter with
  | none => rfl
  | some status =>
      have hColumn := eq_of_beq hStatus
      dsimp only
      rw [decide_eq_true_eq]
      rcases hKeeps.status with hSame | hBlank
      · rw [hSame] at hColumn
        exact hStore.name_inj _ _
          (SqlValue.text.inj (Option.some.inj hColumn))
      · rw [hBlank] at hColumn
        exact absurd
          (SqlValue.text.inj (Option.some.inj hColumn)).symm
          (hStore.name_ne status)

/- The rows whose records the tenant owns. -/
private def owned
    (read : DocumentRow → V)
    (table : DocumentTable)
    (tenantId : String)
    (statusFilter : Option F) : List DocumentRow :=
  table.values.filter fun row =>
    owns tenantId statusFilter (read row)

omit [Record V P T] in
private theorem selected_subset_owned
    {names : List String}
    (hStore : ListedColumns V names)
    (hTenant : tenantId ≠ "")
    (hRead :
      ∀ row ∈ table.values,
        KeepsRecord rfc3339 codec row (read row)) :
    selected V table tenantId statusFilter ⊆
      owned read table tenantId statusFilter := by
  intro row hRow
  obtain ⟨hIn, hCondition⟩ := List.mem_filter.mp hRow
  exact List.mem_filter.mpr
    ⟨hIn, owns_of_condition hStore hTenant (hRead row hIn)
      hCondition⟩

private theorem records_eq_owned
    (hRead :
      ∀ row ∈ table.values,
        KeepsRecord rfc3339 codec row (read row)) :
    (((JsonBackend.sqlite table).records codec).filter
        (owns tenantId statusFilter) : List V) =
      (owned read table tenantId statusFilter).map read := by
  unfold JsonBackend.records owned
  dsimp only
  rw [filterMap_read hRead (List.Subset.refl _),
    List.filter_map]
  rfl

omit [DecidableEq F] in
/- The page as it is read. -/
private theorem indexed_eq
    (hRead :
      ∀ row ∈ table.values,
        KeepsRecord rfc3339 codec row (read row))
    (page : PagePlan) :
    listForTenantIndexed codec page table tenantId limit
        statusFilter =
      ((page.arrange
        (selected V table tenantId statusFilter)).take
          limit).map read := by
  unfold listForTenantIndexed
  refine filterMap_read hRead ?_
  intro row hRow
  exact selected_subset
    ((page.perm _).mem_iff.mp (List.mem_of_mem_take hRow))

omit [DecidableEq F] in
private theorem indexed_length
    (hRead :
      ∀ row ∈ table.values,
        KeepsRecord rfc3339 codec row (read row))
    (page : PagePlan) :
    (listForTenantIndexed codec page table tenantId limit
        statusFilter).length =
      min limit
        (selected V table tenantId statusFilter).length := by
  rw [indexed_eq hRead, List.length_map, List.length_take,
    (page.perm _).length_eq]

/- With the merge every record of the tenant's is sorted. -/
private theorem newest_of_merged
    {names : List String}
    (hStore : ListedColumns V names)
    (hTenant : tenantId ≠ "")
    (hRead :
      ∀ row ∈ table.values,
        KeepsRecord rfc3339 codec row (read row))
    (hMerges : Merges V table tenantId limit statusFilter) :
    ListsNewest listForTenant codec (.sqlite table) tenantId
      limit statusFilter := by
  obtain ⟨hRoom, hProbe⟩ := hMerges
  intro orders
  have hShort :
      (listForTenantIndexed codec orders.page table tenantId
        limit statusFilter).length < limit := by
    rw [indexed_length hRead]
    omega
  have hScanned :
      ((list codec orders.scan table).filter
          (owns tenantId statusFilter)).Perm
        (((JsonBackend.sqlite table).records codec).filter
          (owns tenantId statusFilter)) :=
    ((orders.scan.perm table.values).filterMap _).filter _
  have hIds :
      ((((JsonBackend.sqlite table).records codec).filter
        (owns tenantId statusFilter) : List V).map
          Document.id).Nodup := by
    have hRows :
        (table.values.map fun row =>
          Document.id (read row)).Nodup := by
      have hSame :
          (table.values.map fun row =>
              Document.id (read row)) =
            table.values.map Record.key :=
        List.map_congr_left fun row hRow => (hRead row hRow).id
      rw [hSame]
      exact table.nodup_keys
    rw [records_eq_owned hRead, List.map_map]
    exact hRows.sublist (List.filter_sublist.map _)
  have hPageNodup :
      (listForTenantIndexed codec orders.page table tenantId
        limit statusFilter).Nodup := by
    rw [indexed_eq hRead]
    refine List.Nodup.map_on ?_ ?_
    · intro first hFirst second hSecond
      exact read_inj hRead first
        (selected_subset ((orders.page.perm _).mem_iff.mp
          (List.mem_of_mem_take hFirst)))
        second
        (selected_subset ((orders.page.perm _).mem_iff.mp
          (List.mem_of_mem_take hSecond)))
    · refine ((orders.page.perm _).nodup_iff.mpr
        ?_).sublist (List.take_sublist _ _)
      exact (values_nodup table).filter _
  have hPage :
      listForTenantIndexed codec orders.page table tenantId
          limit statusFilter ⊆
        (list codec orders.scan table).filter
          (owns tenantId statusFilter) := by
    intro value hValue
    rw [indexed_eq hRead] at hValue
    obtain ⟨row, hRow, rfl⟩ := List.mem_map.mp hValue
    refine hScanned.mem_iff.mpr ?_
    rw [records_eq_owned hRead]
    exact List.mem_map_of_mem
      (selected_subset_owned hStore hTenant hRead
        ((orders.page.perm _).mem_iff.mp
          (List.mem_of_mem_take hRow)))
  unfold listForTenant
  dsimp only
  rw [if_pos ⟨hShort, hProbe⟩]
  refine isNewest_newestOf ?_ (List.Nodup.of_map _ hIds)
  refine (append_unseen_perm ?_ hPageNodup hPage).trans hScanned
  exact (hScanned.map _).nodup_iff.mpr hIds

omit [DecidableEq F] in
/- A ranking of the rows that a query finds is some plan's. -/
private theorem exists_orders
    {ranked : List DocumentRow}
    (hPerm :
      ranked.Perm (selected V table tenantId statusFilter))
    (hRanked :
      Descending (fun row => row.text "created_at") ranked) :
    ∃ orders : ListOrders V,
      orders.page.arrange
        (selected V table tenantId statusFilter) = ranked := by
  classical
  let key : DocumentRow → String := fun row =>
    row.text "created_at"
  have hSort := fun rows => exists_ranking key rows
  choose sorted hSorted hDescends using hSort
  refine ⟨⟨id, fun _ => List.Perm.refl _, storedOrder,
    ⟨⟨fun rows =>
      if rows = selected V table tenantId statusFilter then
        ranked
      else sorted rows, ?_⟩, ?_⟩⟩, ?_⟩
  · intro rows
    split
    · rename_i hSame
      rw [hSame]
      exact hPerm
    · exact hSorted rows
  · intro rows
    dsimp only
    split
    · exact hRanked
    · exact hDescends rows
  · exact if_pos rfl

/-
  Without the merge the listing is right where every page of
  the rows that the query finds shows the newest of the rows
  that the tenant owns.
-/
private theorem newest_of_page_iff
    {names : List String}
    (hStore : ListedColumns V names)
    (hTenant : tenantId ≠ "")
    (hRead :
      ∀ row ∈ table.values,
        KeepsRecord rfc3339 codec row (read row))
    (hAlone : ¬Merges V table tenantId limit statusFilter) :
    ListsNewest listForTenant codec (.sqlite table) tenantId
        limit statusFilter ↔
      ∀ ranked : List DocumentRow,
        ranked.Perm (selected V table tenantId statusFilter) →
        Descending (fun row => row.text "created_at") ranked →
        IsNewest (fun row => Listed.createdAt (read row)) limit
          (owned read table tenantId statusFilter)
          (newestOf (fun row => Listed.createdAt (read row))
            limit (ranked.take limit)) := by
  have hListing :
      ∀ orders : ListOrders V,
        IsNewest Listed.createdAt limit
            (((JsonBackend.sqlite table).records codec).filter
              (owns tenantId statusFilter))
            (listForTenant codec orders (.sqlite table)
              tenantId limit statusFilter) ↔
          IsNewest (fun row => Listed.createdAt (read row))
            limit (owned read table tenantId statusFilter)
            (newestOf
              (fun row => Listed.createdAt (read row)) limit
              ((orders.page.arrange
                (selected V table tenantId
                  statusFilter)).take limit)) := by
    intro orders
    have hNot :
        ¬((listForTenantIndexed codec orders.page table
            tenantId limit statusFilter).length < limit ∧
          hasLegacyMetadataRows table = true) := by
      rw [indexed_length hRead]
      rintro ⟨hRoom, hProbe⟩
      exact hAlone ⟨by omega, hProbe⟩
    rw [records_eq_owned hRead]
    unfold listForTenant
    dsimp only
    rw [if_neg hNot, indexed_eq hRead, newestOf_map]
    refine isNewest_map_iff ?_ ?_
    · intro first hFirst second hSecond
      exact read_inj hRead first (List.mem_filter.mp hFirst).1
        second (List.mem_filter.mp hSecond).1
    · intro row hRow
      have hTaken := List.mem_of_mem_take (newestOf_subset hRow)
      exact selected_subset_owned hStore hTenant hRead
        ((orders.page.perm _).mem_iff.mp hTaken)
  constructor
  · intro hNewest ranked hPerm hRanked
    obtain ⟨orders, hOrders⟩ := exists_orders hPerm hRanked
    rw [← hOrders]
    exact (hListing orders).mp (hNewest orders)
  · intro hEvery orders
    exact (hListing orders).mpr
      (hEvery _ (orders.page.perm _) (orders.page.descends _))

omit [DecidableEq F] in
/- The text in the column of the creation time. -/
private theorem created_text
    {row : DocumentRow}
    {value : V}
    (hKeeps : KeepsRecord rfc3339 codec row value) :
    row.text "created_at" =
        rfc3339.print (Listed.createdAt value) ∨
      row.text "created_at" = "" := by
  unfold DocumentRow.text
  rcases hKeeps.created with hText | hBlank
  · left
    rw [hText]
  · right
    rw [hBlank]

private theorem blank_le (text : String) : "" ≤ text := by
  rw [String.le_iff_toList_le]
  exact not_lt.mp (List.not_lt_nil text.toList)

/-
  The rows that may be missed with their columns in order are
  no newer than those shown, because the columns say so.
-/
private theorem newest_iff_unplaced
    {shown : DocumentRow}
    (hRead :
      ∀ row ∈ table.values,
        KeepsRecord rfc3339 codec row (read row))
    (hShow : MayShow V table tenantId limit statusFilter shown) :
    (∀ missed ∈ owned read table tenantId statusFilter,
        missed ∉ selected V table tenantId statusFilter ∨
          limit < notBelow (fun row => row.text "created_at")
            (selected V table tenantId statusFilter) missed →
        Listed.createdAt (read missed) ≤
          Listed.createdAt (read shown)) ↔
      ∀ missed ∈ owned read table tenantId statusFilter,
        MayMiss V table tenantId limit statusFilter missed →
        Listed.createdAt (read missed) ≤
          Listed.createdAt (read shown) := by
  obtain ⟨hShown, hAbove⟩ := hShow
  have hBlankAll :
      ∀ row : DocumentRow, row.text "created_at" = "" →
        notBelow (fun row => row.text "created_at")
            (selected V table tenantId statusFilter) row =
          (selected V table tenantId statusFilter).length := by
    intro row hBlank
    unfold notBelow
    rw [List.countP_eq_length]
    intro other _
    refine decide_eq_true ?_
    dsimp only
    rw [hBlank]
    exact blank_le _
  constructor
  · intro hEach missed hMissed hMay
    refine hEach missed hMissed ?_
    rcases hMay with hUnselected | ⟨hBlank, hMore⟩
    · left
      intro hIn
      rw [(List.mem_filter.mp hIn).2] at hUnselected
      cases hUnselected
    · right
      rw [hBlankAll missed hBlank]
      exact hMore
  · intro hEach missed hMissed hOut
    have hStored := (List.mem_filter.mp hMissed).1
    by_cases hIn :
        missed ∈ selected V table tenantId statusFilter
    · have hBehind := hOut.resolve_left (not_not_intro hIn)
      by_cases hBlank : missed.text "created_at" = ""
      · rw [hBlankAll missed hBlank] at hBehind
        exact hEach missed hMissed (.inr ⟨hBlank, hBehind⟩)
      · -- Its time is in its column, and the page goes by it.
        have hMissedText :=
          (created_text (hRead missed hStored)).resolve_right
            hBlank
        have hTexts :
            missed.text "created_at" ≤
              shown.text "created_at" := by
          by_contra hNot
          have hBefore := not_le.mp hNot
          have hCount :
              notBelow (fun row => row.text "created_at")
                  (selected V table tenantId statusFilter)
                  missed ≤
                above (fun row => row.text "created_at")
                  (selected V table tenantId statusFilter)
                  shown := by
            refine List.countP_mono_left fun other _ hLe => ?_
            exact decide_eq_true
              (lt_of_lt_of_le hBefore (of_decide_eq_true hLe))
          omega
        have hShownKept := hRead shown (selected_subset hShown)
        rcases created_text hShownKept with
          hShownText | hShownBlank
        · rw [hMissedText, hShownText] at hTexts
          exact (print_le_iff hShownKept.created_valid
            (hRead missed hStored).created_valid).mp hTexts
        · rw [hShownBlank] at hTexts
          exact absurd (le_antisymm hTexts (blank_le _)) hBlank
    · refine hEach missed hMissed (.inl ?_)
      rw [← Bool.not_eq_true]
      intro hCondition
      exact hIn (List.mem_filter.mpr ⟨hStored, hCondition⟩)

private theorem pageSuffices_iff
    (hRead :
      ∀ row ∈ table.values,
        KeepsRecord rfc3339 codec row (read row)) :
    PageSuffices codec table tenantId limit statusFilter ↔
      (limit ≤ (selected V table tenantId statusFilter).length ∨
          owned read table tenantId statusFilter ⊆
            selected V table tenantId statusFilter) ∧
        ∀ shown ∈ selected V table tenantId statusFilter,
          above (fun row => row.text "created_at")
            (selected V table tenantId statusFilter) shown <
              limit →
          ∀ missed ∈ owned read table tenantId statusFilter,
            MayMiss V table tenantId limit statusFilter
              missed →
            Listed.createdAt (read missed) ≤
              Listed.createdAt (read shown) := by
  have hValue :
      ∀ row ∈ table.values, ∀ value : V,
        deserializePayload codec row = some value →
        value = read row := by
    intro row hRow value hReads
    rw [(hRead row hRow).reads] at hReads
    exact (Option.some.inj hReads).symm
  constructor
  · intro hSuffices
    constructor
    · refine hSuffices.covers.imp_right ?_
      intro hCovers row hRow
      obtain ⟨hIn, hOwns⟩ := List.mem_filter.mp hRow
      exact List.mem_filter.mpr
        ⟨hIn, hCovers row hIn _ (hRead row hIn).reads hOwns⟩
    · intro shown hShown hAbove missed hMissed hMay
      obtain ⟨hIn, hOwns⟩ := List.mem_filter.mp hMissed
      exact hSuffices.newest shown ⟨hShown, hAbove⟩ _
        (hRead shown (selected_subset hShown)).reads missed hIn
        hMay _ (hRead missed hIn).reads hOwns
  · rintro ⟨hCovers, hNewest⟩
    constructor
    · refine hCovers.imp_right ?_
      intro hAll row hRow value hReads hOwns
      rw [hValue row hRow value hReads] at hOwns
      have hIn := hAll (List.mem_filter.mpr ⟨hRow, hOwns⟩)
      exact (List.mem_filter.mp hIn).2
    · intro shown hShow first hFirst missed hMissed hMay value
        hReads hOwns
      rw [hValue missed hMissed value hReads] at hOwns ⊢
      rw [hValue shown (selected_subset hShow.1) first hFirst]
      exact hNewest shown hShow.1 hShow.2 missed
        (List.mem_filter.mpr ⟨hMissed, hOwns⟩) hMay

/-
  On SQLite a listing shows the newest where the merge runs or
  the page will do without it.
-/
theorem listsNewest_sqlite_iff
    [Nonempty V]
    {names : List String}
    (hStore : ListedColumns V names)
    (hTenant : tenantId ≠ "")
    (hKept : RecordsKept rfc3339 codec table) :
    ListsNewest listForTenant codec (.sqlite table) tenantId
        limit statusFilter ↔
      Merges V table tenantId limit statusFilter ∨
        PageSuffices codec table tenantId limit
          statusFilter := by
  have hReading :
      ∃ read : DocumentRow → V, ∀ row ∈ table.values,
        KeepsRecord rfc3339 codec row (read row) := by
    classical
    obtain ⟨other⟩ := ‹Nonempty V›
    choose read hRead using hKept
    refine ⟨fun row =>
      if hRow : row ∈ table.values then read row hRow
      else other, ?_⟩
    intro row hRow
    dsimp only
    rw [dif_pos hRow]
    exact hRead row hRow
  obtain ⟨read, hRead⟩ := hReading
  by_cases hMerges : Merges V table tenantId limit statusFilter
  · have hNewest := newest_of_merged hStore hTenant hRead
      hMerges
    exact ⟨fun _ => .inl hMerges, fun _ => hNewest⟩
  · have hSelected :
        (selected V table tenantId statusFilter).Nodup :=
      (values_nodup table).filter _
    have hOwned :
        (owned read table tenantId statusFilter).Nodup :=
      (values_nodup table).filter _
    rw [newest_of_page_iff hStore hTenant hRead hMerges,
      pageSuffices_iff hRead,
      every_page_isNewest_iff hSelected hOwned
        (selected_subset_owned hStore hTenant hRead)]
    constructor
    · rintro ⟨hCovers, hNewest⟩
      refine .inr ⟨hCovers, ?_⟩
      intro shown hShown hAbove
      exact (newest_iff_unplaced hRead ⟨hShown, hAbove⟩).mp
        (hNewest shown hShown hAbove)
    · rintro (hMerged | ⟨hCovers, hNewest⟩)
      · exact absurd hMerged hMerges
      · refine ⟨hCovers, ?_⟩
        intro shown hShown hAbove
        exact (newest_iff_unplaced hRead ⟨hShown, hAbove⟩).mpr
          (hNewest shown hShown hAbove)

end Pages

end Model

end IcpHandler

------------------------------------------------------------
-- The Three Stores
------------------------------------------------------------

namespace IcpHandler

namespace Model

open Data DocumentStore

theorem transaction_listedColumns :
    ListedColumns Transaction transactionQueryColumns where
  name_inj first second := by
    cases first <;> cases second <;> decide
  name_ne status := by
    cases status <;> decide
  tenant_lookup _ _ := rfl
  status_lookup _ _ := rfl
  created_lookup _ _ := rfl
  created_times txn := by
    change txn.createdAt ∈ txn.updatedAt :: txn.createdAt ::
      txn.quoteExpiresAt.toList
    simp
  status_text := by decide
  status_mem := by decide
  created_mem := by decide

theorem subscription_listedColumns :
    ListedColumns Subscription subscriptionQueryColumns where
  name_inj first second := by
    cases first <;> cases second <;> decide
  name_ne status := by
    cases status <;> decide
  tenant_lookup _ _ := rfl
  status_lookup _ _ := rfl
  created_lookup _ _ := rfl
  created_times sub := by
    change sub.createdAt ∈
      [sub.updatedAt, sub.createdAt, sub.nextChargeAt]
    simp
  status_text := by decide
  status_mem := by decide
  created_mem := by decide

theorem peerQuote_listedColumns :
    ListedColumns PeerQuote peerQuoteQueryColumns where
  name_inj first second := by
    cases first <;> cases second <;> decide
  name_ne status := by
    cases status <;> decide
  tenant_lookup _ _ := rfl
  status_lookup _ _ := rfl
  created_lookup _ _ := rfl
  created_times quote := by
    change quote.createdAt ∈
      [quote.updatedAt, quote.createdAt, quote.expiresAt]
    simp
  status_text := by decide
  status_mem := by decide
  created_mem := by decide

/-
  In memory every listing shows the newest records that the
  tenant owns. On SQLite it does just where the merge runs or
  the page will do without it. No tenant has an empty id.
-/
theorem tenant_lists_newest_iff
    (rfc3339 : Rfc3339)
    (txnCodec : Codec Transaction)
    (subCodec : Codec Subscription)
    (quoteCodec : Codec PeerQuote)
    (txns subs quotes : DocumentTable)
    (hTxns : RecordsKept rfc3339 txnCodec txns)
    (hSubs : RecordsKept rfc3339 subCodec subs)
    (hQuotes : RecordsKept rfc3339 quoteCodec quotes)
    (tenantId : String)
    (hTenant : tenantId ≠ "")
    (limit : Nat)
    (state : Option TransactionState)
    (status : Option SubscriptionStatus)
    (quoteStatus : Option PeerQuoteStatus) :
    ((∀ store : KeyedStore Transaction,
        ListsNewest listTransactionsForTenant txnCodec
          (.memory store) tenantId limit state) ∧
      (∀ store : KeyedStore Subscription,
        ListsNewest listSubscriptionsForTenant subCodec
          (.memory store) tenantId limit status) ∧
      ∀ store : KeyedStore PeerQuote,
        ListsNewest listPeerQuotesForTenant quoteCodec
          (.memory store) tenantId limit quoteStatus) ∧
      (ListsNewest listTransactionsForTenant txnCodec
          (.sqlite txns) tenantId limit state ↔
        Merges Transaction txns tenantId limit state ∨
          PageSuffices txnCodec txns tenantId limit state) ∧
      (ListsNewest listSubscriptionsForTenant subCodec
          (.sqlite subs) tenantId limit status ↔
        Merges Subscription subs tenantId limit status ∨
          PageSuffices subCodec subs tenantId limit status) ∧
      (ListsNewest listPeerQuotesForTenant quoteCodec
          (.sqlite quotes) tenantId limit quoteStatus ↔
        Merges PeerQuote quotes tenantId limit quoteStatus ∨
          PageSuffices quoteCodec quotes tenantId limit
            quoteStatus) := by
  have : Nonempty Transaction := ⟨sampleTransaction .quoted⟩
  have : Nonempty Subscription := ⟨sampleSubscription .active⟩
  have : Nonempty PeerQuote := ⟨samplePeerQuote .pending⟩
  refine ⟨⟨?_, ?_, ?_⟩, ?_, ?_, ?_⟩
  · intro store
    exact listsNewest_memory txnCodec store tenantId limit state
  · intro store
    exact listsNewest_memory subCodec store tenantId limit status
  · intro store
    exact listsNewest_memory quoteCodec store tenantId limit
      quoteStatus
  · exact listsNewest_sqlite_iff transaction_listedColumns
      hTenant hTxns
  · exact listsNewest_sqlite_iff subscription_listedColumns
      hTenant hSubs
  · exact listsNewest_sqlite_iff peerQuote_listedColumns
      hTenant hQuotes

theorem recordsKept_empty
    {V F I : Type}
    [Listed V F]
    [Document V I]
    (rfc3339 : Rfc3339)
    (codec : Codec V) :
    RecordsKept rfc3339 codec .empty := by
  intro row hRow
  have hGet := KeyedStore.mem_values_iff.mp hRow
  rw [KeyedStore.get_empty] at hGet
  cases hGet

theorem RecordsKept.insert
    {V F I : Type}
    [Listed V F]
    [Document V I]
    {rfc3339 : Rfc3339}
    {codec : Codec V}
    {table : DocumentTable}
    (hKept : RecordsKept rfc3339 codec table)
    {row : DocumentRow}
    {value : V}
    (hRow : KeepsRecord rfc3339 codec row value) :
    RecordsKept rfc3339 codec (table.insert row) := by
  intro other hOther
  have hGet := KeyedStore.mem_values_iff.mp hOther
  rw [KeyedStore.get_insert] at hGet
  split at hGet
  · cases hGet
    exact ⟨value, hRow⟩
  · exact hKept other (KeyedStore.mem_values_iff.mpr hGet)

/- A quote of the same tenant, a minute later. -/
private def laterTransaction : Transaction :=
  { sampleTransaction .quoted with
    id := "txn_2"
    createdAt := Duration.seconds 60
    updatedAt := Duration.seconds 60 }

/- Its JSON text. -/
private def laterTransactionJson : String :=
  "\x7b\"id\":\"txn_2\",\"state\":\"quoted\"," ++
    "\"agent_id\":\"bot\",\"tenant_id\":\"acme\"," ++
    "\"currency\":\"USD\",\"buyer\":\x7b" ++
    "\"first_name\":null,\"last_name\":null," ++
    "\"email\":null,\"phone_number\":null," ++
    "\"principal_did\":null\x7d,\"ship_to\":null," ++
    "\"bill_to\":null,\"line_items\":[],\"totals\":\x7b" ++
    "\"subtotal\":null,\"discount\":null," ++
    "\"shipping\":null,\"tax\":null,\"total\":null\x7d," ++
    "\"quote_expires_at\":\"1970-01-01T00:01:00Z\"," ++
    "\"created_at\":\"1970-01-01T00:01:00Z\"," ++
    "\"updated_at\":\"1970-01-01T00:01:00Z\"," ++
    "\"external_refs\":\x7b\x7d\x7d"

private def twoTransactions : Codec Transaction :=
  sampleCodec
    (sampleTransaction .quoted, sampleTransactionJson "quoted")
    (laterTransaction, laterTransactionJson)

/- The earlier quote, written again after the migrations. -/
private def earlierRow : DocumentRow :=
  migrated transactionQueryColumns
    (writtenRow transactionQueryColumns .queryColumns
      (sampleTransaction .quoted)
      (sampleTransactionJson "quoted"))

/- The later quote, as the first schema had it. -/
private def laterRow : DocumentRow :=
  migrated transactionQueryColumns
    (writtenRow transactionQueryColumns .initialSchema
      laterTransaction laterTransactionJson)

private theorem earlierRow_keeps :
    KeepsRecord concreteRfc3339 twoTransactions earlierRow
      (sampleTransaction .quoted) := by
  refine keepsRecord_of_written transaction_listedColumns
    ⟨?_, sampleTransaction_times .quoted, fun _ => rfl⟩ rfl
  unfold deserializePayload
  exact congrArg Except.toOption (sampleCodec_reads_first _ _)

private theorem laterRow_keeps :
    KeepsRecord concreteRfc3339 twoTransactions laterRow
      laterTransaction := by
  refine keepsRecord_of_written transaction_listedColumns
    ⟨?_, ?_, fun _ => rfl⟩ rfl
  · have hApart :
        laterTransactionJson ≠ sampleTransactionJson "quoted" := by
      decide
    unfold deserializePayload twoTransactions sampleCodec
    dsimp only [writtenRow]
    rw [if_neg hApart, if_pos rfl]
    rfl
  · intro instant hInstant
    change instant ∈ concreteInstants.map Prod.fst
    revert instant
    decide

/- Both quotes in one table. -/
private def mixedTransactions : DocumentTable :=
  (KeyedStore.empty.insert earlierRow).insert laterRow

private theorem mixedTransactions_kept :
    RecordsKept concreteRfc3339 twoTransactions
      mixedTransactions :=
  ((recordsKept_empty _ _).insert earlierRow_keeps).insert
    laterRow_keeps

private theorem selected_mixed :
    selected Transaction mixedTransactions "acme" none =
      [earlierRow] := by
  unfold selected
  rfl

/- With room on the page, both are listed. -/
theorem tenant_lists_newest_iff_sample :
    ListsNewest listTransactionsForTenant twoTransactions
      (.sqlite mixedTransactions) "acme" 2 none := by
  have hNewest :=
    tenant_lists_newest_iff concreteRfc3339 twoTransactions
      sampleSubCodec sampleQuoteCodec mixedTransactions .empty
      .empty mixedTransactions_kept (recordsKept_empty _ _)
      (recordsKept_empty _ _) "acme" (by decide) 2 none none
      none
  refine hNewest.2.1.mpr (.inl ⟨?_, ?_⟩)
  · rw [selected_mixed]
    decide
  · decide

/- Where the page has room for one, the later is missing. -/
theorem tenant_lists_miss_newest :
    ¬ ∀ (rfc3339 : Rfc3339) (txnCodec : Codec Transaction)
        (subCodec : Codec Subscription)
        (quoteCodec : Codec PeerQuote)
        (txns : JsonBackend Transaction)
        (subs : JsonBackend Subscription)
        (quotes : JsonBackend PeerQuote),
      (∀ table, txns = .sqlite table →
        RecordsKept rfc3339 txnCodec table) →
      (∀ table, subs = .sqlite table →
        RecordsKept rfc3339 subCodec table) →
      (∀ table, quotes = .sqlite table →
        RecordsKept rfc3339 quoteCodec table) →
      ∀ tenantId ≠ "", ∀ limit state status quoteStatus,
        ListsNewest listTransactionsForTenant txnCodec txns
            tenantId limit state ∧
          ListsNewest listSubscriptionsForTenant subCodec subs
            tenantId limit status ∧
          ListsNewest listPeerQuotesForTenant quoteCodec quotes
            tenantId limit quoteStatus := by
  intro hAll
  have hNewest :=
    (hAll concreteRfc3339 twoTransactions sampleSubCodec
      sampleQuoteCodec (.sqlite mixedTransactions)
      (.memory .empty) (.memory .empty)
      (by
        rintro table ⟨⟩
        exact mixedTransactions_kept)
      nofun nofun "acme" (by decide) 1 none none none).1
  have : Nonempty Transaction := ⟨laterTransaction⟩
  rcases (listsNewest_sqlite_iff transaction_listedColumns
    (by decide) mixedTransactions_kept).mp hNewest with
    hMerges | hSuffices
  · have hRoom := hMerges.1
    rw [selected_mixed] at hRoom
    exact absurd hRoom (by decide)
  · have hShow :
        MayShow Transaction mixedTransactions "acme" 1 none
          earlierRow := by
      unfold MayShow above
      rw [selected_mixed, List.countP_singleton]
      refine ⟨List.mem_singleton_self _, ?_⟩
      rw [if_neg]
      · decide
      · rw [decide_eq_true_eq]
        exact lt_irrefl _
    have hIn : laterRow ∈ mixedTransactions.values :=
      List.mem_cons_self
    have hLe := hSuffices.newest earlierRow hShow _
      earlierRow_keeps.reads laterRow hIn (.inl (by rfl)) _
      laterRow_keeps.reads (by decide)
    exact absurd hLe (by decide)

end Model

end IcpHandler
