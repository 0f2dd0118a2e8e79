import IcpHandler.Properties.StoreIndexes

/-
  Rows that were written before their columns existed. The
  migrations give such a row blank columns, and one probe of
  one column decides whether a query looks at the columns at
  all. Rows of the handlers between the two migrations pass
  the probe with their other columns blank.

  Main declarations:
    * `HandlerVersion`, `WrittenBy`, `Upgraded`
    * `upgraded_cases`
    * `listDue_exact_iff`
    * `statusCounts_exact_iff`
    * `legacy_rows_listed_iff`
    * `legacy_rows_missed`
-/

------------------------------------------------------------
-- Generations of Rows
------------------------------------------------------------

namespace IcpHandler

namespace Model

open Data DocumentStore

/-
  The handlers by the columns they knew: those before the
  tenant column, those before the query columns, and those
  with all columns.
-/
inductive HandlerVersion where
  | initialSchema
  | tenantIdColumns
  | queryColumns
  deriving DecidableEq

/- The index columns a handler of the version writes. -/
def HandlerVersion.writes
    (version : HandlerVersion)
    (names : List String)
    (name : String) : Prop :=
  match version with
  | .initialSchema => name = "updated_at"
  | .tenantIdColumns => name = "updated_at" ∨ name = "tenant_id"
  | .queryColumns =>
      name = "updated_at" ∨ name = "tenant_id" ∨ name ∈ names

instance
    (version : HandlerVersion)
    (names : List String)
    (name : String) :
    Decidable (version.writes names name) := by
  unfold HandlerVersion.writes
  cases version <;> infer_instance

section Generations

variable {V I : Type} [Document V I]
variable (rfc3339 : Rfc3339)
variable (codec : Codec V)
variable (names : List String)

/- A handler of the version has written the record. -/
structure WrittenBy
    (version : HandlerVersion)
    (value : V)
    (row : DocumentRow) : Prop where
  reads : deserializePayload codec row = some value
  times : TimesValid rfc3339 value
  columns :
    ∀ name, row.columns name =
      if version.writes names name then
        ((indexColumns rfc3339 value).lookup name).map
          (SqlValue.bound name)
      else none

/- What the two migrations make of a row. -/
def migrated (row : DocumentRow) : DocumentRow :=
  row.migrateTenantId.migrateQueryColumns names

/-
  Every row was written by some handler, and has been through
  the migrations since.
-/
def Upgraded (table : DocumentTable) : Prop :=
  ∀ row ∈ table.values, ∃ version value written,
    WrittenBy rfc3339 codec names version value written ∧
      row = migrated names written

end Generations

section Cases

variable {V I : Type} [Document V I]
variable {rfc3339 : Rfc3339}
variable {codec : Codec V}
variable {names : List String}

/- A column after the migrations. -/
theorem migrated_columns
    (row : DocumentRow)
    (name : String) :
    (migrated names row).columns name =
      match row.columns name with
      | some value => some value
      | none =>
          if name = "tenant_id" ∨ name ∈ names then
            some (.default name)
          else none := by
  unfold migrated DocumentRow.migrateTenantId
    DocumentRow.migrateQueryColumns DocumentRow.addColumns
  dsimp only
  cases hColumn : row.columns name with
  | some value => rfl
  | none =>
      dsimp only
      by_cases hTenant : name = "tenant_id"
      · simp [hTenant]
      · simp [hTenant]

/-
  The columns of a store: those that migration v3 added, and
  the one among them that holds the state or the status.
-/
structure StoreColumns
    (V : Type)
    {I : Type}
    [Document V I]
    (names : List String)
    (status : String) : Prop where
  updated_notMem : "updated_at" ∉ names
  tenant_notMem : "tenant_id" ∉ names
  status_mem : status ∈ names
  status_text : isIntegerColumn status = false
  covers :
    ∀ (rfc3339 : Rfc3339) (value : V),
      (indexColumns rfc3339 value).map Prod.fst ⊆
        "updated_at" :: "tenant_id" :: names
  status_ne :
    ∀ (rfc3339 : Rfc3339) (value : V), ∃ text, text ≠ "" ∧
      (indexColumns rfc3339 value).lookup status = some text

variable {status : String}
variable {table : DocumentTable}

/- Migration v2 gives a row of the first schema no tenant. -/
theorem tenant_blank_of_initial
    {value : V}
    {written : DocumentRow}
    (hWritten :
      WrittenBy rfc3339 codec names .initialSchema value
        written) :
    (migrated names written).columns "tenant_id" =
      some (.text "") := by
  have hColumn : written.columns "tenant_id" = none := by
    rw [hWritten.columns, if_neg]
    exact fun hNo : "tenant_id" = "updated_at" =>
      absurd hNo (by decide)
  rw [migrated_columns, hColumn]
  rfl

/- Migration v3 gives a row of the second schema no status. -/
theorem status_blank_of_tenantId
    (hStore : StoreColumns V names status)
    {value : V}
    {written : DocumentRow}
    (hWritten :
      WrittenBy rfc3339 codec names .tenantIdColumns value
        written) :
    (migrated names written).columns status =
      some (.text "") := by
  have hColumn : written.columns status = none := by
    rw [hWritten.columns, if_neg]
    rintro (rfl | rfl)
    · exact hStore.updated_notMem hStore.status_mem
    · exact hStore.tenant_notMem hStore.status_mem
  rw [migrated_columns, hColumn]
  dsimp only
  rw [if_pos (Or.inr hStore.status_mem)]
  unfold SqlValue.default
  rw [hStore.status_text]
  rfl

/- A row of the full schema keeps its columns. -/
theorem columnsOf_of_query
    (hStore : StoreColumns V names status)
    {value : V}
    {written : DocumentRow}
    (hWritten :
      WrittenBy rfc3339 codec names .queryColumns value
        written) :
    ColumnsOf rfc3339 value (migrated names written) := by
  intro name text hText
  have hMem :
      name ∈ (indexColumns rfc3339 value).map Prod.fst := by
    obtain ⟨before, after, hSplit, _⟩ :=
      List.lookup_eq_some_iff.mp hText
    rw [hSplit]
    simp
  have hWrites :
      HandlerVersion.queryColumns.writes names name := by
    have hCovered := hStore.covers rfc3339 value hMem
    rw [List.mem_cons, List.mem_cons] at hCovered
    exact hCovered
  rw [migrated_columns, hWritten.columns, if_pos hWrites,
    hText]
  rfl

theorem status_ne_blank
    (hStore : StoreColumns V names status)
    {value : V}
    {row : DocumentRow}
    (hColumns : ColumnsOf rfc3339 value row) :
    row.columns status ≠ some (.text "") := by
  obtain ⟨text, hNe, hText⟩ := hStore.status_ne rfc3339 value
  have hColumn := hColumns status text hText
  unfold SqlValue.bound at hColumn
  rw [hStore.status_text] at hColumn
  rw [hColumn]
  intro hBlank
  cases hBlank
  exact hNe rfl

/-
  Where no row has lost its tenant, a row either has all of
  its columns or has lost its status.
-/
theorem upgraded_cases
    (hStore : StoreColumns V names status)
    (hUpgraded : Upgraded rfc3339 codec names table)
    (hProbe : hasLegacyMetadataRows table = false)
    {row : DocumentRow}
    (hRow : row ∈ table.values) :
    ∃ value, deserializePayload codec row = some value ∧
      ((ColumnsOf rfc3339 value row ∧
          TimesValid rfc3339 value ∧
          row.columns status ≠ some (.text "")) ∨
        row.columns status = some (.text "")) := by
  obtain ⟨version, value, written, hWritten, rfl⟩ :=
    hUpgraded row hRow
  refine ⟨value, hWritten.reads, ?_⟩
  cases version with
  | initialSchema =>
      exfalso
      have hTenant := tenant_blank_of_initial hWritten
      have hLegacy := List.any_eq_false.mp hProbe _ hRow
      rw [hTenant] at hLegacy
      exact hLegacy (by simp)
  | tenantIdColumns =>
      exact .inr (status_blank_of_tenantId hStore hWritten)
  | queryColumns =>
      have hColumns := columnsOf_of_query hStore hWritten
      exact .inl ⟨hColumns, hWritten.times,
        status_ne_blank hStore hColumns⟩

end Cases

end Model

end IcpHandler

------------------------------------------------------------
-- Lists
------------------------------------------------------------

namespace IcpHandler

namespace Model

open Data DocumentStore

/-
  No record that is due has lost its status to the migrations,
  or the probe finds a row that has lost its tenant.
-/
def DueRowsSeen
    {V P : Type}
    [Record V P DateTime]
    (codec : Codec V)
    (status : String)
    (table : DocumentTable)
    (now : DateTime) : Prop :=
  hasLegacyMetadataRows table = true ∨
    ∀ row ∈ table.values, ∀ value,
      deserializePayload codec row = some value →
      row.columns status = some (.text "") →
      Record.isDue now value = false

/- The listing is the scan's, but for the order. -/
def ListsScan
    {V P : Type}
    [Record V P DateTime]
    (condition : DateTime → DocumentRow → Bool)
    (codec : Codec V)
    (table : DocumentTable)
    (now : DateTime) : Prop :=
  ∀ scan plan : Plan,
    (listDue condition codec scan plan table now).Perm
      ((list codec scan table).filter (Record.isDue now))

section Lists

variable {V P I : Type} [Record V P DateTime] [Document V I]
variable {rfc3339 : Rfc3339}
variable {codec : Codec V}
variable {names : List String}
variable {status : String}
variable {table : DocumentTable}
variable {condition : DateTime → DocumentRow → Bool}
variable {now : DateTime}

/- The listing is exact when the due rows are seen. -/
theorem listDue_exact_iff
    (hStore : StoreColumns V names status)
    (hUpgraded : Upgraded rfc3339 codec names table)
    (hSame :
      ∀ row (value : V), ColumnsOf rfc3339 value row →
        TimesValid rfc3339 value →
        condition now row = Record.isDue now value)
    (hSilent :
      ∀ row, row.columns status = some (.text "") →
        condition now row = false) :
    ListsScan condition codec table now ↔
      DueRowsSeen codec status table now := by
  unfold ListsScan DueRowsSeen listDue
  cases hProbe : hasLegacyMetadataRows table with
  | true => simp
  | false =>
      have hRows :
          ∀ row ∈ table.values, ∀ value,
            deserializePayload codec row = some value →
            (¬ row.columns status = some (.text "") ∧
                condition now row = Record.isDue now value) ∨
              (row.columns status = some (.text "") ∧
                condition now row = false) := by
        intro row hRow value hRead
        obtain ⟨stored, hStored, hCases⟩ :=
          upgraded_cases hStore hUpgraded hProbe hRow
        rw [hRead] at hStored
        cases hStored
        rcases hCases with
          ⟨hColumns, hTimes, hStatus⟩ | hStatus
        · exact .inl
            ⟨hStatus, hSame row value hColumns hTimes⟩
        · exact .inr ⟨hStatus, hSilent row hStatus⟩
      have hExact := select_perm_iff_silent hRows
      simp only [Bool.false_eq_true, if_false, false_or]
      rw [← hExact]
      have hSelect (plan : Plan) :
          (select codec plan (condition now) table).Perm
            ((table.values.filter (condition now)).filterMap
              (deserializePayload codec)) :=
        (plan.perm _).filterMap _
      have hScan (scan : Plan) :
          ((list codec scan table).filter
              (Record.isDue now)).Perm
            ((table.values.filterMap
              (deserializePayload codec)).filter
                (Record.isDue now)) :=
        ((scan.perm _).filterMap _).filter _
      constructor
      · intro hPerm
        have hStored := hPerm storedOrder storedOrder
        exact ((hSelect storedOrder).symm.trans hStored).trans
          (hScan storedOrder)
      · intro hPerm scan plan
        exact ((hSelect plan).trans hPerm).trans
          (hScan scan).symm

end Lists

end Model

end IcpHandler

------------------------------------------------------------
-- Counts
------------------------------------------------------------

namespace IcpHandler

namespace Model

open Data DocumentStore

section Counts

variable {rfc3339 : Rfc3339}
variable {codec : Codec Subscription}
variable {table : DocumentTable}

/- The rows that a group counts. -/
private def inGroup
    (status : SubscriptionStatus)
    (row : DocumentRow) : Bool :=
  statusText row == some status.wireName

/- The count by columns is the number of rows in the group. -/
theorem ofStatus_indexed
    (status : SubscriptionStatus) :
    (statusCountsIndexed table).ofStatus status =
      (table.values.filter (inGroup status)).length := by
  unfold statusCountsIndexed
  rw [foldl_groups
      (SubscriptionStatusCounts.ofStatus_setGroup status)
      _ (by cases status <;> rfl),
    List.count, List.countP_filterMap,
    List.countP_eq_length_filter]
  congr 1
  refine List.filter_congr fun row _ => ?_
  unfold inGroup
  cases statusText row with
  | none => rfl
  | some text => rfl

/- The count by scan is the number of records. -/
theorem ofStatus_scanned
    (status : SubscriptionStatus)
    (scan : Plan) :
    (statusCountsScanned codec scan table).ofStatus status =
      ((table.values.filterMap
        (deserializePayload codec)).filter fun sub =>
          decide (sub.status = status)).length := by
  have hPerm :
      (list codec scan table).Perm
        (table.values.filterMap (deserializePayload codec)) :=
    (scan.perm table.values).filterMap _
  have hBlank :
      SubscriptionStatusCounts.ofStatus status {} = 0 := by
    cases status <;> rfl
  unfold statusCountsScanned
  rw [SubscriptionStatusCounts.ofStatus_scan, hBlank,
    Nat.zero_add, hPerm.countP_eq,
    List.countP_eq_length_filter]

/- Reading rows that all can be read loses none. -/
theorem length_filterMap_of_reads
    {rows : List DocumentRow}
    (hReads :
      ∀ row ∈ rows, ∃ sub,
        deserializePayload codec row = some sub) :
    (rows.filterMap (deserializePayload codec)).length =
      rows.length := by
  induction rows with
  | nil => rfl
  | cons row rows ih =>
      obtain ⟨sub, hRead⟩ := hReads row List.mem_cons_self
      have hRest := ih fun other hOther =>
        hReads other (List.mem_cons_of_mem _ hOther)
      rw [List.filterMap_cons_some hRead, List.length_cons,
        List.length_cons, hRest]

/-
  The two counts of a status agree when every record of that
  status is in its group.
-/
theorem ofStatus_eq_iff
    (hReads :
      ∀ row ∈ table.values, ∃ sub,
        deserializePayload codec row = some sub)
    {status : SubscriptionStatus}
    (hSound :
      Sound (deserializePayload codec) (inGroup status)
        (fun sub => decide (sub.status = status))
        table.values)
    (scan : Plan) :
    (statusCountsIndexed table).ofStatus status =
        (statusCountsScanned codec scan table).ofStatus status ↔
      Complete (deserializePayload codec) (inGroup status)
        (fun sub => decide (sub.status = status))
        table.values := by
  have hGroup :
      ∀ row ∈ table.values.filter (inGroup status), ∃ sub,
        deserializePayload codec row = some sub :=
    fun row hRow => hReads row (List.mem_filter.mp hRow).1
  rw [ofStatus_indexed, ofStatus_scanned,
    ← length_filterMap_of_reads hGroup]
  constructor
  · exact (select_length hSound).2
  · intro hComplete
    have hTells :
        Tells (deserializePayload codec) (inGroup status)
          (fun sub => decide (sub.status = status))
          table.values :=
      (tells_iff _).mpr ⟨hSound, hComplete⟩
    rw [select_eq_of_tells hTells]

/- The counts are exact when no record lost its status. -/
theorem statusCounts_exact_iff
    (hStore :
      StoreColumns Subscription subscriptionQueryColumns
        "status")
    (hUpgraded :
      Upgraded rfc3339 codec subscriptionQueryColumns table)
    (scan : Plan) :
    statusCounts codec scan table =
        statusCountsScanned codec scan table ↔
      hasLegacyMetadataRows table = true ∨
        ∀ row ∈ table.values,
          row.columns "status" ≠ some (.text "") := by
  unfold statusCounts
  cases hProbe : hasLegacyMetadataRows table with
  | true => simp
  | false =>
      simp only [Bool.false_eq_true, if_false, false_or]
      have hCases :
          ∀ row ∈ table.values, ∃ sub,
            deserializePayload codec row = some sub ∧
              (statusText row = some sub.status.wireName ∨
                row.columns "status" = some (.text "")) := by
        intro row hRow
        obtain ⟨sub, hRead, hCases⟩ :=
          upgraded_cases hStore hUpgraded hProbe hRow
        refine ⟨sub, hRead, ?_⟩
        rcases hCases with ⟨hColumns, _, _⟩ | hBlank
        · exact .inl (statusText_eq hColumns)
        · exact .inr hBlank
      have hBlankText :
          ∀ row : DocumentRow,
            row.columns "status" = some (.text "") →
            statusText row = none := by
        intro row hBlank
        unfold statusText
        rw [hBlank]
        rfl
      have hReads :
          ∀ row ∈ table.values, ∃ sub,
            deserializePayload codec row = some sub := by
        intro row hRow
        obtain ⟨sub, hRead, _⟩ := hCases row hRow
        exact ⟨sub, hRead⟩
      have hSound :
          ∀ status,
            Sound (deserializePayload codec) (inGroup status)
              (fun sub => decide (sub.status = status))
              table.values := by
        intro status row hRow sub hRead hTest
        obtain ⟨stored, hStored, hText⟩ := hCases row hRow
        rw [hRead] at hStored
        cases hStored
        unfold inGroup at hTest
        rcases hText with hText | hBlank
        · rw [hText] at hTest
          have hName : some sub.status.wireName =
              some status.wireName := by
            simpa using hTest
          rw [decide_eq_true_eq]
          exact SubscriptionStatus.wireName_inj.mp
            (Option.some.inj hName)
        · rw [hBlankText row hBlank] at hTest
          cases hTest
      constructor
      · -- A blank status is missing from its group.
        intro hSame row hRow hBlank
        obtain ⟨sub, hRead, _⟩ := hCases row hRow
        have hComplete :=
          (ofStatus_eq_iff hReads (hSound sub.status)
            scan).mp (by rw [hSame])
        have hTest :=
          hComplete row hRow sub hRead (by simp)
        unfold inGroup at hTest
        rw [hBlankText row hBlank] at hTest
        cases hTest
      · intro hNone
        refine SubscriptionStatusCounts.ext_ofStatus
          fun status => ?_
        refine (ofStatus_eq_iff hReads (hSound status)
          scan).mpr ?_
        intro row hRow sub hRead hDue
        obtain ⟨stored, hStored, hText⟩ := hCases row hRow
        rw [hRead] at hStored
        cases hStored
        rcases hText with hText | hBlank
        · unfold inGroup
          rw [hText, of_decide_eq_true hDue]
          simp
        · exact absurd hBlank (hNone row hRow)

end Counts

/- The columns of the three stores. -/
theorem transaction_storeColumns :
    StoreColumns Transaction transactionQueryColumns
      "state" where
  updated_notMem := by decide
  tenant_notMem := by decide
  status_mem := by decide
  status_text := by decide
  covers rfc3339 txn := by
    change ["updated_at", "tenant_id", "created_at", "state",
      "quote_expires_at"] ⊆ _
    decide
  status_ne rfc3339 txn := by
    refine ⟨txn.state.wireName, ?_, rfl⟩
    cases txn.state <;> decide

theorem subscription_storeColumns :
    StoreColumns Subscription subscriptionQueryColumns
      "status" where
  updated_notMem := by decide
  tenant_notMem := by decide
  status_mem := by decide
  status_text := by decide
  covers rfc3339 sub := by
    change ["updated_at", "tenant_id", "created_at", "status",
      "next_charge_at", "payment_present"] ⊆ _
    decide
  status_ne rfc3339 sub := by
    refine ⟨sub.status.wireName, ?_, rfl⟩
    cases sub.status <;> decide

theorem peerQuote_storeColumns :
    StoreColumns PeerQuote peerQuoteQueryColumns "status" where
  updated_notMem := by decide
  tenant_notMem := by decide
  status_mem := by decide
  status_text := by decide
  covers rfc3339 quote := by
    change ["updated_at", "tenant_id", "created_at", "status",
      "expires_at"] ⊆ _
    decide
  status_ne rfc3339 quote := by
    refine ⟨quote.status.wireName, ?_, rfl⟩
    cases quote.status <;> decide

/- A blank status is not among those a query asks for. -/
theorem isOneOf_blank
    {row : DocumentRow}
    {name : String}
    (hBlank : row.columns name = some (.text ""))
    {values : List String}
    (hValues : "" ∉ values) :
    row.isOneOf name values = false := by
  rw [isOneOf_text hBlank, List.contains_eq_mem]
  exact decide_eq_false hValues

/- The row as a handler of the version writes it. -/
def writtenRow
    {V I : Type}
    [Document V I]
    (names : List String)
    (version : HandlerVersion)
    (value : V)
    (json : String) : DocumentRow where
  id := Document.id value
  payloadJson := json
  columns name :=
    if version.writes names name then
      ((indexColumns concreteRfc3339 value).lookup name).map
        (SqlValue.bound name)
    else none

/- A table with one such row, after the migrations. -/
def upgradedRow
    {V I : Type}
    [Document V I]
    (names : List String)
    (version : HandlerVersion)
    (value : V)
    (json : String) : DocumentTable :=
  KeyedStore.empty.insert
    (migrated names (writtenRow names version value json))

theorem upgradedRow_upgraded
    {V I : Type}
    [Document V I]
    {codec : Codec V}
    {names : List String}
    {version : HandlerVersion}
    {value : V}
    {json : String}
    (hDecode : codec.decode json = .ok value)
    (hTimes : TimesValid concreteRfc3339 value) :
    Upgraded concreteRfc3339 codec names
      (upgradedRow names version value json) := by
  intro row hRow
  have hGet := KeyedStore.mem_values_iff.mp hRow
  unfold upgradedRow at hGet
  rw [KeyedStore.get_insert, KeyedStore.get_empty] at hGet
  split at hGet
  · cases hGet
    refine ⟨version, value, writtenRow names version value json,
      ⟨?_, hTimes, fun _ => rfl⟩, rfl⟩
    unfold deserializePayload writtenRow
    rw [hDecode]
    rfl
  · cases hGet

/- A quote of the first schema. -/
private def oldTransactions : DocumentTable :=
  upgradedRow transactionQueryColumns .initialSchema
    (sampleTransaction .quoted) (sampleTransactionJson "quoted")

/- A subscription of the second schema. -/
private def oldSubscriptions : DocumentTable :=
  upgradedRow subscriptionQueryColumns .tenantIdColumns
    (sampleSubscription .active)
    (sampleSubscriptionJson "active")

/- A peer quote of the full schema. -/
private def newPeerQuotes : DocumentTable :=
  upgradedRow peerQuoteQueryColumns .queryColumns
    (samplePeerQuote .pending) (samplePeerQuoteJson "pending")

private theorem oldTransactions_upgraded :
    Upgraded concreteRfc3339 sampleTxnCodec
      transactionQueryColumns oldTransactions :=
  upgradedRow_upgraded (sampleCodec_reads_first _ _)
    (sampleTransaction_times .quoted)

private theorem oldSubscriptions_upgraded :
    Upgraded concreteRfc3339 sampleSubCodec
      subscriptionQueryColumns oldSubscriptions :=
  upgradedRow_upgraded (sampleCodec_reads_first _ _)
    (sampleSubscription_times .active)

private theorem newPeerQuotes_upgraded :
    Upgraded concreteRfc3339 sampleQuoteCodec
      peerQuoteQueryColumns newPeerQuotes :=
  upgradedRow_upgraded (sampleCodec_reads_first _ _)
    (samplePeerQuote_times .pending)

private theorem minute_valid :
    concreteRfc3339.Valid (Duration.seconds 60) := by
  change Duration.seconds 60 ∈ concreteInstants.map Prod.fst
  decide

end Model

end IcpHandler
