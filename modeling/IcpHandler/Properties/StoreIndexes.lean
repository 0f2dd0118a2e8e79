import IcpHandler.Model.Concrete
import IcpHandler.Model.DocumentStore

/-
  The queries by index columns and the scans of all records.
  Every write sets the columns of its row from the record it
  writes, so after any history of writes a query by columns
  finds exactly the records that the scan keeps.

  Main declarations:
    * `DocumentOp`, `runDocuments`, `WritesValid`
    * `RowExact`, `RowsExact`
    * `runDocuments_exact`
    * `transactionExpired_tells`, `renewalReached_tells`
    * `quoteExpired_tells`
    * `statusCountsIndexed_eq`
    * `fast_path_equals_scan`
-/

------------------------------------------------------------
-- Histories of a Store
------------------------------------------------------------

namespace IcpHandler

namespace Model

open Data DocumentStore

/- The writes of a document store. -/
inductive DocumentOp (V : Type) where
  | insert (value : V)
  | update (id : String) (f : V → V)

/- A write, and whether the database refuses it. -/
structure DocumentCall (V : Type) where
  op : DocumentOp V
  fault : Bool := false

section Histories

variable {V I : Type} [Document V I]
variable (rfc3339 : Rfc3339)
variable (codec : Codec V)

def DocumentCall.exec
    (call : DocumentCall V)
    (table : DocumentTable) : DocumentTable :=
  match call.op with
  | .insert value =>
      DocumentStore.insert rfc3339 codec call.fault table value
  | .update id f =>
      DocumentStore.update rfc3339 codec call.fault table id f

/- The record that a call sets out to write. -/
def DocumentCall.value?
    (call : DocumentCall V)
    (table : DocumentTable) : Option V :=
  match call.op with
  | .insert value => some value
  | .update id f => ((table.get id).bind (deserializePayload codec)).map f

def runDocuments
    (calls : List (DocumentCall V))
    (table : DocumentTable) : DocumentTable :=
  calls.foldl (fun table call => call.exec rfc3339 codec table)
    table

/- The instants of the record have a four-digit year. -/
def TimesValid (value : V) : Prop :=
  ∀ instant ∈ Document.times V (Document.indexed value),
    rfc3339.Valid instant

/- Every record that is written has such instants. -/
def WritesValid :
    List (DocumentCall V) → DocumentTable → Prop
  | [], _ => True
  | call :: calls, table =>
      (∀ value, call.value? codec table = some value →
        TimesValid rfc3339 value) ∧
        WritesValid calls (call.exec rfc3339 codec table)

/-
  What `from_str` reads from what `to_string` has written has
  the same indexed fields.
-/
def Codec.KeepsIndex : Prop :=
  ∀ value json, TimesValid rfc3339 value →
    codec.encode value = .ok json →
    ∃ value', codec.decode json = .ok value' ∧
      Document.indexed value' = Document.indexed value

/- The text of an instant with a four-digit year. -/
def Rfc3339.NeverBlank (rfc3339 : Rfc3339) : Prop :=
  ∀ instant, rfc3339.Valid instant →
    rfc3339.print instant ≠ ""

end Histories

end Model

end IcpHandler

------------------------------------------------------------
-- Index Columns
------------------------------------------------------------

namespace IcpHandler

namespace Model

open Data DocumentStore

section Exactness

variable {V I : Type} [Document V I]
variable {rfc3339 : Rfc3339}
variable {codec : Codec V}
variable {table : DocumentTable}

/- The columns of the row are those of this record. -/
def ColumnsOf
    (rfc3339 : Rfc3339)
    (value : V)
    (row : DocumentRow) : Prop :=
  ∀ name text,
    (indexColumns rfc3339 value).lookup name = some text →
    row.columns name = some (.bound name text)

/- The columns of the row are those of its own record. -/
def RowExact
    (rfc3339 : Rfc3339)
    (codec : Codec V)
    (row : DocumentRow) : Prop :=
  ∃ value, deserializePayload codec row = some value ∧
    ColumnsOf rfc3339 value row ∧ TimesValid rfc3339 value

def RowsExact
    (rfc3339 : Rfc3339)
    (codec : Codec V)
    (table : DocumentTable) : Prop :=
  ∀ id row, table.get id = some row →
    RowExact rfc3339 codec row

/- A row that a record was written to is exact. -/
theorem rowExact_of_write
    (hCodec : codec.KeepsIndex rfc3339)
    {value : V}
    {json : String}
    (hEncode : codec.encode value = .ok json)
    (hTimes : TimesValid rfc3339 value)
    (row : DocumentRow) :
    RowExact rfc3339 codec
      ((⟨json, indexColumns rfc3339 value⟩ : RowWrite).apply
        row) := by
  obtain ⟨value', hDecode, hSame⟩ :=
    hCodec value json hTimes hEncode
  refine ⟨value', ?_, ?_, ?_⟩
  · unfold deserializePayload
    dsimp only [RowWrite.apply]
    rw [hDecode]
    rfl
  · intro name text hText
    unfold indexColumns at hText
    rw [hSame] at hText
    dsimp only [RowWrite.apply]
    unfold indexColumns
    rw [hText]
  · unfold TimesValid
    rw [hSame]
    exact hTimes

/- Every write leaves exact rows, also when it fails. -/
theorem RowsExact.exec
    (hCodec : codec.KeepsIndex rfc3339)
    (hExact : RowsExact rfc3339 codec table)
    (call : DocumentCall V)
    (hTimes :
      ∀ value, call.value? codec table = some value →
        TimesValid rfc3339 value) :
    RowsExact rfc3339 codec
      (call.exec rfc3339 codec table) := by
  rcases call with ⟨op, fault⟩
  cases op with
  | insert value =>
      dsimp only [DocumentCall.exec]
      unfold DocumentStore.insert
      cases hEncode : codec.encode value with
      | error e => exact hExact
      | ok json =>
          cases fault with
          | true => exact hExact
          | false =>
              intro id row hRow
              dsimp only at hRow
              rw [if_neg Bool.false_ne_true,
                KeyedStore.get_insert] at hRow
              split at hRow
              · cases hRow
                exact rowExact_of_write hCodec hEncode
                  (hTimes value rfl) _
              · exact hExact id row hRow
  | update target f =>
      dsimp only [DocumentCall.exec]
      unfold DocumentStore.update
      cases hStored : table.get target with
      | none => exact hExact
      | some stored =>
          dsimp only
          cases hRead : deserializePayload codec stored with
          | none => exact hExact
          | some value =>
              have hNew : TimesValid rfc3339 (f value) := by
                refine hTimes (f value) ?_
                dsimp only [DocumentCall.value?]
                rw [hStored, Option.bind_some, hRead]
                rfl
              dsimp only
              cases hEncode : codec.encode (f value) with
              | error e => exact hExact
              | ok json =>
                  cases fault with
                  | true => exact hExact
                  | false =>
                      intro id row hRow
                      dsimp only at hRow
                      rw [if_neg Bool.false_ne_true,
                        KeyedStore.get_update] at hRow
                      split at hRow
                      · rename_i hId
                        rw [hId, hStored] at hRow
                        cases hRow
                        exact rowExact_of_write hCodec hEncode
                          hNew stored
                      · exact hExact id row hRow

/- After any history every row is exact. -/
theorem runDocuments_exact
    (hCodec : codec.KeepsIndex rfc3339)
    (calls : List (DocumentCall V))
    (hExact : RowsExact rfc3339 codec table)
    (hWrites : WritesValid rfc3339 codec calls table) :
    RowsExact rfc3339 codec
      (runDocuments rfc3339 codec calls table) := by
  induction calls generalizing table with
  | nil => exact hExact
  | cons call calls ih =>
      obtain ⟨hTimes, hRest⟩ := hWrites
      exact ih (hExact.exec hCodec call hTimes) hRest

theorem rowsExact_empty :
    RowsExact rfc3339 codec KeyedStore.empty := by
  intro id row hRow
  rw [KeyedStore.get_empty] at hRow
  cases hRow

theorem RowsExact.values
    (hExact : RowsExact rfc3339 codec table)
    {row : DocumentRow}
    (hRow : row ∈ table.values) :
    RowExact rfc3339 codec row :=
  hExact row.id row (KeyedStore.mem_values_iff.mp hRow)

end Exactness

end Model

end IcpHandler

------------------------------------------------------------
-- Tests on the Columns
------------------------------------------------------------

namespace IcpHandler

namespace Model

open Data DocumentStore

section Tests

variable {rfc3339 : Rfc3339}
variable {row : DocumentRow}
variable {now : DateTime}

theorem isOneOf_text
    {name value : String}
    (hColumn : row.columns name = some (.text value))
    (values : List String) :
    row.isOneOf name values = values.contains value := by
  unfold DocumentRow.isOneOf
  rw [hColumn, Bool.eq_iff_iff, List.any_eq_true,
    List.contains_iff_mem]
  constructor
  · rintro ⟨other, hOther, hSame⟩
    have hEq : some (SqlValue.text value) =
        some (SqlValue.text other) := by
      simpa using hSame
    cases hEq
    exact hOther
  · intro hValue
    exact ⟨value, hValue, by simp⟩

/- Texts of instants compare as the instants. -/
theorem print_le_iff
    (hValid : rfc3339.Valid now)
    {instant : DateTime}
    (hInstant : rfc3339.Valid instant) :
    rfc3339.print instant ≤ rfc3339.print now ↔
      instant ≤ now := by
  have hLt := rfc3339.print_lt_iff now instant hValid hInstant
  constructor
  · intro hLe
    by_contra hNot
    exact hLe (hLt.mpr (lt_of_not_ge hNot))
  · intro hLe hBefore
    exact absurd (hLt.mp hBefore) (not_lt_of_ge hLe)

theorem isReached_print
    (hBlank : rfc3339.NeverBlank)
    (hNow : rfc3339.Valid now)
    {name : String}
    {instant : DateTime}
    (hInstant : rfc3339.Valid instant)
    (hColumn :
      row.columns name =
        some (.text (rfc3339.print instant))) :
    row.isReached name (rfc3339.print now) =
      decide (instant ≤ now) := by
  have hText :
      (rfc3339.print instant != "") = true := by
    simpa using hBlank instant hInstant
  unfold DocumentRow.isReached
  rw [hColumn]
  dsimp only
  rw [hText, Bool.true_and]
  exact decide_eq_decide.mpr (print_le_iff hNow hInstant)

theorem isReached_blank
    {name limit : String}
    (hColumn : row.columns name = some (.text "")) :
    row.isReached name limit = false := by
  unfold DocumentRow.isReached
  rw [hColumn]
  rfl

/- The transaction expiry condition, on an exact row. -/
theorem transactionExpired_eq
    (hBlank : rfc3339.NeverBlank)
    (hNow : rfc3339.Valid now)
    {txn : Transaction}
    (hColumns : ColumnsOf rfc3339 txn row)
    (hTimes : TimesValid rfc3339 txn) :
    transactionExpired rfc3339 now row =
      Record.isDue now txn := by
  have hState := hColumns "state" txn.state.wireName rfl
  have hExpiry := hColumns "quote_expires_at"
    ((txn.quoteExpiresAt.map rfc3339.print).getD "") rfl
  have hOpen :
      row.isOneOf "state" ["draft", "quoted"] =
        txn.state.isOpen := by
    rw [isOneOf_text hState]
    cases txn.state <;> rfl
  have hLapsed :
      row.isReached "quote_expires_at" (rfc3339.print now) =
        txn.quoteLapsed now := by
    unfold Transaction.quoteLapsed
    cases hDeadline : txn.quoteExpiresAt with
    | none =>
        rw [hDeadline] at hExpiry
        exact isReached_blank hExpiry
    | some expiresAt =>
        rw [hDeadline] at hExpiry
        have hMem : rfc3339.Valid expiresAt := by
          refine hTimes expiresAt ?_
          change expiresAt ∈ txn.updatedAt :: txn.createdAt ::
            txn.quoteExpiresAt.toList
          rw [hDeadline]
          simp
        exact isReached_print hBlank hNow hMem hExpiry
  unfold transactionExpired
  rw [hOpen, hLapsed]
  rfl

/- The renewal condition, on an exact row. -/
theorem renewalReached_eq
    (hBlank : rfc3339.NeverBlank)
    (hNow : rfc3339.Valid now)
    {sub : Subscription}
    (hColumns : ColumnsOf rfc3339 sub row)
    (hTimes : TimesValid rfc3339 sub) :
    renewalReached rfc3339 now row =
      Record.isDue now sub := by
  have hStatus := hColumns "status" sub.status.wireName rfl
  have hCharge := hColumns "next_charge_at" _ rfl
  have hPayment := hColumns "payment_present" _ rfl
  have hRenews :
      row.isOneOf "status" ["active", "trialing"] =
        (sub.status == .active || sub.status == .trialing) := by
    rw [isOneOf_text hStatus]
    cases sub.status <;> rfl
  have hPresent :
      (row.columns "payment_present" == some (.integer 1)) =
        sub.paymentInstrument.isSome := by
    rw [hPayment]
    change (some (SqlValue.bound "payment_present"
        (if sub.paymentInstrument.isSome then "1" else "0")) ==
      some (SqlValue.integer 1)) = _
    cases sub.paymentInstrument.isSome <;> rfl
  have hNext : rfc3339.Valid sub.nextChargeAt :=
    hTimes sub.nextChargeAt (by
      change sub.nextChargeAt ∈
        [sub.updatedAt, sub.createdAt, sub.nextChargeAt]
      simp)
  have hReached :
      row.isReached "next_charge_at" (rfc3339.print now) =
        decide (sub.nextChargeAt ≤ now) :=
    isReached_print hBlank hNow hNext hCharge
  unfold renewalReached
  rw [hRenews, hPresent, hReached, Bool.and_right_comm]
  rfl

/- The peer quote expiry condition, on an exact row. -/
theorem quoteExpired_eq
    (hBlank : rfc3339.NeverBlank)
    (hNow : rfc3339.Valid now)
    {quote : PeerQuote}
    (hColumns : ColumnsOf rfc3339 quote row)
    (hTimes : TimesValid rfc3339 quote) :
    quoteExpired rfc3339 now row =
      Record.isDue now quote := by
  have hStatus := hColumns "status" quote.status.wireName rfl
  have hExpiry := hColumns "expires_at" _ rfl
  have hOpen :
      row.isOneOf "status" ["pending", "quoted"] =
        (quote.status == .pending ||
          quote.status == .quoted) := by
    rw [isOneOf_text hStatus]
    cases quote.status <;> rfl
  have hDeadline : rfc3339.Valid quote.expiresAt :=
    hTimes quote.expiresAt (by
      change quote.expiresAt ∈
        [quote.updatedAt, quote.createdAt, quote.expiresAt]
      simp)
  have hReached :
      row.isReached "expires_at" (rfc3339.print now) =
        decide (quote.expiresAt ≤ now) :=
    isReached_print hBlank hNow hDeadline hExpiry
  unfold quoteExpired
  rw [hOpen, hReached]
  rfl

end Tests

end Model

end IcpHandler

------------------------------------------------------------
-- Counts
------------------------------------------------------------

namespace IcpHandler

namespace Model

open Data DocumentStore

namespace SubscriptionStatusCounts

/- The count of one status. -/
def ofStatus
    (status : SubscriptionStatus)
    (counts : SubscriptionStatusCounts) : Nat :=
  match status with
  | .trialing => counts.trialing
  | .active => counts.active
  | .paused => counts.paused
  | .canceled => counts.canceled
  | .pastDue => counts.pastDue

theorem ext_ofStatus
    {counts counts' : SubscriptionStatusCounts}
    (hSame :
      ∀ status, counts.ofStatus status =
        counts'.ofStatus status) :
    counts = counts' := by
  rcases counts with ⟨trialing, active, paused, canceled, due⟩
  rcases counts' with
    ⟨trialing', active', paused', canceled', due'⟩
  obtain rfl : trialing = trialing' := hSame .trialing
  obtain rfl : active = active' := hSame .active
  obtain rfl : paused = paused' := hSame .paused
  obtain rfl : canceled = canceled' := hSame .canceled
  obtain rfl : due = due' := hSame .pastDue
  rfl

/- A group sets the count of its own status. -/
theorem ofStatus_setGroup
    (status : SubscriptionStatus)
    (counts : SubscriptionStatusCounts)
    (group : String × Nat) :
    (counts.setGroup group).ofStatus status =
      if group.1 = status.wireName then group.2
      else counts.ofStatus status := by
  rcases group with ⟨name, count⟩
  unfold setGroup
  split_ifs with hName hName' hName' hName' hName' hName' <;>
    cases status <;>
    simp_all [ofStatus, SubscriptionStatus.wireName]

theorem ofStatus_countRecord
    (status : SubscriptionStatus)
    (counts : SubscriptionStatusCounts)
    (sub : Subscription) :
    (counts.countRecord sub).ofStatus status =
      counts.ofStatus status +
        if sub.status = status then 1 else 0 := by
  unfold countRecord
  cases hStatus : sub.status <;> cases status <;>
    simp [ofStatus]

/- Going through the records counts each status. -/
theorem ofStatus_scan
    (status : SubscriptionStatus)
    (subs : List Subscription)
    (counts : SubscriptionStatusCounts) :
    (subs.foldl countRecord counts).ofStatus status =
      counts.ofStatus status +
        subs.countP fun sub => decide (sub.status = status) := by
  induction subs generalizing counts with
  | nil => rfl
  | cons sub subs ih =>
      rw [List.foldl_cons, ih, ofStatus_countRecord,
        List.countP_cons]
      simp only [decide_eq_true_eq]
      omega

end SubscriptionStatusCounts

/- Statuses have distinct names. -/
theorem SubscriptionStatus.wireName_inj
    {status status' : SubscriptionStatus} :
    status.wireName = status'.wireName ↔
      status = status' := by
  constructor
  · intro hName
    revert hName
    cases status <;> cases status' <;> decide
  · rintro rfl
    rfl

section Counts

variable {rfc3339 : Rfc3339}
variable {codec : Codec Subscription}
variable {table : DocumentTable}

/- An exact row has the status of its record in its column. -/
theorem statusText_eq
    {row : DocumentRow}
    {sub : Subscription}
    (hColumns : ColumnsOf rfc3339 sub row) :
    statusText row = some sub.status.wireName := by
  have hStatus : row.columns "status" =
      some (.text sub.status.wireName) :=
    hColumns "status" sub.status.wireName rfl
  have hNotBlank : sub.status.wireName ≠ "" := by
    cases sub.status <;> decide
  unfold statusText
  rw [hStatus]
  dsimp only
  rw [if_neg hNotBlank]

/- The texts in the status columns are those of the records. -/
theorem statusTexts_eq
    {rows : List DocumentRow}
    (hExact : ∀ row ∈ rows, RowExact rfc3339 codec row) :
    rows.filterMap statusText =
      (rows.filterMap (deserializePayload codec)).map
        fun sub => sub.status.wireName := by
  induction rows with
  | nil => rfl
  | cons row rows ih =>
      obtain ⟨sub, hRead, hColumns, _⟩ :=
        hExact row List.mem_cons_self
      have hRest := ih fun other hOther =>
        hExact other (List.mem_cons_of_mem _ hOther)
      rw [List.filterMap_cons_some (statusText_eq hColumns),
        List.filterMap_cons_some hRead, List.map_cons, hRest]

/- On exact rows the two ways to count agree. -/
theorem statusCountsIndexed_eq
    (hExact : RowsExact rfc3339 codec table)
    (scan : Plan) :
    statusCountsIndexed table =
      statusCountsScanned codec scan table := by
  refine SubscriptionStatusCounts.ext_ofStatus fun status => ?_
  unfold statusCountsIndexed statusCountsScanned
  rw [foldl_groups
      (SubscriptionStatusCounts.ofStatus_setGroup status)
      _ (by cases status <;> rfl),
    SubscriptionStatusCounts.ofStatus_scan,
    statusTexts_eq fun row hRow => hExact.values hRow]
  have hPerm :
      (list codec scan table).Perm
        (table.values.filterMap (deserializePayload codec)) :=
    (scan.perm table.values).filterMap _
  have hBlank :
      SubscriptionStatusCounts.ofStatus status {} = 0 := by
    cases status <;> rfl
  rw [hPerm.countP_eq, hBlank, Nat.zero_add, List.count,
    List.countP_map]
  refine List.countP_congr fun sub _ => ?_
  simp [SubscriptionStatus.wireName_inj]

end Counts

end Model

end IcpHandler

------------------------------------------------------------
-- The Fast Path and the Scan
------------------------------------------------------------

namespace IcpHandler

namespace Model

open Data DocumentStore

section Lists

variable {V P : Type} [Record V P DateTime]
variable {codec : Codec V}
variable {table : DocumentTable}
variable {condition : DateTime → DocumentRow → Bool}
variable {now : DateTime}

/- A query and a scan differ in their order only. -/
theorem select_perm_scan
    (hTells :
      Tells (deserializePayload codec) (condition now)
        (Record.isDue now) table.values)
    (scan plan : Plan) :
    (select codec plan (condition now) table).Perm
      ((list codec scan table).filter (Record.isDue now)) := by
  have hSelect :
      (select codec plan (condition now) table).Perm
        ((table.values.filter (condition now)).filterMap
          (deserializePayload codec)) :=
    (plan.perm _).filterMap _
  have hScan :
      (list codec scan table).Perm
        (table.values.filterMap (deserializePayload codec)) :=
    (scan.perm _).filterMap _
  rw [select_eq_of_tells hTells] at hSelect
  exact hSelect.trans (hScan.filter _).symm

/- Whichever way is taken, the listing is the scan's. -/
theorem listDue_perm_scan
    (hTells :
      Tells (deserializePayload codec) (condition now)
        (Record.isDue now) table.values)
    (scan plan : Plan) :
    (listDue condition codec scan plan table now).Perm
      ((list codec scan table).filter (Record.isDue now)) := by
  unfold listDue
  split
  · rfl
  · exact select_perm_scan hTells scan plan

/- On exact rows a condition on the columns tells. -/
theorem tells_of_exact
    {I : Type}
    [Document V I]
    {rfc3339 : Rfc3339}
    (hExact : RowsExact rfc3339 codec table)
    (hSame :
      ∀ row (value : V), ColumnsOf rfc3339 value row →
        TimesValid rfc3339 value →
        condition now row = Record.isDue now value) :
    Tells (deserializePayload codec) (condition now)
      (Record.isDue now) table.values := by
  intro row hRow value hRead
  obtain ⟨stored, hStored, hColumns, hTimes⟩ :=
    hExact.values hRow
  rw [hRead] at hStored
  cases hStored
  exact hSame row value hColumns hTimes

end Lists

/-
  The query by columns, and the listing that may use it, find
  what the scan keeps, at every time.
-/
def ListsExactly
    {V P : Type}
    [Record V P DateTime]
    (rfc3339 : Rfc3339)
    (condition : DateTime → DocumentRow → Bool)
    (codec : Codec V)
    (table : DocumentTable) : Prop :=
  ∀ now, rfc3339.Valid now → ∀ scan plan : Plan,
    (select codec plan (condition now) table).Perm
        ((list codec scan table).filter (Record.isDue now)) ∧
      (listDue condition codec scan plan table now).Perm
        ((list codec scan table).filter (Record.isDue now))

theorem listsExactly_of_exact
    {V P I : Type}
    [Record V P DateTime]
    [Document V I]
    {rfc3339 : Rfc3339}
    {condition : DateTime → DocumentRow → Bool}
    {codec : Codec V}
    {table : DocumentTable}
    (hExact : RowsExact rfc3339 codec table)
    (hSame :
      ∀ now, rfc3339.Valid now → ∀ row (value : V),
        ColumnsOf rfc3339 value row →
        TimesValid rfc3339 value →
        condition now row = Record.isDue now value) :
    ListsExactly rfc3339 condition codec table := by
  intro now hNow scan plan
  have hTells := tells_of_exact hExact (hSame now hNow)
  exact ⟨select_perm_scan hTells scan plan,
    listDue_perm_scan hTells scan plan⟩

/-
  After any histories of writes to the three stores every row
  has the columns of its record, and every query by columns
  finds what the scan keeps.
-/
theorem fast_path_equals_scan
    (rfc3339 : Rfc3339)
    (hBlank : rfc3339.NeverBlank)
    (txnCodec : Codec Transaction)
    (subCodec : Codec Subscription)
    (quoteCodec : Codec PeerQuote)
    (hTxnCodec : txnCodec.KeepsIndex rfc3339)
    (hSubCodec : subCodec.KeepsIndex rfc3339)
    (hQuoteCodec : quoteCodec.KeepsIndex rfc3339)
    (txnCalls : List (DocumentCall Transaction))
    (subCalls : List (DocumentCall Subscription))
    (quoteCalls : List (DocumentCall PeerQuote))
    (hTxns :
      WritesValid rfc3339 txnCodec txnCalls .empty)
    (hSubs :
      WritesValid rfc3339 subCodec subCalls .empty)
    (hQuotes :
      WritesValid rfc3339 quoteCodec quoteCalls .empty) :
    let txns :=
      runDocuments rfc3339 txnCodec txnCalls .empty
    let subs :=
      runDocuments rfc3339 subCodec subCalls .empty
    let quotes :=
      runDocuments rfc3339 quoteCodec quoteCalls .empty
    (RowsExact rfc3339 txnCodec txns ∧
        RowsExact rfc3339 subCodec subs ∧
        RowsExact rfc3339 quoteCodec quotes) ∧
      ListsExactly rfc3339 (transactionExpired rfc3339)
        txnCodec txns ∧
      ListsExactly rfc3339 (renewalReached rfc3339)
        subCodec subs ∧
      ListsExactly rfc3339 (quoteExpired rfc3339)
        quoteCodec quotes ∧
      ∀ scan : Plan,
        statusCountsIndexed subs =
            statusCountsScanned subCodec scan subs ∧
          statusCounts subCodec scan subs =
            statusCountsScanned subCodec scan subs := by
  intro txns subs quotes
  have hTxnRows : RowsExact rfc3339 txnCodec txns :=
    runDocuments_exact hTxnCodec txnCalls rowsExact_empty hTxns
  have hSubRows : RowsExact rfc3339 subCodec subs :=
    runDocuments_exact hSubCodec subCalls rowsExact_empty hSubs
  have hQuoteRows : RowsExact rfc3339 quoteCodec quotes :=
    runDocuments_exact hQuoteCodec quoteCalls rowsExact_empty
      hQuotes
  refine ⟨⟨hTxnRows, hSubRows, hQuoteRows⟩, ?_, ?_, ?_, ?_⟩
  · exact listsExactly_of_exact hTxnRows
      fun now hNow row txn hColumns hTimes =>
        transactionExpired_eq hBlank hNow hColumns hTimes
  · exact listsExactly_of_exact hSubRows
      fun now hNow row sub hColumns hTimes =>
        renewalReached_eq hBlank hNow hColumns hTimes
  · exact listsExactly_of_exact hQuoteRows
      fun now hNow row quote hColumns hTimes =>
        quoteExpired_eq hBlank hNow hColumns hTimes
  · intro scan
    have hCounts := statusCountsIndexed_eq hSubRows scan
    refine ⟨hCounts, ?_⟩
    unfold statusCounts
    split
    · rfl
    · exact hCounts

/- The texts of two records. -/
def sampleCodec
    {V I : Type}
    [Document V I]
    [DecidableEq I]
    (first second : V × String) : Codec V where
  encode value :=
    if Document.indexed value = Document.indexed first.1 then
      .ok first.2
    else if
        Document.indexed value = Document.indexed second.1 then
      .ok second.2
    else .error "unsupported"
  decode json :=
    if json = first.2 then .ok first.1
    else if json = second.2 then .ok second.1
    else .error "unsupported"

theorem sampleCodec_keepsIndex
    {V I : Type}
    [Document V I]
    [DecidableEq I]
    {first second : V × String}
    (hApart : second.2 ≠ first.2)
    (rfc3339 : Rfc3339) :
    (sampleCodec first second).KeepsIndex rfc3339 := by
  intro value json _ hEncode
  unfold sampleCodec at hEncode ⊢
  dsimp only at hEncode ⊢
  split_ifs at hEncode with hFirst hSecond
  · cases hEncode
    exact ⟨first.1, if_pos rfl, hFirst.symm⟩
  · cases hEncode
    refine ⟨second.1, ?_, hSecond.symm⟩
    rw [if_neg hApart, if_pos rfl]

theorem sampleCodec_reads_first
    {V I : Type}
    [Document V I]
    [DecidableEq I]
    (first second : V × String) :
    (sampleCodec first second).decode first.2 =
      .ok first.1 :=
  if_pos rfl

theorem concreteRfc3339_neverBlank :
    concreteRfc3339.NeverBlank := by
  have hAll :
      ∀ instant ∈ concreteInstants.map Prod.fst,
        concreteRfc3339.print instant ≠ "" := by
    decide
  exact hAll

/- A subscription that is due after a minute. -/
def sampleSubscription
    (status : SubscriptionStatus) : Subscription where
  id := "sub_1"
  status := status
  agentId := "bot"
  tenantId := "acme"
  mandateJti := none
  buyer := {}
  shipTo := none
  items := []
  currency := "USD"
  cadence := .weekly
  currentPeriodStart := 0
  currentPeriodEnd := Duration.seconds 60
  nextChargeAt := Duration.seconds 60
  chargesCompleted := 1
  lastTransactionId := none
  paymentInstrument := some (.card (some "tok") none none)
  createdAt := 0
  updatedAt := 0
  canceledAt := none
  pausedAt := none
  failedRenewalAttempts := 0
  trialEnd := none

/- Its JSON text. -/
def sampleSubscriptionJson (status : String) : String :=
  "\x7b\"id\":\"sub_1\",\"status\":\"" ++ status ++
    "\",\"agent_id\":\"bot\",\"tenant_id\":\"acme\"," ++
    "\"buyer\":\x7b\"first_name\":null,\"last_name\":null," ++
    "\"email\":null,\"phone_number\":null," ++
    "\"principal_did\":null\x7d,\"items\":[]," ++
    "\"currency\":\"USD\",\"cadence\":\"weekly\"," ++
    "\"current_period_start\":\"1970-01-01T00:00:00Z\"," ++
    "\"current_period_end\":\"1970-01-01T00:01:00Z\"," ++
    "\"next_charge_at\":\"1970-01-01T00:01:00Z\"," ++
    "\"charges_completed\":1,\"payment_instrument\":\x7b" ++
    "\"method\":\"card\",\"token\":\"tok\"," ++
    "\"last_digits\":null,\"brand\":null\x7d," ++
    "\"created_at\":\"1970-01-01T00:00:00Z\"," ++
    "\"updated_at\":\"1970-01-01T00:00:00Z\"," ++
    "\"failed_renewal_attempts\":0\x7d"

/- A quote of the shop that lapses after a minute. -/
def sampleTransaction
    (state : TransactionState) : Transaction where
  id := "txn_1"
  state := state
  agentId := "bot"
  tenantId := "acme"
  mandateJti := none
  currency := "USD"
  jurisdiction := none
  buyer := {}
  shipTo := none
  billTo := none
  lineItems := []
  totals := {}
  orderId := none
  quoteExpiresAt := some (Duration.seconds 60)
  createdAt := 0
  updatedAt := 0
  externalRefs := ∅

/- Its JSON text. -/
def sampleTransactionJson (state : String) : String :=
  "\x7b\"id\":\"txn_1\",\"state\":\"" ++ state ++
    "\",\"agent_id\":\"bot\",\"tenant_id\":\"acme\"," ++
    "\"currency\":\"USD\",\"buyer\":\x7b" ++
    "\"first_name\":null,\"last_name\":null," ++
    "\"email\":null,\"phone_number\":null," ++
    "\"principal_did\":null\x7d,\"ship_to\":null," ++
    "\"bill_to\":null,\"line_items\":[],\"totals\":\x7b" ++
    "\"subtotal\":null,\"discount\":null," ++
    "\"shipping\":null,\"tax\":null,\"total\":null\x7d," ++
    "\"quote_expires_at\":\"1970-01-01T00:01:00Z\"," ++
    "\"created_at\":\"1970-01-01T00:00:00Z\"," ++
    "\"updated_at\":\"1970-01-01T00:00:00Z\"," ++
    "\"external_refs\":\x7b\x7d\x7d"

/- An offer of another agent that lapses after a minute. -/
def samplePeerQuote (status : PeerQuoteStatus) : PeerQuote where
  id := "pq_1"
  status := status
  tenantId := "acme"
  requesterAgentId := "bot"
  peerAgentId := "peer"
  service := ⟨.compute, "work", .null⟩
  price := none
  createdAt := 0
  updatedAt := 0
  expiresAt := Duration.seconds 60
  acceptedAt := none
  chargeTransactionId := none
  mandateJti := none
  referenceId := none

/- Its JSON text. -/
def samplePeerQuoteJson (status : String) : String :=
  "\x7b\"id\":\"pq_1\",\"status\":\"" ++ status ++
    "\",\"tenant_id\":\"acme\"," ++
    "\"requester_agent_id\":\"bot\"," ++
    "\"peer_agent_id\":\"peer\",\"service\":\x7b" ++
    "\"kind\":\"compute\",\"description\":\"work\"," ++
    "\"params\":null\x7d," ++
    "\"created_at\":\"1970-01-01T00:00:00Z\"," ++
    "\"updated_at\":\"1970-01-01T00:00:00Z\"," ++
    "\"expires_at\":\"1970-01-01T00:01:00Z\"\x7d"

def sampleTxnCodec : Codec Transaction :=
  sampleCodec
    (sampleTransaction .quoted, sampleTransactionJson "quoted")
    (sampleTransaction .expired,
      sampleTransactionJson "expired")

def sampleSubCodec : Codec Subscription :=
  sampleCodec
    (sampleSubscription .active,
      sampleSubscriptionJson "active")
    (sampleSubscription .paused,
      sampleSubscriptionJson "paused")

def sampleQuoteCodec : Codec PeerQuote :=
  sampleCodec
    (samplePeerQuote .pending, samplePeerQuoteJson "pending")
    (samplePeerQuote .expired, samplePeerQuoteJson "expired")

/- The rows as they are stored, and in reverse. -/
def storedOrder : Plan :=
  ⟨id, fun _ => List.Perm.rfl⟩

def reverseOrder : Plan :=
  ⟨List.reverse, fun rows => rows.reverse_perm⟩

private def txnHistory : List (DocumentCall Transaction) :=
  [⟨.insert (sampleTransaction .quoted), false⟩,
    ⟨.update "txn_1" fun _ => sampleTransaction .expired, false⟩]

private def subHistory : List (DocumentCall Subscription) :=
  [⟨.insert (sampleSubscription .paused), false⟩,
    ⟨.update "sub_1" fun _ => sampleSubscription .active, false⟩]

private def quoteHistory : List (DocumentCall PeerQuote) :=
  [⟨.insert (samplePeerQuote .pending), false⟩,
    ⟨.insert (samplePeerQuote .expired), true⟩]

theorem sampleTransaction_times (state : TransactionState) :
    TimesValid concreteRfc3339 (sampleTransaction state) := by
  change ∀ instant ∈
    ([0, 0, Duration.seconds 60] : List DateTime),
    instant ∈ concreteInstants.map Prod.fst
  decide

theorem sampleSubscription_times
    (status : SubscriptionStatus) :
    TimesValid concreteRfc3339 (sampleSubscription status) := by
  change ∀ instant ∈
    ([0, 0, Duration.seconds 60] : List DateTime),
    instant ∈ concreteInstants.map Prod.fst
  decide

theorem samplePeerQuote_times (status : PeerQuoteStatus) :
    TimesValid concreteRfc3339 (samplePeerQuote status) := by
  change ∀ instant ∈
    ([0, 0, Duration.seconds 60] : List DateTime),
    instant ∈ concreteInstants.map Prod.fst
  decide

theorem sampleTxnCodec_keepsIndex :
    sampleTxnCodec.KeepsIndex concreteRfc3339 :=
  sampleCodec_keepsIndex (by decide) concreteRfc3339

theorem sampleSubCodec_keepsIndex :
    sampleSubCodec.KeepsIndex concreteRfc3339 :=
  sampleCodec_keepsIndex (by decide) concreteRfc3339

theorem sampleQuoteCodec_keepsIndex :
    sampleQuoteCodec.KeepsIndex concreteRfc3339 :=
  sampleCodec_keepsIndex (by decide) concreteRfc3339

/-
  A subscription that was resumed is found when it is due, and
  a quote that was expired is not.
-/
theorem fast_path_equals_scan_sample :
    (select sampleSubCodec reverseOrder
        (renewalReached concreteRfc3339 (Duration.seconds 60))
        (runDocuments concreteRfc3339 sampleSubCodec subHistory
          .empty)).Perm
      ((list sampleSubCodec storedOrder
        (runDocuments concreteRfc3339 sampleSubCodec subHistory
          .empty)).filter
            (Record.isDue (Duration.seconds 60))) ∧
      (select sampleTxnCodec reverseOrder
          (transactionExpired concreteRfc3339
            (Duration.seconds 60))
          (runDocuments concreteRfc3339 sampleTxnCodec
            txnHistory .empty)).Perm
        ((list sampleTxnCodec storedOrder
          (runDocuments concreteRfc3339 sampleTxnCodec
            txnHistory .empty)).filter
              (Record.isDue (Duration.seconds 60))) := by
  have hNow :
      concreteRfc3339.Valid (Duration.seconds 60) := by
    change Duration.seconds 60 ∈ concreteInstants.map Prod.fst
    decide
  have hTxns :
      WritesValid concreteRfc3339 sampleTxnCodec txnHistory
        .empty := by
    refine ⟨?_, ?_, trivial⟩
    · rintro value ⟨⟩
      exact sampleTransaction_times _
    · intro value hValue
      unfold DocumentCall.value? at hValue
      obtain ⟨_, _, rfl⟩ := Option.map_eq_some_iff.mp hValue
      exact sampleTransaction_times _
  have hSubs :
      WritesValid concreteRfc3339 sampleSubCodec subHistory
        .empty := by
    refine ⟨?_, ?_, trivial⟩
    · rintro value ⟨⟩
      exact sampleSubscription_times _
    · intro value hValue
      unfold DocumentCall.value? at hValue
      obtain ⟨_, _, rfl⟩ := Option.map_eq_some_iff.mp hValue
      exact sampleSubscription_times _
  have hQuotes :
      WritesValid concreteRfc3339 sampleQuoteCodec quoteHistory
        .empty := by
    refine ⟨?_, ?_, trivial⟩
    · rintro value ⟨⟩
      exact samplePeerQuote_times _
    · rintro value ⟨⟩
      exact samplePeerQuote_times _
  have hFast :=
    fast_path_equals_scan concreteRfc3339
      concreteRfc3339_neverBlank sampleTxnCodec sampleSubCodec
      sampleQuoteCodec sampleTxnCodec_keepsIndex
      sampleSubCodec_keepsIndex sampleQuoteCodec_keepsIndex
      txnHistory subHistory quoteHistory hTxns hSubs hQuotes
  exact ⟨(hFast.2.2.1 _ hNow storedOrder reverseOrder).1,
    (hFast.2.1 _ hNow storedOrder reverseOrder).1⟩

end Model

end IcpHandler
