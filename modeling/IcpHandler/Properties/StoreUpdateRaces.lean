import IcpHandler.Model.StoreUpdates
import IcpHandler.Properties.StoreIndexes

/-
  Updates of the stores that run at the same time, on any
  number of connections to one file. Each begins a deferred
  transaction, so it is refused when another has committed
  after its SELECT, and what it should have written is lost.

  Main declarations:
    * `UpdateCall.Finds`, `UpdateCall.Rewrites`
    * `sound_toChange`, `present_row`
    * `UpdatesKept`, `store_updates_kept_iff`
    * `store_update_goes_on`
    * `overtaken_update_is_lost`
-/

------------------------------------------------------------
-- Rows that Can Be Read
------------------------------------------------------------

namespace IcpHandler

namespace Model

open Data Concurrency

/-
  A record that is read and changed can be written, and what
  is written then can be read.
-/
def Codec.Rewrites
    {V : Type}
    (codec : Codec V)
    (f : V → V) : Prop :=
  ∀ text value, codec.decode text = .ok value →
    ∃ json, codec.encode (f value) = .ok json ∧
      ∃ value', codec.decode json = .ok value'

def UpdateCall.Rewrites (codecs : Codecs) : UpdateCall → Prop
  | .transaction _ f => codecs.transaction.Rewrites f
  | .subscription _ f => codecs.subscription.Rewrites f
  | .peerQuote _ f => codecs.peerQuote.Rewrites f
  | .delivery _ _ _ => True

/- The row has a record. -/
def HasRecord
    {V : Type}
    (codec : Codec V)
    (row : DocumentRow) : Prop :=
  ∃ value, codec.decode row.payloadJson = .ok value

/- The table has the row of the call, with its record. -/
def UpdateCall.Finds
    (codecs : Codecs)
    (tables : StoreTables) : UpdateCall → Prop
  | .transaction id _ =>
      ∃ row, tables.transactions.get id = some row ∧
        HasRecord codecs.transaction row
  | .subscription id _ =>
      ∃ row, tables.subscriptions.get id = some row ∧
        HasRecord codecs.subscription row
  | .peerQuote id _ =>
      ∃ row, tables.peerQuotes.get id = some row ∧
        HasRecord codecs.peerQuote row
  | .delivery id _ _ =>
      ∃ row, tables.outbox.row? id = some row

/- A row of its table that can be read. -/
def ReadableRow
    (codecs : Codecs)
    (place : StoreTable × String) : StoredRow → Prop
  | .document row =>
      match place.1 with
      | .transactions => HasRecord codecs.transaction row
      | .subscriptions => HasRecord codecs.subscription row
      | .peerQuotes => HasRecord codecs.peerQuote row
      | .webhookDeliveries => False
  | .delivery _ => place.1 = .webhookDeliveries

section Rows

variable {V I : Type} [Document V I]
variable {rfc3339 : Rfc3339} {codecs : Codecs}
variable {tables : StoreTables}

/- A document that has a record is changed to one that has. -/
theorem change_of_hasRecord
    {codec : Codec V}
    {f : V → V}
    {row : DocumentRow}
    (hRewrites : codec.Rewrites f)
    (hRecord : HasRecord codec row) :
    ∃ row' value,
      DocumentStore.change rfc3339 codec f row =
          some (row', value) ∧
        HasRecord codec row' := by
  obtain ⟨old, hRead⟩ := hRecord
  obtain ⟨json, hWrite, hAgain⟩ := hRewrites _ old hRead
  refine ⟨(⟨json, indexColumns rfc3339 (f old)⟩ :
    RowWrite).apply row, f old, ?_, hAgain⟩
  have hPayload :
      DocumentStore.deserializePayload codec row = some old := by
    rw [DocumentStore.deserializePayload, hRead]
    rfl
  rw [DocumentStore.change, hPayload]
  dsimp only [bind, Option.bind]
  rw [hWrite]
  rfl

theorem documentChange_of_hasRecord
    {codec : Codec V}
    {f : V → V}
    {row : DocumentRow}
    (record : V → UpdatedRecord)
    (hRewrites : codec.Rewrites f)
    (hRecord : HasRecord codec row) :
    ∃ row' value,
      documentChange (DocumentStore.change rfc3339 codec f)
          record (.document row) =
        some (.document row', record value) ∧
        HasRecord codec row' := by
  obtain ⟨row', value, hChange, hAfter⟩ :=
    change_of_hasRecord hRewrites hRecord
  refine ⟨row', value, ?_, hAfter⟩
  rw [documentChange, hChange]
  rfl

/- On readable rows the calls always have something to write. -/
theorem sound_toChange
    {ι : Type}
    {calls : ι → UpdateCall}
    (hRewrites : ∀ i, (calls i).Rewrites codecs) :
    Wal.Sound (fun i => (calls i).toChange rfc3339 codecs)
      (ReadableRow codecs) := by
  intro i row hReadable
  have hOwn := hRewrites i
  dsimp only at hReadable ⊢
  cases hCall : calls i with
  | transaction id f =>
      rw [hCall] at hReadable hOwn
      cases row with
      | delivery row => cases hReadable
      | document row =>
          obtain ⟨row', value, hChange, hAfter⟩ :=
            documentChange_of_hasRecord .transaction hOwn
              hReadable
          exact ⟨.document row', .transaction value, hChange,
            hAfter⟩
  | subscription id f =>
      rw [hCall] at hReadable hOwn
      cases row with
      | delivery row => cases hReadable
      | document row =>
          obtain ⟨row', value, hChange, hAfter⟩ :=
            documentChange_of_hasRecord .subscription hOwn
              hReadable
          exact ⟨.document row', .subscription value, hChange,
            hAfter⟩
  | peerQuote id f =>
      rw [hCall] at hReadable hOwn
      cases row with
      | delivery row => cases hReadable
      | document row =>
          obtain ⟨row', value, hChange, hAfter⟩ :=
            documentChange_of_hasRecord .peerQuote hOwn hReadable
          exact ⟨.document row', .peerQuote value, hChange,
            hAfter⟩
  | delivery id patch clock =>
      rw [hCall] at hReadable
      cases row with
      | document row => exact hReadable.elim
      | delivery row => exact ⟨_, _, rfl, rfl⟩

/- The rows of the calls are there at the start. -/
theorem present_row
    {ι : Type}
    {calls : ι → UpdateCall}
    (hFinds : ∀ i, (calls i).Finds codecs tables) :
    Wal.Present (fun i => (calls i).toChange rfc3339 codecs)
      (ReadableRow codecs) tables.row := by
  intro i
  have hOwn := hFinds i
  dsimp only
  cases hCall : calls i with
  | delivery id patch clock =>
      rw [hCall] at hOwn
      obtain ⟨row, hRow⟩ := hOwn
      refine ⟨.delivery row, ?_, rfl⟩
      exact congrArg (Option.map StoredRow.delivery) hRow
  | _ =>
      rw [hCall] at hOwn
      obtain ⟨row, hRow, hRecord⟩ := hOwn
      refine ⟨.document row, ?_, hRecord⟩
      exact congrArg (Option.map StoredRow.document) hRow

end Rows

end Model

end IcpHandler

------------------------------------------------------------
-- Updates at the Same Time
------------------------------------------------------------

namespace IcpHandler

namespace Model

open Data Concurrency

/- The file, with the transactions of calls under way. -/
abbrev StoreState (ι : Type) :=
  Wal.State ι (StoreTable × String) StoredRow UpdatedRecord

/- The state after the statements of the calls, so far. -/
def afterStatements
    {ι : Type}
    [DecidableEq ι]
    (rfc3339 : Rfc3339)
    (codecs : Codecs)
    (calls : ι → UpdateCall)
    (tables : StoreTables)
    (past : List (Wal.Statement ι)) : Option (StoreState ι) :=
  Wal.after (fun i => (calls i).toChange rfc3339 codecs)
    (.init tables.row) past

/-
  Every call that has started returns its record, and the rows
  are those of all these calls, one after another in some order.
-/
structure UpdatesKept
    {ι : Type}
    (rfc3339 : Rfc3339)
    (codecs : Codecs)
    (calls : ι → UpdateCall)
    (tables : StoreTables)
    (s : StoreState ι) : Prop where
  returned :
    ∀ i, s.phase i ≠ .idle →
      ∃ record, s.phase i = .ended (some record)
  serial :
    ∃ order : List ι, order.Nodup ∧
      (∀ i, i ∈ order ↔ s.phase i ≠ .idle) ∧
      s.rows =
        (order.foldl
          (fun tables i => (calls i).alone rfc3339 codecs tables)
          tables).row

section Races

variable {ι : Type} [DecidableEq ι]
variable {rfc3339 : Rfc3339} {codecs : Codecs}
variable {calls : ι → UpdateCall} {tables : StoreTables}
variable {past : List (Wal.Statement ι)} {s : StoreState ι}

omit [DecidableEq ι] in
/- Calls on their own are the updates of the stores. -/
theorem applied_toChange (order : List ι) :
    Wal.applied (fun i => (calls i).toChange rfc3339 codecs)
        tables.row order =
      (order.foldr
        (fun i tables => (calls i).alone rfc3339 codecs tables)
        tables).row := by
  induction order with
  | nil => rfl
  | cons i order ih =>
      rw [List.foldr_cons, ← apply_toChange, ← ih]
      rfl

omit [DecidableEq ι] in
theorem updatesKept_iff_serialized :
    UpdatesKept rfc3339 codecs calls tables s ↔
      Wal.Serialized
        (fun i => (calls i).toChange rfc3339 codecs)
        tables.row s := by
  constructor
  · rintro ⟨hReturned, order, hNodup, hAll, hRows⟩
    refine ⟨hReturned, order.reverse,
      List.nodup_reverse.mpr hNodup, ?_, ?_⟩
    · exact fun i => List.mem_reverse.trans (hAll i)
    · rw [applied_toChange, List.foldr_reverse]
      exact hRows
  · rintro ⟨hReturned, order, hNodup, hAll, hRows⟩
    refine ⟨hReturned, order.reverse,
      List.nodup_reverse.mpr hNodup, ?_, ?_⟩
    · exact fun i => List.mem_reverse.trans (hAll i)
    · rw [List.foldl_reverse, ← applied_toChange]
      exact hRows

/-
  When all calls have ended, none is lost exactly if between
  the SELECT and the UPDATE of each no other one has committed
  and none has waited for the lock for too long.
-/
theorem store_updates_kept_iff
    (hFinds : ∀ i, (calls i).Finds codecs tables)
    (hRewrites : ∀ i, (calls i).Rewrites codecs)
    (hAfter :
      afterStatements rfc3339 codecs calls tables past = some s)
    (hDone : s.Done) :
    UpdatesKept rfc3339 codecs calls tables s ↔
      Wal.Undisturbed past :=
  updatesKept_iff_serialized.trans
    (Wal.serialized_iff (sound_toChange hRewrites)
      (present_row hFinds) hAfter hDone)

/- While a call is under way, some call can go on. -/
theorem store_update_goes_on
    {i : ι}
    (hAfter :
      afterStatements rfc3339 codecs calls tables past = some s)
    (hStarted : s.phase i ≠ .idle)
    (hUnderWay : ∀ answer, s.phase i ≠ .ended answer) :
    ∃ statement later, (∀ j, statement ≠ .timeOut j) ∧
      afterStatements rfc3339 codecs calls tables
        (statement :: past) = some later := by
  obtain ⟨statement, later, hGoesOn, hStep⟩ :=
    Wal.exists_step hAfter hStarted hUnderWay
  refine ⟨statement, later, hGoesOn, ?_⟩
  rw [afterStatements, Wal.after,
    show Wal.after _ _ past = some s from hAfter]
  exact hStep

end Races

/- A delivery that is due. -/
private def dueDelivery : WebhookDelivery where
  id := "whd_1"
  eventId := "evt_1"
  eventType := "subscription.renewed"
  url := "https://shop.example/hook"
  payloadJson := "\x7b\x7d"
  status := .pending
  attempts := 0
  maxAttempts := 8
  nextAttemptAt := 0
  lastStatusCode := none
  lastError := none
  createdAt := 0
  updatedAt := 0
  deliveredAt := none
  tenantId := "acme"

private def sampleCodecs : Codecs where
  transaction := sampleTxnCodec
  subscription := sampleSubCodec
  peerQuote := sampleQuoteCodec

/- One subscription, and one delivery. -/
private def sampleTables : StoreTables where
  transactions := .empty
  subscriptions :=
    DocumentStore.insert concreteRfc3339 sampleSubCodec false
      .empty (sampleSubscription .active)
  peerQuotes := .empty
  outbox :=
    .sqlite
      (.insert .empty (.ofDelivery concreteRfc3339 dueDelivery))

/- The subscription is paused; the worker takes the delivery. -/
private def sampleUpdates : Bool → UpdateCall
  | false =>
      .subscription "sub_1" fun sub =>
        { sub with status := .paused }
  | true => .delivery "whd_1" (.inFlight 0) 0

private theorem sampleUpdates_find (i : Bool) :
    (sampleUpdates i).Finds sampleCodecs sampleTables := by
  cases i with
  | false =>
      refine ⟨_, rfl, sampleSubscription .active, ?_⟩
      exact sampleCodec_reads_first _ _
  | true => exact ⟨_, rfl⟩

private theorem sampleUpdates_rewrite (i : Bool) :
    (sampleUpdates i).Rewrites sampleCodecs := by
  cases i with
  | true => trivial
  | false =>
      intro text value hRead
      have hSample :
          value = sampleSubscription .active ∨
            value = sampleSubscription .paused := by
        change sampleSubCodec.decode text = .ok value at hRead
        unfold sampleSubCodec sampleCodec at hRead
        dsimp only at hRead
        split_ifs at hRead
        · cases hRead
          exact .inl rfl
        · cases hRead
          exact .inr rfl
      refine ⟨sampleSubscriptionJson "paused", ?_,
        sampleSubscription .paused, by decide +kernel⟩
      rcases hSample with rfl | rfl
      · decide +kernel
      · decide +kernel

private def hasEnded
    {R A : Type} : Wal.Phase R A → Bool
  | .idle | .ended _ => true
  | _ => false

private theorem done_of_hasEnded
    {s : StoreState Bool}
    (hEnded :
      (hasEnded (s.phase false) && hasEnded (s.phase true)) =
        true) :
    s.Done := by
  have hOwn :
      ∀ {phase : Wal.Phase StoredRow UpdatedRecord},
        hasEnded phase = true →
          phase = .idle ∨ ∃ answer, phase = .ended answer := by
    intro phase hPhase
    cases phase with
    | idle => exact .inl rfl
    | ended answer => exact .inr ⟨answer, rfl⟩
    | begun => cases hPhase
    | selected snapshot found => cases hPhase
    | updated row answer => cases hPhase
  rw [Bool.and_eq_true] at hEnded
  intro i
  cases i with
  | false => exact hOwn hEnded.1
  | true => exact hOwn hEnded.2

/- Both calls have ended after these statements. -/
private def sampleEnds (past : List (Wal.Statement Bool)) : Bool :=
  (afterStatements concreteRfc3339 sampleCodecs sampleUpdates
    sampleTables past).any fun s =>
      hasEnded (s.phase false) && hasEnded (s.phase true)

private theorem sample_ends
    {past : List (Wal.Statement Bool)}
    (hEnds : sampleEnds past = true) :
    ∃ s, afterStatements concreteRfc3339 sampleCodecs
        sampleUpdates sampleTables past = some s ∧ s.Done := by
  obtain ⟨s, hAfter, hEnded⟩ :=
    (Option.any_eq_true _ _).mp hEnds
  exact ⟨s, hAfter, done_of_hasEnded hEnded⟩

/- Both have begun, but one reads when the other is done. -/
private def patientPast : List (Wal.Statement Bool) :=
  [.commit false, .update false, .select false, .commit true,
    .update true, .select true, .start true, .start false]

/- The delivery is written after the subscription is read. -/
private def hastyPast : List (Wal.Statement Bool) :=
  [.update false, .commit true, .update true, .select true,
    .select false, .start true, .start false]

private instance samples_end :
    Fact (sampleEnds patientPast = true ∧
      sampleEnds hastyPast = true) :=
  ⟨by decide +kernel⟩

theorem store_updates_kept_iff_sample :
    ∃ s : StoreState Bool,
      afterStatements concreteRfc3339 sampleCodecs sampleUpdates
          sampleTables patientPast = some s ∧
        UpdatesKept concreteRfc3339 sampleCodecs sampleUpdates
          sampleTables s := by
  obtain ⟨s, hAfter, hDone⟩ := sample_ends samples_end.out.1
  refine ⟨s, hAfter, ?_⟩
  exact (store_updates_kept_iff sampleUpdates_find
    sampleUpdates_rewrite hAfter hDone).mpr (by decide)

/-
  The subscription is read, then the worker's delivery in
  another table is committed. The write of the subscription is
  refused, for its snapshot is too old.
-/
theorem overtaken_update_is_lost :
    ¬ ∀ (rfc3339 : Rfc3339)
        (codecs : Codecs)
        (calls : Bool → UpdateCall)
        (tables : StoreTables)
        (past : List (Wal.Statement Bool))
        (s : StoreState Bool),
        (∀ i, (calls i).Finds codecs tables) →
        (∀ i, (calls i).Rewrites codecs) →
        afterStatements rfc3339 codecs calls tables past =
            some s →
        s.Done →
          UpdatesKept rfc3339 codecs calls tables s := by
  intro hAll
  obtain ⟨s, hAfter, hDone⟩ := sample_ends samples_end.out.2
  have hKept :=
    hAll _ _ _ _ _ s sampleUpdates_find sampleUpdates_rewrite hAfter
      hDone
  have hUndisturbed :=
    (Wal.serialized_iff (sound_toChange sampleUpdates_rewrite)
      (present_row sampleUpdates_find) hAfter hDone).mp
        (updatesKept_iff_serialized.mp hKept)
  exact absurd hUndisturbed (by decide)

end Model

end IcpHandler
