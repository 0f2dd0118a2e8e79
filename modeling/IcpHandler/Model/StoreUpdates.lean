import IcpHandler.Concurrency.Wal
import IcpHandler.Model.DocumentStore
import IcpHandler.Model.Outbox

/-
  The updates of the stores on SQLite, statement by statement.
  Each is a transaction that reads a row with a SELECT and then
  writes it with an UPDATE; here is what happens in between,
  and that a transaction on its own is the update of the store.

  Main declarations:
    * `StoreTable`, `StoreTables`, `StoredRow`
    * `DocumentStore.change`, `WebhookOutbox.change`
    * `UpdateCall`, `UpdateCall.toChange`
    * `UpdateCall.alone`, `apply_toChange`
-/

------------------------------------------------------------
-- Tables
------------------------------------------------------------

namespace IcpHandler

namespace Model

open Data

/- The tables of the state file whose rows are updated. -/
inductive StoreTable where
  | transactions
  | subscriptions
  | peerQuotes
  | webhookDeliveries
  deriving DecidableEq

inductive StoredRow where
  | document (row : DocumentRow)
  | delivery (row : DeliveryRow)

structure StoreTables where
  transactions : DocumentTable
  subscriptions : DocumentTable
  peerQuotes : DocumentTable
  outbox : WebhookOutbox

/- The row of the outbox on SQLite. -/
def WebhookOutbox.row?
    (outbox : WebhookOutbox)
    (id : String) : Option DeliveryRow :=
  match outbox with
  | .memory _ => none
  | .sqlite rows => rows.get id

/- The row under an id in a table. -/
def StoreTables.row
    (tables : StoreTables) :
    StoreTable × String → Option StoredRow
  | (.transactions, id) =>
      (tables.transactions.get id).map .document
  | (.subscriptions, id) =>
      (tables.subscriptions.get id).map .document
  | (.peerQuotes, id) =>
      (tables.peerQuotes.get id).map .document
  | (.webhookDeliveries, id) =>
      (tables.outbox.row? id).map .delivery

end Model

end IcpHandler

------------------------------------------------------------
-- Between the Statements
------------------------------------------------------------

namespace IcpHandler

namespace Model

open Data

/-
  `JsonStore::update`, from the row it has found to the row it
  writes and the record it returns.
-/
def DocumentStore.change
    {V I : Type}
    [Document V I]
    (rfc3339 : Rfc3339)
    (codec : Codec V)
    (f : V → V)
    (row : DocumentRow) : Option (DocumentRow × V) := do
  let value ← deserializePayload codec row
  let json ← (codec.encode (f value)).toOption
  let write : RowWrite :=
    ⟨json, indexColumns rfc3339 (f value)⟩
  pure (write.apply row, f value)

/- `WebhookOutbox::update`, in the same way. -/
def WebhookOutbox.change
    (rfc3339 : Rfc3339)
    (clock : DateTime)
    (patch : DeliveryPatch)
    (row : DeliveryRow) : DeliveryRow × WebhookDelivery :=
  let d := patch.apply (row.toDelivery rfc3339 clock)
  let write : DeliveryWrite :=
    .columns (DeliveryRow.columnsOf rfc3339 d)
  (write.apply row, d)

/- The three codecs of the document stores. -/
structure Codecs where
  transaction : Codec Transaction
  subscription : Codec Subscription
  peerQuote : Codec PeerQuote

/- A call of an `update`, with its closure. -/
inductive UpdateCall where
  | transaction
      (id : String)
      (f : Transaction → Transaction)
  | subscription
      (id : String)
      (f : Subscription → Subscription)
  | peerQuote
      (id : String)
      (f : PeerQuote → PeerQuote)
  | delivery
      (id : String)
      (patch : DeliveryPatch)
      (clock : DateTime)

/- The record of the call, after its closure. -/
inductive UpdatedRecord where
  | transaction (txn : Transaction)
  | subscription (sub : Subscription)
  | peerQuote (quote : PeerQuote)
  | delivery (d : WebhookDelivery)

/- A change of documents is one of the rows of their table. -/
def documentChange
    {V : Type}
    (change : DocumentRow → Option (DocumentRow × V))
    (record : V → UpdatedRecord) :
    StoredRow → Option (StoredRow × UpdatedRecord)
  | .document row =>
      (change row).map fun changed =>
        (.document changed.1, record changed.2)
  | .delivery _ => none

def deliveryChange
    (change : DeliveryRow → DeliveryRow × WebhookDelivery) :
    StoredRow → Option (StoredRow × UpdatedRecord)
  | .document _ => none
  | .delivery row =>
      let changed := change row
      some (.delivery changed.1, .delivery changed.2)

namespace UpdateCall

variable (rfc3339 : Rfc3339) (codecs : Codecs)

/- The transaction of the call: what it reads and writes. -/
def toChange :
    UpdateCall →
      Concurrency.Wal.Change (StoreTable × String) StoredRow
        UpdatedRecord
  | .transaction id f =>
      { key := (.transactions, id)
        change :=
          documentChange
            (DocumentStore.change rfc3339 codecs.transaction f)
            .transaction }
  | .subscription id f =>
      { key := (.subscriptions, id)
        change :=
          documentChange
            (DocumentStore.change rfc3339 codecs.subscription f)
            .subscription }
  | .peerQuote id f =>
      { key := (.peerQuotes, id)
        change :=
          documentChange
            (DocumentStore.change rfc3339 codecs.peerQuote f)
            .peerQuote }
  | .delivery id patch clock =>
      { key := (.webhookDeliveries, id)
        change :=
          deliveryChange
            (WebhookOutbox.change rfc3339 clock patch) }

/- The update of the store, with nothing else going on. -/
def alone
    (tables : StoreTables) : UpdateCall → StoreTables
  | .transaction id f =>
      { tables with
        transactions :=
          DocumentStore.update rfc3339 codecs.transaction false
            tables.transactions id f }
  | .subscription id f =>
      { tables with
        subscriptions :=
          DocumentStore.update rfc3339 codecs.subscription false
            tables.subscriptions id f }
  | .peerQuote id f =>
      { tables with
        peerQuotes :=
          DocumentStore.update rfc3339 codecs.peerQuote false
            tables.peerQuotes id f }
  | .delivery id patch clock =>
      { tables with
        outbox := tables.outbox.update rfc3339 clock id patch }

end UpdateCall

end Model

end IcpHandler

------------------------------------------------------------
-- An Update on Its Own
------------------------------------------------------------

namespace IcpHandler

namespace Model

open Data Concurrency

section Alone

variable {rfc3339 : Rfc3339} {codecs : Codecs}
variable {tables : StoreTables}

/- The update of a document store writes what it should. -/
theorem DocumentStore.get_update
    {V I : Type}
    [Document V I]
    (codec : Codec V)
    (table : DocumentTable)
    (id : String)
    (f : V → V)
    (key : String) :
    (DocumentStore.update rfc3339 codec false table id f).get
        key =
      match (table.get id).bind
          (DocumentStore.change rfc3339 codec f) with
      | none => table.get key
      | some (row, _) =>
          if key = id then some row else table.get key := by
  unfold DocumentStore.update
  cases hRow : table.get id with
  | none => rfl
  | some row =>
      rw [Option.bind_some]
      cases hRead : deserializePayload codec row with
      | none =>
          have hChange :
              DocumentStore.change rfc3339 codec f row = none := by
            rw [DocumentStore.change, hRead]
            rfl
          rw [hChange]
          simp only [hRead]
      | some value =>
          cases hWrite : codec.encode (f value) with
          | error e =>
              have hChange :
                  DocumentStore.change rfc3339 codec f row =
                    none := by
                rw [DocumentStore.change, hRead]
                dsimp only [bind, Option.bind]
                rw [hWrite]
                rfl
              rw [hChange]
              simp only [hRead, hWrite]
          | ok json =>
              have hChange :
                  DocumentStore.change rfc3339 codec f row =
                    some
                      ((⟨json, indexColumns rfc3339 (f value)⟩ :
                        RowWrite).apply row, f value) := by
                rw [DocumentStore.change, hRead]
                dsimp only [bind, Option.bind]
                rw [hWrite]
                rfl
              rw [hChange]
              simp only [hRead, hWrite, if_neg Bool.false_ne_true]
              rw [KeyedStore.get_update]
              by_cases hKey : key = id
              · subst hKey
                rw [if_pos rfl, if_pos rfl, hRow]
                rfl
              · rw [if_neg hKey, if_neg hKey]

/- What the call of a document store leaves in each table. -/
theorem apply_documentChange
    {V I : Type}
    [Document V I]
    {codec : Codec V}
    {f : V → V}
    {record : V → UpdatedRecord}
    {rows : StoreTable × String → Option StoredRow}
    {place : StoreTable}
    {table : DocumentTable}
    (hRows :
      ∀ key, rows (place, key) = (table.get key).map .document)
    (id : String)
    (other : StoreTable)
    (key : String) :
    (Wal.Change.mk (place, id)
        (documentChange (DocumentStore.change rfc3339 codec f)
          record)).apply rows (other, key) =
      if other = place then
        ((DocumentStore.update rfc3339 codec false table id f).get
          key).map .document
      else rows (other, key) := by
  rw [DocumentStore.get_update, Wal.Change.apply]
  dsimp only
  rw [hRows]
  cases hFound : (table.get id).bind
      (DocumentStore.change rfc3339 codec f) with
  | none =>
      have hNone :
          ((table.get id).map StoredRow.document).bind
              (documentChange
                (DocumentStore.change rfc3339 codec f) record) =
            none := by
        cases hRow : table.get id with
        | none => rfl
        | some row =>
            rw [hRow] at hFound
            change (DocumentStore.change rfc3339 codec f row).map
              _ = none
            rw [show DocumentStore.change rfc3339 codec f row =
              none from hFound]
            rfl
      rw [hNone]
      by_cases hOther : other = place
      · rw [if_pos hOther, hOther]
        exact hRows key
      · rw [if_neg hOther]
  | some changed =>
      obtain ⟨row, value⟩ := changed
      have hSome :
          ((table.get id).map StoredRow.document).bind
              (documentChange
                (DocumentStore.change rfc3339 codec f) record) =
            some (.document row, record value) := by
        cases hRow : table.get id with
        | none =>
            rw [hRow] at hFound
            cases hFound
        | some old =>
            rw [hRow] at hFound
            change (DocumentStore.change rfc3339 codec f old).map
              _ = _
            rw [show DocumentStore.change rfc3339 codec f old =
              some (row, value) from hFound]
            rfl
      rw [hSome]
      dsimp only
      by_cases hOther : other = place
      · rw [if_pos hOther, hOther]
        by_cases hKey : key = id
        · rw [hKey, if_pos rfl, Function.update_self]
          rfl
        · rw [if_neg hKey, ← hRows]
          refine Function.update_of_ne (fun hSame => ?_) _ _
          exact hKey (Prod.mk.inj hSame).2
      · rw [if_neg hOther]
        refine Function.update_of_ne (fun hSame => ?_) _ _
        exact hOther (Prod.mk.inj hSame).1

theorem WebhookOutbox.row?_update
    (outbox : WebhookOutbox)
    (id : String)
    (patch : DeliveryPatch)
    (clock : DateTime)
    (key : String) :
    (outbox.update rfc3339 clock id patch).row? key =
      match outbox.row? id with
      | none => outbox.row? key
      | some row =>
          if key = id then
            some (WebhookOutbox.change rfc3339 clock patch row).1
          else outbox.row? key := by
  cases outbox with
  | memory rows => rfl
  | sqlite rows =>
      unfold WebhookOutbox.update WebhookOutbox.row?
      cases hRow : rows.get id with
      | none => simp only [hRow]
      | some row =>
          simp only [hRow]
          rw [KeyedStore.get_update]
          by_cases hKey : key = id
          · subst hKey
            rw [if_pos rfl, if_pos rfl, hRow]
            rfl
          · rw [if_neg hKey, if_neg hKey]

/- What the call of the outbox leaves in each table. -/
theorem apply_deliveryChange
    (id : String)
    (patch : DeliveryPatch)
    (clock : DateTime)
    (other : StoreTable)
    (key : String) :
    (Wal.Change.mk (StoreTable.webhookDeliveries, id)
        (deliveryChange
          (WebhookOutbox.change rfc3339 clock patch))).apply
        tables.row (other, key) =
      if other = .webhookDeliveries then
        ((tables.outbox.update rfc3339 clock id patch).row?
          key).map .delivery
      else tables.row (other, key) := by
  rw [WebhookOutbox.row?_update, Wal.Change.apply]
  dsimp only
  have hRow :
      ∀ key, tables.row (.webhookDeliveries, key) =
        (tables.outbox.row? key).map .delivery :=
    fun _ => rfl
  rw [hRow]
  cases hFound : tables.outbox.row? id with
  | none =>
      by_cases hOther : other = .webhookDeliveries
      · rw [if_pos hOther, hOther]
        exact hRow key
      · rw [if_neg hOther]
        rfl
  | some row =>
      have hSome :
          ((some row).map StoredRow.delivery).bind
              (deliveryChange
                (WebhookOutbox.change rfc3339 clock patch)) =
            some
              (.delivery
                (WebhookOutbox.change rfc3339 clock patch row).1,
              .delivery
                (WebhookOutbox.change rfc3339 clock patch
                  row).2) :=
        rfl
      rw [hSome]
      dsimp only
      by_cases hOther : other = .webhookDeliveries
      · rw [if_pos hOther, hOther]
        by_cases hKey : key = id
        · rw [hKey, if_pos rfl, Function.update_self]
          rfl
        · rw [if_neg hKey, ← hRow]
          refine Function.update_of_ne (fun hSame => ?_) _ _
          exact hKey (Prod.mk.inj hSame).2
      · rw [if_neg hOther]
        refine Function.update_of_ne (fun hSame => ?_) _ _
        exact hOther (Prod.mk.inj hSame).1

/-
  On its own, the transaction of a call is the update of the
  store.
-/
theorem apply_toChange (call : UpdateCall) :
    (call.toChange rfc3339 codecs).apply tables.row =
      (call.alone rfc3339 codecs tables).row := by
  funext ⟨other, key⟩
  cases call with
  | transaction id f =>
      rw [UpdateCall.toChange,
        apply_documentChange (fun _ => rfl)]
      cases other <;> rfl
  | subscription id f =>
      rw [UpdateCall.toChange,
        apply_documentChange (fun _ => rfl)]
      cases other <;> rfl
  | peerQuote id f =>
      rw [UpdateCall.toChange,
        apply_documentChange (fun _ => rfl)]
      cases other <;> rfl
  | delivery id patch clock =>
      rw [UpdateCall.toChange, apply_deliveryChange]
      cases other <;> rfl

end Alone

end Model

end IcpHandler
