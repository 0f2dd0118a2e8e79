import IcpHandler.Concurrency.Trace
import IcpHandler.Model.World

/-
  What one occurrence does to the world, told store by store:
  the rows it changes and how, the rows it reads, the locks it
  takes, and the tokens it draws.

  Main declarations:
    * `Executes`
    * `Executes.framed`
    * `Executes.txnChange`, `Executes.subChange`
    * `Executes.lock`, `Executes.token`
-/

------------------------------------------------------------
-- Effects that Touch a Store
------------------------------------------------------------

namespace IcpHandler

namespace Model

open Concurrency

/- An effect of the service that somebody has performed. -/
abbrev Happening := Occurrence Eff.Res World

/- The service's past, most recent first. -/
abbrev Past := List Happening

/- The occurrence is one the machine can make. -/
def Executes
    (rfc3339 : Rfc3339)
    (o : Happening) : Prop :=
  ∃ choice, execEff rfc3339 o.thread choice o.before o.effect =
    some (o.answer, o.after)

theorem executes_of_allows
    {rfc3339 : Rfc3339}
    {h : History Eff.Res World}
    {o : Happening}
    (hAllows : (machine rfc3339).Allows h o) :
    Executes rfc3339 o := by
  rcases hAllows.exec_eq with ⟨choice, hExec⟩
  refine ⟨choice, ?_⟩
  rw [hAllows.before_eq]
  exact hExec

namespace Eff

/- Writes the transaction store. -/
def touchesTxns : Eff → Bool
  | .txns (.insert _) | .txns (.update _ _) => true
  | .insertCharge _ _ => true
  | _ => false

/- Writes the subscription store. -/
def touchesSubs : Eff → Bool
  | .subs (.insert _) | .subs (.update _ _) => true
  | _ => false

/- Writes the peer quote store. -/
def touchesQuotes : Eff → Bool
  | .quotes (.insert _) | .quotes (.update _ _) => true
  | _ => false

def isLocking : Eff → Bool
  | .lock _ | .unlock _ => true
  | _ => false

/- Writes the ledger or the orders. -/
def spends : Eff → Bool
  | .recordSpend _ _ _ _ _ => true
  | .createOrder _ _ _ _ => true
  | _ => false

/- Writes no store of rows, and takes no lock. -/
def isQuiet (effect : Eff) : Bool :=
  !effect.touchesTxns && !effect.touchesSubs &&
    !effect.touchesQuotes && !effect.isLocking

/- Puts an event on the bus. -/
def announces : Eff → Bool
  | .emit _ => true
  | _ => false

/- Quiet, and spends nothing either. -/
def isIdle (effect : Eff) : Bool :=
  effect.isQuiet && !effect.spends

end Eff

end Model

end IcpHandler

------------------------------------------------------------
-- Frames
------------------------------------------------------------

namespace IcpHandler

namespace Model

/- What an effect leaves alone, by its kind. -/
structure Framed
    (effect : Eff)
    (before after : World) : Prop where
  transactions :
    effect.touchesTxns = false →
      after.transactions = before.transactions
  subscriptions :
    effect.touchesSubs = false →
      after.subscriptions = before.subscriptions
  peerQuotes :
    effect.touchesQuotes = false →
      after.peerQuotes = before.peerQuotes
  locks :
    effect.isLocking = false → after.locks = before.locks
  issued : effect ≠ .uuid → after.issued = before.issued
  ledger :
    effect.spends = false → after.ledger = before.ledger
  orders :
    effect.spends = false → after.orders = before.orders

theorem Framed.refl
    {effect : Eff}
    (w : World) :
    Framed effect w w :=
  ⟨fun _ => rfl, fun _ => rfl, fun _ => rfl, fun _ => rfl,
    fun _ => rfl, fun _ => rfl, fun _ => rfl⟩

end Model

end IcpHandler

------------------------------------------------------------
-- Rows
------------------------------------------------------------

namespace IcpHandler

namespace Model

open Concurrency

section Rows

variable {rfc3339 : Rfc3339}
variable {o : Happening}

/- What an occurrence can do to the transaction `id`. -/
inductive TxnChange
    (id : String)
    (o : Happening) : Prop where
  | kept
      (hKept :
        o.after.transactions.get id =
          o.before.transactions.get id)
  | inserted
      (row : Transaction)
      (hEffect :
        o.effect = .txns (.insert row) ∨
          ∃ bills, o.effect = .insertCharge row bills)
      (hId : row.id = id)
      (hAfter : o.after.transactions.get id = some row)
  | patched
      (patch : TxnPatch)
      (row : Transaction)
      (hMove :
        o.move =
          ⟨.txns (.update id patch), some (patch.apply row)⟩)
      (hBefore : o.before.transactions.get id = some row)
      (hAfter :
        o.after.transactions.get id = some (patch.apply row))

/- What an occurrence can do to the subscription `id`. -/
inductive SubChange
    (id : String)
    (o : Happening) : Prop where
  | kept
      (hKept :
        o.after.subscriptions.get id =
          o.before.subscriptions.get id)
  | inserted
      (row : Subscription)
      (hEffect : o.effect = .subs (.insert row))
      (hId : row.id = id)
      (hAfter : o.after.subscriptions.get id = some row)
  | patched
      (patch : SubPatch)
      (row : Subscription)
      (hMove :
        o.move =
          ⟨.subs (.update id patch), some (patch.apply row)⟩)
      (hBefore : o.before.subscriptions.get id = some row)
      (hAfter :
        o.after.subscriptions.get id = some (patch.apply row))

/- What an occurrence can do to the peer quote `id`. -/
inductive QuoteChange
    (id : String)
    (o : Happening) : Prop where
  | kept
      (hKept :
        o.after.peerQuotes.get id = o.before.peerQuotes.get id)
  | inserted
      (row : PeerQuote)
      (hEffect : o.effect = .quotes (.insert row))
      (hId : row.id = id)
      (hAfter : o.after.peerQuotes.get id = some row)
  | patched
      (patch : QuotePatch)
      (row : PeerQuote)
      (hMove :
        o.move =
          ⟨.quotes (.update id patch), some (patch.apply row)⟩)
      (hBefore : o.before.peerQuotes.get id = some row)
      (hAfter :
        o.after.peerQuotes.get id = some (patch.apply row))

namespace Executes

/- An effect only changes the part of the world it names. -/
theorem framed
    (hExec : Executes rfc3339 o) :
    Framed o.effect o.before o.after := by
  rcases o with ⟨thread, effect, answer, before, after⟩
  rcases hExec with ⟨choice, hExec⟩
  dsimp only at hExec ⊢
  cases effect with
  | txns op =>
      unfold execEff at hExec
      simp only [Option.map_eq_some_iff] at hExec
      rcases hExec with ⟨⟨found, store⟩, hStore, hResult⟩
      cases hResult
      refine ⟨fun hQuiet => ?_, fun _ => rfl, fun _ => rfl,
        fun _ => rfl, fun _ => rfl, fun _ => rfl,
        fun _ => rfl⟩
      refine Data.StoreOp.exec_of_target_none hStore ?_
      cases op with
      | insert row => cases hQuiet
      | update id patch => cases hQuiet
      | _ => rfl
  | subs op =>
      unfold execEff at hExec
      simp only [Option.map_eq_some_iff] at hExec
      rcases hExec with ⟨⟨found, store⟩, hStore, hResult⟩
      cases hResult
      refine ⟨fun _ => rfl, fun hQuiet => ?_, fun _ => rfl,
        fun _ => rfl, fun _ => rfl, fun _ => rfl,
        fun _ => rfl⟩
      refine Data.StoreOp.exec_of_target_none hStore ?_
      cases op with
      | insert row => cases hQuiet
      | update id patch => cases hQuiet
      | _ => rfl
  | quotes op =>
      unfold execEff at hExec
      simp only [Option.map_eq_some_iff] at hExec
      rcases hExec with ⟨⟨found, store⟩, hStore, hResult⟩
      cases hResult
      refine ⟨fun _ => rfl, fun _ => rfl, fun hQuiet => ?_,
        fun _ => rfl, fun _ => rfl, fun _ => rfl,
        fun _ => rfl⟩
      refine Data.StoreOp.exec_of_target_none hStore ?_
      cases op with
      | insert row => cases hQuiet
      | update id patch => cases hQuiet
      | _ => rfl
  | insertCharge txn bills =>
      cases hExec
      exact ⟨(fun hQuiet => nomatch hQuiet), fun _ => rfl,
        fun _ => rfl, fun _ => rfl, fun _ => rfl,
        fun _ => rfl, fun _ => rfl⟩
  | uuid =>
      unfold execEff at hExec
      dsimp only at hExec
      split at hExec
      · cases hExec
        exact ⟨fun _ => rfl, fun _ => rfl, fun _ => rfl,
          fun _ => rfl, fun hOther => absurd rfl hOther,
          fun _ => rfl, fun _ => rfl⟩
      · cases hExec
  | lock key =>
      unfold execEff at hExec
      dsimp only at hExec
      split at hExec
      · cases hExec
      · cases hExec
        exact ⟨fun _ => rfl, fun _ => rfl, fun _ => rfl,
          (fun hQuiet => nomatch hQuiet), fun _ => rfl,
          fun _ => rfl, fun _ => rfl⟩
  | unlock key =>
      cases hExec
      exact ⟨fun _ => rfl, fun _ => rfl, fun _ => rfl,
        (fun hQuiet => nomatch hQuiet), fun _ => rfl,
        fun _ => rfl, fun _ => rfl⟩
  | recordSpend jti tenantId amount now limits =>
      cases hExec
      exact ⟨fun _ => rfl, fun _ => rfl, fun _ => rfl,
        fun _ => rfl, fun _ => rfl,
        (fun hQuiet => nomatch hQuiet), fun _ => rfl⟩
  | createOrder buyer currency lineItems total =>
      refine ⟨fun _ => ?_, fun _ => ?_, fun _ => ?_,
        fun _ => ?_, fun _ => ?_, fun _ => ?_,
        (fun hQuiet => nomatch hQuiet)⟩
      all_goals
        unfold execEff at hExec
        dsimp only at hExec
        split at hExec
        · cases hExec
          rfl
        · cases hExec
          rfl
  | insertReceipt receipt =>
      unfold execEff at hExec
      simp only [Option.some.injEq, Prod.mk.injEq] at hExec
      rcases hExec with ⟨-, rfl⟩
      split
      · exact Framed.refl _
      · exact ⟨fun _ => rfl, fun _ => rfl, fun _ => rfl,
          fun _ => rfl, fun _ => rfl, fun _ => rfl, fun _ => rfl⟩
  | enqueue delivery =>
      unfold execEff at hExec
      simp only [Option.some.injEq, Prod.mk.injEq] at hExec
      rcases hExec with ⟨-, rfl⟩
      split
      · exact Framed.refl _
      · exact ⟨fun _ => rfl, fun _ => rfl, fun _ => rfl,
          fun _ => rfl, fun _ => rfl, fun _ => rfl, fun _ => rfl⟩
  | _ =>
      cases hExec
      exact ⟨fun _ => rfl, fun _ => rfl, fun _ => rfl,
        fun _ => rfl, fun _ => rfl, fun _ => rfl, fun _ => rfl⟩

theorem txnChange
    (hExec : Executes rfc3339 o)
    (id : String) :
    TxnChange id o := by
  cases hTouch : o.effect.touchesTxns with
  | false =>
      refine .kept ?_
      rw [hExec.framed.transactions hTouch]
  | true =>
      rcases o with ⟨thread, effect, answer, before, after⟩
      rcases hExec with ⟨choice, hExec⟩
      dsimp only at hExec hTouch
      cases effect with
      | txns op =>
          unfold execEff at hExec
          simp only [Option.map_eq_some_iff] at hExec
          rcases hExec with ⟨⟨found, store⟩, hStore, hResult⟩
          cases hResult
          rcases Data.StoreOp.exec_get_cases hStore id with
            hKept | ⟨row, rfl, hId, hAfter⟩ |
              ⟨patch, row, rfl, hFound, hBefore, hAfter⟩
          · exact .kept hKept
          · exact .inserted row (.inl rfl) hId hAfter
          · cases hFound
            exact .patched patch row rfl hBefore hAfter
      | insertCharge txn bills =>
          cases hExec
          by_cases hFault : choice.fault = true
          · exact .kept (by simp [hFault])
          · by_cases hId : txn.id = id
            · refine .inserted txn (.inr ⟨bills, rfl⟩) hId ?_
              subst hId
              simp only [hFault]
              exact Data.KeyedStore.get_insert_self _ txn
            · refine .kept ?_
              simp only [hFault]
              exact Data.KeyedStore.get_insert_ne _
                (Ne.symm hId)
      | _ => cases hTouch

theorem subChange
    (hExec : Executes rfc3339 o)
    (id : String) :
    SubChange id o := by
  cases hTouch : o.effect.touchesSubs with
  | false =>
      refine .kept ?_
      rw [hExec.framed.subscriptions hTouch]
  | true =>
      rcases o with ⟨thread, effect, answer, before, after⟩
      rcases hExec with ⟨choice, hExec⟩
      dsimp only at hExec hTouch
      cases effect with
      | subs op =>
          unfold execEff at hExec
          simp only [Option.map_eq_some_iff] at hExec
          rcases hExec with ⟨⟨found, store⟩, hStore, hResult⟩
          cases hResult
          rcases Data.StoreOp.exec_get_cases hStore id with
            hKept | ⟨row, rfl, hId, hAfter⟩ |
              ⟨patch, row, rfl, hFound, hBefore, hAfter⟩
          · exact .kept hKept
          · exact .inserted row rfl hId hAfter
          · cases hFound
            exact .patched patch row rfl hBefore hAfter
      | _ => cases hTouch

theorem quoteChange
    (hExec : Executes rfc3339 o)
    (id : String) :
    QuoteChange id o := by
  cases hTouch : o.effect.touchesQuotes with
  | false =>
      refine .kept ?_
      rw [hExec.framed.peerQuotes hTouch]
  | true =>
      rcases o with ⟨thread, effect, answer, before, after⟩
      rcases hExec with ⟨choice, hExec⟩
      dsimp only at hExec hTouch
      cases effect with
      | quotes op =>
          unfold execEff at hExec
          simp only [Option.map_eq_some_iff] at hExec
          rcases hExec with ⟨⟨found, store⟩, hStore, hResult⟩
          cases hResult
          rcases Data.StoreOp.exec_get_cases hStore id with
            hKept | ⟨row, rfl, hId, hAfter⟩ |
              ⟨patch, row, rfl, hFound, hBefore, hAfter⟩
          · exact .kept hKept
          · exact .inserted row rfl hId hAfter
          · cases hFound
            exact .patched patch row rfl hBefore hAfter
      | _ => cases hTouch

/- Rows are never deleted. -/
theorem txn_kept
    (hExec : Executes rfc3339 o)
    {id : String}
    (hStored : (o.before.transactions.get id).isSome) :
    (o.after.transactions.get id).isSome := by
  cases hExec.txnChange id with
  | kept hKept => rwa [hKept]
  | inserted row _ _ hAfter => simp [hAfter]
  | patched patch row _ _ hAfter => simp [hAfter]

theorem sub_kept
    (hExec : Executes rfc3339 o)
    {id : String}
    (hStored : (o.before.subscriptions.get id).isSome) :
    (o.after.subscriptions.get id).isSome := by
  cases hExec.subChange id with
  | kept hKept => rwa [hKept]
  | inserted row _ _ hAfter => simp [hAfter]
  | patched patch row _ _ hAfter => simp [hAfter]

end Executes

end Rows

end Model

end IcpHandler

------------------------------------------------------------
-- Reads
------------------------------------------------------------

namespace IcpHandler

namespace Model

open Concurrency

section Reads

variable {rfc3339 : Rfc3339}
variable {o : Happening}

namespace Executes

/- A read that answers with a row has found it. -/
theorem readTxn
    (hExec : Executes rfc3339 o)
    {id : String}
    {txn : Transaction}
    (hMove : o.move = ⟨.txns (.get id), some txn⟩) :
    o.before.transactions.get id = some txn := by
  rcases o with ⟨thread, effect, answer, before, after⟩
  rcases hExec with ⟨choice, hExec⟩
  cases hMove
  unfold execEff at hExec
  simp only [Option.map_eq_some_iff] at hExec
  rcases hExec with ⟨⟨found, store⟩, hStore, hResult⟩
  cases hResult
  exact (Data.StoreOp.exec_get hStore).2 txn rfl

theorem readSub
    (hExec : Executes rfc3339 o)
    {id : String}
    {sub : Subscription}
    (hMove : o.move = ⟨.subs (.get id), some sub⟩) :
    o.before.subscriptions.get id = some sub := by
  rcases o with ⟨thread, effect, answer, before, after⟩
  rcases hExec with ⟨choice, hExec⟩
  cases hMove
  unfold execEff at hExec
  simp only [Option.map_eq_some_iff] at hExec
  rcases hExec with ⟨⟨found, store⟩, hStore, hResult⟩
  cases hResult
  exact (Data.StoreOp.exec_get hStore).2 sub rfl

theorem readQuote
    (hExec : Executes rfc3339 o)
    {id : String}
    {quote : PeerQuote}
    (hMove : o.move = ⟨.quotes (.get id), some quote⟩) :
    o.before.peerQuotes.get id = some quote := by
  rcases o with ⟨thread, effect, answer, before, after⟩
  rcases hExec with ⟨choice, hExec⟩
  cases hMove
  unfold execEff at hExec
  simp only [Option.map_eq_some_iff] at hExec
  rcases hExec with ⟨⟨found, store⟩, hStore, hResult⟩
  cases hResult
  exact (Data.StoreOp.exec_get hStore).2 quote rfl

/- An update that lands answers with the patched row. -/
theorem updatedTxn
    (hExec : Executes rfc3339 o)
    {id : String}
    {patch : TxnPatch}
    {updated : Transaction}
    (hMove :
      o.move = ⟨.txns (.update id patch), some updated⟩) :
    ∃ row, o.before.transactions.get id = some row ∧
      updated = patch.apply row ∧
      o.after.transactions.get id = some updated := by
  rcases o with ⟨thread, effect, answer, before, after⟩
  rcases hExec with ⟨choice, hExec⟩
  cases hMove
  unfold execEff at hExec
  simp only [Option.map_eq_some_iff] at hExec
  rcases hExec with ⟨⟨found, store⟩, hStore, hResult⟩
  cases hResult
  exact Data.StoreOp.exec_updated hStore

theorem updatedSub
    (hExec : Executes rfc3339 o)
    {id : String}
    {patch : SubPatch}
    {updated : Subscription}
    (hMove :
      o.move = ⟨.subs (.update id patch), some updated⟩) :
    ∃ row, o.before.subscriptions.get id = some row ∧
      updated = patch.apply row ∧
      o.after.subscriptions.get id = some updated := by
  rcases o with ⟨thread, effect, answer, before, after⟩
  rcases hExec with ⟨choice, hExec⟩
  cases hMove
  unfold execEff at hExec
  simp only [Option.map_eq_some_iff] at hExec
  rcases hExec with ⟨⟨found, store⟩, hStore, hResult⟩
  cases hResult
  exact Data.StoreOp.exec_updated hStore

theorem updatedQuote
    (hExec : Executes rfc3339 o)
    {id : String}
    {patch : QuotePatch}
    {updated : PeerQuote}
    (hMove :
      o.move = ⟨.quotes (.update id patch), some updated⟩) :
    ∃ row, o.before.peerQuotes.get id = some row ∧
      updated = patch.apply row ∧
      o.after.peerQuotes.get id = some updated := by
  rcases o with ⟨thread, effect, answer, before, after⟩
  rcases hExec with ⟨choice, hExec⟩
  cases hMove
  unfold execEff at hExec
  simp only [Option.map_eq_some_iff] at hExec
  rcases hExec with ⟨⟨found, store⟩, hStore, hResult⟩
  cases hResult
  exact Data.StoreOp.exec_updated hStore

/- An order is made with the total that was asked for. -/
theorem createdOrder
    (hExec : Executes rfc3339 o)
    {buyer : Buyer}
    {currency : String}
    {items : List LineItem}
    {total : Money}
    {order : PersistedOrder}
    (hMove :
      o.move =
        ⟨.createOrder buyer currency items total, .ok order⟩) :
    order.total = total := by
  rcases o with ⟨thread, effect, answer, before, after⟩
  rcases hExec with ⟨choice, hExec⟩
  cases hMove
  unfold execEff at hExec
  dsimp only at hExec
  split at hExec
  · cases hExec
  · cases hExec
    rfl

/- A listing names stored rows that are due, each once. -/
theorem listTxns
    (hExec : Executes rfc3339 o)
    {now : DateTime}
    {due : List Transaction}
    (hMove : o.move = ⟨.txns (.listDue now), due⟩) :
    (∀ txn ∈ due,
        o.before.transactions.get txn.id = some txn ∧
          txn.state.isOpen = true) ∧
      (due.map Transaction.id).Nodup := by
  rcases o with ⟨thread, effect, answer, before, after⟩
  rcases hExec with ⟨choice, hExec⟩
  cases hMove
  unfold execEff at hExec
  simp only [Option.map_eq_some_iff] at hExec
  rcases hExec with ⟨⟨found, store⟩, hStore, hResult⟩
  cases hResult
  refine ⟨fun txn hTxn => ?_,
    Data.StoreOp.exec_listDue_nodup hStore⟩
  rcases (Data.StoreOp.exec_listDue hStore).2 txn hTxn with
    ⟨hGet, hDue⟩
  have hBoth :
      (txn.state.isOpen && txn.quoteLapsed now) = true := hDue
  exact ⟨hGet, (Bool.and_eq_true_iff.mp hBoth).1⟩

theorem listQuotes
    (hExec : Executes rfc3339 o)
    {now : DateTime}
    {due : List PeerQuote}
    (hMove : o.move = ⟨.quotes (.listDue now), due⟩) :
    ∀ quote ∈ due,
      o.before.peerQuotes.get quote.id = some quote ∧
        (quote.status = .pending ∨ quote.status = .quoted) := by
  rcases o with ⟨thread, effect, answer, before, after⟩
  rcases hExec with ⟨choice, hExec⟩
  cases hMove
  unfold execEff at hExec
  simp only [Option.map_eq_some_iff] at hExec
  rcases hExec with ⟨⟨found, store⟩, hStore, hResult⟩
  cases hResult
  intro quote hQuote
  rcases (Data.StoreOp.exec_listDue hStore).2 quote hQuote with
    ⟨hGet, hDue⟩
  have hBoth :
      ((quote.status == .pending || quote.status == .quoted) &&
        quote.expiresAt ≤ now) = true := hDue
  simp only [Bool.and_eq_true, Bool.or_eq_true,
    beq_iff_eq] at hBoth
  exact ⟨hGet, hBoth.1⟩

theorem listSubs
    (hExec : Executes rfc3339 o)
    {now : DateTime}
    {due : List Subscription}
    (hMove : o.move = ⟨.subs (.listDue now), due⟩) :
    ∀ sub ∈ due,
      o.before.subscriptions.get sub.id = some sub ∧
        (sub.status = .active ∨ sub.status = .trialing) := by
  rcases o with ⟨thread, effect, answer, before, after⟩
  rcases hExec with ⟨choice, hExec⟩
  cases hMove
  unfold execEff at hExec
  simp only [Option.map_eq_some_iff] at hExec
  rcases hExec with ⟨⟨found, store⟩, hStore, hResult⟩
  cases hResult
  intro sub hSub
  rcases (Data.StoreOp.exec_listDue hStore).2 sub hSub with
    ⟨hGet, hDue⟩
  have hAll :
      ((sub.status == .active || sub.status == .trialing) &&
        sub.nextChargeAt ≤ now &&
          sub.paymentInstrument.isSome) = true := hDue
  simp only [Bool.and_eq_true, Bool.or_eq_true,
    beq_iff_eq] at hAll
  exact ⟨hGet, hAll.1.1⟩

end Executes

end Reads

end Model

end IcpHandler

------------------------------------------------------------
-- Locks and Tokens
------------------------------------------------------------

namespace IcpHandler

namespace Model

open Concurrency

section Locks

variable {rfc3339 : Rfc3339}
variable {o : Happening}

namespace Executes

/- A lock is taken where nobody holds it. -/
theorem lock
    (hExec : Executes rfc3339 o)
    {key : String}
    (hEffect : o.effect = .lock key) :
    key ∉ o.before.locks.map Prod.fst ∧
      o.after.locks = (key, o.thread) :: o.before.locks := by
  rcases o with ⟨thread, effect, answer, before, after⟩
  rcases hExec with ⟨choice, hExec⟩
  cases hEffect
  unfold execEff at hExec
  dsimp only at hExec
  split at hExec
  · cases hExec
  · rename_i hFree
    cases hExec
    exact ⟨hFree, rfl⟩

theorem unlock
    (hExec : Executes rfc3339 o)
    {key : String}
    (hEffect : o.effect = .unlock key) :
    o.after.locks = o.before.locks.erase (key, o.thread) := by
  rcases o with ⟨thread, effect, answer, before, after⟩
  rcases hExec with ⟨choice, hExec⟩
  cases hEffect
  dsimp only at hExec ⊢
  cases hExec
  rfl

/- A token is drawn unused, and remembered. -/
theorem token
    (hExec : Executes rfc3339 o)
    {token : String}
    (hMove : o.move = ⟨.uuid, token⟩) :
    o.before.Unused token ∧
      o.after.issued = (token, o.thread) :: o.before.issued := by
  rcases o with ⟨thread, effect, answer, before, after⟩
  rcases hExec with ⟨choice, hExec⟩
  cases hMove
  unfold execEff at hExec
  dsimp only at hExec
  split at hExec
  · rename_i hUnused
    cases hExec
    exact ⟨hUnused, rfl⟩
  · cases hExec

end Executes

end Locks

end Model

end IcpHandler
