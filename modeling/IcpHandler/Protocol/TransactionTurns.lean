import IcpHandler.Protocol.IntentTurns
import IcpHandler.Protocol.PlainBlocks
import IcpHandler.Protocol.Turns

/-
  Operations that run alone, told by one transaction's row:
  what an authorization, a purchase, a counter-offer and an
  expiry tick make of it.

  Main declarations:
    * `rowOf`, `Aside`, `txnView`
    * `does_transactionForInput`, `does_updateTxn`
    * `Acceptable`, `OfferDone`, `does_doNegotiate`
-/

------------------------------------------------------------
-- The Row of a Transaction
------------------------------------------------------------

namespace IcpHandler

namespace Protocol

open Model Service Concurrency

def rowOf (id : String) (h : Log) : Option Transaction :=
  h.world.transactions.get id

/- The effect may write the row. -/
def writesRow (id : String) : Eff → Bool
  | .txns (.insert row) => row.id == id
  | .txns (.update key _) => key == id
  | .insertCharge row _ => row.id == id
  | _ => false

def Aside (id : String) (effect : Eff) : Prop :=
  writesRow id effect = false

theorem aside_of_untouched
    {id : String}
    {effect : Eff}
    (hQuiet : effect.touchesTxns = false) :
    Aside id effect := by
  cases effect with
  | txns op =>
      cases op with
      | insert row => cases hQuiet
      | update key patch => cases hQuiet
      | _ => rfl
  | insertCharge txn bills => cases hQuiet
  | _ => rfl

theorem aside_of_quiet
    {id : String}
    {effect : Eff}
    (hQuiet : effect.isQuiet = true) :
    Aside id effect := by
  refine aside_of_untouched ?_
  simp only [Eff.isQuiet, Bool.and_eq_true,
    Bool.not_eq_true'] at hQuiet
  exact hQuiet.1.1.1

theorem aside_of_idle
    {id : String}
    {effect : Eff}
    (hIdle : effect.isIdle = true) :
    Aside id effect :=
  aside_of_quiet (isIdle_iff.mp hIdle).1

theorem writesTxn_eq (id : String) (o : Happening) :
    writesTxn id o = writesRow id o.effect := by
  rcases o with ⟨thread, effect, answer, before, after⟩
  cases effect with
  | txns op =>
      cases op with
      | _ => rfl
  | _ => rfl

section Makes

variable {rfc3339 : Rfc3339} {fits : Choice → Prop}
variable {id : String} {h : Log} {o : Happening}

theorem executes_of_makes
    (hMakes : (machine rfc3339).Makes fits h o) :
    Executes rfc3339 o := by
  obtain ⟨hBefore, choice, -, hExec⟩ := hMakes
  rw [← hBefore] at hExec
  exact ⟨choice, hExec⟩

/- The row, as a view of the log. -/
def txnView
    (rfc3339 : Rfc3339)
    (fits : Choice → Prop)
    (id : String) : View rfc3339 fits (Option Transaction) where
  of := rowOf id
  quiet := Aside id
  keeps := by
    intro h o hMakes hAside
    have hKept := get_of_not_writesTxn
      (executes_of_makes hMakes)
      ((writesTxn_eq id o).trans hAside)
    rw [rowOf, rowOf, History.push_world, hKept, hMakes.1]

end Makes

end Protocol

end IcpHandler

------------------------------------------------------------
-- Reads and Writes of the Row
------------------------------------------------------------

namespace IcpHandler

namespace Protocol

open Model Service Concurrency

/- What an update makes of the row, and what it answers. -/
def RowPatched
    (patch : TxnPatch)
    (before after found : Option Transaction) : Prop :=
  (after = before.map patch.apply ∧ found = after) ∨
    (after = before ∧ found = none)

section Rows

variable {rfc3339 : Rfc3339} {fits : Choice → Prop}
variable {thread : Nat} {id : String} {h : Log}
variable {before : Option Transaction}
variable {input : IntentInput}

/- The clock reads a time that fits. -/
theorem does_now
    (hRow : rowOf id h = before)
    {Q : DateTime → Log → Prop}
    {X : Halt → Log → Prop}
    (hNext :
      ∀ choice later, fits choice → rowOf id later = before →
        Q choice.clock later) :
    (Svc.act .now).Does rfc3339 fits thread Q X h := by
  rw [Svc.does_act]
  intro now after hMakes
  have hKept := (txnView rfc3339 fits id).keeps hMakes rfl
  obtain ⟨-, choice, hFits, hExec⟩ := hMakes
  unfold machine execEff at hExec
  simp only [Option.some.injEq, Prod.mk.injEq] at hExec
  rw [← hExec.1]
  rw [← hExec.1] at hKept
  exact hNext choice _ hFits (hKept.trans hRow)

/- The caller's own transaction is the one that is stored. -/
theorem does_transactionForInput
    (hRow : rowOf id h = before)
    {Q : Transaction → Log → Prop}
    {X : Halt → Log → Prop}
    (hHalt :
      ∀ error later, rowOf id later = before →
        X (.error error) later)
    (hNext :
      ∀ txn later, before = some txn →
        txn.tenantId = input.tenant.tenantId →
        rowOf id later = before → Q txn later) :
    (transactionForInput id input).Does rfc3339 fits thread Q
      X h := by
  rw [transactionForInput, Svc.does_bind, Svc.does_act]
  intro found after hMakes
  have hRead :
      rowOf id (h.push
        ⟨thread, .txns (.get id), found, h.world, after⟩) =
        before :=
    ((txnView rfc3339 fits id).keeps hMakes rfl).trans hRow
  have hFound : ∀ txn, found = some txn → before = some txn := by
    rintro txn rfl
    rw [← hRow]
    exact (executes_of_makes hMakes).readTxn rfl
  rw [Svc.does_bind, Svc.does_orFail]
  refine ⟨fun txn hTxn => ?_, fun _ => hHalt _ _ hRead⟩
  rw [Svc.does_bind, Svc.does_ensure, beq_iff_eq]
  refine ⟨fun hOwner => ?_, fun _ => hHalt _ _ hRead⟩
  exact hNext txn _ (hFound txn hTxn) hOwner hRead

theorem aside_transactionForInput
    {key : String} :
    Svc.Only (Aside id) (transactionForInput key input) :=
  (hushed_transactionForInput key).mono fun _ hHushed =>
    aside_of_quiet hHushed.quiet

theorem does_updateTxn
    (hRow : rowOf id h = before)
    {patch : TxnPatch}
    {Q : Option Transaction → Log → Prop}
    {X : Halt → Log → Prop}
    (hNext :
      ∀ found later,
        RowPatched patch before (rowOf id later) found →
          Q found later) :
    (Svc.act (.txns (.update id patch))).Does rfc3339 fits
      thread Q X h := by
  subst hRow
  rw [Svc.does_act]
  intro found after hMakes
  refine hNext found _ ?_
  obtain ⟨-, choice, hFits, hExec⟩ := hMakes
  unfold machine execEff at hExec
  simp only [Option.map_eq_some_iff] at hExec
  obtain ⟨⟨answer, store⟩, hStore, hResult⟩ := hExec
  cases hResult
  cases hFault : choice.fault with
  | true =>
      rw [hFault] at hStore
      cases hStore
      exact .inr ⟨rfl, rfl⟩
  | false =>
      rw [hFault] at hStore
      cases hStore
      have hStored :
          (h.world.transactions.update id patch).get id =
            (h.world.transactions.get id).map patch.apply :=
        (Data.KeyedStore.get_update _ _ _ _).trans
          (if_pos rfl)
      exact .inl ⟨hStored, hStored.symm⟩

/- An update of another row. -/
theorem aside_update
    {key : String}
    (hOther : key ≠ id)
    (patch : TxnPatch) :
    Aside id (.txns (.update key patch)) :=
  beq_eq_false_iff_ne.mpr hOther

end Rows

end Protocol

end IcpHandler

------------------------------------------------------------
-- Counter-Offers
------------------------------------------------------------

namespace IcpHandler

namespace Protocol

open Model Service Concurrency

/- The total that an offer comes to. -/
def offeredMinor
    (svc : IcpService)
    (params : NegotiateParams)
    (originalMinor : Int64) : Int64 :=
  match params.proposedTotal with
  | some proposed => proposed.amountMinor
  | none =>
      Int64.ofInt
        ((originalMinor.toInt *
          svc.deps.pctScale (params.discountPct.getD 0)).tdiv
            10000)

/-
  The checks of a counter-offer. The deadline of the quote is
  not among them.
-/
structure Acceptable
    (svc : IcpService)
    (input : IntentInput)
    (params : NegotiateParams)
    (txn : Transaction) : Prop where
  offers :
    (params.proposedTotal.isSome ||
      params.discountPct.isSome) = true
  inRange : params.discountPct.all svc.deps.pctInRange = true
  nonneg :
    ∀ proposed, params.proposedTotal = some proposed →
      ¬ proposed.amountMinor < 0
  owner : txn.tenantId = input.tenant.tenantId
  quoted : txn.state = .quoted

/- What an offer writes into the row. -/
def offerPatch
    (svc : IcpService)
    (input : IntentInput)
    (params : NegotiateParams)
    (txn : Transaction)
    (now : DateTime) : TxnPatch :=
  let original := totalAmountMinor txn.totals
  let offered := offeredMinor svc params original
  .renegotiate original offered txn.currency
    (negotiationEntry svc input params offered txn.currency now)
    now

/- What a counter-offer that succeeds makes of the row. -/
inductive OfferDone
    (svc : IcpService)
    (input : IntentInput)
    (id : String)
    (before after : Option Transaction) : Prop where
  | other
      (params : NegotiateParams)
      (hParams :
        svc.deps.negotiateParams input.envelope.params =
          .ok params)
      (hOther : params.transactionId ≠ id)
      (hSame : after = before)
  | own
      (params : NegotiateParams)
      (hParams :
        svc.deps.negotiateParams input.envelope.params =
          .ok params)
      (txn : Transaction)
      (now : DateTime)
      (hRow : before = some txn)
      (hAcceptable : Acceptable svc input params txn)
      (hAfter :
        after =
          some ((offerPatch svc input params txn now).apply txn))

section Offers

variable {fits : Choice → Prop}
variable {thread : Nat} {id : String} {h : Log}
variable {before : Option Transaction}
variable {svc : IcpService} {input : IntentInput}

theorem aside_negotiatedTotal
    {params : NegotiateParams}
    {original : Int64} :
    Svc.Only (Aside id) (negotiatedTotal svc params original) :=
  (hushed_negotiatedTotal params original).mono
    fun _ hHushed => aside_of_quiet hHushed.quiet

/- The offered total, unless it is refused. -/
theorem does_negotiatedTotal
    (hRow : rowOf id h = before)
    {params : NegotiateParams}
    {original : Int64}
    {Q : Int64 → Log → Prop}
    {X : Halt → Log → Prop}
    (hHalt :
      ∀ error later, rowOf id later = before →
        X (.error error) later)
    (hNext :
      (∀ proposed, params.proposedTotal = some proposed →
        ¬ proposed.amountMinor < 0) →
      Q (offeredMinor svc params original) h) :
    (negotiatedTotal svc params original).Does
      svc.deps.rfc3339 fits thread Q X h := by
  unfold negotiatedTotal
  unfold offeredMinor at hNext
  split
  · rename_i proposed hProposed
    rw [hProposed] at hNext
    rw [Svc.does_bind, Svc.does_ensure]
    refine ⟨fun hCheck => hNext ?_, fun _ => hHalt _ h hRow⟩
    rintro other ⟨⟩
    simpa using hCheck
  · rename_i hNone
    rw [hNone] at hNext
    exact hNext fun _ hNo => nomatch hNo

/- An offer, under the lock of the transaction it names. -/
theorem does_doNegotiate (hRow : rowOf id h = before) :
    (doNegotiate svc input).Does svc.deps.rfc3339 fits thread
      (fun _ later =>
        OfferDone svc input id before (rowOf id later))
      (fun _ later => rowOf id later = before) h := by
  rw [doNegotiate, Svc.does_bind, Svc.does_ofExcept]
  refine ⟨fun params hParams => ?_, fun _ _ => hRow⟩
  rw [Svc.does_bind, Svc.does_ensure]
  refine ⟨fun hOffers => ?_, fun _ => hRow⟩
  rw [Svc.does_bind, Svc.does_ensure]
  refine ⟨fun hRange => ?_, fun _ => hRow⟩
  dsimp only
  let view := txnView svc.deps.rfc3339 fits id
  refine view.does_locked
    (Q := fun _ after => OfferDone svc input id before after)
    (X := fun _ after => after = before) ⟨rfl, rfl⟩ hRow
    fun locked hLocked => ?_
  by_cases hId : params.transactionId = id
  · subst hId
    rw [Svc.does_bind]
    refine does_transactionForInput hLocked
      (fun _ _ hSame => hSame) ?_
    intro txn read hTxn hOwner hRead
    rw [Svc.does_bind, Svc.does_ensure, beq_iff_eq]
    refine ⟨fun hQuoted => ?_, fun _ => hRead⟩
    rw [Svc.does_bind]
    refine does_negotiatedTotal hRead
      (fun _ _ hSame => hSame) fun hNonneg => ?_
    rw [Svc.does_bind]
    refine does_now hRead fun choice told _ hTold => ?_
    rw [Svc.does_bind]
    refine does_updateTxn hTold ?_
    intro found updated hPatched
    rw [Svc.does_bind, Svc.does_orFail]
    rcases hPatched with ⟨hAfter, hFound⟩ | ⟨hAfter, hFound⟩
    · rw [hTxn, Option.map_some] at hAfter
      refine ⟨fun row _ => ?_, fun hNone => ?_⟩
      · exact .own params hParams txn choice.clock hTxn
          ⟨hOffers, hRange, hNonneg, hOwner, hQuoted⟩ hAfter
      · rw [hFound, hAfter] at hNone
        cases hNone
    · refine ⟨fun row hSome => ?_, fun _ => hAfter⟩
      rw [hFound] at hSome
      cases hSome
  · refine view.does_after hLocked aside_transactionForInput
      (fun _ _ hSame => hSame) fun txn read hRead => ?_
    refine view.does_after hRead (Svc.Only.ensure _ _)
      (fun _ _ hSame => hSame) fun _ checked hChecked => ?_
    refine view.does_after hChecked aside_negotiatedTotal
      (fun _ _ hSame => hSame) fun total offered hOffered => ?_
    refine view.does_after hOffered (Svc.Only.act rfl)
      (fun _ _ hSame => hSame) fun now told hTold => ?_
    refine view.does_after hTold
      (Svc.Only.act (aside_update hId _))
      (fun _ _ hSame => hSame) fun found updated hUpdated => ?_
    refine view.does_after hUpdated (Svc.Only.orFail _ _)
      (fun _ _ hSame => hSame) fun row later hLater => ?_
    exact .other params hParams hId hLater

end Offers

end Protocol

end IcpHandler
