import IcpHandler.Protocol.PlainBlocks
import IcpHandler.Protocol.Sequential

/-
  Ticks that run alone, told by the books of one subscription:
  its row, the charges that were completed for it, and the
  mandate ledger.

  Main declarations:
    * `completedCharges`, `SubBooks`, `booksOf`
    * `does_elsewhere`, `does_act`, `does_after`
    * `does_getSub`, `does_updateSub`, `does_listDue`
    * `chargeMinor`, `does_charge`
    * `Billed`, `does_renewEach`
    * `Ticked`, `does_tickSubscriptions`
-/

------------------------------------------------------------
-- The Books of a Subscription
------------------------------------------------------------

namespace IcpHandler

namespace Protocol

open Model Service Concurrency

/- The stored transaction of a charge of the subscription. -/
def completedCharge
    (id : String) : Happening → Option Transaction
  | ⟨_, .insertCharge txn bills, _, _, after⟩ =>
      if bills.subscriptionId = id then
        (after.transactions.get txn.id).filter
          (·.state == .completed)
      else none
  | _ => none

/- The charges completed so far, most recent first. -/
def completedCharges
    (id : String)
    (past : Past) : List Transaction :=
  past.filterMap (completedCharge id)

/- The row and the charges of a subscription, and the spend. -/
structure SubBooks where
  row : Option Subscription
  charges : List Transaction
  ledger : MandateLedger

def booksOf (id : String) (h : Log) : SubBooks where
  row := h.world.subscriptions.get id
  charges := completedCharges id h.past
  ledger := h.world.ledger

/- The effect may write the row, charge for it, or spend. -/
def concerns (id : String) : Eff → Bool
  | .subs (.insert row) => row.id == id
  | .subs (.update key _) => key == id
  | .insertCharge _ bills => bills.subscriptionId == id
  | .recordSpend _ _ _ _ _ => true
  | _ => false

/- The effect has nothing to do with the subscription. -/
def Elsewhere (id : String) (effect : Eff) : Prop :=
  concerns id effect = false

theorem elsewhere_of_idle
    {id : String}
    {effect : Eff}
    (hIdle : effect.isIdle = true) :
    Elsewhere id effect := by
  cases effect with
  | subs op =>
      cases op with
      | insert row => cases hIdle
      | update key patch => cases hIdle
      | _ => rfl
  | insertCharge txn bills => cases hIdle
  | recordSpend jti tenantId amount now limits => cases hIdle
  | _ => rfl

theorem completedCharges_push
    {id : String}
    {h : Log}
    {o : Happening}
    (hNone : completedCharge id o = none) :
    completedCharges id (h.push o).past =
      completedCharges id h.past :=
  List.filterMap_cons_none hNone

theorem completedCharge_elsewhere
    {id : String}
    {o : Happening}
    (hElsewhere : Elsewhere id o.effect) :
    completedCharge id o = none := by
  rcases o with ⟨thread, effect, answer, before, after⟩
  cases effect with
  | insertCharge txn bills =>
      have hOther : bills.subscriptionId ≠ id := by
        simpa [Elsewhere, concerns] using hElsewhere
      exact if_neg hOther
  | _ => rfl

section Makes

variable {rfc3339 : Rfc3339} {fits : Choice → Prop}
variable {id : String} {h : Log} {o : Happening}

/- What happens elsewhere leaves the books alone. -/
theorem booksOf_push
    (hMakes : (machine rfc3339).Makes fits h o)
    (hElsewhere : Elsewhere id o.effect) :
    booksOf id (h.push o) = booksOf id h := by
  obtain ⟨hBefore, choice, -, hExec⟩ := hMakes
  have hExecutes : Executes rfc3339 o := by
    refine ⟨choice, ?_⟩
    rw [hBefore]
    exact hExec
  have hRow :
      o.after.subscriptions.get id =
        h.world.subscriptions.get id := by
    rw [← hBefore]
    cases hExecutes.subChange id with
    | kept hKept => exact hKept
    | inserted row hEffect hId hAfter =>
        rw [hEffect] at hElsewhere
        simp [Elsewhere, concerns, hId] at hElsewhere
    | patched patch row hMove hOld hAfter =>
        rw [show o.effect = .subs (.update id patch) from
          congrArg Move.effect hMove] at hElsewhere
        simp [Elsewhere, concerns] at hElsewhere
  have hLedger : o.after.ledger = h.world.ledger := by
    rw [← hBefore]
    rcases o with ⟨thread, effect, answer, before, after⟩
    cases effect with
    | recordSpend jti tenantId amount now limits =>
        cases hElsewhere
    | createOrder buyer currency items total =>
        obtain ⟨answered, hOrder⟩ := hExecutes
        unfold execEff at hOrder
        dsimp only at hOrder
        split at hOrder
        · cases hOrder
          rfl
        · cases hOrder
          rfl
    | _ => exact hExecutes.framed.ledger rfl
  have hCharges :=
    completedCharges_push (h := h)
      (completedCharge_elsewhere hElsewhere)
  rw [booksOf, booksOf, History.push_world, hRow, hLedger,
    hCharges]

/- The books, as a view of the log. -/
def booksView
    (rfc3339 : Rfc3339)
    (fits : Choice → Prop)
    (id : String) : View rfc3339 fits SubBooks where
  of := booksOf id
  quiet := Elsewhere id
  keeps := booksOf_push

variable {α β : Type} {thread : Nat} {before : SubBooks}

/- A block elsewhere leaves the books alone. -/
theorem does_elsewhere
    {body : Svc α}
    {Q : α → Log → Prop}
    {X : Halt → Log → Prop}
    (hBooks : booksOf id h = before)
    (hOnly : Svc.Only (Elsewhere id) body)
    (hValue :
      ∀ value later, booksOf id later = before →
        Q value later)
    (hHalt :
      ∀ halt later, booksOf id later = before →
        X halt later) :
    body.Does rfc3339 fits thread Q X h :=
  (booksView rfc3339 fits id).does_keep hBooks hOnly hValue
    hHalt

/- An effect elsewhere always answers. -/
theorem does_act
    {effect : Eff}
    {Q : effect.Res → Log → Prop}
    {X : Halt → Log → Prop}
    (hBooks : booksOf id h = before)
    (hElsewhere : Elsewhere id effect)
    (hNext :
      ∀ answer later, booksOf id later = before →
        Q answer later) :
    (Svc.act effect).Does rfc3339 fits thread Q X h :=
  (booksView rfc3339 fits id).does_act hBooks hElsewhere hNext

/- And what follows it starts from the same books. -/
theorem does_after
    {body : Svc α}
    {next : α → Svc β}
    {Q : β → Log → Prop}
    {X : Halt → Log → Prop}
    (hBooks : booksOf id h = before)
    (hOnly : Svc.Only (Elsewhere id) body)
    (hHalt :
      ∀ halt later, booksOf id later = before → X halt later)
    (hNext :
      ∀ value later, booksOf id later = before →
        (next value).Does rfc3339 fits thread Q X later) :
    (body >>= next).Does rfc3339 fits thread Q X h :=
  (booksView rfc3339 fits id).does_after hBooks hOnly hHalt
    hNext

end Makes

end Protocol

end IcpHandler

------------------------------------------------------------
-- Reads and Writes
------------------------------------------------------------

namespace IcpHandler

namespace Protocol

open Model Service Concurrency

/- The database fails on choices of this kind only if so. -/
def Loses (fits : Choice → Prop) (lost : Prop) : Prop :=
  ∀ choice, fits choice → choice.fault = true → lost

/- The row was patched, or the write is lost. -/
def Patched
    (lost : Prop)
    (patch : SubPatch)
    (before after : SubBooks) : Prop :=
  after = { before with row := before.row.map patch.apply } ∨
    lost ∧ after = before

section Access

variable {rfc3339 : Rfc3339} {fits : Choice → Prop}
variable {lost : Prop} {thread : Nat}
variable {id : String} {h : Log} {before : SubBooks}
variable {X : Halt → Log → Prop}

/- What an operation on the store makes of the world. -/
theorem makes_subs
    {op : Data.StoreOp Subscription SubPatch DateTime}
    {answer : op.Res}
    {after : World}
    (hMakes :
      (machine rfc3339).Makes fits h
        ⟨thread, .subs op, answer, h.world, after⟩) :
    ∃ choice store, fits choice ∧
      op.exec choice.fault choice.order h.world.subscriptions =
        some (answer, store) ∧
      after = { h.world with subscriptions := store } := by
  obtain ⟨-, choice, hFits, hExec⟩ := hMakes
  have hOp :
      execEff rfc3339 thread choice h.world (.subs op) =
        some (answer, after) :=
    hExec
  unfold execEff at hOp
  simp only [Option.map_eq_some_iff] at hOp
  obtain ⟨⟨found, store⟩, hStore, hResult⟩ := hOp
  cases hResult
  exact ⟨choice, store, hFits, hStore, rfl⟩

/- A read finds the row, if the database answers. -/
theorem does_getSub
    (hLoses : Loses fits lost)
    (hBooks : booksOf id h = before)
    {Q : Option Subscription → Log → Prop}
    (hNext :
      ∀ found later, booksOf id later = before →
        (found = before.row ∨ lost ∧ found = none) →
          Q found later) :
    (Svc.act (.subs (.get id))).Does rfc3339 fits thread Q X
      h := by
  subst hBooks
  rw [Svc.does_act]
  intro found after hMakes
  refine hNext found _ (booksOf_push hMakes rfl) ?_
  obtain ⟨choice, store, hFits, hStore, rfl⟩ :=
    makes_subs hMakes
  cases hFault : choice.fault with
  | true =>
      rw [hFault] at hStore
      cases hStore
      exact .inr ⟨hLoses choice hFits hFault, rfl⟩
  | false =>
      rw [hFault] at hStore
      cases hStore
      exact .inl rfl

/- An update answers with the row it has patched. -/
theorem does_updateSub
    (hLoses : Loses fits lost)
    (hBooks : booksOf id h = before)
    {patch : SubPatch}
    {Q : Option Subscription → Log → Prop}
    (hNext :
      ∀ found later,
        Patched lost patch before (booksOf id later) →
        (∀ row, found = some row →
          before.row.map patch.apply = some row ∧
            booksOf id later =
              { before with row := some row }) →
        (found = none →
          booksOf id later = before ∧
            (before.row = none ∨ lost)) →
        Q found later) :
    (Svc.act (.subs (.update id patch))).Does rfc3339 fits
      thread Q X h := by
  subst hBooks
  rw [Svc.does_act]
  intro found after hMakes
  obtain ⟨choice, store, hFits, hStore, rfl⟩ :=
    makes_subs hMakes
  cases hFault : choice.fault with
  | true =>
      rw [hFault] at hStore
      cases hStore
      have hLost := hLoses choice hFits hFault
      refine hNext none _ (.inr ⟨hLost, rfl⟩) ?_ fun _ =>
        ⟨rfl, .inr hLost⟩
      exact fun row hFound =>
        absurd hFound.symm (Option.some_ne_none row)
  | false =>
      rw [hFault] at hStore
      cases hStore
      have hRow :
          (h.world.subscriptions.update id patch).get id =
            (h.world.subscriptions.get id).map patch.apply :=
        (Data.KeyedStore.get_update _ _ _ _).trans
          (if_pos rfl)
      refine hNext _ _ (.inl ?_)
        (fun row hFound => ⟨hFound, ?_⟩) fun hNone => ?_
      · exact congrArg
          (fun stored => { booksOf id h with row := stored })
          hRow
      · exact congrArg
          (fun stored => { booksOf id h with row := stored })
          (hRow.trans hFound)
      · have hAbsent := Option.map_eq_none_iff.mp hNone
        refine ⟨?_, .inl hAbsent⟩
        exact congrArg
          (fun stored => { booksOf id h with row := stored })
          ((hRow.trans hNone).trans hAbsent.symm)

/- An insertion stores the row, or nothing. -/
theorem does_insertSub
    (hLoses : Loses fits lost)
    {row : Subscription}
    (hId : row.id = id)
    (hBooks : booksOf id h = before)
    {Q : Unit → Log → Prop}
    (hNext :
      ∀ later,
        (booksOf id later = { before with row := some row } ∨
          lost ∧ booksOf id later = before) →
        Q () later) :
    (Svc.act (.subs (.insert row))).Does rfc3339 fits thread Q
      X h := by
  subst hBooks
  subst hId
  rw [Svc.does_act]
  intro found after hMakes
  obtain ⟨choice, store, hFits, hStore, rfl⟩ :=
    makes_subs hMakes
  cases hFault : choice.fault with
  | true =>
      rw [hFault] at hStore
      cases hStore
      exact hNext _ (.inr ⟨hLoses choice hFits hFault, rfl⟩)
  | false =>
      rw [hFault] at hStore
      cases hStore
      have hRow :
          (h.world.subscriptions.insert row).get row.id =
            some row :=
        Data.KeyedStore.get_insert_self _ row
      refine hNext _ (.inl ?_)
      exact congrArg
        (fun stored => { booksOf row.id h with row := stored })
        hRow

/-
  A charge is completed, unless its transaction is not stored.
-/
theorem does_insertCharge
    (hLoses : Loses fits lost)
    (hBooks : booksOf id h = before)
    {txn : Transaction}
    {bills : Billing}
    (hCompleted : txn.state = .completed)
    (hBills : bills.subscriptionId = id)
    {Q : Unit → Log → Prop}
    (hNext :
      ∀ later charges,
        (lost ∨ charges = txn :: before.charges) →
        booksOf id later = { before with charges := charges } →
        Q () later) :
    (Svc.act (.insertCharge txn bills)).Does rfc3339 fits
      thread Q X h := by
  subst hBooks
  rw [Svc.does_act]
  intro found after hMakes
  obtain ⟨-, choice, hFits, hExec⟩ := hMakes
  cases hExec
  refine hNext _ _ ?_ rfl
  cases hFault : choice.fault with
  | true => exact .inl (hLoses choice hFits hFault)
  | false =>
      refine .inr (List.filterMap_cons_some ?_)
      have hStored :
          (h.world.transactions.insert txn).get txn.id =
            some txn :=
        Data.KeyedStore.get_insert_self _ txn
      have hKept :
          (some txn).filter (·.state == .completed) =
            some txn := by
        simp [hCompleted]
      simp only [completedCharge, if_pos hBills]
      rw [← hKept, ← hStored]
      rfl

/-
  A listing names stored rows that are due, each once, and
  leaves none out if the database answers.
-/
theorem does_listDue
    (hLoses : Loses fits lost)
    {now : DateTime}
    {Q : List Subscription → Log → Prop}
    (hNext :
      ∀ due later,
        (∀ id, booksOf id later = booksOf id h) →
        (∀ sub ∈ due, (booksOf sub.id h).row = some sub ∧
          Data.Record.isDue now sub = true) →
        (due.map Subscription.id).Nodup →
        (∀ sub, (booksOf sub.id h).row = some sub →
          Data.Record.isDue now sub = true →
            sub ∈ due ∨ lost) →
        Q due later) :
    (Svc.act (.subs (.listDue now))).Does rfc3339 fits thread Q
      X h := by
  rw [Svc.does_act]
  intro due after hMakes
  have hKept :
      ∀ id, booksOf id (h.push ⟨thread, .subs (.listDue now),
        due, h.world, after⟩) = booksOf id h :=
    fun _ => booksOf_push hMakes rfl
  obtain ⟨choice, store, hFits, hStore, rfl⟩ :=
    makes_subs hMakes
  have hListed := Data.StoreOp.exec_listDue hStore
  refine hNext due _ hKept hListed.2
    (Data.StoreOp.exec_listDue_nodup hStore) ?_
  intro sub hRow hDue
  cases hFault : choice.fault with
  | true => exact .inr (hLoses choice hFits hFault)
  | false =>
      left
      rw [hFault] at hStore
      simp only [Data.StoreOp.exec] at hStore
      split at hStore
      · rename_i hFalse
        cases hFalse
      split at hStore
      · rename_i hPerm
        cases hStore
        refine List.mem_filterMap.mpr ⟨sub.id, ?_, hRow⟩
        refine hPerm.mem_iff.mpr (List.mem_map.mpr ⟨sub, ?_, rfl⟩)
        refine List.mem_filter.mpr ⟨?_, hDue⟩
        exact Data.KeyedStore.mem_values_iff.mpr hRow
      · cases hStore

end Access

end Protocol

end IcpHandler

------------------------------------------------------------
-- Charges
------------------------------------------------------------

namespace IcpHandler

namespace Protocol

open Model Service Concurrency

/- What a charge for the items comes to. -/
def chargeMinor
    (items : List RequestItem)
    (currency : String) : Int64 :=
  match
    priceRequestItems items currency "subscription.items"
  with
  | .ok priced => totalAmountMinor priced.2
  | .error _ => 0

theorem chargeMinor_eq
    {items : List RequestItem}
    {currency fieldPrefix : String}
    {priced : List LineItem × Totals}
    (hPriced :
      priceRequestItems items currency fieldPrefix =
        .ok priced) :
    chargeMinor items currency = totalAmountMinor priced.2 := by
  rw [chargeMinor, priceRequestItems_ok_congr _ hPriced]

section Charges

variable {rfc3339 : Rfc3339} {fits : Choice → Prop}
variable {lost : Prop} {thread : Nat}
variable {id : String} {h : Log} {before : SubBooks}
variable {svc : IcpService} {input : IntentInput}
variable {buyer : Buyer} {shipTo : Option Address}
variable {items : List RequestItem} {currency : String}
variable {bills : Billing}

/- A charge of another subscription. -/
theorem elsewhere_charge
    (hBills : bills.subscriptionId ≠ id) :
    Svc.Only (Elsewhere id)
      (runSubscriptionCharge svc input buyer shipTo items
        currency bills) := by
  refine (Svc.Only.ofExcept _ _).bind fun priced => ?_
  refine Svc.Only.bind (Svc.Only.act rfl) fun now => ?_
  refine Svc.Only.bind (Svc.Only.act rfl) fun token => ?_
  refine Svc.Only.bind
    (only_persistOrderForTransaction (fun _ _ _ _ => rfl) _)
    fun summary => ?_
  refine Svc.Only.bind (Svc.Only.act ?_) fun _ =>
    Svc.Only.pure _
  simpa [Elsewhere, concerns] using hBills

/-
  A charge of the subscription leaves its row alone. Where it
  fails nothing was charged.
-/
theorem does_charge
    (hLoses : Loses fits lost)
    (hBooks : booksOf id h = before)
    (hBills : bills.subscriptionId = id)
    {Q : Transaction × Option OrderSummary → Log → Prop}
    {X : Halt → Log → Prop}
    (hHalt :
      ∀ halt later, booksOf id later = before → X halt later)
    (hNext :
      ∀ (charge : Transaction × Option OrderSummary) later
          charges,
        totalAmountMinor charge.1.totals =
          chargeMinor items currency →
        (lost ∨ charges = charge.1 :: before.charges) →
        booksOf id later = { before with charges := charges } →
        Q charge later) :
    (runSubscriptionCharge svc input buyer shipTo items currency
      bills).Does rfc3339 fits thread Q X h := by
  rw [runSubscriptionCharge, Svc.does_bind, Svc.does_ofExcept]
  refine ⟨fun priced hPriced => ?_, fun _ _ =>
    hHalt _ _ hBooks⟩
  refine does_after hBooks (Svc.Only.act rfl) hHalt
    fun now read hRead => ?_
  refine does_after hRead (Svc.Only.act rfl) hHalt
    fun token drawn hDrawn => ?_
  dsimp only
  refine does_after hDrawn
    (only_persistOrderForTransaction (fun _ _ _ _ => rfl) _)
    hHalt fun summary ordered hOrdered => ?_
  rw [Svc.does_bind]
  refine does_insertCharge hLoses hOrdered rfl hBills ?_
  intro later charges hCharges hLater
  exact hNext _ later charges (chargeMinor_eq hPriced).symm
    hCharges hLater

end Charges

end Protocol

end IcpHandler

------------------------------------------------------------
-- Recording a Charge
------------------------------------------------------------

namespace IcpHandler

namespace Protocol

open Model Service Concurrency

/- What a tick writes after it has charged the subscription. -/
def renewedPatch
    (svc : IcpService)
    (sub : Subscription)
    (txn : Transaction)
    (now : DateTime) : SubPatch :=
  .autoRenew sub.currentPeriodEnd
    (periodAdvance svc.deps.calendar sub.currentPeriodEnd
      sub.cadence)
    (Saturating.satAdd32 sub.chargesCompleted 1) txn.id now

/- What a tick writes after the charge has failed. -/
def failedPatch
    (svc : IcpService)
    (sub : Subscription)
    (now : DateTime) : SubPatch :=
  .chargeFailed (Saturating.satAdd32 sub.failedRenewalAttempts 1)
    (dunningMaxAttempts svc)
    (dunningNextAttempt svc
      (Saturating.satAdd32 sub.failedRenewalAttempts 1) now)
    now

section Recording

variable {rfc3339 : Rfc3339} {fits : Choice → Prop}
variable {lost : Prop} {thread : Nat}
variable {id : String} {h : Log} {before : SubBooks}
variable {svc : IcpService} {sub : Subscription}
variable {charge : Transaction × Option OrderSummary}
variable {now : DateTime} {err : ApiError}

theorem elsewhere_webhook
    (event : Event)
    (tenantId : String) :
    Svc.Only (Elsewhere id) (enqueueWebhook svc event tenantId) :=
  fun _ =>
    Svc.Meets.mono
      (Svc.Meets.of_kind (meets_webhookRule event tenantId)
        fun _ _ hMove => elsewhere_of_idle hMove.1)
      (fun _ _ _ => trivial) (fun _ _ _ => trivial)

theorem elsewhere_schedulerCharge (hOther : sub.id ≠ id) :
    Svc.Only (Elsewhere id) (schedulerCharge svc sub) :=
  Svc.Only.bind (Svc.Only.act rfl) fun _ =>
    (Svc.Only.ensure _ _).bind fun _ => elsewhere_charge hOther

/- The event of a renewal, and where it goes. -/
theorem elsewhere_announce
    (event : String → Event)
    (tenantId : String) :
    Svc.Only (Elsewhere id)
      (Svc.act .uuid >>= fun token =>
        enqueueWebhook svc (event token) tenantId >>= fun _ =>
          Svc.act (.emit (event token))) :=
  Svc.Only.bind (Svc.Only.act rfl) fun _ =>
    (elsewhere_webhook _ tenantId).bind fun _ =>
      Svc.Only.act rfl

theorem elsewhere_recordRenewed (hOther : sub.id ≠ id) :
    Svc.Only (Elsewhere id)
      (recordRenewed svc sub charge now) := by
  refine Svc.Only.bind (Svc.Only.act ?_) fun _ =>
    elsewhere_announce _ sub.tenantId
  simpa [Elsewhere, concerns] using hOther

/- A failure has no more to say about the row it counted on. -/
theorem elsewhere_pastDue (updated : Option Subscription) :
    Svc.Only (Elsewhere id)
      (match updated.filter (·.status == .pastDue) with
      | some s => do
          let token ← Svc.act .uuid
          let event := pastDueEvent svc sub s err token now
          enqueueWebhook svc event sub.tenantId
          Svc.act (.emit event)
          pure true
      | none => pure false) := by
  split
  · refine Svc.Only.bind (Svc.Only.act rfl) fun token => ?_
    refine (elsewhere_webhook _ sub.tenantId).bind fun _ => ?_
    exact Svc.Only.bind (Svc.Only.act rfl) fun _ =>
      Svc.Only.pure _
  · exact Svc.Only.pure _

theorem elsewhere_recordFailed (hOther : sub.id ≠ id) :
    Svc.Only (Elsewhere id) (recordFailed svc sub err now) := by
  refine Svc.Only.bind (Svc.Only.act ?_) fun updated =>
    elsewhere_pastDue updated
  simpa [Elsewhere, concerns] using hOther

/- The row after a charge that succeeded. -/
theorem does_recordRenewed
    (hLoses : Loses fits lost)
    (hBooks : booksOf sub.id h = before)
    {Q : Unit → Log → Prop}
    {X : Halt → Log → Prop}
    (hLater :
      ∀ later,
        Patched lost (renewedPatch svc sub charge.1 now) before
          (booksOf sub.id later) →
        Q () later ∧ ∀ halt, X halt later) :
    (recordRenewed svc sub charge now).Does rfc3339 fits thread
      Q X h := by
  rw [recordRenewed]
  dsimp only
  rw [Svc.does_bind]
  refine does_updateSub hLoses hBooks ?_
  intro found updated hPatched _ _
  generalize hBooked : booksOf sub.id updated = books
    at hPatched
  refine does_elsewhere hBooked
    (elsewhere_announce _ sub.tenantId) ?_ ?_
  · intro _ later hSame
    exact (hLater later (hSame.symm ▸ hPatched)).1
  · intro halt later hSame
    exact (hLater later (hSame.symm ▸ hPatched)).2 halt

/- The row after a charge that failed. -/
theorem does_recordFailed
    (hLoses : Loses fits lost)
    (hBooks : booksOf sub.id h = before)
    {Q : Bool → Log → Prop}
    {X : Halt → Log → Prop}
    (hLater :
      ∀ later,
        Patched lost (failedPatch svc sub now) before
          (booksOf sub.id later) →
        (∀ pastDue, Q pastDue later) ∧ ∀ halt, X halt later) :
    (recordFailed svc sub err now).Does rfc3339 fits thread Q X
      h := by
  rw [recordFailed]
  dsimp only
  rw [Svc.does_bind]
  refine does_updateSub hLoses hBooks ?_
  intro found updated hPatched _ _
  generalize hBooked : booksOf sub.id updated = books
    at hPatched
  refine does_elsewhere hBooked (elsewhere_pastDue found) ?_ ?_
  · intro pastDue later hSame
    exact (hLater later (hSame.symm ▸ hPatched)).1 pastDue
  · intro halt later hSame
    exact (hLater later (hSame.symm ▸ hPatched)).2 halt

/- The scheduler's charge for a listed subscription. -/
theorem does_schedulerCharge
    (hLoses : Loses fits lost)
    (hBooks : booksOf sub.id h = before)
    {Q : Transaction × Option OrderSummary → Log → Prop}
    {X : Halt → Log → Prop}
    (hHalt :
      ∀ halt later, booksOf sub.id later = before →
        X halt later)
    (hNext :
      ∀ (charge : Transaction × Option OrderSummary) later
          charges,
        totalAmountMinor charge.1.totals =
          chargeMinor sub.items sub.currency →
        (lost ∨ charges = charge.1 :: before.charges) →
        booksOf sub.id later =
          { before with charges := charges } →
        Q charge later) :
    (schedulerCharge svc sub).Does rfc3339 fits thread Q X h := by
  rw [schedulerCharge]
  refine does_after hBooks (Svc.Only.act rfl) hHalt
    fun token drawn hDrawn => ?_
  dsimp only
  rw [Svc.does_bind, Svc.does_ensure]
  refine ⟨fun _ => ?_, fun _ => hHalt _ _ hDrawn⟩
  exact does_charge hLoses hDrawn rfl hHalt hNext

end Recording

end Protocol

end IcpHandler

------------------------------------------------------------
-- The Pass over Due Subscriptions
------------------------------------------------------------

namespace IcpHandler

namespace Protocol

open Model Service Concurrency

/-
  What becomes of a due subscription in a tick: it is charged
  and its next period opens, or the charge fails and is
  counted against it.
-/
inductive Billed
    (svc : IcpService)
    (lost : Prop)
    (now : DateTime)
    (sub : Subscription)
    (failing : Prop)
    (before after : SubBooks) : Prop where
  | charged
      (txn : Transaction)
      (charges : List Transaction)
      (hPrice :
        totalAmountMinor txn.totals =
          chargeMinor sub.items sub.currency)
      (hCharges : lost ∨ charges = txn :: before.charges)
      (hPatched :
        Patched lost (renewedPatch svc sub txn now)
          { before with charges := charges } after)
  | failed
      (hFailing : failing)
      (hPatched :
        Patched lost (failedPatch svc sub now) before after)

theorem Patched.imp
    {lost lost' : Prop}
    {patch : SubPatch}
    {before after : SubBooks}
    (hPatched : Patched lost patch before after)
    (hImp : lost → lost') :
    Patched lost' patch before after :=
  Or.imp_right (And.imp_left hImp) hPatched

theorem Billed.imp
    {svc : IcpService}
    {lost lost' failing failing' : Prop}
    {now : DateTime}
    {sub : Subscription}
    {before after : SubBooks}
    (hBilled : Billed svc lost now sub failing before after)
    (hLost : lost → lost')
    (hFailing : failing → failing') :
    Billed svc lost' now sub failing' before after := by
  cases hBilled with
  | charged txn charges hPrice hCharges hPatched =>
      exact .charged txn charges hPrice (hCharges.imp_left hLost)
        (hPatched.imp hLost)
  | failed hFail hPatched =>
      exact .failed (hFailing hFail) (hPatched.imp hLost)

/- What a pass over the due subscriptions leaves of one. -/
inductive Passed
    (svc : IcpService)
    (lost : Prop)
    (now : DateTime)
    (id : String)
    (due : List Subscription)
    (failing : Prop)
    (before after : SubBooks) : Prop where
  | other
      (hOther : ∀ sub ∈ due, sub.id ≠ id)
      (hSame : after = before)
  | billed
      (sub : Subscription)
      (hSub : sub ∈ due)
      (hId : sub.id = id)
      (hBilled : Billed svc lost now sub failing before after)

/- The same of a pass that was broken off. -/
inductive BrokenOff
    (svc : IcpService)
    (lost : Prop)
    (now : DateTime)
    (id : String)
    (due : List Subscription)
    (before after : SubBooks) : Prop where
  | unbilled (hSame : after = before)
  | billed
      (sub : Subscription)
      (hSub : sub ∈ due)
      (hId : sub.id = id)
      (hBilled : Billed svc lost now sub True before after)

section Pass

variable {lost failing failing' : Prop} {id : String}
variable {before after : SubBooks}
variable {svc : IcpService} {sub : Subscription}
variable {due : List Subscription} {now : DateTime}

theorem Passed.behind
    (hPassed :
      Passed svc lost now id due failing before after)
    (hOther : sub.id ≠ id)
    (hImp : failing → failing') :
    Passed svc lost now id (sub :: due) failing' before
      after := by
  cases hPassed with
  | other hOthers hSame =>
      exact .other (List.forall_mem_cons.mpr ⟨hOther, hOthers⟩)
        hSame
  | billed listed hListed hId hBilled =>
      exact .billed listed (List.mem_cons_of_mem sub hListed) hId
        (hBilled.imp (fun hLost => hLost) hImp)

theorem BrokenOff.behind
    (hBroken : BrokenOff svc lost now id due before after) :
    BrokenOff svc lost now id (sub :: due) before after := by
  cases hBroken with
  | unbilled hSame => exact .unbilled hSame
  | billed listed hListed hId hBilled =>
      exact .billed listed (List.mem_cons_of_mem sub hListed) hId
        hBilled

theorem Passed.same
    (hPassed :
      Passed svc lost now id due failing before after)
    (hOther : ∀ sub ∈ due, sub.id ≠ id) :
    after = before := by
  cases hPassed with
  | other _ hSame => exact hSame
  | billed listed hListed hId _ =>
      exact absurd hId (hOther listed hListed)

theorem BrokenOff.same
    (hBroken : BrokenOff svc lost now id due before after)
    (hOther : ∀ sub ∈ due, sub.id ≠ id) :
    after = before := by
  cases hBroken with
  | unbilled hSame => exact hSame
  | billed listed hListed hId _ =>
      exact absurd hId (hOther listed hListed)

variable {rfc3339 : Rfc3339} {fits : Choice → Prop}
variable {thread : Nat} {h : Log}
variable {report : SchedulerTickReport}
variable {Q : SchedulerTickReport → Log → Prop}
variable {X : Halt → Log → Prop}

/- The turn of another subscription. -/
theorem does_renewEach_other
    (hOther : sub.id ≠ id)
    (hBooks : booksOf id h = before)
    (hHalt :
      ∀ halt later, booksOf id later = before → X halt later)
    (hRest :
      ∀ (report' : SchedulerTickReport) later,
        report.failed ≤ report'.failed →
        booksOf id later = before →
        (renewEach svc now due report').Does rfc3339 fits thread
          Q X later) :
    (renewEach svc now (sub :: due) report).Does rfc3339 fits
      thread Q X h := by
  rw [renewEach, Svc.does_bind, Svc.does_attempt]
  refine does_elsewhere hBooks
    (elsewhere_schedulerCharge hOther) ?_ ?_
  · intro charge charged hSame
    exact does_after hSame (elsewhere_recordRenewed hOther)
      hHalt fun _ later hLater =>
        hRest _ later (Nat.le_refl _) hLater
  · intro halt earlier hSame
    cases halt with
    | error err =>
        exact does_after hSame (elsewhere_recordFailed hOther)
          hHalt fun _ later hLater =>
            hRest _ later (Nat.le_succ _) hLater
    | panicked message => exact hHalt _ earlier hSame

/- The turn of the subscription itself. -/
theorem does_renewEach_own
    (hLoses : Loses fits lost)
    (hBooks : booksOf sub.id h = before)
    (hBefore :
      ∀ halt later, booksOf sub.id later = before →
        X halt later)
    (hHalt :
      ∀ halt later,
        Billed svc lost now sub True before
          (booksOf sub.id later) →
        X halt later)
    (hRest :
      ∀ (report' : SchedulerTickReport) later,
        report.failed ≤ report'.failed →
        Billed svc lost now sub (report.failed < report'.failed)
          before (booksOf sub.id later) →
        (renewEach svc now due report').Does rfc3339 fits thread
          Q X later) :
    (renewEach svc now (sub :: due) report).Does rfc3339 fits
      thread Q X h := by
  rw [renewEach, Svc.does_bind, Svc.does_attempt]
  refine does_schedulerCharge hLoses hBooks ?_ ?_
  · intro halt earlier hSame
    cases halt with
    | error err =>
        dsimp only
        rw [Svc.does_bind]
        refine does_recordFailed hLoses hSame ?_
        intro later hPatched
        refine ⟨fun pastDue => ?_, fun halt => ?_⟩
        · exact hRest _ later (Nat.le_succ _)
            (.failed (Nat.lt_succ_self _) hPatched)
        · exact hHalt halt later (.failed trivial hPatched)
    | panicked message => exact hBefore _ earlier hSame
  · intro charge charged charges hPrice hCharges hCharged
    rw [Svc.does_bind]
    refine does_recordRenewed hLoses hCharged ?_
    intro later hPatched
    have hBilled :
        ∀ failing, Billed svc lost now sub failing before
          (booksOf sub.id later) :=
      fun _ => .charged charge.1 charges hPrice hCharges hPatched
    refine ⟨?_, fun halt => hHalt halt later (hBilled _)⟩
    exact hRest _ later (Nat.le_refl _) (hBilled _)

/-
  A pass over due subscriptions bills each of them once and
  leaves the others alone; its failures are counted.
-/
theorem does_renewEach
    (hLoses : Loses fits lost)
    (hNodup : (due.map Subscription.id).Nodup)
    (hBooks : booksOf id h = before) :
    (renewEach svc now due report).Does rfc3339 fits thread
      (fun report' later =>
        report.failed ≤ report'.failed ∧
          Passed svc lost now id due
            (report.failed < report'.failed) before
            (booksOf id later))
      (fun _ later =>
        BrokenOff svc lost now id due before (booksOf id later))
      h := by
  induction due generalizing report h before with
  | nil =>
      refine ⟨Nat.le_refl _, .other ?_ hBooks⟩
      exact fun sub hSub => nomatch hSub
  | cons sub due ih =>
      rw [List.map_cons, List.nodup_cons] at hNodup
      by_cases hId : sub.id = id
      · subst hId
        -- The ids are distinct, so this is its only turn.
        have hOthers : ∀ other ∈ due, other.id ≠ sub.id := by
          intro other hOther hSame
          exact hNodup.1 (hSame ▸ List.mem_map_of_mem hOther)
        refine does_renewEach_own hLoses hBooks
          (fun _ _ hSame => .unbilled hSame)
          (fun _ _ hBilled =>
            .billed sub List.mem_cons_self rfl hBilled) ?_
        intro report' billed hLe hBilled
        refine (ih hNodup.2 rfl).mono ?_ ?_
        · rintro last later ⟨hMore, hPassed⟩
          refine ⟨Nat.le_trans hLe hMore, ?_⟩
          rw [hPassed.same hOthers]
          exact .billed sub List.mem_cons_self rfl
            (hBilled.imp (fun hLost => hLost) fun hLess =>
              Nat.lt_of_lt_of_le hLess hMore)
        · intro halt later hBroken
          rw [hBroken.same hOthers]
          exact .billed sub List.mem_cons_self rfl
            (hBilled.imp (fun hLost => hLost) fun _ => trivial)
      · refine does_renewEach_other hId hBooks
          (fun _ _ hSame => .unbilled hSame) ?_
        intro report' earlier hLe hSame
        refine (ih hNodup.2 hSame).mono ?_
          (fun _ _ hBroken => hBroken.behind)
        rintro last later ⟨hMore, hPassed⟩
        refine ⟨Nat.le_trans hLe hMore, ?_⟩
        exact hPassed.behind hId fun hLess =>
          Nat.lt_of_le_of_lt hLe hLess

end Pass

end Protocol

end IcpHandler

------------------------------------------------------------
-- A Tick
------------------------------------------------------------

namespace IcpHandler

namespace Protocol

open Model Service Concurrency

/-
  What a tick makes of a subscription: it is billed if it was
  due, and left alone otherwise.
-/
inductive Ticked
    (svc : IcpService)
    (lost : Prop)
    (now : DateTime)
    (failing : Prop)
    (before after : SubBooks) : Prop where
  | idle
      (hIdle :
        ∀ sub, before.row = some sub →
          Data.Record.isDue now sub = true → lost)
      (hSame : after = before)
  | billed
      (sub : Subscription)
      (hRow : before.row = some sub)
      (hDue : Data.Record.isDue now sub = true)
      (hBilled : Billed svc lost now sub failing before after)

section Tick

variable {rfc3339 : Rfc3339} {fits : Choice → Prop}
variable {lost : Prop} {thread : Nat}
variable {h : Log}
variable {svc : IcpService} {now : DateTime}

/- A tick that is broken off may have done less. -/
theorem does_tickSubscriptions
    (id : String)
    (hLoses : Loses fits lost) :
    (tickSubscriptions svc now).Does rfc3339 fits thread
      (fun report later =>
        Ticked svc lost now (0 < report.failed) (booksOf id h)
          (booksOf id later))
      (fun _ later =>
        booksOf id later = booksOf id h ∨
          ∃ sub, (booksOf id h).row = some sub ∧
            Data.Record.isDue now sub = true ∧
            Billed svc lost now sub True (booksOf id h)
              (booksOf id later)) h := by
  rw [tickSubscriptions, Svc.does_bind]
  refine does_listDue hLoses ?_
  intro due listed hListed hStored hNodup hAll
  refine does_after (hListed id) (Svc.Only.act rfl)
    (fun _ _ hSame => .inl hSame)
    fun scanned counted hCounted => ?_
  refine (does_renewEach hLoses hNodup hCounted).mono ?_ ?_
  · rintro report later ⟨-, hPassed⟩
    cases hPassed with
    | other hOther hSame =>
        refine .idle ?_ hSame
        intro sub hRow hDue
        have hId : sub.id = id :=
          Data.KeyedStore.key_of_get hRow
        rcases hAll sub (hId.symm ▸ hRow) hDue with
          hMem | hLost
        · exact absurd hId (hOther sub hMem)
        · exact hLost
    | billed sub hSub hId hBilled =>
        subst hId
        exact .billed sub (hStored sub hSub).1
          (hStored sub hSub).2 hBilled
  · intro halt later hBroken
    cases hBroken with
    | unbilled hSame => exact .inl hSame
    | billed sub hSub hId hBilled =>
        subst hId
        exact .inr ⟨sub, (hStored sub hSub).1,
          (hStored sub hSub).2, hBilled⟩

end Tick

end Protocol

end IcpHandler
