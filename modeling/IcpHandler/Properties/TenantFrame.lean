import IcpHandler.Model.Concrete
import IcpHandler.Protocol.Turns

/-
  What an intent leaves alone: the transactions, subscriptions
  and peer quotes of other tenants. Every path looks at the
  owner of a row before it writes it, but for the catalogue
  intents, which store a new transaction under an id that the
  client may name.

  Main declarations:
    * `TenantFrame`
    * `TakesOver`
    * `step_keeps_others`, `step_adds_own`
    * `tenant_frame_iff`
-/

------------------------------------------------------------
-- The Tenant Frame
------------------------------------------------------------

namespace IcpHandler

namespace Protocol

open Model Service Concurrency

/- What belongs to other tenants is stored as it was before. -/
structure TenantFrame
    (tenantId : String)
    (before after : World) : Prop where
  transactions :
    ∀ id row, before.transactions.get id = some row →
      row.tenantId ≠ tenantId →
      after.transactions.get id = some row
  subscriptions :
    ∀ id row, before.subscriptions.get id = some row →
      row.tenantId ≠ tenantId →
      after.subscriptions.get id = some row
  peerQuotes :
    ∀ id row, before.peerQuotes.get id = some row →
      row.tenantId ≠ tenantId →
      after.peerQuotes.get id = some row

theorem TenantFrame.refl
    (tenantId : String)
    (w : World) :
    TenantFrame tenantId w w :=
  ⟨fun _ _ hRow _ => hRow, fun _ _ hRow _ => hRow,
    fun _ _ hRow _ => hRow⟩

theorem TenantFrame.trans
    {tenantId : String}
    {first second third : World}
    (hFirst : TenantFrame tenantId first second)
    (hSecond : TenantFrame tenantId second third) :
    TenantFrame tenantId first third where
  transactions := fun id row hRow hOther =>
    hSecond.transactions id row
      (hFirst.transactions id row hRow hOther) hOther
  subscriptions := fun id row hRow hOther =>
    hSecond.subscriptions id row
      (hFirst.subscriptions id row hRow hOther) hOther
  peerQuotes := fun id row hRow hOther =>
    hSecond.peerQuotes id row
      (hFirst.peerQuotes id row hRow hOther) hOther

/- The occurrence stores a transaction under the id. -/
def StoresTxn
    (id : String)
    (o : Happening) : Prop :=
  ∃ row, o.effect = .txns (.insert row) ∧ row.id = id ∧
    o.after.transactions.get id = some row

/-
  A catalogue intent names the transaction of another tenant,
  and gets as far as storing its own.
-/
def TakesOver
    (input : IntentInput)
    (w : World)
    (past : Past) : Prop :=
  ∃ intent id old,
    Intent.parse input.envelope.intent = .ok intent ∧
    isAdvisory intent = true ∧
    input.envelope.transactionId = some id ∧
    w.transactions.get id = some old ∧
    old.tenantId ≠ input.tenant.tenantId ∧
    ∃ o ∈ past, StoresTxn id o

section Steps

variable {svc : IcpService}
variable {input : IntentInput}
variable {w : World}
variable {h : History Eff.Res World}
variable {o : Happening}

/- One intent and nothing else. -/
abbrev OneIntent
    (svc : IcpService)
    (input : IntentInput)
    (w : World)
    (h : History Eff.Res World) : Prop :=
  LawfulRun svc (fun _ => .intent input) w h

section Updates

variable (hLawful : OneIntent svc input w h)
variable (hInTurn : InTurn (o :: h.past))
variable
  (hRule :
    Rule svc (.intent input) (own o.thread h.past) o.effect)

include hLawful hInTurn hRule

/- An intent only updates its own tenant's transactions. -/
theorem updatedTxn_own
    {id : String}
    {patch : TxnPatch}
    {row : Transaction}
    (hEffect : o.effect = .txns (.update id patch))
    (hRow : h.world.transactions.get id = some row) :
    row.tenantId = input.tenant.tenantId := by
  have hSeen :
      ∀ P, OnTxn (.intent input) (own o.thread h.past) id P →
        row.tenantId = input.tenant.tenantId := by
    rintro P ⟨input', txn, hOp, hOwner, hSeen, -⟩
    cases hOp
    rw [hSeen.stored hLawful hInTurn] at hRow
    cases hRow
    exact hOwner
  rw [hEffect] at hRule
  cases patch with
  | expireIfOpen now =>
      -- The update goes by the id in the row that was read.
      obtain ⟨key, input', txn, hOp, hOwner, hRead, hId⟩ := hRule
      cases hOp
      have hStored := hRead.stored hLawful hInTurn
      have hKey : txn.id = key :=
        Data.KeyedStore.key_of_get hStored
      rw [← hId, hKey, hStored] at hRow
      cases hRow
      exact hOwner
  | expire now => cases hRule.1
  | authorize buyer shipTo billTo now => exact hSeen _ hRule
  | complete orderId now => exact hSeen _ hRule
  | reverse now => exact hSeen _ hRule
  | renegotiate original new currency entry now =>
      exact hSeen _ hRule
  | confirmReceipt confirmedAt confirmedBy note now =>
      exact hSeen _ hRule

/- An intent only updates its own tenant's subscriptions. -/
theorem updatedSub_own
    {id : String}
    {patch : SubPatch}
    {row : Subscription}
    (hEffect : o.effect = .subs (.update id patch))
    (hRow : h.world.subscriptions.get id = some row) :
    row.tenantId = input.tenant.tenantId := by
  have hSeen :
      ∀ P, OnSub (.intent input) (own o.thread h.past) id P →
        row.tenantId = input.tenant.tenantId := by
    rintro P ⟨input', sub, hOp, hOwner, hSeen, -⟩
    cases hOp
    rw [hSeen.stored hLawful hInTurn] at hRow
    cases hRow
    exact hOwner
  -- Only the scheduler goes by a listing.
  have hUnlisted :
      ∀ P, ¬ OnListed (.intent input) (own o.thread h.past)
        id P := by
    rintro P ⟨now, sub, hOp, -⟩
    cases hOp
  rw [hEffect] at hRule
  cases patch with
  | renew periodStart periodEnd txnId payment jti now =>
      exact hSeen _ hRule
  | pause now => exact hSeen _ hRule
  | cancel now => exact hSeen _ hRule
  | autoRenew periodStart periodEnd charges txnId now =>
      exact (hUnlisted _ hRule).elim
  | chargeFailed failures most nextAttempt now =>
      exact (hUnlisted _ hRule).elim

/- An intent only updates its own tenant's peer quotes. -/
theorem updatedQuote_own
    {id : String}
    {patch : QuotePatch}
    {row : PeerQuote}
    (hEffect : o.effect = .quotes (.update id patch))
    (hRow : h.world.peerQuotes.get id = some row) :
    row.tenantId = input.tenant.tenantId := by
  rw [hEffect] at hRule
  cases patch with
  | expire now =>
      rcases hRule with hOwn | ⟨due, quote, hOp, -⟩
      · obtain ⟨input', quote, hOp, hOwner, hRead, -⟩ := hOwn
        cases hOp
        rw [hRead.stored hLawful hInTurn] at hRow
        cases hRow
        exact hOwner
      · cases hOp
  | accept txnId now =>
      obtain ⟨key, input', quote, hOp, hOwner, hRead, hId, -⟩ :=
        hRule
      cases hOp
      have hStored := hRead.stored hLawful hInTurn
      have hKey : quote.id = key :=
        Data.KeyedStore.key_of_get hStored
      rw [← hId, hKey, hStored] at hRow
      cases hRow
      exact hOwner

end Updates

/- What an intent stores as a transaction is its tenant's. -/
theorem insertedTxn_own
    {past : Moves}
    {effect : Eff}
    {row : Transaction}
    (hRule : Rule svc (.intent input) past effect)
    (hEffect :
      effect = .txns (.insert row) ∨
        ∃ bills, effect = .insertCharge row bills) :
    row.tenantId = input.tenant.tenantId := by
  rcases hEffect with rfl | ⟨bills, rfl⟩
  · obtain ⟨input', hOp, hInsert⟩ := hRule
    cases hOp
    exact hInsert.owner
  · exact hRule.bills.1

/- An intent's step adds no transaction of another tenant. -/
theorem step_adds_own
    (hLawful : OneIntent svc input w h)
    (hInTurn : InTurn (o :: h.past))
    (hExec : Executes svc.deps.rfc3339 o)
    (hRule :
      Rule svc (.intent input) (own o.thread h.past) o.effect)
    (hBefore : o.before = h.world)
    {id : String}
    {row : Transaction}
    (hRow : o.after.transactions.get id = some row)
    (hOther : row.tenantId ≠ input.tenant.tenantId) :
    h.world.transactions.get id = some row := by
  cases hExec.txnChange id with
  | kept hKept =>
      rw [← hBefore, ← hKept]
      exact hRow
  | inserted new hEffect hId hAfter =>
      rw [hAfter] at hRow
      cases hRow
      exact absurd (insertedTxn_own hRule hEffect) hOther
  | patched patch old hMove hOld hAfter =>
      rw [hAfter] at hRow
      cases hRow
      rw [TxnPatch.apply_tenantId] at hOther
      rw [hBefore] at hOld
      exact absurd (updatedTxn_own hLawful hInTurn hRule
        (congrArg Move.effect hMove) hOld) hOther

/-
  An intent's step keeps what belongs to others, unless it
  stores its transaction under an id the client has named.
-/
theorem step_keeps_others
    (hLawful : OneIntent svc input w h)
    (hInTurn : InTurn (o :: h.past))
    (hExec : Executes svc.deps.rfc3339 o)
    (hRule :
      Rule svc (.intent input) (own o.thread h.past) o.effect)
    (hBefore : o.before = h.world)
    (hNot : ¬ TakesOver input h.world [o]) :
    TenantFrame input.tenant.tenantId h.world o.after := by
  refine ⟨?_, ?_, ?_⟩
  · intro id row hRow hOther
    cases hExec.txnChange id with
    | kept hKept =>
        rw [hKept, hBefore]
        exact hRow
    | inserted new hEffect hId hAfter =>
        subst hId
        have hUnused :
            ¬ Fresh Eff.touchesTxns "txn_" new.id
              (own o.thread h.past) := by
          intro hFresh
          rw [unstoredTxn hLawful hInTurn hFresh] at hRow
          cases hRow
        rcases hEffect with hEffect | ⟨bills, hEffect⟩
        · rw [hEffect] at hRule
          obtain ⟨input', hOp, hInsert⟩ := hRule
          cases hOp
          rcases hInsert.id with hFresh |
            ⟨hNamed, -, intent, hIntent, hAdvisory⟩
          · exact absurd hFresh hUnused
          · exact absurd ⟨intent, new.id, row, hIntent,
              hAdvisory, hNamed, hRow, hOther, o,
              List.mem_cons_self, new, hEffect, rfl, hAfter⟩
              hNot
        · rw [hEffect] at hRule
          exact absurd hRule.id hUnused
    | patched patch old hMove hOld hAfter =>
        rw [hBefore, hRow] at hOld
        cases hOld
        exact absurd (updatedTxn_own hLawful hInTurn hRule
          (congrArg Move.effect hMove) hRow) hOther
  · intro id row hRow hOther
    cases hExec.subChange id with
    | kept hKept =>
        rw [hKept, hBefore]
        exact hRow
    | inserted new hEffect hId hAfter =>
        subst hId
        rw [hEffect] at hRule
        obtain ⟨input', -, hInsert⟩ := hRule
        rw [unstoredSub hLawful hInTurn hInsert.id] at hRow
        cases hRow
    | patched patch old hMove hOld hAfter =>
        rw [hBefore, hRow] at hOld
        cases hOld
        exact absurd (updatedSub_own hLawful hInTurn hRule
          (congrArg Move.effect hMove) hRow) hOther
  · intro id row hRow hOther
    cases hExec.quoteChange id with
    | kept hKept =>
        rw [hKept, hBefore]
        exact hRow
    | inserted new hEffect hId hAfter =>
        subst hId
        rw [hEffect] at hRule
        obtain ⟨input', -, hInsert⟩ := hRule
        rw [unstoredQuote hLawful hInTurn hInsert.id] at hRow
        cases hRow
    | patched patch old hMove hOld hAfter =>
        rw [hBefore, hRow] at hOld
        cases hOld
        exact absurd (updatedQuote_own hLawful hInTurn hRule
          (congrArg Move.effect hMove) hRow) hOther

/-
  What belongs to others at the end did so from the start and
  in between. By induction on the intent's steps.
-/
theorem others_from_start
    (hLawful : OneIntent svc input w h)
    (hInTurn : InTurn h.past)
    {id : String}
    {row : Transaction}
    (hRow : h.world.transactions.get id = some row)
    (hOther : row.tenantId ≠ input.tenant.tenantId) :
    w.transactions.get id = some row ∧
      ∀ o ∈ h.past,
        o.after.transactions.get id = some row := by
  induction hLawful with
  | start =>
      exact ⟨hRow, fun o hMem => absurd hMem List.not_mem_nil⟩
  | @push h o hLawful hAllows hRule ih =>
      have hOld :=
        step_adds_own hLawful hInTurn
          (executes_of_allows hAllows) hRule hAllows.before_eq
          hRow hOther
      obtain ⟨hStart, hPast⟩ :=
        ih (List.pairwise_cons.mp hInTurn).2 hOld
      refine ⟨hStart, ?_⟩
      intro other hMem
      rcases List.mem_cons.mp hMem with rfl | hMem
      · exact hRow
      · exact hPast other hMem

/- The frame holds along an intent that takes nothing over. -/
theorem frame_of_not_takesOver
    (hLawful : OneIntent svc input w h)
    (hInTurn : InTurn h.past)
    (hNot : ¬ TakesOver input w h.past) :
    TenantFrame input.tenant.tenantId w h.world := by
  induction hLawful with
  | start => exact TenantFrame.refl _ _
  | @push h o hLawful hAllows hRule ih =>
      have hEarlier := (List.pairwise_cons.mp hInTurn).2
      refine (ih hEarlier ?_).trans ?_
      · rintro ⟨intent, id, old, hIntent, hAdvisory, hNamed,
          hOld, hOther, stored, hMem, hStores⟩
        exact hNot ⟨intent, id, old, hIntent, hAdvisory, hNamed,
          hOld, hOther, stored, List.mem_cons_of_mem _ hMem,
          hStores⟩
      · refine step_keeps_others hLawful hInTurn
          (executes_of_allows hAllows) hRule hAllows.before_eq ?_
        rintro ⟨intent, id, old, hIntent, hAdvisory, hNamed,
          hOld, hOther, stored, hMem, hStores⟩
        rw [List.mem_singleton.mp hMem] at hStores
        exact hNot ⟨intent, id, old, hIntent, hAdvisory, hNamed,
          (others_from_start hLawful hEarlier hOld hOther).1,
          hOther, o, List.mem_cons_self, hStores⟩

/- What is taken over is not left alone. -/
theorem not_frame_of_takesOver
    (hLawful : OneIntent svc input w h)
    (hInTurn : InTurn h.past)
    (hTakes : TakesOver input w h.past) :
    ¬ TenantFrame input.tenant.tenantId w h.world := by
  intro hFrame
  obtain ⟨intent, id, old, -, -, -, hOld, hOther, o, hMem,
    row, hEffect, rfl, hAfter⟩ := hTakes
  have hLast := hFrame.transactions _ old hOld hOther
  have hStill :=
    (others_from_start hLawful hInTurn hLast hOther).2 o hMem
  rw [hAfter] at hStill
  cases hStill
  obtain ⟨recent, older, hPast⟩ := List.append_of_mem hMem
  obtain ⟨-, -, -, -, -, hRule⟩ := hLawful.cut hPast
  exact hOther (insertedTxn_own hRule (.inl hEffect))

end Steps

/-
  An intent that runs alone, from any world, leaves everything
  of the other tenants as it was, if and only if it does not
  take over a transaction that it names.
-/
theorem tenant_frame_iff
    (svc : IcpService)
    (input : IntentInput)
    (w : World)
    (thread : Nat)
    (choices rest : List Choice)
    (result : Except Halt IntentResponseBody)
    (h : History Eff.Res World)
    (hEval :
      (handleIntent svc input).run.eval
          (machine svc.deps.rfc3339) thread choices
          (.start w) =
        some (result, h, rest)) :
    TenantFrame input.tenant.tenantId w h.world ↔
      ¬ TakesOver input w h.past := by
  obtain ⟨hLawful, -, hInTurn⟩ :=
    Prog.eval_inTurn meets_handleIntent hEval
  constructor
  · intro hFrame hTakes
    exact not_frame_of_takesOver hLawful hInTurn hTakes hFrame
  · exact frame_of_not_takesOver hLawful hInTurn

/- Another tenant's quote, before the one of the sample. -/
private def rivalQuote : IntentInput :=
  { sampleQuote "X" 1 with tenant := ⟨"rival"⟩ }

private def quotedByRival :
    Option (History Eff.Res World) :=
  runInTurn concreteService (fun _ => .intent rivalQuote)
    sampleChoices (.fresh (.memory ∅) []) 1

/- A quote can take over the transaction of another tenant. -/
theorem quote_takes_over :
    ¬ ∀ svc ops choices ledger subscribers count before,
      runInTurn svc ops choices (.fresh ledger subscribers)
        count = some before →
      ∀ input thread choices rest result h,
        (handleIntent svc input).run.eval
            (machine svc.deps.rfc3339) thread choices
            (.start before.world) =
          some (result, h, rest) →
        TenantFrame input.tenant.tenantId before.world
          h.world := by
  intro hAll
  have hRun :
      (quotedByRival.any fun before =>
        (before.world.transactions.get "X").any
          (·.tenantId == "rival") &&
        ((handleIntent concreteService (sampleQuote "X" 1)).run.eval
          (machine concreteService.deps.rfc3339) 1
          (sampleChoices 1) (.start before.world)).any
            fun answer =>
              (answer.2.1.world.transactions.get "X").any
                (·.tenantId == "acme")) = true := by
    decide
  obtain ⟨before, hBefore, hChecks⟩ :=
    (Option.any_eq_true _ _).mp hRun
  simp only [Bool.and_eq_true, Option.any_eq_true,
    beq_iff_eq] at hChecks
  obtain ⟨⟨row, hRow, hRival⟩, ⟨result, h, rest⟩, hEval, last,
    hLast, hTaken⟩ := hChecks
  have hFrame :=
    hAll concreteService _ _ _ _ _ before hBefore _ _ _ _ _ _
      hEval
  have hStill := hFrame.transactions "X" row hRow (by
    rw [hRival]
    decide)
  rw [hLast] at hStill
  cases hStill
  rw [hRival] at hTaken
  exact absurd hTaken (by decide)

theorem tenant_frame_iff_sample :
    ∃ before result h rest,
      quotedByRival = some before ∧
      (handleIntent concreteService (sampleQuote "Y" 1)).run.eval
          (machine concreteService.deps.rfc3339) 1
          (sampleChoices 1) (.start before.world) =
        some (result, h, rest) ∧
      (h.world.transactions.get "Y").isSome ∧
      TenantFrame "acme" before.world h.world := by
  have hRun :
      (quotedByRival.any fun before =>
        (before.world.transactions.get "Y").isNone &&
        ((handleIntent concreteService (sampleQuote "Y" 1)).run.eval
          (machine concreteService.deps.rfc3339) 1
          (sampleChoices 1) (.start before.world)).any
            fun answer =>
              (answer.2.1.world.transactions.get
                "Y").isSome) = true := by
    decide
  obtain ⟨before, hBefore, hChecks⟩ :=
    (Option.any_eq_true _ _).mp hRun
  rw [Bool.and_eq_true] at hChecks
  obtain ⟨hNew, hAnswer⟩ := hChecks
  obtain ⟨⟨result, h, rest⟩, hEval, hStored⟩ :=
    (Option.any_eq_true _ _).mp hAnswer
  refine ⟨before, result, h, rest, hBefore, hEval, hStored, ?_⟩
  refine (tenant_frame_iff concreteService (sampleQuote "Y" 1)
    before.world 1 _ rest result h hEval).mpr ?_
  rintro ⟨intent, id, old, -, -, hNamed, hOld, -⟩
  cases hNamed
  rw [hOld] at hNew
  cases hNew

end Protocol

end IcpHandler
