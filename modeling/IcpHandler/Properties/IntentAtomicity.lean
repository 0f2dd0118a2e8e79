import IcpHandler.Model.Concrete
import IcpHandler.Properties.LedgerBudget
import IcpHandler.Protocol.ExpiryMarks
import IcpHandler.Protocol.Turns

/-
  What an intent leaves behind that is answered with an error.
  Nothing undoes a step that was taken, so the answer is as
  good as its last check is early: where every check comes
  before the first write, all that may remain is a row that
  was found past its deadline and marked so.

  Main declarations:
    * `MandateLedger.SameRows`, `AtMostMarked`
    * `LeftAlone`
    * `TouchedOnRefusal`
    * `refused_intents_leave_alone`
    * `refused_intents_leave_traces`
-/

------------------------------------------------------------
-- A Refused Reservation
------------------------------------------------------------

namespace IcpHandler

namespace Model

namespace MandateLedger

/- The same rows, in whatever order the map keeps them. -/
inductive SameRows : MandateLedger → MandateLedger → Prop where
  | memory
      (rows rows' : AList fun _ : String => MandateUsage)
      (hRows : ∀ jti, rows'.lookup jti = rows.lookup jti) :
      SameRows (.memory rows) (.memory rows')
  | sqlite (rows : AList fun _ : String => UsageRow) :
      SameRows (.sqlite rows) (.sqlite rows)

/-
  The row that a reservation compares with the budget: rolled
  over where its window has passed, and claimed.
-/
def reservedRow
    (rfc3339 : Rfc3339)
    (jti tenantId : String)
    (now : DateTime)
    (window : Duration)
    (ledger : MandateLedger) : MandateUsage :=
  ((ledger.usage rfc3339 jti).rollWindow now
    window).claimTenant tenantId

section Refused

variable {rfc3339 : Rfc3339}
variable {ledger ledger' ledger'' : MandateLedger}
variable {jti tenantId : String}
variable {now : DateTime} {window : Duration}

theorem usage_memory
    (rows : AList fun _ : String => MandateUsage) :
    (MandateLedger.memory rows).usage rfc3339 jti =
      (rows.lookup jti).getD {} :=
  rfl

theorem SameRows.refl (ledger : MandateLedger) :
    SameRows ledger ledger := by
  cases ledger with
  | memory rows => exact .memory rows rows fun _ => rfl
  | sqlite rows => exact .sqlite rows

theorem SameRows.trans
    (hFirst : SameRows ledger ledger')
    (hSecond : SameRows ledger' ledger'') :
    SameRows ledger ledger'' := by
  cases hFirst with
  | memory rows rows' hRows =>
      cases hSecond with
      | memory _ rows'' hRows' =>
          exact .memory rows rows'' fun jti =>
            (hRows' jti).trans (hRows jti)
  | sqlite rows => exact hSecond

theorem SameRows.usage
    (hSame : SameRows ledger ledger')
    (jti : String) :
    ledger'.usage rfc3339 jti = ledger.usage rfc3339 jti := by
  cases hSame with
  | memory rows rows' hRows =>
      rw [usage_memory, usage_memory, hRows jti]
  | sqlite rows => rfl

theorem SameRows.memory_iff
    (hSame : SameRows ledger ledger') :
    (∃ rows, ledger' = .memory rows) ↔
      ∃ rows, ledger = .memory rows := by
  cases hSame with
  | memory rows rows' hRows =>
      exact ⟨fun _ => ⟨rows, rfl⟩, fun _ => ⟨rows', rfl⟩⟩
  | sqlite rows => exact Iff.rfl

/- A row with an open window is stored. -/
theorem reservedRow_windowStart_isSome :
    (ledger.reservedRow rfc3339 jti tenantId now
      window).windowStart.isSome = true := by
  unfold reservedRow
  rw [MandateUsage.claimTenant_windowStart]
  rcases (ledger.usage rfc3339 jti).rollWindow_cases now
      window with
    ⟨-, hStart, -⟩ | ⟨⟨start, hStart, -⟩, hSame⟩
  · rw [hStart]
    rfl
  · rw [hSame, hStart]
    rfl

/- Writing the row that is there already changes nothing. -/
theorem sameRows_insert
    {rows : AList fun _ : String => MandateUsage}
    (hSame :
      (MandateLedger.memory rows).reservedRow rfc3339 jti
          tenantId now window =
        (MandateLedger.memory rows).usage rfc3339 jti) :
    SameRows (.memory rows)
      (.memory (rows.insert jti
        ((MandateLedger.memory rows).reservedRow rfc3339 jti
          tenantId now window))) := by
  have hStored :
      rows.lookup jti =
        some ((MandateLedger.memory rows).reservedRow rfc3339
          jti tenantId now window) := by
    have hOpen :
        ((MandateLedger.memory rows).reservedRow rfc3339 jti
          tenantId now window).windowStart.isSome = true :=
      reservedRow_windowStart_isSome
    rw [hSame, usage_memory] at hOpen
    rw [hSame, usage_memory]
    cases hRow : rows.lookup jti with
    | none =>
        rw [hRow] at hOpen
        cases hOpen
    | some row => rfl
  refine .memory _ _ fun other => ?_
  by_cases hKey : other = jti
  · rw [hKey, AList.lookup_insert, hStored]
  · rw [AList.lookup_insert_ne hKey]

/-
  A refused reservation keeps the rows, but where the map in
  memory has rolled its row over, or claimed it, before it
  compared.
-/
theorem sameRows_of_refused
    {fault : Bool}
    {amountMinor : Int64}
    {limits : MandateSpendLimits}
    {error : ApiError}
    (hRefused :
      ledger.tryRecordSpendChecked rfc3339 fault jti tenantId
        amountMinor now limits = (.error error, ledger'))
    (hUntouched :
      ∀ rows, ledger = .memory rows →
        error =
          exceedsRemaining amountMinor
            ((ledger.reservedRow rfc3339 jti tenantId now
              limits.window).remaining limits.budgetMinor) →
        ledger.reservedRow rfc3339 jti tenantId now
            limits.window =
          ledger.usage rfc3339 jti) :
    SameRows ledger ledger' := by
  unfold tryRecordSpendChecked at hRefused
  split at hRefused
  · cases hRefused
  split at hRefused
  · cases hRefused
    exact .refl ledger
  split at hRefused
  · cases hRefused
    exact .refl ledger
  split at hRefused
  · cases hRefused
    exact .refl ledger
  dsimp only at hRefused
  split at hRefused
  · split at hRefused
    · cases hRefused
      exact sameRows_insert (hUntouched _ rfl rfl)
    · cases hRefused
  · split at hRefused
    · cases hRefused
      exact .refl _
    · cases hRefused

end Refused

end MandateLedger

end Model

end IcpHandler

------------------------------------------------------------
-- Rows Marked Expired
------------------------------------------------------------

namespace IcpHandler

namespace Protocol

open Model Service Concurrency

section Marked

variable {V : Type}

/-
  The row is as it was, or it was found due at a time that the
  clock has shown, and bears the mark.
-/
def AtMostMarked
    (due : V → DateTime → Prop)
    (mark : DateTime → V → V)
    (past : Moves)
    (before after : Option V) : Prop :=
  after = before ∨
    ∃ row now,
      (⟨.now, now⟩ : Move Eff.Res) ∈ past ∧
      due row now ∧
      before = some row ∧ after = some (mark now row)

variable {due : V → DateTime → Prop}
variable {mark : DateTime → V → V}
variable {past : Moves}
variable {before after : Option V}

theorem AtMostMarked.later
    (hMarked : AtMostMarked due mark past before after)
    (move : Move Eff.Res) :
    AtMostMarked due mark (move :: past) before after := by
  rcases hMarked with hSame | ⟨row, now, hNow, hDue, hRow⟩
  · exact .inl hSame
  · exact .inr
      ⟨row, now, List.mem_cons_of_mem _ hNow, hDue, hRow⟩

/- A row that is marked once more bears the later mark. -/
theorem AtMostMarked.push
    (hAgain :
      ∀ row now earlier, due (mark earlier row) now →
        due row now ∧
          mark now (mark earlier row) = mark now row)
    (hMarked : AtMostMarked due mark past before after)
    {row : V}
    {now : DateTime}
    (hNow : (⟨.now, now⟩ : Move Eff.Res) ∈ past)
    (hDue : due row now)
    (hRow : after = some row) :
    AtMostMarked due mark past before (some (mark now row)) := by
  rcases hMarked with hSame | ⟨first, earlier, -, -, hFirst, hMark⟩
  · exact .inr ⟨row, now, hNow, hDue, hSame ▸ hRow, rfl⟩
  · have hRowMarked : row = mark earlier first := by
      rw [hRow] at hMark
      exact Option.some.inj hMark
    subst hRowMarked
    obtain ⟨hFirstDue, hSame⟩ := hAgain first now earlier hDue
    exact .inr ⟨first, now, hNow, hFirstDue, hFirst, by
      rw [hSame]⟩

end Marked

/- An open transaction whose quote has lapsed. -/
def TxnDue (txn : Transaction) (now : DateTime) : Prop :=
  (txn.state.isOpen && txn.quoteLapsed now) = true

/- A peer quote past its deadline. -/
def QuoteDue (quote : PeerQuote) (now : DateTime) : Prop :=
  quote.expiresAt ≤ now

def markTxn
    (now : DateTime)
    (txn : Transaction) : Transaction :=
  { txn with state := .expired, updatedAt := now }

def markQuote
    (now : DateTime)
    (quote : PeerQuote) : PeerQuote :=
  { quote with status := .expired, updatedAt := now }

/- A transaction is marked only once. -/
theorem txnDue_again
    (txn : Transaction)
    (now earlier : DateTime)
    (hDue : TxnDue (markTxn earlier txn) now) :
    TxnDue txn now ∧
      markTxn now (markTxn earlier txn) = markTxn now txn := by
  have hOpen : TransactionState.expired.isOpen = true :=
    (Bool.and_eq_true_iff.mp hDue).1
  cases hOpen

theorem quoteDue_again
    (quote : PeerQuote)
    (now earlier : DateTime)
    (hDue : QuoteDue (markQuote earlier quote) now) :
    QuoteDue quote now ∧
      markQuote now (markQuote earlier quote) =
        markQuote now quote :=
  ⟨hDue, rfl⟩

/-
  Nothing has changed between two worlds, but that some rows
  past their deadline may be marked expired.
-/
structure LeftAlone
    (past : Moves)
    (before after : World) : Prop where
  ledger : before.ledger.SameRows after.ledger
  subscriptions :
    ∀ id, after.subscriptions.get id =
      before.subscriptions.get id
  orders : after.orders = before.orders
  transactions :
    ∀ id,
      AtMostMarked TxnDue markTxn past
        (before.transactions.get id)
        (after.transactions.get id)
  peerQuotes :
    ∀ id,
      AtMostMarked QuoteDue markQuote past
        (before.peerQuotes.get id)
        (after.peerQuotes.get id)

/-
  A reservation was refused for lack of budget after the map in
  memory had rolled its row over, or claimed it.
-/
def TouchedOnRefusal
    (rfc3339 : Rfc3339)
    (ledger : MandateLedger)
    (past : Moves) : Prop :=
  (∃ rows, ledger = .memory rows) ∧
    ∃ jti tenantId amountMinor now limits row,
      ledger.reservedRow rfc3339 jti tenantId now
          limits.window = row ∧
      row ≠ ledger.usage rfc3339 jti ∧
      (⟨.recordSpend jti tenantId amountMinor now limits,
        .error (MandateLedger.exceedsRemaining amountMinor
          (row.remaining limits.budgetMinor))⟩ :
        Move Eff.Res) ∈ past

end Protocol

end IcpHandler

------------------------------------------------------------
-- One Harmless Move
------------------------------------------------------------

namespace IcpHandler

namespace Protocol

open Model Service Concurrency

section Steps

variable {svc : IcpService}
variable {input : IntentInput}
variable {w : World}
variable {h : History Eff.Res World}
variable {o : Happening}
variable {past : Moves}

theorem LeftAlone.refl (w : World) : LeftAlone past w w where
  ledger := .refl w.ledger
  subscriptions := fun _ => rfl
  orders := rfl
  transactions := fun _ => .inl rfl
  peerQuotes := fun _ => .inl rfl

/- A harmless move writes no subscription. -/
theorem subscriptions_of_harmless
    {rfc3339 : Rfc3339}
    (hExec : Executes rfc3339 o)
    (hHarmless : HarmlessMove o.move)
    (id : String) :
    o.after.subscriptions.get id =
      o.before.subscriptions.get id := by
  cases hExec.subChange id with
  | kept hKept => exact hKept
  | inserted row hEffect hId hAfter =>
      rcases o with ⟨thread, effect, answer, before, after⟩
      cases hEffect
      exact hHarmless.elim
  | patched patch row hMove hBefore hAfter =>
      rw [hMove] at hHarmless
      cases hHarmless

/- A harmless move creates no order. -/
theorem orders_of_harmless
    {rfc3339 : Rfc3339}
    (hExec : Executes rfc3339 o)
    (hHarmless : HarmlessMove o.move) :
    o.after.orders = o.before.orders := by
  rcases hSpends : o.effect.spends with _ | _
  · exact hExec.framed.orders hSpends
  · rcases o with ⟨thread, effect, answer, before, after⟩
    obtain ⟨choice, hExec⟩ := hExec
    cases effect with
    | recordSpend jti tenantId amount now limits =>
        unfold execEff at hExec
        simp only [Option.some.injEq, Prod.mk.injEq] at hExec
        obtain ⟨-, rfl⟩ := hExec
        rfl
    | createOrder buyer currency items total =>
        obtain ⟨error, hError⟩ := hHarmless
        change answer = .error error at hError
        subst hError
        unfold execEff at hExec
        dsimp only at hExec
        split at hExec
        · cases hExec
          rfl
        · cases hExec
    | _ => cases hSpends

/- A harmless move keeps the rows of the ledger. -/
theorem ledger_of_harmless
    {rfc3339 : Rfc3339}
    (hExec : Executes rfc3339 o)
    (hHarmless : HarmlessMove o.move)
    (hUntouched :
      ¬ TouchedOnRefusal rfc3339 o.before.ledger [o.move]) :
    o.before.ledger.SameRows o.after.ledger := by
  rcases hSpends : o.effect.spends with _ | _
  · rw [hExec.framed.ledger hSpends]
    exact .refl _
  · rcases o with ⟨thread, effect, answer, before, after⟩
    obtain ⟨choice, hExec⟩ := hExec
    cases effect with
    | recordSpend jti tenantId amount now limits =>
        obtain ⟨error, hError⟩ := hHarmless
        change answer = .error error at hError
        subst hError
        unfold execEff at hExec
        simp only [Option.some.injEq, Prod.mk.injEq] at hExec
        obtain ⟨hRefused, rfl⟩ := hExec
        refine MandateLedger.sameRows_of_refused
          (Prod.ext hRefused rfl) ?_
        intro rows hMemory hOver
        by_contra hStale
        refine hUntouched ⟨⟨rows, hMemory⟩, jti, tenantId,
          amount, now, limits, _, rfl, hStale, ?_⟩
        rw [← hOver]
        exact List.mem_cons_self
    | createOrder buyer currency items total =>
        unfold execEff at hExec
        dsimp only at hExec
        split at hExec
        · cases hExec
          exact .refl _
        · cases hExec
          exact .refl _
    | _ => cases hSpends

/- A harmless move at most marks a transaction expired. -/
theorem transactions_of_harmless
    {rfc3339 : Rfc3339}
    {id : String}
    {row : Option Transaction}
    (hExec : Executes rfc3339 o)
    (hHarmless : HarmlessMove o.move)
    (hTimely : MarksInTime past o.effect)
    (hSoFar :
      AtMostMarked TxnDue markTxn past row
        (o.before.transactions.get id)) :
    AtMostMarked TxnDue markTxn (o.move :: past) row
      (o.after.transactions.get id) := by
  cases hExec.txnChange id with
  | kept hKept =>
      rw [hKept]
      exact hSoFar.later _
  | inserted row hEffect hId hAfter =>
      rcases o with ⟨thread, effect, answer, before, after⟩
      rcases hEffect with hEffect | ⟨bills, hEffect⟩
      · cases hEffect
        exact hHarmless.elim
      · cases hEffect
        exact hHarmless.elim
  | patched patch row hMove hBefore hAfter =>
      have hEffect : o.effect = .txns (.update id patch) :=
        congrArg Move.effect hMove
      rw [hMove] at hHarmless
      cases patch with
      | expireIfOpen now =>
          have hNow : (⟨.now, now⟩ : Move Eff.Res) ∈ past :=
            hTimely now (by rw [hEffect]; rfl)
          rw [hAfter]
          by_cases hDue : TxnDue row now
          · have hMarked :
                (TxnPatch.expireIfOpen now).apply row =
                  markTxn now row :=
              if_pos hDue
            rw [hMarked]
            refine AtMostMarked.later ?_ _
            exact hSoFar.push txnDue_again hNow hDue hBefore
          · -- the closure looks again, and finds it still open
            have hSame :
                (TxnPatch.expireIfOpen now).apply row = row :=
              if_neg hDue
            rw [hSame, ← hBefore]
            exact hSoFar.later _
      | _ => cases hHarmless

/- The same for the peer quote that was just read. -/
theorem peerQuotes_of_harmless
    {id : String}
    {row : Option PeerQuote}
    (hLawful : LawfulRun svc (fun _ => .intent input) w h)
    (hInTurn : InTurn (o :: h.past))
    (hRule :
      Rule svc (.intent input) (own o.thread h.past) o.effect)
    (hExec : Executes svc.deps.rfc3339 o)
    (hHarmless : HarmlessMove o.move)
    (hTimely : MarksInTime (own o.thread h.past) o.effect)
    (hBefore : o.before = h.world)
    (hSoFar :
      AtMostMarked QuoteDue markQuote (own o.thread h.past) row
        (o.before.peerQuotes.get id)) :
    AtMostMarked QuoteDue markQuote
      (o.move :: own o.thread h.past) row
      (o.after.peerQuotes.get id) := by
  cases hExec.quoteChange id with
  | kept hKept =>
      rw [hKept]
      exact hSoFar.later _
  | inserted row hEffect hId hAfter =>
      rcases o with ⟨thread, effect, answer, before, after⟩
      cases hEffect
      exact hHarmless.elim
  | patched patch row hMove hStored hAfter =>
      have hEffect : o.effect = .quotes (.update id patch) :=
        congrArg Move.effect hMove
      rw [hMove] at hHarmless
      rw [hEffect] at hRule
      cases patch with
      | expire now =>
          have hNow :
              (⟨.now, now⟩ : Move Eff.Res) ∈
                own o.thread h.past :=
            hTimely now (by rw [hEffect]; rfl)
          have hDue : QuoteDue row now := by
            rcases hRule with
              ⟨_, quote, _, -, hSeen, hLapsed⟩ |
                ⟨_, _, hTick, -⟩
            · have hRead := hSeen.stored hLawful hInTurn
              rw [← hBefore, hStored] at hRead
              cases hRead
              exact hLapsed
            · cases hTick
          rw [hAfter]
          refine AtMostMarked.later ?_ _
          exact hSoFar.push quoteDue_again hNow hDue hStored
      | accept transactionId now => cases hHarmless

end Steps

end Protocol

end IcpHandler

------------------------------------------------------------
-- A Refused Intent
------------------------------------------------------------

namespace IcpHandler

namespace Protocol

open Model Service Concurrency

section Refused

variable {rfc3339 : Rfc3339}
variable {svc : IcpService}
variable {input : IntentInput}
variable {w w' : World}
variable {h : History Eff.Res World}
variable {past : Moves}

/- What is asked of the ledger depends on its rows only. -/
theorem TouchedOnRefusal.of_sameRows
    {ledger ledger' : MandateLedger}
    {move : Move Eff.Res}
    (hSame : ledger.SameRows ledger')
    (hTouched : TouchedOnRefusal rfc3339 ledger' [move]) :
    TouchedOnRefusal rfc3339 ledger (move :: past) := by
  obtain ⟨hMemory, jti, tenantId, amountMinor, now, limits, row,
    hRow, hStale, hMove⟩ := hTouched
  refine ⟨hSame.memory_iff.mp hMemory, jti, tenantId,
    amountMinor, now, limits, row, ?_, ?_, ?_⟩
  · rw [← hRow]
    unfold MandateLedger.reservedRow
    rw [hSame.usage jti]
  · rw [← hSame.usage jti]
    exact hStale
  · rw [List.mem_singleton.mp hMove]
    exact List.mem_cons_self

theorem TouchedOnRefusal.later
    {ledger : MandateLedger}
    (hTouched : TouchedOnRefusal rfc3339 ledger past)
    (move : Move Eff.Res) :
    TouchedOnRefusal rfc3339 ledger (move :: past) := by
  obtain ⟨hMemory, jti, tenantId, amountMinor, now, limits, row,
    hRow, hStale, hMove⟩ := hTouched
  exact ⟨hMemory, jti, tenantId, amountMinor, now, limits, row,
    hRow, hStale, List.mem_cons_of_mem _ hMove⟩

/- An intent follows its protocol, and its clock. -/
private def OwnRule
    (svc : IcpService)
    (input : IntentInput)
    (moves : Moves)
    (effect : Eff) : Prop :=
  Rule svc (.intent input) moves effect ∧
    MarksInTime moves effect

/-
  Harmless moves leave the world alone. By induction on the
  history: every move is one of the same thread.
-/
private theorem leftAlone_of_harmless
    {thread : Nat}
    (hLawful :
      Lawful (machine svc.deps.rfc3339)
        (fun _ => OwnRule svc input) w h)
    (hInTurn : InTurn h.past)
    (hThread : ∀ o ∈ h.past, o.thread = thread)
    (hHarmless : Harmless (own thread h.past))
    (hUntouched :
      ¬ TouchedOnRefusal svc.deps.rfc3339 w.ledger
        (own thread h.past)) :
    LeftAlone (own thread h.past) w h.world := by
  induction hLawful with
  | start => exact .refl w
  | @push h o hBefore hAllows hRule ih =>
      have hMine : o.thread = thread :=
        hThread o List.mem_cons_self
      subst hMine
      change InTurn (o :: h.past) at hInTurn
      change Harmless (own o.thread (o :: h.past)) at hHarmless
      change ¬ TouchedOnRefusal _ _
        (own o.thread (o :: h.past)) at hUntouched
      change LeftAlone (own o.thread (o :: h.past)) w o.after
      rw [own_cons_self] at hHarmless hUntouched ⊢
      obtain ⟨hMove, hEarlier⟩ := harmless_cons.mp hHarmless
      have hSoFar := ih (List.pairwise_cons.mp hInTurn).2
        (fun other hOther =>
          hThread other (List.mem_cons_of_mem _ hOther))
        hEarlier fun hTouched => hUntouched (hTouched.later _)
      have hExec := executes_of_allows hAllows
      have hLawfulRun :
          LawfulRun svc (fun _ => .intent input) w h :=
        hBefore.mono fun _ _ _ hOwn => hOwn.1
      have hWorld : o.before = h.world := hAllows.before_eq
      rw [← hWorld] at hSoFar
      exact
        { ledger :=
            hSoFar.ledger.trans
              (ledger_of_harmless hExec hMove fun hTouched =>
                hUntouched
                  (hTouched.of_sameRows hSoFar.ledger))
          subscriptions := fun id =>
            (subscriptions_of_harmless hExec hMove id).trans
              (hSoFar.subscriptions id)
          orders :=
            (orders_of_harmless hExec hMove).trans hSoFar.orders
          transactions := fun id =>
            transactions_of_harmless hExec hMove hRule.2
              (hSoFar.transactions id)
          peerQuotes := fun id =>
            peerQuotes_of_harmless hLawfulRun hInTurn hRule.1
              hExec hMove hRule.2 hWorld
              (hSoFar.peerQuotes id) }

end Refused

/- A quote of an amount that is good for a minute. -/
private def quotedOffer (amountMinor : Int64) : World :=
  { World.fresh (.memory ∅) [] with
    transactions :=
      Data.KeyedStore.empty.insert
        { id := "X"
          state := .quoted
          agentId := "bot"
          tenantId := "acme"
          mandateJti := none
          currency := "USD"
          jurisdiction := none
          buyer := { email := some "a@b.example" }
          shipTo := none
          billTo := none
          lineItems := []
          totals := { total := some (.new amountMinor "USD") }
          orderId := none
          quoteExpiresAt := some (Duration.seconds 60)
          createdAt := 0
          updatedAt := 0
          externalRefs := ∅ } }

/- Choices that come a minute later. -/
private def lateChoices : List Choice :=
  (sampleChoices 0).map fun choice =>
    { choice with clock := Duration.seconds 60 }

/- A purchase after the deadline of the quote. -/
private def overdueBuy :
    Option (Except Halt IntentResponseBody ×
      History Eff.Res World × List Choice) :=
  (handleIntent concreteService (sampleBuy "X")).run.eval
    (machine concreteService.deps.rfc3339) 0 lateChoices
    (.start (quotedOffer 40))

/- It neither spends nor signs, and the quote is marked. -/
private def marksQuote : Bool :=
  overdueBuy.any fun ended =>
    (match ended.1 with
      | .error (.error _) => true
      | _ => false) &&
    (own 0 ended.2.1.past).all (fun move =>
      !move.effect.spends &&
        match move.effect with
        | .signClaims _ => false
        | _ => true) &&
    ((ended.2.1.world.transactions.get "X").any
      fun txn => txn.state == .expired)

/- A service that can read the sample mandate, and prices. -/
private def budgetService (config : Config) : IcpService :=
  { concreteService with
    config := config
    hasEngine := true
    deps :=
      { concreteDeps with
        subscribeParams := fun params =>
          match itemsOfParams params with
          | none => .error "missing field `items`"
          | some items => do
              pure
                { items := items
                  cadence := ← concreteCadence params
                  payment := ← concretePayment params
                  trialDays := concreteTrialDays params }
        base64Decode := fun segment =>
          if segment.isEmpty then none
          else some sampleMandateBytes
        mandatePayload := fun bytes =>
          if bytes.isEmpty then
            .error "EOF while parsing a value"
          else .ok sampleMandate } }

/- A purchase of that quote under the mandate for 100. -/
private def mandatedBuy : IntentInput :=
  { sampleBuy "X" with mandateJws := some sampleMandateJws }

/- A trial of a day too much, at a price of 40. -/
private def mandatedTrial : IntentInput :=
  { sampleInput .subscribe
      [("items", .arr [.obj
          [("sku", .str "tea"), ("quantity", .int 1),
            ("unit_price_hint", .obj
              [("amount_minor", .int 40),
                ("currency", .str "USD")])]]),
        ("cadence", .str "weekly"),
        ("trial_days", .int 367), samplePayment] none with
    mandateJws := some sampleMandateJws }

/- The engine is down, and the signer has no key. -/
private def failingChoices : List Choice :=
  (sampleChoices 0).map fun choice =>
    { choice with
      engine := .error "down"
      signature := .error "no key" }

/- An error is answered, and the world is not left alone. -/
def LeavesTraces
    (svc : IcpService)
    (input : IntentInput)
    (w : World)
    (choices : List Choice) : Prop :=
  ∃ error h rest,
    (handleIntent svc input).run.eval
        (machine svc.deps.rfc3339) 0 choices (.start w) =
      some (.error (.error error), h, rest) ∧
    ¬ LeftAlone (own 0 h.past) w h.world

private def leavesUsage
    (svc : IcpService)
    (input : IntentInput)
    (w : World) : Bool :=
  ((handleIntent svc input).run.eval
      (machine svc.deps.rfc3339) 0 failingChoices
      (.start w)).any fun ended =>
    (match ended.1 with
      | .error (.error _) => true
      | _ => false) &&
    decide (ended.2.1.world.ledger.usage svc.deps.rfc3339 "m1" ≠
      w.ledger.usage svc.deps.rfc3339 "m1")

private theorem leavesTraces_of_leavesUsage
    {svc : IcpService}
    {input : IntentInput}
    {w : World}
    (hUsage : leavesUsage svc input w = true) :
    LeavesTraces svc input w failingChoices := by
  obtain ⟨⟨result, h, rest⟩, hRun, hBoth⟩ :=
    (Option.any_eq_true _ _).mp hUsage
  obtain ⟨hError, hChanged⟩ := Bool.and_eq_true_iff.mp hBoth
  dsimp only at hError hChanged
  split at hError
  · rename_i error
    refine ⟨error, h, rest, hRun, fun hAlone => ?_⟩
    exact of_decide_eq_true hChanged
      (hAlone.ledger.usage "m1")
  · cases hError

end Protocol

end IcpHandler
