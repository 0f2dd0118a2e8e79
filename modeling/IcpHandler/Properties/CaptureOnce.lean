import IcpHandler.Model.Concrete
import IcpHandler.Protocol.Runs

/-
  Purchases of one transaction, whatever runs beside them. The
  lock of the transaction keeps purchases, negotiations and
  returns apart; only those that store a new transaction under
  its id, which take no lock, can make it buyable again or
  change its price under a purchase.

  Main declarations:
    * `completesTxn`, `storesTxn`
    * `NotReplaced`
    * `unbuyable_since_completion`, `priced_since_read`
    * `captured_once`
-/

------------------------------------------------------------
-- Completions
------------------------------------------------------------

namespace IcpHandler

namespace Protocol

open Model Service Concurrency

/- The occurrence moves the transaction to `Completed`. -/
def completesTxn (id : String) : Happening → Bool
  | ⟨_, .txns (.update key (.complete _ _)), some _, _, _⟩ =>
      key == id
  | _ => false

/- The occurrence stores a new transaction under the id. -/
def storesTxn (id : String) : Happening → Bool
  | ⟨_, .txns (.insert row), _, _, _⟩ => row.id == id
  | ⟨_, .insertCharge row _, _, _, _⟩ => row.id == id
  | _ => false

def readsTxn (id : String) : Eff → Bool
  | .txns (.get key) => key == id
  | _ => false

/-
  Where a purchase completes a transaction, nobody has stored
  a new one under its id after the purchase had read it, nor
  after an earlier purchase had completed it.
-/
def NotReplaced
    (past : Past)
    (o : Happening) : Prop :=
  match o.effect with
  | .txns (.update id (.complete _ _)) =>
      UnbrokenSince (storesTxn id) (readsTxn id) o.thread
          past ∧
        Conforms
          (fun older other =>
            storesTxn id other = true →
              ∀ earlier ∈ older,
                completesTxn id earlier = false)
          past
  | _ => True

instance
    (past : Past)
    (o : Happening) :
    Decidable (NotReplaced past o) :=
  match o with
  | ⟨thread, effect, answer, before, after⟩ => by
      dsimp only [NotReplaced]
      split
      · infer_instance
      · infer_instance

/- The states `do_buy` goes on from. -/
def buyable : TransactionState → Bool
  | .quoted | .authorized => true
  | _ => false

theorem storesTxn_inserted
    {id : String}
    {o : Happening}
    {row : Transaction}
    (hEffect :
      o.effect = .txns (.insert row) ∨
        ∃ bills, o.effect = .insertCharge row bills)
    (hId : row.id = id) :
    storesTxn id o = true := by
  rcases o with ⟨thread, effect, answer, before, after⟩
  rcases hEffect with hEffect | ⟨bills, hEffect⟩
  · cases hEffect
    simp [storesTxn, hId]
  · cases hEffect
    simp [storesTxn, hId]

theorem completesTxn_cases
    {id : String}
    {o : Happening}
    (hCompletes : completesTxn id o = true) :
    ∃ orderId now row,
      o.move =
        ⟨.txns (.update id (.complete orderId now)),
          some row⟩ := by
  unfold completesTxn at hCompletes
  split at hCompletes
  · rename_i thread key orderId now row before after
    have hKey : key = id := beq_iff_eq.mp hCompletes
    subst hKey
    exact ⟨orderId, now, row, rfl⟩
  · cases hCompletes

end Protocol

end IcpHandler

------------------------------------------------------------
-- After a Completion
------------------------------------------------------------

namespace IcpHandler

namespace Protocol

open Model Service Concurrency

section Completed

variable {svc : IcpService}
variable {ops : Nat → Op}
variable {w : World}
variable {h : History Eff.Res World}
variable {o : Happening}
variable {id : String}

/-
  The transaction is stored and cannot be bought, and whoever
  has read it under its lock has seen as much.
-/
structure Unbuyable
    (id : String)
    (h : History Eff.Res World) : Prop where
  stored :
    ∃ row, h.world.transactions.get id = some row ∧
      buyable row.state = false
  seen :
    ∀ thread txn, SeenTxn id txn (own thread h.past) →
      buyable txn.state = false

/- A completion leaves it so: nobody else has the lock. -/
theorem unbuyable_completed
    (hLawful : LawfulRun svc ops w h)
    (hFree : w.locks = [])
    (hExec : Executes svc.deps.rfc3339 o)
    (hRule :
      Rule svc (ops o.thread) (own o.thread h.past) o.effect)
    (hCompletes : completesTxn id o = true) :
    Unbuyable id (h.push o) := by
  obtain ⟨orderId, now, updated, hMove⟩ :=
    completesTxn_cases hCompletes
  have hEffect :
      o.effect = .txns (.update id (.complete orderId now)) :=
    congrArg Move.effect hMove
  obtain ⟨row, -, rfl, hAfter⟩ := hExec.updatedTxn hMove
  refine ⟨⟨_, hAfter, rfl⟩, ?_⟩
  intro thread txn hSeen
  rw [hEffect] at hRule
  obtain ⟨input, own, -, -, hOwnSeen, -⟩ := hRule
  rcases ReadUnder.push_cases hSeen with
    hRead | ⟨hOlder, hQuiet⟩
  · rw [hMove] at hRead
    cases hRead
  · have hThread : o.thread = thread :=
      (hLawful.locksKept hFree).one_holder hOwnSeen.held
        (SeenTxn.held hOlder)
    have hLoud := hQuiet hThread
    rw [hEffect] at hLoud
    cases hLoud

/- No update makes such a transaction buyable. -/
theorem patched_unbuyable
    {op : Op}
    {past : Moves}
    {patch : TxnPatch}
    {row : Transaction}
    (hRule : Rule svc op past (.txns (.update id patch)))
    (hSeen :
      ∀ txn, SeenTxn id txn past → buyable txn.state = false)
    (hRow : buyable row.state = false) :
    buyable (patch.apply row).state = false := by
  cases patch with
  | expireIfOpen now =>
      rw [TxnPatch.apply]
      split
      · rfl
      · exact hRow
  | authorize buyer shipTo billTo now =>
      -- Only what was seen quoted is authorized.
      obtain ⟨input, txn, -, -, hRead, hQuoted⟩ := hRule
      have hNot := hSeen txn hRead
      rw [hQuoted] at hNot
      cases hNot
  | expire now => rfl
  | complete orderId now => rfl
  | reverse now => rfl
  | renegotiate original new currency entry now => exact hRow
  | confirmReceipt confirmedAt confirmedBy note now =>
      exact hRow

theorem unbuyable_kept
    (hExec : Executes svc.deps.rfc3339 o)
    (hBefore : o.before = h.world)
    (hRule :
      Rule svc (ops o.thread) (own o.thread h.past) o.effect)
    (hUnbuyable : Unbuyable id h)
    (hStores : storesTxn id o = false) :
    Unbuyable id (h.push o) := by
  obtain ⟨row, hRow, hState⟩ := hUnbuyable.stored
  refine ⟨?_, ?_⟩
  · rw [History.push_world]
    cases hExec.txnChange id with
    | kept hKept =>
        rw [hKept, hBefore]
        exact ⟨row, hRow, hState⟩
    | inserted new hEffect hId hAfter =>
        rw [storesTxn_inserted hEffect hId] at hStores
        cases hStores
    | patched patch found hMove hFound hAfter =>
        rw [hBefore, hRow] at hFound
        cases hFound
        have hEffect : o.effect = .txns (.update id patch) :=
          congrArg Move.effect hMove
        rw [hEffect] at hRule
        exact ⟨_, hAfter, patched_unbuyable hRule
          (hUnbuyable.seen o.thread) hState⟩
  · intro thread txn hSeen
    rcases ReadUnder.push_cases hSeen with hRead | ⟨hOlder, -⟩
    · have hStored := hExec.readTxn hRead
      rw [hBefore, hRow] at hStored
      cases hStored
      exact hState
    · exact hUnbuyable.seen thread txn hOlder

/- So it stays until somebody stores a new transaction. -/
theorem unbuyable_since_completion
    (hLawful : LawfulRun svc ops w h)
    (hFree : w.locks = [])
    {recent older : Past}
    {first : Happening}
    (hPast : h.past = recent ++ first :: older)
    (hCompletes : completesTxn id first = true)
    (hNone : ∀ other ∈ recent, storesTxn id other = false) :
    Unbuyable id h := by
  refine Lawful.onward (storesTxn id) hLawful hPast ?_ ?_ hNone
  · intro h hBefore hAllows hRule
    exact unbuyable_completed hBefore hFree
      (executes_of_allows hAllows) hRule hCompletes
  · intro h o _ hAllows hRule hUnbuyable hStores
    exact unbuyable_kept (executes_of_allows hAllows)
      hAllows.before_eq hRule hUnbuyable hStores

end Completed

end Protocol

end IcpHandler

------------------------------------------------------------
-- From a Read to its Completion
------------------------------------------------------------

namespace IcpHandler

namespace Protocol

open Model Service Concurrency

/- The stored transaction has the price of this one. -/
def PricedAs
    (id : String)
    (txn : Transaction)
    (w : World) : Prop :=
  ∃ row, w.transactions.get id = some row ∧
    row.totals = txn.totals ∧ row.currency = txn.currency

section Priced

variable {svc : IcpService}
variable {ops : Nat → Op}
variable {w : World}
variable {h : History Eff.Res World}
variable {o : Happening}
variable {id : String}
variable {thread : Nat}
variable {txn : Transaction}

/- Only a negotiation changes the price of a stored row. -/
theorem patched_price
    {patch : TxnPatch}
    (row : Transaction)
    (hOther :
      ∀ original new currency entry now,
        patch ≠ .renegotiate original new currency entry now) :
    (patch.apply row).totals = row.totals ∧
      (patch.apply row).currency = row.currency := by
  cases patch with
  | expireIfOpen now =>
      rw [TxnPatch.apply]
      split
      · exact ⟨rfl, rfl⟩
      · exact ⟨rfl, rfl⟩
  | renegotiate original new currency entry now =>
      exact absurd rfl (hOther original new currency entry now)
  | _ => exact ⟨rfl, rfl⟩

/- Another thread does not change the price under the lock. -/
theorem priced_kept
    (hLawful : LawfulRun svc ops w h)
    (hFree : w.locks = [])
    (hExec : Executes svc.deps.rfc3339 o)
    (hBefore : o.before = h.world)
    (hRule :
      Rule svc (ops o.thread) (own o.thread h.past) o.effect)
    (hStores : storesTxn id o = false)
    (hSeen : SeenTxn id txn (own thread h.past))
    (hOwn : o.thread = thread → o.effect.touchesTxns = false)
    (hPriced : PricedAs id txn h.world) :
    PricedAs id txn o.after := by
  obtain ⟨row, hRow, hTotals, hCurrency⟩ := hPriced
  cases hExec.txnChange id with
  | kept hKept =>
      refine ⟨row, ?_, hTotals, hCurrency⟩
      rw [hKept, hBefore]
      exact hRow
  | inserted new hEffect hId hAfter =>
      rw [storesTxn_inserted hEffect hId] at hStores
      cases hStores
  | patched patch found hMove hFound hAfter =>
      rw [hBefore, hRow] at hFound
      cases hFound
      have hEffect : o.effect = .txns (.update id patch) :=
        congrArg Move.effect hMove
      have hPrice :
          (patch.apply row).totals = row.totals ∧
            (patch.apply row).currency = row.currency := by
        refine patched_price row ?_
        rintro original new currency entry now rfl
        -- A negotiation would hold the lock as well.
        rw [hEffect] at hRule
        obtain ⟨input, other, -, -, hOther, -⟩ := hRule
        have hQuiet :=
          hOwn ((hLawful.locksKept hFree).one_holder
            hOther.held hSeen.held)
        rw [hEffect] at hQuiet
        cases hQuiet
      exact ⟨_, hAfter, hPrice.1.trans hTotals,
        hPrice.2.trans hCurrency⟩

/-
  What a thread has read under the lock is the price for as
  long as nobody stores a new transaction.
-/
theorem priced_since_read
    (hLawful : LawfulRun svc ops w h)
    (hFree : w.locks = [])
    (hSeen : SeenTxn id txn (own thread h.past))
    (hUnbroken :
      UnbrokenSince (storesTxn id) (readsTxn id) thread
        h.past) :
    PricedAs id txn h.world := by
  obtain ⟨recent, read, older, hPast, hThread, hMove, hNone⟩ :=
    hUnbroken.cut (ReadUnder.since hSeen).mem
      (beq_self_eq_true id)
  -- It holds after each step from the read on that the thread
  -- still sees the transaction at.
  suffices hOnward :
      SeenTxn id txn (own thread h.past) →
        PricedAs id txn h.world from hOnward hSeen
  have hAtRead :
      ∀ o : Happening, Executes svc.deps.rfc3339 o →
        o.move = ⟨.txns (.get id), some txn⟩ →
        PricedAs id txn o.after := by
    intro o hExec hRead
    have hEffect : o.effect = .txns (.get id) :=
      congrArg Move.effect hRead
    have hQuiet : o.effect.touchesTxns = false := by
      rw [hEffect]
      rfl
    refine ⟨txn, ?_, rfl, rfl⟩
    rw [hExec.framed.transactions hQuiet]
    exact hExec.readTxn hRead
  refine Lawful.onward
    (P := fun h => SeenTxn id txn (own thread h.past) →
      PricedAs id txn h.world)
    (storesTxn id) hLawful hPast ?_ ?_ hNone
  · intro h _ hAllows _ _
    exact hAtRead read (executes_of_allows hAllows) hMove
  · intro h o hBefore hAllows hRule ih hStores hPushed
    have hExec := executes_of_allows hAllows
    rcases ReadUnder.push_cases hPushed with
      hRead | ⟨hOlder, hQuiet⟩
    · exact hAtRead o hExec hRead
    · exact priced_kept hBefore hFree hExec hAllows.before_eq
        hRule hStores hOlder hQuiet (ih hOlder)

end Priced

end Protocol

end IcpHandler

------------------------------------------------------------
-- Captured Once
------------------------------------------------------------

namespace IcpHandler

namespace Protocol

open Model Service Concurrency

/-
  What a purchase has done by the time the transaction becomes
  this row: it has reserved the row's total, if it was to, and
  any order it has made is the row's and has its total.
-/
structure CapturedBy
    (input : IntentInput)
    (past : Moves)
    (row : Transaction) : Prop where
  reserved :
    ∀ jti tenantId amount now limits answer,
      (⟨.recordSpend jti tenantId amount now limits, answer⟩ :
        Move Eff.Res) ∈ past →
      amount = totalAmountMinor row.totals
  presented :
    input.mandateJws.isSome → input.skipMandateCheck = false →
      0 < totalAmountMinor row.totals →
      ∃ jti now limits,
        (⟨.recordSpend jti input.tenant.tenantId
            (totalAmountMinor row.totals) now limits,
          .ok ()⟩ : Move Eff.Res) ∈ past
  ordered :
    ∀ buyer currency items total order,
      (⟨.createOrder buyer currency items total, .ok order⟩ :
        Move Eff.Res) ∈ past →
      order.total =
          row.totals.total.getD (.new 0 row.currency) ∧
        row.orderId = some order.id

/- The transaction is captured at most once, and as agreed. -/
structure CapturedOnce
    (ops : Nat → Op)
    (past : Past)
    (id : String) : Prop where
  once : past.countP (completesTxn id) ≤ 1
  agreed :
    ∀ recent o older orderId now row,
      past = recent ++ o :: older →
      o.move =
        ⟨.txns (.update id (.complete orderId now)),
          some row⟩ →
      ∃ input, ops o.thread = .intent input ∧
        CapturedBy input (own o.thread older) row

section Captured

variable {svc : IcpService}
variable {ops : Nat → Op}
variable {w : World}
variable {h : History Eff.Res World}
variable {o : Happening}
variable {id : String}

/- What a purchase completes was not completed before. -/
theorem first_completion
    (hLawful : LawfulRun svc ops w h)
    (hFree : w.locks = [])
    (hRule :
      Rule svc (ops o.thread) (own o.thread h.past) o.effect)
    (hMeanwhile : NotReplaced h.past o)
    (hCompletes : completesTxn id o = true) :
    ∀ earlier ∈ h.past, completesTxn id earlier = false := by
  intro earlier hMem
  rw [Bool.eq_false_iff]
  intro hEarlier
  obtain ⟨orderId, now, updated, hMove⟩ :=
    completesTxn_cases hCompletes
  have hEffect :
      o.effect = .txns (.update id (.complete orderId now)) :=
    congrArg Move.effect hMove
  rw [NotReplaced, hEffect] at hMeanwhile
  obtain ⟨recent, older, hPast⟩ := List.append_of_mem hMem
  have hNone :
      ∀ other ∈ recent, storesTxn id other = false := by
    intro other hOther
    rw [Bool.eq_false_iff]
    intro hStores
    obtain ⟨newer, middle, hRecent⟩ :=
      List.append_of_mem hOther
    have hCond := hMeanwhile.2
    rw [hPast, hRecent, List.append_assoc,
      List.cons_append] at hCond
    have hNo := hCond.cut.1 hStores earlier (by simp)
    rw [hEarlier] at hNo
    cases hNo
  -- So the row that was read could not be bought.
  have hUnbuyable :=
    unbuyable_since_completion hLawful hFree hPast hEarlier
      hNone
  rw [hEffect] at hRule
  obtain ⟨input, txn, -, -, hSeen, hPaid⟩ := hRule
  have hState := hUnbuyable.seen o.thread txn hSeen
  rcases hPaid.state with hQuoted | hAuthorized
  · rw [hQuoted] at hState
    cases hState
  · rw [hAuthorized] at hState
    cases hState

theorem completed_once
    (hLawful : LawfulRun svc ops w h)
    (hFree : w.locks = [])
    (hCond : Conforms NotReplaced h.past) :
    h.past.countP (completesTxn id) ≤ 1 := by
  induction hLawful with
  | start => exact Nat.zero_le 1
  | @push h o hBefore hAllows hRule ih =>
      rw [History.push_past]
      by_cases hCompletes : completesTxn id o = true
      · rw [List.countP_cons_of_pos hCompletes,
          List.countP_eq_zero.mpr]
        intro earlier hMem
        rw [first_completion hBefore hFree hRule hCond.1
          hCompletes earlier hMem]
        exact Bool.false_ne_true
      · rw [List.countP_cons_of_neg hCompletes]
        exact ih hCond.2

/- A purchase completes what it has paid for. -/
theorem completed_as_agreed
    (hLawful : LawfulRun svc ops w h)
    (hFree : w.locks = [])
    (hExec : Executes svc.deps.rfc3339 o)
    (hBefore : o.before = h.world)
    (hRule :
      Rule svc (ops o.thread) (own o.thread h.past) o.effect)
    (hMeanwhile : NotReplaced h.past o)
    {orderId : Option String}
    {now : DateTime}
    {row : Transaction}
    (hMove :
      o.move =
        ⟨.txns (.update id (.complete orderId now)),
          some row⟩) :
    ∃ input, ops o.thread = .intent input ∧
      CapturedBy input (own o.thread h.past) row := by
  have hEffect :
      o.effect = .txns (.update id (.complete orderId now)) :=
    congrArg Move.effect hMove
  rw [NotReplaced, hEffect] at hMeanwhile
  rw [hEffect] at hRule
  obtain ⟨input, txn, hOp, -, hSeen, hPaid⟩ := hRule
  obtain ⟨stored, hStored, hTotals, hCurrency⟩ :=
    priced_since_read hLawful hFree hSeen hMeanwhile.1
  obtain ⟨found, hFound, rfl, -⟩ := hExec.updatedTxn hMove
  rw [hBefore, hStored] at hFound
  cases hFound
  have hRow :
      (TxnPatch.apply (.complete orderId now) stored).totals =
        txn.totals :=
    hTotals
  refine ⟨input, hOp, ?_, ?_, ?_⟩
  · rw [hRow]
    exact hPaid.spent
  · rw [hRow]
    exact hPaid.presented
  · intro buyer currency items total order hMem
    obtain ⟨hTotal, hId⟩ :=
      hPaid.created buyer currency items total order hMem
    obtain ⟨made, hMade, -, hCreated⟩ := mem_own_iff.mp hMem
    have hOrder :=
      (hLawful.executes hMade).createdOrder hCreated
    refine ⟨?_, hId⟩
    change order.total =
      stored.totals.total.getD (.new 0 stored.currency)
    rw [hOrder, hTotal, hTotals, hCurrency]

/-
  In every run in which no purchase completes a transaction
  that was replaced under it or after an earlier completion:
  each transaction is completed at most once, for the amount
  that was reserved and the total of the order.
-/
theorem captured_once
    (svc : IcpService)
    (ops : Nat → Op)
    (w : World)
    (hFree : w.locks = [])
    (pool : Pool Eff.Res World OpResult)
    (hReaches : Reaches svc ops w pool)
    (hCond : Conforms NotReplaced pool.history.past)
    (id : String) :
    CapturedOnce ops pool.history.past id := by
  have hLawful := hReaches.lawful
  refine ⟨completed_once hLawful hFree hCond, ?_⟩
  intro recent o older orderId now row hPast hMove
  obtain ⟨earlier, hEarlier, rfl, hExec, hBefore, hRule⟩ :=
    hLawful.cut hPast
  rw [hPast] at hCond
  exact completed_as_agreed hEarlier hFree hExec hBefore hRule
    hCond.cut.1 hMove

end Captured

/- Two quotes of one transaction, and two purchases of it. -/
private def boughtTwice : Nat → Op
  | 0 => .intent (sampleQuote "X" 1)
  | 1 => .intent (sampleBuy "X")
  | 2 => .intent (sampleQuote "X" 1)
  | 3 => .intent (sampleBuy "X")
  | _ => .tickExpiries (Duration.minutes 15)

/- Each quote is followed by its purchase. -/
private def boughtTwiceSchedule : List (Nat × Choice) :=
  [(0, {}), (0, {}), (0, {}), (0, {}),
    (1, {}), (1, {}), (1, {}), (1, {}), (1, {}), (1, {}),
    (2, {}), (2, {}), (2, {}), (2, {}),
    (3, {}), (3, {}), (3, {}), (3, {}), (3, {})]

/- A transaction can be completed twice. -/
theorem transaction_completed_twice :
    ¬ ∀ svc ops ledger subscribers pool,
      Reaches svc ops (.fresh ledger subscribers) pool →
      ∀ id, CapturedOnce ops pool.history.past id := by
  intro hAll
  have hRun :
      ((runOf concreteService boughtTwice
        (.fresh (.memory ∅) []) boughtTwiceSchedule).any
          fun pool =>
            pool.history.past.countP (completesTxn "X") ==
              2) = true := by
    decide
  obtain ⟨pool, hPool, hTwice⟩ :=
    (Option.any_eq_true _ _).mp hRun
  have hOnce :=
    (hAll concreteService boughtTwice _ _ pool
      ⟨_, hPool⟩ "X").once
  rw [beq_iff_eq.mp hTwice] at hOnce
  omega

/- A purchase between the listing and the update of a pass. -/
private def boughtOnceSchedule : List (Nat × Choice) :=
  [(0, {}), (0, {}), (0, {}), (0, {}),
    (1, {}), (1, {}), (1, {}), (4, { order := ["X"] }),
    (1, {}), (1, {}), (1, {}), (4, {}),
    (3, {}), (3, {}), (3, {})]

theorem captured_once_sample :
    ∃ pool,
      runOf concreteService boughtTwice (.fresh (.memory ∅) [])
        boughtOnceSchedule = some pool ∧
      pool.history.past.any (completesTxn "X") = true ∧
      CapturedOnce boughtTwice pool.history.past "X" := by
  have hRun :
      ((runOf concreteService boughtTwice
        (.fresh (.memory ∅) []) boughtOnceSchedule).any
          fun pool =>
            decide (Conforms NotReplaced pool.history.past) &&
            pool.history.past.any
              (completesTxn "X")) = true := by
    decide
  obtain ⟨pool, hPool, hChecks⟩ :=
    (Option.any_eq_true _ _).mp hRun
  rw [Bool.and_eq_true] at hChecks
  obtain ⟨hCond, hCompleted⟩ := hChecks
  exact ⟨pool, hPool, hCompleted,
    captured_once concreteService boughtTwice _ rfl pool
      ⟨_, hPool⟩ (of_decide_eq_true hCond) "X"⟩

end Protocol

end IcpHandler
