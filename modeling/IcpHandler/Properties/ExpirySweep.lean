import IcpHandler.Model.Concrete
import IcpHandler.Protocol.Runs

/-
  The expiry sweep and the sales it runs beside. The sweep
  expires what it has listed without looking again, so it can
  take back a sale that was made in between; it cannot in any
  other way. Each transaction it expires is announced once.

  Main declarations:
    * `takesBack`
    * `NotClosedMeanwhile`
    * `sweep_spares_sales`
-/

------------------------------------------------------------
-- Sweeping and Selling
------------------------------------------------------------

namespace IcpHandler

namespace Protocol

open Model Service Concurrency

/- The occurrence stores the transaction as not open. -/
def closes (id : String) : Happening → Bool
  | ⟨_, .txns (.insert row), _, _, _⟩ =>
      row.id == id && !row.state.isOpen
  | ⟨_, .insertCharge row _, _, _, _⟩ =>
      row.id == id && !row.state.isOpen
  | ⟨_, .txns (.update key _), some row, _, _⟩ =>
      key == id && !row.state.isOpen
  | _ => false

/- The update sets the state of the row to `Expired`. -/
def setsExpired (row : Transaction) : TxnPatch → Bool
  | .expire _ => true
  | .expireIfOpen now => row.state.isOpen && row.quoteLapsed now
  | _ => false

/-
  The occurrence expires a transaction that has left `Draft`
  and `Quoted`.
-/
def takesBack : Happening → Bool
  | ⟨_, .txns (.update key patch), some _, before, _⟩ =>
      (before.transactions.get key).any fun row =>
        !row.state.isOpen && setsExpired row patch
  | _ => false

/- The transaction a move has expired, where it landed. -/
def sweptId : Move Eff.Res → Option String
  | ⟨.txns (.update id (.expire _)), some _⟩ => some id
  | _ => none

def sweptIds (past : Moves) : List String :=
  past.filterMap sweptId

/- The pass reads which transactions are due. -/
def listsTxns : Eff → Bool
  | .txns (.listDue _) => true
  | _ => false

/-
  Where a pass expires a transaction, nobody has taken it out
  of `Draft` and `Quoted` after the pass had listed it.
-/
def NotClosedMeanwhile
    (past : Past)
    (o : Happening) : Prop :=
  match o.effect with
  | .txns (.update id (.expire _)) =>
      Conforms
        (fun older other =>
          closes id other = true →
            ∀ listing ∈ older, listing.thread = o.thread →
              listsTxns listing.effect = false)
        past
  | _ => True

instance
    (past : Past)
    (o : Happening) :
    Decidable (NotClosedMeanwhile past o) :=
  match o with
  | ⟨thread, effect, answer, before, after⟩ => by
      dsimp only [NotClosedMeanwhile]
      split
      · infer_instance
      · infer_instance

section Sweep

variable {svc : IcpService}
variable {ops : Nat → Op}
variable {w : World}
variable {h : History Eff.Res World}

theorem closes_inserted
    {id : String}
    {o : Happening}
    {row : Transaction}
    (hEffect :
      o.effect = .txns (.insert row) ∨
        ∃ bills, o.effect = .insertCharge row bills)
    (hId : row.id = id) :
    closes id o = !row.state.isOpen := by
  rcases o with ⟨thread, effect, answer, before, after⟩
  rcases hEffect with hEffect | ⟨bills, hEffect⟩
  · cases hEffect
    simp [closes, hId]
  · cases hEffect
    simp [closes, hId]

theorem closes_updated
    {id : String}
    {o : Happening}
    {patch : TxnPatch}
    {row : Transaction}
    (hMove : o.move = ⟨.txns (.update id patch), some row⟩) :
    closes id o = !row.state.isOpen := by
  rcases o with ⟨thread, effect, answer, before, after⟩
  cases hMove
  simp [closes]

/- Open transactions stay open until somebody closes them. -/
theorem keeps_open
    {id : String}
    {o : Happening}
    (hExec : Executes svc.deps.rfc3339 o)
    (hBefore : o.before = h.world)
    (hOpen :
      ∃ row, h.world.transactions.get id = some row ∧
        row.state.isOpen = true)
    (hKeeps : closes id o = false) :
    ∃ row, o.after.transactions.get id = some row ∧
      row.state.isOpen = true := by
  cases hExec.txnChange id with
  | kept hKept =>
      rw [hKept, hBefore]
      exact hOpen
  | inserted new hEffect hId hAfter =>
      refine ⟨new, hAfter, ?_⟩
      rw [closes_inserted hEffect hId] at hKeeps
      simpa using hKeeps
  | patched patch found hMove hFound hAfter =>
      refine ⟨patch.apply found, hAfter, ?_⟩
      rw [closes_updated hMove] at hKeeps
      simpa using hKeeps

/-
  A pass finds what it has listed open, unless somebody has
  closed it since.
-/
theorem open_since_listing
    (hLawful : LawfulRun svc ops w h)
    {thread : Nat}
    {now : DateTime}
    {due : List Transaction}
    {txn : Transaction}
    (hListing :
      (⟨.txns (.listDue now), due⟩ : Move Eff.Res) ∈
        own thread h.past)
    (hTxn : txn ∈ due)
    (hUnbroken :
      UnbrokenSince (closes txn.id) listsTxns thread h.past) :
    ∃ row, h.world.transactions.get txn.id = some row ∧
      row.state.isOpen = true := by
  obtain ⟨recent, listing, older, hPast, -, hMove, hNone⟩ :=
    hUnbroken.cut hListing rfl
  have hMem : listing ∈ h.past := by
    rw [hPast]
    exact List.mem_append_right _ List.mem_cons_self
  have hExec := hLawful.executes hMem
  have hQuiet : listing.effect.touchesTxns = false := by
    have hEffect : listing.effect = .txns (.listDue now) :=
      congrArg Move.effect hMove
    rw [hEffect]
    rfl
  obtain ⟨hGet, hOpen⟩ := (hExec.listTxns hMove).1 txn hTxn
  have hFirst :
      ∃ row,
        listing.after.transactions.get txn.id = some row ∧
          row.state.isOpen = true := by
    rw [hExec.framed.transactions hQuiet]
    exact ⟨txn, hGet, hOpen⟩
  refine Lawful.since (P := fun w =>
    ∃ row, w.transactions.get txn.id = some row ∧
      row.state.isOpen = true) _ hLawful hPast hFirst ?_ hNone
  intro h' o _ hAllows _ hOpen hKeeps
  exact keeps_open (executes_of_allows hAllows)
    hAllows.before_eq hOpen hKeeps

/- What takes a sale back is the update of a sweep. -/
theorem takesBack_cases
    {o : Happening}
    (hTakes : takesBack o = true) :
    ∃ id now updated row,
      o.move = ⟨.txns (.update id (.expire now)),
        some updated⟩ ∧
      o.before.transactions.get id = some row ∧
      row.state.isOpen = false := by
  rcases o with ⟨thread, effect, answer, before, after⟩
  unfold takesBack at hTakes
  split at hTakes
  · rename_i id patch updated _ _ hEq
    cases hEq
    simp only [Option.any_eq_true, Bool.and_eq_true,
      Bool.not_eq_true'] at hTakes
    rcases hTakes with ⟨row, hRow, hClosed, hSets⟩
    cases patch with
    | expire now =>
        exact ⟨id, now, updated, row, rfl, hRow, hClosed⟩
    | expireIfOpen now =>
        simp only [setsExpired, hClosed, Bool.false_and] at hSets
        cases hSets
    | _ => cases hSets
  · cases hTakes

theorem not_takesBack
    (hLawful : LawfulRun svc ops w h)
    (hCond : Conforms NotClosedMeanwhile h.past)
    {o : Happening}
    (hMem : o ∈ h.past) :
    takesBack o = false := by
  rw [Bool.eq_false_iff]
  intro hTakes
  rcases List.append_of_mem hMem with ⟨recent, older, hPast⟩
  rcases hLawful.cut hPast with
    ⟨earlier, hEarlier, hEarlierPast, hExec, hBefore, hRule⟩
  rcases takesBack_cases hTakes with
    ⟨id, now, updated, row, hMove, hRow, hClosed⟩
  have hEffect : o.effect = .txns (.update id (.expire now)) :=
    congrArg Move.effect hMove
  rw [hEffect] at hRule
  rcases hRule with
    ⟨-, seen, before, passed, txn, rest, hOwn, rfl, -⟩
  have hDue : txn ∈ passed ++ txn :: rest := by simp
  -- The condition speaks of everything since the listing.
  rw [hPast] at hCond
  have hMeanwhile := hCond.cut.1
  rw [NotClosedMeanwhile, hEffect] at hMeanwhile
  have hListing :
      (⟨.txns (.listDue now), passed ++ txn :: rest⟩ :
          Move Eff.Res) ∈ own o.thread older := by
    rw [hOwn]
    exact List.mem_append_right _ List.mem_cons_self
  rw [← hEarlierPast] at hListing hMeanwhile
  rcases open_since_listing hEarlier hListing hDue
      hMeanwhile with ⟨found, hFound, hOpen⟩
  rw [← hBefore, hRow] at hFound
  cases hFound
  rw [hClosed] at hOpen
  cases hOpen

/- A finished pass announces each transaction once. -/
theorem announced_once
    (hLawful : LawfulRun svc ops w h)
    {thread : Nat}
    {now : DateTime}
    (hSwept : Swept now (own thread h.past))
    {id : String}
    (hExpired : id ∈ expiredIds (own thread h.past)) :
    (announcedIds (own thread h.past)).count id = 1 := by
  rcases hSwept.expired with ⟨due, hListing, hIds⟩
  rcases mem_own_iff.mp hListing with ⟨o, hMem, -, hMove⟩
  have hNodup :=
    ((hLawful.executes hMem).listTxns hMove).2
  rw [hSwept.announced]
  refine List.count_eq_one_of_mem ?_ hExpired
  rw [hIds]
  exact List.nodup_reverse.mpr hNodup

theorem mem_expiredIds_of_mem_sweptIds
    {past : Moves}
    {id : String}
    (hSwept : id ∈ sweptIds past) :
    id ∈ expiredIds past := by
  rcases List.mem_filterMap.mp hSwept with
    ⟨⟨effect, answer⟩, hMem, hMatch⟩
  refine List.mem_filterMap.mpr ⟨_, hMem, ?_⟩
  unfold sweptId at hMatch
  split at hMatch
  · rename_i hMove
    cases hMove
    exact hMatch
  · cases hMatch

/-
  Where nothing closes a transaction between a pass's listing
  and its update, no sale is taken back, whatever else
  interleaves; and a pass that has returned has announced each
  transaction it has expired exactly once.
-/
theorem sweep_spares_sales
    {pool : Pool Eff.Res World OpResult}
    (hReaches : Reaches svc ops w pool)
    (hCond : Conforms NotClosedMeanwhile pool.history.past) :
    (∀ o ∈ pool.history.past, takesBack o = false) ∧
      ∀ thread now result,
        ops thread = .tickExpiries now →
        pool.threads thread = .ret (.expiries result) →
        ∀ id ∈ sweptIds (own thread pool.history.past),
          (announcedIds (own thread pool.history.past)).count
            id = 1 := by
  refine ⟨fun o hMem =>
    not_takesBack hReaches.lawful hCond hMem, ?_⟩
  intro thread now result hOp hReturned id hSwept
  have hPost := hReaches.post hReturned
  rw [hOp] at hPost
  exact announced_once hReaches.lawful hPost
    (mem_expiredIds_of_mem_sweptIds hSwept)

end Sweep

/- A quote, a purchase of it, and a pass at its deadline. -/
private def sweptSale : Nat → Op
  | 0 => .intent (sampleQuote "X" 1)
  | 1 => .intent (sampleBuy "X")
  | _ => .tickExpiries (Duration.minutes 15)

/-
  The pass lists the quote while the purchase, begun in time,
  is about to complete it.
-/
private def sweptSaleSchedule : List (Nat × Choice) :=
  [(0, {}), (0, {}), (0, {}), (0, {}), (1, {}), (1, {}),
    (1, { clock := Duration.minutes 14 }),
    (2, { order := ["X"] }),
    (1, { clock := Duration.minutes 15 }), (1, {}), (2, {})]

/- A pass can take back a sale. -/
theorem sweep_takes_back_sale :
    ¬ ∀ svc ops ledger subscribers pool,
      Reaches svc ops (.fresh ledger subscribers) pool →
      ∀ o ∈ pool.history.past, takesBack o = false := by
  intro hAll
  have hRun :
      ((runOf concreteService sweptSale (.fresh (.memory ∅) [])
        sweptSaleSchedule).any fun pool =>
          pool.history.past.any takesBack) = true := by
    decide
  rcases Option.any_eq_true _ _ |>.mp hRun with
    ⟨pool, hPool, hTakes⟩
  rcases List.any_eq_true.mp hTakes with ⟨o, hMem, hTaken⟩
  have hKept := hAll concreteService sweptSale (.memory ∅) []
    pool ⟨sweptSaleSchedule, hPool⟩ o hMem
  rw [hTaken] at hKept
  cases hKept

/- A quote nobody buys, and a whole pass over it. -/
private def sweptQuoteSchedule : List (Nat × Choice) :=
  [(0, {}), (0, {}), (0, {}), (0, {}),
    (2, { order := ["X"] }), (2, {}), (2, { token := "e" }),
    (2, {}), (2, {}), (2, {}), (2, {})]

/- The thread has returned from an expiry pass. -/
private def sweepReturned :
    Prog Eff.Res OpResult → Bool
  | .ret (.expiries _) => true
  | _ => false

theorem sweep_spares_sales_sample :
    ∃ pool,
      runOf concreteService sweptSale (.fresh (.memory ∅) [])
        sweptQuoteSchedule = some pool ∧
      (∀ o ∈ pool.history.past, takesBack o = false) ∧
      (announcedIds (own 2 pool.history.past)).count "X" =
        1 := by
  have hRun :
      ((runOf concreteService sweptSale (.fresh (.memory ∅) [])
        sweptQuoteSchedule).any fun pool =>
          decide (Conforms NotClosedMeanwhile
            pool.history.past) &&
          sweepReturned (pool.threads 2) &&
          (sweptIds (own 2 pool.history.past)).contains
            "X") = true := by
    decide
  rcases Option.any_eq_true _ _ |>.mp hRun with
    ⟨pool, hPool, hChecks⟩
  simp only [Bool.and_eq_true, decide_eq_true_eq,
    List.contains_iff_mem] at hChecks
  rcases hChecks with ⟨⟨hCond, hReturned⟩, hSwept⟩
  have hThread :
      ∃ result, pool.threads 2 = .ret (.expiries result) := by
    unfold sweepReturned at hReturned
    split at hReturned
    · rename_i result hResult
      exact ⟨result, hResult⟩
    · cases hReturned
  rcases hThread with ⟨result, hResult⟩
  have hBoth :=
    sweep_spares_sales ⟨sweptQuoteSchedule, hPool⟩ hCond
  exact ⟨pool, hPool, hBoth.1,
    hBoth.2 2 _ result rfl hResult "X" hSwept⟩

end Protocol

end IcpHandler
