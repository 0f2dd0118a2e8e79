import IcpHandler.Concurrency.Turns
import IcpHandler.Protocol.Runs

/-
  An operation whose turn it is. What it has read it finds
  unchanged at every later step, unless it has written it
  itself; so its reads speak of the present world, and the ids
  it has drawn are not in use.

  Main declarations:
    * `kept_since`, `loud_since`
    * `SeenTxn.stored`, `SeenSub.stored`, `SeenQuote.stored`
    * `unstoredTxn`, `unstoredSub`, `unstoredQuote`
    * `NextToExpire.stored`
    * `runInTurn`, `runInTurn_succ`
    * `succeeded`, `turnResult`
-/

------------------------------------------------------------
-- What is Kept in a Turn
------------------------------------------------------------

namespace IcpHandler

namespace Protocol

open Model Service Concurrency

section Turn

variable {β : Type}
variable {svc : IcpService}
variable {ops : Nat → Op}
variable {w : World}
variable {h : History Eff.Res World}
variable {o : Happening}
variable {id : String}

/-
  What a thread's turn has found at a move of its own is still
  so, where none of its later moves changes it.
-/
theorem kept_since
    (part : World → β)
    (changes : Happening → Bool)
    (hKeeps :
      ∀ o, Executes svc.deps.rfc3339 o → changes o = false →
        part o.after = part o.before)
    (hLawful : LawfulRun svc ops w h)
    (hInTurn : InTurn (o :: h.past))
    {recent older : Moves}
    {move : Move Eff.Res}
    (hOwn :
      own o.thread h.past = recent ++ move :: older)
    (hQuiet :
      ∀ other : Happening, other.move ∈ recent →
        changes other = false) :
    ∃ first, Executes svc.deps.rfc3339 first ∧
      first.move = move ∧
      part h.world = part first.after := by
  obtain ⟨later, first, earlier, hPast, -, hMove, hLater⟩ :=
    hInTurn.split hOwn
  have hMem : first ∈ h.past := by
    rw [hPast]
    exact List.mem_append_right _ List.mem_cons_self
  refine ⟨first, hLawful.executes hMem, hMove, ?_⟩
  refine Lawful.since (P := fun w => part w = part first.after)
    changes hLawful hPast rfl ?_ (fun other hOther =>
      hQuiet other (hLater other hOther))
  intro h o _ hAllows _ hSame hNo
  rw [hKeeps o (executes_of_allows hAllows) hNo,
    hAllows.before_eq]
  exact hSame

/- The same for a store that only loud effects write. -/
theorem loud_since
    (part : World → β)
    {loud : Eff → Bool}
    (hFramed :
      ∀ o : Happening, Executes svc.deps.rfc3339 o →
        loud o.effect = false → part o.after = part o.before)
    (hLawful : LawfulRun svc ops w h)
    (hInTurn : InTurn (o :: h.past))
    {move : Move Eff.Res}
    (hSince : Since loud move (own o.thread h.past))
    (hQuiet : loud move.effect = false) :
    ∃ first, Executes svc.deps.rfc3339 first ∧
      first.move = move ∧
      part h.world = part first.before := by
  obtain ⟨recent, older, hOwn, hLater⟩ := hSince
  obtain ⟨first, hExec, hMove, hSame⟩ :=
    kept_since part (fun other => loud other.effect) hFramed
      hLawful hInTurn hOwn (fun other hOther =>
        hLater other.move hOther)
  refine ⟨first, hExec, hMove, hSame.trans ?_⟩
  subst hMove
  exact hFramed first hExec hQuiet

/- What was read under the lock is what is stored. -/
theorem SeenTxn.stored
    (hLawful : LawfulRun svc ops w h)
    (hInTurn : InTurn (o :: h.past))
    {txn : Transaction}
    (hSeen : SeenTxn id txn (own o.thread h.past)) :
    h.world.transactions.get id = some txn := by
  obtain ⟨first, hExec, hMove, hSame⟩ :=
    loud_since World.transactions
      (fun _ hExec => hExec.framed.transactions) hLawful hInTurn
      (ReadUnder.since hSeen) rfl
  rw [hSame]
  exact hExec.readTxn hMove

theorem SeenSub.stored
    (hLawful : LawfulRun svc ops w h)
    (hInTurn : InTurn (o :: h.past))
    {sub : Subscription}
    (hSeen : SeenSub id sub (own o.thread h.past)) :
    h.world.subscriptions.get id = some sub := by
  obtain ⟨first, hExec, hMove, hSame⟩ :=
    loud_since World.subscriptions
      (fun _ hExec => hExec.framed.subscriptions) hLawful
      hInTurn (ReadUnder.since hSeen) rfl
  rw [hSame]
  exact hExec.readSub hMove

theorem SeenQuote.stored
    (hLawful : LawfulRun svc ops w h)
    (hInTurn : InTurn (o :: h.past))
    {quote : PeerQuote}
    (hSeen : SeenQuote id quote (own o.thread h.past)) :
    h.world.peerQuotes.get id = some quote := by
  obtain ⟨first, hExec, hMove, hSame⟩ :=
    loud_since World.peerQuotes
      (fun _ hExec => hExec.framed.peerQuotes) hLawful hInTurn
      (ReadUnder.since hSeen) rfl
  rw [hSame]
  exact hExec.readQuote hMove

/- An id that was drawn fresh is not in use. -/
theorem unstoredTxn
    (hLawful : LawfulRun svc ops w h)
    (hInTurn : InTurn (o :: h.past))
    (hFresh :
      Fresh Eff.touchesTxns "txn_" id
        (own o.thread h.past)) :
    h.world.transactions.get id = none := by
  obtain ⟨token, rfl, hSince⟩ := hFresh
  obtain ⟨first, hExec, hMove, hSame⟩ :=
    loud_since World.transactions
      (fun _ hExec => hExec.framed.transactions) hLawful hInTurn
      hSince rfl
  rw [hSame]
  exact (hExec.token hMove).1.2.1

theorem unstoredSub
    (hLawful : LawfulRun svc ops w h)
    (hInTurn : InTurn (o :: h.past))
    (hFresh :
      Fresh Eff.touchesSubs "sub_" id
        (own o.thread h.past)) :
    h.world.subscriptions.get id = none := by
  obtain ⟨token, rfl, hSince⟩ := hFresh
  obtain ⟨first, hExec, hMove, hSame⟩ :=
    loud_since World.subscriptions
      (fun _ hExec => hExec.framed.subscriptions) hLawful
      hInTurn hSince rfl
  rw [hSame]
  exact (hExec.token hMove).1.2.2.1

theorem unstoredQuote
    (hLawful : LawfulRun svc ops w h)
    (hInTurn : InTurn (o :: h.past))
    (hFresh :
      Fresh Eff.touchesQuotes "pq_" id
        (own o.thread h.past)) :
    h.world.peerQuotes.get id = none := by
  obtain ⟨token, rfl, hSince⟩ := hFresh
  obtain ⟨first, hExec, hMove, hSame⟩ :=
    loud_since World.peerQuotes
      (fun _ hExec => hExec.framed.peerQuotes) hLawful hInTurn
      hSince rfl
  rw [hSame]
  exact Option.isNone_iff_eq_none.mp
    (hExec.token hMove).1.2.2.2

/- The occurrence writes the row of the transaction. -/
def writesTxn (id : String) : Happening → Bool
  | ⟨_, .txns (.insert row), _, _, _⟩ => row.id == id
  | ⟨_, .txns (.update key _), _, _, _⟩ => key == id
  | ⟨_, .insertCharge row _, _, _, _⟩ => row.id == id
  | _ => false

theorem get_of_not_writesTxn
    {rfc3339 : Rfc3339}
    (hExec : Executes rfc3339 o)
    (hNo : writesTxn id o = false) :
    o.after.transactions.get id =
      o.before.transactions.get id := by
  cases hExec.txnChange id with
  | kept hKept => exact hKept
  | inserted row hEffect hId hAfter =>
      rcases o with ⟨thread, effect, answer, before, after⟩
      rcases hEffect with hEffect | ⟨bills, hEffect⟩
      · cases hEffect
        simp [writesTxn, hId] at hNo
      · cases hEffect
        simp [writesTxn, hId] at hNo
  | patched patch row hMove hBefore hAfter =>
      rcases o with ⟨thread, effect, answer, before, after⟩
      cases hMove
      simp [writesTxn] at hNo

theorem writesTxn_of_quiet
    (hQuiet : o.effect.touchesTxns = false) :
    writesTxn id o = false := by
  rcases o with ⟨thread, effect, answer, before, after⟩
  cases effect with
  | txns op =>
      cases op with
      | insert row => cases hQuiet
      | update key patch => cases hQuiet
      | _ => rfl
  | insertCharge row bills => cases hQuiet
  | _ => rfl

/- What a pass is about to expire is still open. -/
theorem NextToExpire.stored
    (hLawful : LawfulRun svc ops w h)
    (hInTurn : InTurn (o :: h.past))
    {now : DateTime}
    (hNext : NextToExpire now (own o.thread h.past) id) :
    ∃ txn, h.world.transactions.get id = some txn ∧
      txn.state.isOpen = true := by
  obtain ⟨recent, older, passed, txn, rest, hOwn, rfl,
    hPassed⟩ := hNext
  have hListing :
      (⟨.txns (.listDue now), passed ++ txn :: rest⟩ :
        Move Eff.Res) ∈ own o.thread h.past := by
    rw [hOwn]
    exact List.mem_append_right _ List.mem_cons_self
  obtain ⟨listing, hMem, -, hListed⟩ := mem_own_iff.mp hListing
  obtain ⟨hDue, hNodup⟩ :=
    (hLawful.executes hMem).listTxns hListed
  have hNew : ∀ earlier ∈ passed, earlier.id ≠ txn.id := by
    intro earlier hEarlier hId
    rw [List.map_append, List.nodup_append] at hNodup
    exact hNodup.2.2 earlier.id
      (List.mem_map_of_mem hEarlier) txn.id
      List.mem_cons_self hId
  obtain ⟨first, hExec, hMove, hSame⟩ := by
    refine kept_since (fun w => w.transactions.get txn.id)
      (writesTxn txn.id)
      (fun _ hExec => get_of_not_writesTxn hExec) hLawful
      hInTurn hOwn ?_
    intro other hOther
    cases hTouch : other.effect.touchesTxns with
    | false => exact writesTxn_of_quiet hTouch
    | true =>
        obtain ⟨earlier, hEarlier, hUpdate⟩ :=
          hPassed other.move hOther hTouch
        rcases other with ⟨thread, effect, answer, before, after⟩
        cases hUpdate
        simpa [writesTxn] using hNew earlier hEarlier
  obtain ⟨hStored, hOpen⟩ :=
    (hExec.listTxns hMove).1 txn (by simp)
  refine ⟨txn, ?_, hOpen⟩
  have hEffect : first.effect = .txns (.listDue now) :=
    congrArg Move.effect hMove
  have hQuiet : first.effect.touchesTxns = false := by
    rw [hEffect]
    rfl
  rw [hSame, hExec.framed.transactions hQuiet]
  exact hStored

end Turn

/- The operations one after the other, each to its end. -/
def runInTurn
    (svc : IcpService)
    (ops : Nat → Op)
    (choices : Nat → List Choice)
    (w : World) : Nat → Option (History Eff.Res World) :=
  turns (machine svc.deps.rfc3339)
    (fun thread => (ops thread).prog svc) choices w

/- An intent that is answered, a tick without a failure. -/
def succeeded : OpResult → Bool
  | .response (.ok _) => true
  | .renewals (.ok report) => report.failed == 0
  | .expiries (.ok _) => true
  | _ => false

/- What the operation whose turn is the nth ends with. -/
def turnResult
    (svc : IcpService)
    (ops : Nat → Op)
    (choices : Nat → List Choice)
    (w : World)
    (n : Nat) : Option OpResult :=
  (runInTurn svc ops choices w n).bind fun before =>
    (((ops n).prog svc).eval (machine svc.deps.rfc3339) n
      (choices n) before).map fun ended => ended.1

section LastTurn

variable {svc : IcpService} {ops : Nat → Op}
variable {choices : Nat → List Choice} {w : World}

/- The last turn of a run, and what it ends with. -/
theorem runInTurn_succ
    {n : Nat}
    {h : History Eff.Res World}
    (hTurns : runInTurn svc ops choices w (n + 1) = some h) :
    ∃ before result rest,
      runInTurn svc ops choices w n = some before ∧
        ((ops n).prog svc).eval (machine svc.deps.rfc3339) n
            (choices n) before = some (result, h, rest) ∧
        turnResult svc ops choices w n = some result := by
  have hLast := hTurns
  rw [runInTurn, turns, Option.bind_eq_some_iff] at hLast
  obtain ⟨before, hBefore, hMap⟩ := hLast
  rw [Option.map_eq_some_iff] at hMap
  obtain ⟨⟨result, later, rest⟩, hEval, rfl⟩ := hMap
  refine ⟨before, result, rest, hBefore, hEval, ?_⟩
  have hRun : runInTurn svc ops choices w n = some before :=
    hBefore
  rw [turnResult, hRun, Option.bind_some, hEval]
  rfl

end LastTurn

end Protocol

end IcpHandler
