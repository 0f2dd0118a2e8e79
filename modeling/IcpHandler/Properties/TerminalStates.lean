import IcpHandler.Model.Concrete
import IcpHandler.Protocol.Turns

/-
  The terminal states of a transaction, when operations come
  one after the other. No operation leaves one, except where a
  catalogue intent stores a new transaction under the id of an
  old one, and where a return is made of a transaction that
  has expired.

  Main declarations:
    * `Absorbs`
    * `revives`
    * `terminal_states_absorb`
-/

------------------------------------------------------------
-- Terminal States
------------------------------------------------------------

namespace IcpHandler

namespace Model

theorem TransactionState.not_isTerminal_of_isOpen
    {state : TransactionState}
    (hOpen : state.isOpen = true) :
    state.isTerminal = false := by
  cases state with
  | draft => rfl
  | quoted => rfl
  | _ => cases hOpen

end Model

end IcpHandler

------------------------------------------------------------
-- Absorbing States
------------------------------------------------------------

namespace IcpHandler

namespace Protocol

open Model Service Concurrency

/- A terminal state stays, or goes from completed to reversed. -/
def StaysClosed (before after : TransactionState) : Prop :=
  after = before ∨ (before = .completed ∧ after = .reversed)

/- Every terminal transaction is still one. -/
def Absorbs (before after : World) : Prop :=
  ∀ id row, before.transactions.get id = some row →
    row.state.isTerminal = true →
    ∃ row', after.transactions.get id = some row' ∧
      StaysClosed row.state row'.state

/-
  A new transaction comes over a terminal one, or a return is
  made of one that was canceled or has expired.
-/
def revives (o : Happening) : Bool :=
  match o.effect with
  | .txns (.insert row) =>
      (o.before.transactions.get row.id).any fun old =>
        old.state.isTerminal
  | .txns (.update id (.reverse _)) =>
      (o.before.transactions.get id).any fun old =>
        old.state == .canceled || old.state == .expired
  | _ => false

def NotRevived (_ : Past) (o : Happening) : Prop :=
  revives o = false

instance
    (past : Past)
    (o : Happening) :
    Decidable (NotRevived past o) :=
  inferInstanceAs (Decidable (revives o = false))

theorem StaysClosed.isTerminal
    {before after : TransactionState}
    (hStays : StaysClosed before after)
    (hTerminal : before.isTerminal = true) :
    after.isTerminal = true := by
  rcases hStays with rfl | ⟨rfl, rfl⟩
  · exact hTerminal
  · rfl

theorem StaysClosed.trans
    {first second third : TransactionState}
    (hFirst : StaysClosed first second)
    (hSecond : StaysClosed second third) :
    StaysClosed first third := by
  rcases hFirst with rfl | ⟨rfl, rfl⟩
  · exact hSecond
  · rcases hSecond with rfl | ⟨hNo, -⟩
    · exact .inr ⟨rfl, rfl⟩
    · cases hNo

theorem Absorbs.refl (w : World) : Absorbs w w :=
  fun _ row hRow _ => ⟨row, hRow, .inl rfl⟩

theorem Absorbs.trans
    {first second third : World}
    (hFirst : Absorbs first second)
    (hSecond : Absorbs second third) :
    Absorbs first third := by
  intro id row hRow hTerminal
  obtain ⟨row', hRow', hStays⟩ := hFirst id row hRow hTerminal
  obtain ⟨row'', hRow'', hStays'⟩ :=
    hSecond id row' hRow' (hStays.isTerminal hTerminal)
  exact ⟨row'', hRow'', hStays.trans hStays'⟩

section Steps

variable {svc : IcpService}
variable {ops : Nat → Op}
variable {w : World}
variable {h : History Eff.Res World}
variable {o : Happening}
variable {id : String}
variable {row : Transaction}

/- A transaction is only stored over one that can be revived. -/
theorem inserted_not_terminal
    (hLawful : LawfulRun svc ops w h)
    (hInTurn : InTurn (o :: h.past))
    (hRule :
      Rule svc (ops o.thread) (own o.thread h.past) o.effect)
    (hBefore : o.before = h.world)
    (hNot : revives o = false)
    {new : Transaction}
    (hEffect :
      o.effect = .txns (.insert new) ∨
        ∃ bills, o.effect = .insertCharge new bills)
    (hRow : h.world.transactions.get new.id = some row) :
    row.state.isTerminal = false := by
  have hUnused :
      ∀ hFresh : Fresh Eff.touchesTxns "txn_" new.id
        (own o.thread h.past), False := by
    intro hFresh
    rw [unstoredTxn hLawful hInTurn hFresh] at hRow
    cases hRow
  rcases hEffect with hEffect | ⟨bills, hEffect⟩
  · rw [hEffect] at hRule
    obtain ⟨input, -, hInsert⟩ := hRule
    rcases hInsert.id with hFresh | -
    · exact (hUnused hFresh).elim
    · unfold revives at hNot
      rw [hEffect, hBefore] at hNot
      simpa [hRow] using hNot
  · rw [hEffect] at hRule
    exact (hUnused hRule.id).elim

/- What an update does to a terminal transaction, in turn. -/
theorem patched_staysClosed
    (hLawful : LawfulRun svc ops w h)
    (hInTurn : InTurn (o :: h.past))
    (hRule :
      Rule svc (ops o.thread) (own o.thread h.past) o.effect)
    (hBefore : o.before = h.world)
    (hNot : revives o = false)
    {patch : TxnPatch}
    (hEffect : o.effect = .txns (.update id patch))
    (hRow : h.world.transactions.get id = some row)
    (hTerminal : row.state.isTerminal = true) :
    StaysClosed row.state (patch.apply row).state := by
  -- An intent goes by the row it has read, which is this one.
  have hSeen :
      ∀ P, OnTxn (ops o.thread) (own o.thread h.past) id P →
        ∃ input, P input row := by
    rintro P ⟨input, txn, -, -, hSeen, hHolds⟩
    rw [SeenTxn.stored hLawful hInTurn hSeen] at hRow
    cases hRow
    exact ⟨input, hHolds⟩
  rw [hEffect] at hRule
  cases patch with
  | expireIfOpen now =>
      have hClosed : row.state.isOpen = false := by
        rw [Bool.eq_false_iff]
        intro hOpen
        rw [TransactionState.not_isTerminal_of_isOpen hOpen]
          at hTerminal
        cases hTerminal
      refine .inl ?_
      simp [TxnPatch.apply, hClosed]
  | expire now =>
      obtain ⟨-, hNext⟩ := hRule
      obtain ⟨txn, hStored, hOpen⟩ :=
        NextToExpire.stored hLawful hInTurn hNext
      rw [hRow] at hStored
      cases hStored
      rw [TransactionState.not_isTerminal_of_isOpen hOpen]
        at hTerminal
      cases hTerminal
  | authorize buyer shipTo billTo now =>
      obtain ⟨-, hQuoted⟩ := hSeen _ hRule
      rw [hQuoted] at hTerminal
      cases hTerminal
  | complete orderId now =>
      obtain ⟨input, hPaid⟩ := hSeen _ hRule
      rcases hPaid.state with hState | hState
      · rw [hState] at hTerminal
        cases hTerminal
      · rw [hState] at hTerminal
        cases hTerminal
  | reverse now =>
      unfold revives at hNot
      rw [hEffect, hBefore] at hNot
      simp only [hRow, Option.any_some] at hNot
      have hReversed :
          (TxnPatch.apply (.reverse now) row).state =
            .reversed :=
        rfl
      rw [hReversed]
      cases hState : row.state with
      | completed => exact .inr ⟨rfl, rfl⟩
      | reversed => exact .inl rfl
      | canceled =>
          rw [hState] at hNot
          cases hNot
      | expired =>
          rw [hState] at hNot
          cases hNot
      | _ =>
          rw [hState] at hTerminal
          cases hTerminal
  | renegotiate original new currency entry now =>
      exact .inl rfl
  | confirmReceipt confirmedAt confirmedBy note now =>
      exact .inl rfl

/- One step of a thread in turn absorbs. -/
theorem step_absorbs
    (hLawful : LawfulRun svc ops w h)
    (hInTurn : InTurn (o :: h.past))
    (hExec : Executes svc.deps.rfc3339 o)
    (hRule :
      Rule svc (ops o.thread) (own o.thread h.past) o.effect)
    (hBefore : o.before = h.world)
    (hNot : NotRevived h.past o) :
    Absorbs h.world o.after := by
  intro id row hRow hTerminal
  cases hExec.txnChange id with
  | kept hKept =>
      rw [hBefore] at hKept
      exact ⟨row, hKept.trans hRow, .inl rfl⟩
  | inserted new hEffect hId hAfter =>
      subst hId
      have hOpen :=
        inserted_not_terminal hLawful hInTurn hRule hBefore hNot
          hEffect hRow
      rw [hTerminal] at hOpen
      cases hOpen
  | patched patch found hMove hFound hAfter =>
      rw [hBefore, hRow] at hFound
      cases hFound
      exact ⟨_, hAfter, patched_staysClosed hLawful hInTurn hRule
        hBefore hNot (congrArg Move.effect hMove) hRow
        hTerminal⟩

/-
  Whenever threads take turns, each state absorbs into the
  ones after it. By induction on the run.
-/
theorem absorbs_in_turn
    (hLawful : LawfulRun svc ops w h)
    (hInTurn : InTurn h.past)
    (hCond : Conforms NotRevived h.past) :
    Absorbs w h.world ∧
      ∀ o ∈ h.past, Absorbs o.before h.world := by
  induction hLawful with
  | start =>
      exact ⟨Absorbs.refl w,
        fun o hMem => absurd hMem List.not_mem_nil⟩
  | @push h o hLawful hAllows hRule ih =>
      obtain ⟨hStart, hPast⟩ :=
        ih (List.pairwise_cons.mp hInTurn).2 hCond.2
      have hStep : Absorbs h.world o.after :=
        step_absorbs hLawful hInTurn
          (executes_of_allows hAllows) hRule hAllows.before_eq
          hCond.1
      refine ⟨hStart.trans hStep, ?_⟩
      intro other hMem
      rcases List.mem_cons.mp hMem with rfl | hMem
      · rw [hAllows.before_eq]
        exact hStep
      · exact (hPast other hMem).trans hStep

end Steps

/-
  In every sequential run in which nothing is stored over a
  terminal transaction and nothing canceled or expired is
  returned, the terminal states absorb: from each state of the
  run to its last one.
-/
theorem terminal_states_absorb
    (svc : IcpService)
    (ops : Nat → Op)
    (choices : Nat → List Choice)
    (ledger : MandateLedger)
    (subscribers : List WebhookSubscriber)
    (count : Nat)
    (h : History Eff.Res World)
    (hTurns :
      runInTurn svc ops choices (.fresh ledger subscribers)
        count = some h)
    (hCond : Conforms NotRevived h.past) :
    ∀ o ∈ h.past, Absorbs o.before h.world := by
  obtain ⟨hLawful, hInTurn, -⟩ :=
    turns_lawful (fun thread => prog_traced svc (ops thread))
      hTurns
  exact (absorbs_in_turn hLawful hInTurn hCond).2

/- A transaction is quoted, bought, and quoted again. -/
private def requotedOps : Nat → Op
  | 1 => .intent (sampleBuy "X")
  | _ => .intent (sampleQuote "X" 1)

/- A quote can open a completed transaction again. -/
theorem quote_reopens_completed :
    ¬ ∀ svc ops choices ledger subscribers count h,
      runInTurn svc ops choices (.fresh ledger subscribers)
        count = some h →
      ∀ o ∈ h.past, Absorbs o.before h.world := by
  intro hAll
  have hRun :
      ((runInTurn concreteService requotedOps sampleChoices
        (.fresh (.memory ∅) []) 3).any fun h =>
          (h.past.any fun o =>
            (o.before.transactions.get "X").any
              (·.state == .completed)) &&
          (h.world.transactions.get "X").any
            (·.state == .quoted)) = true := by
    decide
  obtain ⟨h, hTurns, hChecks⟩ :=
    (Option.any_eq_true _ _).mp hRun
  simp only [Bool.and_eq_true, List.any_eq_true,
    Option.any_eq_true, beq_iff_eq] at hChecks
  obtain ⟨⟨o, hMem, row, hRow, hCompleted⟩, last, hLast,
    hQuoted⟩ := hChecks
  obtain ⟨row', hRow', hStays⟩ :=
    hAll _ _ _ _ _ _ h hTurns o hMem "X" row hRow
      (by rw [hCompleted]; rfl)
  rw [hLast] at hRow'
  cases hRow'
  rw [hCompleted, hQuoted] at hStays
  rcases hStays with hNo | ⟨-, hNo⟩
  · cases hNo
  · cases hNo

/- A transaction is quoted, bought and returned. -/
private def returnedOps : Nat → Op
  | 0 => .intent (sampleQuote "X" 1)
  | 1 => .intent (sampleBuy "X")
  | 2 =>
      .intent
        (sampleInput .return [("transaction_id", .str "X")] none)
  | _ => .tickExpiries (Duration.minutes 15)

theorem terminal_states_absorb_sample :
    ∃ h,
      runInTurn concreteService returnedOps sampleChoices
        (.fresh (.memory ∅) []) 4 = some h ∧
      (∃ row, h.world.transactions.get "X" = some row ∧
        row.state = .reversed) ∧
      ∀ o ∈ h.past, Absorbs o.before h.world := by
  have hRun :
      ((runInTurn concreteService returnedOps sampleChoices
        (.fresh (.memory ∅) []) 4).any fun h =>
          decide (Conforms NotRevived h.past) &&
          (h.world.transactions.get "X").any
            (·.state == .reversed)) = true := by
    decide
  obtain ⟨h, hTurns, hChecks⟩ :=
    (Option.any_eq_true _ _).mp hRun
  simp only [Bool.and_eq_true, decide_eq_true_eq,
    Option.any_eq_true, beq_iff_eq] at hChecks
  obtain ⟨hCond, row, hRow, hReversed⟩ := hChecks
  exact ⟨h, hTurns, ⟨row, hRow, hReversed⟩,
    terminal_states_absorb concreteService returnedOps
      sampleChoices _ _ 4 h hTurns hCond⟩

end Protocol

end IcpHandler
