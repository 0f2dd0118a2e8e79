import IcpHandler.Model.Concrete
import IcpHandler.Protocol.Payments
import IcpHandler.Protocol.Runs

/-
  Payments of one peer quote beside expiry passes. The quote
  is charged once at most, by the payment that accepts it. It
  stays accepted, unless a pass that has listed it before
  expires it after.

  Main declarations:
    * `PayRun`
    * `isCharge`, `chargesFor`
    * `NotAcceptedMeanwhile`, `PaymentLands`
    * `ChargesStored`, `QuoteKept`
    * `peer_quote_paid_once`
-/

------------------------------------------------------------
-- Payments Under Their Locks
------------------------------------------------------------

namespace IcpHandler

namespace Protocol

open Model Service Concurrency

/- The histories of payments and passes. -/
abbrev PayRun
    (svc : IcpService)
    (ops : Nat → Op)
    (w : World)
    (h : History Eff.Res World) : Prop :=
  Lawful (machine svc.deps.rfc3339)
    (fun thread moves effect =>
      Rule svc (ops thread) moves effect ∧
        PayRule (ops thread) moves effect) w h

section Locked

variable {svc : IcpService}
variable {ops : Nat → Op}
variable {w : World}
variable {h : History Eff.Res World}
variable {pool : Pool Eff.Res World OpResult}
variable {id key : String}
variable {past : Moves}

theorem PayRun.lawful
    (hRun : PayRun svc ops w h) :
    LawfulRun svc ops w h :=
  Lawful.mono hRun fun _ _ _ hRule => hRule.1

theorem Reaches.payRun
    (hReaches : Reaches svc ops w pool)
    (hOps : ∀ thread, PaysOrSweeps (ops thread)) :
    PayRun svc ops w pool.history := by
  obtain ⟨schedule, hRun⟩ := hReaches
  have hTraced :
      ∀ thread, ((ops thread).prog svc).Traced
        (fun moves effect =>
          Rule svc (ops thread) moves effect ∧
            PayRule (ops thread) moves effect)
        (fun result later =>
          OpPost svc (ops thread) result later ∧ True) [] :=
    fun thread =>
      (prog_traced svc (ops thread)).and
        (pay_traced (hOps thread))
  exact (Pool.run_lawful .start hTraced hRun).1

theorem SeesQuoted.held
    (hSees : SeesQuoted id past) :
    Held (quoteLock id) past := by
  obtain ⟨quote, hSeen, _⟩ := hSees
  exact ReadUnder.held hSeen rfl

theorem SeesQuoted.cons
    {move : Move Eff.Res}
    (hSees : SeesQuoted id past)
    (hQuiet : move.effect.touchesQuotes = false)
    (hLock : move.effect.isLocking = false) :
    SeesQuoted id (move :: past) := by
  obtain ⟨quote, hSeen, hStatus⟩ := hSees
  exact ⟨quote, hSeen.cons ⟨hQuiet, hLock⟩, hStatus⟩

theorem SeesQuoted.of_cons
    {move : Move Eff.Res}
    (hSees : SeesQuoted id (move :: past)) :
    (∃ quote, move = ⟨.quotes (.get id), some quote⟩ ∧
        quote.status = .quoted) ∨
      (SeesQuoted id past ∧
        move.effect.touchesQuotes = false) := by
  obtain ⟨quote, hSeen, hStatus⟩ := hSees
  rcases ReadUnder.of_cons hSeen with rfl | ⟨hOlder, hQuiet⟩
  · exact .inl ⟨quote, rfl, hStatus⟩
  · exact .inr ⟨⟨quote, hOlder, hStatus⟩, hQuiet⟩

/- Two threads cannot both look at a quote under its lock. -/
theorem LocksKept.one_seer
    (hKept : LocksKept h)
    {first second : Nat}
    (hFirst : SeesQuoted id (own first h.past))
    (hSecond : SeesQuoted id (own second h.past)) :
    first = second :=
  hKept.one_holder hFirst.held hSecond.held

/- A quote is read under its own id. -/
theorem SeenQuote.id_eq
    (hLawful : LawfulRun svc ops w h)
    {thread : Nat}
    {quote : PeerQuote}
    (hSeen : SeenQuote key quote (own thread h.past)) :
    quote.id = key := by
  have hMem := ReadUnder.since hSeen |>.mem
  obtain ⟨o, hPast, -, hMove⟩ := mem_own_iff.mp hMem
  exact Data.KeyedStore.key_of_get
    ((hLawful.executes hPast).readQuote hMove)

/- Whoever charges a quote sees it quoted under its own id. -/
theorem MayPay.sees
    (hLawful : LawfulRun svc ops w h)
    {thread : Nat}
    {txn : Transaction}
    (hMay : MayPay (own thread h.past) txn)
    (hCharged : chargedQuote txn = some id) :
    SeesQuoted id (own thread h.past) := by
  obtain ⟨key, quote, hSeen, hStatus, hId⟩ :=
    hMay.seen id hCharged
  have hKey : id = key := by
    rw [← hId]
    exact hSeen.id_eq hLawful
  subst hKey
  exact ⟨quote, hSeen, hStatus⟩

theorem chargedQuote_state
    {txn : Transaction}
    (hCharged : chargedQuote txn = some id) :
    txn.state = .completed := by
  unfold chargedQuote at hCharged
  by_contra hState
  rw [if_neg hState] at hCharged
  cases hCharged

end Locked

end Protocol

end IcpHandler

------------------------------------------------------------
-- Charges of a Quote
------------------------------------------------------------

namespace IcpHandler

namespace Protocol

open Model Service Concurrency

/- The occurrence inserts a charge of the quote. -/
def isCharge
    (id : String)
    (o : Happening) : Bool :=
  match o.effect with
  | .txns (.insert txn) => chargedQuote txn == some id
  | _ => false

def chargesFor (id : String) (past : Past) : Past :=
  past.filter (isCharge id)

/-
  The two writes of a payment land: the charge is stored, and
  the quote is there to be accepted.
-/
def PaymentLands : Happening → Prop
  | ⟨_, .txns (.insert txn), _, _, after⟩ =>
      (after.transactions.get txn.id).isSome = true
  | ⟨_, .quotes (.update _ (.accept _ _)), found, _, _⟩ =>
      found.isSome = true
  | _ => True

instance (o : Happening) : Decidable (PaymentLands o) := by
  unfold PaymentLands
  split
  · infer_instance
  · infer_instance
  · infer_instance

section Charges

variable {svc : IcpService}
variable {ops : Nat → Op}
variable {w : World}
variable {h : History Eff.Res World}
variable {o : Happening}
variable {id : String}

theorem isCharge_iff :
    isCharge id o = true ↔
      ∃ txn, o.effect = .txns (.insert txn) ∧
        chargedQuote txn = some id := by
  unfold isCharge
  constructor
  · intro hCharge
    split at hCharge
    · rename_i txn hEffect
      exact ⟨txn, hEffect, beq_iff_eq.mp hCharge⟩
    · cases hCharge
  · rintro ⟨txn, hEffect, hCharged⟩
    rw [hEffect]
    exact beq_iff_eq.mpr hCharged

theorem chargesFor_cons_of_not
    (hOther : isCharge id o = false)
    (past : Past) :
    chargesFor id (o :: past) = chargesFor id past :=
  List.filter_cons_of_neg (by rw [hOther]; exact Bool.false_ne_true)

theorem chargesFor_cons
    (hCharge : isCharge id o = true)
    (past : Past) :
    chargesFor id (o :: past) = o :: chargesFor id past :=
  List.filter_cons_of_pos hCharge

/- A fresh transaction id is not in use. -/
theorem PayRun.unstored_of_fresh
    (hRun : PayRun svc ops w h)
    (hNone : w.issued = []) :
    ∀ thread,
      Fresh Eff.touchesTxns "txn_" id (own thread h.past) →
        h.world.transactions.get id = none := by
  refine absent_of_fresh
    (fun w => w.transactions.get id = none) hRun
    (fun _ _ _ hRule => hRule.1) hNone ?_ ?_
  · rintro o token hExec rfl hMove
    have hEffect : o.effect = .uuid :=
      congrArg Move.effect hMove
    have hQuiet : o.effect.touchesTxns = false := by
      rw [hEffect]
      rfl
    rw [hExec.framed.transactions hQuiet]
    exact (hExec.token hMove).1.2.1
  · intro h o hExec hRule hUnstored
    cases hExec.txnChange id with
    | kept hKept => exact .inl (hKept.trans hUnstored)
    | patched patch row _ hRow _ =>
        rw [hUnstored] at hRow
        cases hRow
    | inserted row hEffect hId _ =>
        rcases hEffect with hEffect | ⟨bills, hEffect⟩
        · rw [hEffect] at hRule ⊢
          obtain ⟨⟨input, _, hInsert⟩, hMay⟩ := hRule
          rcases hInsert.id with hFresh | ⟨-, hOpen, -⟩
          · rw [hId] at hFresh
            exact .inr ⟨rfl, hFresh⟩
          · rw [hMay.state] at hOpen
            cases hOpen
        · rw [hEffect] at hRule
          exact hRule.2.elim

/- What a payment inserts is new. -/
theorem PayRun.inserts_new
    (hRun : PayRun svc ops w h)
    (hNone : w.issued = [])
    {thread : Nat}
    {txn : Transaction}
    (hRule :
      Rule svc (ops thread) (own thread h.past)
        (.txns (.insert txn)))
    (hMay : MayPay (own thread h.past) txn) :
    h.world.transactions.get txn.id = none := by
  obtain ⟨input, _, hInsert⟩ := hRule
  rcases hInsert.id with hFresh | ⟨-, hOpen, -⟩
  · exact hRun.unstored_of_fresh hNone thread hFresh
  · rw [hMay.state] at hOpen
    cases hOpen

/-
  The charges of a quote are stored as they were made, and no
  pass has listed them.
-/
structure ChargesStored
    (id : String)
    (h : History Eff.Res World) : Prop where
  stored :
    ∀ o ∈ chargesFor id h.past, ∀ txn,
      o.effect = .txns (.insert txn) →
        h.world.transactions.get txn.id = some txn
  listed :
    ∀ thread now due,
      (⟨.txns (.listDue now), due⟩ : Move Eff.Res) ∈
          own thread h.past →
        ∀ txn ∈ due,
          (h.world.transactions.get txn.id).isSome ∧
            ∀ o ∈ chargesFor id h.past, ∀ charge,
              o.effect = .txns (.insert charge) →
                charge.id ≠ txn.id

/- One more occurrence keeps the charges. -/
theorem ChargesStored.push
    (hStored : ChargesStored id h)
    (hRun : PayRun svc ops w h)
    (hNone : w.issued = [])
    (hExec : Executes svc.deps.rfc3339 o)
    (hBefore : o.before = h.world)
    (hRule :
      Rule svc (ops o.thread) (own o.thread h.past) o.effect ∧
        PayRule (ops o.thread) (own o.thread h.past) o.effect)
    (hLands : PaymentLands o) :
    ChargesStored id (h.push o) := by
  -- A new charge is stored, under an id that was not in use.
  have hNew :
      ∀ txn, o.effect = .txns (.insert txn) →
        h.world.transactions.get txn.id = none ∧
          o.after.transactions.get txn.id = some txn := by
    intro txn hEffect
    rw [hEffect] at hRule
    have hUnstored := hRun.inserts_new hNone hRule.1 hRule.2
    refine ⟨hUnstored, ?_⟩
    rw [← hBefore] at hUnstored
    cases hExec.txnChange txn.id with
    | kept hKept =>
        rcases o with ⟨thread, effect, answer, before, after⟩
        cases hEffect
        have hSome :
            (after.transactions.get txn.id).isSome = true :=
          hLands
        rw [hKept, hUnstored] at hSome
        cases hSome
    | inserted row hInserts hId hAfter =>
        rw [hEffect] at hInserts
        rcases hInserts with hInserts | ⟨bills, hInserts⟩
        · cases hInserts
          exact hAfter
        · cases hInserts
    | patched patch row hMove hRow _ =>
        rw [hUnstored] at hRow
        cases hRow
  -- An old charge stays as it is.
  have hOld :
      ∀ charge ∈ chargesFor id h.past, ∀ txn,
        charge.effect = .txns (.insert txn) →
          o.after.transactions.get txn.id = some txn := by
    intro charge hCharge txn hEffect
    have hRow := hStored.stored charge hCharge txn hEffect
    cases hExec.txnChange txn.id with
    | kept hKept =>
        rw [hKept, hBefore]
        exact hRow
    | inserted row hInserts hId _ =>
        rcases hInserts with hInserts | ⟨bills, hInserts⟩
        · have hUnstored := (hNew row hInserts).1
          rw [hId, hRow] at hUnstored
          cases hUnstored
        · rw [hInserts] at hRule
          exact hRule.2.elim
    | patched patch row hMove _ _ =>
        have hUpdates : o.effect = .txns (.update txn.id patch) :=
          congrArg Move.effect hMove
        rw [hUpdates] at hRule
        cases patch with
        | expire now =>
            obtain ⟨-, recent, older, passed, due, rest, hOwn,
              hId, -⟩ := hRule.1
            have hListing :
                (⟨.txns (.listDue now), passed ++ due :: rest⟩ :
                  Move Eff.Res) ∈ own o.thread h.past := by
              rw [hOwn]
              exact List.mem_append_right _ List.mem_cons_self
            have hOther :=
              (hStored.listed o.thread now _ hListing due
                (List.mem_append_right _
                  List.mem_cons_self)).2 charge hCharge txn
                hEffect
            exact absurd hId.symm hOther
        | _ => exact hRule.2.elim
  refine ⟨?_, ?_⟩
  · intro charge hCharge txn hEffect
    rw [History.push_past] at hCharge
    obtain ⟨hMem, hIs⟩ := List.mem_filter.mp hCharge
    rcases List.mem_cons.mp hMem with rfl | hOlder
    · exact (hNew txn hEffect).2
    · exact hOld charge (List.mem_filter.mpr ⟨hOlder, hIs⟩) txn
        hEffect
  · intro thread now due hListing txn hTxn
    rw [History.push_past] at hListing
    rw [History.push_world, History.push_past]
    -- What was listed before stays apart from the charges.
    have hBoth :
        (o.before.transactions.get txn.id).isSome ∧
          ∀ charge ∈ chargesFor id h.past, ∀ row,
            charge.effect = .txns (.insert row) →
              row.id ≠ txn.id := by
      rw [hBefore]
      rw [own_cons] at hListing
      split at hListing
      · rcases List.mem_cons.mp hListing with hMove | hOlder
        · obtain ⟨hGet, hOpen⟩ :=
            (hExec.listTxns hMove.symm).1 txn hTxn
          rw [hBefore] at hGet
          refine ⟨by rw [hGet]; rfl, ?_⟩
          intro charge hCharge row hEffect hId
          have hRow := hStored.stored charge hCharge row hEffect
          rw [hId, hGet] at hRow
          cases hRow
          obtain ⟨other, hOther, hCharged⟩ :=
            isCharge_iff.mp (List.mem_filter.mp hCharge).2
          rw [hEffect] at hOther
          cases hOther
          rw [chargedQuote_state hCharged] at hOpen
          cases hOpen
        · exact hStored.listed thread now due hOlder txn hTxn
      · exact hStored.listed thread now due hListing txn hTxn
    refine ⟨hExec.txn_kept hBoth.1, ?_⟩
    intro charge hCharge row hEffect
    obtain ⟨hMem, hIs⟩ := List.mem_filter.mp hCharge
    rcases List.mem_cons.mp hMem with rfl | hOlder
    · intro hId
      have hUnstored := (hNew row hEffect).1
      rw [hId, ← hBefore] at hUnstored
      rw [hUnstored] at hBoth
      cases hBoth.1
    · exact hBoth.2 charge (List.mem_filter.mpr ⟨hOlder, hIs⟩)
        row hEffect

end Charges

end Protocol

end IcpHandler

------------------------------------------------------------
-- The Accepted Quote
------------------------------------------------------------

namespace IcpHandler

namespace Protocol

open Model Service Concurrency

/- The row of the quote, where it is accepted. -/
def AcceptedAs
    (id : String)
    (w : World)
    (row : PeerQuote) : Prop :=
  w.peerQuotes.get id = some row ∧ row.status = .accepted

/- The occurrence accepts the quote. -/
def accepts (id : String) : Happening → Bool
  | ⟨_, .quotes (.update key (.accept _ _)), some _, _, _⟩ =>
      key == id
  | _ => false

/- The pass reads which quotes are due. -/
def listsQuotes : Eff → Bool
  | .quotes (.listDue _) => true
  | _ => false

/-
  Where a quote is expired, nobody has accepted it after the
  pass had listed it. A payment lists nothing.
-/
def NotAcceptedMeanwhile
    (past : Past)
    (o : Happening) : Prop :=
  match o.effect with
  | .quotes (.update id (.expire _)) =>
      Conforms
        (fun older other =>
          accepts id other = true →
            ∀ listing ∈ older, listing.thread = o.thread →
              listsQuotes listing.effect = false)
        past
  | _ => True

instance
    (past : Past)
    (o : Happening) :
    Decidable (NotAcceptedMeanwhile past o) :=
  match o with
  | ⟨thread, effect, answer, before, after⟩ => by
      dsimp only [NotAcceptedMeanwhile]
      split
      · infer_instance
      · infer_instance

section Accepted

variable {svc : IcpService}
variable {ops : Nat → Op}
variable {w : World}
variable {h : History Eff.Res World}
variable {o : Happening}
variable {id : String}

theorem accepts_updated
    {transactionId : String}
    {now : DateTime}
    {row : PeerQuote}
    (hMove :
      o.move =
        ⟨.quotes (.update id (.accept transactionId now)),
          some row⟩) :
    accepts id o = true := by
  rcases o with ⟨thread, effect, answer, before, after⟩
  cases hMove
  simp [accepts]

/- Quotes are not accepted until somebody accepts them. -/
theorem keeps_unaccepted
    (hExec : Executes svc.deps.rfc3339 o)
    (hBefore : o.before = h.world)
    (hPay : PayRule (ops o.thread) (own o.thread h.past) o.effect)
    (hNot :
      ∀ row, h.world.peerQuotes.get id = some row →
        row.status ≠ .accepted)
    (hKeeps : accepts id o = false) :
    ∀ row, o.after.peerQuotes.get id = some row →
      row.status ≠ .accepted := by
  intro row hRow
  cases hExec.quoteChange id with
  | kept hKept =>
      rw [hKept, hBefore] at hRow
      exact hNot row hRow
  | inserted new hEffect hId _ =>
      rw [hEffect] at hPay
      exact hPay.elim
  | patched patch found hMove hFound hAfter =>
      rw [hAfter] at hRow
      cases hRow
      cases patch with
      | expire now =>
          intro hNo
          cases hNo
      | accept transactionId now =>
          rw [accepts_updated hMove] at hKeeps
          cases hKeeps

/-
  A pass finds what it expires not accepted, unless somebody
  has accepted it since the listing.
-/
theorem unaccepted_at_sweep
    (hRun : PayRun svc ops w h)
    {thread : Nat}
    {now : DateTime}
    {due : List PeerQuote}
    {quote : PeerQuote}
    (hListing :
      (⟨.quotes (.listDue now), due⟩ : Move Eff.Res) ∈
        own thread h.past)
    (hQuote : quote ∈ due)
    (hMeanwhile :
      UnbrokenSince (accepts quote.id) listsQuotes thread
        h.past)
    {row : PeerQuote}
    (hRow : h.world.peerQuotes.get quote.id = some row) :
    row.status ≠ .accepted := by
  obtain ⟨recent, listing, older, hPast, -, hMove, hNone⟩ :=
    hMeanwhile.cut hListing rfl
  have hMem : listing ∈ h.past := by
    rw [hPast]
    exact List.mem_append_right _ List.mem_cons_self
  have hExec := hRun.lawful.executes hMem
  have hQuiet : listing.effect.touchesQuotes = false := by
    have hEffect : listing.effect = .quotes (.listDue now) :=
      congrArg Move.effect hMove
    rw [hEffect]
    rfl
  obtain ⟨hGet, hStatus⟩ := hExec.listQuotes hMove quote hQuote
  have hFirst :
      ∀ row, listing.after.peerQuotes.get quote.id = some row →
        row.status ≠ .accepted := by
    intro row hRow hAccepted
    rw [hExec.framed.peerQuotes hQuiet, hGet] at hRow
    cases hRow
    rw [hAccepted] at hStatus
    rcases hStatus with hNo | hNo
    · cases hNo
    · cases hNo
  refine Lawful.since (P := fun w =>
    ∀ row, w.peerQuotes.get quote.id = some row →
      row.status ≠ .accepted) _ hRun hPast hFirst ?_ hNone row
    hRow
  intro h' o _ hAllows hRule hNot hKeeps
  exact keeps_unaccepted (executes_of_allows hAllows)
    hAllows.before_eq hRule.2 hNot hKeeps

/-
  What is known of a quote while payments and passes run: who
  sees it quoted under its lock finds it not accepted; who
  owes its charge has made the only one; and a charge is owed
  or named by the accepted quote.
-/
structure QuoteKept
    (w : World)
    (id : String)
    (h : History Eff.Res World) : Prop where
  seen :
    ∀ thread, SeesQuoted id (own thread h.past) →
      ∀ row, ¬ AcceptedAs id h.world row
  owed :
    ∀ thread txn,
      owedCharge (own thread h.past) = some txn →
        chargedQuote txn = some id →
          SeesQuoted id (own thread h.past) ∧
            ∃ o, chargesFor id h.past = [o] ∧
              o.effect = .txns (.insert txn)
  charged :
    (chargesFor id h.past = [] ∧
        ∀ row, AcceptedAs id h.world row →
          AcceptedAs id w row) ∨
      ∃ o txn, chargesFor id h.past = [o] ∧
        o.effect = .txns (.insert txn) ∧
        chargedQuote txn = some id ∧
        ((∃ thread,
            owedCharge (own thread h.past) = some txn) ∨
          ∃ row, AcceptedAs id h.world row ∧
            row.chargeTransactionId = some txn.id)

/- Nobody who sees the quote quoted comes after a charge. -/
theorem QuoteKept.uncharged
    (hKept : QuoteKept w id h)
    (hLocks : LocksKept h)
    {thread : Nat}
    (hSees : SeesQuoted id (own thread h.past))
    (hOwed : owedCharge (own thread h.past) = none) :
    chargesFor id h.past = [] := by
  rcases hKept.charged with
    ⟨hNone, -⟩ | ⟨o, txn, -, -, hCharged, hLast⟩
  · exact hNone
  · rcases hLast with ⟨other, hOther⟩ | ⟨row, hRow, -⟩
    · have hSame : thread = other :=
        hLocks.one_seer hSees
          (hKept.owed other txn hOther hCharged).1
      rw [hSame, hOther] at hOwed
      cases hOwed
    · exact absurd hRow (hKept.seen thread hSees row)

end Accepted

end Protocol

end IcpHandler

------------------------------------------------------------
-- One Occurrence
------------------------------------------------------------

namespace IcpHandler

namespace Protocol

open Model Service Concurrency

/- One more occurrence of a run that meets the conditions. -/
structure PayStep
    (svc : IcpService)
    (ops : Nat → Op)
    (w : World)
    (h : History Eff.Res World)
    (o : Happening) : Prop where
  run : PayRun svc ops w h
  locks : LocksKept h
  exec : Executes svc.deps.rfc3339 o
  before_eq : o.before = h.world
  rule : Rule svc (ops o.thread) (own o.thread h.past) o.effect
  pay :
    PayRule (ops o.thread) (own o.thread h.past) o.effect
  meanwhile : NotAcceptedMeanwhile h.past o
  lands : PaymentLands o

section Step

variable {svc : IcpService}
variable {ops : Nat → Op}
variable {w : World}
variable {h : History Eff.Res World}
variable {o : Happening}
variable {id : String}

/- Whoever accepts the quote sees it quoted. -/
theorem PayStep.accepter_sees
    (hStep : PayStep svc ops w h o)
    (hKept : QuoteKept w id h)
    {transactionId : String}
    {now : DateTime}
    (hEffect :
      o.effect =
        .quotes (.update id (.accept transactionId now))) :
    SeesQuoted id (own o.thread h.past) := by
  have hPay := hStep.pay
  rw [hEffect] at hPay
  obtain ⟨txn, hOwed, -, hCharged⟩ := hPay
  exact (hKept.owed o.thread txn hOwed hCharged).1

/- Whoever charges the quote sees it quoted. -/
theorem PayStep.charger_sees
    (hStep : PayStep svc ops w h o)
    (hCharge : isCharge id o = true) :
    SeesQuoted id (own o.thread h.past) ∧
      owedCharge (own o.thread h.past) = none := by
  obtain ⟨txn, hEffect, hCharged⟩ := isCharge_iff.mp hCharge
  have hPay := hStep.pay
  rw [hEffect] at hPay
  exact ⟨hPay.sees hStep.run.lawful hCharged, hPay.settled⟩

/- Nobody touches a quote that is accepted. -/
theorem PayStep.keeps_accepted
    (hStep : PayStep svc ops w h o)
    (hKept : QuoteKept w id h)
    {row : PeerQuote}
    (hRow : AcceptedAs id h.world row) :
    AcceptedAs id o.after row := by
  have hRule := hStep.rule
  have hPay := hStep.pay
  cases hStep.exec.quoteChange id with
  | kept hSame =>
      refine ⟨?_, hRow.2⟩
      rw [hSame, hStep.before_eq]
      exact hRow.1
  | inserted new hEffect _ _ =>
      rw [hEffect] at hPay
      exact hPay.elim
  | patched patch found hMove _ _ =>
      have hEffect : o.effect = .quotes (.update id patch) :=
        congrArg Move.effect hMove
      cases patch with
      | accept transactionId now =>
          exact absurd hRow (hKept.seen o.thread
            (hStep.accepter_sees hKept hEffect) row)
      | expire now =>
          have hMeanwhile := hStep.meanwhile
          rw [NotAcceptedMeanwhile, hEffect] at hMeanwhile
          rw [hEffect] at hRule hPay
          rcases hPay.2 with hSweep | hSees
          · rcases hRule with
              ⟨input, _, hIntent, -⟩ |
                ⟨due, quote, -, hQuote, rfl, hListing⟩
            · rw [hSweep] at hIntent
              cases hIntent
            · exact absurd hRow.2
                (unaccepted_at_sweep hStep.run hListing hQuote
                  hMeanwhile hRow.1)
          · exact absurd hRow
              (hKept.seen o.thread hSees row)

theorem PayStep.keeps_seen
    (hStep : PayStep svc ops w h o)
    (hKept : QuoteKept w id h)
    {thread : Nat}
    (hSees : SeesQuoted id (own thread (o :: h.past)))
    (row : PeerQuote) :
    ¬ AcceptedAs id o.after row := by
  rintro ⟨hRow, hAccepted⟩
  -- The thread saw it quoted before, or reads it just now.
  have hBefore :
      (∃ quote, o.move = ⟨.quotes (.get id), some quote⟩ ∧
          quote.status = .quoted) ∨
        (SeesQuoted id (own thread h.past) ∧
          (o.thread = thread →
            o.effect.touchesQuotes = false)) := by
    rw [own_cons] at hSees
    split at hSees
    · rcases hSees.of_cons with hRead | ⟨hOlder, hQuiet⟩
      · exact .inl hRead
      · exact .inr ⟨hOlder, fun _ => hQuiet⟩
    · rename_i hOther
      exact .inr ⟨hSees, fun hThread => absurd hThread hOther⟩
  rcases hBefore with
    ⟨quote, hMove, hStatus⟩ | ⟨hOlder, hQuiet⟩
  · have hEffect : o.effect = .quotes (.get id) :=
      congrArg Move.effect hMove
    have hNoWrite : o.effect.touchesQuotes = false := by
      rw [hEffect]
      rfl
    rw [hStep.exec.framed.peerQuotes hNoWrite,
      hStep.exec.readQuote hMove] at hRow
    cases hRow
    rw [hStatus] at hAccepted
    cases hAccepted
  · cases hStep.exec.quoteChange id with
    | kept hSame =>
        rw [hSame, hStep.before_eq] at hRow
        exact hKept.seen thread hOlder row ⟨hRow, hAccepted⟩
    | inserted new hEffect _ _ =>
        have hPay := hStep.pay
        rw [hEffect] at hPay
        exact hPay.elim
    | patched patch found hMove _ hAfter =>
        have hEffect : o.effect = .quotes (.update id patch) :=
          congrArg Move.effect hMove
        cases patch with
        | accept transactionId now =>
            have hThread : o.thread = thread :=
              hStep.locks.one_seer
                (hStep.accepter_sees hKept hEffect) hOlder
            have hTouches := hQuiet hThread
            rw [hEffect] at hTouches
            cases hTouches
        | expire now =>
            rw [hAfter] at hRow
            cases hRow
            cases hAccepted

/-
  What a thread owes after its own move, it has just charged,
  or owed before and left the quote alone.
-/
theorem PayStep.owed_cases
    (hStep : PayStep svc ops w h o)
    {txn : Transaction}
    (hOwed :
      owedCharge (o.move :: own o.thread h.past) = some txn) :
    o.effect = .txns (.insert txn) ∨
      (owedCharge (own o.thread h.past) = some txn ∧
        o.effect.touchesQuotes = false ∧
        ∀ key, o.effect ≠ .unlock key) := by
  have hPay := hStep.pay
  rcases o with ⟨thread, effect, answer, before, after⟩
  have hNever :
      owedCharge (own thread h.past) = none →
        owedCharge (own thread h.past) ≠ some txn := by
    intro hNone hSome
    cases hNone.symm.trans hSome
  cases effect with
  | txns op =>
      cases op with
      | insert new =>
          change (if _ then some new else none) = _ at hOwed
          split at hOwed
          · cases hOwed
            exact .inl rfl
          · cases hOwed
      | _ =>
          exact .inr ⟨hOwed, rfl, fun _ hNo => nomatch hNo⟩
  | quotes op =>
      cases op with
      | insert new => exact hPay.elim
      | update key patch =>
          cases patch with
          | accept transactionId now => cases hOwed
          | expire now => exact absurd hOwed (hNever hPay.1)
      | _ =>
          exact .inr ⟨hOwed, rfl, fun _ hNo => nomatch hNo⟩
  | unlock key => exact absurd hOwed (hNever hPay)
  | _ => exact .inr ⟨hOwed, rfl, fun _ hNo => nomatch hNo⟩

theorem PayStep.keeps_owed
    (hStep : PayStep svc ops w h o)
    (hKept : QuoteKept w id h)
    {thread : Nat}
    {txn : Transaction}
    (hOwed : owedCharge (own thread (o :: h.past)) = some txn)
    (hCharged : chargedQuote txn = some id) :
    SeesQuoted id (own thread (o :: h.past)) ∧
      ∃ first, chargesFor id (o :: h.past) = [first] ∧
        first.effect = .txns (.insert txn) := by
  by_cases hThread : o.thread = thread
  · subst hThread
    rw [own_cons_self] at hOwed ⊢
    rcases hStep.owed_cases hOwed with
      hEffect | ⟨hBefore, hQuiet, hNoUnlock⟩
    · -- The charge is made now, and is the first.
      have hIs : isCharge id o = true :=
        isCharge_iff.mpr ⟨txn, hEffect, hCharged⟩
      obtain ⟨hSees, hNone⟩ := hStep.charger_sees hIs
      refine ⟨hSees.cons ?_ ?_, o, ?_, hEffect⟩
      · change o.effect.touchesQuotes = false
        rw [hEffect]
        rfl
      · change o.effect.isLocking = false
        rw [hEffect]
        rfl
      · rw [chargesFor_cons hIs,
          hKept.uncharged hStep.locks hSees hNone]
    · obtain ⟨hSees, first, hCharges, hFirst⟩ :=
        hKept.owed o.thread txn hBefore hCharged
      have hNotLocking : o.effect.isLocking = false := by
        have hRule := hStep.rule
        cases hEffect : o.effect with
        | lock key =>
            rw [hEffect] at hRule
            cases hRule _ hSees.held.taken
        | unlock key => exact absurd hEffect (hNoUnlock key)
        | _ => rfl
      have hIs : isCharge id o = false := by
        rw [Bool.eq_false_iff]
        intro hIs
        have hNone := (hStep.charger_sees hIs).2
        cases hNone.symm.trans hBefore
      refine ⟨hSees.cons hQuiet hNotLocking, first, ?_, hFirst⟩
      rw [chargesFor_cons_of_not hIs]
      exact hCharges
  · rw [own_cons_other hThread] at hOwed ⊢
    obtain ⟨hSees, first, hCharges, hFirst⟩ :=
      hKept.owed thread txn hOwed hCharged
    have hIs : isCharge id o = false := by
      rw [Bool.eq_false_iff]
      intro hIs
      exact hThread
        (hStep.locks.one_seer (hStep.charger_sees hIs).1 hSees)
    refine ⟨hSees, first, ?_, hFirst⟩
    rw [chargesFor_cons_of_not hIs]
    exact hCharges

/- A quote is only accepted by its one charge. -/
theorem PayStep.keeps_uncharged
    (hStep : PayStep svc ops w h o)
    (hKept : QuoteKept w id h)
    (hNone : chargesFor id h.past = [])
    {row : PeerQuote}
    (hRow : AcceptedAs id o.after row) :
    AcceptedAs id h.world row := by
  obtain ⟨hAfter, hAccepted⟩ := hRow
  cases hStep.exec.quoteChange id with
  | kept hSame =>
      rw [hSame, hStep.before_eq] at hAfter
      exact ⟨hAfter, hAccepted⟩
  | inserted new hEffect _ _ =>
      have hPay := hStep.pay
      rw [hEffect] at hPay
      exact hPay.elim
  | patched patch found hMove _ hPatched =>
      have hEffect : o.effect = .quotes (.update id patch) :=
        congrArg Move.effect hMove
      cases patch with
      | accept transactionId now =>
          have hPay := hStep.pay
          rw [hEffect] at hPay
          obtain ⟨txn, hOwed, -, hCharged⟩ := hPay
          obtain ⟨-, first, hCharges, -⟩ :=
            hKept.owed o.thread txn hOwed hCharged
          rw [hNone] at hCharges
          cases hCharges
      | expire now =>
          rw [hPatched] at hAfter
          cases hAfter
          cases hAccepted

/- An accept that lands names the charge. -/
theorem PayStep.accepts_charge
    (hStep : PayStep svc ops w h o)
    {key transactionId : String}
    {now : DateTime}
    (hEffect :
      o.effect =
        .quotes (.update key (.accept transactionId now))) :
    ∃ row, AcceptedAs key o.after row ∧
      row.chargeTransactionId = some transactionId := by
  have hExec := hStep.exec
  have hLands := hStep.lands
  rcases o with ⟨thread, effect, answer, before, after⟩
  cases hEffect
  have hSome : answer.isSome = true := hLands
  obtain ⟨updated, rfl⟩ := Option.isSome_iff_exists.mp hSome
  obtain ⟨row, -, rfl, hAfter⟩ := hExec.updatedQuote rfl
  exact ⟨_, ⟨hAfter, rfl⟩, rfl⟩

/- A charge that was owed is owed still, or has been named. -/
theorem PayStep.keeps_charge
    (hStep : PayStep svc ops w h o)
    (hKept : QuoteKept w id h)
    {txn : Transaction}
    (hCharged : chargedQuote txn = some id)
    (hLast :
      (∃ thread, owedCharge (own thread h.past) = some txn) ∨
        ∃ row, AcceptedAs id h.world row ∧
          row.chargeTransactionId = some txn.id) :
    (∃ thread,
        owedCharge (own thread (o :: h.past)) = some txn) ∨
      ∃ row, AcceptedAs id o.after row ∧
        row.chargeTransactionId = some txn.id := by
  rcases hLast with ⟨thread, hOwed⟩ | ⟨row, hRow, hNamed⟩
  · by_cases hThread : o.thread = thread
    · subst hThread
      have hPay := hStep.pay
      by_cases hAccept :
          ∃ key transactionId now, o.effect =
            .quotes (.update key (.accept transactionId now))
      · obtain ⟨key, transactionId, now, hEffect⟩ := hAccept
        obtain ⟨row, hRow, hNamed⟩ :=
          hStep.accepts_charge hEffect
        rw [hEffect] at hPay
        obtain ⟨other, hOther, rfl, hKey⟩ := hPay
        rw [hOwed] at hOther
        cases hOther
        rw [hCharged] at hKey
        cases hKey
        exact .inr ⟨row, hRow, hNamed⟩
      · left
        refine ⟨o.thread, ?_⟩
        rw [own_cons_self, owedCharge_cons]
        · exact hOwed
        · intro new hEffect
          have hInsert : o.effect = .txns (.insert new) :=
            hEffect
          rw [hInsert] at hPay
          cases hPay.settled.symm.trans hOwed
        · intro key transactionId now hEffect
          exact hAccept ⟨key, transactionId, now, hEffect⟩
    · refine .inl ⟨thread, ?_⟩
      rw [own_cons_other hThread]
      exact hOwed
  · exact .inr ⟨row, hStep.keeps_accepted hKept hRow, hNamed⟩

/- One more occurrence keeps what is known of the quote. -/
theorem QuoteKept.push
    (hKept : QuoteKept w id h)
    (hStep : PayStep svc ops w h o) :
    QuoteKept w id (h.push o) := by
  refine ⟨?_, ?_, ?_⟩
  · exact fun thread hSees row =>
      hStep.keeps_seen hKept hSees row
  · exact fun thread txn hOwed hCharged =>
      hStep.keeps_owed hKept hOwed hCharged
  · rw [History.push_world, History.push_past]
    cases hIs : isCharge id o with
    | true =>
        obtain ⟨hSees, hNone⟩ := hStep.charger_sees hIs
        obtain ⟨txn, hEffect, hCharged⟩ := isCharge_iff.mp hIs
        right
        refine ⟨o, txn, ?_, hEffect, hCharged,
          .inl ⟨o.thread, ?_⟩⟩
        · rw [chargesFor_cons hIs,
            hKept.uncharged hStep.locks hSees hNone]
        · rw [own_cons_self]
          rcases o with ⟨thread, effect, answer, before, after⟩
          cases hEffect
          change (if _ then some txn else none) = _
          rw [hCharged]
          rfl
    | false =>
        rw [chargesFor_cons_of_not hIs]
        rcases hKept.charged with
          ⟨hNone, hFirst⟩ |
            ⟨first, txn, hCharges, hEffect, hCharged, hLast⟩
        · exact .inl ⟨hNone, fun row hRow =>
            hFirst row
              (hStep.keeps_uncharged hKept hNone hRow)⟩
        · exact .inr ⟨first, txn, hCharges, hEffect, hCharged,
            hStep.keeps_charge hKept hCharged hLast⟩

end Step

end Protocol

end IcpHandler

------------------------------------------------------------
-- Paid Once
------------------------------------------------------------

namespace IcpHandler

namespace Protocol

open Model Service Concurrency

section Runs

variable {svc : IcpService}
variable {ops : Nat → Op}
variable {w : World}
variable {h : History Eff.Res World}
variable {id : String}

/- The worlds of a run: the first one, and those left behind. -/
def WorldOf
    (w : World)
    (past : Past)
    (earlier : World) : Prop :=
  earlier = w ∨ ∃ o ∈ past, o.after = earlier

/- What holds of a quote at every moment of a run. -/
theorem PayRun.kept
    (hRun : PayRun svc ops w h)
    (hLocks : w.locks = [])
    (hIssued : w.issued = [])
    (hCond : Conforms NotAcceptedMeanwhile h.past)
    (hLands : ∀ o ∈ h.past, PaymentLands o) :
    ChargesStored id h ∧ QuoteKept w id h ∧
      ∀ earlier, WorldOf w h.past earlier →
        ∀ row, AcceptedAs id earlier row →
          AcceptedAs id h.world row := by
  induction hRun with
  | start =>
      refine ⟨⟨?_, ?_⟩, ⟨?_, ?_, ?_⟩, ?_⟩
      · intro o hMem
        cases hMem
      · intro thread now due hMem
        cases hMem
      · rintro thread ⟨quote, hSeen, -⟩
        cases (ReadUnder.since hSeen).mem
      · intro thread txn hOwed
        cases hOwed
      · exact .inl ⟨rfl, fun row hRow => hRow⟩
      · rintro earlier (rfl | ⟨o, hMem, -⟩) row hRow
        · exact hRow
        · cases hMem
  | @push h o hBefore hAllows hRule ih =>
      have hRun : PayRun svc ops w h := hBefore
      have hEarlierLands :
          ∀ earlier ∈ h.past, PaymentLands earlier :=
        fun earlier hMem =>
          hLands earlier (List.mem_cons_of_mem _ hMem)
      have hThis : PaymentLands o :=
        hLands o List.mem_cons_self
      obtain ⟨hStored, hKept, hStays⟩ :=
        ih hCond.2 hEarlierLands
      have hStep : PayStep svc ops w h o :=
        { run := hRun
          locks := hRun.lawful.locksKept hLocks
          exec := executes_of_allows hAllows
          before_eq := hAllows.before_eq
          rule := hRule.1
          pay := hRule.2
          meanwhile := hCond.1
          lands := hThis }
      refine ⟨?_, hKept.push hStep, ?_⟩
      · exact hStored.push hRun hIssued hStep.exec
          hStep.before_eq hRule hThis
      · intro earlier hEarlier row hRow
        rw [History.push_world]
        rcases hEarlier with rfl | ⟨other, hMem, rfl⟩
        · exact hStep.keeps_accepted hKept
            (hStays _ (.inl rfl) row hRow)
        · rcases List.mem_cons.mp hMem with rfl | hOlder
          · exact hRow
          · exact hStep.keeps_accepted hKept
              (hStays _ (.inr ⟨other, hOlder, rfl⟩) row hRow)

end Runs

/- The payment has succeeded, with a charge for the quote. -/
def PaysFor
    (id : String)
    (pool : Pool Eff.Res World OpResult)
    (thread : Nat) : Prop :=
  (∃ body, pool.threads thread = .ret (.response (.ok body))) ∧
    ∃ o ∈ chargesFor id pool.history.past, o.thread = thread

/- The quote is paid once, and stays paid. -/
structure PaidOnce
    (w : World)
    (id : String)
    (pool : Pool Eff.Res World OpResult) : Prop where
  once :
    ∀ thread thread',
      PaysFor id pool thread → PaysFor id pool thread' →
        thread = thread'
  oneCharge : (chargesFor id pool.history.past).length ≤ 1
  stays :
    ∀ earlier, WorldOf w pool.history.past earlier →
      ∀ row, AcceptedAs id earlier row →
        AcceptedAs id pool.history.world row
  named :
    ∀ row, AcceptedAs id pool.history.world row →
      AcceptedAs id w row ∨
        ∃ o txn, chargesFor id pool.history.past = [o] ∧
          o.effect = .txns (.insert txn) ∧
          row.chargeTransactionId = some txn.id ∧
          txn.state = .completed ∧
          pool.history.world.transactions.get txn.id =
            some txn

/-
  In every run of payments and expiry passes, from any stores:
  if no quote is expired that was accepted after its pass had
  listed it, and the writes of a payment land, then a quote is
  charged once at most, and once accepted it stays so, naming
  its one charge, which is stored and completed.
-/
theorem peer_quote_paid_once
    (svc : IcpService)
    (ops : Nat → Op)
    (w : World)
    (hLocks : w.locks = [])
    (hIssued : w.issued = [])
    (hOps : ∀ thread, PaysOrSweeps (ops thread))
    (pool : Pool Eff.Res World OpResult)
    (hReaches : Reaches svc ops w pool)
    (hCond : Conforms NotAcceptedMeanwhile pool.history.past)
    (hLands : ∀ o ∈ pool.history.past, PaymentLands o)
    (id : String) :
    PaidOnce w id pool := by
  have hRun := hReaches.payRun hOps
  obtain ⟨hStored, hKept, hStays⟩ :=
    hRun.kept hLocks hIssued hCond hLands
  have hOne : (chargesFor id pool.history.past).length ≤ 1 := by
    rcases hKept.charged with
      ⟨hNone, -⟩ | ⟨o, txn, hCharges, -⟩
    · rw [hNone]
      exact Nat.zero_le 1
    · rw [hCharges]
      exact Nat.le_refl 1
  refine ⟨?_, hOne, hStays, ?_⟩
  · rintro thread thread' ⟨-, o, hMem, rfl⟩ ⟨-, o', hMem', rfl⟩
    rcases hKept.charged with
      ⟨hNone, -⟩ | ⟨first, txn, hCharges, -⟩
    · rw [hNone] at hMem
      cases hMem
    · rw [hCharges] at hMem hMem'
      rw [List.mem_singleton.mp hMem,
        List.mem_singleton.mp hMem']
  · intro row hRow
    rcases hKept.charged with
      ⟨-, hFirst⟩ |
        ⟨o, txn, hCharges, hEffect, hCharged, hLast⟩
    · exact .inl (hFirst row hRow)
    · right
      refine ⟨o, txn, hCharges, hEffect, ?_,
        chargedQuote_state hCharged, ?_⟩
      · rcases hLast with ⟨thread, hOwed⟩ | ⟨row', hRow', hNamed⟩
        · have hSees := (hKept.owed thread txn hOwed hCharged).1
          exact absurd hRow (hKept.seen thread hSees row)
        · have hSame : row = row' :=
            Option.some.inj (hRow.1.symm.trans hRow'.1)
          rw [hSame]
          exact hNamed
      · have hMem : o ∈ chargesFor id pool.history.past := by
          rw [hCharges]
          exact List.mem_singleton_self o
        exact hStored.stored o hMem txn hEffect

/- A quote of five dollars that ends after 15 minutes. -/
private def pricedQuote : PeerQuote :=
  { id := "pq_1"
    status := .quoted
    tenantId := "acme"
    requesterAgentId := "bot"
    peerAgentId := "peer"
    service := ⟨.compute, "one hour", .null⟩
    price := some (.new 500 "USD")
    createdAt := 0
    updatedAt := 0
    expiresAt := Duration.minutes 15
    acceptedAt := none
    chargeTransactionId := none
    mandateJti := none
    referenceId := none }

private def quotedWorld : World :=
  { World.fresh (.memory ∅) [] with
    peerQuotes := Data.KeyedStore.empty.insert pricedQuote }

/- A payment of the quote, and passes at its deadline. -/
private def payingOps : Nat → Op
  | 0 =>
      .intent
        (sampleInput .a2aPay
          [("peer_quote_id", .str "pq_1"),
            ("from", .str "wallet")] none)
  | _ => .tickExpiries (Duration.minutes 15)

private theorem payingOps_proper
    (thread : Nat) :
    PaysOrSweeps (payingOps thread) :=
  match thread with
  | 0 => .inl ⟨_, rfl, by decide⟩
  | _ + 1 => .inr ⟨_, rfl⟩

/-
  The pass lists the quote while the payment, begun in time,
  has made its charge and is about to accept the quote.
-/
private def sweptPaymentSchedule : List (Nat × Choice) :=
  [(0, {}), (0, { clock := Duration.minutes 14 }), (0, {}),
    (0, {}), (0, {}), (1, {}), (1, { order := ["pq_1"] }),
    (0, {}), (1, {})]

/- The quote has been accepted and is not accepted any more. -/
private def acceptedBefore
    (pool : Pool Eff.Res World OpResult) : Bool :=
  let accepted (w : World) : Bool :=
    (w.peerQuotes.get "pq_1").any (·.status == .accepted)
  (pool.history.past.any fun o => accepted o.after) &&
    !accepted pool.history.world

/- A pass can expire a quote that has been paid. -/
theorem sweep_expires_paid_quote :
    ¬ ∀ svc ops w pool,
      w.locks = [] → w.issued = [] →
      (∀ thread, PaysOrSweeps (ops thread)) →
      Reaches svc ops w pool →
      (∀ o ∈ pool.history.past, PaymentLands o) →
      ∀ id, PaidOnce w id pool := by
  intro hAll
  have hRun :
      ((runOf payService payingOps quotedWorld
        sweptPaymentSchedule).any fun pool =>
          pool.history.past.all (fun o =>
            decide (PaymentLands o)) &&
          acceptedBefore pool) = true := by
    decide
  obtain ⟨pool, hPool, hChecks⟩ :=
    (Option.any_eq_true _ _).mp hRun
  unfold acceptedBefore at hChecks
  simp only [Bool.and_eq_true, List.all_eq_true,
    decide_eq_true_eq, List.any_eq_true,
    Bool.not_eq_true', Option.any_eq_true,
    beq_iff_eq] at hChecks
  obtain ⟨hLands, ⟨o, hMem, row, hRow, hAccepted⟩, hNot⟩ :=
    hChecks
  have hPaid := hAll payService payingOps quotedWorld pool rfl
    rfl payingOps_proper ⟨_, hPool⟩ hLands "pq_1"
  obtain ⟨hStill, -⟩ := hPaid.stays o.after
    (.inr ⟨o, hMem, rfl⟩) row ⟨hRow, hAccepted⟩
  rw [hStill] at hNot
  simp [hAccepted] at hNot

/- A payment in time, and a pass that comes after it. -/
private def paidSchedule : List (Nat × Choice) :=
  [(0, {}), (0, { clock := Duration.minutes 14 }), (0, {}),
    (0, { token := "a" }), (0, {}), (0, {}), (0, {}), (0, {}),
    (0, { token := "b" }), (0, {}), (0, { token := "c" }),
    (0, {}), (0, {}), (0, { token := "d" }), (0, {}), (0, {}),
    (0, {}), (0, {}), (1, {}), (1, {})]

theorem peer_quote_paid_once_sample :
    ∃ pool,
      runOf payService payingOps quotedWorld paidSchedule =
        some pool ∧
      (∃ row, AcceptedAs "pq_1" pool.history.world row) ∧
      PaidOnce quotedWorld "pq_1" pool := by
  have hRun :
      ((runOf payService payingOps quotedWorld
        paidSchedule).any fun pool =>
          decide (Conforms NotAcceptedMeanwhile
            pool.history.past) &&
          pool.history.past.all (fun o =>
            decide (PaymentLands o)) &&
          (pool.history.world.peerQuotes.get "pq_1").any
            (·.status == .accepted)) = true := by
    decide
  obtain ⟨pool, hPool, hChecks⟩ :=
    (Option.any_eq_true _ _).mp hRun
  simp only [Bool.and_eq_true, List.all_eq_true,
    decide_eq_true_eq, Option.any_eq_true,
    beq_iff_eq] at hChecks
  obtain ⟨⟨hCond, hLands⟩, row, hRow, hAccepted⟩ := hChecks
  exact ⟨pool, hPool, ⟨row, hRow, hAccepted⟩,
    peer_quote_paid_once payService payingOps quotedWorld rfl
      rfl payingOps_proper pool ⟨paidSchedule, hPool⟩ hCond
      hLands "pq_1"⟩

end Protocol

end IcpHandler
