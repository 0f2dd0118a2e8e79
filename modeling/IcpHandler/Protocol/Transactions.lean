import IcpHandler.Protocol.Helpers

/-
  The intents on transactions follow the rule, and stop in one
  of the known ways.

  Main declarations:
    * `meets_withLock`
    * `meets_doQuote`
    * `meets_doAuthorize`, `meets_doBuy`
    * `meets_doReturn`
    * `meets_doNegotiate`, `meets_doConfirmReceipt`
-/

------------------------------------------------------------
-- Under a Lock
------------------------------------------------------------

namespace IcpHandler

namespace Protocol

open Model Service Concurrency

section Locked

variable {α : Type}
variable {svc : IcpService}
variable {input : IntentInput}
variable {past : Moves}
variable {key : String}

/- Under the lock, with nothing to take back so far. -/
structure Clear
    (key : String)
    (past : Moves) : Prop where
  held : Held key past
  settled : pendingCharge past = none
  harmless : Harmless past

theorem Held.cons
    {move : Move Eff.Res}
    (hHeld : Held key past)
    (hMove : move.effect.isLocking = false) :
    Held key (move :: past) where
  taken := List.mem_cons_of_mem _ hHeld.taken
  kept := by
    intro other hMem
    rcases List.mem_cons.mp hMem with hEq | hMem
    · rw [← hEq] at hMove
      cases hMove
    · exact hHeld.kept other hMem

theorem Held.afterQuiet
    {later : Moves}
    (hHeld : Held key past)
    (hAfter : AfterQuiet past later) :
    Held key later := by
  rcases hAfter with ⟨recent, rfl, hRecent⟩
  induction recent with
  | nil => exact hHeld
  | cons move recent ih =>
      refine Held.cons (ih fun other hOther =>
        hRecent other (List.mem_cons_of_mem _ hOther)) ?_
      exact (isQuiet_iff.mp
        (hRecent move List.mem_cons_self)).2.2.2

theorem Clear.lock
    (hIdle : Idle past) :
    Clear key (⟨.lock key, ()⟩ :: past) where
  held :=
    { taken := List.mem_cons_self
      kept := by
        intro other hMem
        rcases List.mem_cons.mp hMem with hEq | hMem
        · cases (Move.mk.injEq _ _ _ _ ▸ hEq).1
        · cases hIdle.unlocked _ hMem }
  settled := hIdle.pendingCharge
  harmless := harmless_cons.mpr ⟨trivial, hIdle.harmless⟩

/- One more move that leaves nothing to take back. -/
theorem Clear.cons
    {move : Move Eff.Res}
    (hClear : Clear key past)
    (hLock : move.effect.isLocking = false)
    (hSettled : pendingCharge (move :: past) = none)
    (hHarmless : HarmlessMove move) :
    Clear key (move :: past) where
  held := hClear.held.cons hLock
  settled := hSettled
  harmless := harmless_cons.mpr ⟨hHarmless, hClear.harmless⟩

theorem Clear.idle
    {move : Move Eff.Res}
    (hClear : Clear key past)
    (hIdle : move.effect.isIdle = true) :
    Clear key (move :: past) := by
  have hQuiet := isQuiet_iff.mp (isIdle_iff.mp hIdle).1
  refine hClear.cons hQuiet.2.2.2 ?_
    (harmlessMove_of_isIdle hIdle)
  rw [pendingCharge_cons hQuiet.2.1 fun txn bills hCharge => by
    rw [hCharge] at hQuiet
    cases hQuiet.1]
  exact hClear.settled

theorem Clear.stopped
    {halt : Halt}
    (hClear : Clear key past) :
    Held key past ∧ Stopped svc input halt past :=
  ⟨hClear.held, hClear.settled, fun _ _ =>
    .inl hClear.harmless⟩

theorem Idle.stopped
    {halt : Halt}
    (hIdle : Idle past) :
    Stopped svc input halt past :=
  ⟨hIdle.pendingCharge, fun _ _ => .inl hIdle.harmless⟩

/- Giving the lock back changes nothing. -/
theorem Stopped.unlock
    {halt : Halt}
    (hStopped : Stopped svc input halt past) :
    Stopped svc input halt (⟨.unlock key, ()⟩ :: past) where
  settled := hStopped.settled
  excused := by
    intro error hHalt
    rcases hStopped.excused error hHalt with
      hHarmless | hLate
    · exact .inl (harmless_cons.mpr ⟨trivial, hHarmless⟩)
    · right
      have hSpent :
          Spent past → Spent (⟨.unlock key, ()⟩ :: past) := by
        rintro ⟨jti, tenantId, amount, now, limits, hMem⟩
        exact ⟨jti, tenantId, amount, now, limits,
          List.mem_cons_of_mem _ hMem⟩
      have hOrdered :
          Ordered (⟨.unlock key, ()⟩ :: past) ↔
            Ordered past := by
        simp [Ordered]
      cases hLate with
      | trial params days hParams hDays hLong hDone =>
          exact .trial params days hParams hDays hLong
            (hSpent hDone)
      | order hProduction hRefused hDone =>
          exact .order hProduction
            (fun hOrder => hRefused (hOrdered.mp hOrder))
            (hSpent hDone)
      | lost id patch hLost hDone =>
          refine .lost id patch
            (List.mem_cons_of_mem _ hLost) ?_
          exact hDone.imp hSpent hOrdered.mpr
      | receipt hReceipt =>
          refine .receipt (hReceipt.imp_right ?_)
          rintro ⟨claims, error, hMem⟩
          exact ⟨claims, error, List.mem_cons_of_mem _ hMem⟩

/- A block under the one lock of the intent. -/
theorem meets_withLock
    {body : Svc α}
    (hIdle : Idle past)
    (hBody :
      body.Meets (Rule svc (.intent input))
        (fun _ later =>
          Held key later ∧ pendingCharge later = none)
        (fun halt later =>
          Held key later ∧ Stopped svc input halt later)
        (⟨.lock key, ()⟩ :: past)) :
    (Svc.withLock key body).Meets (Rule svc (.intent input))
      (fun _ later => pendingCharge later = none)
      (Stopped svc input) past := by
  rw [Svc.meets_withLock]
  refine ⟨hIdle.unlocked, hBody.mono ?_ ?_⟩
  · exact fun _ _ hPost => hPost
  · exact fun _ _ hPost => ⟨hPost.1, hPost.2.unlock⟩

end Locked

end Protocol

end IcpHandler

------------------------------------------------------------
-- Search, Describe, Quote and Track
------------------------------------------------------------

namespace IcpHandler

namespace Protocol

open Model Service Concurrency

section Catalogue

variable {svc : IcpService}
variable {input : IntentInput}
variable {past : Moves}

/-
  A transaction nobody looked up may be inserted: under a
  fresh id, or under the one the client has named.
-/
theorem meets_freshTransaction
    {state : TransactionState}
    {Q : Transaction → Moves → Prop}
    {X : Halt → Moves → Prop}
    {intent : Intent}
    (hIntent :
      Intent.parse input.envelope.intent = .ok intent)
    (hAdvisory : isAdvisory intent = true)
    (hState : state.isOpen = true)
    (hDone :
      ∀ txn later, AfterIdle past later →
        txn.state = state →
        MayInsertTxn input later txn →
        Q txn later) :
    (freshTransaction input state).Meets
      (Rule svc (.intent input)) Q X past := by
  unfold freshTransaction
  dsimp only
  cases hId : input.envelope.transactionId with
  | some id =>
      simp only [Svc.meets_bind, Svc.meets_pure]
      refine ⟨trivial, fun _ => ⟨trivial, fun _ => ?_⟩⟩
      refine hDone _ _ ((AfterIdle.refl.cons rfl).cons rfl) rfl
        ⟨rfl, .inr ⟨hId, hState, intent, hIntent, hAdvisory⟩⟩
  | none =>
      simp only [Svc.meets_bind, Svc.meets_pure]
      refine ⟨trivial, fun token => ⟨trivial, fun _ =>
        ⟨trivial, fun _ => ?_⟩⟩⟩
      refine hDone _ _
        (((AfterIdle.refl.cons rfl).cons rfl).cons rfl) rfl
        ⟨rfl, .inl ⟨token, rfl, ?_⟩⟩
      exact (Since.here.cons rfl).cons rfl

/- Storing an advisory transaction ends the intent. -/
theorem meets_doSearch
    {intent : Intent}
    (hIdle : Idle past)
    (hIntent :
      Intent.parse input.envelope.intent = .ok intent)
    (hAdvisory : isAdvisory intent = true) :
    (doSearch input).Meets (Rule svc (.intent input))
      (fun _ later => pendingCharge later = none)
      (Stopped svc input) past := by
  rw [doSearch, Svc.meets_bind]
  refine meets_freshTransaction hIntent hAdvisory rfl ?_
  intro txn later hLater _ hInsert
  refine ⟨⟨input, rfl, hInsert⟩, fun _ => ?_⟩
  exact (hLater.idle hIdle).pendingCharge

theorem meets_doDescribe
    {intent : Intent}
    (hIdle : Idle past)
    (hIntent :
      Intent.parse input.envelope.intent = .ok intent)
    (hAdvisory : isAdvisory intent = true) :
    (doDescribe input).Meets (Rule svc (.intent input))
      (fun _ later => pendingCharge later = none)
      (Stopped svc input) past :=
  meets_doSearch hIdle hIntent hAdvisory

theorem meets_quoteTotals
    {params : QuoteParams}
    {totals : Totals}
    {currency : String}
    {Q : Totals → Moves → Prop}
    {X : Halt → Moves → Prop}
    (hDone :
      ∀ totals later, AfterIdle past later →
        Q totals later) :
    (quoteTotals svc params totals currency).Meets
      (Rule svc (.intent input)) Q X past := by
  unfold quoteTotals
  split
  · rw [Svc.meets_bind]
    refine Svc.meets_act.mpr ⟨trivial, fun discount => ?_⟩
    split
    · exact hDone _ _ (AfterIdle.refl.cons rfl)
    · exact hDone _ _ (AfterIdle.refl.cons rfl)
  · exact hDone _ _ .refl

theorem meets_doQuote
    {intent : Intent}
    (hIdle : Idle past)
    (hIntent :
      Intent.parse input.envelope.intent = .ok intent)
    (hAdvisory : isAdvisory intent = true) :
    (doQuote svc input).Meets (Rule svc (.intent input))
      (fun _ later => pendingCharge later = none)
      (Stopped svc input) past := by
  simp only [doQuote, Svc.meets_bind, Svc.meets_ofExcept,
    Svc.meets_ensure]
  refine ⟨fun params _ => ⟨fun _ => ⟨fun priced _ => ?_,
    fun _ _ => hIdle.stopped⟩, fun _ => hIdle.stopped⟩,
    fun _ _ => hIdle.stopped⟩
  refine meets_quoteTotals fun totals later hTotals => ?_
  refine meets_freshTransaction hIntent hAdvisory rfl ?_
  intro txn latest hLatest hState hInsert
  refine ⟨trivial, fun now => ⟨⟨input, rfl, ?_⟩, fun _ => ?_⟩⟩
  · refine ⟨hInsert.owner, ?_⟩
    rcases hInsert.id with hFresh | hNamed
    · exact .inl (hFresh.cons rfl)
    · exact .inr hNamed
  · exact (hLatest.idle (hTotals.idle hIdle)).pendingCharge

/- Tracking only reads. -/
theorem meets_doTrack
    (hIdle : Idle past) :
    (doTrack input).Meets (Rule svc (.intent input))
      (fun _ later => pendingCharge later = none)
      (Stopped svc input) past := by
  rw [doTrack, Svc.meets_bind, Svc.meets_orFail]
  refine ⟨fun id _ => ?_, fun _ => hIdle.stopped⟩
  have hRead :
      ∀ found,
        Idle (⟨.txns (.get id), found⟩ :: past : Moves) :=
    fun found => AfterIdle.idle (AfterIdle.refl.cons rfl) hIdle
  rw [Svc.meets_bind]
  refine meets_transactionForInput (fun txn _ => ?_)
    (fun found error => (hRead found).stopped)
  exact (hRead (some txn)).pendingCharge

end Catalogue

end Protocol

end IcpHandler

------------------------------------------------------------
-- Authorize, Buy and Return
------------------------------------------------------------

namespace IcpHandler

namespace Protocol

open Model Service Concurrency

section Orders

variable {svc : IcpService}
variable {input : IntentInput}
variable {past : Moves}
variable {key id : String}

/- How a block under a lock ends. -/
def MeetsHeld
    (svc : IcpService)
    (input : IntentInput)
    (key : String)
    (body : Svc Outcome)
    (past : Moves) : Prop :=
  body.Meets (Rule svc (.intent input))
    (fun _ later => Held key later ∧ pendingCharge later = none)
    (fun halt later =>
      Held key later ∧ Stopped svc input halt later) past

/-
  The caller's own transaction, read under its lock before
  anything was spent.
-/
structure OwnTxn
    (input : IntentInput)
    (id : String)
    (txn : Transaction)
    (past : Moves) : Prop where
  owner : txn.tenantId = input.tenant.tenantId
  seen : SeenTxn id txn past
  clear : Clear (txnLock id) past
  unspent : ∀ move ∈ past, move.effect.spends = false

/- One more idle move. -/
theorem OwnTxn.idle
    {txn : Transaction}
    {move : Move Eff.Res}
    (hOwn : OwnTxn input id txn past)
    (hIdle : move.effect.isIdle = true) :
    OwnTxn input id txn (move :: past) where
  owner := hOwn.owner
  seen :=
    hOwn.seen.cons
      ⟨(isQuiet_iff.mp (isIdle_iff.mp hIdle).1).1,
        (isQuiet_iff.mp (isIdle_iff.mp hIdle).1).2.2.2⟩
  clear := hOwn.clear.idle hIdle
  unspent := by
    intro other hOther
    rcases List.mem_cons.mp hOther with rfl | hOther
    · exact (isIdle_iff.mp hIdle).2
    · exact hOwn.unspent other hOther

theorem OwnTxn.onTxn
    {txn : Transaction}
    {P : IntentInput → Transaction → Prop}
    (hOwn : OwnTxn input id txn past)
    (hP : P input txn) :
    OnTxn (.intent input) past id P :=
  ⟨input, txn, rfl, hOwn.owner, hOwn.seen, hP⟩

/- Lock the transaction, read it, and go on. -/
theorem meets_lockedTxn
    {body : Transaction → Svc Outcome}
    (hIdle : Idle past)
    (hBody :
      ∀ txn later, OwnTxn input id txn later →
        MeetsHeld svc input (txnLock id) (body txn) later) :
    (Svc.withLock (txnLock id)
      (transactionForInput id input >>= body)).Meets
      (Rule svc (.intent input))
      (fun _ later => pendingCharge later = none)
      (Stopped svc input) past := by
  refine meets_withLock hIdle ?_
  have hLocked :
      Clear (txnLock id) (⟨.lock (txnLock id), ()⟩ :: past) :=
    .lock hIdle
  rw [Svc.meets_bind]
  refine meets_transactionForInput (fun txn hOwner => ?_)
    (fun found _ => (hLocked.idle rfl).stopped)
  refine hBody txn _
    ⟨hOwner, .here hLocked.held, hLocked.idle rfl, ?_⟩
  intro move hMove
  simp only [List.mem_cons] at hMove
  rcases hMove with rfl | rfl | hMove
  · rfl
  · rfl
  · exact (isIdle_iff.mp (hIdle move hMove)).2

/-
  The last write of an intent on a transaction: it lands, or
  the intent ends in an error with nothing to take back.
-/
theorem meets_lastUpdate
    {patch : TxnPatch}
    {error : ApiError}
    (hClear : Clear key past)
    (hRule : MayPatchTxn (.intent input) past id patch) :
    MeetsHeld svc input key
      (Svc.act (.txns (.update id patch)) >>= fun found =>
        Svc.orFail error found >>= fun txn =>
          pure { transaction := txn }) past := by
  rw [MeetsHeld, Svc.meets_bind]
  refine Svc.meets_act.mpr ⟨hRule, fun found => ?_⟩
  rw [Svc.meets_bind, Svc.meets_orFail]
  refine ⟨fun txn _ => ?_, fun hNone => ?_⟩
  · exact ⟨hClear.held.cons rfl, hClear.settled⟩
  · subst hNone
    have hHarmless :
        HarmlessMove ⟨.txns (.update id patch), none⟩ := by
      cases patch with
      | expireIfOpen now => trivial
      | _ => rfl
    have hSettled :
        pendingCharge
            (⟨.txns (.update id patch), none⟩ :: past) =
          none := hClear.settled
    exact (hClear.cons rfl hSettled hHarmless).stopped

/- The deadline of the quote that was read. -/
theorem meets_ownQuoteOpen
    {txn : Transaction}
    {now : DateTime}
    {Q : Unit → Moves → Prop}
    (hOwn : OwnTxn input id txn past)
    (hOpen : Q () past) :
    (ensureQuoteOpen txn now).Meets (Rule svc (.intent input))
      Q
      (fun halt later =>
        Held (txnLock id) later ∧
          Stopped svc input halt later) past := by
  refine meets_ensureQuoteOpen ?_ hOpen
    (fun _ => hOwn.clear.stopped) (fun found _ => ?_)
  · exact ⟨id, hOwn.onTxn rfl⟩
  · have hSettled :
        pendingCharge
            (⟨.txns (.update txn.id (.expireIfOpen now)),
              found⟩ :: past) = none := hOwn.clear.settled
    exact (hOwn.clear.cons rfl hSettled trivial).stopped

theorem meets_doAuthorize
    (hIdle : Idle past) :
    (doAuthorize svc input).Meets (Rule svc (.intent input))
      (fun _ later => pendingCharge later = none)
      (Stopped svc input) past := by
  rw [doAuthorize, Svc.meets_bind, Svc.meets_ofExcept]
  refine ⟨fun params _ => ?_, fun _ _ => hIdle.stopped⟩
  refine meets_lockedTxn hIdle fun txn later hOwn => ?_
  rw [MeetsHeld, ensureNotSubscriptionLinked, Svc.meets_bind,
    Svc.meets_ensure]
  refine ⟨fun _ => ?_, fun _ => hOwn.clear.stopped⟩
  rw [Svc.meets_bind, Svc.meets_ensure, beq_iff_eq]
  refine ⟨fun hState => ?_, fun _ => hOwn.clear.stopped⟩
  rw [Svc.meets_bind]
  refine Svc.meets_act.mpr ⟨trivial, fun now => ?_⟩
  have hNow :
      OwnTxn input params.transactionId txn
        (⟨.now, now⟩ :: later) := hOwn.idle rfl
  rw [Svc.meets_bind]
  refine meets_ownQuoteOpen hNow ?_
  rw [Svc.meets_bind]
  refine Svc.meets_act.mpr ⟨trivial, fun writing => ?_⟩
  have hWriting :
      OwnTxn input params.transactionId txn
        (⟨.now, writing⟩ :: ⟨.now, now⟩ :: later) :=
    hNow.idle rfl
  exact meets_lastUpdate hWriting.clear
    (hWriting.onTxn hState)

/-
  A purchase that has come past the reservation: what was
  spent is the total that was read, and a mandate that was
  presented has been spent on.
-/
structure Paying
    (input : IntentInput)
    (id : String)
    (txn : Transaction)
    (past : Moves) : Prop where
  owner : txn.tenantId = input.tenant.tenantId
  seen : SeenTxn id txn past
  held : Held (txnLock id) past
  settled : pendingCharge past = none
  state : txn.state = .quoted ∨ txn.state = .authorized
  spent :
    ∀ jti tenantId amount now limits answer,
      (⟨.recordSpend jti tenantId amount now limits, answer⟩ :
        Move Eff.Res) ∈ past →
      amount = totalAmountMinor txn.totals
  presented :
    input.mandateJws.isSome → input.skipMandateCheck = false →
      0 < totalAmountMinor txn.totals →
      ∃ jti now limits,
        (⟨.recordSpend jti input.tenant.tenantId
            (totalAmountMinor txn.totals) now limits,
          .ok ()⟩ : Move Eff.Res) ∈ past
  clean : Spent past ∨ Ordered past ∨ Harmless past

/- One more move that is neither a spend nor a write. -/
theorem Paying.cons
    {txn : Transaction}
    {move : Move Eff.Res}
    (hPaying : Paying input id txn past)
    (hQuiet : move.effect.isQuiet = true)
    (hNoSpend :
      ∀ jti tenantId amount now limits,
        move.effect ≠ .recordSpend jti tenantId amount now
          limits)
    (hClean : Ordered (move :: past) ∨ HarmlessMove move) :
    Paying input id txn (move :: past) where
  owner := hPaying.owner
  seen :=
    AfterQuiet.seenTxn (AfterQuiet.refl.cons hQuiet)
      hPaying.seen
  held := hPaying.held.cons (isQuiet_iff.mp hQuiet).2.2.2
  settled := by
    have hAfter : AfterQuiet past (move :: past) :=
      AfterQuiet.refl.cons hQuiet
    rw [hAfter.pendingCharge_eq]
    exact hPaying.settled
  state := hPaying.state
  spent := by
    intro jti tenantId amount now limits answer hMem
    rcases List.mem_cons.mp hMem with hEq | hMem
    · exact absurd (congrArg Move.effect hEq).symm
        (hNoSpend jti tenantId amount now limits)
    · exact hPaying.spent jti tenantId amount now limits
        answer hMem
  presented := by
    intro hJws hSkip hPositive
    rcases hPaying.presented hJws hSkip hPositive with
      ⟨jti, now, limits, hMem⟩
    exact ⟨jti, now, limits, List.mem_cons_of_mem _ hMem⟩
  clean := by
    rcases hPaying.clean with hSpent | hOrdered | hHarmless
    · rcases hSpent with
        ⟨jti, tenantId, amount, now, limits, hMem⟩
      exact .inl ⟨jti, tenantId, amount, now, limits,
        List.mem_cons_of_mem _ hMem⟩
    · rcases hOrdered with
        ⟨buyer, currency, items, total, order, hMem⟩
      exact .inr (.inl ⟨buyer, currency, items, total, order,
        List.mem_cons_of_mem _ hMem⟩)
    · exact .inr (hClean.imp_right fun hMove =>
        harmless_cons.mpr ⟨hMove, hHarmless⟩)

theorem Paying.stopped
    {txn : Transaction}
    {halt : Halt}
    (hPaying : Paying input id txn past)
    (hProduction : svc.config.isProduction = true)
    (hRefused : ¬ Ordered past) :
    Held (txnLock id) past ∧ Stopped svc input halt past := by
  refine ⟨hPaying.held, hPaying.settled, fun _ _ => ?_⟩
  rcases hPaying.clean with hSpent | hOrdered | hHarmless
  · exact .inr (.order hProduction hRefused hSpent)
  · exact absurd hOrdered hRefused
  · exact .inl hHarmless

theorem meets_ensureBuyable
    {txn : Transaction}
    {Q : Unit → Moves → Prop}
    (hOwn : OwnTxn input id txn past)
    (hOpen :
      ∀ later, OwnTxn input id txn later →
        (txn.state = .quoted ∨ txn.state = .authorized) →
        Q () later) :
    (ensureBuyable txn).Meets (Rule svc (.intent input)) Q
      (fun halt later =>
        Held (txnLock id) later ∧
          Stopped svc input halt later) past := by
  unfold ensureBuyable
  split
  · rename_i hState
    rw [Svc.meets_bind]
    refine Svc.meets_act.mpr ⟨trivial, fun now => ?_⟩
    have hNow : OwnTxn input id txn (⟨.now, now⟩ :: past) :=
      hOwn.idle rfl
    exact meets_ownQuoteOpen hNow
      (hOpen _ hNow (.inl hState))
  · rename_i hState
    exact hOpen past hOwn (.inr hState)
  · exact hOwn.clear.stopped

/- The last step of a purchase. -/
theorem meets_complete
    {txn : Transaction}
    {order : Option OrderSummary}
    (hPaying : Paying input id txn past)
    (hOrdered :
      ∀ oid, order.map OrderSummary.id = some oid →
        ∃ buyer currency items created,
          (⟨.createOrder buyer currency items
              (txn.totals.total.getD (.new 0 txn.currency)),
            .ok created⟩ : Move Eff.Res) ∈ past ∧
          created.id = oid)
    (hCreated :
      ∀ buyer currency items total created,
        (⟨.createOrder buyer currency items total,
          .ok created⟩ : Move Eff.Res) ∈ past →
        total = txn.totals.total.getD (.new 0 txn.currency) ∧
          order.map OrderSummary.id = some created.id) :
    MeetsHeld svc input (txnLock id)
      (do
        let now ← Svc.act .now
        let updated ←
          Svc.act (.txns (.update id
            (.complete (order.map OrderSummary.id) now)))
        let persisted ←
          Svc.orFail
            (.resourceNotFound ("transaction " ++ id)) updated
        pure { transaction := persisted, order := order })
      past := by
  rw [MeetsHeld, Svc.meets_bind]
  refine Svc.meets_act.mpr ⟨trivial, fun now => ?_⟩
  have hNow : Paying input id txn (⟨.now, now⟩ :: past) :=
    hPaying.cons rfl (by simp) (.inr trivial)
  rw [Svc.meets_bind]
  refine Svc.meets_act.mpr ⟨?_, fun found => ?_⟩
  · refine ⟨input, txn, rfl, hNow.owner, hNow.seen, hNow.state,
      hNow.spent, hNow.presented, ?_, ?_⟩
    · intro oid hOid
      rcases hOrdered oid hOid with
        ⟨buyer, currency, items, created, hMem, hId⟩
      exact ⟨buyer, currency, items, created,
        List.mem_cons_of_mem _ hMem, hId⟩
    · intro buyer currency items total created hMem
      rcases List.mem_cons.mp hMem with hEq | hMem
      · cases congrArg Move.effect hEq
      · exact hCreated buyer currency items total created hMem
  · rw [Svc.meets_bind, Svc.meets_orFail]
    refine ⟨fun persisted _ => ⟨hNow.held.cons rfl,
      hNow.settled⟩, fun hNone => ?_⟩
    subst hNone
    refine ⟨hNow.held.cons rfl, hNow.settled, fun _ _ => ?_⟩
    rcases hNow.clean with hSpent | hCreated | hHarmless
    · rcases hSpent with
        ⟨jti, tenantId, amount, spendNow, limits, hMem⟩
      exact .inr (.lost id _ List.mem_cons_self
        (.inl ⟨jti, tenantId, amount, spendNow, limits,
          List.mem_cons_of_mem _ hMem⟩))
    · rcases hCreated with
        ⟨buyer, currency, items, total, created, hMem⟩
      exact .inr (.lost id _ List.mem_cons_self
        (.inr ⟨buyer, currency, items, total, created,
          List.mem_cons_of_mem _ hMem⟩))
    · exact .inl (harmless_cons.mpr ⟨rfl, hHarmless⟩)

theorem meets_doBuy
    {mandate : Option MandateEvaluation}
    (hIdle : Idle past)
    (hMandate :
      input.mandateJws.isSome → input.skipMandateCheck = false →
        mandate ≠ none) :
    (doBuy svc input mandate).Meets (Rule svc (.intent input))
      (fun _ later => pendingCharge later = none)
      (Stopped svc input) past := by
  rw [doBuy, Svc.meets_bind, Svc.meets_ofExcept]
  refine ⟨fun params _ => ?_, fun _ _ => hIdle.stopped⟩
  rw [Svc.meets_bind, Svc.meets_ofExcept]
  refine ⟨fun _ _ => ?_, fun _ _ => hIdle.stopped⟩
  refine meets_lockedTxn hIdle fun txn read hRead => ?_
  rw [MeetsHeld, ensureNotSubscriptionLinked, Svc.meets_bind,
    Svc.meets_ensure]
  refine ⟨fun _ => ?_, fun _ => hRead.clear.stopped⟩
  rw [Svc.meets_bind]
  refine meets_ensureBuyable hRead fun later hOwn hState => ?_
  -- Nothing was spent or ordered before the reservation.
  have hUnspent :
      ∀ jti tenantId amount now limits answer,
        (⟨.recordSpend jti tenantId amount now limits,
          answer⟩ : Move Eff.Res) ∉ later := by
    intro jti tenantId amount now limits answer hMem
    cases hOwn.unspent _ hMem
  have hUnordered : ¬ Ordered later := by
    rintro ⟨buyer, currency, items, total, order, hMem⟩
    cases hOwn.unspent _ hMem
  -- From the reservation on, the rest is the same.
  have hRest :
      ∀ reserved, Paying input params.transactionId txn
          reserved →
        ¬ Ordered reserved →
        MeetsHeld svc input (txnLock params.transactionId)
          (do
            let summary ← persistOrderForTransaction svc txn
            let now ← Svc.act .now
            let updated ←
              Svc.act (.txns (.update params.transactionId
                (.complete (summary.map OrderSummary.id) now)))
            let persisted ←
              Svc.orFail
                (.resourceNotFound
                  ("transaction " ++ params.transactionId))
                updated
            pure { transaction := persisted, order := summary })
          reserved := by
    intro reserved hPaying hNone
    rw [MeetsHeld, Svc.meets_bind]
    -- An order that could not be made is none.
    have hStillNone :
        ∀ buyer currency items total error,
          ¬ Ordered (⟨.createOrder buyer currency items total,
            .error error⟩ :: reserved) := by
      rintro _ _ _ _ error
        ⟨buyer, currency, items, total, order, hMem⟩
      simp only [List.mem_cons, Move.mk.injEq] at hMem
      rcases hMem with ⟨hEq, hAnswer⟩ | hMem
      · cases hEq
        cases eq_of_heq hAnswer
      · exact hNone ⟨buyer, currency, items, total, order, hMem⟩
    refine meets_persistOrderForTransaction ?_ ?_ ?_ ?_ ?_
    · refine meets_complete hPaying ?_ ?_
      · intro oid hOid
        cases hOid
      · intro buyer currency items total order hMem
        exact absurd ⟨buyer, currency, items, total, order, hMem⟩
          hNone
    · intro order summary hId
      refine meets_complete
        (hPaying.cons rfl (by simp)
          (.inl ⟨_, _, _, _, order, List.mem_cons_self⟩)) ?_ ?_
      · intro oid hOid
        cases hOid
        exact ⟨_, _, _, order, List.mem_cons_self, hId.symm⟩
      · intro buyer currency items total created hMem
        simp only [List.mem_cons, Move.mk.injEq] at hMem
        rcases hMem with ⟨hEq, hAnswer⟩ | hMem
        · cases hEq
          cases eq_of_heq hAnswer
          exact ⟨rfl, congrArg some hId⟩
        · exact absurd
            ⟨buyer, currency, items, total, created, hMem⟩ hNone
    · intro error
      refine meets_complete
        (hPaying.cons rfl (by simp) (.inr ⟨error, rfl⟩)) ?_ ?_
      · intro oid hOid
        cases hOid
      · intro buyer currency items total order hMem
        exact absurd ⟨buyer, currency, items, total, order, hMem⟩
          (hStillNone _ _ _ _ error)
    · intro hProduction error
      exact hPaying.stopped hProduction hNone
    · intro hProduction error
      exact Paying.stopped
        (hPaying.cons rfl (by simp) (.inr ⟨error, rfl⟩))
        hProduction (hStillNone _ _ _ _ error)
  rw [Svc.meets_bind]
  refine meets_reserveMandateSpend ?_ ?_ ?_
    (fun _ => hOwn.clear.stopped) ?_
  · exact fun hPositive _ _ _ _ =>
      ⟨hPositive, input, rfl, rfl⟩
  · intro hNone
    refine hRest later ⟨hOwn.owner, hOwn.seen, hOwn.clear.held,
      hOwn.clear.settled, hState, ?_, ?_,
      .inr (.inr hOwn.clear.harmless)⟩ hUnordered
    · intro jti tenantId amount now limits answer hMem
      exact absurd hMem
        (hUnspent jti tenantId amount now limits answer)
    · intro hJws hSkip hPositive
      rcases hNone with hNone | hNone
      · exact absurd hNone (hMandate hJws hSkip)
      · exact absurd hPositive (Int64.not_lt.mpr hNone)
  · intro jti now limits
    have hQuiet :
        AfterQuiet later
          (⟨.recordSpend jti input.tenant.tenantId
            (totalAmountMinor txn.totals) now limits, .ok ()⟩ ::
            ⟨.now, now⟩ :: later) :=
      (AfterQuiet.refl.cons rfl).cons rfl
    refine hRest _ ⟨hOwn.owner, hQuiet.seenTxn hOwn.seen,
      hOwn.clear.held.afterQuiet hQuiet, ?_, hState, ?_, ?_,
      .inl ⟨jti, _, _, now, limits, List.mem_cons_self⟩⟩ ?_
    · rw [hQuiet.pendingCharge_eq]
      exact hOwn.clear.settled
    · intro other tenantId amount at_ bounds answer hMem
      simp only [List.mem_cons, Move.mk.injEq] at hMem
      rcases hMem with ⟨hEq, _⟩ | hMem | hMem
      · cases hEq
        rfl
      · cases hMem.1
      · exact absurd hMem
          (hUnspent other tenantId amount at_ bounds answer)
    · exact fun _ _ _ =>
        ⟨jti, now, limits, List.mem_cons_self⟩
    · rintro ⟨buyer, currency, items, total, order, hMem⟩
      simp only [List.mem_cons, Move.mk.injEq] at hMem
      rcases hMem with hMem | hMem | hMem
      · cases hMem.1
      · cases hMem.1
      · exact hUnordered
          ⟨buyer, currency, items, total, order, hMem⟩
  · intro jti now limits error
    have hNow :
        Clear (txnLock params.transactionId)
          (⟨.now, now⟩ :: later) := hOwn.clear.idle rfl
    have hRefused :
        Clear (txnLock params.transactionId)
          (⟨.recordSpend jti input.tenant.tenantId
            (totalAmountMinor txn.totals) now limits,
              .error error⟩ :: ⟨.now, now⟩ :: later) :=
      hNow.cons rfl hNow.settled ⟨error, rfl⟩
    exact hRefused.stopped

/- Only the owner of the transaction is checked. -/
theorem meets_doReturn
    (hIdle : Idle past) :
    (doReturn input).Meets (Rule svc (.intent input))
      (fun _ later => pendingCharge later = none)
      (Stopped svc input) past := by
  rw [doReturn, Svc.meets_bind, Svc.meets_orFail]
  refine ⟨fun id _ => ?_, fun _ => hIdle.stopped⟩
  refine meets_lockedTxn hIdle fun txn later hOwn => ?_
  rw [MeetsHeld, Svc.meets_bind]
  refine Svc.meets_act.mpr ⟨trivial, fun now => ?_⟩
  have hNow : OwnTxn input id txn (⟨.now, now⟩ :: later) :=
    hOwn.idle rfl
  exact meets_lastUpdate hNow.clear (hNow.onTxn trivial)

theorem meets_doNegotiate
    (hIdle : Idle past) :
    (doNegotiate svc input).Meets (Rule svc (.intent input))
      (fun _ later => pendingCharge later = none)
      (Stopped svc input) past := by
  rw [doNegotiate, Svc.meets_bind, Svc.meets_ofExcept]
  refine ⟨fun params _ => ?_, fun _ _ => hIdle.stopped⟩
  rw [Svc.meets_bind, Svc.meets_ensure]
  refine ⟨fun _ => ?_, fun _ => hIdle.stopped⟩
  rw [Svc.meets_bind, Svc.meets_ensure]
  refine ⟨fun _ => ?_, fun _ => hIdle.stopped⟩
  refine meets_lockedTxn hIdle fun txn later hOwn => ?_
  rw [MeetsHeld, Svc.meets_bind, Svc.meets_ensure, beq_iff_eq]
  refine ⟨fun hState => ?_, fun _ => hOwn.clear.stopped⟩
  have hWrite :
      ∀ total : Int64,
        MeetsHeld svc input (txnLock params.transactionId)
          (do
            let now ← Svc.act .now
            let updated ←
              Svc.act (.txns (.update params.transactionId
                (.renegotiate (totalAmountMinor txn.totals)
                  total txn.currency
                  (negotiationEntry svc input params total
                    txn.currency now) now)))
            let txn ←
              Svc.orFail
                (.resourceNotFound
                  ("transaction " ++ params.transactionId))
                updated
            pure { transaction := txn }) later := by
    intro total
    rw [MeetsHeld, Svc.meets_bind]
    refine Svc.meets_act.mpr ⟨trivial, fun now => ?_⟩
    have hNow :
        OwnTxn input params.transactionId txn
          (⟨.now, now⟩ :: later) := hOwn.idle rfl
    exact meets_lastUpdate hNow.clear (hNow.onTxn hState)
  rw [Svc.meets_bind, negotiatedTotal]
  cases params.proposedTotal with
  | none => exact hWrite _
  | some proposed =>
      rw [Svc.meets_bind, Svc.meets_ensure]
      exact ⟨fun _ => hWrite _, fun _ => hOwn.clear.stopped⟩

theorem meets_doConfirmReceipt
    (hIdle : Idle past) :
    (doConfirmReceipt svc input).Meets
      (Rule svc (.intent input))
      (fun _ later => pendingCharge later = none)
      (Stopped svc input) past := by
  rw [doConfirmReceipt, Svc.meets_bind, Svc.meets_ofExcept]
  refine ⟨fun params _ => ?_, fun _ _ => hIdle.stopped⟩
  refine meets_lockedTxn hIdle fun txn later hOwn => ?_
  rw [MeetsHeld, Svc.meets_bind, Svc.meets_ensure]
  refine ⟨fun hState => ?_, fun _ => hOwn.clear.stopped⟩
  rw [Svc.meets_bind, Svc.meets_ensure]
  refine ⟨fun _ => ?_, fun _ => hOwn.clear.stopped⟩
  rw [Svc.meets_bind]
  refine Svc.meets_act.mpr ⟨trivial, fun now => ?_⟩
  have hNow :
      OwnTxn input params.transactionId txn
        (⟨.now, now⟩ :: later) := hOwn.idle rfl
  exact meets_lastUpdate hNow.clear (hNow.onTxn hState)

end Orders

end Protocol

end IcpHandler
