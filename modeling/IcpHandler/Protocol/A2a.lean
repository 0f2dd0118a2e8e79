import IcpHandler.Protocol.Subscriptions

/-
  The two intents between agents follow the rule, and stop in
  one of the known ways.

  Main declarations:
    * `meets_doA2aQuote`
    * `meets_doA2aPay`
-/

------------------------------------------------------------
-- Peer Quotes
------------------------------------------------------------

namespace IcpHandler

namespace Protocol

open Model Service Concurrency

section Quotes

variable {svc : IcpService}
variable {input : IntentInput}
variable {past : Moves}
variable {mandate : Option MandateEvaluation}

theorem meets_priceHint
    {hint : Option Money}
    {Q : PeerQuoteStatus × Option Money → Moves → Prop}
    {X : Halt → Moves → Prop}
    (hDone : ∀ hinted, Q hinted past)
    (hStop : ∀ halt, X halt past) :
    (priceHint hint).Meets (Rule svc (.intent input)) Q X
      past := by
  cases hint with
  | none => exact hDone _
  | some price =>
      rw [priceHint, Svc.meets_bind, Svc.meets_ensure]
      exact ⟨fun _ => hDone _, fun _ => hStop _⟩

theorem meets_doA2aQuote
    (hIdle : Idle past) :
    (doA2aQuote svc input mandate).Meets
      (Rule svc (.intent input))
      (fun _ later => pendingCharge later = none)
      (Stopped svc input) past := by
  rw [doA2aQuote, Svc.meets_bind, Svc.meets_ofExcept]
  refine ⟨fun params _ => ?_, fun _ _ => hIdle.stopped⟩
  rw [Svc.meets_bind, Svc.meets_ensure]
  refine ⟨fun _ => ?_, fun _ => hIdle.stopped⟩
  rw [Svc.meets_bind]
  refine Svc.meets_act.mpr ⟨trivial, fun now => ?_⟩
  have hNow : Idle (⟨.now, now⟩ :: past : Moves) :=
    AfterIdle.idle (AfterIdle.refl.cons rfl) hIdle
  rw [Svc.meets_bind]
  refine meets_priceHint (fun hinted => ?_)
    (fun _ => hNow.stopped)
  rw [Svc.meets_bind]
  refine Svc.meets_act.mpr ⟨trivial, fun token => ?_⟩
  rw [Svc.meets_bind]
  refine Svc.meets_act.mpr
    ⟨⟨input, rfl, rfl, token, rfl, .here⟩, fun _ => ?_⟩
  rw [Svc.meets_bind]
  refine Svc.meets_act.mpr ⟨trivial, fun token => ?_⟩
  rw [Svc.meets_bind]
  refine Svc.meets_act.mpr
    ⟨⟨input, rfl, rfl, .inl ⟨token, rfl, .here⟩⟩,
      fun _ => ?_⟩
  exact hNow.pendingCharge

end Quotes

end Protocol

end IcpHandler

------------------------------------------------------------
-- Payments
------------------------------------------------------------

namespace IcpHandler

namespace Protocol

open Model Service Concurrency

section Payments

variable {svc : IcpService}
variable {input : IntentInput}
variable {past : Moves}
variable {mandate : Option MandateEvaluation}
variable {params : A2aPayParams}
variable {now : DateTime}

/- A lock that was held is held still. -/
def KeepsLock (past later : Moves) : Prop :=
  ∀ key, Held key past → Held key later

theorem AfterQuiet.keepsLock
    {later : Moves}
    (hAfter : AfterQuiet past later) :
    KeepsLock past later :=
  fun _ hHeld => hHeld.afterQuiet hAfter

/- The quote of the terms was read, and can be paid. -/
def Payable
    (input : IntentInput)
    (now : DateTime)
    (past : Moves)
    (quote : PeerQuote) : Prop :=
  ∃ key, quote.tenantId = input.tenant.tenantId ∧
    SeenQuote key quote past ∧ quote.status = .quoted ∧
    now < quote.expiresAt

/-
  Once the terms stand, the payment reserves, stores its
  transaction and accepts the quote. Nothing of this refuses
  after the reservation.
-/
theorem meets_payWith
    {terms : A2aTerms}
    {makeTxn : String → Transaction}
    (hReserved : Reserved past)
    (hHarmless : Harmless past)
    (hQuote :
      ∀ quote, terms.quote = some quote →
        Payable input now past quote)
    (hId : ∀ token, (makeTxn token).id = "txn_" ++ token)
    (hTenant :
      ∀ token,
        (makeTxn token).tenantId = input.tenant.tenantId) :
    (do
      reserveMandateSpend mandate input.tenant.tenantId
        terms.money.amountMinor terms.money.currency
      let token ← Svc.act .uuid
      Svc.act (.txns (.insert (makeTxn token)))
      let updatedQuote ←
        match terms.quote with
        | some quote =>
            Svc.act (.quotes (.update quote.id
              (.accept (makeTxn token).id now)))
        | none => pure none
      pure
        { transaction := makeTxn token
          peerQuote := updatedQuote } : Svc Outcome).Meets
      (Rule svc (.intent input))
      (fun _ later =>
        KeepsLock past later ∧ pendingCharge later = none)
      (fun halt later =>
        KeepsLock past later ∧ Stopped svc input halt later)
      past := by
  rw [Svc.meets_bind]
  refine meets_reserve hReserved hHarmless ?_ ?_
  · intro reserved hAfter hDone
    rw [Svc.meets_bind]
    refine Svc.meets_act.mpr ⟨trivial, fun token => ?_⟩
    rw [Svc.meets_bind]
    refine Svc.meets_act.mpr ⟨⟨input, rfl, hTenant token,
      .inl ⟨token, hId token, .here⟩⟩, fun _ => ?_⟩
    have hKeeps :
        KeepsLock past
          (⟨.txns (.insert (makeTxn token)), ()⟩ ::
            ⟨.uuid, token⟩ :: reserved) := by
      intro key hHeld
      exact ((hHeld.afterQuiet hAfter).cons rfl).cons rfl
    have hSettled :
        pendingCharge
          (⟨.txns (.insert (makeTxn token)), ()⟩ ::
            ⟨.uuid, token⟩ :: reserved) = none :=
      hDone.settled
    cases hTerms : terms.quote with
    | none =>
        dsimp only
        rw [Svc.meets_bind]
        exact ⟨hKeeps, hSettled⟩
    | some quote =>
        rcases hQuote quote hTerms with
          ⟨key, hOwner, hSeen, hStatus, hLive⟩
        dsimp only
        rw [Svc.meets_bind]
        refine Svc.meets_act.mpr ⟨?_, fun found => ?_⟩
        · exact ⟨key, input, quote, rfl, hOwner,
            ((hAfter.seenQuote hSeen).cons ⟨rfl, rfl⟩).cons
              ⟨rfl, rfl⟩, rfl, hStatus, hLive⟩
        · exact ⟨fun other hHeld =>
            (hKeeps other hHeld).cons rfl, hSettled⟩
  · intro halt later hAfter hClean
    refine ⟨hAfter.keepsLock, ?_, fun _ _ => .inl hClean⟩
    rw [hAfter.pendingCharge_eq]
    exact hReserved.settled

/- What a payment has established before its terms. -/
structure Opening
    (past : Moves) : Prop where
  reserved : Reserved past
  harmless : Harmless past

theorem Opening.idle
    {move : Move Eff.Res}
    (hOpening : Opening past)
    (hIdle : move.effect.isIdle = true) :
    Opening (move :: past) where
  reserved := hOpening.reserved.idle hIdle
  harmless := harmless_cons.mpr
    ⟨harmlessMove_of_isIdle hIdle, hOpening.harmless⟩

theorem Opening.stopped
    {halt : Halt}
    (hOpening : Opening past) :
    Stopped svc input halt past :=
  ⟨hOpening.reserved.settled, fun _ _ =>
    .inl hOpening.harmless⟩

/- The terms of a direct payment come from its parameters. -/
theorem meets_directTerms
    {Q : A2aTerms → Moves → Prop}
    (hOpening : Opening past)
    (hDone :
      ∀ terms : A2aTerms, terms.quote = none → Q terms past) :
    (directTerms input params).Meets (Rule svc (.intent input))
      Q
      (fun halt later =>
        KeepsLock past later ∧ Stopped svc input halt later)
      past := by
  have hStop :
      ∀ halt, KeepsLock past past ∧
        Stopped svc input halt past :=
    fun _ => ⟨AfterQuiet.refl.keepsLock, hOpening.stopped⟩
  rw [directTerms, Svc.meets_bind, Svc.meets_orFail]
  refine ⟨fun peerId _ => ?_, fun _ => hStop _⟩
  rw [Svc.meets_bind, Svc.meets_orFail]
  refine ⟨fun money _ => ?_, fun _ => hStop _⟩
  rw [Svc.meets_bind, Svc.meets_ensure]
  refine ⟨fun _ => ?_, fun _ => hStop _⟩
  rw [Svc.meets_bind, Svc.meets_ensure]
  exact ⟨fun _ => hDone _ rfl, fun _ => hStop _⟩

/-
  The terms of a payment against a quote come from the quote.
  One that is past its deadline is marked and refused.
-/
theorem meets_quoteTerms
    {quoteId : String}
    {Q : A2aTerms → Moves → Prop}
    (hOpening : Opening past)
    (hHeld : Held (quoteLock quoteId) past)
    (hDone :
      ∀ (terms : A2aTerms) (later : Moves), Opening later →
        AfterQuiet past later →
        (∀ quote, terms.quote = some quote →
          Payable input now later quote) →
        Q terms later) :
    (quoteTerms input quoteId now).Meets
      (Rule svc (.intent input)) Q
      (fun halt later =>
        KeepsLock past later ∧ Stopped svc input halt later)
      past := by
  have hStop :
      ∀ found halt,
        KeepsLock past
            (⟨.quotes (.get quoteId), found⟩ :: past) ∧
          Stopped svc input halt
            (⟨.quotes (.get quoteId), found⟩ :: past) :=
    fun found halt =>
      ⟨(AfterQuiet.refl.cons rfl).keepsLock,
        (hOpening.idle rfl).stopped⟩
  rw [quoteTerms, Svc.meets_bind]
  refine meets_peerQuoteForInput (fun quote hOwner => ?_)
    (fun found _ => hStop found _)
  have hSeen :
      SeenQuote quoteId quote
        (⟨.quotes (.get quoteId), some quote⟩ :: past) :=
    .here hHeld
  rw [Svc.meets_bind, Svc.meets_ensure]
  refine ⟨fun _ => ?_, fun _ => hStop _ _⟩
  rw [Svc.meets_bind, Svc.meets_ensure, beq_iff_eq]
  refine ⟨fun hStatus => ?_, fun _ => hStop _ _⟩
  rw [Svc.meets_bind]
  unfold ensurePeerQuoteLive
  split
  · rename_i hLapsed
    rw [Svc.meets_bind]
    refine Svc.meets_act.mpr ⟨.inl ⟨input, quote, rfl, hOwner,
      hSeen, hLapsed⟩, fun found => ?_⟩
    refine ⟨fun key hKey => (hKey.cons rfl).cons rfl,
      hOpening.reserved.settled, fun _ _ => .inl ?_⟩
    exact harmless_cons.mpr ⟨trivial,
      harmless_cons.mpr ⟨trivial, hOpening.harmless⟩⟩
  · rename_i hLive
    rw [Svc.meets_pure, Svc.meets_bind, Svc.meets_orFail]
    refine ⟨fun money _ => ?_, fun _ => hStop _ _⟩
    rw [Svc.meets_bind, Svc.meets_ensure]
    refine ⟨fun _ => ?_, fun _ => hStop _ _⟩
    refine hDone _ _ (hOpening.idle rfl)
      (AfterQuiet.refl.cons rfl) ?_
    intro paid hPaid
    cases hPaid
    exact ⟨quoteId, hOwner, hSeen, hStatus,
      not_le.mp hLive⟩

/- The body of a payment, with or without a quote. -/
theorem meets_payTerms
    (hOpening : Opening past)
    (hHeld :
      ∀ quoteId, params.peerQuoteId = some quoteId →
        Held (quoteLock quoteId) past) :
    (payTerms input mandate params).Meets
      (Rule svc (.intent input))
      (fun _ later =>
        KeepsLock past later ∧ pendingCharge later = none)
      (fun halt later =>
        KeepsLock past later ∧ Stopped svc input halt later)
      past := by
  rw [payTerms, Svc.meets_bind]
  refine Svc.meets_act.mpr ⟨trivial, fun now => ?_⟩
  have hNow : Opening (⟨.now, now⟩ :: past) :=
    hOpening.idle rfl
  have hKeeps :
      ∀ {later latest : Moves},
        AfterQuiet (⟨.now, now⟩ :: past) later →
        KeepsLock later latest → KeepsLock past latest :=
    fun hAfter hLatest key hKey =>
      hLatest key ((hKey.cons rfl).afterQuiet hAfter)
  cases hId : params.peerQuoteId with
  | none =>
      dsimp only
      rw [Svc.meets_bind]
      refine Svc.Meets.mono
        (meets_directTerms hNow fun terms hNone => ?_)
        (fun _ _ hPost => hPost)
        (fun _ _ hPost => ⟨hKeeps .refl hPost.1, hPost.2⟩)
      refine Svc.Meets.mono
        (meets_payWith hNow.reserved hNow.harmless ?_ ?_ ?_)
        (fun _ _ hPost => ⟨hKeeps .refl hPost.1, hPost.2⟩)
        (fun _ _ hPost => ⟨hKeeps .refl hPost.1, hPost.2⟩)
      · intro quote hQuote
        rw [hNone] at hQuote
        cases hQuote
      · exact fun _ => rfl
      · exact fun _ => rfl
  | some quoteId =>
      dsimp only
      rw [Svc.meets_bind]
      refine Svc.Meets.mono
        (meets_quoteTerms hNow
          ((hHeld quoteId hId).cons rfl)
          fun terms later hLater hAfter hQuote => ?_)
        (fun _ _ hPost => hPost)
        (fun _ _ hPost => ⟨hKeeps .refl hPost.1, hPost.2⟩)
      refine Svc.Meets.mono
        (meets_payWith hLater.reserved hLater.harmless hQuote
          ?_ ?_)
        (fun _ _ hPost => ⟨hKeeps hAfter hPost.1, hPost.2⟩)
        (fun _ _ hPost => ⟨hKeeps hAfter hPost.1, hPost.2⟩)
      · exact fun _ => rfl
      · exact fun _ => rfl

theorem meets_doA2aPay
    (hIdle : Idle past) :
    (doA2aPay svc input mandate).Meets
      (Rule svc (.intent input))
      (fun _ later => pendingCharge later = none)
      (Stopped svc input) past := by
  rw [doA2aPay, Svc.meets_bind, Svc.meets_ofExcept]
  refine ⟨fun params _ => ?_, fun _ _ => hIdle.stopped⟩
  rw [Svc.meets_bind, Svc.meets_ensure]
  refine ⟨fun _ => ?_, fun _ => hIdle.stopped⟩
  have hPayment :
      ∀ {Q : Unit → Moves → Prop}, Q () past →
        (ensureA2aPayment svc params).Meets
          (Rule svc (.intent input)) Q (Stopped svc input)
          past := by
    intro Q hDone
    unfold ensureA2aPayment
    dsimp only
    split
    · rw [Svc.meets_ofExcept]
      exact ⟨fun _ _ => hDone, fun _ _ => hIdle.stopped⟩
    · rw [Svc.meets_ensure]
      exact ⟨fun _ => hDone, fun _ => hIdle.stopped⟩
  rw [Svc.meets_bind]
  refine hPayment ?_
  cases hId : params.peerQuoteId with
  | none =>
      refine Svc.Meets.mono
        (meets_payTerms ⟨.of_idle hIdle, hIdle.harmless⟩ ?_)
        (fun _ _ hPost => hPost.2) (fun _ _ hPost => hPost.2)
      intro quoteId hQuote
      rw [hId] at hQuote
      cases hQuote
  | some quoteId =>
      refine meets_withLock hIdle ?_
      have hLocked :
          Clear (quoteLock quoteId)
            (⟨.lock (quoteLock quoteId), ()⟩ :: past) :=
        .lock hIdle
      have hUnordered :
          ¬ Ordered
            (⟨.lock (quoteLock quoteId), ()⟩ :: past) := by
        rintro ⟨buyer, currency, items, total, order, hMem⟩
        simp only [List.mem_cons, Move.mk.injEq] at hMem
        rcases hMem with hMem | hMem
        · cases hMem.1
        · cases (isIdle_iff.mp (hIdle _ hMem)).2
      refine Svc.Meets.mono
        (meets_payTerms
          ⟨⟨hLocked.settled, .inr hLocked.harmless,
            hUnordered⟩, hLocked.harmless⟩ ?_)
        (fun _ _ hPost =>
          ⟨hPost.1 _ hLocked.held, hPost.2⟩)
        (fun _ _ hPost =>
          ⟨hPost.1 _ hLocked.held, hPost.2⟩)
      intro other hOther
      rw [hId] at hOther
      cases hOther
      exact hLocked.held

end Payments

end Protocol

end IcpHandler
