import IcpHandler.Protocol.Operations

/-
  What payments between agents do in detail, beside expiry
  passes. A payment charges a quote that it has seen quoted
  under the lock of the quote, and accepts it before it gives
  the lock back.

  Main declarations:
    * `chargedQuote`, `owedCharge`
    * `PayRule`
    * `PaysOrSweeps`
    * `pay_traced`
-/

------------------------------------------------------------
-- The Rule of Payments
------------------------------------------------------------

namespace IcpHandler

namespace Protocol

open Model Service Concurrency

/- The quote that a completed transaction has charged. -/
def chargedQuote (txn : Transaction) : Option String :=
  if txn.state = .completed then
    txn.externalRefs.lookup "peer_quote_id"
  else none

/- The charge of a quote that has not been accepted since. -/
def owedCharge : Moves → Option Transaction
  | [] => none
  | ⟨.txns (.insert txn), _⟩ :: _ =>
      if (chargedQuote txn).isSome then some txn else none
  | ⟨.quotes (.update _ (.accept _ _)), _⟩ :: _ => none
  | _ :: past => owedCharge past

/- The quote was seen quoted under its lock. -/
def SeesQuoted
    (id : String)
    (past : Moves) : Prop :=
  ∃ quote, SeenQuote id quote past ∧ quote.status = .quoted

/- Only a quote that was seen quoted is charged. -/
structure MayPay
    (past : Moves)
    (txn : Transaction) : Prop where
  settled : owedCharge past = none
  state : txn.state = .completed
  seen :
    ∀ id, chargedQuote txn = some id →
      ∃ key quote, SeenQuote key quote past ∧
        quote.status = .quoted ∧ quote.id = id

/-
  What a payment may do beyond the rule of the service. Of an
  expiry pass it only says that it expires rows.
-/
def PayRule
    (op : Op)
    (past : Moves) : Eff → Prop
  | .unlock _ => owedCharge past = none
  | .txns (.insert txn) => MayPay past txn
  | .txns (.update _ (.expire now)) => op = .tickExpiries now
  | .txns (.update _ _) => False
  | .insertCharge _ _ => False
  | .quotes (.insert _) => False
  | .quotes (.update id (.accept transactionId _)) =>
      ∃ txn, owedCharge past = some txn ∧
        txn.id = transactionId ∧ chargedQuote txn = some id
  | .quotes (.update id (.expire now)) =>
      owedCharge past = none ∧
        (op = .tickExpiries now ∨ SeesQuoted id past)
  | _ => True

/- A payment between agents, or an expiry pass. -/
def PaysOrSweeps (op : Op) : Prop :=
  (∃ input, op = .intent input ∧
    Intent.parse input.envelope.intent = .ok .a2aPay) ∨
    ∃ now, op = .tickExpiries now

section Owed

variable {op : Op}
variable {past : Moves}

/- No other move owes or accepts a charge. -/
theorem owedCharge_cons
    {move : Move Eff.Res}
    (hNoInsert : ∀ txn, move.effect ≠ .txns (.insert txn))
    (hNoAccept :
      ∀ id transactionId now,
        move.effect ≠
          .quotes (.update id (.accept transactionId now))) :
    owedCharge (move :: past) = owedCharge past := by
  rcases move with ⟨effect, answer⟩
  cases effect with
  | txns op =>
      cases op with
      | insert txn => exact absurd rfl (hNoInsert txn)
      | _ => rfl
  | quotes op =>
      cases op with
      | update id patch =>
          cases patch with
          | accept transactionId now =>
              exact absurd rfl (hNoAccept id transactionId now)
          | expire now => rfl
      | _ => rfl
  | _ => rfl

theorem owedCharge_quiet
    {move : Move Eff.Res}
    (hQuiet : move.effect.isQuiet = true) :
    owedCharge (move :: past) = owedCharge past := by
  apply owedCharge_cons
  · intro txn hEffect
    rw [hEffect] at hQuiet
    cases hQuiet
  · intro id transactionId now hEffect
    rw [hEffect] at hQuiet
    cases hQuiet

theorem AfterQuiet.owedCharge_eq
    {later : Moves}
    (hAfter : AfterQuiet past later) :
    owedCharge later = owedCharge past := by
  obtain ⟨recent, rfl, hRecent⟩ := hAfter
  induction recent with
  | nil => rfl
  | cons move recent ih =>
      rw [List.cons_append,
        owedCharge_quiet (hRecent move List.mem_cons_self)]
      exact ih fun other hOther =>
        hRecent other (List.mem_cons_of_mem _ hOther)

theorem Idle.owedCharge
    (hIdle : Idle past) :
    owedCharge past = none := by
  have hAfter : AfterQuiet [] past :=
    ⟨past, (List.append_nil past).symm, fun move hMove =>
      (isIdle_iff.mp (hIdle move hMove)).1⟩
  exact hAfter.owedCharge_eq

theorem payRule_of_isQuiet
    {effect : Eff}
    (hQuiet : effect.isQuiet = true) :
    PayRule op past effect := by
  cases effect with
  | txns op =>
      cases op with
      | insert txn => cases hQuiet
      | update id patch => cases hQuiet
      | _ => trivial
  | quotes op =>
      cases op with
      | insert quote => cases hQuiet
      | update id patch => cases hQuiet
      | _ => trivial
  | unlock key => cases hQuiet
  | insertCharge txn bills => cases hQuiet
  | _ => trivial

end Owed

end Protocol

end IcpHandler

------------------------------------------------------------
-- Payments
------------------------------------------------------------

namespace IcpHandler

namespace Protocol

open Model Service Concurrency

section Payments

variable {svc : IcpService}
variable {op : Op}
variable {input : IntentInput}
variable {past : Moves}
variable {mandate : Option MandateEvaluation}
variable {params : A2aPayParams}
variable {now : DateTime}

/- An idle block follows the rule of payments. -/
theorem pays_of_idle
    {α : Type}
    {body : Svc α}
    {Q : α → Moves → Prop}
    {X : Halt → Moves → Prop}
    (hIdle : body.Meets IdleRule Q X past) :
    body.Meets (PayRule op)
      (fun value later =>
        Q value later ∧ AfterIdle past later)
      (fun halt later =>
        X halt later ∧ AfterIdle past later) past :=
  Svc.Meets.of_kind hIdle fun _ _ hKind =>
    payRule_of_isQuiet (isIdle_iff.mp hKind).1

/- A reservation is quiet, whatever comes of it. -/
theorem pays_reserve
    {tenantId currency : String}
    {amountMinor : Int64} :
    (reserveMandateSpend mandate tenantId amountMinor
      currency).Meets (PayRule op)
      (fun _ later => AfterQuiet past later)
      (fun _ later => AfterQuiet past later) past := by
  cases mandate with
  | none => exact AfterQuiet.refl
  | some ev =>
      simp only [reserveMandateSpend]
      split
      · exact AfterQuiet.refl
      · rw [Svc.meets_bind, Svc.meets_ensure]
        refine ⟨fun _ => ?_, fun _ => .refl⟩
        cases parsePeriod ev.payload.icp.budget.period with
        | error message => exact AfterQuiet.refl
        | ok period =>
            simp only [Svc.meets_pure, Svc.meets_bind,
              Svc.meets_ofExcept]
            refine ⟨trivial, fun now => ⟨trivial,
              fun result => ⟨fun _ _ => ?_, fun _ _ => ?_⟩⟩⟩
            · exact (AfterQuiet.refl.cons rfl).cons rfl
            · exact (AfterQuiet.refl.cons rfl).cons rfl

/- The reference to the quote is the one that was paid. -/
theorem lookup_a2aRefs
    (params : A2aPayParams)
    (terms : A2aTerms) :
    (a2aRefs params terms).lookup "peer_quote_id" =
      terms.quote.map PeerQuote.id := by
  have hOther :
      ∀ (refs : Refs) (key value : String),
        key ≠ "peer_quote_id" →
          (refs.insert key value).lookup "peer_quote_id" =
            refs.lookup "peer_quote_id" :=
    fun refs key value hKey =>
      AList.lookup_insert_ne (Ne.symm hKey)
  unfold a2aRefs
  dsimp only
  rw [hOther _ _ _ (by decide)]
  -- The settlement's keys are others, and so is the memo's.
  trans
  · split
    · split
      · rw [hOther _ _ _ (by decide), hOther _ _ _ (by decide),
          hOther _ _ _ (by decide)]
      · rw [hOther _ _ _ (by decide), hOther _ _ _ (by decide)]
    · rfl
  trans
  · split
    · exact hOther _ _ _ (by decide)
    · rfl
  cases terms.quote with
  | none =>
      rw [hOther _ _ _ (by decide)]
      exact AList.lookup_empty _
  | some quote => exact AList.lookup_insert _

/- The quote of the terms was seen quoted. -/
def PaysSeen
    (past : Moves)
    (terms : A2aTerms) : Prop :=
  ∀ quote, terms.quote = some quote →
    ∃ key, SeenQuote key quote past ∧ quote.status = .quoted

/- With the terms settled, the charge comes with its accept. -/
theorem pays_payWith
    {terms : A2aTerms}
    {makeTxn : String → Transaction}
    (hOwed : owedCharge past = none)
    (hSeen : PaysSeen past terms)
    (hState : ∀ token, (makeTxn token).state = .completed)
    (hRef :
      ∀ token,
        (makeTxn token).externalRefs.lookup "peer_quote_id" =
          terms.quote.map PeerQuote.id) :
    (do
      reserveMandateSpend mandate input.tenant.tenantId
        terms.money.amountMinor terms.money.currency
      let token ← Svc.act .uuid
      Svc.act (.txns (.insert (makeTxn token)))
      let updatedQuote ←
        match terms.quote with
        | some quote =>
            Svc.act (.quotes (.update quote.id
              (.accept (makeTxn token).id now)))
        | none => pure none
      pure
        { transaction := makeTxn token
          peerQuote := updatedQuote } : Svc Outcome).Meets
      (PayRule op)
      (fun _ later => owedCharge later = none)
      (fun _ later => owedCharge later = none) past := by
  rw [Svc.meets_bind]
  refine Svc.Meets.mono pays_reserve ?_
    (fun _ _ hAfter => hAfter.owedCharge_eq.trans hOwed)
  intro _ reserved hAfter
  rw [Svc.meets_bind]
  refine Svc.meets_act.mpr ⟨trivial, fun token => ?_⟩
  have hCharged :
      chargedQuote (makeTxn token) =
        terms.quote.map PeerQuote.id := by
    unfold chargedQuote
    rw [if_pos (hState token), hRef token]
  have hMay :
      MayPay (⟨.uuid, token⟩ :: reserved) (makeTxn token) := by
    refine ⟨hAfter.owedCharge_eq.trans hOwed, hState token, ?_⟩
    intro id hId
    rw [hCharged] at hId
    obtain ⟨quote, hQuote, rfl⟩ := Option.map_eq_some_iff.mp hId
    obtain ⟨key, hRead, hStatus⟩ := hSeen quote hQuote
    exact ⟨key, quote,
      (hAfter.seenQuote hRead).cons ⟨rfl, rfl⟩, hStatus, rfl⟩
  rw [Svc.meets_bind]
  refine Svc.meets_act.mpr ⟨hMay, fun _ => ?_⟩
  cases hTerms : terms.quote with
  | none =>
      dsimp only
      rw [Svc.meets_bind]
      change owedCharge (_ :: _) = none
      unfold owedCharge
      rw [hCharged, hTerms]
      rfl
  | some quote =>
      dsimp only
      rw [Svc.meets_bind]
      rw [hTerms] at hCharged
      refine Svc.meets_act.mpr
        ⟨⟨makeTxn token, ?_, rfl, hCharged⟩, fun _ => rfl⟩
      unfold owedCharge
      rw [hCharged]
      rfl

theorem pays_quoteTerms
    {quoteId : String}
    {Q : A2aTerms → Moves → Prop}
    (hOwed : owedCharge past = none)
    (hHeld : Held (quoteLock quoteId) past)
    (hDone :
      ∀ terms later, owedCharge later = none →
        PaysSeen later terms → Q terms later) :
    (quoteTerms input quoteId now).Meets (PayRule op) Q
      (fun _ later => owedCharge later = none) past := by
  simp only [quoteTerms, peerQuoteForInput, Svc.meets_bind,
    Svc.meets_orFail, Svc.meets_ensure, Svc.meets_pure,
    beq_iff_eq]
  refine ⟨trivial, fun found => ⟨?_, fun _ => hOwed⟩⟩
  rintro quote rfl
  refine ⟨fun _ => ⟨fun _ => ⟨fun hStatus => ?_,
    fun _ => hOwed⟩, fun _ => hOwed⟩, fun _ => hOwed⟩
  have hSeen :
      SeenQuote quoteId quote
        (⟨.quotes (.get quoteId), some quote⟩ :: past) :=
    .here hHeld
  unfold ensurePeerQuoteLive
  split
  · rw [Svc.meets_bind]
    exact Svc.meets_act.mpr
      ⟨⟨hOwed, .inr ⟨quote, hSeen, hStatus⟩⟩, fun _ => hOwed⟩
  · refine ⟨fun money _ => ⟨fun _ => ?_, fun _ => hOwed⟩,
      fun _ => hOwed⟩
    refine hDone _ _ hOwed ?_
    intro paid hPaid
    cases hPaid
    exact ⟨quoteId, hSeen, hStatus⟩

theorem pays_directTerms
    {Q : A2aTerms → Moves → Prop}
    (hOwed : owedCharge past = none)
    (hDone :
      ∀ terms : A2aTerms, terms.quote = none → Q terms past) :
    (directTerms input params).Meets (PayRule op) Q
      (fun _ later => owedCharge later = none) past := by
  simp only [directTerms, Svc.meets_bind, Svc.meets_orFail,
    Svc.meets_ensure, Svc.meets_pure]
  exact ⟨fun _ _ => ⟨fun _ _ => ⟨fun _ => ⟨fun _ => hDone _ rfl,
    fun _ => hOwed⟩, fun _ => hOwed⟩, fun _ => hOwed⟩,
    fun _ => hOwed⟩

theorem pays_payTerms
    (hOwed : owedCharge past = none)
    (hHeld :
      ∀ quoteId, params.peerQuoteId = some quoteId →
        Held (quoteLock quoteId) past) :
    (payTerms input mandate params).Meets (PayRule op)
      (fun _ later => owedCharge later = none)
      (fun _ later => owedCharge later = none) past := by
  rw [payTerms, Svc.meets_bind]
  refine Svc.meets_act.mpr ⟨trivial, fun now => ?_⟩
  cases hId : params.peerQuoteId with
  | none =>
      dsimp only
      rw [Svc.meets_bind]
      refine pays_directTerms hOwed fun terms hNone => ?_
      refine pays_payWith hOwed ?_ (fun _ => rfl)
        (fun _ => lookup_a2aRefs params terms)
      intro quote hQuote
      rw [hNone] at hQuote
      cases hQuote
  | some quoteId =>
      dsimp only
      rw [Svc.meets_bind]
      refine pays_quoteTerms hOwed
        ((hHeld quoteId hId).cons rfl)
        fun terms later hLater hSeen => ?_
      exact pays_payWith hLater hSeen (fun _ => rfl)
        (fun _ => lookup_a2aRefs params terms)

theorem pays_doA2aPay
    (hIdle : Idle past) :
    (doA2aPay svc input mandate).Meets (PayRule op)
      (fun _ _ => True) (fun _ _ => True) past := by
  rw [doA2aPay, Svc.meets_bind, Svc.meets_ofExcept]
  refine ⟨fun params _ => ?_, fun _ _ => trivial⟩
  rw [Svc.meets_bind, Svc.meets_ensure]
  refine ⟨fun _ => ?_, fun _ => trivial⟩
  have hPayment :
      MeetsIdle (ensureA2aPayment svc params) := by
    unfold ensureA2aPayment
    dsimp only
    split
    · exact Svc.Only.ofExcept _ _
    · exact Svc.Only.ensure _ _
  rw [Svc.meets_bind]
  refine Svc.Meets.mono (pays_of_idle (hPayment past)) ?_
    (fun _ _ _ => trivial)
  rintro _ checked ⟨-, hAfter⟩
  have hChecked : Idle checked := hAfter.idle hIdle
  cases hId : params.peerQuoteId with
  | none =>
      refine Svc.Meets.mono
        (pays_payTerms hChecked.owedCharge ?_)
        (fun _ _ _ => trivial) (fun _ _ _ => trivial)
      intro quoteId hQuote
      rw [hId] at hQuote
      cases hQuote
  | some quoteId =>
      refine Svc.meets_withLock.mpr ⟨trivial, ?_⟩
      refine Svc.Meets.mono
        (pays_payTerms hChecked.owedCharge ?_)
        (fun _ _ hOwed => ⟨hOwed, trivial⟩)
        (fun _ _ hOwed => ⟨hOwed, trivial⟩)
      intro other hOther
      rw [hId] at hOther
      cases hOther
      exact (Clear.lock hChecked).held

theorem pays_handleIntent
    (hIntent :
      Intent.parse input.envelope.intent = .ok .a2aPay) :
    (handleIntent svc input).Meets (PayRule op)
      (fun _ _ => True) (fun _ _ => True) [] := by
  have hStart : Idle [] := fun _ hMove => by cases hMove
  rw [handleIntent, Svc.meets_bind, Svc.meets_ensure]
  refine ⟨fun _ => ?_, fun _ => trivial⟩
  rw [Svc.meets_bind, Svc.meets_ofExcept]
  refine ⟨fun intent hParsed => ?_, fun _ _ => trivial⟩
  rw [hIntent] at hParsed
  cases hParsed
  rw [Svc.meets_bind]
  refine Svc.Meets.mono (pays_of_idle meets_mandateFor) ?_
    (fun _ _ _ => trivial)
  rintro mandate evaluated ⟨-, hEvaluated⟩
  rw [Svc.meets_bind]
  refine Svc.Meets.mono
    (pays_of_idle (meetsIdle_ensureSubject mandate _)) ?_
    (fun _ _ _ => trivial)
  rintro _ checked ⟨-, hChecked⟩
  rw [Svc.meets_bind]
  refine Svc.Meets.mono
    (pays_doA2aPay (hChecked.idle (hEvaluated.idle hStart))) ?_
    (fun _ _ _ => trivial)
  intro outcome done _
  exact Svc.Meets.mono (pays_of_idle meets_respond)
    (fun _ _ _ => trivial) (fun _ _ _ => trivial)

end Payments

end Protocol

end IcpHandler

------------------------------------------------------------
-- Passes
------------------------------------------------------------

namespace IcpHandler

namespace Protocol

open Model Service Concurrency

section Passes

variable {svc : IcpService}
variable {past : Moves}
variable {now : DateTime}

/- All a pass writes is that rows have expired. -/
def SweepKind (now : DateTime) (effect : Eff) : Prop :=
  effect.isQuiet = true ∨
    (∃ id, effect = .txns (.update id (.expire now))) ∨
    ∃ id, effect = .quotes (.update id (.expire now))

/- Webhooks are of the kind of a pass. -/
theorem sweeps_webhook
    {event : Event}
    {tenantId : String} :
    (enqueueWebhook svc event tenantId).Meets
      (fun _ effect => SweepKind now effect)
      (fun _ _ => True) (fun _ _ => True) past :=
  Svc.Meets.mono
    (Svc.Meets.of_kind (meets_webhookRule event tenantId)
      fun _ _ hMove => .inl (isIdle_iff.mp hMove.1).1)
    (fun _ _ _ => trivial) (fun _ _ _ => trivial)

theorem sweeps_expireTransactions
    (due : List Transaction) :
    (expireTransactions svc now due).Meets
      (fun _ effect => SweepKind now effect)
      (fun _ _ => True) (fun _ _ => True) past := by
  induction due generalizing past with
  | nil => exact trivial
  | cons txn due ih =>
      rw [expireTransactions, Svc.meets_bind, expireTransaction,
        Svc.meets_bind]
      refine Svc.meets_act.mpr
        ⟨.inr (.inl ⟨txn.id, rfl⟩), fun _ => ?_⟩
      rw [Svc.meets_bind]
      refine Svc.meets_act.mpr ⟨.inl rfl, fun token => ?_⟩
      rw [Svc.meets_bind]
      refine Svc.Meets.mono sweeps_webhook ?_
        (fun _ _ _ => trivial)
      exact fun _ _ _ =>
        Svc.meets_act.mpr ⟨.inl rfl, fun _ => ih⟩

theorem sweeps_expirePeerQuotes
    (due : List PeerQuote) :
    (expirePeerQuotes svc now due).Meets
      (fun _ effect => SweepKind now effect)
      (fun _ _ => True) (fun _ _ => True) past := by
  induction due generalizing past with
  | nil => exact trivial
  | cons quote due ih =>
      rw [expirePeerQuotes, Svc.meets_bind, expirePeerQuote,
        Svc.meets_bind]
      refine Svc.meets_act.mpr
        ⟨.inr (.inr ⟨quote.id, rfl⟩), fun _ => ?_⟩
      rw [Svc.meets_bind]
      refine Svc.meets_act.mpr ⟨.inl rfl, fun token => ?_⟩
      rw [Svc.meets_bind]
      refine Svc.Meets.mono sweeps_webhook ?_
        (fun _ _ _ => trivial)
      exact fun _ _ _ =>
        Svc.meets_act.mpr ⟨.inl rfl, fun _ => ih⟩

theorem sweeps_tickExpiries :
    (tickExpiries svc now).Meets
      (fun _ effect => SweepKind now effect)
      (fun _ _ => True) (fun _ _ => True) past := by
  rw [tickExpiries, Svc.meets_bind]
  refine Svc.meets_act.mpr ⟨.inl rfl, fun dueTxns => ?_⟩
  rw [Svc.meets_bind]
  refine Svc.Meets.mono (sweeps_expireTransactions dueTxns) ?_
    (fun _ _ _ => trivial)
  intro _ swept _
  rw [Svc.meets_bind]
  refine Svc.meets_act.mpr ⟨.inl rfl, fun dueQuotes => ?_⟩
  rw [Svc.meets_bind]
  exact Svc.Meets.mono (sweeps_expirePeerQuotes dueQuotes)
    (fun _ _ _ => trivial) (fun _ _ _ => trivial)

/- A pass owes no charge, so it follows the rule. -/
theorem pays_tickExpiries :
    (tickExpiries svc now).run.Traced
      (PayRule (.tickExpiries now))
      (fun _ later => owedCharge later = none) [] := by
  refine Prog.Traced.mono
    (Prog.Traced.of_kind_keeping
      (fun moves => owedCharge moves = none)
      sweeps_tickExpiries ?_ ?_ rfl)
    (fun _ _ hPost => hPost.2)
  · rintro moves effect hOwed
      (hQuiet | ⟨id, rfl⟩ | ⟨id, rfl⟩)
    · exact payRule_of_isQuiet hQuiet
    · exact rfl
    · exact ⟨hOwed, .inl rfl⟩
  · rintro moves ⟨effect, answer⟩ hOwed
      (hQuiet | ⟨id, hEffect⟩ | ⟨id, hEffect⟩)
    · exact (owedCharge_quiet hQuiet).trans hOwed
    · cases hEffect
      exact hOwed
    · cases hEffect
      exact hOwed

/- Payments and passes follow the rule of payments. -/
theorem pay_traced
    {op : Op}
    (hOp : PaysOrSweeps op) :
    (op.prog svc).Traced (PayRule op) (fun _ _ => True) [] := by
  rcases hOp with ⟨input, rfl, hIntent⟩ | ⟨now, rfl⟩
  · rw [Op.prog, Prog.Traced.bind_iff]
    exact Prog.Traced.mono (pays_handleIntent hIntent)
      (fun _ _ _ => trivial)
  · rw [Op.prog, Prog.Traced.bind_iff]
    exact Prog.Traced.mono pays_tickExpiries
      (fun _ _ _ => trivial)

end Passes

end Protocol

end IcpHandler
