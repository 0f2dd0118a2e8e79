import IcpHandler.Protocol.Helpers

/-
  The two background ticks follow the rule, and an expiry pass
  announces what it has expired.

  Main declarations:
    * `meets_tickSubscriptions`
    * `expiredIds`, `announcedIds`
    * `meets_tickExpiries`
-/

------------------------------------------------------------
-- Automatic Renewal
------------------------------------------------------------

namespace IcpHandler

namespace Protocol

open Model Service Concurrency

section Renewals

variable {svc : IcpService}
variable {past : Moves}
variable {tickNow now : DateTime}

theorem ListedSub.mono
    {sub : Subscription}
    {later : Moves}
    (hListed : ListedSub sub past)
    (hKept : ∀ move ∈ past, move ∈ later) :
    ListedSub sub later := by
  rcases hListed with ⟨listed, due, hSub, hMem⟩
  exact ⟨listed, due, hSub, hKept _ hMem⟩

/-
  Between two subscriptions, a pass owes no row to a charge
  and remembers its listing.
-/
structure BetweenSubs
    (due : List Subscription)
    (past : Moves) : Prop where
  settled : pendingCharge past = none
  listed : ∀ sub ∈ due, ListedSub sub past

/- Webhooks in the middle of a block. -/
theorem meets_webhook
    {event : Event}
    {tenantId : String}
    {Q : Unit → Moves → Prop}
    {X : Halt → Moves → Prop}
    {op : Op}
    (hDone :
      ∀ later, AfterQuiet past later → Q () later) :
    (enqueueWebhook svc event tenantId).Meets (Rule svc op) Q X
      past := by
  refine Svc.Meets.mono (meets_enqueueWebhook event tenantId)
    ?_ (fun _ _ hFalse => hFalse.elim)
  rintro _ later ⟨recent, rfl, hIdle, -⟩
  exact hDone _ (AfterIdle.quiet ⟨recent, rfl, hIdle⟩)

theorem meets_schedulerCharge
    {sub : Subscription}
    {Q : Transaction × Option OrderSummary → Moves → Prop}
    {X : Halt → Moves → Prop}
    (hSettled : pendingCharge past = none)
    (hListed : ListedSub sub past)
    (hDone :
      ∀ charge txn later, AfterQuiet past later →
        Q charge
          (⟨.insertCharge txn ⟨sub.id, sub.currentPeriodEnd⟩,
            ()⟩ :: later))
    (hRefused :
      ∀ later error, AfterQuiet past later →
        X (.error error) later) :
    (schedulerCharge svc sub).Meets
      (Rule svc (.tickSubscriptions tickNow)) Q X past := by
  rw [schedulerCharge, Svc.meets_bind]
  refine Svc.meets_act.mpr ⟨trivial, fun token => ?_⟩
  have hDrawn :
      AfterQuiet past (⟨.uuid, token⟩ :: past) :=
    AfterQuiet.refl.cons rfl
  rw [Svc.meets_bind, Svc.meets_ensure]
  refine ⟨fun _ => ?_, fun _ => hRefused _ _ hDrawn⟩
  refine meets_runSubscriptionCharge ?_ ?_ ?_ ?_
  · rw [hDrawn.pendingCharge_eq]
    exact hSettled
  · intro later hLater
    have hKept : ∀ move ∈ past, move ∈ later :=
      fun _ hMove => hLater.mem (hDrawn.mem hMove)
    exact ⟨sub, hListed.mono hKept, rfl, rfl⟩
  · exact fun charge txn later hLater =>
      hDone charge txn later (hDrawn.trans hLater)
  · exact fun later error hLater _ _ =>
      hRefused later error (hDrawn.trans hLater)

/- The write after a charge, and what follows it. -/
theorem meets_recordRenewed
    {sub : Subscription}
    {charge : Transaction × Option OrderSummary}
    {Q : Unit → Moves → Prop}
    {X : Halt → Moves → Prop}
    (hPending :
      pendingCharge past = some ⟨sub.id, sub.currentPeriodEnd⟩)
    (hListed : ListedSub sub past)
    (hDone :
      ∀ later, pendingCharge later = none →
        (∀ move ∈ past, move ∈ later) → Q () later) :
    (recordRenewed svc sub charge now).Meets
      (Rule svc (.tickSubscriptions tickNow)) Q X past := by
  rw [recordRenewed]
  dsimp only
  rw [Svc.meets_bind]
  refine Svc.meets_act.mpr ⟨⟨tickNow, sub, rfl, hListed, rfl,
    hPending, rfl, rfl, rfl⟩, fun found => ?_⟩
  rw [Svc.meets_bind]
  refine Svc.meets_act.mpr ⟨trivial, fun token => ?_⟩
  rw [Svc.meets_bind]
  refine meets_webhook fun later hLater => ?_
  refine Svc.meets_act.mpr ⟨trivial, fun _ => ?_⟩
  have hSettled : pendingCharge later = none := by
    rw [hLater.pendingCharge_eq]
    rfl
  refine hDone _ hSettled fun move hMove => ?_
  exact List.mem_cons_of_mem _ (hLater.mem
    (List.mem_cons_of_mem _ (List.mem_cons_of_mem _ hMove)))

/- The write after a failure, and what follows it. -/
theorem meets_recordFailed
    {sub : Subscription}
    {err : ApiError}
    {Q : Bool → Moves → Prop}
    {X : Halt → Moves → Prop}
    (hSettled : pendingCharge past = none)
    (hListed : ListedSub sub past)
    (hDone :
      ∀ pastDue later, pendingCharge later = none →
        (∀ move ∈ past, move ∈ later) → Q pastDue later) :
    (recordFailed svc sub err now).Meets
      (Rule svc (.tickSubscriptions tickNow)) Q X past := by
  rw [recordFailed]
  dsimp only
  rw [Svc.meets_bind]
  refine Svc.meets_act.mpr ⟨⟨tickNow, sub, rfl, hListed, rfl,
    hSettled⟩, fun found => ?_⟩
  split
  · rw [Svc.meets_bind]
    refine Svc.meets_act.mpr ⟨trivial, fun token => ?_⟩
    rw [Svc.meets_bind]
    refine meets_webhook fun later hLater => ?_
    rw [Svc.meets_bind]
    refine Svc.meets_act.mpr ⟨trivial, fun _ => ?_⟩
    have hKept : pendingCharge later = none := by
      rw [hLater.pendingCharge_eq]
      rfl
    refine hDone true _ hKept fun move hMove => ?_
    exact List.mem_cons_of_mem _ (hLater.mem
      (List.mem_cons_of_mem _ (List.mem_cons_of_mem _ hMove)))
  · exact hDone false _ rfl fun move hMove =>
      List.mem_cons_of_mem _ hMove

/- The loop over the due subscriptions, by induction. -/
theorem meets_renewEach
    {due : List Subscription}
    {report : SchedulerTickReport}
    (hBetween : BetweenSubs due past) :
    (renewEach svc now due report).Meets
      (Rule svc (.tickSubscriptions tickNow))
      (fun _ later => pendingCharge later = none)
      (fun _ _ => False) past := by
  induction due generalizing report past with
  | nil => exact hBetween.settled
  | cons sub due ih =>
      have hSub := hBetween.listed sub List.mem_cons_self
      have hDue :
          ∀ {later : Moves}, pendingCharge later = none →
            (∀ move ∈ past, move ∈ later) →
            BetweenSubs due later :=
        fun hSettled hKept => ⟨hSettled, fun other hOther =>
          (hBetween.listed other
            (List.mem_cons_of_mem _ hOther)).mono hKept⟩
      rw [renewEach, Svc.meets_bind, Svc.meets_attempt]
      refine meets_schedulerCharge hBetween.settled hSub ?_ ?_
      · intro charge txn charged hCharged
        rw [Svc.meets_bind]
        refine meets_recordRenewed rfl (hSub.mono ?_) ?_
        · exact fun move hMove =>
            List.mem_cons_of_mem _ (hCharged.mem hMove)
        · intro later hSettled hKept
          refine ih (hDue hSettled fun move hMove => ?_)
          exact hKept _
            (List.mem_cons_of_mem _ (hCharged.mem hMove))
      · intro refused error hRefused
        have hSettled : pendingCharge refused = none := by
          rw [hRefused.pendingCharge_eq]
          exact hBetween.settled
        dsimp only
        rw [Svc.meets_bind]
        refine meets_recordFailed hSettled (hSub.mono ?_) ?_
        · exact fun move hMove => hRefused.mem hMove
        · intro pastDue later hLater hKept
          refine ih (hDue hLater fun move hMove => ?_)
          exact hKept _ (hRefused.mem hMove)

theorem meets_tickSubscriptions
    (hSettled : pendingCharge past = none) :
    (tickSubscriptions svc now).Meets
      (Rule svc (.tickSubscriptions now))
      (fun _ later => pendingCharge later = none)
      (fun _ _ => False) past := by
  rw [tickSubscriptions, Svc.meets_bind]
  refine Svc.meets_act.mpr ⟨trivial, fun due => ?_⟩
  rw [Svc.meets_bind]
  refine Svc.meets_act.mpr ⟨trivial, fun scanned => ?_⟩
  refine meets_renewEach ⟨hSettled, fun sub hSub => ?_⟩
  exact ⟨now, due, hSub,
    List.mem_cons_of_mem _ List.mem_cons_self⟩

end Renewals

end Protocol

end IcpHandler

------------------------------------------------------------
-- Expiry
------------------------------------------------------------

namespace IcpHandler

namespace Protocol

open Model Service Concurrency

/- The transactions a pass has expired, most recent first. -/
def expiredIds (past : Moves) : List String :=
  past.filterMap fun move =>
    match move.effect with
    | .txns (.update id (.expire _)) => some id
    | _ => none

/- The transactions announced as expired. -/
def announcedIds (past : Moves) : List String :=
  past.filterMap fun move =>
    match move.effect with
    | .emit event =>
        if event.type = "transaction.expired" then
          event.transactionId
        else none
    | _ => none

section Expiries

variable {svc : IcpService}
variable {past : Moves}
variable {now : DateTime}

/- Moves that neither write rows nor announce change none. -/
theorem expiredIds_quiet
    {recent : Moves}
    (hQuiet :
      ∀ move ∈ recent, move.effect.touchesTxns = false) :
    expiredIds (recent ++ past) = expiredIds past := by
  have hNone : expiredIds recent = [] := by
    refine List.filterMap_eq_nil_iff.mpr ?_
    rintro ⟨effect, answer⟩ hMove
    have hTouch := hQuiet _ hMove
    split
    · rename_i hEffect
      have hEq : effect = _ := hEffect
      subst hEq
      cases hTouch
    · rfl
  rw [expiredIds, List.filterMap_append]
  exact congrArg (· ++ expiredIds past) hNone

theorem announcedIds_silent
    {recent : Moves}
    (hSilent :
      ∀ move ∈ recent, move.effect.announces = false) :
    announcedIds (recent ++ past) = announcedIds past := by
  have hNone : announcedIds recent = [] := by
    refine List.filterMap_eq_nil_iff.mpr ?_
    rintro ⟨effect, answer⟩ hMove
    have hAnnounce := hSilent _ hMove
    split
    · rename_i hEffect
      have hEq : effect = _ := hEffect
      subst hEq
      cases hAnnounce
    · rfl
  rw [announcedIds, List.filterMap_append]
  exact congrArg (· ++ announcedIds past) hNone

/-
  A pass between two transactions: it has expired those it has
  passed and announced every one of them, and written nothing
  else since its listing.
-/
structure BetweenTxns
    (now : DateTime)
    (passed rest : List Transaction)
    (past : Moves) : Prop where
  settled : pendingCharge past = none
  expired :
    expiredIds past = (passed.map Transaction.id).reverse
  announced :
    announcedIds past = (passed.map Transaction.id).reverse
  listed :
    ∃ recent older,
      past = recent ++
        ⟨.txns (.listDue now), passed ++ rest⟩ :: older ∧
      ∀ move ∈ recent, move.effect.touchesTxns = true →
        ∃ earlier ∈ passed,
          move.effect =
            .txns (.update earlier.id (.expire now))

/- One transaction's turn. -/
theorem meets_expireTransaction
    {passed rest : List Transaction}
    {txn : Transaction}
    {Q : Unit → Moves → Prop}
    (hBetween : BetweenTxns now passed (txn :: rest) past)
    (hDone :
      ∀ later, BetweenTxns now (passed ++ [txn]) rest later →
        Q () later) :
    (expireTransaction svc txn now).Meets
      (Rule svc (.tickExpiries now)) Q (fun _ _ => False)
      past := by
  rcases hBetween.listed with
    ⟨recent, older, hPast, hTouched⟩
  rw [expireTransaction, Svc.meets_bind]
  refine Svc.meets_act.mpr ⟨⟨rfl, recent, older, passed, txn,
    rest, hPast, rfl, hTouched⟩, fun found => ?_⟩
  rw [Svc.meets_bind]
  refine Svc.meets_act.mpr ⟨trivial, fun token => ?_⟩
  dsimp only
  rw [Svc.meets_bind]
  refine Svc.Meets.mono (meets_enqueueWebhook _ _) ?_
    (fun _ _ hFalse => hFalse)
  rintro _ later ⟨webhooks, rfl, hIdle, hSilent⟩
  refine Svc.meets_act.mpr ⟨trivial, fun _ => hDone _ ?_⟩
  have hQuiet :
      ∀ move ∈ webhooks, move.effect.isQuiet = true :=
    fun move hMove => (isIdle_iff.mp (hIdle move hMove)).1
  have hWebhooks :
      ∀ move ∈ webhooks, move.effect.touchesTxns = false :=
    fun move hMove => (isQuiet_iff.mp (hQuiet move hMove)).1
  refine ⟨?_, ?_, ?_, ?_⟩
  · have hAfter :
        AfterQuiet
          (⟨.uuid, token⟩ ::
            ⟨.txns (.update txn.id (.expire now)), found⟩ ::
              past)
          (webhooks ++ ⟨.uuid, token⟩ ::
            ⟨.txns (.update txn.id (.expire now)), found⟩ ::
              past) := ⟨webhooks, rfl, hQuiet⟩
    exact hAfter.pendingCharge_eq.trans hBetween.settled
  · have hTurn :
        expiredIds (webhooks ++ ⟨.uuid, token⟩ ::
          ⟨.txns (.update txn.id (.expire now)), found⟩ ::
            past) = txn.id :: expiredIds past :=
      expiredIds_quiet hWebhooks
    have hEvent :
        expiredIds
          (⟨.emit (txnExpiredEvent svc txn token now), ()⟩ ::
            (webhooks ++ ⟨.uuid, token⟩ ::
              ⟨.txns (.update txn.id (.expire now)), found⟩ ::
                past)) =
          expiredIds (webhooks ++ ⟨.uuid, token⟩ ::
            ⟨.txns (.update txn.id (.expire now)), found⟩ ::
              past) := rfl
    rw [hEvent, hTurn, hBetween.expired]
    simp
  · have hTurn :
        announcedIds (webhooks ++ ⟨.uuid, token⟩ ::
          ⟨.txns (.update txn.id (.expire now)), found⟩ ::
            past) = announcedIds past :=
      announcedIds_silent hSilent
    have hEvent :
        announcedIds
          (⟨.emit (txnExpiredEvent svc txn token now), ()⟩ ::
            (webhooks ++ ⟨.uuid, token⟩ ::
              ⟨.txns (.update txn.id (.expire now)), found⟩ ::
                past)) =
          txn.id :: announcedIds (webhooks ++
            ⟨.uuid, token⟩ ::
              ⟨.txns (.update txn.id (.expire now)), found⟩ ::
                past) := rfl
    rw [hEvent, hTurn, hBetween.announced]
    simp
  · refine ⟨⟨.emit (txnExpiredEvent svc txn token now), ()⟩ ::
      (webhooks ++ ⟨.uuid, token⟩ ::
        ⟨.txns (.update txn.id (.expire now)), found⟩ ::
          recent), older, ?_, ?_⟩
    · simp [hPast]
    · intro move hMove hTouch
      simp only [List.mem_cons, List.mem_append] at hMove
      rcases hMove with rfl | hMove | rfl | rfl | hMove
      · cases hTouch
      · rw [hWebhooks move hMove] at hTouch
        cases hTouch
      · cases hTouch
      · exact ⟨txn, by simp, rfl⟩
      · rcases hTouched move hMove hTouch with
          ⟨earlier, hEarlier, hEffect⟩
        exact ⟨earlier, List.mem_append_left _ hEarlier,
          hEffect⟩

/- The loop over the due transactions, by induction. -/
theorem meets_expireTransactions
    {passed rest : List Transaction}
    {Q : Unit → Moves → Prop}
    (hBetween : BetweenTxns now passed rest past)
    (hDone :
      ∀ later, BetweenTxns now (passed ++ rest) [] later →
        Q () later) :
    (expireTransactions svc now rest).Meets
      (Rule svc (.tickExpiries now)) Q (fun _ _ => False)
      past := by
  induction rest generalizing passed past with
  | nil =>
      rw [List.append_nil] at hDone
      exact hDone past hBetween
  | cons txn rest ih =>
      rw [expireTransactions, Svc.meets_bind]
      refine meets_expireTransaction hBetween
        fun later hLater => ih hLater ?_
      rw [List.append_assoc]
      exact hDone

/- What the sweep over the peer quotes leaves as it was. -/
structure KeepsTxns
    (past later : Moves) : Prop where
  settled : pendingCharge later = pendingCharge past
  expired : expiredIds later = expiredIds past
  announced : announcedIds later = announcedIds past
  mem : ∀ move ∈ past, move ∈ later

/- One peer quote's turn. -/
theorem meets_expirePeerQuote
    {quote : PeerQuote}
    {due : List PeerQuote}
    {Q : Unit → Moves → Prop}
    (hListed :
      (⟨.quotes (.listDue now), due⟩ : Move Eff.Res) ∈ past)
    (hDue : quote ∈ due)
    (hDone : ∀ later, KeepsTxns past later → Q () later) :
    (expirePeerQuote svc quote now).Meets
      (Rule svc (.tickExpiries now)) Q (fun _ _ => False)
      past := by
  rw [expirePeerQuote, Svc.meets_bind]
  refine Svc.meets_act.mpr ⟨.inr ⟨due, quote, rfl, hDue, rfl,
    hListed⟩, fun found => ?_⟩
  rw [Svc.meets_bind]
  refine Svc.meets_act.mpr ⟨trivial, fun token => ?_⟩
  dsimp only
  rw [Svc.meets_bind]
  refine Svc.Meets.mono (meets_enqueueWebhook _ _) ?_
    (fun _ _ hFalse => hFalse)
  rintro _ later ⟨webhooks, rfl, hIdle, hSilent⟩
  refine Svc.meets_act.mpr ⟨trivial, fun _ => hDone _ ?_⟩
  have hQuiet :
      ∀ move ∈ webhooks, move.effect.isQuiet = true :=
    fun move hMove => (isIdle_iff.mp (hIdle move hMove)).1
  have hWebhooks :
      ∀ move ∈ webhooks, move.effect.touchesTxns = false :=
    fun move hMove => (isQuiet_iff.mp (hQuiet move hMove)).1
  have hAfter :
      AfterQuiet
        (⟨.uuid, token⟩ ::
          ⟨.quotes (.update quote.id (.expire now)), found⟩ ::
            past)
        (webhooks ++ ⟨.uuid, token⟩ ::
          ⟨.quotes (.update quote.id (.expire now)), found⟩ ::
            past) := ⟨webhooks, rfl, hQuiet⟩
  refine ⟨?_, ?_, ?_, ?_⟩
  · exact hAfter.pendingCharge_eq
  · exact expiredIds_quiet hWebhooks
  · exact announcedIds_silent hSilent
  · intro move hMove
    exact List.mem_cons_of_mem _ (hAfter.mem
      (List.mem_cons_of_mem _ (List.mem_cons_of_mem _ hMove)))

/- The loop over the due peer quotes, by induction. -/
theorem meets_expirePeerQuotes
    {rest due : List PeerQuote}
    {Q : Unit → Moves → Prop}
    (hListed :
      (⟨.quotes (.listDue now), due⟩ : Move Eff.Res) ∈ past)
    (hDue : ∀ quote ∈ rest, quote ∈ due)
    (hDone : ∀ later, KeepsTxns past later → Q () later) :
    (expirePeerQuotes svc now rest).Meets
      (Rule svc (.tickExpiries now)) Q (fun _ _ => False)
      past := by
  induction rest generalizing past with
  | nil => exact hDone past ⟨rfl, rfl, rfl, fun _ hMove => hMove⟩
  | cons quote rest ih =>
      rw [expirePeerQuotes, Svc.meets_bind]
      refine meets_expirePeerQuote hListed
        (hDue quote List.mem_cons_self) fun later hTurn => ?_
      refine ih (hTurn.mem _ hListed)
        (fun other hOther =>
          hDue other (List.mem_cons_of_mem _ hOther)) ?_
      intro latest hLatest
      exact hDone latest
        ⟨hLatest.settled.trans hTurn.settled,
          hLatest.expired.trans hTurn.expired,
          hLatest.announced.trans hTurn.announced,
          fun move hMove =>
            hLatest.mem move (hTurn.mem move hMove)⟩

/-
  A finished pass has expired exactly what it listed, and
  announced each of these once, in the order of the listing.
-/
structure Swept
    (now : DateTime)
    (past : Moves) : Prop where
  settled : pendingCharge past = none
  expired :
    ∃ due : List Transaction,
      (⟨.txns (.listDue now), due⟩ : Move Eff.Res) ∈ past ∧
        expiredIds past = (due.map Transaction.id).reverse
  announced : announcedIds past = expiredIds past

theorem meets_tickExpiries :
    (tickExpiries svc now).Meets (Rule svc (.tickExpiries now))
      (fun _ later => Swept now later) (fun _ _ => False)
      [] := by
  rw [tickExpiries, Svc.meets_bind]
  refine Svc.meets_act.mpr ⟨trivial, fun due => ?_⟩
  have hStart :
      BetweenTxns now [] due
        [⟨.txns (.listDue now), due⟩] :=
    ⟨rfl, rfl, rfl, [], [], rfl, by simp⟩
  rw [Svc.meets_bind]
  refine meets_expireTransactions hStart fun later hLater => ?_
  rw [List.nil_append] at hLater
  rw [Svc.meets_bind]
  refine Svc.meets_act.mpr ⟨trivial, fun dueQuotes => ?_⟩
  rw [Svc.meets_bind]
  refine meets_expirePeerQuotes List.mem_cons_self
    (fun _ hQuote => hQuote) fun latest hLatest => ?_
  have hListing :
      (⟨.txns (.listDue now), due⟩ : Move Eff.Res) ∈ later := by
    rcases hLater.listed with ⟨recent, older, hPast, -⟩
    rw [List.append_nil] at hPast
    rw [hPast]
    simp
  refine ⟨?_, ⟨due, ?_, ?_⟩, ?_⟩
  · exact hLatest.settled.trans hLater.settled
  · exact hLatest.mem _ (List.mem_cons_of_mem _ hListing)
  · exact hLatest.expired.trans hLater.expired
  · rw [hLatest.announced, hLatest.expired]
    exact hLater.announced.trans hLater.expired.symm

end Expiries

end Protocol

end IcpHandler
