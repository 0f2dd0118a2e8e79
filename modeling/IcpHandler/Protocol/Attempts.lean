import IcpHandler.Data.Retries
import IcpHandler.Protocol.SubscriptionTurns

/-
  Ticks of the scheduler that run alone, told by what they try
  on one subscription: a tick tries to charge it once if it is
  due and not at all otherwise, and it always comes to an end.

  Main declarations:
    * `outcomeOf`, `triesOf`
    * `Attempts`, `attemptsOf`, `attemptsView`
    * `confined_schedulerCharge`
    * `Tried`, `does_attempt`, `does_passed`
    * `Attempted`, `does_attempts`
-/

------------------------------------------------------------
-- What Is Tried on a Subscription
------------------------------------------------------------

namespace IcpHandler

namespace Protocol

open Model Service Concurrency Data

/-
  What a tick writes down about a charge it has tried: that it
  succeeded, or that it failed.
-/
def outcomeOf (id : String) : Eff → Option Bool
  | .subs (.update key (.autoRenew _ _ _ _ _)) =>
      if key = id then some true else none
  | .subs (.update key (.chargeFailed _ _ _ _)) =>
      if key = id then some false else none
  | _ => none

/- The charges that were tried, most recent first. -/
def triesOf (id : String) (past : Past) : Tries :=
  past.filterMap fun o =>
    (outcomeOf id o.effect).map (o.thread, ·)

/- The row of a subscription, and what was tried on it. -/
structure Attempts where
  row : Option Subscription
  tries : Tries

def attemptsOf (id : String) (h : Log) : Attempts where
  row := h.world.subscriptions.get id
  tries := triesOf id h.past

/- The effect may write the row. -/
def writesSub (id : String) : Eff → Bool
  | .subs (.insert row) => row.id == id
  | .subs (.update key _) => key == id
  | _ => false

def OffRow (id : String) (effect : Eff) : Prop :=
  writesSub id effect = false

theorem outcomeOf_offRow
    {id : String}
    {effect : Eff}
    (hOff : OffRow id effect) :
    outcomeOf id effect = none := by
  unfold outcomeOf
  split
  · rename_i key _ _ _ _ _
    exact if_neg (ne_of_beq_false hOff)
  · rename_i key _ _ _ _
    exact if_neg (ne_of_beq_false hOff)
  · rfl

theorem offRow_of_idle
    {id : String}
    {effect : Eff}
    (hIdle : effect.isIdle = true) :
    OffRow id effect := by
  cases effect with
  | subs op =>
      cases op with
      | insert row => cases hIdle
      | update key patch => cases hIdle
      | _ => rfl
  | _ => rfl

section Makes

variable {rfc3339 : Rfc3339} {fits : Choice → Prop}
variable {id : String} {h : Log} {o : Happening}

theorem attemptsOf_push
    (hMakes : (machine rfc3339).Makes fits h o)
    (hOff : OffRow id o.effect) :
    attemptsOf id (h.push o) = attemptsOf id h := by
  obtain ⟨hBefore, choice, -, hExec⟩ := hMakes
  have hExecutes : Executes rfc3339 o := by
    refine ⟨choice, ?_⟩
    rw [hBefore]
    exact hExec
  have hRow :
      o.after.subscriptions.get id =
        h.world.subscriptions.get id := by
    rw [← hBefore]
    cases hExecutes.subChange id with
    | kept hKept => exact hKept
    | inserted row hEffect hId hAfter =>
        rw [hEffect] at hOff
        simp [OffRow, writesSub, hId] at hOff
    | patched patch row hMove hOld hAfter =>
        rw [show o.effect = .subs (.update id patch) from
          congrArg Move.effect hMove] at hOff
        simp [OffRow, writesSub] at hOff
  have hTries :
      triesOf id (h.push o).past = triesOf id h.past := by
    refine List.filterMap_cons_none ?_
    rw [outcomeOf_offRow hOff, Option.map_none]
  rw [attemptsOf, attemptsOf, History.push_world, hRow, hTries]

/- The attempts, as a view of the log. -/
def attemptsView
    (rfc3339 : Rfc3339)
    (fits : Choice → Prop)
    (id : String) : View rfc3339 fits Attempts where
  of := attemptsOf id
  quiet := OffRow id
  keeps := attemptsOf_push

end Makes

end Protocol

end IcpHandler

------------------------------------------------------------
-- Blocks Off the Row
------------------------------------------------------------

namespace IcpHandler

namespace Protocol

open Model Service Concurrency

/- The block does not stop early. -/
def Never (_ : Halt) : Prop := False

section Blocks

variable {id : String}
variable {svc : IcpService} {sub : Subscription}
variable {charge : Transaction × Option OrderSummary}
variable {now : DateTime} {err : ApiError}

/- A charge stops with an error where it does not succeed. -/
theorem confined_subscriptionCharge
    {input : IntentInput}
    {buyer : Buyer}
    {shipTo : Option Address}
    {items : List RequestItem}
    {currency : String}
    {bills : Billing} :
    Svc.Confined (OffRow id) StopsInError
      (runSubscriptionCharge svc input buyer shipTo items
        currency bills) := by
  refine (Svc.Confined.ofExcept _ fun e => ⟨_, rfl⟩).bind
    fun priced => ?_
  refine Svc.Confined.bind (Svc.Confined.act rfl) fun read => ?_
  refine Svc.Confined.bind (Svc.Confined.act rfl) fun drawn => ?_
  refine Svc.Confined.bind
    (confined_persistOrderForTransaction
      (fun _ _ _ _ => rfl) _) fun summary => ?_
  exact Svc.Confined.bind (Svc.Confined.act rfl) fun _ =>
    Svc.Confined.pure _

theorem confined_schedulerCharge :
    Svc.Confined (OffRow id) StopsInError
      (schedulerCharge svc sub) := by
  refine Svc.Confined.bind (Svc.Confined.act rfl) fun token => ?_
  exact (Svc.Confined.ensure _ ⟨_, rfl⟩).bind fun _ =>
    confined_subscriptionCharge

theorem confined_webhook
    (event : Event)
    (tenantId : String) :
    Svc.Confined (OffRow id) Never
      (enqueueWebhook svc event tenantId) :=
  fun _ =>
    Svc.Meets.mono
      (Svc.Meets.of_kind (meets_webhookRule event tenantId)
        fun _ _ hMove => offRow_of_idle hMove.1)
      (fun _ _ _ => trivial) (fun _ _ hPost => hPost.1)

theorem confined_announce
    (event : String → Event)
    (tenantId : String) :
    Svc.Confined (OffRow id) Never
      (Svc.act .uuid >>= fun token =>
        enqueueWebhook svc (event token) tenantId >>= fun _ =>
          Svc.act (.emit (event token))) :=
  Svc.Confined.bind (Svc.Confined.act rfl) fun _ =>
    (confined_webhook _ tenantId).bind fun _ =>
      Svc.Confined.act rfl

theorem confined_recordRenewed (hOther : sub.id ≠ id) :
    Svc.Confined (OffRow id) Never
      (recordRenewed svc sub charge now) :=
  Svc.Confined.bind
    (Svc.Confined.act (beq_eq_false_iff_ne.mpr hOther))
    fun _ => confined_announce _ sub.tenantId

theorem confined_pastDue (updated : Option Subscription) :
    Svc.Confined (OffRow id) Never
      (match updated.filter (·.status == .pastDue) with
      | some s => do
          let token ← Svc.act .uuid
          let event := pastDueEvent svc sub s err token now
          enqueueWebhook svc event sub.tenantId
          Svc.act (.emit event)
          pure true
      | none => pure false) := by
  split
  · refine Svc.Confined.bind (Svc.Confined.act rfl)
      fun token => ?_
    refine (confined_webhook _ sub.tenantId).bind fun _ => ?_
    exact Svc.Confined.bind (Svc.Confined.act rfl) fun _ =>
      Svc.Confined.pure _
  · exact Svc.Confined.pure _

theorem confined_recordFailed (hOther : sub.id ≠ id) :
    Svc.Confined (OffRow id) Never
      (recordFailed svc sub err now) :=
  Svc.Confined.bind
    (Svc.Confined.act (beq_eq_false_iff_ne.mpr hOther))
    fun updated => confined_pastDue updated

end Blocks

end Protocol

end IcpHandler

------------------------------------------------------------
-- The Pass over Due Subscriptions
------------------------------------------------------------

namespace IcpHandler

namespace Protocol

open Model Service Concurrency Data

/-
  What a try makes of the row of a due subscription. It never
  renews one that is paid for by a peer.
-/
inductive Tried
    (svc : IcpService)
    (now : DateTime)
    (sub : Subscription) : Bool → Subscription → Prop where
  | renewed
      (txn : Transaction)
      (hAuto : isA2a sub.paymentInstrument = false) :
      Tried svc now sub true
        ((renewedPatch svc sub txn now).apply sub)
  | failed :
      Tried svc now sub false ((failedPatch svc sub now).apply sub)

section Pass

variable {rfc3339 : Rfc3339} {fits : Choice → Prop}
variable {thread : Nat} {id : String} {h : Log}
variable {svc : IcpService} {sub : Subscription}
variable {due : List Subscription}
variable {tries : Tries} {before : Attempts}
variable {now : DateTime} {err : ApiError}
variable {charge : Transaction × Option OrderSummary}
variable {report : SchedulerTickReport}

/- A tick writes down what it has tried. -/
theorem does_updateTried
    (hStored : ∀ choice, fits choice → choice.fault = false)
    {row : Subscription}
    {patch : SubPatch}
    {ok : Bool}
    (hBefore : attemptsOf id h = ⟨some row, tries⟩)
    (hTries :
      outcomeOf id (.subs (.update id patch)) = some ok)
    {Q : Option Subscription → Log → Prop}
    {X : Halt → Log → Prop}
    (hNext :
      ∀ later,
        attemptsOf id later =
            ⟨some (patch.apply row), (thread, ok) :: tries⟩ →
          Q (some (patch.apply row)) later) :
    (Svc.act (.subs (.update id patch))).Does rfc3339 fits
      thread Q X h := by
  rw [Svc.does_act]
  intro found after hMakes
  obtain ⟨choice, store, hFits, hStore, rfl⟩ :=
    makes_subs hMakes
  rw [hStored choice hFits] at hStore
  cases hStore
  have hRow : h.world.subscriptions.get id = some row :=
    congrArg Attempts.row hBefore
  have hEarlier : triesOf id h.past = tries :=
    congrArg Attempts.tries hBefore
  have hWritten :
      (h.world.subscriptions.update id patch).get id =
        (h.world.subscriptions.get id).map patch.apply :=
    (Data.KeyedStore.get_update _ _ _ _).trans (if_pos rfl)
  rw [hRow, Option.map_some] at hWritten
  rw [hRow, Option.map_some]
  refine hNext _ ?_
  rw [attemptsOf, Attempts.mk.injEq]
  refine ⟨hWritten, ?_⟩
  rw [← hEarlier]
  refine List.filterMap_cons_some ?_
  change (outcomeOf id (.subs (.update id patch))).map _ = _
  rw [hTries]
  rfl

theorem does_recordedRenewal
    (hStored : ∀ choice, fits choice → choice.fault = false)
    (hBefore : attemptsOf sub.id h = ⟨some sub, tries⟩)
    {Q : Unit → Log → Prop}
    {X : Halt → Log → Prop}
    (hNext :
      ∀ later,
        attemptsOf sub.id later =
            ⟨some ((renewedPatch svc sub charge.1 now).apply
              sub), (thread, true) :: tries⟩ →
          Q () later) :
    (recordRenewed svc sub charge now).Does rfc3339 fits thread
      Q X h := by
  have hTries :
      outcomeOf sub.id (.subs (.update sub.id
        (renewedPatch svc sub charge.1 now))) = some true :=
    if_pos rfl
  rw [recordRenewed]
  dsimp only
  rw [Svc.does_bind]
  refine does_updateTried hStored hBefore hTries
    fun updated hUpdated => ?_
  exact (attemptsView rfc3339 fits sub.id).does_confined hUpdated
    (confined_announce _ sub.tenantId)
    (fun _ later hLater => hNext later hLater)
    (fun _ _ hNo _ => hNo.elim)

theorem does_recordedFailure
    (hStored : ∀ choice, fits choice → choice.fault = false)
    (hBefore : attemptsOf sub.id h = ⟨some sub, tries⟩)
    {Q : Bool → Log → Prop}
    {X : Halt → Log → Prop}
    (hNext :
      ∀ pastDue later,
        attemptsOf sub.id later =
            ⟨some ((failedPatch svc sub now).apply sub),
              (thread, false) :: tries⟩ →
          Q pastDue later) :
    (recordFailed svc sub err now).Does rfc3339 fits thread Q X
      h := by
  have hTries :
      outcomeOf sub.id (.subs (.update sub.id
        (failedPatch svc sub now))) = some false :=
    if_pos rfl
  rw [recordFailed]
  dsimp only
  rw [Svc.does_bind]
  refine does_updateTried hStored hBefore hTries
    fun updated hUpdated => ?_
  exact (attemptsView rfc3339 fits sub.id).does_confined hUpdated
    (confined_pastDue _)
    (fun pastDue later hLater => hNext pastDue later hLater)
    (fun _ _ hNo _ => hNo.elim)

/- An error of a charge is caught, and a charge never panics. -/
theorem confined_attempt :
    Svc.Confined (OffRow id) Never
      (Svc.attempt (schedulerCharge svc sub)) := by
  intro past
  rw [Svc.meets_attempt]
  refine (confined_schedulerCharge past).mono
    (fun _ _ _ => trivial) ?_
  rintro halt later ⟨error, rfl⟩
  exact trivial

/- Which charges may succeed. -/
theorem does_attempt
    (hBefore : attemptsOf id h = before)
    {Q :
      Except ApiError (Transaction × Option OrderSummary) →
        Log → Prop}
    (hNext :
      ∀ result later,
        (∀ charge, result = .ok charge →
          isA2a sub.paymentInstrument = false) →
        attemptsOf id later = before → Q result later) :
    (Svc.attempt (schedulerCharge svc sub)).Does rfc3339 fits
      thread Q (fun _ _ => False) h := by
  let view := attemptsView rfc3339 fits id
  have hFailed :
      ∀ error later, attemptsOf id later = before →
        Q (.error error) later :=
    fun error later hLater =>
      hNext _ later (fun _ hOk => nomatch hOk) hLater
  rw [Svc.does_attempt, schedulerCharge, Svc.does_bind]
  refine view.does_act hBefore rfl fun token drawn hDrawn => ?_
  rw [Svc.does_bind, Svc.does_ensure]
  refine ⟨fun hOwn => ?_, fun _ => hFailed _ drawn hDrawn⟩
  refine view.does_confined hDrawn confined_subscriptionCharge
    ?_ ?_
  · intro charge later hLater
    refine hNext (.ok charge) later (fun _ _ => ?_) hLater
    exact Bool.not_eq_true' _ |>.mp hOwn
  · rintro halt later ⟨error, rfl⟩ hLater
    exact hFailed error later hLater

/- A pass over other subscriptions is off the row. -/
theorem confined_renewEach
    (hOthers : ∀ sub ∈ due, sub.id ≠ id) :
    Svc.Confined (OffRow id) Never
      (renewEach svc now due report) := by
  induction due generalizing report with
  | nil => exact Svc.Confined.pure _
  | cons sub due ih =>
      obtain ⟨hOther, hRest⟩ := List.forall_mem_cons.mp hOthers
      rw [renewEach]
      refine confined_attempt.bind fun result => ?_
      cases result with
      | ok charge =>
          exact (confined_recordRenewed hOther).bind
            fun _ => ih hRest
      | error err =>
          exact (confined_recordFailed hOther).bind
            fun _ => ih hRest

/-
  A pass tries a subscription once if it is in the list, and
  leaves it alone otherwise. By induction on the list.
-/
theorem does_passed
    (hStored : ∀ choice, fits choice → choice.fault = false)
    (hNodup : (due.map Subscription.id).Nodup)
    (hListed :
      ∀ sub ∈ due, sub.id = id → before.row = some sub)
    (hBefore : attemptsOf id h = before) :
    (renewEach svc now due report).Does rfc3339 fits thread
      (fun _ later =>
        ((∀ sub ∈ due, sub.id ≠ id) ∧
            attemptsOf id later = before) ∨
          ∃ sub ∈ due, sub.id = id ∧ ∃ ok row,
            Tried svc now sub ok row ∧
              attemptsOf id later =
                ⟨some row, (thread, ok) :: before.tries⟩)
      (fun _ _ => False) h := by
  let view := attemptsView rfc3339 fits id
  induction due generalizing report h with
  | nil =>
      refine .inl ⟨?_, hBefore⟩
      exact fun sub hSub => nomatch hSub
  | cons sub due ih =>
      rw [List.map_cons, List.nodup_cons] at hNodup
      obtain ⟨hHead, hRest⟩ := List.forall_mem_cons.mp hListed
      rw [renewEach, Svc.does_bind]
      refine does_attempt hBefore
        fun result charged hAuto hCharged => ?_
      by_cases hId : sub.id = id
      · subst hId
        -- The ids are distinct, so this is its only turn.
        have hOthers : ∀ other ∈ due, other.id ≠ sub.id := by
          intro other hOther hSame
          exact hNodup.1 (hSame ▸ List.mem_map_of_mem hOther)
        have hRow : attemptsOf sub.id charged =
            ⟨some sub, before.tries⟩ := by
          rw [← hHead rfl]
          exact hCharged
        have hLast :
            ∀ ok row later report',
              Tried svc now sub ok row →
              attemptsOf sub.id later =
                ⟨some row, (thread, ok) :: before.tries⟩ →
              (renewEach svc now due report').Does rfc3339 fits
                thread
                (fun _ last =>
                  ((∀ other ∈ sub :: due,
                      other.id ≠ sub.id) ∧
                    attemptsOf sub.id last = before) ∨
                  ∃ other ∈ sub :: due,
                    other.id = sub.id ∧ ∃ ok row,
                      Tried svc now other ok row ∧
                        attemptsOf sub.id last =
                          ⟨some row,
                            (thread, ok) :: before.tries⟩)
                (fun _ _ => False) later := by
          intro ok row later report' hTried hLater
          refine view.does_confined hLater
            (confined_renewEach hOthers) ?_
            (fun _ _ hNo _ => hNo.elim)
          intro _ last hSame
          exact .inr ⟨sub, List.mem_cons_self, rfl, ok, row,
            hTried, hSame⟩
        cases result with
        | ok charge =>
            rw [Svc.does_bind]
            exact does_recordedRenewal hStored hRow
              fun later hLater =>
                hLast true _ later _
                  (.renewed charge.1 (hAuto charge rfl)) hLater
        | error err =>
            rw [Svc.does_bind]
            exact does_recordedFailure hStored hRow
              fun _ later hLater =>
                hLast false _ later _ .failed hLater
      · have hBehind :
            ∀ later report', attemptsOf id later = before →
              (renewEach svc now due report').Does rfc3339 fits
                thread
                (fun _ last =>
                  ((∀ other ∈ sub :: due, other.id ≠ id) ∧
                    attemptsOf id last = before) ∨
                  ∃ other ∈ sub :: due, other.id = id ∧
                    ∃ ok row, Tried svc now other ok row ∧
                      attemptsOf id last =
                        ⟨some row,
                          (thread, ok) :: before.tries⟩)
                (fun _ _ => False) later := by
          intro later report' hLater
          refine (ih hNodup.2 hRest hLater).mono ?_
            fun _ _ hNo => hNo
          rintro _ last (⟨hOthers, hSame⟩ |
            ⟨other, hOther, hTried⟩)
          · exact .inl
              ⟨List.forall_mem_cons.mpr ⟨hId, hOthers⟩, hSame⟩
          · exact .inr
              ⟨other, List.mem_cons_of_mem sub hOther, hTried⟩
        cases result with
        | ok charge =>
            rw [Svc.does_bind]
            exact view.does_confined hCharged
              (confined_recordRenewed hId)
              (fun _ later hLater => hBehind later _ hLater)
              (fun _ _ hNo _ => hNo.elim)
        | error err =>
            rw [Svc.does_bind]
            exact view.does_confined hCharged
              (confined_recordFailed hId)
              (fun _ later hLater => hBehind later _ hLater)
              (fun _ _ hNo _ => hNo.elim)

end Pass

end Protocol

end IcpHandler

------------------------------------------------------------
-- A Tick
------------------------------------------------------------

namespace IcpHandler

namespace Protocol

open Model Service Concurrency Data

/- What a tick tries on a subscription, and what comes of it. -/
inductive Attempted
    (svc : IcpService)
    (now : DateTime)
    (sub : Subscription) : Option Bool → Subscription → Prop where
  | passed (hNotDue : Record.isDue now sub = false) :
      Attempted svc now sub none sub
  | tried
      (hDue : Record.isDue now sub = true)
      (ok : Bool)
      (row : Subscription)
      (hTried : Tried svc now sub ok row) :
      Attempted svc now sub (some ok) row

section Tick

variable {rfc3339 : Rfc3339} {fits : Choice → Prop}
variable {thread : Nat} {id : String} {h : Log}
variable {svc : IcpService} {sub : Subscription}
variable {tries : Tries} {now : DateTime}

/-
  A tick tries a stored subscription once if it is due. The
  tick comes to an end, whatever its charges come to.
-/
theorem does_attempts
    (hStored : ∀ choice, fits choice → choice.fault = false)
    (hBefore : attemptsOf id h = ⟨some sub, tries⟩) :
    (tickSubscriptions svc now).Does rfc3339 fits thread
      (fun _ later =>
        ∃ outcome row, Attempted svc now sub outcome row ∧
          attemptsOf id later =
            ⟨some row, triesAfter thread outcome tries⟩)
      (fun _ _ => False) h := by
  have hRow : h.world.subscriptions.get id = some sub :=
    congrArg Attempts.row hBefore
  have hId : sub.id = id := Data.KeyedStore.key_of_get hRow
  have hLoses : Loses fits False := by
    intro choice hFits hFault
    rw [hStored choice hFits] at hFault
    cases hFault
  let view := attemptsView rfc3339 fits id
  have hList :
      (Svc.act (.subs (.listDue now))).Does rfc3339 fits thread
        (fun due _ =>
          (∀ other ∈ due,
            (booksOf other.id h).row = some other ∧
              Record.isDue now other = true) ∧
          (due.map Subscription.id).Nodup ∧
          ∀ other, (booksOf other.id h).row = some other →
            Record.isDue now other = true → other ∈ due)
        (fun _ _ => False) h :=
    does_listDue hLoses fun due _ _ hSound hNodup hAll =>
      ⟨hSound, hNodup, fun other hOther hDue =>
        (hAll other hOther hDue).resolve_right not_false⟩
  rw [tickSubscriptions, Svc.does_bind, Svc.does_act]
  rw [Svc.does_act] at hList
  intro due after hMakes
  obtain ⟨hSound, hNodup, hAll⟩ := hList due after hMakes
  have hListed := (view.keeps hMakes rfl).trans hBefore
  rw [Svc.does_bind]
  refine view.does_act hListed rfl fun scanned counted hCounted => ?_
  let before : Attempts := ⟨some sub, tries⟩
  have hOwn :
      ∀ other ∈ due, other.id = id →
        before.row = some other := by
    intro other hOther hSame
    change some sub = some other
    rw [← hRow, ← hSame]
    exact (hSound other hOther).1
  refine (does_passed hStored hNodup hOwn hCounted).mono ?_
    fun _ _ hNo => hNo
  rintro report later (⟨hOthers, hSame⟩ |
    ⟨other, hOther, hSame, ok, row, hTried, hLater⟩)
  · refine ⟨none, sub, .passed ?_, hSame⟩
    by_contra hDue
    rw [Bool.not_eq_false] at hDue
    have hStill : (booksOf sub.id h).row = some sub := by
      rw [hId]
      exact hRow
    exact hOthers sub (hAll sub hStill hDue) hId
  · cases hOwn other hOther hSame
    exact ⟨some ok, row,
      .tried (hSound sub hOther).2 ok row hTried, hLater⟩

end Tick

end Protocol

end IcpHandler
