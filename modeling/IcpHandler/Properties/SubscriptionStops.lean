import IcpHandler.Model.Concrete
import IcpHandler.Protocol.Runs

/-
  Subscriptions that are canceled or paused, beside scheduler
  passes. A cancellation is final and ends the charges, and a
  pause ends those of the scheduler, unless a pass that has
  listed the subscription before it goes on after it.

  Main declarations:
    * `CancelsSub`, `PausesSub`
    * `NotStoppedMeanwhile`
    * `SeenSub.uncanceled`, `SeenSub.unpaused`
    * `subscription_stays_stopped`
-/

------------------------------------------------------------
-- What a Successful Stop has Done
------------------------------------------------------------

namespace IcpHandler

namespace Protocol

open Model Service Concurrency

/- The rule that allows everything. -/
def AnyRule (_ : Moves) (_ : Eff) : Prop :=
  True

section Posts

variable {α : Type}
variable {svc : IcpService}
variable {input : IntentInput}
variable {past : Moves}
variable {P : Moves → Prop}

/- Any block adds to the moves there are. -/
theorem meets_any
    (body : Svc α)
    (hKeeps : ∀ recent moves, P moves → P (recent ++ moves))
    (hPast : P past) :
    body.Meets AnyRule (fun _ later => P later)
      (fun _ _ => True) past := by
  refine Prog.Traced.mono (Prog.Traced.appends body.run past)
    ?_
  rintro result later ⟨recent, rfl⟩
  cases result with
  | ok value => exact hKeeps recent past hPast
  | error halt => trivial

/- What the intent's own work has done, the handler has done. -/
theorem meets_any_handleIntent
    {intent : Intent}
    (hIntent :
      Intent.parse input.envelope.intent = .ok intent)
    (hKeeps : ∀ recent moves, P moves → P (recent ++ moves))
    (hDispatch :
      ∀ mandate moves,
        (dispatch svc intent input mandate).Meets AnyRule
          (fun _ later => P later) (fun _ _ => True) moves) :
    (handleIntent svc input).Meets AnyRule
      (fun _ later => P later) (fun _ _ => True) past := by
  have hTrue :
      ∀ (recent moves : Moves), True → True :=
    fun _ _ _ => trivial
  rw [handleIntent, Svc.meets_bind, Svc.meets_ensure]
  refine ⟨fun _ => ?_, fun _ => trivial⟩
  rw [Svc.meets_bind, Svc.meets_ofExcept]
  refine ⟨fun parsed hParsed => ?_, fun _ _ => trivial⟩
  rw [hIntent] at hParsed
  cases hParsed
  rw [Svc.meets_bind]
  refine Svc.Meets.mono
    (meets_any (mandateFor svc input intent) hTrue trivial) ?_
    (fun _ _ _ => trivial)
  intro mandate evaluated _
  rw [Svc.meets_bind]
  refine Svc.Meets.mono
    (meets_any (ensureSubject input mandate) hTrue trivial) ?_
    (fun _ _ _ => trivial)
  intro _ checked _
  rw [Svc.meets_bind]
  refine Svc.Meets.mono (hDispatch mandate checked) ?_
    (fun _ _ _ => trivial)
  intro outcome done hDone
  exact meets_any _ hKeeps hDone

/- The thread has made the update, and it has landed. -/
def Landed
    (id : String)
    (isPatch : SubPatch → Prop)
    (past : Moves) : Prop :=
  ∃ patch row, isPatch patch ∧
    (⟨.subs (.update id patch), some row⟩ : Move Eff.Res) ∈
      past

theorem Landed.append
    {id : String}
    {isPatch : SubPatch → Prop}
    (recent moves : Moves)
    (hLanded : Landed id isPatch moves) :
    Landed id isPatch (recent ++ moves) := by
  obtain ⟨patch, row, hPatch, hMem⟩ := hLanded
  exact ⟨patch, row, hPatch, List.mem_append_right _ hMem⟩

/- A pause or a cancellation that succeeds has written. -/
theorem meets_any_subMarker
    {id message : String}
    (isPatch : SubPatch → Prop)
    {patch : SubPatch}
    (hPatch : isPatch patch) :
    (do
      let found ← Svc.act (.subs (.update id patch))
      let updated ← Svc.orPanic message found
      let txn ← subscriptionPseudoTxn input updated .canceled
      Svc.act (.txns (.insert txn))
      pure
        { transaction := txn
          subscription := some updated } : Svc Outcome).Meets
      AnyRule (fun _ later => Landed id isPatch later)
      (fun _ _ => True) past := by
  rw [Svc.meets_bind]
  refine Svc.meets_act.mpr ⟨trivial, fun found => ?_⟩
  rw [Svc.meets_bind, Svc.meets_orPanic]
  refine ⟨?_, fun _ => trivial⟩
  rintro updated rfl
  refine meets_any _ Landed.append ?_
  exact ⟨patch, updated, hPatch, List.mem_cons_self⟩

/- The same holds when the lock has been given back. -/
theorem meets_any_lockedSub
    {id : String}
    {isPatch : SubPatch → Prop}
    {body : Subscription → Svc Outcome}
    (hBody :
      ∀ sub moves,
        (body sub).Meets AnyRule
          (fun _ later => Landed id isPatch later)
          (fun _ _ => True) moves) :
    (Svc.withLock (subLock id)
      (subscriptionForInput id input >>= body)).Meets AnyRule
      (fun _ later => Landed id isPatch later)
      (fun _ _ => True) past := by
  refine Svc.meets_withLock.mpr ⟨trivial, ?_⟩
  rw [Svc.meets_bind]
  refine Svc.Meets.mono
    (meets_any (P := fun _ => True) (subscriptionForInput _ _)
      (fun _ _ _ => trivial) trivial) ?_
    (fun _ _ _ => ⟨trivial, trivial⟩)
  intro sub read _
  exact Svc.Meets.mono (hBody sub read)
    (fun _ _ hLanded =>
      ⟨trivial, Landed.append [_] _ hLanded⟩)
    (fun _ _ _ => ⟨trivial, trivial⟩)

/- The thread's intent has succeeded. -/
def Succeeded
    (pool : Pool Eff.Res World OpResult)
    (thread : Nat) : Prop :=
  ∃ body, pool.threads thread = .ret (.response (.ok body))

/- What every successful run of an intent has done. -/
theorem Reaches.succeeded
    {ops : Nat → Op}
    {w : World}
    {pool : Pool Eff.Res World OpResult}
    (hReaches : Reaches svc ops w pool)
    {thread : Nat}
    (hOp : ops thread = .intent input)
    (hMeets :
      (handleIntent svc input).Meets AnyRule
        (fun _ later => P later) (fun _ _ => True) [])
    (hSucceeded : Succeeded pool thread) :
    P (own thread pool.history.past) := by
  obtain ⟨schedule, hRun⟩ := hReaches
  obtain ⟨body, hReturned⟩ := hSucceeded
  have hTraced :
      ∀ other, ((ops other).prog svc).Traced AnyRule
        (fun result later =>
          other = thread →
            ∀ body, result = .response (.ok body) → P later)
        [] := by
    intro other
    by_cases hOther : other = thread
    · rw [hOther, hOp, Op.prog, Prog.Traced.bind_iff]
      refine Prog.Traced.mono hMeets ?_
      intro result later hPost _ body hBody
      cases result with
      | ok value => exact hPost
      | error halt => cases hBody
    · refine Prog.Traced.of_forall (fun _ _ => trivial) ?_ _ _
      exact fun _ _ hSame => absurd hSame hOther
  have hPost := (Pool.run_lawful .start hTraced hRun).2 thread
  rw [hReturned] at hPost
  exact hPost rfl body rfl

end Posts

/- The operation cancels the subscription. -/
def CancelsSub
    (svc : IcpService)
    (op : Op)
    (id : String) : Prop :=
  ∃ input params, op = .intent input ∧
    Intent.parse input.envelope.intent =
      .ok .cancelSubscription ∧
    svc.deps.subscriptionRefParams input.envelope.params =
      .ok params ∧
    params.subscriptionId = id

/- The operation pauses the subscription. -/
def PausesSub
    (svc : IcpService)
    (op : Op)
    (id : String) : Prop :=
  ∃ input params, op = .intent input ∧
    Intent.parse input.envelope.intent = .ok .pause ∧
    svc.deps.subscriptionRefParams input.envelope.params =
      .ok params ∧
    params.subscriptionId = id

def IsCancel (patch : SubPatch) : Prop :=
  ∃ now, patch = .cancel now

def IsPause (patch : SubPatch) : Prop :=
  ∃ now, patch = .pause now

section Stops

variable {svc : IcpService}
variable {ops : Nat → Op}
variable {w : World}
variable {pool : Pool Eff.Res World OpResult}
variable {thread : Nat}
variable {id : String}

theorem CancelsSub.landed
    (hCancels : CancelsSub svc (ops thread) id)
    (hReaches : Reaches svc ops w pool)
    (hSucceeded : Succeeded pool thread) :
    Landed id IsCancel (own thread pool.history.past) := by
  obtain ⟨input, params, hOp, hIntent, hParams, rfl⟩ := hCancels
  refine hReaches.succeeded hOp ?_ hSucceeded
  refine meets_any_handleIntent hIntent Landed.append ?_
  intro mandate moves
  change (doCancelSubscription svc input).Meets _ _ _ _
  rw [doCancelSubscription, Svc.meets_bind,
    Svc.meets_ofExcept, hParams]
  refine ⟨?_, fun _ _ => trivial⟩
  rintro _ ⟨⟩
  refine meets_any_lockedSub fun sub read => ?_
  rw [Svc.meets_bind, Svc.meets_ensure]
  refine ⟨fun _ => ?_, fun _ => trivial⟩
  rw [Svc.meets_bind]
  refine Svc.meets_act.mpr ⟨trivial, fun now => ?_⟩
  exact meets_any_subMarker IsCancel ⟨now, rfl⟩

theorem PausesSub.landed
    (hPauses : PausesSub svc (ops thread) id)
    (hReaches : Reaches svc ops w pool)
    (hSucceeded : Succeeded pool thread) :
    Landed id IsPause (own thread pool.history.past) := by
  obtain ⟨input, params, hOp, hIntent, hParams, rfl⟩ := hPauses
  refine hReaches.succeeded hOp ?_ hSucceeded
  refine meets_any_handleIntent hIntent Landed.append ?_
  intro mandate moves
  change (doPause svc input).Meets _ _ _ _
  rw [doPause, Svc.meets_bind, Svc.meets_ofExcept, hParams]
  refine ⟨?_, fun _ _ => trivial⟩
  rintro _ ⟨⟩
  refine meets_any_lockedSub fun sub read => ?_
  rw [Svc.meets_bind, Svc.meets_ensure]
  refine ⟨fun _ => ?_, fun _ => trivial⟩
  rw [Svc.meets_bind]
  refine Svc.meets_act.mpr ⟨trivial, fun now => ?_⟩
  exact meets_any_subMarker IsPause ⟨now, rfl⟩

end Stops

end Protocol

end IcpHandler

------------------------------------------------------------
-- Charges and Stops
------------------------------------------------------------

namespace IcpHandler

namespace Protocol

open Model Service Concurrency

/- The occurrence creates a charge for the subscription. -/
def chargesSub
    (id : String)
    (o : Happening) : Bool :=
  match o.effect with
  | .insertCharge _ bills => bills.subscriptionId == id
  | _ => false

/- The occurrence cancels the subscription. -/
def cancelsSub (id : String) : Happening → Bool
  | ⟨_, .subs (.update key (.cancel _)), some _, _, _⟩ =>
      key == id
  | _ => false

/- The occurrence pauses the subscription. -/
def pausesSub (id : String) : Happening → Bool
  | ⟨_, .subs (.update key (.pause _)), some _, _, _⟩ =>
      key == id
  | _ => false

def stopsSub
    (id : String)
    (o : Happening) : Bool :=
  cancelsSub id o || pausesSub id o

/- The pass reads which subscriptions are due. -/
def listsSubs : Eff → Bool
  | .subs (.listDue _) => true
  | _ => false

/-
  Where a subscription is charged, nobody has canceled or
  paused it after the pass had listed it; and where a failure
  puts it past due, nobody has canceled it after that.
-/
def NotStoppedMeanwhile
    (past : Past)
    (o : Happening) : Prop :=
  match o.effect with
  | .insertCharge _ bills =>
      UnbrokenSince (stopsSub bills.subscriptionId) listsSubs
        o.thread past
  | .subs (.update id (.chargeFailed failures most _ _)) =>
      most ≤ failures →
        UnbrokenSince (cancelsSub id) listsSubs o.thread past
  | _ => True

instance
    (past : Past)
    (o : Happening) :
    Decidable (NotStoppedMeanwhile past o) :=
  match o with
  | ⟨thread, effect, answer, before, after⟩ => by
      dsimp only [NotStoppedMeanwhile]
      split
      · infer_instance
      · infer_instance
      · infer_instance

section Patches

variable {patch : SubPatch}
variable {row : Subscription}

/- A row only becomes canceled by a cancellation. -/
theorem canceled_cases
    (hCanceled : (patch.apply row).status = .canceled) :
    IsCancel patch ∨ row.status = .canceled := by
  cases patch with
  | renew periodStart periodEnd txnId payment jti now =>
      cases hCanceled
  | pause now => cases hCanceled
  | cancel now => exact .inl ⟨now, rfl⟩
  | autoRenew periodStart periodEnd charges txnId now =>
      change (if row.status = .trialing then _ else row.status) =
        _ at hCanceled
      split at hCanceled
      · cases hCanceled
      · exact .inr hCanceled
  | chargeFailed failures most nextAttempt now =>
      change (if most ≤ failures then _ else row.status) =
        _ at hCanceled
      split at hCanceled
      · cases hCanceled
      · exact .inr hCanceled

/- A row only becomes paused by a pause. -/
theorem paused_cases
    (hPaused : (patch.apply row).status = .paused) :
    IsPause patch ∨ row.status = .paused := by
  cases patch with
  | renew periodStart periodEnd txnId payment jti now =>
      cases hPaused
  | pause now => exact .inl ⟨now, rfl⟩
  | cancel now => cases hPaused
  | autoRenew periodStart periodEnd charges txnId now =>
      change (if row.status = .trialing then _ else row.status) =
        _ at hPaused
      split at hPaused
      · cases hPaused
      · exact .inr hPaused
  | chargeFailed failures most nextAttempt now =>
      change (if most ≤ failures then _ else row.status) =
        _ at hPaused
      split at hPaused
      · cases hPaused
      · exact .inr hPaused

/- No row begins a trial. -/
theorem trialing_before
    (hTrialing : (patch.apply row).status = .trialing) :
    row.status = .trialing := by
  cases patch with
  | renew periodStart periodEnd txnId payment jti now =>
      cases hTrialing
  | pause now => cases hTrialing
  | cancel now => cases hTrialing
  | autoRenew periodStart periodEnd charges txnId now =>
      change (if row.status = .trialing then _ else row.status) =
        _ at hTrialing
      split at hTrialing
      · cases hTrialing
      · exact hTrialing
  | chargeFailed failures most nextAttempt now =>
      change (if most ≤ failures then _ else row.status) =
        _ at hTrialing
      split at hTrialing
      · cases hTrialing
      · exact hTrialing

end Patches

section Histories

variable {svc : IcpService}
variable {ops : Nat → Op}
variable {w : World}
variable {h : History Eff.Res World}
variable {o : Happening}
variable {id : String}
variable {thread : Nat}
variable {sub : Subscription}

theorem cancelsSub_updated
    {patch : SubPatch}
    (hMove : o.move = ⟨.subs (.update id patch), some sub⟩)
    (hCancel : IsCancel patch) :
    cancelsSub id o = true := by
  obtain ⟨now, rfl⟩ := hCancel
  rcases o with ⟨thread, effect, answer, before, after⟩
  cases hMove
  simp [cancelsSub]

theorem pausesSub_updated
    {patch : SubPatch}
    (hMove : o.move = ⟨.subs (.update id patch), some sub⟩)
    (hPause : IsPause patch) :
    pausesSub id o = true := by
  obtain ⟨now, rfl⟩ := hPause
  rcases o with ⟨thread, effect, answer, before, after⟩
  cases hMove
  simp [pausesSub]

/- The subscription is stored, and its status is another. -/
def StatusNot
    (id : String)
    (status : SubscriptionStatus)
    (w : World) : Prop :=
  ∃ row, w.subscriptions.get id = some row ∧
    row.status ≠ status

/- Only patches of one kind bring a row into a status. -/
theorem keeps_statusNot
    {status : SubscriptionStatus}
    {brings : SubPatch → Prop}
    (hBrings :
      ∀ (patch : SubPatch) row,
        (patch.apply row).status = status →
          brings patch ∨ row.status = status)
    (hLawful : LawfulRun svc ops w h)
    (hNone : w.issued = [])
    (hExec : Executes svc.deps.rfc3339 o)
    (hBefore : o.before = h.world)
    (hRule :
      Rule svc (ops o.thread) (own o.thread h.past) o.effect)
    (hNot : StatusNot id status h.world)
    (hKeeps :
      ∀ patch sub,
        o.move = ⟨.subs (.update id patch), some sub⟩ →
          ¬ brings patch) :
    StatusNot id status o.after := by
  obtain ⟨row, hRow, hStatus⟩ := hNot
  cases hExec.subChange id with
  | kept hSame =>
      refine ⟨row, ?_, hStatus⟩
      rw [hSame, hBefore]
      exact hRow
  | inserted new hEffect hId hAfter =>
      rw [hEffect] at hRule
      rw [← hId] at hRow
      exact (hLawful.not_inserted hNone hRule hRow).elim
  | patched patch found hMove hFound hAfter =>
      refine ⟨_, hAfter, ?_⟩
      rw [hBefore, hRow] at hFound
      cases hFound
      intro hNow
      rcases hBrings patch row hNow with hKind | hWas
      · exact hKeeps patch _ hMove hKind
      · exact hStatus hWas

/- Only a cancellation cancels. -/
theorem keeps_uncanceled
    (hLawful : LawfulRun svc ops w h)
    (hNone : w.issued = [])
    (hExec : Executes svc.deps.rfc3339 o)
    (hBefore : o.before = h.world)
    (hRule :
      Rule svc (ops o.thread) (own o.thread h.past) o.effect)
    (hNot : StatusNot id .canceled h.world)
    (hKeeps : cancelsSub id o = false) :
    StatusNot id .canceled o.after := by
  refine keeps_statusNot (fun _ _ => canceled_cases) hLawful
    hNone hExec hBefore hRule hNot ?_
  intro patch sub hMove hCancel
  rw [cancelsSub_updated hMove hCancel] at hKeeps
  cases hKeeps

/- Nothing begins a trial a second time. -/
theorem keeps_untrialing
    (hLawful : LawfulRun svc ops w h)
    (hNone : w.issued = [])
    (hExec : Executes svc.deps.rfc3339 o)
    (hBefore : o.before = h.world)
    (hRule :
      Rule svc (ops o.thread) (own o.thread h.past) o.effect)
    (hNot : StatusNot id .trialing h.world) :
    StatusNot id .trialing o.after := by
  have hBrings :
      ∀ (patch : SubPatch) (row : Subscription),
        (patch.apply row).status = .trialing →
          False ∨ row.status = .trialing :=
    fun _ _ hNow => .inr (trialing_before hNow)
  exact keeps_statusNot hBrings hLawful hNone hExec hBefore
    hRule hNot (fun _ _ _ hNever => hNever)

/-
  A pass finds what it has listed not canceled, unless it was
  canceled since.
-/
theorem uncanceled_since_listing
    (hLawful : LawfulRun svc ops w h)
    (hNone : w.issued = [])
    (hListed : ListedSub sub (own thread h.past))
    (hUnbroken :
      UnbrokenSince (cancelsSub sub.id) listsSubs thread
        h.past) :
    StatusNot sub.id .canceled h.world := by
  obtain ⟨now, due, hDue, hListing⟩ := hListed
  obtain ⟨recent, listing, older, hPast, -, hMove, hQuiet⟩ :=
    hUnbroken.cut hListing rfl
  have hMem : listing ∈ h.past := by
    rw [hPast]
    exact List.mem_append_right _ List.mem_cons_self
  have hExec := hLawful.executes hMem
  have hNoWrite : listing.effect.touchesSubs = false := by
    have hEffect : listing.effect = .subs (.listDue now) :=
      congrArg Move.effect hMove
    rw [hEffect]
    rfl
  obtain ⟨hGet, hStatus⟩ := hExec.listSubs hMove sub hDue
  have hFirst : StatusNot sub.id .canceled listing.after := by
    refine ⟨sub, ?_, ?_⟩
    · rw [hExec.framed.subscriptions hNoWrite]
      exact hGet
    · intro hCanceled
      rw [hCanceled] at hStatus
      rcases hStatus with hNo | hNo
      · cases hNo
      · cases hNo
  refine Lawful.since _ hLawful hPast hFirst ?_ hQuiet
  intro h' o hBefore hAllows hRule hNot hKeeps
  exact keeps_uncanceled hBefore hNone
    (executes_of_allows hAllows) hAllows.before_eq hRule hNot
    hKeeps

/-
  Whoever has seen the subscription in another status, under
  its lock, finds it so, where only holders of the lock bring
  it into this one.
-/
theorem SeenSub.statusNot
    {status : SubscriptionStatus}
    {brings : SubPatch → Prop}
    (hBrings :
      ∀ (patch : SubPatch) row,
        (patch.apply row).status = status →
          brings patch ∨ row.status = status)
    (hLocked :
      ∀ op past patch, MayPatchSub svc op past id patch →
        brings patch → ∃ sub, SeenSub id sub past)
    (hLawful : LawfulRun svc ops w h)
    (hFree : w.locks = [])
    (hNone : w.issued = []) :
    ∀ thread sub, SeenSub id sub (own thread h.past) →
      sub.status ≠ status → StatusNot id status h.world := by
  refine hLawful.induct ?_ ?_
  · intro thread sub hSeen
    cases (ReadUnder.since hSeen).mem
  · intro h o hBefore ih hExec hWorld hRule thread sub hSeen
      hStatus
    rw [History.push_past] at hSeen
    rw [History.push_world]
    -- The row was seen before, or is read just now.
    rcases ReadUnder.push_cases hSeen with
      hMove | ⟨hOlder, hQuiet⟩
    · have hEffect : o.effect = .subs (.get id) :=
        congrArg Move.effect hMove
      have hNoWrite : o.effect.touchesSubs = false := by
        rw [hEffect]
        rfl
      refine ⟨sub, ?_, hStatus⟩
      rw [hExec.framed.subscriptions hNoWrite]
      exact hExec.readSub hMove
    · refine keeps_statusNot hBrings hBefore hNone hExec hWorld
        hRule (ih thread sub hOlder hStatus) ?_
      -- Two threads would hold the lock of the subscription.
      intro patch row hMove hKind
      have hEffect : o.effect = .subs (.update id patch) :=
        congrArg Move.effect hMove
      rw [hEffect] at hRule
      obtain ⟨other, hOtherSeen⟩ :=
        hLocked _ _ patch hRule hKind
      have hSame : o.thread = thread :=
        (hBefore.locksKept hFree).one_holder
          (ReadUnder.held hOtherSeen rfl)
          (ReadUnder.held hOlder rfl)
      have hTouches := hQuiet hSame
      rw [hEffect] at hTouches
      cases hTouches

/- A cancellation takes the lock. -/
theorem SeenSub.uncanceled
    (hLawful : LawfulRun svc ops w h)
    (hFree : w.locks = [])
    (hNone : w.issued = []) :
    ∀ thread sub, SeenSub id sub (own thread h.past) →
      sub.status ≠ .canceled →
        StatusNot id .canceled h.world := by
  refine SeenSub.statusNot (fun _ _ => canceled_cases) ?_
    hLawful hFree hNone
  rintro op past patch hMay ⟨now, rfl⟩
  obtain ⟨input, sub, -, -, hSeen, -⟩ := hMay
  exact ⟨sub, hSeen⟩

/- And so does a pause. -/
theorem SeenSub.unpaused
    (hLawful : LawfulRun svc ops w h)
    (hFree : w.locks = [])
    (hNone : w.issued = []) :
    ∀ thread sub, SeenSub id sub (own thread h.past) →
      sub.status ≠ .paused →
        StatusNot id .paused h.world := by
  refine SeenSub.statusNot (fun _ _ => paused_cases) ?_ hLawful
    hFree hNone
  rintro op past patch hMay ⟨now, rfl⟩
  obtain ⟨input, sub, -, -, hSeen, -⟩ := hMay
  exact ⟨sub, hSeen⟩

end Histories

end Protocol

end IcpHandler

------------------------------------------------------------
-- Stopped for Good
------------------------------------------------------------

namespace IcpHandler

namespace Protocol

open Model Service Concurrency

/- The subscription is stored with this status. -/
def StatusIs
    (id : String)
    (status : SubscriptionStatus)
    (w : World) : Prop :=
  ∃ row, w.subscriptions.get id = some row ∧
    row.status = status

theorem StatusIs.not
    {id : String}
    {status : SubscriptionStatus}
    {w : World}
    (hIs : StatusIs id status w)
    (hNot : StatusNot id status w) :
    False := by
  obtain ⟨row, hRow, hStatus⟩ := hIs
  obtain ⟨other, hOther, hOtherStatus⟩ := hNot
  rw [hRow] at hOther
  cases hOther
  exact hOtherStatus hStatus

section Stopped

variable {svc : IcpService}
variable {ops : Nat → Op}
variable {w : World}
variable {h : History Eff.Res World}
variable {o : Happening}
variable {id : String}

/- A canceled subscription stays canceled. -/
theorem keeps_canceled
    (hLawful : LawfulRun svc ops w h)
    (hFree : w.locks = [])
    (hNone : w.issued = [])
    (hExec : Executes svc.deps.rfc3339 o)
    (hBefore : o.before = h.world)
    (hRule :
      Rule svc (ops o.thread) (own o.thread h.past) o.effect)
    (hMeanwhile : NotStoppedMeanwhile h.past o)
    (hCanceled : StatusIs id .canceled h.world) :
    StatusIs id .canceled o.after := by
  have hUnseen :
      ∀ sub, SeenSub id sub (own o.thread h.past) →
        sub.status = .canceled := by
    intro sub hSeen
    by_contra hStatus
    exact hCanceled.not
      (SeenSub.uncanceled hLawful hFree hNone o.thread sub hSeen
        hStatus)
  obtain ⟨row, hRow, hStatus⟩ := hCanceled
  cases hExec.subChange id with
  | kept hSame =>
      refine ⟨row, ?_, hStatus⟩
      rw [hSame, hBefore]
      exact hRow
  | inserted new hEffect hId hAfter =>
      rw [hEffect] at hRule
      rw [← hId] at hRow
      exact (hLawful.not_inserted hNone hRule hRow).elim
  | patched patch found hMove hFound hAfter =>
      have hEffect : o.effect = .subs (.update id patch) :=
        congrArg Move.effect hMove
      rw [hBefore, hRow] at hFound
      cases hFound
      rw [NotStoppedMeanwhile, hEffect] at hMeanwhile
      rw [hEffect] at hRule
      cases patch with
      | renew periodStart periodEnd txnId payment jti now =>
          obtain ⟨input, sub, -, -, hSeen, hOpen, -⟩ := hRule
          exact absurd (hUnseen sub hSeen) hOpen
      | pause now =>
          obtain ⟨input, sub, -, -, hSeen, hOpen, -⟩ := hRule
          exact absurd (hUnseen sub hSeen) hOpen
      | cancel now => exact ⟨_, hAfter, rfl⟩
      | autoRenew periodStart periodEnd charges txnId now =>
          refine ⟨_, hAfter, ?_⟩
          change (if row.status = .trialing then _
            else row.status) = _
          rw [hStatus]
          rfl
      | chargeFailed failures most nextAttempt now =>
          refine ⟨_, hAfter, ?_⟩
          change (if most ≤ failures then _ else row.status) = _
          by_cases hLast : most ≤ failures
          · obtain ⟨tick, sub, -, hListed, rfl, -⟩ := hRule
            exact (StatusIs.not ⟨row, hRow, hStatus⟩
              (uncanceled_since_listing hLawful hNone hListed
                (hMeanwhile hLast))).elim
          · rw [if_neg hLast]
            exact hStatus

/- A canceled subscription is not charged. -/
theorem canceled_uncharged
    (hLawful : LawfulRun svc ops w h)
    (hFree : w.locks = [])
    (hNone : w.issued = [])
    (hRule :
      Rule svc (ops o.thread) (own o.thread h.past) o.effect)
    (hMeanwhile : NotStoppedMeanwhile h.past o)
    (hCanceled : StatusIs id .canceled h.world) :
    chargesSub id o = false := by
  rw [Bool.eq_false_iff]
  intro hCharges
  unfold chargesSub at hCharges
  split at hCharges
  · rename_i txn bills hEffect
    have hId : bills.subscriptionId = id :=
      beq_iff_eq.mp hCharges
    rw [NotStoppedMeanwhile, hEffect] at hMeanwhile
    rw [hEffect] at hRule
    have hBill := hRule.bills
    unfold MayBill at hBill
    split at hBill
    · rcases hBill.2 with hFresh | ⟨sub, hSeen, -, hOpen, -⟩
      · obtain ⟨row, hRow, -⟩ := hCanceled
        have hUnstored :=
          hLawful.unstored_of_fresh hNone o.thread hFresh
        rw [hId, hRow] at hUnstored
        cases hUnstored
      · rw [hId] at hSeen
        exact hCanceled.not
          (SeenSub.uncanceled hLawful hFree hNone o.thread sub
            hSeen hOpen)
    · obtain ⟨sub, hListed, -, rfl⟩ := hBill
      rw [← hId] at hCanceled
      refine hCanceled.not
        (uncanceled_since_listing hLawful hNone hListed
          (hMeanwhile.mono ?_))
      intro other hCancels
      exact Bool.or_eq_true_iff.mpr (.inl hCancels)
    · exact hBill
  · cases hCharges

/- What was canceled is canceled. -/
theorem canceled_for_good
    (hLawful : LawfulRun svc ops w h)
    (hFree : w.locks = [])
    (hNone : w.issued = [])
    (hCond : Conforms NotStoppedMeanwhile h.past)
    {cancel : Happening}
    (hMem : cancel ∈ h.past)
    (hCancels : cancelsSub id cancel = true) :
    StatusIs id .canceled h.world := by
  induction hLawful with
  | start => cases hMem
  | @push h o hBefore hAllows hRule ih =>
      have hExec := executes_of_allows hAllows
      rw [History.push_world]
      rcases List.mem_cons.mp hMem with rfl | hOlder
      · unfold cancelsSub at hCancels
        split at hCancels
        · rename_i thread key now row before after
          have hKey : key = id := beq_iff_eq.mp hCancels
          subst hKey
          obtain ⟨found, -, rfl, hAfter⟩ := hExec.updatedSub rfl
          exact ⟨_, hAfter, rfl⟩
        · cases hCancels
      · exact keeps_canceled hBefore hFree hNone hExec
          hAllows.before_eq hRule hCond.1 (ih hCond.2 hOlder)

/-
  A pass that charges a subscription after a pause has found
  it active in between.
-/
theorem active_between
    (hLawful : LawfulRun svc ops w h)
    (hNone : w.issued = [])
    {middle older : Past}
    {pause : Happening}
    (hPast : h.past = middle ++ pause :: older)
    (hPauses : pausesSub id pause = true)
    {thread : Nat}
    {sub : Subscription}
    (hId : sub.id = id)
    (hListed : ListedSub sub (own thread h.past))
    (hUnbroken :
      UnbrokenSince (stopsSub id) listsSubs thread h.past) :
    ∃ o ∈ middle, StatusIs id .active o.after := by
  obtain ⟨now, due, hDue, hListing⟩ := hListed
  obtain ⟨recent, listing, earlier, hSplit, -, hMove, hQuiet⟩ :=
    hUnbroken.cut hListing rfl
  have hLists : listing.effect = .subs (.listDue now) :=
    congrArg Move.effect hMove
  have hOther : pause ≠ listing := by
    intro hSame
    rcases pause with ⟨pauser, effect, answer, before, after⟩
    rw [← hSame] at hLists
    cases hLists
    cases hPauses
  -- The pause is before the listing, not after it.
  have hOrder :
      ∃ since, middle = recent ++ listing :: since ∧
        earlier = since ++ pause :: older := by
    rw [hPast] at hSplit
    rcases List.append_eq_append_iff.mp hSplit with
      ⟨since, hRecent, hRest⟩ | ⟨since, hMiddle, hRest⟩
    · cases since with
      | nil =>
          exact absurd (List.cons.inj hRest).1 hOther
      | cons first since =>
          rw [List.cons_append] at hRest
          obtain ⟨rfl, -⟩ := List.cons.inj hRest
          have hStops := hQuiet pause (by
            rw [hRecent]
            exact List.mem_append_right _ List.mem_cons_self)
          rw [stopsSub, hPauses, Bool.or_true] at hStops
          cases hStops
    · cases since with
      | nil =>
          exact absurd (List.cons.inj hRest).1.symm hOther
      | cons first since =>
          rw [List.cons_append] at hRest
          obtain ⟨rfl, hEarlier⟩ := List.cons.inj hRest
          exact ⟨since, hMiddle, hEarlier⟩
  obtain ⟨since, hMiddle, hEarlier⟩ := hOrder
  refine ⟨listing, ?_, ?_⟩
  · rw [hMiddle]
    exact List.mem_append_right _ List.mem_cons_self
  obtain ⟨first, hFirst, hFirstPast, hExec, hBefore, -⟩ :=
    hLawful.cut hSplit
  have hNoWrite : listing.effect.touchesSubs = false := by
    rw [hLists]
    rfl
  obtain ⟨hGet, hStatus⟩ := hExec.listSubs hMove sub hDue
  rw [hId] at hGet
  refine ⟨sub, ?_, hStatus.resolve_right ?_⟩
  · rw [hExec.framed.subscriptions hNoWrite]
    exact hGet
  -- It has not begun a trial since the pause.
  intro hTrialing
  rw [hEarlier] at hFirstPast
  have hPaused : StatusNot id .trialing pause.after := by
    have hPauseExec := hFirst.executes (o := pause) (by
      rw [hFirstPast]
      exact List.mem_append_right _ List.mem_cons_self)
    unfold pausesSub at hPauses
    split at hPauses
    · rename_i pauser key at_ row before after
      have hKey : key = id := beq_iff_eq.mp hPauses
      subst hKey
      obtain ⟨found, -, rfl, hAfter⟩ :=
        hPauseExec.updatedSub rfl
      exact ⟨_, hAfter, fun hNo => nomatch hNo⟩
    · cases hPauses
  have hNot : StatusNot id .trialing first.world := by
    refine Lawful.since (fun _ => false) hFirst hFirstPast
      hPaused ?_ (fun _ _ => rfl)
    intro h' o hLawful' hAllows hRule hNot _
    exact keeps_untrialing hLawful' hNone
      (executes_of_allows hAllows) hAllows.before_eq hRule hNot
  rw [hBefore] at hGet
  exact StatusIs.not ⟨sub, hGet, hTrialing⟩ hNot

end Stopped

end Protocol

end IcpHandler

------------------------------------------------------------
-- Successful Stops
------------------------------------------------------------

namespace IcpHandler

namespace Protocol

open Model Service Concurrency

/-
  What successful cancellations and pauses promise, from the
  moment they are seen to have succeeded to a later one.
-/
structure StaysStopped
    (svc : IcpService)
    (ops : Nat → Op)
    (pool pool' : Pool Eff.Res World OpResult) : Prop where
  canceled :
    ∀ thread id, CancelsSub svc (ops thread) id →
      Succeeded pool thread →
        StatusIs id .canceled pool'.history.world ∧
          ∀ recent,
            pool'.history.past = recent ++ pool.history.past →
              ∀ o ∈ recent, chargesSub id o = false
  paused :
    ∀ thread id, PausesSub svc (ops thread) id →
      Succeeded pool thread →
        ∃ pause ∈ pool.history.past,
          pause.thread = thread ∧ pausesSub id pause = true ∧
          ∀ recent o middle older tick,
            pool'.history.past =
                recent ++ o :: (middle ++ pause :: older) →
              ops o.thread = .tickSubscriptions tick →
              chargesSub id o = true →
                ∃ active ∈ middle,
                  StatusIs id .active active.after

/-
  In every run in which no pass charges or fails what was
  stopped after its listing: once a cancellation has
  succeeded, the subscription stays canceled and is not
  charged any more; and the scheduler charges what was paused
  only after it has been active again.
-/
theorem subscription_stays_stopped
    (svc : IcpService)
    (ops : Nat → Op)
    (w : World)
    (hFree : w.locks = [])
    (hNone : w.issued = [])
    (pool pool' : Pool Eff.Res World OpResult)
    (hReaches : Reaches svc ops w pool)
    (later : List (Nat × Choice))
    (hLater :
      pool.run (machine svc.deps.rfc3339) later = some pool')
    (hCond :
      Conforms NotStoppedMeanwhile pool'.history.past) :
    StaysStopped svc ops pool pool' := by
  have hReaches' : Reaches svc ops w pool' := by
    obtain ⟨schedule, hRun⟩ := hReaches
    refine ⟨schedule ++ later, ?_⟩
    have hFirst :
        (poolOf svc ops w).run (machine svc.deps.rfc3339)
          schedule = some pool := hRun
    rw [runOf, Pool.run_append, hFirst]
    exact hLater
  have hLawful' := hReaches'.lawful
  obtain ⟨added, hAdded⟩ := Pool.run_past hLater
  have hStill :
      ∀ o ∈ pool.history.past, o ∈ pool'.history.past := by
    intro o hMem
    rw [hAdded]
    exact List.mem_append_right _ hMem
  refine ⟨?_, ?_⟩
  · intro thread id hCancels hSucceeded
    obtain ⟨patch, row, hPatch, hOwn⟩ :=
      hCancels.landed hReaches hSucceeded
    obtain ⟨cancel, hMem, -, hMove⟩ := mem_own_iff.mp hOwn
    have hCancel := cancelsSub_updated hMove hPatch
    refine ⟨canceled_for_good hLawful' hFree hNone hCond
      (hStill cancel hMem) hCancel, ?_⟩
    intro recent hRecent o hO
    obtain ⟨newer, since, rfl⟩ := List.append_of_mem hO
    rw [List.append_assoc, List.cons_append] at hRecent
    obtain ⟨earlier, hEarlier, hPast, -, -, hRule⟩ :=
      hLawful'.cut hRecent
    rw [hRecent] at hCond
    obtain ⟨hMeanwhile, hConforms⟩ := hCond.cut
    rw [← hPast] at hMeanwhile hConforms hRule
    refine canceled_uncharged hEarlier hFree hNone hRule
      hMeanwhile (canceled_for_good hEarlier hFree hNone
        hConforms ?_ hCancel)
    rw [hPast]
    exact List.mem_append_right _ hMem
  · intro thread id hPauses hSucceeded
    obtain ⟨patch, row, hPatch, hOwn⟩ :=
      hPauses.landed hReaches hSucceeded
    obtain ⟨pause, hMem, hThread, hMove⟩ := mem_own_iff.mp hOwn
    have hPause := pausesSub_updated hMove hPatch
    refine ⟨pause, hMem, hThread, hPause, ?_⟩
    intro recent o middle older tick hRecent hTick hCharges
    obtain ⟨earlier, hEarlier, hPast, -, -, hRule⟩ :=
      hLawful'.cut hRecent
    rw [hRecent] at hCond
    obtain ⟨hMeanwhile, -⟩ := hCond.cut
    unfold chargesSub at hCharges
    split at hCharges
    · rename_i txn bills hEffect
      have hId : bills.subscriptionId = id :=
        beq_iff_eq.mp hCharges
      have hSince :
          UnbrokenSince (stopsSub id) listsSubs o.thread
            earlier.past := by
        rw [NotStoppedMeanwhile, hEffect] at hMeanwhile
        rw [hPast, ← hId]
        exact hMeanwhile
      rw [hEffect, hTick, ← hPast] at hRule
      obtain ⟨sub, hListed, -, hBills⟩ := hRule.bills
      rw [hBills] at hId
      exact active_between hEarlier hNone hPast hPause hId
        hListed hSince
    · cases hCharges

/- A weekly subscription, its cancellation, and passes. -/
private def stoppingOps : Nat → Op
  | 0 =>
      .intent
        (sampleInput .subscribe
          [sampleItems 1, ("cadence", .str "weekly"),
            samplePayment] none)
  | 1 =>
      .intent
        (sampleInput .cancelSubscription
          [("subscription_id", .str "sub_a")] none)
  | _ => .tickSubscriptions (Duration.days 7)

private theorem stoppingOps_cancels :
    CancelsSub concreteService (stoppingOps 1) "sub_a" :=
  ⟨_, _, rfl, rfl, rfl, rfl⟩

/- The subscription begins, and a pass lists it. -/
private def listedSchedule : List (Nat × Choice) :=
  [(0, {}), (0, { token := "a" }), (0, {}),
    (0, { token := "b" }), (0, {}), (0, {}),
    (2, { order := ["sub_a"] }), (2, {})]

/- The pass charges what it has listed. -/
private def chargingSchedule : List (Nat × Choice) :=
  [(2, { token := "c" }), (2, {}), (2, {}), (2, {}), (2, {})]

/- The cancellation, until it has answered. -/
private def cancelingSchedule : List (Nat × Choice) :=
  [(1, {}), (1, {}), (1, {}), (1, {}), (1, {}),
    (1, { token := "d" }), (1, {}), (1, {}), (1, {}),
    (1, { token := "e" }), (1, {}), (1, { token := "f" }),
    (1, {}), (1, {}), (1, { token := "g" }), (1, {}), (1, {}),
    (1, {}), (1, {})]

private def answeredOk
    (pool : Pool Eff.Res World OpResult)
    (thread : Nat) : Bool :=
  match pool.threads thread with
  | .ret (.response (.ok _)) => true
  | _ => false

private theorem succeeded_of_answeredOk
    {pool : Pool Eff.Res World OpResult}
    {thread : Nat}
    (hOk : answeredOk pool thread = true) :
    Succeeded pool thread := by
  unfold answeredOk at hOk
  split at hOk
  · rename_i body hReturned
    exact ⟨body, hReturned⟩
  · cases hOk

/- A pass can charge a subscription after its cancellation. -/
theorem pass_charges_canceled_subscription :
    ¬ ∀ svc ops w pool pool' later,
      w.locks = [] → w.issued = [] →
      Reaches svc ops w pool →
      pool.run (machine svc.deps.rfc3339) later = some pool' →
      StaysStopped svc ops pool pool' := by
  intro hAll
  have hRun :
      ((runOf concreteService stoppingOps (.fresh (.memory ∅) [])
        (listedSchedule ++ cancelingSchedule)).any fun pool =>
          answeredOk pool 1 &&
          (pool.run (machine concreteService.deps.rfc3339)
            chargingSchedule).any fun pool' =>
              decide
                (pool.history.past.countP (chargesSub "sub_a") <
                  pool'.history.past.countP
                    (chargesSub "sub_a"))) = true := by
    decide
  obtain ⟨pool, hPool, hChecks⟩ :=
    (Option.any_eq_true _ _).mp hRun
  rw [Bool.and_eq_true] at hChecks
  obtain ⟨hOk, hLater⟩ := hChecks
  obtain ⟨pool', hPool', hMore⟩ :=
    (Option.any_eq_true _ _).mp hLater
  have hMore := of_decide_eq_true hMore
  have hStays := hAll concreteService stoppingOps _ pool pool'
    chargingSchedule rfl rfl ⟨_, hPool⟩ hPool'
  obtain ⟨-, hUncharged⟩ := hStays.canceled 1 "sub_a"
    stoppingOps_cancels (succeeded_of_answeredOk hOk)
  obtain ⟨recent, hRecent⟩ := Pool.run_past hPool'
  have hNone : recent.countP (chargesSub "sub_a") = 0 := by
    rw [List.countP_eq_zero]
    intro o hMem
    rw [hUncharged recent hRecent o hMem]
    exact Bool.false_ne_true
  rw [hRecent, List.countP_append, hNone] at hMore
  omega

/-
  A pass charges the subscription, it is canceled, and a later
  pass finds nothing to charge.
-/
theorem subscription_stays_stopped_sample :
    ∃ pool pool',
      runOf concreteService stoppingOps (.fresh (.memory ∅) [])
        (listedSchedule ++ chargingSchedule ++
          cancelingSchedule) = some pool ∧
      Succeeded pool 1 ∧
      pool.run (machine concreteService.deps.rfc3339)
        [(3, {}), (3, {})] = some pool' ∧
      StaysStopped concreteService stoppingOps pool pool' := by
  have hRun :
      ((runOf concreteService stoppingOps (.fresh (.memory ∅) [])
        (listedSchedule ++ chargingSchedule ++
          cancelingSchedule)).any fun pool =>
          answeredOk pool 1 &&
          (pool.run (machine concreteService.deps.rfc3339)
            [(3, {}), (3, {})]).any fun pool' =>
              decide (Conforms NotStoppedMeanwhile
                pool'.history.past)) = true := by
    decide
  obtain ⟨pool, hPool, hChecks⟩ :=
    (Option.any_eq_true _ _).mp hRun
  rw [Bool.and_eq_true] at hChecks
  obtain ⟨hOk, hLater⟩ := hChecks
  obtain ⟨pool', hPool', hCond⟩ :=
    (Option.any_eq_true _ _).mp hLater
  exact ⟨pool, pool', hPool, succeeded_of_answeredOk hOk,
    hPool', subscription_stays_stopped concreteService
      stoppingOps _ rfl rfl pool pool' ⟨_, hPool⟩ _ hPool'
      (of_decide_eq_true hCond)⟩

end Protocol

end IcpHandler
