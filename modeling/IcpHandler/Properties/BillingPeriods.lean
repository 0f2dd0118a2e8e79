import IcpHandler.Model.Concrete
import IcpHandler.Protocol.Runs

/-
  What a subscription has been charged for. A charge and the
  write of its row are two steps, and a scheduler pass charges
  by its listing; so the books are right as long as each
  charge pays the period that the stored row has come to, and
  only one at a time is under way.

  Main declarations:
    * `billedPeriods`, `awaits`
    * `BilledInTurn`
    * `Account`, `Behind`
    * `billing_adds_up`
-/

------------------------------------------------------------
-- Charges and Their Rows
------------------------------------------------------------

namespace IcpHandler

namespace Protocol

open Model Service Concurrency

/- The period that a stored charge of the subscription pays. -/
def billedPeriod (id : String) : Happening → Option DateTime
  | ⟨_, .insertCharge txn bills, _, _, after⟩ =>
      if bills.subscriptionId = id ∧
          (after.transactions.get txn.id).any
            (·.state == .completed) then
        some bills.periodStart
      else none
  | _ => none

/- The periods charged so far, most recent first. -/
def billedPeriods
    (id : String)
    (past : Past) : List DateTime :=
  past.filterMap (billedPeriod id)

/- A charge of the subscription waits for its row. -/
def awaits
    (id : String)
    (past : Moves) : Bool :=
  (pendingCharge past).any (·.subscriptionId == id)

/-
  A charge is stored, pays the period that the stored row has
  come to, does not exhaust the counter, and finds no other
  charge of the subscription under way; and the row that a
  charge waits for is written.
-/
def BilledInTurn (past : Past) : Happening → Prop
  | ⟨_, .insertCharge txn bills, _, before, after⟩ =>
      (after.transactions.get txn.id).any
          (·.state == .completed) = true ∧
        (∀ other ∈ past,
          awaits bills.subscriptionId
            (own other.thread past) = false) ∧
        (before.subscriptions.get bills.subscriptionId).all
          (fun row =>
            row.currentPeriodEnd == bills.periodStart &&
              decide (row.chargesCompleted.toNat + 1 <
                2 ^ 32)) = true
  | ⟨_, .subs (.insert row), _, _, after⟩ =>
      (after.subscriptions.get row.id).isSome = true
  | ⟨thread, .subs (.update _ _), found, _, _⟩ =>
      (pendingCharge (own thread past)).isSome = true →
        found.isSome = true
  | _ => True

instance
    (past : Past)
    (o : Happening) :
    Decidable (BilledInTurn past o) := by
  unfold BilledInTurn
  split
  · infer_instance
  · infer_instance
  · infer_instance
  · infer_instance

section Pending

variable {svc : IcpService}
variable {op : Op}
variable {past : Moves}
variable {id : String}

theorem awaits_eq_false_iff :
    awaits id past = false ↔
      ∀ start, pendingCharge past ≠ some ⟨id, start⟩ := by
  unfold awaits
  cases hPending : pendingCharge past with
  | none => simp
  | some bills =>
      rw [Option.any_some, beq_eq_false_iff_ne]
      constructor
      · rintro hOther start hEq
        cases hEq
        exact hOther rfl
      · rintro hOther rfl
        exact hOther bills.periodStart rfl

/- A charge that is pending has been made. -/
theorem mem_of_pendingCharge
    {bills : Billing}
    (hPending : pendingCharge past = some bills) :
    ∃ txn, (⟨.insertCharge txn bills, ()⟩ : Move Eff.Res) ∈
      past := by
  induction past with
  | nil => cases hPending
  | cons move past ih =>
      rcases move with ⟨effect, answer⟩
      by_cases hCharge :
          ∃ txn other, effect = .insertCharge txn other
      · obtain ⟨txn, other, rfl⟩ := hCharge
        cases hPending
        exact ⟨txn, List.mem_cons_self⟩
      · have hOlder : pendingCharge past = some bills := by
          cases hTouch : effect.touchesSubs with
          | false =>
              rw [pendingCharge_cons hTouch] at hPending
              · exact hPending
              · exact fun txn other hEq =>
                  hCharge ⟨txn, other, hEq⟩
          | true =>
              cases effect with
              | subs op =>
                  cases op with
                  | insert row => cases hPending
                  | update key patch => cases hPending
                  | _ => cases hTouch
              | _ => cases hTouch
        obtain ⟨txn, hMem⟩ := ih hOlder
        exact ⟨txn, List.mem_cons_of_mem _ hMem⟩

/- A write of a row ends what was pending. -/
theorem pendingCharge_write
    (move : Move Eff.Res)
    (hWrites : move.effect.touchesSubs = true) :
    pendingCharge (move :: past) = none := by
  rcases move with ⟨effect, answer⟩
  cases effect with
  | subs op =>
      cases op with
      | insert row => rfl
      | update key patch => rfl
      | _ => cases hWrites
  | _ => cases hWrites

/-
  The two kinds of updates: those that follow no charge keep
  the period and the counter, and those that follow one, of
  the same subscription, move both on.
-/
inductive Updates
    (past : Moves)
    (id : String)
    (patch : SubPatch) : Prop where
  | marks
      (hNone : pendingCharge past = none)
      (hEnd :
        ∀ row, (patch.apply row).currentPeriodEnd =
          row.currentPeriodEnd)
      (hCount :
        ∀ row, (patch.apply row).chargesCompleted =
          row.chargesCompleted)
  | advances
      (start : DateTime)
      (hPending : pendingCharge past = some ⟨id, start⟩)
      (hEnd :
        ∀ row, start < (patch.apply row).currentPeriodEnd)
      (hCount :
        ∀ row : Subscription,
          (patch.apply row).chargesCompleted =
              Saturating.satAdd32 row.chargesCompleted 1 ∨
            ∃ sub, ListedSub sub past ∧ sub.id = id ∧
              sub.currentPeriodEnd = start ∧
              (patch.apply row).chargesCompleted =
                Saturating.satAdd32 sub.chargesCompleted 1)

theorem updates_cases
    {patch : SubPatch}
    (hRule : Rule svc op past (.subs (.update id patch))) :
    Updates past id patch := by
  cases patch with
  | renew periodStart periodEnd txnId payment jti now =>
      obtain ⟨input, sub, -, -, -, -, -, hPending, -, hEnd⟩ :=
        hRule
      refine .advances periodStart hPending ?_ ?_
      · intro row
        change periodStart < periodEnd
        rw [hEnd]
        exact lt_periodAdvance _ _ _
      · exact fun row => .inl rfl
  | autoRenew periodStart periodEnd charges txnId now =>
      obtain ⟨tick, sub, -, hListed, hId, hPending, hStart,
        hEnd, hCharges⟩ := hRule
      refine .advances periodStart hPending ?_ ?_
      · intro row
        change periodStart < periodEnd
        rw [hEnd]
        exact lt_periodAdvance _ _ _
      · exact fun row =>
          .inr ⟨sub, hListed, hId, hStart.symm, hCharges⟩
  | pause now =>
      obtain ⟨input, sub, -, -, -, -, hNone⟩ := hRule
      exact .marks hNone (fun _ => rfl) (fun _ => rfl)
  | cancel now =>
      obtain ⟨input, sub, -, -, -, -, hNone⟩ := hRule
      exact .marks hNone (fun _ => rfl) (fun _ => rfl)
  | chargeFailed failures most nextAttempt now =>
      obtain ⟨tick, sub, -, -, -, hNone⟩ := hRule
      exact .marks hNone (fun _ => rfl) (fun _ => rfl)

/- Who writes a row has charged nothing, or that row. -/
theorem pending_at_write
    {effect : Eff}
    (hRule : Rule svc op past effect)
    {start : DateTime}
    (hPending : pendingCharge past = some ⟨id, start⟩) :
    (∀ row, effect = .subs (.insert row) → row.id = id) ∧
      (∀ key patch, effect = .subs (.update key patch) →
        key = id) ∧
      ∀ txn bills, effect ≠ .insertCharge txn bills := by
  refine ⟨?_, ?_, ?_⟩
  · rintro row rfl
    obtain ⟨input, -, hInsert⟩ := hRule
    rcases hInsert.charged with ⟨hNone, -⟩ | ⟨hSome, -⟩
    · rw [hPending] at hNone
      cases hNone
    · rw [hPending] at hSome
      cases hSome
      rfl
  · rintro key patch rfl
    cases updates_cases hRule with
    | marks hNone hEnd hCount =>
        rw [hPending] at hNone
        cases hNone
    | advances begun hSome hEnd hCount =>
        rw [hPending] at hSome
        cases hSome
        rfl
  · rintro txn bills rfl
    have hNone := hRule.settled
    rw [hPending] at hNone
    cases hNone

end Pending

end Protocol

end IcpHandler

------------------------------------------------------------
-- Accounts
------------------------------------------------------------

namespace IcpHandler

namespace Protocol

open Model Service Concurrency

/- The row has counted the periods, and has gone past them. -/
structure Tally
    (periods : List DateTime)
    (row : Subscription) : Prop where
  count : periods.length = row.chargesCompleted.toNat
  nodup : periods.Nodup
  below : ∀ start ∈ periods, start < row.currentPeriodEnd

/- The account of one subscription, in its four phases. -/
inductive Account
    (id : String)
    (h : History Eff.Res World) : Prop where
  | unborn
      (hRow : h.world.subscriptions.get id = none)
      (hBilled : billedPeriods id h.past = [])
      (hIdle : ∀ thread, awaits id (own thread h.past) = false)
  | opening
      (thread : Nat)
      (start : DateTime)
      (hRow : h.world.subscriptions.get id = none)
      (hBilled : billedPeriods id h.past = [start])
      (hPending :
        pendingCharge (own thread h.past) = some ⟨id, start⟩)
      (hFresh :
        Fresh Eff.touchesSubs "sub_" id (own thread h.past))
      (hOthers :
        ∀ other, other ≠ thread →
          awaits id (own other h.past) = false)
  | settled
      (row : Subscription)
      (hRow : h.world.subscriptions.get id = some row)
      (hTally : Tally (billedPeriods id h.past) row)
      (hIdle : ∀ thread, awaits id (own thread h.past) = false)
  | billing
      (thread : Nat)
      (row : Subscription)
      (periods : List DateTime)
      (hRow : h.world.subscriptions.get id = some row)
      (hBilled :
        billedPeriods id h.past =
          row.currentPeriodEnd :: periods)
      (hTally : Tally periods row)
      (hRoom : row.chargesCompleted.toNat + 1 < 2 ^ 32)
      (hPending :
        pendingCharge (own thread h.past) =
          some ⟨id, row.currentPeriodEnd⟩)
      (hOthers :
        ∀ other, other ≠ thread →
          awaits id (own other h.past) = false)

/- A listed row is the stored one, or an earlier one. -/
def Behind
    (sub : Subscription)
    (w : World) : Prop :=
  ∃ row, w.subscriptions.get sub.id = some row ∧
    sub.currentPeriodEnd ≤ row.currentPeriodEnd ∧
    (sub.currentPeriodEnd = row.currentPeriodEnd →
      sub.chargesCompleted = row.chargesCompleted)

section Accounts

variable {svc : IcpService}
variable {ops : Nat → Op}
variable {w : World}
variable {h : History Eff.Res World}
variable {o : Happening}
variable {id : String}

/- The tally after the period has been paid for. -/
theorem Tally.advance
    {periods : List DateTime}
    {row row' : Subscription}
    (hTally : Tally periods row)
    (hRoom : row.chargesCompleted.toNat + 1 < 2 ^ 32)
    (hEnd : row.currentPeriodEnd < row'.currentPeriodEnd)
    (hCount :
      row'.chargesCompleted =
        Saturating.satAdd32 row.chargesCompleted 1) :
    Tally (row.currentPeriodEnd :: periods) row' where
  count := by
    have hFits :
        row.chargesCompleted.toNat + (1 : UInt32).toNat <
          UInt32.size :=
      hRoom
    rw [List.length_cons, hTally.count, hCount,
      Saturating.toNat_satAdd32 hFits]
    rfl
  nodup := by
    refine List.nodup_cons.mpr ⟨?_, hTally.nodup⟩
    intro hMem
    exact lt_irrefl _ (hTally.below _ hMem)
  below := by
    intro start hMem
    rcases List.mem_cons.mp hMem with rfl | hMem
    · exact hEnd
    · exact (hTally.below start hMem).trans hEnd

theorem Tally.congr
    {periods : List DateTime}
    {row row' : Subscription}
    (hTally : Tally periods row)
    (hEnd : row'.currentPeriodEnd = row.currentPeriodEnd)
    (hCount : row'.chargesCompleted = row.chargesCompleted) :
    Tally periods row' where
  count := by
    rw [hTally.count, hCount]
  nodup := hTally.nodup
  below := by
    rw [hEnd]
    exact hTally.below

/- What is pending is the account's own charge. -/
theorem Account.of_pending
    (hAccount : Account id h)
    {thread : Nat}
    {start : DateTime}
    (hPending :
      pendingCharge (own thread h.past) = some ⟨id, start⟩) :
    (h.world.subscriptions.get id = none ∧
        billedPeriods id h.past = [start] ∧
        Fresh Eff.touchesSubs "sub_" id
          (own thread h.past)) ∨
      ∃ row periods,
        h.world.subscriptions.get id = some row ∧
        row.currentPeriodEnd = start ∧
        billedPeriods id h.past = start :: periods ∧
        Tally periods row ∧
        row.chargesCompleted.toNat + 1 < 2 ^ 32 := by
  have hNot : awaits id (own thread h.past) ≠ false := by
    intro hFalse
    exact awaits_eq_false_iff.mp hFalse start hPending
  cases hAccount with
  | unborn hRow hBilled hIdle => exact absurd (hIdle _) hNot
  | opening holder begun hRow hBilled hBegun hFresh hOthers =>
      have hThread : thread = holder := by
        by_contra hOther
        exact hNot (hOthers thread hOther)
      subst hThread
      rw [hPending] at hBegun
      cases hBegun
      exact .inl ⟨hRow, hBilled, hFresh⟩
  | settled row hRow hTally hIdle =>
      exact absurd (hIdle _) hNot
  | billing holder row periods hRow hBilled hTally hRoom hBegun
      hOthers =>
      have hThread : thread = holder := by
        by_contra hOther
        exact hNot (hOthers thread hOther)
      subst hThread
      rw [hPending] at hBegun
      cases hBegun
      exact .inr ⟨row, periods, hRow, rfl, hBilled, hTally,
        hRoom⟩

/- Nobody else waits for a row while somebody does. -/
theorem Account.others
    (hAccount : Account id h)
    {thread : Nat}
    {start : DateTime}
    (hPending :
      pendingCharge (own thread h.past) = some ⟨id, start⟩) :
    ∀ other, other ≠ thread →
      awaits id (own other h.past) = false := by
  have hNot : awaits id (own thread h.past) ≠ false := by
    intro hFalse
    exact awaits_eq_false_iff.mp hFalse start hPending
  cases hAccount with
  | unborn hRow hBilled hIdle => exact absurd (hIdle _) hNot
  | settled row hRow hTally hIdle =>
      exact absurd (hIdle _) hNot
  | opening holder begun hRow hBilled hBegun hFresh hOthers =>
      have hThread : thread = holder := by
        by_contra hOther
        exact hNot (hOthers thread hOther)
      subst hThread
      exact hOthers
  | billing holder row periods hRow hBilled hTally hRoom hBegun
      hOthers =>
      have hThread : thread = holder := by
        by_contra hOther
        exact hNot (hOthers thread hOther)
      subst hThread
      exact hOthers

end Accounts

end Protocol

end IcpHandler

------------------------------------------------------------
-- Steps of an Account
------------------------------------------------------------

namespace IcpHandler

namespace Protocol

open Model Service Concurrency

/- The occurrence has nothing to do with the account. -/
structure Apart
    (id : String)
    (past : Past)
    (o : Happening) : Prop where
  row :
    o.after.subscriptions.get id = o.before.subscriptions.get id
  inserts :
    ∀ row, o.effect = .subs (.insert row) → row.id ≠ id
  updates :
    ∀ patch, o.effect = .subs (.update id patch) →
      pendingCharge (own o.thread past) = none
  charges :
    ∀ txn bills, o.effect = .insertCharge txn bills →
      bills.subscriptionId ≠ id

section Steps

variable {svc : IcpService}
variable {ops : Nat → Op}
variable {w : World}
variable {h : History Eff.Res World}
variable {o : Happening}
variable {id : String}

theorem billedPeriods_cons_none
    {past : Past}
    (hNone : billedPeriod id o = none) :
    billedPeriods id (o :: past) = billedPeriods id past :=
  List.filterMap_cons_none hNone

theorem billedPeriods_cons_some
    {past : Past}
    {start : DateTime}
    (hSome : billedPeriod id o = some start) :
    billedPeriods id (o :: past) =
      start :: billedPeriods id past :=
  List.filterMap_cons_some hSome

/- Only a charge of the subscription is billed to it. -/
theorem billedPeriod_eq_none
    (hOther :
      ∀ txn bills, o.effect = .insertCharge txn bills →
        bills.subscriptionId ≠ id) :
    billedPeriod id o = none := by
  unfold billedPeriod
  split
  · rename_i thread txn bills answer before after
    rw [if_neg]
    rintro ⟨hId, -⟩
    exact hOther txn bills rfl hId
  · rfl

theorem Apart.pending_iff
    {op : Op}
    {past : Past}
    (hApart : Apart id past o)
    (hRule : Rule svc op (own o.thread past) o.effect)
    (thread : Nat)
    (start : DateTime) :
    pendingCharge (own thread (o :: past)) =
        some ⟨id, start⟩ ↔
      pendingCharge (own thread past) = some ⟨id, start⟩ := by
  rw [own_cons]
  split
  · rename_i hThread
    subst hThread
    cases hTouch : o.effect.touchesSubs with
    | true =>
        rw [pendingCharge_write o.move hTouch]
        refine ⟨fun hNo => (by cases hNo), fun hPending => ?_⟩
        obtain ⟨hInsert, hUpdate, -⟩ :=
          pending_at_write hRule hPending
        cases hEffect : o.effect with
        | subs op =>
            cases op with
            | insert row =>
                exact absurd (hInsert row hEffect)
                  (hApart.inserts row hEffect)
            | update key patch =>
                have hKey := hUpdate key patch hEffect
                subst hKey
                have hNone := hApart.updates patch hEffect
                rw [hPending] at hNone
                cases hNone
            | _ =>
                rw [hEffect] at hTouch
                cases hTouch
        | _ =>
            rw [hEffect] at hTouch
            cases hTouch
    | false =>
        by_cases hCharge :
            ∃ txn bills, o.effect = .insertCharge txn bills
        · obtain ⟨txn, bills, hEffect⟩ := hCharge
          have hOther := hApart.charges txn bills hEffect
          rcases o with ⟨thread, effect, answer, before, after⟩
          cases hEffect
          have hNone := hRule.settled
          dsimp only at hNone ⊢
          rw [hNone]
          refine ⟨fun hPending => ?_, fun hNo => (by cases hNo)⟩
          cases hPending
          exact absurd rfl hOther
        · have hCons :
              pendingCharge (o.move :: own o.thread past) =
                pendingCharge (own o.thread past) :=
            pendingCharge_cons hTouch fun txn bills hEq =>
              hCharge ⟨txn, bills, hEq⟩
          rw [hCons]
  · exact Iff.rfl

/- Whoever has a charge under way writes no other row. -/
theorem Apart.quiet_of_pending
    {op : Op}
    {past : Past}
    (hApart : Apart id past o)
    (hRule : Rule svc op (own o.thread past) o.effect)
    {start : DateTime}
    (hPending :
      pendingCharge (own o.thread past) = some ⟨id, start⟩) :
    o.effect.touchesSubs = false := by
  rw [Bool.eq_false_iff]
  intro hTouch
  have hStill :=
    (hApart.pending_iff hRule o.thread start).mpr hPending
  rw [own_cons_self,
    pendingCharge_write o.move hTouch] at hStill
  cases hStill

theorem Apart.awaits_eq
    {op : Op}
    {past : Past}
    (hApart : Apart id past o)
    (hRule : Rule svc op (own o.thread past) o.effect)
    {thread : Nat}
    (hIdle : awaits id (own thread past) = false) :
    awaits id (own thread (o :: past)) = false := by
  refine awaits_eq_false_iff.mpr fun start hPending => ?_
  exact awaits_eq_false_iff.mp hIdle start
    ((hApart.pending_iff hRule thread start).mp hPending)

/- What is apart from the account leaves it in its phase. -/
theorem Account.push_apart
    (hAccount : Account id h)
    (hBefore : o.before = h.world)
    (hRule :
      Rule svc (ops o.thread) (own o.thread h.past) o.effect)
    (hApart : Apart id h.past o) :
    Account id (h.push o) := by
  have hSame :
      (h.push o).world.subscriptions.get id =
        h.world.subscriptions.get id := by
    rw [History.push_world, hApart.row, hBefore]
  have hPeriods :
      billedPeriods id (h.push o).past =
        billedPeriods id h.past :=
    billedPeriods_cons_none
      (billedPeriod_eq_none hApart.charges)
  cases hAccount with
  | unborn hRow hBilled hIdle =>
      refine .unborn ?_ ?_ ?_
      · rw [hSame, hRow]
      · rw [hPeriods, hBilled]
      · exact fun thread => hApart.awaits_eq hRule (hIdle thread)
  | opening thread start hRow hBilled hPending hFresh hOthers =>
      refine .opening thread start ?_ ?_ ?_ ?_ ?_
      · rw [hSame, hRow]
      · rw [hPeriods, hBilled]
      · exact (hApart.pending_iff hRule thread start).mpr
          hPending
      · rw [History.push_past, own_cons]
        split
        · rename_i hThread
          subst hThread
          exact hFresh.cons
            (hApart.quiet_of_pending hRule hPending)
        · exact hFresh
      · exact fun other hOther =>
          hApart.awaits_eq hRule (hOthers other hOther)
  | settled row hRow hTally hIdle =>
      refine .settled row ?_ ?_ ?_
      · rw [hSame, hRow]
      · rw [hPeriods]
        exact hTally
      · exact fun thread => hApart.awaits_eq hRule (hIdle thread)
  | billing thread row periods hRow hBilled hTally hRoom hPending
      hOthers =>
      refine .billing thread row periods ?_ ?_ hTally hRoom ?_ ?_
      · rw [hSame, hRow]
      · rw [hPeriods, hBilled]
      · exact (hApart.pending_iff hRule thread _).mpr hPending
      · exact fun other hOther =>
          hApart.awaits_eq hRule (hOthers other hOther)

/- A subscription somebody has read is stored for good. -/
theorem SeenSub.isSome
    (hLawful : LawfulRun svc ops w h)
    {thread : Nat}
    {sub : Subscription}
    (hSeen : SeenSub id sub (own thread h.past)) :
    (h.world.subscriptions.get id).isSome = true := by
  obtain ⟨read, hMem, -, hMove⟩ :=
    mem_own_iff.mp (ReadUnder.since hSeen).mem
  obtain ⟨recent, older, hPast⟩ := List.append_of_mem hMem
  have hExec := hLawful.executes hMem
  refine Lawful.since (P := fun w =>
    (w.subscriptions.get id).isSome = true) (fun _ => false)
    hLawful hPast ?_ ?_ (fun _ _ => rfl)
  · refine hExec.sub_kept ?_
    rw [hExec.readSub hMove]
    rfl
  · intro h o _ hAllows _ hStored _
    refine (executes_of_allows hAllows).sub_kept ?_
    rw [hAllows.before_eq]
    exact hStored

/- No charge is under way where no thread has made one. -/
theorem idle_of_past
    {past : Past}
    (hIdle :
      ∀ other ∈ past,
        awaits id (own other.thread past) = false)
    (thread : Nat) :
    awaits id (own thread past) = false := by
  by_cases hMoved : ∃ other ∈ past, other.thread = thread
  · obtain ⟨other, hMem, rfl⟩ := hMoved
    exact hIdle other hMem
  · have hNone : own thread past = [] :=
      own_eq_nil fun other hMem hThread =>
        hMoved ⟨other, hMem, hThread⟩
    rw [hNone]
    rfl

/- A charge opens the account, or bills its next period. -/
theorem Account.push_charge
    (hAccount : Account id h)
    (hLawful : LawfulRun svc ops w h)
    (hListed :
      ∀ sub, ListedSub sub (own o.thread h.past) →
        Behind sub h.world)
    (hExec : Executes svc.deps.rfc3339 o)
    (hBefore : o.before = h.world)
    (hRule :
      Rule svc (ops o.thread) (own o.thread h.past) o.effect)
    (hCond : BilledInTurn h.past o)
    {txn : Transaction}
    {start : DateTime}
    (hEffect : o.effect = .insertCharge txn ⟨id, start⟩) :
    Account id (h.push o) := by
  have hQuiet : o.effect.touchesSubs = false := by
    rw [hEffect]
    rfl
  have hSame :
      (h.push o).world.subscriptions.get id =
        h.world.subscriptions.get id := by
    rw [History.push_world, hExec.framed.subscriptions hQuiet,
      hBefore]
  -- What the condition says about this charge.
  have hParts :
      billedPeriod id o = some start ∧
        (∀ other ∈ h.past,
          awaits id (own other.thread h.past) = false) ∧
        (h.world.subscriptions.get id).all
          (fun row => row.currentPeriodEnd == start &&
            decide (row.chargesCompleted.toNat + 1 <
              2 ^ 32)) = true := by
    rcases o with ⟨thread, effect, answer, before, after⟩
    cases hEffect
    cases hBefore
    obtain ⟨hStored, hAlone, hPeriod⟩ := hCond
    refine ⟨?_, hAlone, hPeriod⟩
    rw [billedPeriod, if_pos ⟨rfl, hStored⟩]
  obtain ⟨hBilled, hAlone, hPeriod⟩ := hParts
  have hIdle := idle_of_past hAlone
  have hPeriods :
      billedPeriods id (o :: h.past) =
        start :: billedPeriods id h.past :=
    billedPeriods_cons_some hBilled
  have hPending :
      pendingCharge (own o.thread (h.push o).past) =
        some ⟨id, start⟩ := by
    rw [History.push_past, own_cons_self]
    rcases o with ⟨thread, effect, answer, before, after⟩
    cases hEffect
    rfl
  have hOthers :
      ∀ other, other ≠ o.thread →
        awaits id (own other (h.push o).past) = false := by
    intro other hOther
    rw [History.push_past, own_cons_other (Ne.symm hOther)]
    exact hIdle other
  have hCharge :
      MayCharge (ops o.thread) (own o.thread h.past) txn
        ⟨id, start⟩ := by
    rw [hEffect] at hRule
    exact hRule
  cases hAccount with
  | unborn hRow hNone _ =>
      refine .opening o.thread start ?_ ?_ hPending ?_ hOthers
      · rw [hSame, hRow]
      · rw [History.push_past, hPeriods, hNone]
      · -- An id that was read or listed would be stored.
        have hFresh :
            Fresh Eff.touchesSubs "sub_" id
              (own o.thread h.past) := by
          have hBills := hCharge.bills
          unfold MayBill at hBills
          split at hBills
          · rcases hBills.2 with hFresh | ⟨sub, hSeen, -⟩
            · exact hFresh
            · have hStored := hSeen.isSome hLawful
              rw [hRow] at hStored
              cases hStored
          · obtain ⟨sub, hList, -, hEq⟩ := hBills
            obtain ⟨row, hStored, -⟩ := hListed sub hList
            cases hEq
            rw [hRow] at hStored
            cases hStored
          · exact hBills.elim
        rw [History.push_past, own_cons_self]
        exact hFresh.cons hQuiet
  | opening thread begun _ _ hBegun _ _ =>
      exact absurd hBegun
        (awaits_eq_false_iff.mp (hIdle thread) begun)
  | settled row hRow hTally _ =>
      rw [hRow, Option.all_some, Bool.and_eq_true, beq_iff_eq,
        decide_eq_true_eq] at hPeriod
      obtain ⟨rfl, hRoom⟩ := hPeriod
      refine .billing o.thread row (billedPeriods id h.past) ?_ ?_
        hTally hRoom hPending hOthers
      · rw [hSame, hRow]
      · rw [History.push_past, hPeriods]
  | billing thread row periods _ _ _ _ hBegun _ =>
      exact absurd hBegun
        (awaits_eq_false_iff.mp (hIdle thread) _)

/- A new row takes up what its subscribe has charged. -/
theorem Account.push_insert
    (hAccount : Account id h)
    (hLawful : LawfulRun svc ops w h)
    (hNone : w.issued = [])
    (hExec : Executes svc.deps.rfc3339 o)
    (hBefore : o.before = h.world)
    (hRule :
      Rule svc (ops o.thread) (own o.thread h.past) o.effect)
    (hCond : BilledInTurn h.past o)
    {sub : Subscription}
    (hEffect : o.effect = .subs (.insert sub))
    (hId : sub.id = id) :
    Account id (h.push o) := by
  have hInsert :
      ∃ input, ops o.thread = .intent input ∧
        MayInsertSub input (own o.thread h.past) sub := by
    rw [hEffect] at hRule
    exact hRule
  obtain ⟨input, -, hMay⟩ := hInsert
  have hFresh := hMay.id
  have hCharged := hMay.charged
  rw [hId] at hFresh hCharged
  have hRow := hLawful.unstored_of_fresh hNone o.thread hFresh
  -- The row is stored, by the condition.
  have hAfter : o.after.subscriptions.get id = some sub := by
    have hLands : (o.after.subscriptions.get id).isSome = true := by
      rcases o with ⟨thread, effect, answer, before, after⟩
      cases hEffect
      rw [← hId]
      exact hCond
    cases hExec.subChange id with
    | kept hKept =>
        rw [hKept, hBefore, hRow] at hLands
        cases hLands
    | inserted row hInserts _ hStored =>
        rw [hEffect] at hInserts
        cases hInserts
        exact hStored
    | patched patch row hMove _ _ =>
        have hUpdates := congrArg Move.effect hMove
        change o.effect = _ at hUpdates
        rw [hEffect] at hUpdates
        cases hUpdates
  have hPeriods :
      billedPeriods id (h.push o).past =
        billedPeriods id h.past := by
    refine billedPeriods_cons_none (billedPeriod_eq_none ?_)
    intro txn bills hCharge
    rw [hEffect] at hCharge
    cases hCharge
  have hTouch : o.move.effect.touchesSubs = true := by
    change o.effect.touchesSubs = true
    rw [hEffect]
    rfl
  have hIdle :
      (∀ other, other ≠ o.thread →
        awaits id (own other h.past) = false) →
      ∀ thread, awaits id (own thread (h.push o).past) =
        false := by
    intro hOthers thread
    rw [History.push_past, own_cons]
    split
    · rw [awaits, pendingCharge_write _ hTouch]
      rfl
    · rename_i hOther
      exact hOthers thread (Ne.symm hOther)
  rcases hCharged with
    ⟨hUncharged, hCount, -⟩ | ⟨hPending, hCount, -, hBelow⟩
  · -- A trial: nothing has been charged, by anybody.
    have hNobody : Account id h → billedPeriods id h.past = [] ∧
        ∀ thread, awaits id (own thread h.past) = false := by
      intro hAccount
      cases hAccount with
      | unborn _ hBilled hQuiet => exact ⟨hBilled, hQuiet⟩
      | opening thread start _ _ hBegun hOther _ =>
          have hThread : o.thread = thread :=
            (hLawful.tokensKept hNone).one_fresh hFresh hOther
          subst hThread
          rw [hUncharged] at hBegun
          cases hBegun
      | settled row hStored _ _ =>
          rw [hRow] at hStored
          cases hStored
      | billing thread row periods hStored _ _ _ _ _ =>
          rw [hRow] at hStored
          cases hStored
    obtain ⟨hBilled, hQuiet⟩ := hNobody hAccount
    refine .settled sub hAfter ?_
      (hIdle fun other _ => hQuiet other)
    rw [hPeriods, hBilled]
    refine ⟨?_, List.nodup_nil, ?_⟩
    · rw [hCount]
      rfl
    · intro start hMem
      cases hMem
  · -- The first charge, which only this thread awaits.
    rcases hAccount.of_pending hPending with
      ⟨-, hBilled, -⟩ | ⟨row, periods, hStored, -⟩
    · refine .settled sub hAfter ?_
        (hIdle (hAccount.others hPending))
      rw [hPeriods, hBilled]
      refine ⟨?_, List.nodup_singleton _, ?_⟩
      · rw [hCount]
        rfl
      · intro start hMem
        rw [List.mem_singleton.mp hMem]
        exact hBelow
    · rw [hRow] at hStored
      cases hStored

/- What an update that lands does to the account. -/
theorem Account.push_update
    (hAccount : Account id h)
    (hListed :
      ∀ sub, ListedSub sub (own o.thread h.past) →
        Behind sub h.world)
    (hExec : Executes svc.deps.rfc3339 o)
    (hBefore : o.before = h.world)
    (hRule :
      Rule svc (ops o.thread) (own o.thread h.past) o.effect)
    {patch : SubPatch}
    {updated : Subscription}
    (hMove :
      o.move = ⟨.subs (.update id patch), some updated⟩) :
    Account id (h.push o) := by
  have hEffect : o.effect = .subs (.update id patch) :=
    congrArg Move.effect hMove
  obtain ⟨row, hRow, rfl, hAfter⟩ := hExec.updatedSub hMove
  rw [hBefore] at hRow
  have hTouch : o.move.effect.touchesSubs = true := by
    change o.effect.touchesSubs = true
    rw [hEffect]
    rfl
  have hPeriods :
      billedPeriods id (h.push o).past =
        billedPeriods id h.past := by
    refine billedPeriods_cons_none (billedPeriod_eq_none ?_)
    intro txn bills hCharge
    rw [hEffect] at hCharge
    cases hCharge
  have hWritten :
      awaits id (own o.thread (h.push o).past) = false := by
    rw [History.push_past, own_cons_self, awaits,
      pendingCharge_write _ hTouch]
    rfl
  have hElsewhere :
      ∀ other, other ≠ o.thread →
        own other (h.push o).past = own other h.past := by
    intro other hOther
    rw [History.push_past, own_cons_other (Ne.symm hOther)]
  rw [hEffect] at hRule
  cases updates_cases hRule with
  | marks hUncharged hEnd hCount =>
      cases hAccount with
      | unborn hNone _ _ =>
          rw [hRow] at hNone
          cases hNone
      | opening thread start hNone _ _ _ _ =>
          rw [hRow] at hNone
          cases hNone
      | settled found hFound hTally hIdle =>
          rw [hRow] at hFound
          cases hFound
          refine .settled _ hAfter ?_ ?_
          · rw [hPeriods]
            exact hTally.congr (hEnd row) (hCount row)
          · intro thread
            by_cases hThread : thread = o.thread
            · rw [hThread]
              exact hWritten
            · rw [hElsewhere thread hThread]
              exact hIdle thread
      | billing thread found periods hFound hBilled hTally hRoom
          hPending hOthers =>
          rw [hRow] at hFound
          cases hFound
          have hOther : thread ≠ o.thread := by
            rintro rfl
            rw [hUncharged] at hPending
            cases hPending
          refine .billing thread (patch.apply row) periods hAfter
            ?_ (hTally.congr (hEnd row) (hCount row)) ?_ ?_ ?_
          · rw [hPeriods, hBilled, hEnd]
          · rw [hCount]
            exact hRoom
          · rw [hElsewhere thread hOther, hPending, hEnd]
          · intro other hNot
            by_cases hThread : other = o.thread
            · rw [hThread]
              exact hWritten
            · rw [hElsewhere other hThread]
              exact hOthers other hNot
  | advances start hPending hEnd hCount =>
      rcases hAccount.of_pending hPending with ⟨hNone, -⟩ |
        ⟨found, periods, hFound, rfl, hBilled, hTally, hRoom⟩
      · rw [hRow] at hNone
        cases hNone
      · rw [hRow] at hFound
        cases hFound
        -- A pass counts on from its listing, which is this row.
        have hNext :
            (patch.apply row).chargesCompleted =
              Saturating.satAdd32 row.chargesCompleted 1 := by
          rcases hCount row with
            hNext | ⟨sub, hList, rfl, hSame, hNext⟩
          · exact hNext
          · obtain ⟨stored, hStored, -, hCounted⟩ :=
              hListed sub hList
            rw [hRow] at hStored
            cases hStored
            rw [hNext, hCounted hSame]
        refine .settled _ hAfter ?_ ?_
        · rw [hPeriods, hBilled]
          exact hTally.advance hRoom (hEnd row) hNext
        · intro thread
          by_cases hThread : thread = o.thread
          · rw [hThread]
            exact hWritten
          · rw [hElsewhere thread hThread]
            exact hAccount.others hPending thread hThread

/- A listed row falls behind, but is never ahead. -/
theorem Behind.push
    {sub : Subscription}
    (hBehind : Behind sub h.world)
    (hAccount : Account sub.id h)
    (hLawful : LawfulRun svc ops w h)
    (hNone : w.issued = [])
    (hExec : Executes svc.deps.rfc3339 o)
    (hBefore : o.before = h.world)
    (hRule :
      Rule svc (ops o.thread) (own o.thread h.past) o.effect) :
    Behind sub o.after := by
  obtain ⟨row, hRow, hEnd, hCount⟩ := hBehind
  cases hExec.subChange sub.id with
  | kept hKept =>
      refine ⟨row, ?_, hEnd, hCount⟩
      rw [hKept, hBefore]
      exact hRow
  | inserted new hEffect hId hAfter =>
      rw [hEffect] at hRule
      obtain ⟨input, -, hInsert⟩ := hRule
      have hFresh := hInsert.id
      rw [hId] at hFresh
      rw [hLawful.unstored_of_fresh hNone o.thread hFresh]
        at hRow
      cases hRow
  | patched patch found hMove hFound hAfter =>
      rw [hBefore, hRow] at hFound
      cases hFound
      have hEffect : o.effect = .subs (.update sub.id patch) :=
        congrArg Move.effect hMove
      rw [hEffect] at hRule
      cases updates_cases hRule with
      | marks _ hSameEnd hSameCount =>
          refine ⟨_, hAfter, ?_, ?_⟩
          · rw [hSameEnd]
            exact hEnd
          · rw [hSameEnd, hSameCount]
            exact hCount
      | advances start hPending hLater _ =>
          rcases hAccount.of_pending hPending with
            ⟨hUnborn, -⟩ | ⟨stored, periods, hStored, rfl, -⟩
          · rw [hRow] at hUnborn
            cases hUnborn
          · rw [hRow] at hStored
            cases hStored
            have hBeyond := hEnd.trans_lt (hLater row)
            exact ⟨_, hAfter, hBeyond.le, fun hEq =>
              absurd hEq hBeyond.ne⟩

end Steps

end Protocol

end IcpHandler

------------------------------------------------------------
-- The Books
------------------------------------------------------------

namespace IcpHandler

namespace Protocol

open Model Service Concurrency

/- Every account is in a phase, and no listing is ahead. -/
structure Books (h : History Eff.Res World) : Prop where
  accounts : ∀ id, Account id h
  listed :
    ∀ thread sub, ListedSub sub (own thread h.past) →
      Behind sub h.world

/- Every operation that has charged it has returned. -/
def NotInProgress
    (id : String)
    (pool : Pool Eff.Res World OpResult) : Prop :=
  ∀ thread,
    (∃ result, pool.threads thread = .ret result) ∨
      ∀ o ∈ pool.history.past, o.thread = thread →
        billedPeriod id o = none

/-
  No period is billed twice; and where nothing is in progress,
  the counter of the row is the number of charges.
-/
structure BillsAddUp
    (pool : Pool Eff.Res World OpResult)
    (id : String) : Prop where
  once : (billedPeriods id pool.history.past).Nodup
  counted :
    NotInProgress id pool →
      ∀ row,
        pool.history.world.subscriptions.get id = some row →
        row.chargesCompleted.toNat =
          (billedPeriods id pool.history.past).length
  unstored :
    NotInProgress id pool →
      pool.history.world.subscriptions.get id = none →
      billedPeriods id pool.history.past = []

section Books

variable {svc : IcpService}
variable {ops : Nat → Op}
variable {w : World}
variable {h : History Eff.Res World}
variable {o : Happening}
variable {id : String}

/- A step is a charge, a new row, an update, or apart. -/
theorem apart_of_not
    (hExec : Executes svc.deps.rfc3339 o)
    (hCond : BilledInTurn h.past o)
    (hCharge :
      ¬ ∃ txn start, o.effect = .insertCharge txn ⟨id, start⟩)
    (hInsert :
      ¬ ∃ row, o.effect = .subs (.insert row) ∧ row.id = id)
    (hUpdate :
      ¬ ∃ patch updated,
        o.move = ⟨.subs (.update id patch), some updated⟩) :
    Apart id h.past o where
  row := by
    cases hExec.subChange id with
    | kept hKept => exact hKept
    | inserted row hEffect hId _ =>
        exact absurd ⟨row, hEffect, hId⟩ hInsert
    | patched patch row hMove _ _ =>
        exact absurd ⟨patch, _, hMove⟩ hUpdate
  inserts := fun row hEffect hId =>
    hInsert ⟨row, hEffect, hId⟩
  updates := by
    intro patch hEffect
    rcases o with ⟨thread, effect, answer, before, after⟩
    cases hEffect
    -- The update has not landed, so no charge waited for it.
    rw [← Option.not_isSome_iff_eq_none]
    intro hPending
    obtain ⟨updated, hAnswer⟩ :=
      Option.isSome_iff_exists.mp (hCond hPending)
    cases hAnswer
    exact hUpdate ⟨patch, updated, rfl⟩
  charges := by
    rintro txn bills hEffect rfl
    exact hCharge ⟨txn, bills.periodStart, hEffect⟩

theorem Books.push
    (hBooks : Books h)
    (hLawful : LawfulRun svc ops w h)
    (hNone : w.issued = [])
    (hExec : Executes svc.deps.rfc3339 o)
    (hBefore : o.before = h.world)
    (hRule :
      Rule svc (ops o.thread) (own o.thread h.past) o.effect)
    (hCond : BilledInTurn h.past o) :
    Books (h.push o) := by
  refine ⟨?_, ?_⟩
  · intro id
    have hAccount := hBooks.accounts id
    have hListed := hBooks.listed o.thread
    by_cases hCharge :
        ∃ txn start, o.effect = .insertCharge txn ⟨id, start⟩
    · obtain ⟨txn, start, hEffect⟩ := hCharge
      exact hAccount.push_charge hLawful hListed hExec hBefore
        hRule hCond hEffect
    by_cases hInsert :
        ∃ row, o.effect = .subs (.insert row) ∧ row.id = id
    · obtain ⟨row, hEffect, hId⟩ := hInsert
      exact hAccount.push_insert hLawful hNone hExec hBefore
        hRule hCond hEffect hId
    by_cases hUpdate :
        ∃ patch updated,
          o.move = ⟨.subs (.update id patch), some updated⟩
    · obtain ⟨patch, updated, hMove⟩ := hUpdate
      exact hAccount.push_update hListed hExec hBefore hRule
        hMove
    · exact hAccount.push_apart hBefore hRule
        (apart_of_not hExec hCond hCharge hInsert hUpdate)
  · rintro thread sub ⟨now, due, hDue, hMem⟩
    rw [History.push_world]
    have hCases :
        o.move = ⟨.subs (.listDue now), due⟩ ∨
          ListedSub sub (own thread h.past) := by
      rw [History.push_past, own_cons] at hMem
      split at hMem
      · rcases List.mem_cons.mp hMem with hEq | hMem
        · exact .inl hEq.symm
        · exact .inr ⟨now, due, hDue, hMem⟩
      · exact .inr ⟨now, due, hDue, hMem⟩
    rcases hCases with hMove | hOlder
    · -- The row has just been listed as it is stored.
      have hEffect : o.effect = .subs (.listDue now) :=
        congrArg Move.effect hMove
      have hQuiet : o.effect.touchesSubs = false := by
        rw [hEffect]
        rfl
      refine ⟨sub, ?_, le_refl _, fun _ => rfl⟩
      rw [hExec.framed.subscriptions hQuiet]
      exact (hExec.listSubs hMove sub hDue).1
    · exact (hBooks.listed thread sub hOlder).push
        (hBooks.accounts sub.id) hLawful hNone hExec hBefore
        hRule

/- The books are kept in every run that meets the condition. -/
theorem books_kept
    {ledger : MandateLedger}
    {subscribers : List WebhookSubscriber}
    (hLawful :
      LawfulRun svc ops (.fresh ledger subscribers) h)
    (hCond : Conforms BilledInTurn h.past) :
    Books h := by
  refine Lawful.induct hLawful hCond ?_ ?_
  · refine ⟨fun id => .unborn ?_ rfl (fun _ => rfl), ?_⟩
    · exact Data.KeyedStore.get_empty id
    · rintro thread sub ⟨now, due, hDue, hMem⟩
      cases hMem
  · intro h o hBefore hBooks hAllows hRule hCond
    exact hBooks.push hBefore rfl (executes_of_allows hAllows)
      hAllows.before_eq hRule hCond

/- A charge that has been made is stored, by the condition. -/
theorem billed_of_pending
    (hCond : Conforms BilledInTurn h.past)
    {thread : Nat}
    {start : DateTime}
    (hPending :
      pendingCharge (own thread h.past) = some ⟨id, start⟩) :
    ∃ o ∈ h.past, o.thread = thread ∧
      billedPeriod id o = some start := by
  obtain ⟨txn, hMem⟩ := mem_of_pendingCharge hPending
  obtain ⟨o, hO, hThread, hMove⟩ := mem_own_iff.mp hMem
  obtain ⟨recent, older, hPast⟩ := List.append_of_mem hO
  rw [hPast] at hCond
  have hBilled := hCond.cut.1
  refine ⟨o, hO, hThread, ?_⟩
  rcases o with ⟨thread, effect, answer, before, after⟩
  cases hMove
  rw [billedPeriod, if_pos ⟨rfl, hBilled.1⟩]

theorem idle_of_notInProgress
    {pool : Pool Eff.Res World OpResult}
    (hReaches : Reaches svc ops w pool)
    (hCond : Conforms BilledInTurn pool.history.past)
    (hNot : NotInProgress id pool)
    (thread : Nat) :
    awaits id (own thread pool.history.past) = false := by
  refine awaits_eq_false_iff.mpr fun start hPending => ?_
  rcases hNot thread with ⟨result, hReturned⟩ | hUncharged
  · have hSettled := (hReaches.post hReturned).settled
    rw [hPending] at hSettled
    cases hSettled
  · obtain ⟨o, hMem, hThread, hBilled⟩ :=
      billed_of_pending hCond hPending
    rw [hUncharged o hMem hThread] at hBilled
    cases hBilled

/-
  In every run in which each charge pays the period that the
  stored row has come to, with no other under way, and whose
  writes land: no period is billed twice, and the counters are
  the numbers of charges.
-/
theorem billing_adds_up
    (svc : IcpService)
    (ops : Nat → Op)
    (ledger : MandateLedger)
    (subscribers : List WebhookSubscriber)
    (pool : Pool Eff.Res World OpResult)
    (hReaches :
      Reaches svc ops (.fresh ledger subscribers) pool)
    (hCond : Conforms BilledInTurn pool.history.past)
    (id : String) :
    BillsAddUp pool id := by
  have hAccount :=
    (books_kept hReaches.lawful hCond).accounts id
  have hSettles :
      ∀ thread start,
        pendingCharge (own thread pool.history.past) =
          some ⟨id, start⟩ →
        ¬ NotInProgress id pool := by
    intro thread start hPending hNot
    exact awaits_eq_false_iff.mp
      (idle_of_notInProgress hReaches hCond hNot thread) start
      hPending
  cases hAccount with
  | unborn hRow hBilled hIdle =>
      refine ⟨?_, ?_, fun _ _ => hBilled⟩
      · rw [hBilled]
        exact List.nodup_nil
      · intro _ row hStored
        rw [hRow] at hStored
        cases hStored
  | opening thread start hRow hBilled hPending _ _ =>
      refine ⟨?_, ?_, ?_⟩
      · rw [hBilled]
        exact List.nodup_singleton _
      · exact fun hNot => absurd hNot
          (hSettles thread start hPending)
      · exact fun hNot => absurd hNot
          (hSettles thread start hPending)
  | settled row hRow hTally _ =>
      refine ⟨hTally.nodup, ?_, ?_⟩
      · intro _ stored hStored
        rw [hRow] at hStored
        cases hStored
        exact hTally.count.symm
      · intro _ hStored
        rw [hRow] at hStored
        cases hStored
  | billing thread row periods hRow hBilled hTally _ hPending
      _ =>
      refine ⟨?_, ?_, ?_⟩
      · rw [hBilled]
        refine List.nodup_cons.mpr ⟨?_, hTally.nodup⟩
        intro hMem
        exact lt_irrefl _ (hTally.below _ hMem)
      · exact fun hNot => absurd hNot
          (hSettles thread _ hPending)
      · exact fun hNot => absurd hNot
          (hSettles thread _ hPending)

end Books

/- A weekly subscription, a renewal of it, and passes. -/
private def renewingOps : Nat → Op
  | 0 =>
      .intent
        (sampleInput .subscribe
          [sampleItems 1, ("cadence", .str "weekly"),
            samplePayment] none)
  | 1 =>
      .intent
        (sampleInput .renew
          [("subscription_id", .str "sub_a"), samplePayment]
          none)
  | _ => .tickSubscriptions (Duration.days 7)

private def subscribedSteps : List (Nat × Choice) :=
  [(0, {}), (0, { token := "a" }), (0, {}),
    (0, { token := "b" }), (0, {}), (0, {})]

/- The pass lists the subscription, and goes on later. -/
private def listingSteps : List (Nat × Choice) :=
  [(2, { order := ["sub_a"] }), (2, {})]

private def passSteps : List (Nat × Choice) :=
  [(2, { token := "c" }), (2, {}), (2, {}), (2, {}), (2, {})]

private def renewalSteps : List (Nat × Choice) :=
  [(1, {}), (1, {}), (1, {}), (1, {}), (1, { token := "d" }),
    (1, {}), (1, {})]

/- A pass can bill a period that has been renewed. -/
theorem pass_bills_period_again :
    ¬ ∀ svc ops ledger subscribers pool,
      Reaches svc ops (.fresh ledger subscribers) pool →
      ∀ id, BillsAddUp pool id := by
  intro hAll
  have hRun :
      ((runOf concreteService renewingOps (.fresh (.memory ∅) [])
        (subscribedSteps ++ listingSteps ++ renewalSteps ++
          passSteps)).any fun pool =>
            !decide (billedPeriods "sub_a"
              pool.history.past).Nodup) = true := by
    decide
  obtain ⟨pool, hPool, hAgain⟩ :=
    (Option.any_eq_true _ _).mp hRun
  rw [Bool.not_eq_true', decide_eq_false_iff_not] at hAgain
  exact hAgain
    (hAll concreteService renewingOps _ _ pool ⟨_, hPool⟩
      "sub_a").once

/- A pass and then a renewal bill one period each. -/
theorem billing_adds_up_sample :
    ∃ pool,
      runOf concreteService renewingOps (.fresh (.memory ∅) [])
          (subscribedSteps ++ listingSteps ++ passSteps ++
            renewalSteps) = some pool ∧
      (billedPeriods "sub_a" pool.history.past).length = 3 ∧
      BillsAddUp pool "sub_a" := by
  have hRun :
      ((runOf concreteService renewingOps (.fresh (.memory ∅) [])
        (subscribedSteps ++ listingSteps ++ passSteps ++
          renewalSteps)).any fun pool =>
            decide (Conforms BilledInTurn pool.history.past) &&
            (billedPeriods "sub_a"
              pool.history.past).length == 3) = true := by
    decide
  obtain ⟨pool, hPool, hChecks⟩ :=
    (Option.any_eq_true _ _).mp hRun
  rw [Bool.and_eq_true, decide_eq_true_eq,
    beq_iff_eq] at hChecks
  obtain ⟨hCond, hThree⟩ := hChecks
  exact ⟨pool, hPool, hThree,
    billing_adds_up concreteService renewingOps _ _ pool
      ⟨_, hPool⟩ hCond "sub_a"⟩

end Protocol

end IcpHandler
