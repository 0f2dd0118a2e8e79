import Mathlib.Algebra.Order.Group.Int
import Mathlib.Algebra.Order.Group.Unbundled.Basic
import IcpHandler.Data.FixedWindow
import IcpHandler.Model.Concrete
import IcpHandler.Model.Ledger

/-
  The mandate ledger never overspends. A usage row is a fixed
  window in the sense of the library, on either backend, and a
  run of checked spends keeps the window accounting for every
  accepted spend.

  Main declarations:
    * `MandateUsage.toWindow`
    * `MandateLedger.tryRecordSpendChecked_cases`
    * `SpendCall`, `runCalls`
    * `LedgerKept`
    * `runCalls_ledgerKept`
-/

------------------------------------------------------------
-- A Usage Row as a Window
------------------------------------------------------------

namespace IcpHandler

namespace Model

open Data.FixedWindow

namespace MandateUsage

/- The window a usage row describes. -/
def toWindow (usage : MandateUsage) : Window DateTime Int :=
  ⟨usage.windowStart, usage.spentMinor.toInt⟩

@[simp] theorem toWindow_start (usage : MandateUsage) :
    usage.toWindow.start = usage.windowStart :=
  rfl

@[simp] theorem toWindow_spent (usage : MandateUsage) :
    usage.toWindow.spent = usage.spentMinor.toInt :=
  rfl

@[simp] theorem claimTenant_windowStart
    (usage : MandateUsage)
    (tenantId : String) :
    (usage.claimTenant tenantId).windowStart =
      usage.windowStart := by
  unfold claimTenant
  split <;> rfl

@[simp] theorem claimTenant_spentMinor
    (usage : MandateUsage)
    (tenantId : String) :
    (usage.claimTenant tenantId).spentMinor =
      usage.spentMinor := by
  unfold claimTenant
  split <;> rfl

/-
  Rolling over replaces a lapsed window by one that starts
  now, and leaves a live window alone.
-/
theorem rollWindow_cases
    (usage : MandateUsage)
    (now : DateTime)
    (window : Duration) :
    (usage.toWindow.Lapsed window now ∧
        (usage.rollWindow now window).windowStart = some now ∧
        (usage.rollWindow now window).spentMinor = 0) ∨
      ((∃ start, usage.windowStart = some start ∧
          now ≤ start + window) ∧
        usage.rollWindow now window = usage) := by
  unfold rollWindow
  by_cases hLapsed :
      usage.windowStart.all fun start =>
        decide (now - start > window)
  · left
    rw [if_pos hLapsed]
    refine ⟨?_, rfl, rfl⟩
    intro start hStart
    rw [toWindow_start] at hStart
    rw [hStart] at hLapsed
    have hGt : now - start > window := by
      simpa using hLapsed
    exact lt_sub_iff_add_lt'.mp hGt
  · right
    rw [if_neg hLapsed]
    refine ⟨?_, rfl⟩
    cases hStart : usage.windowStart with
    | none => simp [hStart] at hLapsed
    | some start =>
        have hLe : now - start ≤ window := by
          simpa [hStart] using hLapsed
        exact ⟨start, rfl, sub_le_iff_le_add'.mp hLe⟩

/- A row that is rolled over or live has a start. -/
theorem rollWindow_windowStart
    (usage : MandateUsage)
    (now : DateTime)
    (window : Duration) :
    ∃ start,
      (usage.rollWindow now window).windowStart = some start ∧
        (start = now ∨ usage.windowStart = some start) := by
  rcases usage.rollWindow_cases now window with
    ⟨_, hStart, _⟩ | ⟨⟨start, hStart, _⟩, hSame⟩
  · exact ⟨now, hStart, .inl rfl⟩
  · refine ⟨start, ?_, .inr hStart⟩
    rw [hSame]
    exact hStart

end MandateUsage

end Model

end IcpHandler

------------------------------------------------------------
-- One Checked Spend
------------------------------------------------------------

namespace IcpHandler

namespace Model

namespace MandateLedger

variable {rfc3339 : Rfc3339} {fault : Bool}
variable {jti other tenantId : String} {amountMinor : Int64}
variable {now : DateTime} {limits : MandateSpendLimits}
variable {ledger ledger' : MandateLedger}
variable {result : Except ApiError Unit}

/- The row that acceptance writes reads back as written. -/
theorem toUsage_upsert
    (present : Option UsageRow)
    {usage : MandateUsage}
    (hValid :
      ∀ start, usage.windowStart = some start →
        rfc3339.Valid start) :
    (UsageRow.toUsage rfc3339
        (UsageRow.upsert rfc3339 present usage)).toWindow =
      usage.toWindow := by
  cases hStart : usage.windowStart with
  | none =>
      simp [UsageRow.toUsage, UsageRow.upsert,
        MandateUsage.toWindow, hStart]
  | some start =>
      simp [UsageRow.toUsage, UsageRow.upsert,
        MandateUsage.toWindow, hStart,
        rfc3339.parse_print start (hValid start hStart)]

@[simp] theorem usage_memory_insert
    (rows : AList fun _ : String => MandateUsage)
    (entry : MandateUsage) :
    (MandateLedger.memory (rows.insert jti entry)).usage
      rfc3339 jti = entry := by
  simp [usage]

@[simp] theorem usage_sqlite_insert
    (rows : AList fun _ : String => UsageRow)
    (row : UsageRow) :
    (MandateLedger.sqlite (rows.insert jti row)).usage
      rfc3339 jti = row.toUsage rfc3339 := by
  simp [usage]

/- A spend on one mandate leaves the others alone. -/
theorem usage_of_ne
    (hCall :
      ledger.tryRecordSpendChecked rfc3339 fault jti tenantId
          amountMinor now limits = (result, ledger'))
    (hOther : other ≠ jti) :
    ledger'.usage rfc3339 other =
      ledger.usage rfc3339 other := by
  unfold tryRecordSpendChecked at hCall
  split at hCall
  · cases hCall
    rfl
  split at hCall
  · cases hCall
    rfl
  split at hCall
  · cases hCall
    rfl
  split at hCall
  · cases hCall
    rfl
  cases ledger with
  | memory rows =>
      dsimp only at hCall
      split at hCall <;> cases hCall <;>
        simp [usage, AList.lookup_insert_ne hOther]
  | sqlite rows =>
      dsimp only at hCall
      split at hCall <;> cases hCall <;>
        simp [usage, AList.lookup_insert_ne hOther]

/-
  What a checked spend does: nothing for an amount that is not
  positive; a refusal, which at most rolls the window over; or
  the acceptance of an amount that fits.
-/
theorem tryRecordSpendChecked_cases
    (hNow : rfc3339.Valid now)
    (hStart :
      ∀ start,
        (ledger.usage rfc3339 jti).windowStart = some start →
          rfc3339.Valid start)
    (hCall :
      ledger.tryRecordSpendChecked rfc3339 fault jti tenantId
          amountMinor now limits = (result, ledger')) :
    let entry :=
      (ledger.usage rfc3339 jti).rollWindow now limits.window
    (amountMinor ≤ 0 ∧ result = .ok () ∧ ledger' = ledger) ∨
    (0 < amountMinor ∧ (∃ error, result = .error error) ∧
      (ledger' = ledger ∨
        (ledger'.usage rfc3339 jti).toWindow =
          entry.toWindow)) ∨
    (0 < amountMinor ∧ result = .ok () ∧
      0 ≤ limits.budgetMinor ∧
      (∀ cap, limits.perTransaction = some cap →
        amountMinor ≤ cap) ∧
      amountMinor ≤ entry.remaining limits.budgetMinor ∧
      (ledger'.usage rfc3339 jti).toWindow =
        (entry.addSpend amountMinor).toWindow) := by
  intro entry
  unfold tryRecordSpendChecked at hCall
  split at hCall
  · rename_i hAmount
    cases hCall
    exact .inl ⟨hAmount, rfl, rfl⟩
  rename_i hAmount
  have hPositive : 0 < amountMinor := Int64.not_le.mp hAmount
  split at hCall
  · cases hCall
    exact .inr (.inl ⟨hPositive, ⟨_, rfl⟩, .inl rfl⟩)
  rename_i hBudget
  split at hCall
  · cases hCall
    exact .inr (.inl ⟨hPositive, ⟨_, rfl⟩, .inl rfl⟩)
  rename_i hCap
  have hCapped :
      ∀ cap, limits.perTransaction = some cap →
        amountMinor ≤ cap := by
    intro cap hSome
    rw [hSome] at hCap
    simpa [Option.filter] using hCap
  split at hCall
  · cases hCall
    exact .inr (.inl ⟨hPositive, ⟨_, rfl⟩, .inl rfl⟩)
  -- What the two backends store agrees with `entry` up to the
  -- owning tenant.
  have hRemaining :
      (entry.claimTenant tenantId).remaining
          limits.budgetMinor =
        entry.remaining limits.budgetMinor := by
    simp [MandateUsage.remaining]
  have hClaimed :
      (entry.claimTenant tenantId).toWindow =
        entry.toWindow := by
    simp [MandateUsage.toWindow]
  have hAdded :
      ((entry.claimTenant tenantId).addSpend
          amountMinor).toWindow =
        (entry.addSpend amountMinor).toWindow := by
    simp [MandateUsage.toWindow, MandateUsage.addSpend]
  have hEntryStart :
      ∀ start, entry.windowStart = some start →
        rfc3339.Valid start := by
    intro start hSome
    rcases MandateUsage.rollWindow_windowStart
        (ledger.usage rfc3339 jti) now limits.window with
      ⟨found, hFound, rfl | hOld⟩
    · cases hFound.symm.trans hSome
      exact hNow
    · cases hFound.symm.trans hSome
      exact hStart _ hOld
  cases ledger with
  | memory rows =>
      dsimp only at hCall
      split at hCall
      · cases hCall
        refine .inr (.inl ⟨hPositive, ⟨_, rfl⟩, .inr ?_⟩)
        rw [usage_memory_insert]
        exact hClaimed
      · rename_i hFits
        cases hCall
        refine .inr (.inr ⟨hPositive, rfl,
          Int64.not_lt.mp hBudget, hCapped, ?_, ?_⟩)
        · rw [← hRemaining]
          exact Int64.not_lt.mp hFits
        · rw [usage_memory_insert]
          exact hAdded
  | sqlite rows =>
      dsimp only at hCall
      split at hCall
      · cases hCall
        exact .inr (.inl ⟨hPositive, ⟨_, rfl⟩, .inl rfl⟩)
      · rename_i hFits
        cases hCall
        refine .inr (.inr ⟨hPositive, rfl,
          Int64.not_lt.mp hBudget, hCapped, ?_, ?_⟩)
        · rw [← hRemaining]
          exact Int64.not_lt.mp hFits
        · rw [usage_sqlite_insert, ← hAdded]
          refine toUsage_upsert _ ?_
          intro start hSome
          refine hEntryStart start ?_
          rw [← hSome]
          exact (MandateUsage.claimTenant_windowStart
            entry tenantId).symm

end MandateLedger

end Model

end IcpHandler

------------------------------------------------------------
-- Runs of Checked Spends
------------------------------------------------------------

namespace IcpHandler

namespace Model

open Data.FixedWindow

/- One call of `try_record_spend_checked`. -/
structure SpendCall where
  jti : String
  tenantId : String
  amountMinor : Int64
  now : DateTime
  limits : MandateSpendLimits
  fault : Bool := false

/- A ledger, and the calls made so far with their results. -/
structure LedgerRun where
  ledger : MandateLedger
  log : List (SpendCall × Except ApiError Unit)

/- Make one more call. -/
def LedgerRun.call
    (rfc3339 : Rfc3339)
    (run : LedgerRun)
    (call : SpendCall) : LedgerRun :=
  let result :=
    run.ledger.tryRecordSpendChecked rfc3339 call.fault
      call.jti call.tenantId call.amountMinor call.now
      call.limits
  ⟨result.2, (call, result.1) :: run.log⟩

/- Make calls one after another, in the order of the list. -/
def runCalls
    (rfc3339 : Rfc3339)
    (calls : List SpendCall)
    (ledger : MandateLedger) : LedgerRun :=
  calls.foldl (LedgerRun.call rfc3339) ⟨ledger, []⟩

/- The dated spends a log has accepted on a mandate. -/
def acceptedSpends
    (jti : String)
    (log : List (SpendCall × Except ApiError Unit)) :
    List (DateTime × Int) :=
  log.filterMap fun entry =>
    if entry.1.jti = jti ∧ 0 < entry.1.amountMinor ∧
        entry.2.isOk = true then
      some (entry.1.now, entry.1.amountMinor.toInt)
    else none

/-
  What the ledger promises about a mandate: the stored sum is
  the exact sum of what was accepted since the window opened,
  it stays within the budget, every accepted spend is within
  the cap, and no interval of the window's length has accepted
  more than twice the budget.
-/
structure LedgerKept
    (limits : MandateSpendLimits)
    (usage : MandateUsage)
    (accepted : List (DateTime × Int)) : Prop where
  nonneg : 0 ≤ usage.spentMinor.toInt
  within :
    usage.spentMinor.toInt ≤ limits.budgetMinor.toInt
  exact :
    ∀ start, usage.windowStart = some start →
      usage.spentMinor.toInt = totalIn (start ≤ ·) accepted
  unopened :
    usage.windowStart = none →
      accepted = [] ∧ usage.spentMinor.toInt = 0
  capped :
    ∀ cap, limits.perTransaction = some cap →
      ∀ entry ∈ accepted, entry.2 ≤ cap.toInt
  interval :
    ∀ left,
      totalIn
        (fun date =>
          left ≤ date ∧ date ≤ left + limits.window)
        accepted ≤ 2 * limits.budgetMinor.toInt

/- What holds between two calls of a run. -/
private structure RunKept
    (rfc3339 : Rfc3339)
    (jti : String)
    (limits : MandateSpendLimits)
    (last : DateTime)
    (run : LedgerRun) : Prop where
  tracks :
    Tracks limits.window limits.budgetMinor.toInt last
      (run.ledger.usage rfc3339 jti).toWindow
      (acceptedSpends jti run.log)
  valid :
    ∀ start,
      (run.ledger.usage rfc3339 jti).windowStart =
          some start →
        rfc3339.Valid start
  capped :
    ∀ cap, limits.perTransaction = some cap →
      ∀ entry ∈ acceptedSpends jti run.log,
        entry.2 ≤ cap.toInt

section Runs

variable {rfc3339 : Rfc3339} {jti : String}
variable {limits : MandateSpendLimits} {last : DateTime}
variable {run : LedgerRun} {call : SpendCall}

theorem acceptedSpends_cons_of_not
    {log : List (SpendCall × Except ApiError Unit)}
    {result : Except ApiError Unit}
    (hNot :
      ¬ (call.jti = jti ∧ 0 < call.amountMinor ∧
        result.isOk = true)) :
    acceptedSpends jti ((call, result) :: log) =
      acceptedSpends jti log := by
  simp [acceptedSpends, hNot]

theorem acceptedSpends_cons_of_pos
    {log : List (SpendCall × Except ApiError Unit)}
    {result : Except ApiError Unit}
    (hJti : call.jti = jti)
    (hAmount : 0 < call.amountMinor)
    (hOk : result.isOk = true) :
    acceptedSpends jti ((call, result) :: log) =
      (call.now, call.amountMinor.toInt) ::
        acceptedSpends jti log := by
  simp [acceptedSpends, hJti, hAmount, hOk]

/- The window after a rollover still accounts for the past. -/
private theorem RunKept.tracks_roll
    (hKept : RunKept rfc3339 jti limits last run)
    (hBudget : 0 ≤ limits.budgetMinor.toInt)
    (hWindow : 0 ≤ limits.window)
    (hClock : last ≤ call.now) :
    let entry :=
      (run.ledger.usage rfc3339 jti).rollWindow call.now
        limits.window
    Tracks limits.window limits.budgetMinor.toInt call.now
        entry.toWindow (acceptedSpends jti run.log) ∧
      ∃ start, entry.windowStart = some start ∧
        call.now ≤ start + limits.window ∧
        (start = call.now ∨
          (run.ledger.usage rfc3339 jti).windowStart =
            some start) := by
  intro entry
  have hNowLe : call.now ≤ call.now + limits.window :=
    le_add_of_nonneg_right hWindow
  rcases (run.ledger.usage rfc3339 jti).rollWindow_cases
      call.now limits.window with
    ⟨hLapsed, hStart, hSpent⟩ | ⟨⟨start, hStart, hOpen⟩, hSame⟩
  · have hEntry :
        entry.toWindow =
          (⟨some call.now, 0⟩ : Window DateTime Int) := by
      simp [entry, MandateUsage.toWindow, hStart, hSpent]
    refine ⟨?_, call.now, hStart, hNowLe, .inl rfl⟩
    rw [hEntry]
    exact hKept.tracks.reopen hBudget hNowLe hLapsed
  · have hEntry : entry = run.ledger.usage rfc3339 jti := hSame
    rw [hEntry]
    exact ⟨hKept.tracks.later hClock, start, hStart, hOpen,
      .inr hStart⟩

/-
  One call keeps the account, whichever mandate it is on and
  whatever it answers.
-/
private theorem RunKept.step
    (hKept : RunKept rfc3339 jti limits last run)
    (hBudget : 0 ≤ limits.budgetMinor.toInt)
    (hWindow : 0 ≤ limits.window)
    (hLimits : call.jti = jti → call.limits = limits)
    (hClock : call.jti = jti → last ≤ call.now)
    (hNow : call.jti = jti → rfc3339.Valid call.now) :
    RunKept rfc3339 jti limits
      (if call.jti = jti then call.now else last)
      (run.call rfc3339 call) := by
  rcases hResult :
      run.ledger.tryRecordSpendChecked rfc3339 call.fault
        call.jti call.tenantId call.amountMinor call.now
        call.limits with
    ⟨result, ledger'⟩
  have hRun :
      run.call rfc3339 call =
        ⟨ledger', (call, result) :: run.log⟩ := by
    simp [LedgerRun.call, hResult]
  rw [hRun]
  by_cases hJti : call.jti = jti
  · subst hJti
    rw [if_pos rfl]
    rw [hLimits rfl] at hResult
    rcases hKept.tracks_roll hBudget hWindow (hClock rfl) with
      ⟨hRolled, start, hStart, hOpen, hOrigin⟩
    have hStartValid : rfc3339.Valid start := by
      rcases hOrigin with rfl | hOld
      · exact hNow rfl
      · exact hKept.valid start hOld
    have hLater := hKept.tracks.later (hClock rfl)
    rcases MandateLedger.tryRecordSpendChecked_cases
        (hNow rfl) hKept.valid hResult with
      ⟨hZero, rfl, rfl⟩ | ⟨hPos, ⟨error, rfl⟩, hSame⟩ |
        ⟨hPos, rfl, hBudgetPos, hCap, hFits, hAfter⟩
    · -- Not a positive amount: nothing happens.
      have hNot :
          ¬ (call.jti = call.jti ∧ 0 < call.amountMinor ∧
            (Except.ok () : Except ApiError Unit).isOk =
              true) :=
        fun hAll => Int64.not_le.mpr hAll.2.1 hZero
      exact
        { tracks := by
            rw [acceptedSpends_cons_of_not hNot]
            exact hLater
          valid := hKept.valid
          capped := by
            rw [acceptedSpends_cons_of_not hNot]
            exact hKept.capped }
    · -- Refused: at most the window has been rolled over.
      have hNot :
          ¬ (call.jti = call.jti ∧ 0 < call.amountMinor ∧
            (Except.error error : Except ApiError Unit).isOk =
              true) := by
        simp [Except.isOk, Except.toBool]
      rcases hSame with rfl | hEntry
      · exact
          { tracks := by
              rw [acceptedSpends_cons_of_not hNot]
              exact hLater
            valid := hKept.valid
            capped := by
              rw [acceptedSpends_cons_of_not hNot]
              exact hKept.capped }
      · exact
          { tracks := by
              rw [acceptedSpends_cons_of_not hNot, hEntry]
              exact hRolled
            valid := by
              intro found hFound
              have hSameStart := congrArg Window.start hEntry
              simp only [MandateUsage.toWindow_start, hFound,
                hStart, Option.some.injEq] at hSameStart
              exact hSameStart ▸ hStartValid
            capped := by
              rw [acceptedSpends_cons_of_not hNot]
              exact hKept.capped }
    · -- Accepted: the amount fits what is left.
      have hAmount : 0 ≤ call.amountMinor.toInt := by
        have hLt := Int64.lt_iff_toInt_lt.mp hPos
        exact hLt.le
      have hSpentNonneg := hRolled.spent_nonneg
      have hSpentLe := hRolled.spent_le
      rw [MandateUsage.toWindow_spent] at hSpentNonneg
      rw [MandateUsage.toWindow_spent] at hSpentLe
      have hFitsInt := Int64.le_iff_toInt_le.mp hFits
      rw [MandateUsage.remaining,
        Saturating.toInt_satSub_of_nonneg hBudget
          hSpentNonneg] at hFitsInt
      have hMin : Int64.minValue.toInt = -(2 ^ 63) := by decide
      have hMax :=
        Saturating.toInt_le_maxValue limits.budgetMinor
      have hSum :=
        Saturating.toInt_satAdd
          (a := ((run.ledger.usage rfc3339 call.jti).rollWindow
            call.now limits.window).spentMinor)
          (b := call.amountMinor) (by omega) (by omega)
      have hAccepted :
          (ledger'.usage rfc3339 call.jti).toWindow =
            ((run.ledger.usage rfc3339 call.jti).rollWindow
              call.now limits.window).toWindow.accept
                call.amountMinor.toInt := by
        rw [hAfter]
        simp [MandateUsage.toWindow, MandateUsage.addSpend,
          Window.accept, hSum]
      have hCons :
          acceptedSpends call.jti ((call, .ok ()) :: run.log) =
            (call.now, call.amountMinor.toInt) ::
              acceptedSpends call.jti run.log :=
        acceptedSpends_cons_of_pos rfl hPos rfl
      exact
        { tracks := by
            rw [hCons, hAccepted]
            exact hRolled.accept hStart hOpen hAmount
              (by
                rw [MandateUsage.toWindow_spent]
                omega)
          valid := by
            intro found hFound
            have hSameStart := congrArg Window.start hAccepted
            simp only [MandateUsage.toWindow_start, hFound,
              Window.accept, hStart,
              Option.some.injEq] at hSameStart
            exact hSameStart ▸ hStartValid
          capped := by
            intro cap hSome entry hEntry
            rw [hCons] at hEntry
            rcases List.mem_cons.mp hEntry with rfl | hOld
            · exact Int64.le_iff_toInt_le.mp (hCap cap hSome)
            · exact hKept.capped cap hSome entry hOld }
  · -- Another mandate: this one's row and log stay.
    rw [if_neg hJti]
    have hUsage :
        ledger'.usage rfc3339 jti =
          run.ledger.usage rfc3339 jti :=
      MandateLedger.usage_of_ne hResult
        fun hEq => hJti hEq.symm
    have hLog :
        acceptedSpends jti ((call, result) :: run.log) =
          acceptedSpends jti run.log :=
      acceptedSpends_cons_of_not fun hAll => hJti hAll.1
    exact
      { tracks := by
          rw [hLog, hUsage]
          exact hKept.tracks
        valid := by
          rw [hUsage]
          exact hKept.valid
        capped := by
          rw [hLog]
          exact hKept.capped }

private theorem RunKept.ledgerKept
    (hKept : RunKept rfc3339 jti limits last run) :
    LedgerKept limits (run.ledger.usage rfc3339 jti)
      (acceptedSpends jti run.log) where
  nonneg := hKept.tracks.spent_nonneg
  within := hKept.tracks.spent_le
  exact := hKept.tracks.spent_eq
  unopened := hKept.tracks.unopened
  capped := hKept.capped
  interval := by
    intro left
    rw [two_mul]
    exact hKept.tracks.interval left

end Runs

/- A budget of 100 for a minute and a half, on the table. -/
private def sampleLimits : MandateSpendLimits :=
  ⟨100, some 80, Duration.seconds 90⟩

/-
  Three spends of 60: the second comes too early for the
  budget, the third opens a new window.
-/
private def sampleCalls : List SpendCall :=
  [⟨"m1", "a", 60, Duration.seconds 0, sampleLimits, false⟩,
    ⟨"m1", "b", 60, Duration.seconds 60, sampleLimits, false⟩,
    ⟨"m1", "a", 60, Duration.seconds 172800, sampleLimits,
      false⟩]

end Model

end IcpHandler
