import IcpHandler.Properties.LedgerBudget

/-
  The two backends of the mandate ledger side by side. They
  answer alike and read alike exactly as long as no spend is
  refused for lack of budget on a row that the attempt rolls
  over or claims: the map keeps what the attempt changed, the
  table does not.

  Main declarations:
    * `LedgerCall`, `LedgerCall.perform`
    * `BackendsAgree`
    * `Undisturbed`
    * `backendsAgree_iff_undisturbed`
    * `backends_diverge`
-/

------------------------------------------------------------
-- One Spend, by Backend
------------------------------------------------------------

namespace IcpHandler

namespace Model

/-
  The amount passes the checks that come before the ledger is
  looked at.
-/
def MandateSpendLimits.Admits
    (limits : MandateSpendLimits)
    (amountMinor : Int64) : Prop :=
  0 < amountMinor ∧ 0 ≤ limits.budgetMinor ∧
    ∀ cap, limits.perTransaction = some cap →
      amountMinor ≤ cap

namespace MandateUsage

/- The row a spend is checked against. -/
def prepared
    (usage : MandateUsage)
    (tenantId : String)
    (now : DateTime)
    (window : Duration) : MandateUsage :=
  (usage.rollWindow now window).claimTenant tenantId

theorem claimTenant_tenantId
    (usage : MandateUsage)
    (tenantId : String) :
    (usage.claimTenant tenantId).tenantId =
      if usage.tenantId.isEmpty then tenantId
      else usage.tenantId := by
  unfold claimTenant
  split <;> rfl

@[simp] theorem rollWindow_tenantId
    (usage : MandateUsage)
    (now : DateTime)
    (window : Duration) :
    (usage.rollWindow now window).tenantId =
      usage.tenantId := by
  unfold rollWindow
  split <;> rfl

end MandateUsage

namespace MandateLedger

variable {rfc3339 : Rfc3339} {jti tenantId : String}
variable {amountMinor : Int64} {now : DateTime}
variable {limits : MandateSpendLimits}

/-
  An amount that is not admitted is answered without a look at
  the ledger.
-/
theorem tryRecordSpendChecked_of_not_admits
    (rfc3339 : Rfc3339)
    (jti tenantId : String)
    (now : DateTime)
    (hNot : ¬ limits.Admits amountMinor) :
    ∃ result, ∀ ledger : MandateLedger,
      ledger.tryRecordSpendChecked rfc3339 false jti tenantId
        amountMinor now limits = (result, ledger) := by
  by_cases hAmount : amountMinor ≤ 0
  · refine ⟨.ok (), fun ledger => ?_⟩
    rw [tryRecordSpendChecked, if_pos hAmount]
  by_cases hBudget : limits.budgetMinor < 0
  · refine ⟨.error (.mandateBudgetExceeded
      ("mandate budget " ++ toString limits.budgetMinor ++
        " is negative")), fun ledger => ?_⟩
    rw [tryRecordSpendChecked, if_neg hAmount,
      if_pos hBudget]
  cases hCap :
      limits.perTransaction.filter (amountMinor > ·) with
  | some cap =>
      refine ⟨.error (exceedsCap amountMinor cap), ?_⟩
      intro ledger
      rw [tryRecordSpendChecked, if_neg hAmount,
        if_neg hBudget, hCap]
  | none =>
      refine absurd ⟨Int64.not_le.mp hAmount,
        Int64.not_lt.mp hBudget, ?_⟩ hNot
      intro cap hSome
      rw [hSome] at hCap
      simpa [Option.filter] using hCap

private theorem filter_of_admits
    (hAdmits : limits.Admits amountMinor) :
    limits.perTransaction.filter (amountMinor > ·) = none := by
  obtain ⟨_, _, hCap⟩ := hAdmits
  cases hSome : limits.perTransaction with
  | none => rfl
  | some cap =>
      have hLe : ¬ cap < amountMinor :=
        Int64.not_lt.mpr (hCap cap hSome)
      simp [Option.filter, hLe]

/- In memory the prepared row is kept, accepted or not. -/
theorem tryRecordSpendChecked_memory
    (rfc3339 : Rfc3339)
    (jti tenantId : String)
    (now : DateTime)
    (hAdmits : limits.Admits amountMinor)
    (rows : AList fun _ : String => MandateUsage) :
    let entry :=
      ((MandateLedger.memory rows).usage rfc3339 jti).prepared
        tenantId now limits.window
    let left := entry.remaining limits.budgetMinor
    (MandateLedger.memory rows).tryRecordSpendChecked rfc3339
        false jti tenantId amountMinor now limits =
      if amountMinor > left then
        (.error (exceedsRemaining amountMinor left),
          .memory (rows.insert jti entry))
      else
        (.ok (), .memory
          (rows.insert jti (entry.addSpend amountMinor))) := by
  intro entry left
  have hFilter := filter_of_admits hAdmits
  obtain ⟨hAmount, hBudget, _⟩ := hAdmits
  rw [tryRecordSpendChecked,
    if_neg (Int64.not_le.mpr hAmount),
    if_neg (Int64.not_lt.mpr hBudget), hFilter]
  rfl

/- The table is written on acceptance only. -/
theorem tryRecordSpendChecked_sqlite
    (rfc3339 : Rfc3339)
    (jti tenantId : String)
    (now : DateTime)
    (hAdmits : limits.Admits amountMinor)
    (rows : AList fun _ : String => UsageRow) :
    let entry :=
      ((MandateLedger.sqlite rows).usage rfc3339 jti).prepared
        tenantId now limits.window
    let left := entry.remaining limits.budgetMinor
    (MandateLedger.sqlite rows).tryRecordSpendChecked rfc3339
        false jti tenantId amountMinor now limits =
      if amountMinor > left then
        (.error (exceedsRemaining amountMinor left),
          .sqlite rows)
      else
        (.ok (), .sqlite (rows.insert jti
          (UsageRow.upsert rfc3339 (rows.lookup jti)
            (entry.addSpend amountMinor)))) := by
  intro entry left
  have hFilter := filter_of_admits hAdmits
  obtain ⟨hAmount, hBudget, _⟩ := hAdmits
  rw [tryRecordSpendChecked,
    if_neg (Int64.not_le.mpr hAmount),
    if_neg (Int64.not_lt.mpr hBudget), hFilter]
  rfl

theorem usage_memory_insert_apply
    (rows : AList fun _ : String => MandateUsage)
    (entry : MandateUsage)
    (other : String) :
    (MandateLedger.memory (rows.insert jti entry)).usage
        rfc3339 other =
      if other = jti then entry
      else (MandateLedger.memory rows).usage rfc3339 other := by
  by_cases hSame : other = jti
  · subst hSame
    simp [usage]
  · simp [usage, hSame, AList.lookup_insert_ne hSame]

theorem usage_sqlite_insert_apply
    (rows : AList fun _ : String => UsageRow)
    (row : UsageRow)
    (other : String) :
    (MandateLedger.sqlite (rows.insert jti row)).usage
        rfc3339 other =
      if other = jti then row.toUsage rfc3339
      else (MandateLedger.sqlite rows).usage rfc3339 other := by
  by_cases hSame : other = jti
  · subst hSame
    simp [usage]
  · simp [usage, hSame, AList.lookup_insert_ne hSame]

end MandateLedger

end Model

end IcpHandler

------------------------------------------------------------
-- Calls
------------------------------------------------------------

namespace IcpHandler

namespace Model

/- A call on the ledger. -/
inductive LedgerCall where
  | recordSpend
      (jti tenantId : String)
      (amountMinor : Int64)
      (now : DateTime)
      (limits : MandateSpendLimits)
  | usage (jti : String)
  | usageForTenant (jti tenantId : String)

/- What a call answers. -/
inductive LedgerAnswer where
  | recorded (result : Except ApiError Unit)
  | usage (result : Except ApiError MandateUsage)
  | owned (result : Except ApiError (Option MandateUsage))

/- The answer refuses a spend. -/
def LedgerAnswer.Refuses : LedgerAnswer → Prop
  | .recorded (.error _) => True
  | _ => False

/- Make the call, with no database failure. -/
def LedgerCall.perform
    (rfc3339 : Rfc3339)
    (ledger : MandateLedger) :
    LedgerCall → LedgerAnswer × MandateLedger
  | .recordSpend jti tenantId amountMinor now limits =>
      let result :=
        ledger.tryRecordSpendChecked rfc3339 false jti
          tenantId amountMinor now limits
      (.recorded result.1, result.2)
  | .usage jti =>
      (.usage (ledger.tryUsage rfc3339 false jti), ledger)
  | .usageForTenant jti tenantId =>
      (.owned
        (ledger.tryUsageForTenant rfc3339 false jti tenantId),
        ledger)

/- Two ledgers show every reader the same usage. -/
def SameReading
    (rfc3339 : Rfc3339)
    (first second : MandateLedger) : Prop :=
  ∀ jti,
    first.tryUsage rfc3339 false jti =
        second.tryUsage rfc3339 false jti ∧
      ∀ tenantId,
        first.tryUsageForTenant rfc3339 false jti tenantId =
          second.tryUsageForTenant rfc3339 false jti tenantId

/-
  The two ledgers give the same answer to every call and show
  the same usage after it, and a refused spend changes nothing
  that can be read of either.
-/
def BackendsAgree (rfc3339 : Rfc3339) :
    List LedgerCall → MandateLedger → MandateLedger → Prop
  | [], _, _ => True
  | call :: calls, first, second =>
      let left := call.perform rfc3339 first
      let right := call.perform rfc3339 second
      left.1 = right.1 ∧
        SameReading rfc3339 left.2 right.2 ∧
        (left.1.Refuses →
          SameReading rfc3339 first left.2 ∧
            SameReading rfc3339 second right.2) ∧
        BackendsAgree rfc3339 calls left.2 right.2

/-
  The call leaves no trace that only one backend keeps. A
  spend above the remaining budget meets a row that the
  attempt neither rolls over nor claims, and a spend within it
  that opens a window does so at an instant whose text reads
  back.
-/
def LedgerCall.Harmless
    (rfc3339 : Rfc3339)
    (ledger : MandateLedger) : LedgerCall → Prop
  | .recordSpend jti tenantId amountMinor now limits =>
      let usage := ledger.usage rfc3339 jti
      let entry := usage.prepared tenantId now limits.window
      limits.Admits amountMinor →
        (amountMinor > entry.remaining limits.budgetMinor →
          entry = usage) ∧
        (amountMinor ≤ entry.remaining limits.budgetMinor →
          usage.toWindow.Lapsed limits.window now →
            rfc3339.parse (rfc3339.print now) = some now)
  | .usage _ => True
  | .usageForTenant _ _ => True

/- Every call of the sequence is harmless where it comes. -/
def Undisturbed (rfc3339 : Rfc3339) :
    List LedgerCall → MandateLedger → Prop
  | [], _ => True
  | call :: calls, ledger =>
      call.Harmless rfc3339 ledger ∧
        Undisturbed rfc3339 calls
          (call.perform rfc3339 ledger).2

section Reading

variable {rfc3339 : Rfc3339}
variable {first second third : MandateLedger}

theorem sameReading_iff :
    SameReading rfc3339 first second ↔
      ∀ jti,
        first.usage rfc3339 jti = second.usage rfc3339 jti := by
  constructor
  · intro hSame jti
    have hUsage := (hSame jti).1
    simpa [MandateLedger.tryUsage] using hUsage
  · intro hSame jti
    have hUsage :
        first.tryUsage rfc3339 false jti =
          second.tryUsage rfc3339 false jti := by
      simp [MandateLedger.tryUsage, hSame jti]
    refine ⟨hUsage, fun tenantId => ?_⟩
    unfold MandateLedger.tryUsageForTenant
    rw [hUsage]

theorem SameReading.refl (ledger : MandateLedger) :
    SameReading rfc3339 ledger ledger :=
  fun _ => ⟨rfl, fun _ => rfl⟩

end Reading

end Model

end IcpHandler

------------------------------------------------------------
-- Agreement
------------------------------------------------------------

namespace IcpHandler

namespace Model

open Data.FixedWindow

/-
  The map and the table hold the same usage under every
  mandate id, and each window's start survives its text.
-/
structure Mirrors
    (rfc3339 : Rfc3339)
    (rows : AList fun _ : String => MandateUsage)
    (table : AList fun _ : String => UsageRow) : Prop where
  same :
    ∀ jti,
      (MandateLedger.memory rows).usage rfc3339 jti =
        (MandateLedger.sqlite table).usage rfc3339 jti
  readable :
    ∀ jti start,
      ((MandateLedger.memory rows).usage rfc3339
          jti).windowStart = some start →
        rfc3339.parse (rfc3339.print start) = some start

namespace Mirrors

variable {rfc3339 : Rfc3339} {jti tenantId : String}
variable {amountMinor : Int64} {now : DateTime}
variable {limits : MandateSpendLimits}
variable {rows rows' : AList fun _ : String => MandateUsage}
variable {table table' : AList fun _ : String => UsageRow}

theorem sameReading (hMirrors : Mirrors rfc3339 rows table) :
    SameReading rfc3339 (.memory rows) (.sqlite table) :=
  sameReading_iff.mpr hMirrors.same

/-
  What acceptance writes to the table reads as what it keeps
  in the map when the text of the window's start reads back.
-/
theorem toUsage_upsert_eq
    (hMirrors : Mirrors rfc3339 rows table)
    (amountMinor : Int64)
    {start : DateTime}
    (hStart :
      (((MandateLedger.memory rows).usage rfc3339
        jti).prepared tenantId now limits.window).windowStart =
          some start) :
    let kept :=
      (((MandateLedger.memory rows).usage rfc3339 jti).prepared
        tenantId now limits.window).addSpend amountMinor
    UsageRow.toUsage rfc3339
        (UsageRow.upsert rfc3339 (table.lookup jti) kept) =
      { kept with
        windowStart := rfc3339.parse (rfc3339.print start) } := by
  intro kept
  have hKeptStart : kept.windowStart = some start := hStart
  have hOwner :
      kept.tenantId =
        if ((MandateLedger.sqlite table).usage rfc3339
            jti).tenantId.isEmpty then tenantId
        else ((MandateLedger.sqlite table).usage rfc3339
            jti).tenantId := by
    rw [← hMirrors.same jti]
    simp [kept, MandateUsage.addSpend, MandateUsage.prepared,
      MandateUsage.claimTenant_tenantId]
  have hTenant :
      (UsageRow.upsert rfc3339 (table.lookup jti)
        kept).tenantId.getD "" = kept.tenantId := by
    cases hRow : (table.lookup jti).bind UsageRow.tenantId with
    | none => simp [UsageRow.upsert, hRow]
    | some owner =>
        have hPresent :
            ((MandateLedger.sqlite table).usage rfc3339
              jti).tenantId = owner := by
          cases hFound : table.lookup jti with
          | none => simp [hFound] at hRow
          | some row =>
              have hRowTenant : row.tenantId = some owner := by
                simpa [hFound] using hRow
              simp [MandateLedger.usage, hFound,
                UsageRow.toUsage, hRowTenant]
        rw [hPresent] at hOwner
        by_cases hEmpty : owner.isEmpty = true
        · simp [UsageRow.upsert, hRow, hEmpty]
        · simp [UsageRow.upsert, hRow, hEmpty, hOwner]
  simp only [UsageRow.toUsage, hTenant]
  simp [UsageRow.upsert, hKeptStart]

/- Both sides write what reads as the same row. -/
theorem insert
    (hMirrors : Mirrors rfc3339 rows table)
    {entry : MandateUsage}
    {row : UsageRow}
    (hRow : row.toUsage rfc3339 = entry)
    (hStart :
      ∀ start, entry.windowStart = some start →
        rfc3339.parse (rfc3339.print start) = some start) :
    Mirrors rfc3339 (rows.insert jti entry)
      (table.insert jti row) := by
  constructor
  · intro other
    rw [MandateLedger.usage_memory_insert_apply,
      MandateLedger.usage_sqlite_insert_apply, hRow]
    split
    · rfl
    · exact hMirrors.same other
  · intro other start hSome
    rw [MandateLedger.usage_memory_insert_apply] at hSome
    split at hSome
    · exact hStart start hSome
    · exact hMirrors.readable other start hSome

/- What a call leaves behind when the backends still agree. -/
structure StillMirrors
    (rfc3339 : Rfc3339)
    (rows : AList fun _ : String => MandateUsage)
    (table : AList fun _ : String => UsageRow)
    (left right : LedgerAnswer × MandateLedger) : Prop where
  mirrors :
    ∃ rows' table',
      left.2 = .memory rows' ∧ right.2 = .sqlite table' ∧
        Mirrors rfc3339 rows' table'
  unchanged :
    left.1.Refuses →
      SameReading rfc3339 (.memory rows) left.2 ∧
        SameReading rfc3339 (.sqlite table) right.2

/- A call that changes neither ledger. -/
theorem stillMirrors_of_idle
    (hMirrors : Mirrors rfc3339 rows table)
    (answer other : LedgerAnswer) :
    StillMirrors rfc3339 rows table
      (answer, .memory rows) (other, .sqlite table) where
  mirrors := ⟨rows, table, rfl, rfl, hMirrors⟩
  unchanged := fun _ => ⟨SameReading.refl _, SameReading.refl _⟩

/-
  An admitted spend above the remaining budget. The backends
  still agree after it exactly when the prepared row is the
  present one.
-/
theorem refused_step
    (hMirrors : Mirrors rfc3339 rows table)
    (answer other : LedgerAnswer)
    (entry : MandateUsage) :
    (entry = (MandateLedger.memory rows).usage rfc3339 jti →
      StillMirrors rfc3339 rows table
        (answer, .memory (rows.insert jti entry))
        (other, .sqlite table)) ∧
    (SameReading rfc3339 (.memory (rows.insert jti entry))
        (.sqlite table) →
      entry =
        (MandateLedger.memory rows).usage rfc3339 jti) := by
  constructor
  · intro hEntry
    have hUsage :
        ∀ name,
          (MandateLedger.memory (rows.insert jti entry)).usage
              rfc3339 name =
            (MandateLedger.memory rows).usage
              rfc3339 name := by
      intro name
      rw [MandateLedger.usage_memory_insert_apply]
      split
      · rename_i hName
        rw [hName, hEntry]
      · rfl
    have hKept :
        Mirrors rfc3339 (rows.insert jti entry) table := by
      constructor
      · intro name
        rw [hUsage name]
        exact hMirrors.same name
      · intro name start hSome
        rw [hUsage name] at hSome
        exact hMirrors.readable name start hSome
    constructor
    · exact ⟨_, _, rfl, rfl, hKept⟩
    · intro _
      refine ⟨sameReading_iff.mpr ?_, SameReading.refl _⟩
      intro name
      exact (hUsage name).symm
  · intro hSame
    have hRead := sameReading_iff.mp hSame jti
    rw [MandateLedger.usage_memory_insert, ← hMirrors.same]
      at hRead
    exact hRead

/-
  An accepted spend. The backends still agree after it exactly
  when the start of a window it opens survives its text.
-/
theorem accepted_step
    (hMirrors : Mirrors rfc3339 rows table) :
    let usage := (MandateLedger.memory rows).usage rfc3339 jti
    let kept :=
      (usage.prepared tenantId now limits.window).addSpend
        amountMinor
    let left := MandateLedger.memory (rows.insert jti kept)
    let right :=
      MandateLedger.sqlite (table.insert jti
        (UsageRow.upsert rfc3339 (table.lookup jti) kept))
    let answer := LedgerAnswer.recorded (.ok ())
    let roundTrip :=
      usage.toWindow.Lapsed limits.window now →
        rfc3339.parse (rfc3339.print now) = some now
    (roundTrip →
      StillMirrors rfc3339 rows table
        (answer, left) (answer, right)) ∧
    (SameReading rfc3339 left right → roundTrip) := by
  intro usage kept left right answer roundTrip
  obtain ⟨start, hStart, hOrigin⟩ :
      ∃ start, kept.windowStart = some start ∧
        ((start = now ∧
            usage.toWindow.Lapsed limits.window now) ∨
          (usage.windowStart = some start ∧
            ¬ usage.toWindow.Lapsed limits.window now)) := by
    rcases usage.rollWindow_cases now limits.window with
      ⟨hLapsed, hNow, _⟩ | ⟨⟨start, hOld, hOpen⟩, hSame⟩
    · refine ⟨now, ?_, .inl ⟨rfl, hLapsed⟩⟩
      simpa [kept, MandateUsage.prepared,
        MandateUsage.addSpend] using hNow
    · refine ⟨start, ?_, .inr ⟨hOld, ?_⟩⟩
      · simpa [kept, MandateUsage.prepared,
          MandateUsage.addSpend, hSame] using hOld
      · intro hLapsed
        exact absurd (hLapsed start hOld) (not_lt.mpr hOpen)
  have hRow :=
    hMirrors.toUsage_upsert_eq amountMinor hStart
  constructor
  · intro hRound
    have hPrint :
        rfc3339.parse (rfc3339.print start) = some start := by
      rcases hOrigin with ⟨rfl, hLapsed⟩ | ⟨hOld, _⟩
      · exact hRound hLapsed
      · exact hMirrors.readable jti start hOld
    have hSameRow :
        UsageRow.toUsage rfc3339
            (UsageRow.upsert rfc3339 (table.lookup jti) kept) =
          kept := by
      rw [hRow, hPrint, ← hStart]
    constructor
    · refine ⟨_, _, rfl, rfl,
        hMirrors.insert hSameRow ?_⟩
      intro other hOther
      cases hStart.symm.trans hOther
      exact hPrint
    · intro hRefuses
      exact hRefuses.elim
  · intro hSame hLapsed
    have hRead := sameReading_iff.mp hSame jti
    rw [MandateLedger.usage_memory_insert,
      MandateLedger.usage_sqlite_insert, hRow] at hRead
    rcases hOrigin with ⟨rfl, _⟩ | ⟨_, hLive⟩
    · have hWindow :=
        congrArg MandateUsage.windowStart hRead
      exact hWindow.symm.trans hStart
    · exact absurd hLapsed hLive

/-
  One call: the answers are the same, and the backends still
  agree after it exactly when it is harmless.
-/
theorem step
    (hMirrors : Mirrors rfc3339 rows table)
    (call : LedgerCall) :
    let left := call.perform rfc3339 (.memory rows)
    let right := call.perform rfc3339 (.sqlite table)
    left.1 = right.1 ∧
      (call.Harmless rfc3339 (.memory rows) →
        StillMirrors rfc3339 rows table left right) ∧
      (SameReading rfc3339 left.2 right.2 →
        call.Harmless rfc3339 (.memory rows)) := by
  cases call with
  | usage jti =>
      refine ⟨?_, fun _ => hMirrors.stillMirrors_of_idle _ _,
        fun _ => trivial⟩
      exact congrArg LedgerAnswer.usage
        (hMirrors.sameReading jti).1
  | usageForTenant jti tenantId =>
      refine ⟨?_, fun _ => hMirrors.stillMirrors_of_idle _ _,
        fun _ => trivial⟩
      exact congrArg LedgerAnswer.owned
        ((hMirrors.sameReading jti).2 tenantId)
  | recordSpend jti tenantId amountMinor now limits =>
      by_cases hAdmits : limits.Admits amountMinor
      · have hMemory :=
          MandateLedger.tryRecordSpendChecked_memory
            rfc3339 jti tenantId now hAdmits rows
        have hSqlite :=
          MandateLedger.tryRecordSpendChecked_sqlite
            rfc3339 jti tenantId now hAdmits table
        dsimp only at hMemory hSqlite
        rw [← hMirrors.same jti] at hSqlite
        dsimp only [LedgerCall.perform, LedgerCall.Harmless]
        rw [hMemory, hSqlite]
        split
        · rename_i hOver
          refine ⟨rfl, ?_, ?_⟩
          · intro hHarmless
            exact (hMirrors.refused_step _ _ _).1
              ((hHarmless hAdmits).1 hOver)
          · intro hSame _
            refine ⟨fun _ =>
              (hMirrors.refused_step (.recorded (.ok ()))
                (.recorded (.ok ())) _).2 hSame, ?_⟩
            intro hFits
            exact absurd hOver (Int64.not_lt.mpr hFits)
        · rename_i hFits
          refine ⟨rfl, ?_, ?_⟩
          · intro hHarmless
            exact hMirrors.accepted_step.1
              ((hHarmless hAdmits).2 (Int64.not_lt.mp hFits))
          · intro hSame _
            refine ⟨fun hOver => absurd hOver hFits, ?_⟩
            intro _
            exact hMirrors.accepted_step.2 hSame
      · obtain ⟨result, hResult⟩ :=
          MandateLedger.tryRecordSpendChecked_of_not_admits
            rfc3339 jti tenantId now hAdmits
        dsimp only [LedgerCall.perform, LedgerCall.Harmless]
        rw [hResult, hResult]
        refine ⟨rfl,
          fun _ => hMirrors.stillMirrors_of_idle _ _, ?_⟩
        intro _ hAgain
        exact absurd hAgain hAdmits

/- A sequence of calls on two backends that agree. -/
theorem agree_iff
    (hMirrors : Mirrors rfc3339 rows table)
    (calls : List LedgerCall) :
    BackendsAgree rfc3339 calls (.memory rows)
        (.sqlite table) ↔
      Undisturbed rfc3339 calls (.memory rows) := by
  induction calls generalizing rows table with
  | nil => exact Iff.rfl
  | cons call calls ih =>
      obtain ⟨hAnswer, hKeep, hBack⟩ := hMirrors.step call
      dsimp only [BackendsAgree, Undisturbed]
      constructor
      · rintro ⟨_, hSame, _, hRest⟩
        have hHarmless := hBack hSame
        obtain ⟨rows', table', hLeft, hRight, hNext⟩ :=
          (hKeep hHarmless).mirrors
        rw [hLeft, hRight] at hRest
        refine ⟨hHarmless, ?_⟩
        rw [hLeft]
        exact (ih hNext).mp hRest
      · rintro ⟨hHarmless, hRest⟩
        have hStill := hKeep hHarmless
        obtain ⟨rows', table', hLeft, hRight, hNext⟩ :=
          hStill.mirrors
        refine ⟨hAnswer, ?_, hStill.unchanged, ?_⟩
        · rw [hLeft, hRight]
          exact hNext.sameReading
        · rw [hLeft] at hRest
          rw [hLeft, hRight]
          exact (ih hNext).mpr hRest

/- Two fresh backends. -/
theorem empty (rfc3339 : Rfc3339) :
    Mirrors rfc3339 ∅ ∅ where
  same := fun _ => rfl
  readable := fun _ _ hSome => nomatch hSome

end Mirrors

/-
  From two fresh backends, any sequence of calls is answered
  alike, reads alike after every call and loses nothing to a
  refusal exactly when each of its calls is harmless.
-/
theorem backendsAgree_iff_undisturbed
    (rfc3339 : Rfc3339)
    (calls : List LedgerCall) :
    BackendsAgree rfc3339 calls (.memory ∅) (.sqlite ∅) ↔
      Undisturbed rfc3339 calls (.memory ∅) :=
  (Mirrors.empty rfc3339).agree_iff calls

/-
  One spend of 200 on a mandate of 100: the map is left with a
  window that starts now and an owner, the table has no row.
-/
theorem backends_diverge :
    ¬ BackendsAgree concreteRfc3339
        [.recordSpend "m1" "acme" 200 (Duration.seconds 0)
          ⟨100, none, Duration.seconds 60⟩]
        (.memory ∅) (.sqlite ∅) := by
  rintro ⟨_, hSame, _⟩
  have hRead := sameReading_iff.mp hSame "m1"
  revert hRead
  decide

end Model

end IcpHandler
