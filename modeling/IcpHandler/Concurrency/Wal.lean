import Mathlib.Data.List.Nodup
import Mathlib.Logic.Function.Basic

/-
  Transactions on a database with snapshots and one writer, as
  a database with a write-ahead log has them. Each of them
  reads one row, changes it and writes it back. Its snapshot is
  taken when it reads; it takes the write lock when it writes,
  and is refused if another has committed in between.

  Main declarations:
    * `Change`, `Phase`, `State`, `Statement`
    * `step`, `Stepped`, `after`
    * `commitsSince`, `Undisturbed`
    * `Kept`, `Kept.step`
    * `Serialized`, `serialized_iff`
    * `exists_step`
-/

------------------------------------------------------------
-- Transactions
------------------------------------------------------------

namespace IcpHandler

namespace Concurrency

namespace Wal

/-
  A transaction on one row: what it makes of the row and what
  it answers. Without a result it writes nothing.
-/
structure Change (K R A : Type) where
  key : K
  change : R → Option (R × A)

/- How far a transaction is. -/
inductive Phase (R A : Type) where
  | idle
  | begun
  | selected (snapshot : Nat) (found : Option R)
  | updated (row : R) (answer : A)
  | ended (answer : Option A)

/-
  The rows that are committed and the number of commits, the
  holder of the write lock, how far every transaction is, and
  which have committed, the last one first.
-/
structure State (ι K R A : Type) where
  rows : K → Option R
  commits : Nat
  writer : Option ι
  phase : ι → Phase R A
  order : List ι

/- The statements of a transaction, and that it gives up. -/
inductive Statement (ι : Type) where
  | start (i : ι)
  | select (i : ι)
  | update (i : ι)
  | timeOut (i : ι)
  | commit (i : ι)
  deriving DecidableEq

section Steps

variable {ι K R A : Type} [DecidableEq ι] [DecidableEq K]

/- Nothing has begun. -/
def State.init (rows : K → Option R) : State ι K R A where
  rows := rows
  commits := 0
  writer := none
  phase := fun _ => .idle
  order := []

def State.enter
    (s : State ι K R A)
    (i : ι)
    (phase : Phase R A) : State ι K R A :=
  { s with phase := Function.update s.phase i phase }

/- The transaction takes the write lock for this row. -/
def State.lock
    (s : State ι K R A)
    (i : ι)
    (row : R)
    (answer : A) : State ι K R A :=
  { s.enter i (.updated row answer) with writer := some i }

/- The row of the transaction becomes visible. -/
def State.land
    (s : State ι K R A)
    (i : ι)
    (key : K)
    (row : R)
    (answer : A) : State ι K R A where
  rows := Function.update s.rows key (some row)
  commits := s.commits + 1
  writer := none
  phase := Function.update s.phase i (.ended (some answer))
  order := i :: s.order

variable (tx : ι → Change K R A)

/-
  One statement. A transaction that has begun has no snapshot
  before it reads. To write it needs a snapshot of the last
  commit, or it is refused at once; and it waits for the write
  lock, or gives up.
-/
def step
    (s : State ι K R A) :
    Statement ι → Option (State ι K R A)
  | .start i =>
      match s.phase i with
      | .idle => some (s.enter i .begun)
      | _ => none
  | .select i =>
      match s.phase i with
      | .begun =>
          some (s.enter i
            (.selected s.commits (s.rows (tx i).key)))
      | _ => none
  | .update i =>
      match s.phase i with
      | .selected snapshot found =>
          match found.bind (tx i).change with
          | none => some (s.enter i (.ended none))
          | some (row, answer) =>
              if snapshot < s.commits then
                some (s.enter i (.ended none))
              else if s.writer.isSome then none
              else some (s.lock i row answer)
      | _ => none
  | .timeOut i =>
      match s.phase i with
      | .selected _ _ =>
          if s.writer.isSome then
            some (s.enter i (.ended none))
          else none
      | _ => none
  | .commit i =>
      match s.phase i with
      | .updated row answer =>
          some (s.land i (tx i).key row answer)
      | _ => none

/- All that a statement can do. -/
inductive Stepped
    (s : State ι K R A) :
    Statement ι → State ι K R A → Prop where
  | started
      (i : ι)
      (hPhase : s.phase i = .idle) :
      Stepped s (.start i) (s.enter i .begun)
  | selected
      (i : ι)
      (hPhase : s.phase i = .begun) :
      Stepped s (.select i)
        (s.enter i (.selected s.commits (s.rows (tx i).key)))
  | unwritten
      (i : ι)
      (snapshot : Nat)
      (found : Option R)
      (hPhase : s.phase i = .selected snapshot found)
      (hNone : found.bind (tx i).change = none) :
      Stepped s (.update i) (s.enter i (.ended none))
  | refused
      (i : ι)
      (snapshot : Nat)
      (found : Option R)
      (hPhase : s.phase i = .selected snapshot found)
      (hStale : snapshot < s.commits) :
      Stepped s (.update i) (s.enter i (.ended none))
  | locked
      (i : ι)
      (snapshot : Nat)
      (found : Option R)
      (row : R)
      (answer : A)
      (hPhase : s.phase i = .selected snapshot found)
      (hSome : found.bind (tx i).change = some (row, answer))
      (hFresh : ¬ snapshot < s.commits)
      (hFree : s.writer = none) :
      Stepped s (.update i) (s.lock i row answer)
  | timedOut
      (i : ι)
      (snapshot : Nat)
      (found : Option R)
      (hPhase : s.phase i = .selected snapshot found) :
      Stepped s (.timeOut i) (s.enter i (.ended none))
  | committed
      (i : ι)
      (row : R)
      (answer : A)
      (hPhase : s.phase i = .updated row answer) :
      Stepped s (.commit i) (s.land i (tx i).key row answer)

variable {tx}

theorem step_cases
    {s s' : State ι K R A}
    {statement : Statement ι}
    (hStep : step tx s statement = some s') :
    Stepped tx s statement s' := by
  cases statement with
  | start i =>
      rw [step] at hStep
      split at hStep
      · rename_i hPhase
        cases hStep
        exact .started i hPhase
      · cases hStep
  | select i =>
      rw [step] at hStep
      split at hStep
      · rename_i hPhase
        cases hStep
        exact .selected i hPhase
      · cases hStep
  | update i =>
      rw [step] at hStep
      split at hStep
      · rename_i snapshot found hPhase
        split at hStep
        · rename_i hNone
          cases hStep
          exact .unwritten i snapshot found hPhase hNone
        · rename_i row answer hSome
          split at hStep
          · rename_i hStale
            cases hStep
            exact .refused i snapshot found hPhase hStale
          · rename_i hFresh
            split at hStep
            · cases hStep
            · rename_i hFree
              cases hStep
              rw [Bool.not_eq_true, Option.isSome_eq_false_iff,
                Option.isNone_iff_eq_none] at hFree
              exact .locked i snapshot found row answer hPhase
                hSome hFresh hFree
      · cases hStep
  | timeOut i =>
      rw [step] at hStep
      split at hStep
      · rename_i snapshot found hPhase
        split at hStep
        · cases hStep
          exact .timedOut i snapshot found hPhase
        · cases hStep
      · cases hStep
  | commit i =>
      rw [step] at hStep
      split at hStep
      · rename_i row answer hPhase
        cases hStep
        exact .committed i row answer hPhase
      · cases hStep

/- The state after some statements, the last one first. -/
def after
    (tx : ι → Change K R A)
    (s : State ι K R A) :
    List (Statement ι) → Option (State ι K R A)
  | [] => some s
  | statement :: past =>
      (after tx s past).bind fun before =>
        step tx before statement

end Steps

end Wal

end Concurrency

end IcpHandler

------------------------------------------------------------
-- What Has Been Committed
------------------------------------------------------------

namespace IcpHandler

namespace Concurrency

namespace Wal

section Invariant

variable {ι K R A : Type} [DecidableEq ι] [DecidableEq K]

/- How often others have committed since the last SELECT. -/
def commitsSince (i : ι) : List (Statement ι) → Nat
  | [] => 0
  | .select j :: past => if j = i then 0 else commitsSince i past
  | .commit _ :: past => commitsSince i past + 1
  | _ :: past => commitsSince i past

/-
  Between the SELECT and the UPDATE of a transaction no other
  one commits, and none gives up.
-/
def Undisturbed : List (Statement ι) → Prop
  | [] => True
  | .update i :: past => commitsSince i past = 0 ∧ Undisturbed past
  | .timeOut _ :: _ => False
  | _ :: past => Undisturbed past

instance Undisturbed.decidable :
    (past : List (Statement ι)) → Decidable (Undisturbed past)
  | [] => isTrue trivial
  | .update i :: past =>
      have := Undisturbed.decidable past
      inferInstanceAs
        (Decidable (commitsSince i past = 0 ∧ Undisturbed past))
  | .timeOut _ :: _ => isFalse fun hNo => hNo
  | .start _ :: past => Undisturbed.decidable past
  | .select _ :: past => Undisturbed.decidable past
  | .commit _ :: past => Undisturbed.decidable past

/- The transaction on its own, from its start to its end. -/
def Change.apply
    (change : Change K R A)
    (rows : K → Option R) : K → Option R :=
  match (rows change.key).bind change.change with
  | none => rows
  | some (row, _) => Function.update rows change.key (some row)

/- The transactions on their own, the first one last. -/
def applied
    (tx : ι → Change K R A)
    (rows : K → Option R)
    (order : List ι) : K → Option R :=
  order.foldr (fun i rows => (tx i).apply rows) rows

/- The transaction has not written anything yet. -/
def Phase.Reading : Phase R A → Prop
  | .idle | .begun | .selected _ _ => True
  | .updated _ _ | .ended _ => False

theorem Phase.Reading.of_eq
    {phase phase' : Phase R A}
    (hPhase : phase = phase')
    (hReading : phase'.Reading) :
    phase.Reading := by
  rw [hPhase]
  exact hReading

/- It has neither a snapshot nor the lock. -/
def Phase.Plain : Phase R A → Prop
  | .begun | .ended none => True
  | _ => False

/-
  The committed rows are those of the transactions that have
  committed, each on its own. A transaction that holds the lock
  writes what it would write on its own.
-/
structure Kept
    (tx : ι → Change K R A)
    (rows : K → Option R)
    (past : List (Statement ι))
    (s : State ι K R A) : Prop where
  serial : s.rows = applied tx rows s.order
  nodup : s.order.Nodup
  landed :
    ∀ i, i ∈ s.order ↔ ∃ answer, s.phase i = .ended (some answer)
  seen :
    ∀ i snapshot found, s.phase i = .selected snapshot found →
      snapshot + commitsSince i past = s.commits ∧
        (commitsSince i past = 0 →
          found = s.rows (tx i).key)
  writing :
    ∀ i row answer, s.phase i = .updated row answer →
      s.writer = some i ∧
        (s.rows (tx i).key).bind (tx i).change =
          some (row, answer)
  holder :
    ∀ i, s.writer = some i →
      ∃ row answer, s.phase i = .updated row answer

variable {tx : ι → Change K R A} {rows : K → Option R}
variable {past : List (Statement ι)}
variable {s s' : State ι K R A} {statement : Statement ι}
variable {i j : ι} {phase : Phase R A}

omit [DecidableEq K] in
@[simp] theorem enter_phase_self :
    (s.enter i phase).phase i = phase := by
  change Function.update s.phase i phase i = phase
  exact Function.update_self i phase s.phase

omit [DecidableEq K] in
@[simp] theorem enter_phase_of_ne (hOther : j ≠ i) :
    (s.enter i phase).phase j = s.phase j := by
  change Function.update s.phase i phase j = s.phase j
  exact Function.update_of_ne hOther phase s.phase

theorem kept_init :
    Kept tx rows [] (State.init rows : State ι K R A) where
  serial := rfl
  nodup := List.nodup_nil
  landed i := by
    refine iff_of_false List.not_mem_nil ?_
    rintro ⟨answer, hPhase⟩
    cases hPhase
  seen i snapshot found hPhase := by cases hPhase
  writing i row answer hPhase := by cases hPhase
  holder i hWriter := by cases hWriter

/-
  A transaction that goes on without writing. Nothing is
  committed, and the others do not notice.
-/
theorem Kept.enter
    (hKept : Kept tx rows past s)
    (hCounts :
      ∀ j, j ≠ i →
        commitsSince j (statement :: past) = commitsSince j past)
    (hBefore : (s.phase i).Reading)
    (hAfter : ∀ answer, phase ≠ .ended (some answer))
    (hWriting : ∀ row answer, phase ≠ .updated row answer)
    (hSeen :
      ∀ snapshot found, phase = .selected snapshot found →
        snapshot + commitsSince i (statement :: past) =
            s.commits ∧
          (commitsSince i (statement :: past) = 0 →
            found = s.rows (tx i).key)) :
    Kept tx rows (statement :: past) (s.enter i phase) where
  serial := hKept.serial
  nodup := hKept.nodup
  landed j := by
    by_cases hOwn : j = i
    · subst hOwn
      rw [enter_phase_self]
      refine (hKept.landed j).trans (iff_of_false ?_ ?_)
      · rintro ⟨answer, hPhase⟩
        rw [hPhase] at hBefore
        exact hBefore
      · rintro ⟨answer, hPhase⟩
        exact hAfter answer hPhase
    · rw [enter_phase_of_ne hOwn]
      exact hKept.landed j
  seen j snapshot found hPhase := by
    by_cases hOwn : j = i
    · subst hOwn
      rw [enter_phase_self] at hPhase
      exact hSeen snapshot found hPhase
    · rw [enter_phase_of_ne hOwn] at hPhase
      rw [hCounts j hOwn]
      exact hKept.seen j snapshot found hPhase
  writing j row answer hPhase := by
    by_cases hOwn : j = i
    · subst hOwn
      rw [enter_phase_self] at hPhase
      exact absurd hPhase (hWriting row answer)
    · rw [enter_phase_of_ne hOwn] at hPhase
      exact hKept.writing j row answer hPhase
  holder j hWriter := by
    obtain ⟨row, answer, hPhase⟩ := hKept.holder j hWriter
    by_cases hOwn : j = i
    · subst hOwn
      rw [hPhase] at hBefore
      exact hBefore.elim
    · rw [enter_phase_of_ne hOwn]
      exact ⟨row, answer, hPhase⟩

/- A transaction that begins, or that ends with nothing. -/
theorem Kept.plain
    (hKept : Kept tx rows past s)
    (hCounts :
      ∀ j,
        commitsSince j (statement :: past) = commitsSince j past)
    (hBefore : (s.phase i).Reading)
    (hPlain : phase.Plain) :
    Kept tx rows (statement :: past) (s.enter i phase) := by
  refine hKept.enter (fun j _ => hCounts j) hBefore ?_ ?_ ?_
  · rintro answer rfl
    exact hPlain
  · rintro row answer rfl
    exact hPlain
  · rintro snapshot found rfl
    exact hPlain.elim

/- A transaction that takes the write lock. -/
theorem Kept.lock
    {snapshot : Nat}
    {found : Option R}
    {row : R}
    {answer : A}
    (hKept : Kept tx rows past s)
    (hPhase : s.phase i = .selected snapshot found)
    (hSome : found.bind (tx i).change = some (row, answer))
    (hFresh : ¬ snapshot < s.commits)
    (hFree : s.writer = none) :
    Kept tx rows (.update i :: past) (s.lock i row answer) where
  serial := hKept.serial
  nodup := hKept.nodup
  landed j := by
    change j ∈ s.order ↔ ∃ answer',
      (s.enter i (.updated row answer)).phase j =
        .ended (some answer')
    by_cases hOwn : j = i
    · subst hOwn
      rw [enter_phase_self]
      refine (hKept.landed j).trans (iff_of_false ?_ ?_)
      · rintro ⟨answer', hEnded⟩
        rw [hPhase] at hEnded
        cases hEnded
      · rintro ⟨answer', hEnded⟩
        cases hEnded
    · rw [enter_phase_of_ne hOwn]
      exact hKept.landed j
  seen j snapshot' found' hSelected := by
    change (s.enter i (.updated row answer)).phase j =
      .selected snapshot' found' at hSelected
    by_cases hOwn : j = i
    · subst hOwn
      rw [enter_phase_self] at hSelected
      cases hSelected
    · rw [enter_phase_of_ne hOwn] at hSelected
      exact hKept.seen j snapshot' found' hSelected
  writing j row' answer' hUpdated := by
    change (s.enter i (.updated row answer)).phase j =
      .updated row' answer' at hUpdated
    by_cases hOwn : j = i
    · subst hOwn
      rw [enter_phase_self] at hUpdated
      cases hUpdated
      obtain ⟨hCommits, hFound⟩ :=
        hKept.seen j snapshot found hPhase
      rw [hFound (by omega)] at hSome
      exact ⟨rfl, hSome⟩
    · rw [enter_phase_of_ne hOwn] at hUpdated
      obtain ⟨hWriter, -⟩ := hKept.writing j row' answer' hUpdated
      rw [hFree] at hWriter
      cases hWriter
  holder j hWriter := by
    cases Option.some.inj hWriter
    exact ⟨row, answer, enter_phase_self⟩

/- A transaction that commits. -/
theorem Kept.land
    {row : R}
    {answer : A}
    (hKept : Kept tx rows past s)
    (hPhase : s.phase i = .updated row answer) :
    Kept tx rows (.commit i :: past)
      (s.land i (tx i).key row answer) := by
  have hOwnPhase :
      (s.land i (tx i).key row answer).phase i =
        .ended (some answer) := by
    change Function.update s.phase i _ i = _
    exact Function.update_self i _ s.phase
  have hOtherPhase :
      ∀ j, j ≠ i →
        (s.land i (tx i).key row answer).phase j = s.phase j := by
    intro j hOther
    change Function.update s.phase i _ j = _
    exact Function.update_of_ne hOther _ s.phase
  obtain ⟨hWriter, hWritten⟩ := hKept.writing i row answer hPhase
  constructor
  · change Function.update s.rows (tx i).key (some row) =
      (tx i).apply (applied tx rows s.order)
    rw [← hKept.serial, Change.apply, hWritten]
  · refine List.nodup_cons.mpr ⟨fun hMem => ?_, hKept.nodup⟩
    obtain ⟨answer', hEnded⟩ := (hKept.landed i).mp hMem
    rw [hPhase] at hEnded
    cases hEnded
  · intro j
    by_cases hOwn : j = i
    · subst hOwn
      exact iff_of_true List.mem_cons_self ⟨answer, hOwnPhase⟩
    · rw [hOtherPhase j hOwn]
      refine Iff.trans ?_ (hKept.landed j)
      exact List.mem_cons.trans (or_iff_right hOwn)
  · intro j snapshot found hSelected
    by_cases hOwn : j = i
    · subst hOwn
      rw [hOwnPhase] at hSelected
      cases hSelected
    · rw [hOtherPhase j hOwn] at hSelected
      obtain ⟨hCommits, -⟩ :=
        hKept.seen j snapshot found hSelected
      refine ⟨congrArg (· + 1) hCommits, fun hNone => ?_⟩
      exact absurd hNone (Nat.succ_ne_zero _)
  · intro j row' answer' hUpdated
    by_cases hOwn : j = i
    · subst hOwn
      rw [hOwnPhase] at hUpdated
      cases hUpdated
    · rw [hOtherPhase j hOwn] at hUpdated
      obtain ⟨hHolder, -⟩ := hKept.writing j row' answer' hUpdated
      rw [hWriter] at hHolder
      exact absurd (Option.some.inj hHolder).symm hOwn
  · exact fun j hHolder => nomatch hHolder

/- One statement keeps the invariant. -/
theorem Kept.step
    (hKept : Kept tx rows past s)
    (hStep : Wal.step tx s statement = some s') :
    Kept tx rows (statement :: past) s' := by
  cases step_cases hStep with
  | started i hPhase =>
      exact hKept.plain (fun _ => rfl)
        (Phase.Reading.of_eq hPhase trivial) trivial
  | selected i hPhase =>
      refine hKept.enter (fun j hOther => if_neg hOther.symm)
        (Phase.Reading.of_eq hPhase trivial) (fun _ hNo => nomatch hNo)
        (fun _ _ hNo => nomatch hNo) ?_
      intro snapshot found hSelected
      cases hSelected
      have hNone : commitsSince i (.select i :: past) = 0 :=
        if_pos rfl
      rw [hNone]
      exact ⟨rfl, fun _ => rfl⟩
  | unwritten i snapshot found hPhase hNone =>
      exact hKept.plain (fun _ => rfl)
        (Phase.Reading.of_eq hPhase trivial) trivial
  | refused i snapshot found hPhase hStale =>
      exact hKept.plain (fun _ => rfl)
        (Phase.Reading.of_eq hPhase trivial) trivial
  | locked i snapshot found row answer hPhase hSome hFresh
      hFree =>
      exact hKept.lock hPhase hSome hFresh hFree
  | timedOut i snapshot found hPhase =>
      exact hKept.plain (fun _ => rfl)
        (Phase.Reading.of_eq hPhase trivial) trivial
  | committed i row answer hPhase => exact hKept.land hPhase

/- And so do all statements, by induction on them. -/
theorem kept_after
    (hAfter : after tx (.init rows) past = some s) :
    Kept tx rows past s := by
  induction past generalizing s with
  | nil =>
      cases hAfter
      exact kept_init
  | cons statement past ih =>
      rw [after, Option.bind_eq_some_iff] at hAfter
      obtain ⟨before, hBefore, hStep⟩ := hAfter
      exact (ih hBefore).step hStep

end Invariant

end Wal

end Concurrency

end IcpHandler

------------------------------------------------------------
-- Refusals
------------------------------------------------------------

namespace IcpHandler

namespace Concurrency

namespace Wal

section Refusals

variable {ι K R A : Type} [DecidableEq ι] [DecidableEq K]

/-
  On a valid row each transaction has something to write, and
  that is valid again.
-/
def Sound
    (tx : ι → Change K R A)
    (valid : K → R → Prop) : Prop :=
  ∀ i row, valid (tx i).key row →
    ∃ row' answer, (tx i).change row = some (row', answer) ∧
      valid (tx i).key row'

/- Each transaction has its row. -/
def Present
    (tx : ι → Change K R A)
    (valid : K → R → Prop)
    (rows : K → Option R) : Prop :=
  ∀ i, ∃ row, rows (tx i).key = some row ∧ valid (tx i).key row

/- The rows that are stored, read or about to be written. -/
structure Readable
    (tx : ι → Change K R A)
    (valid : K → R → Prop)
    (s : State ι K R A) : Prop where
  present : Present tx valid s.rows
  found :
    ∀ i snapshot found, s.phase i = .selected snapshot found →
      ∃ row, found = some row ∧ valid (tx i).key row
  updated :
    ∀ i row answer, s.phase i = .updated row answer →
      valid (tx i).key row

variable {tx : ι → Change K R A} {valid : K → R → Prop}
variable {rows : K → Option R} {past : List (Statement ι)}
variable {s s' : State ι K R A} {statement : Statement ι}
variable {i : ι} {phase : Phase R A}

omit [DecidableEq K] in
theorem Readable.enter
    (hReadable : Readable tx valid s)
    (hFound :
      ∀ snapshot found, phase = .selected snapshot found →
        ∃ row, found = some row ∧ valid (tx i).key row)
    (hUpdated :
      ∀ row answer, phase = .updated row answer →
        valid (tx i).key row) :
    Readable tx valid (s.enter i phase) where
  present := hReadable.present
  found j snapshot found hPhase := by
    by_cases hOwn : j = i
    · subst hOwn
      rw [enter_phase_self] at hPhase
      exact hFound snapshot found hPhase
    · rw [enter_phase_of_ne hOwn] at hPhase
      exact hReadable.found j snapshot found hPhase
  updated j row answer hPhase := by
    by_cases hOwn : j = i
    · subst hOwn
      rw [enter_phase_self] at hPhase
      exact hUpdated row answer hPhase
    · rw [enter_phase_of_ne hOwn] at hPhase
      exact hReadable.updated j row answer hPhase

omit [DecidableEq K] in
theorem Readable.plain
    (hReadable : Readable tx valid s)
    (hPlain : phase.Plain) :
    Readable tx valid (s.enter i phase) := by
  refine hReadable.enter ?_ ?_
  · rintro snapshot found rfl
    exact hPlain.elim
  · rintro row answer rfl
    exact hPlain.elim

omit [DecidableEq ι] [DecidableEq K] in
/- What a sound transaction has found it can change. -/
theorem Readable.changed
    (hReadable : Readable tx valid s)
    (hSound : Sound tx valid)
    {snapshot : Nat}
    {found : Option R}
    (hPhase : s.phase i = .selected snapshot found) :
    ∃ row answer,
      found.bind (tx i).change = some (row, answer) ∧
        valid (tx i).key row := by
  obtain ⟨row, rfl, hValid⟩ :=
    hReadable.found i snapshot found hPhase
  exact hSound i row hValid

theorem Readable.step
    (hReadable : Readable tx valid s)
    (hSound : Sound tx valid)
    (hStep : Wal.step tx s statement = some s') :
    Readable tx valid s' := by
  cases step_cases hStep with
  | started i hPhase => exact hReadable.plain trivial
  | selected i hPhase =>
      refine hReadable.enter ?_ (fun _ _ hNo => nomatch hNo)
      intro snapshot found hSelected
      cases hSelected
      exact hReadable.present i
  | unwritten i snapshot found hPhase hNone =>
      exact hReadable.plain trivial
  | refused i snapshot found hPhase hStale =>
      exact hReadable.plain trivial
  | locked i snapshot found row answer hPhase hSome hFresh
      hFree =>
      obtain ⟨row', answer', hChanged, hValid⟩ :=
        hReadable.changed hSound hPhase
      have hLocked :
          Readable tx valid (s.enter i (.updated row answer)) := by
        refine hReadable.enter (fun _ _ hNo => nomatch hNo) ?_
        intro _ _ hUpdated
        cases hUpdated
        cases hChanged.symm.trans hSome
        exact hValid
      exact ⟨hLocked.present, hLocked.found, hLocked.updated⟩
  | timedOut i snapshot found hPhase =>
      exact hReadable.plain trivial
  | committed i row answer hPhase =>
      have hLanded :
          Readable tx valid (s.enter i (.ended (some answer))) :=
        hReadable.enter (fun _ _ hNo => nomatch hNo)
          (fun _ _ hNo => nomatch hNo)
      refine ⟨fun j => ?_, hLanded.found, hLanded.updated⟩
      change ∃ stored, Function.update s.rows (tx i).key
        (some row) (tx j).key = some stored ∧ _
      by_cases hKey : (tx j).key = (tx i).key
      · rw [hKey, Function.update_self]
        exact ⟨row, rfl, hReadable.updated i row answer hPhase⟩
      · rw [Function.update_of_ne hKey]
        exact hReadable.present j

theorem readable_after
    (hSound : Sound tx valid)
    (hPresent : Present tx valid rows)
    (hAfter : after tx (.init rows) past = some s) :
    Readable tx valid s := by
  induction past generalizing s with
  | nil =>
      cases hAfter
      exact ⟨hPresent, nofun, nofun⟩
  | cons statement past ih =>
      rw [after, Option.bind_eq_some_iff] at hAfter
      obtain ⟨before, hBefore, hStep⟩ := hAfter
      exact (ih hBefore).step hSound hStep

/- No transaction has ended with nothing. -/
def NoneLost (s : State ι K R A) : Prop :=
  ∀ i, s.phase i ≠ .ended none

omit [DecidableEq K] in
theorem noneLost_enter
    {earlier : Phase R A}
    (hPhase : s.phase i = earlier)
    (hEarlier : earlier ≠ .ended none)
    (hLater : phase ≠ .ended none) :
    NoneLost (s.enter i phase) ↔ NoneLost s := by
  refine forall_congr' fun j => ?_
  by_cases hOwn : j = i
  · subst hOwn
    rw [enter_phase_self, hPhase]
    exact iff_of_true hLater hEarlier
  · rw [enter_phase_of_ne hOwn]

omit [DecidableEq K] in
theorem not_noneLost_enter :
    ¬ NoneLost (s.enter i (.ended none)) :=
  fun hNone => hNone i enter_phase_self

/-
  Whether a transaction is lost is told by the statements: one
  that is undisturbed is not, and every other one is.
-/
theorem noneLost_iff
    (hSound : Sound tx valid)
    (hPresent : Present tx valid rows)
    (hAfter : after tx (.init rows) past = some s) :
    NoneLost s ↔ Undisturbed past := by
  induction past generalizing s with
  | nil =>
      cases hAfter
      exact iff_of_true (fun _ hNo => nomatch hNo) trivial
  | cons statement past ih =>
      rw [after, Option.bind_eq_some_iff] at hAfter
      obtain ⟨before, hBefore, hStep⟩ := hAfter
      have hKept := kept_after hBefore
      have hReadable := readable_after hSound hPresent hBefore
      have hPast := ih hBefore
      cases step_cases hStep with
      | started i hPhase =>
          refine Iff.trans (noneLost_enter hPhase ?_ ?_) hPast
          · nofun
          · nofun
      | selected i hPhase =>
          refine Iff.trans (noneLost_enter hPhase ?_ ?_) hPast
          · nofun
          · nofun
      | unwritten i snapshot found hPhase hNone =>
          obtain ⟨row, answer, hChanged, -⟩ :=
            hReadable.changed hSound hPhase
          rw [hNone] at hChanged
          cases hChanged
      | refused i snapshot found hPhase hStale =>
          obtain ⟨hCommits, -⟩ :=
            hKept.seen i snapshot found hPhase
          refine iff_of_false not_noneLost_enter ?_
          rintro ⟨hFresh, -⟩
          omega
      | locked i snapshot found row answer hPhase hSome hFresh
          hFree =>
          obtain ⟨hCommits, -⟩ :=
            hKept.seen i snapshot found hPhase
          have hSince : commitsSince i past = 0 := by omega
          change NoneLost (before.enter i (.updated row answer)) ↔
            commitsSince i past = 0 ∧ Undisturbed past
          rw [and_iff_right hSince]
          refine Iff.trans (noneLost_enter hPhase ?_ ?_) hPast
          · nofun
          · nofun
      | timedOut i snapshot found hPhase =>
          exact iff_of_false not_noneLost_enter fun hNo => hNo
      | committed i row answer hPhase =>
          change NoneLost
            (before.enter i (.ended (some answer))) ↔ _
          refine Iff.trans (noneLost_enter hPhase ?_ ?_) hPast
          · nofun
          · nofun

end Refusals

end Wal

end Concurrency

end IcpHandler

------------------------------------------------------------
-- Serializing
------------------------------------------------------------

namespace IcpHandler

namespace Concurrency

namespace Wal

section Serializing

variable {ι K R A : Type} [DecidableEq ι] [DecidableEq K]

/- Every transaction that has begun has ended. -/
def State.Done (s : State ι K R A) : Prop :=
  ∀ i, s.phase i = .idle ∨ ∃ answer, s.phase i = .ended answer

/-
  Every transaction that has begun has its effect, and the rows
  are those of all of them, each on its own, in some order.
-/
structure Serialized
    (tx : ι → Change K R A)
    (rows : K → Option R)
    (s : State ι K R A) : Prop where
  landed :
    ∀ i, s.phase i ≠ .idle →
      ∃ answer, s.phase i = .ended (some answer)
  serial :
    ∃ order : List ι, order.Nodup ∧
      (∀ i, i ∈ order ↔ s.phase i ≠ .idle) ∧
      s.rows = applied tx rows order

variable {tx : ι → Change K R A} {valid : K → R → Prop}
variable {rows : K → Option R} {past : List (Statement ι)}
variable {s : State ι K R A}

theorem serialized_iff
    (hSound : Sound tx valid)
    (hPresent : Present tx valid rows)
    (hAfter : after tx (.init rows) past = some s)
    (hDone : s.Done) :
    Serialized tx rows s ↔ Undisturbed past := by
  rw [← noneLost_iff hSound hPresent hAfter]
  constructor
  · intro hSerialized i hLost
    obtain ⟨answer, hEnded⟩ := hSerialized.landed i (by
      rw [hLost]
      nofun)
    rw [hLost] at hEnded
    cases hEnded
  · intro hNone
    have hKept := kept_after hAfter
    have hLanded :
        ∀ i, s.phase i ≠ .idle →
          ∃ answer, s.phase i = .ended (some answer) := by
      intro i hStarted
      obtain ⟨answer, hEnded⟩ :=
        (hDone i).resolve_left hStarted
      cases answer with
      | none => exact absurd hEnded (hNone i)
      | some answer => exact ⟨answer, hEnded⟩
    refine ⟨hLanded, s.order, hKept.nodup, fun i => ?_,
      hKept.serial⟩
    refine (hKept.landed i).trans ⟨?_, hLanded i⟩
    rintro ⟨answer, hEnded⟩
    rw [hEnded]
    nofun

/-
  No transaction waits for ever: as long as one is under way,
  one of them can go on without giving up.
-/
theorem exists_step
    {i : ι}
    (hAfter : after tx (.init rows) past = some s)
    (hStarted : s.phase i ≠ .idle)
    (hUnderWay : ∀ answer, s.phase i ≠ .ended answer) :
    ∃ statement s', (∀ j, statement ≠ .timeOut j) ∧
      step tx s statement = some s' := by
  have hKept := kept_after hAfter
  cases hPhase : s.phase i with
  | idle => exact absurd hPhase hStarted
  | begun =>
      refine ⟨.select i,
        s.enter i (.selected s.commits (s.rows (tx i).key)),
        nofun, ?_⟩
      rw [step, hPhase]
  | selected snapshot found =>
      cases hWriter : s.writer with
      | none =>
          refine ⟨.update i, ?_⟩
          rw [step, hPhase, hWriter]
          dsimp only
          split
          · exact ⟨_, nofun, rfl⟩
          · split
            · exact ⟨_, nofun, rfl⟩
            · exact ⟨_, nofun, rfl⟩
      | some j =>
          obtain ⟨row, answer, hHolder⟩ := hKept.holder j hWriter
          refine ⟨.commit j, s.land j (tx j).key row answer,
            nofun, ?_⟩
          rw [step, hHolder]
  | updated row answer =>
      refine ⟨.commit i, s.land i (tx i).key row answer,
        nofun, ?_⟩
      rw [step, hPhase]
  | ended answer => exact absurd hPhase (hUnderWay answer)

end Serializing

end Wal

end Concurrency

end IcpHandler
