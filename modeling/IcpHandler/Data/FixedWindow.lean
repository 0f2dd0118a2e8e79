import Mathlib.Algebra.Order.Monoid.Defs
import Mathlib.Algebra.BigOperators.Group.List.Basic
import Mathlib.Tactic.Abel

/-
  A fixed-window spending limit. A window opens at the first
  charge after the previous window has run out, and charges
  are accepted while the sum of the window stays within the
  limit. Over any interval of the window's length at most
  twice the limit is accepted, because such an interval meets
  at most two windows.

  Main declarations:
    * `Window`
    * `Window.Lapsed`
    * `Window.accept`
    * `totalIn`
    * `Tracks`
    * `Tracks.reopen`
    * `Tracks.accept`
-/

------------------------------------------------------------
-- Sums over Dated Amounts
------------------------------------------------------------

namespace IcpHandler

namespace Data

namespace FixedWindow

variable {T M : Type}
variable [AddCommMonoid M]

/- The sum of the amounts whose date satisfies `p`. -/
def totalIn
    (p : T → Prop)
    [DecidablePred p]
    (entries : List (T × M)) : M :=
  ((entries.filter fun entry => p entry.1).map Prod.snd).sum

@[simp] theorem totalIn_nil
    (p : T → Prop)
    [DecidablePred p] :
    totalIn p ([] : List (T × M)) = 0 :=
  rfl

theorem totalIn_cons
    (p : T → Prop)
    [DecidablePred p]
    (date : T)
    (amount : M)
    (entries : List (T × M)) :
    totalIn p ((date, amount) :: entries) =
      (if p date then amount else 0) + totalIn p entries := by
  by_cases hDate : p date <;> simp [totalIn, hDate]

theorem totalIn_eq_zero
    {p : T → Prop}
    [DecidablePred p]
    {entries : List (T × M)}
    (hNone : ∀ entry ∈ entries, ¬ p entry.1) :
    totalIn p entries = 0 := by
  have hEmpty :
      (entries.filter fun entry => p entry.1) = [] := by
    simpa [List.filter_eq_nil_iff] using hNone
  simp [totalIn, hEmpty]

variable [LinearOrder M] [IsOrderedAddMonoid M]

theorem totalIn_nonneg
    {p : T → Prop}
    [DecidablePred p]
    {entries : List (T × M)}
    (hPos : ∀ entry ∈ entries, 0 ≤ entry.2) :
    0 ≤ totalIn p entries := by
  induction entries with
  | nil => simp
  | cons entry entries ih =>
      rcases entry with ⟨date, amount⟩
      rw [totalIn_cons]
      have hRest := ih fun other hOther =>
        hPos other (List.mem_cons_of_mem _ hOther)
      have hAmount : 0 ≤ amount := hPos (date, amount) (by simp)
      split
      · exact add_nonneg hAmount hRest
      · simpa using hRest

/- A sum is at most the sums over two parts that cover it. -/
theorem totalIn_le_add
    {p q r : T → Prop}
    [DecidablePred p] [DecidablePred q] [DecidablePred r]
    {entries : List (T × M)}
    (hPos : ∀ entry ∈ entries, 0 ≤ entry.2)
    (hCover :
      ∀ entry ∈ entries, p entry.1 →
        q entry.1 ∨ r entry.1) :
    totalIn p entries ≤
      totalIn q entries + totalIn r entries := by
  induction entries with
  | nil => simp
  | cons entry entries ih =>
      rcases entry with ⟨date, amount⟩
      have hAmount : 0 ≤ amount := hPos (date, amount) (by simp)
      have hRest := ih
        (fun other hOther =>
          hPos other (List.mem_cons_of_mem _ hOther))
        (fun other hOther =>
          hCover other (List.mem_cons_of_mem _ hOther))
      have hHead :
          (if p date then amount else 0) ≤
            (if q date then amount else 0) +
              (if r date then amount else 0) := by
        by_cases hDate : p date
        · rcases hCover (date, amount) (by simp) hDate with
            hLeft | hRight
          · simp only [hDate, hLeft, if_true]
            refine le_add_of_nonneg_right ?_
            split <;> simp [hAmount]
          · simp only [hDate, hRight, if_true]
            refine le_add_of_nonneg_left ?_
            split <;> simp [hAmount]
        · simp only [hDate, if_false]
          refine add_nonneg ?_ ?_ <;> split <;> simp [hAmount]
      simp only [totalIn_cons]
      calc (if p date then amount else 0) + totalIn p entries
          ≤ ((if q date then amount else 0) +
              (if r date then amount else 0)) +
              (totalIn q entries + totalIn r entries) :=
            add_le_add hHead hRest
        _ = _ := by abel

theorem totalIn_mono
    {p q : T → Prop}
    [DecidablePred p] [DecidablePred q]
    {entries : List (T × M)}
    (hPos : ∀ entry ∈ entries, 0 ≤ entry.2)
    (hImp : ∀ entry ∈ entries, p entry.1 → q entry.1) :
    totalIn p entries ≤ totalIn q entries := by
  have hSplit :=
    totalIn_le_add (r := fun _ : T => False) hPos
      fun entry hEntry hDate =>
        Or.inl (hImp entry hEntry hDate)
  rwa [totalIn_eq_zero (p := fun _ : T => False)
    fun _ _ => not_false, add_zero] at hSplit

end FixedWindow

end Data

end IcpHandler

------------------------------------------------------------
-- Windows
------------------------------------------------------------

namespace IcpHandler

namespace Data

namespace FixedWindow

variable {T M : Type}

/- An open window: its start, and the sum spent in it. -/
structure Window (T M : Type) where
  start : Option T
  spent : M

namespace Window

variable [Add T] [LinearOrder T]

/- The window has not been opened, or it has run out. -/
def Lapsed
    (length now : T)
    (window : Window T M) : Prop :=
  ∀ start, window.start = some start → start + length < now

/- Count one more charge in the window. -/
def accept
    [Add M]
    (amount : M)
    (window : Window T M) : Window T M :=
  ⟨window.start, window.spent + amount⟩

end Window

variable [Add T] [LinearOrder T]
variable [AddCommMonoid M] [LinearOrder M]

/-
  The window accounts for the accepted charges: it holds the
  exact sum since its start, and no interval of its length
  holds more than twice the limit. `recent` is what makes the
  bound go through: right before a window, an interval that
  reaches its start meets one older window only.
-/
structure Tracks
    (length : T)
    (limit : M)
    (last : T)
    (window : Window T M)
    (accepted : List (T × M)) : Prop where
  pos : ∀ entry ∈ accepted, 0 ≤ entry.2
  before : ∀ entry ∈ accepted, entry.1 ≤ last
  start_le : ∀ start, window.start = some start → start ≤ last
  unopened :
    window.start = none → accepted = [] ∧ window.spent = 0
  inside :
    ∀ start, window.start = some start →
      ∀ entry ∈ accepted, entry.1 ≤ start + length
  spent_eq :
    ∀ start, window.start = some start →
      window.spent = totalIn (start ≤ ·) accepted
  spent_le : window.spent ≤ limit
  recent :
    ∀ start, window.start = some start →
      ∀ left, start ≤ left + length →
        totalIn (fun date => left ≤ date ∧ date < start)
          accepted ≤ limit
  interval :
    ∀ left,
      totalIn
        (fun date => left ≤ date ∧ date ≤ left + length)
        accepted ≤ limit + limit

namespace Tracks

variable {length last now : T} {limit amount : M}
variable {window : Window T M} {accepted : List (T × M)}

/- Time passes. -/
theorem later
    (hTracks : Tracks length limit last window accepted)
    (hNow : last ≤ now) :
    Tracks length limit now window accepted :=
  { hTracks with
    before := fun entry hEntry =>
      (hTracks.before entry hEntry).trans hNow
    start_le := fun start hStart =>
      (hTracks.start_le start hStart).trans hNow }

variable [IsOrderedAddMonoid M]

/- Nothing accepted, no window opened. -/
theorem empty (hLimit : 0 ≤ limit) :
    Tracks length limit last
      (⟨none, 0⟩ : Window T M) [] where
  pos := by simp
  before := by simp
  start_le := by simp
  unopened := by simp
  inside := by simp
  spent_eq := by simp
  spent_le := hLimit
  recent := by simp
  interval := by
    intro left
    exact add_nonneg hLimit hLimit

theorem spent_nonneg
    (hTracks : Tracks length limit last window accepted) :
    0 ≤ window.spent := by
  cases hStart : window.start with
  | none => exact (hTracks.unopened hStart).2.ge
  | some start =>
      rw [hTracks.spent_eq start hStart]
      exact totalIn_nonneg hTracks.pos

/- A lapsed window may be replaced by one that starts now. -/
theorem reopen
    [AddRightReflectLT T]
    (hTracks : Tracks length limit last window accepted)
    (hLimit : 0 ≤ limit)
    (hLength : now ≤ now + length)
    (hLapsed : window.Lapsed length now) :
    Tracks length limit now
      (⟨some now, 0⟩ : Window T M) accepted := by
  have hOlder : ∀ entry ∈ accepted, entry.1 < now := by
    intro entry hEntry
    cases hStart : window.start with
    | none =>
        rw [(hTracks.unopened hStart).1] at hEntry
        cases hEntry
    | some start =>
        exact (hTracks.inside start hStart entry
          hEntry).trans_lt (hLapsed start hStart)
  refine
    { pos := hTracks.pos
      before := fun entry hEntry => (hOlder entry hEntry).le
      start_le := by
        intro start hStart
        cases hStart
        exact le_rfl
      unopened := by simp
      inside := by
        intro start hStart entry hEntry
        cases hStart
        exact (hOlder entry hEntry).le.trans hLength
      spent_eq := by
        intro start hStart
        cases hStart
        exact (totalIn_eq_zero fun entry hEntry =>
          (hOlder entry hEntry).not_ge).symm
      spent_le := hLimit
      recent := ?_
      interval := hTracks.interval }
  intro start hStart left hLeft
  cases hStart
  cases hOld : window.start with
  | none =>
      rw [(hTracks.unopened hOld).1]
      simpa using hLimit
  | some start =>
      -- The interval starts after the old window did, so the
      -- old window's sum bounds it.
      have hAfter : start < left :=
        lt_of_add_lt_add_right
          ((hLapsed start hOld).trans_le hLeft)
      calc totalIn
              (fun date => left ≤ date ∧ date < now) accepted
          ≤ totalIn (start ≤ ·) accepted :=
            totalIn_mono hTracks.pos fun entry _ hDate =>
              hAfter.le.trans hDate.1
        _ = window.spent := (hTracks.spent_eq start hOld).symm
        _ ≤ limit := hTracks.spent_le

/- A charge that fits an open window may be accepted. -/
theorem accept
    (hTracks : Tracks length limit now window accepted)
    {start : T}
    (hStart : window.start = some start)
    (hOpen : now ≤ start + length)
    (hAmount : 0 ≤ amount)
    (hFits : window.spent + amount ≤ limit) :
    Tracks length limit now (window.accept amount)
      ((now, amount) :: accepted) := by
  have hBegun : start ≤ now := hTracks.start_le start hStart
  have hPos :
      ∀ entry ∈ (now, amount) :: accepted, 0 ≤ entry.2 := by
    intro entry hEntry
    rcases List.mem_cons.mp hEntry with rfl | hOld
    · exact hAmount
    · exact hTracks.pos entry hOld
  have hSum :
      totalIn (start ≤ ·) ((now, amount) :: accepted) =
        window.spent + amount := by
    rw [totalIn_cons, if_pos hBegun,
      ← hTracks.spent_eq start hStart, add_comm]
  have hRecent :
      ∀ left, start ≤ left + length →
        totalIn (fun date => left ≤ date ∧ date < start)
          ((now, amount) :: accepted) ≤ limit := by
    intro left hLeft
    rw [totalIn_cons, if_neg fun hBoth =>
      (hBegun.trans_lt hBoth.2).false, zero_add]
    exact hTracks.recent start hStart left hLeft
  refine
    { pos := hPos
      before := ?_
      start_le := hTracks.start_le
      unopened := by
        intro hNone
        rw [Window.accept, hStart] at hNone
        cases hNone
      inside := ?_
      spent_eq := ?_
      spent_le := hFits
      recent := ?_
      interval := ?_ }
  · intro entry hEntry
    rcases List.mem_cons.mp hEntry with rfl | hOld
    · exact le_rfl
    · exact hTracks.before entry hOld
  · intro other hOther entry hEntry
    have hSame : start = other :=
      Option.some.inj (hStart.symm.trans hOther)
    subst hSame
    rcases List.mem_cons.mp hEntry with rfl | hOld
    · exact hOpen
    · exact hTracks.inside start hStart entry hOld
  · intro other hOther
    have hSame : start = other :=
      Option.some.inj (hStart.symm.trans hOther)
    subst hSame
    exact hSum.symm
  · intro other hOther
    have hSame : start = other :=
      Option.some.inj (hStart.symm.trans hOther)
    subst hSame
    exact hRecent
  · intro left
    by_cases hReach : start ≤ left + length
    · -- The interval reaches the window: split it there.
      have hCover :=
        totalIn_le_add
          (p := fun date =>
            left ≤ date ∧ date ≤ left + length)
          (q := fun date => left ≤ date ∧ date < start)
          (r := (start ≤ ·)) hPos
          fun entry _ hDate => by
            rcases lt_or_ge entry.1 start with hLt | hGe
            · exact .inl ⟨hDate.1, hLt⟩
            · exact .inr hGe
      refine hCover.trans
        (add_le_add (hRecent left hReach) ?_)
      rw [hSum]
      exact hFits
    · rw [totalIn_cons, if_neg fun hBoth =>
        hReach (hBegun.trans hBoth.2), zero_add]
      exact hTracks.interval left

end Tracks

end FixedWindow

end Data

end IcpHandler
