import Mathlib.Algebra.Order.Monoid.Defs
import Mathlib.Algebra.Order.Monoid.Unbundled.Basic
import Mathlib.Data.List.Pairwise

/-
  Windows that are anchored at calls. The first call opens a
  window, and so does every call that comes after the open one
  has run out. Calls are labelled with the start of their
  window; an interval of the windows' length meets at most two
  of them, so a limit on each window is twice a limit on the
  interval.

  Main declarations:
    * `opened`, `label`
    * `Apart`
    * `within_of_mem_label`, `apart_of_mem_label`
    * `countP_interval_le`
-/

------------------------------------------------------------
-- Labels
------------------------------------------------------------

namespace IcpHandler

namespace Data

namespace CallWindows

variable {T α : Type}

section Labels

variable [Add T] [LE T] [DecidableLE T]

/- The start of the window that a call at `now` falls into. -/
def opened
    (length : T)
    (current : Option T)
    (now : T) : T :=
  match current with
  | some start => if start + length ≤ now then now else start
  | none => now

variable (length : T) (time : α → T)

/- Each call with the start of its window. -/
def label : Option T → List α → List (T × α)
  | _, [] => []
  | current, call :: calls =>
      let start := opened length current (time call)
      (start, call) :: label (some start) calls

/- The labels leave the calls as they are. -/
theorem map_snd_label
    (current : Option T)
    (calls : List α) :
    (label length time current calls).map Prod.snd = calls := by
  induction calls generalizing current with
  | nil => rfl
  | cons call calls ih =>
      rw [label]
      exact congrArg (List.cons call) (ih _)

end Labels

end CallWindows

end Data

end IcpHandler

------------------------------------------------------------
-- Windows Apart
------------------------------------------------------------

namespace IcpHandler

namespace Data

namespace CallWindows

variable {T α : Type}

section Apart

variable [AddCommMonoid T] [LinearOrder T]

/- One window, or two that do not overlap. -/
def Apart (length first second : T) : Prop :=
  first = second ∨ first + length ≤ second ∨
    second + length ≤ first

theorem Apart.symm
    {length first second : T}
    (hApart : Apart length first second) :
    Apart length second first := by
  rcases hApart with rfl | hBefore | hAfter
  · exact .inl rfl
  · exact .inr (.inr hBefore)
  · exact .inr (.inl hAfter)

/- A call keeps the open window, or opens one behind it. -/
theorem opened_cases
    (length start now : T) :
    opened length (some start) now = start ∨
      start + length ≤ opened length (some start) now := by
  unfold opened
  dsimp only
  split
  · rename_i hOver
    exact .inr hOver
  · exact .inl rfl

/- A call is in its window, unless that is still to come. -/
theorem opened_within
    {length : T}
    {current : Option T}
    {now : T}
    (hFuture : ∀ start, current = some start → start ≤ now)
    (hOpen : now < now + length) :
    opened length current now ≤ now ∧
      now < opened length current now + length := by
  unfold opened
  split
  · rename_i start
    split
    · exact ⟨le_refl now, hOpen⟩
    · rename_i hNotOver
      exact ⟨hFuture start rfl, not_le.mp hNotOver⟩
  · exact ⟨le_refl now, hOpen⟩

end Apart

variable [AddCommMonoid T] [LinearOrder T]
variable [IsOrderedCancelAddMonoid T]
variable {length : T} {time : α → T}

/- What follows an open window is in it or behind it. -/
theorem start_of_mem_label
    (hLength : 0 ≤ length)
    {start : T}
    {calls : List α}
    {entry : T × α}
    (hMem : entry ∈ label length time (some start) calls) :
    entry.1 = start ∨ start + length ≤ entry.1 := by
  induction calls generalizing start with
  | nil => cases hMem
  | cons call calls ih =>
      have hNext := opened_cases length start (time call)
      rcases List.mem_cons.mp hMem with rfl | hRest
      · exact hNext
      · rcases ih hRest with hSame | hBehind
        · rw [hSame]
          exact hNext
        · right
          rcases hNext with hKept | hOver
          · rw [hKept] at hBehind
            exact hBehind
          · calc start + length
                ≤ opened length (some start) (time call) := hOver
              _ ≤ opened length (some start) (time call) +
                    length := le_add_of_nonneg_right hLength
              _ ≤ entry.1 := hBehind

/- Calls in the order of their times are in their windows. -/
theorem within_of_mem_label
    (hLength : 0 < length)
    {current : Option T}
    {calls : List α}
    {entry : T × α}
    (hTimes :
      calls.Pairwise fun older newer => time older ≤ time newer)
    (hFuture :
      ∀ start, current = some start →
        ∀ call ∈ calls, start ≤ time call)
    (hMem : entry ∈ label length time current calls) :
    entry.1 ≤ time entry.2 ∧
      time entry.2 < entry.1 + length := by
  induction calls generalizing current with
  | nil => cases hMem
  | cons call calls ih =>
      obtain ⟨hFirst, hRest⟩ := List.pairwise_cons.mp hTimes
      have hHead :
          opened length current (time call) ≤ time call ∧
            time call <
              opened length current (time call) + length :=
        opened_within
          (fun start hStart =>
            hFuture start hStart call List.mem_cons_self)
          (lt_add_of_pos_right _ hLength)
      rcases List.mem_cons.mp hMem with rfl | hLater
      · exact hHead
      · refine ih hRest ?_ hLater
        rintro _ ⟨⟩ later hCall
        exact le_trans hHead.1 (hFirst later hCall)

/- Any two windows are apart. -/
theorem apart_of_mem_label
    (hLength : 0 ≤ length)
    {current : Option T}
    {calls : List α}
    {first second : T × α}
    (hFirst : first ∈ label length time current calls)
    (hSecond : second ∈ label length time current calls) :
    Apart length first.1 second.1 := by
  induction calls generalizing current with
  | nil => cases hFirst
  | cons call calls ih =>
      have hBehind :
          ∀ entry ∈ label length time
              (some (opened length current (time call))) calls,
            Apart length (opened length current (time call))
              entry.1 := by
        intro entry hEntry
        rcases start_of_mem_label hLength hEntry with
          hSame | hLater
        · exact .inl hSame.symm
        · exact .inr (.inl hLater)
      rcases List.mem_cons.mp hFirst with rfl | hFirst
      · rcases List.mem_cons.mp hSecond with rfl | hSecond
        · exact .inl rfl
        · exact hBehind second hSecond
      · rcases List.mem_cons.mp hSecond with rfl | hSecond
        · exact (hBehind first hFirst).symm
        · exact ih hFirst hSecond

end CallWindows

end Data

end IcpHandler

------------------------------------------------------------
-- Limits on an Interval
------------------------------------------------------------

namespace IcpHandler

namespace Data

namespace CallWindows

variable {T α : Type}
variable [AddCommMonoid T] [LinearOrder T]
variable [IsOrderedCancelAddMonoid T]
variable {length : T} {time : α → T}

/- The call is in the closed interval of the given length. -/
def During
    (length left now : T) : Prop :=
  left ≤ now ∧ now ≤ left + length

instance (length left now : T) :
    Decidable (During length left now) :=
  inferInstanceAs (Decidable (_ ∧ _))

/- An interval does not reach over a whole window. -/
theorem not_three_ordered
    {left : T}
    {first second third : T × α}
    (hFirst :
      time first.2 < first.1 + length ∧
        During length left (time first.2))
    (hThird :
      third.1 ≤ time third.2 ∧
        During length left (time third.2))
    (hBefore : first.1 + length ≤ second.1)
    (hAfter : second.1 + length ≤ third.1) :
    False := by
  have hLate : left < second.1 :=
    calc left ≤ time first.2 := hFirst.2.1
      _ < first.1 + length := hFirst.1
      _ ≤ second.1 := hBefore
  have hSoon : second.1 + length ≤ left + length :=
    calc second.1 + length ≤ third.1 := hAfter
      _ ≤ time third.2 := hThird.1
      _ ≤ left + length := hThird.2.2
  exact absurd (le_of_add_le_add_right hSoon)
    (not_le.mpr hLate)

/- The entries are in their windows, which are apart. -/
structure Windowed
    (length : T)
    (time : α → T)
    (entries : List (T × α)) : Prop where
  within :
    ∀ entry ∈ entries,
      entry.1 ≤ time entry.2 ∧
        time entry.2 < entry.1 + length
  apart :
    ∀ first ∈ entries, ∀ second ∈ entries,
      Apart length first.1 second.1

/- Labels of calls in order are such entries. -/
theorem windowed_label
    (hLength : 0 < length)
    {calls : List α}
    (hTimes :
      calls.Pairwise
        fun older newer => time older ≤ time newer) :
    Windowed length time (label length time none calls) where
  within _ hMem :=
    within_of_mem_label hLength hTimes
      (by rintro _ ⟨⟩) hMem
  apart _ hFirst _ hSecond :=
    apart_of_mem_label (le_of_lt hLength) hFirst hSecond

variable {entries : List (T × α)}

/- Three entries of an interval share a window. -/
theorem Windowed.two_of_three
    (hWindowed : Windowed length time entries)
    {left : T}
    {first second third : T × α}
    (hFirst :
      first ∈ entries ∧ During length left (time first.2))
    (hSecond :
      second ∈ entries ∧ During length left (time second.2))
    (hThird :
      third ∈ entries ∧ During length left (time third.2)) :
    first.1 = second.1 ∨ third.1 = first.1 ∨
      third.1 = second.1 := by
  have hIn :
      ∀ {a b c : T × α},
        (a ∈ entries ∧ During length left (time a.2)) →
        (c ∈ entries ∧ During length left (time c.2)) →
        a.1 + length ≤ b.1 → b.1 + length ≤ c.1 → False :=
    fun hA hC => not_three_ordered
      ⟨(hWindowed.within _ hA.1).2, hA.2⟩
      ⟨(hWindowed.within _ hC.1).1, hC.2⟩
  -- three windows apart come one after the other
  rcases hWindowed.apart _ hFirst.1 _ hSecond.1 with
    hSame | hAB | hBA
  · exact .inl hSame
  · rcases hWindowed.apart _ hThird.1 _ hFirst.1 with
      hSame | hCA | hAC
    · exact .inr (.inl hSame)
    · exact (hIn hThird hSecond hCA hAB).elim
    · rcases hWindowed.apart _ hThird.1 _ hSecond.1 with
        hSame | hCB | hBC
      · exact .inr (.inr hSame)
      · exact (hIn hFirst hSecond hAC hCB).elim
      · exact (hIn hFirst hThird hAB hBC).elim
  · rcases hWindowed.apart _ hThird.1 _ hSecond.1 with
      hSame | hCB | hBC
    · exact .inr (.inr hSame)
    · exact (hIn hThird hFirst hCB hBA).elim
    · rcases hWindowed.apart _ hThird.1 _ hFirst.1 with
        hSame | hCA | hAC
      · exact .inr (.inl hSame)
      · exact (hIn hSecond hFirst hBC hCA).elim
      · exact (hIn hSecond hThird hBA hAC).elim

/- An interval meets at most two windows. -/
theorem Windowed.two_windows
    (hWindowed : Windowed length time entries)
    (left : T) :
    ∃ early late,
      ∀ entry ∈ entries, During length left (time entry.2) →
        entry.1 = early ∨ entry.1 = late := by
  by_cases hAny :
      ∃ entry ∈ entries, During length left (time entry.2)
  · obtain ⟨first, hFirst, hFirstIn⟩ := hAny
    by_cases hOther :
        ∃ entry ∈ entries, During length left (time entry.2) ∧
          entry.1 ≠ first.1
    · obtain ⟨second, hSecond, hSecondIn, hNe⟩ := hOther
      refine ⟨first.1, second.1, fun third hThird hIn => ?_⟩
      rcases hWindowed.two_of_three ⟨hFirst, hFirstIn⟩
          ⟨hSecond, hSecondIn⟩ ⟨hThird, hIn⟩ with
        hSame | hFound
      · exact absurd hSame.symm hNe
      · exact hFound
    · refine ⟨first.1, first.1, fun entry hEntry hIn => ?_⟩
      by_contra hNot
      exact hOther ⟨entry, hEntry, hIn, fun hSame =>
        hNot (.inl hSame)⟩
  · exact ⟨left, left, fun entry hEntry hIn =>
      absurd ⟨entry, hEntry, hIn⟩ hAny⟩

omit [AddCommMonoid T] [LinearOrder T]
  [IsOrderedCancelAddMonoid T] in
/- A count is at most the counts of two tests that cover it. -/
theorem countP_le_add
    {p q r : α → Bool}
    {l : List α}
    (hCover :
      ∀ a ∈ l, p a = true → q a = true ∨ r a = true) :
    l.countP p ≤ l.countP q + l.countP r := by
  induction l with
  | nil => exact le_refl 0
  | cons a l ih =>
      obtain ⟨hHead, hRest⟩ := List.forall_mem_cons.mp hCover
      have hTail := ih hRest
      have hOne :
          (if p a = true then 1 else 0) ≤
            (if q a = true then 1 else 0) +
              (if r a = true then 1 else 0) := by
        by_cases hP : p a = true
        · rcases hHead hP with hQ | hR
          · rw [if_pos hP, if_pos hQ]
            omega
          · rw [if_pos hP, if_pos hR]
            omega
        · rw [if_neg hP]
          omega
      rw [List.countP_cons, List.countP_cons, List.countP_cons]
      omega

/-
  If at most so many entries of each window count, at most
  twice as many count in an interval of a window's length.
-/
theorem Windowed.countP_interval_le
    (hWindowed : Windowed length time entries)
    {counts : α → Bool}
    {limit : ℕ}
    (hLimit :
      ∀ start,
        entries.countP (fun entry =>
          counts entry.2 && decide (entry.1 = start)) ≤ limit)
    (left : T) :
    entries.countP (fun entry =>
        counts entry.2 &&
          decide (During length left (time entry.2))) ≤
      2 * limit := by
  obtain ⟨early, late, hTwo⟩ := hWindowed.two_windows left
  have hCover :
      entries.countP (fun entry =>
          counts entry.2 &&
            decide (During length left (time entry.2))) ≤
        entries.countP (fun entry =>
            counts entry.2 && decide (entry.1 = early)) +
          entries.countP (fun entry =>
            counts entry.2 && decide (entry.1 = late)) := by
    refine countP_le_add fun entry hEntry hCounts => ?_
    simp only [Bool.and_eq_true, decide_eq_true_eq] at hCounts ⊢
    rcases hTwo entry hEntry hCounts.2 with hStart | hStart
    · exact .inl ⟨hCounts.1, hStart⟩
    · exact .inr ⟨hCounts.1, hStart⟩
  have hEarly := hLimit early
  have hLate := hLimit late
  omega

end CallWindows

end Data

end IcpHandler
