import Mathlib.Algebra.BigOperators.Group.Finset.Piecewise
import Mathlib.Algebra.Order.BigOperators.Group.Finset
import IcpHandler.Concurrency.Trace

/-
  Adding up what threads do. A move is weighed by what its own
  thread has done before, so the total of a history is the sum
  of the threads' own totals, and what holds of every thread's
  totals holds of the whole.

  Main declarations:
    * `ownTally`, `tally`
    * `tally_eq_sum`
    * `tally_le`
-/

------------------------------------------------------------
-- Tallies
------------------------------------------------------------

namespace IcpHandler

namespace Concurrency

section Tallies

variable {E : Type} {Res : E → Type} {W : Type}

/- The total of one thread's moves. -/
def ownTally
    (weigh : Trace Res → Move Res → Nat) : Trace Res → Nat
  | [] => 0
  | move :: past => weigh past move + ownTally weigh past

/- The total of all moves, each thread's by its own weights. -/
def tally
    (weigh : Nat → Trace Res → Move Res → Nat) :
    List (Occurrence Res W) → Nat
  | [] => 0
  | o :: past =>
      weigh o.thread (own o.thread past) o.move +
        tally weigh past

variable {weigh : Trace Res → Move Res → Nat}
variable {weighs weighs' : Nat → Trace Res → Move Res → Nat}
variable {past : List (Occurrence Res W)}

theorem ownTally_eq_zero
    {moves : Trace Res}
    (hNone :
      ∀ earlier, ∀ move ∈ moves, weigh earlier move = 0) :
    ownTally weigh moves = 0 := by
  induction moves with
  | nil => rfl
  | cons move moves ih =>
      rw [ownTally, hNone moves move List.mem_cons_self, ih]
      intro earlier other hOther
      exact hNone earlier other
        (List.mem_cons_of_mem _ hOther)

/- A move counts, whatever came before it. -/
theorem le_ownTally
    {moves : Trace Res}
    {move : Move Res}
    {weight : Nat}
    (hWeight : ∀ earlier, weigh earlier move = weight)
    (hMove : move ∈ moves) :
    weight ≤ ownTally weigh moves := by
  induction moves with
  | nil => cases hMove
  | cons other moves ih =>
      rw [ownTally]
      rcases List.mem_cons.mp hMove with rfl | hMove
      · rw [hWeight]
        exact Nat.le_add_right _ _
      · exact (ih hMove).trans (Nat.le_add_left _ _)

/- A thread's total after an occurrence. -/
theorem ownTally_cons
    (thread : Nat)
    (o : Occurrence Res W)
    (past : List (Occurrence Res W)) :
    ownTally weigh (own thread (o :: past)) =
      (if o.thread = thread then
          weigh (own thread past) o.move
        else 0) +
        ownTally weigh (own thread past) := by
  rw [own_cons]
  by_cases hThread : o.thread = thread
  · rw [if_pos hThread, if_pos hThread, ownTally]
  · rw [if_neg hThread, if_neg hThread, Nat.zero_add]

/- What weighs nothing wherever it stands adds nothing. -/
theorem tally_eq_zero
    (hNone :
      ∀ o ∈ past, ∀ earlier, weighs o.thread earlier o.move = 0) :
    tally weighs past = 0 := by
  induction past with
  | nil => rfl
  | cons o past ih =>
      rw [tally, hNone o List.mem_cons_self, ih]
      intro other hOther
      exact hNone other (List.mem_cons_of_mem _ hOther)

/- The total is the sum of the threads' own totals. -/
theorem tally_eq_sum
    {count : Nat}
    (hThreads : ∀ o ∈ past, o.thread < count) :
    tally weighs past =
      (Finset.range count).sum fun thread =>
        ownTally (weighs thread) (own thread past) := by
  induction past with
  | nil =>
      rw [tally, Finset.sum_eq_zero]
      intro thread _
      rfl
  | cons o past ih =>
      have hThread := hThreads o List.mem_cons_self
      have hRest :
          ∀ other ∈ past, other.thread < count :=
        fun other hOther =>
          hThreads other (List.mem_cons_of_mem _ hOther)
      simp only [ownTally_cons]
      rw [tally, ih hRest, Finset.sum_add_distrib,
        Finset.sum_ite_eq,
        if_pos (Finset.mem_range.mpr hThread)]

/- Finitely many threads have moved. -/
theorem exists_thread_lt (past : List (Occurrence Res W)) :
    ∃ count, ∀ o ∈ past, o.thread < count := by
  induction past with
  | nil => exact ⟨0, fun o hMem => by cases hMem⟩
  | cons first past ih =>
      obtain ⟨count, hCount⟩ := ih
      refine ⟨max (first.thread + 1) count, ?_⟩
      intro o hMem
      rcases List.mem_cons.mp hMem with rfl | hMem
      · exact Nat.lt_of_lt_of_le (Nat.lt_succ_self _)
          (Nat.le_max_left _ _)
      · exact Nat.lt_of_lt_of_le (hCount o hMem)
          (Nat.le_max_right _ _)

/- A bound that every thread keeps holds in total. -/
theorem tally_le
    (hOwn :
      ∀ thread,
        ownTally (weighs thread) (own thread past) ≤
          ownTally (weighs' thread) (own thread past)) :
    tally weighs past ≤ tally weighs' past := by
  obtain ⟨count, hCount⟩ := exists_thread_lt past
  rw [tally_eq_sum hCount, tally_eq_sum hCount]
  exact Finset.sum_le_sum fun thread _ => hOwn thread

end Tallies

end Concurrency

end IcpHandler
