import Mathlib.Order.Monotone.Basic

/-
  A task that is tried again after it has failed. A policy
  says how many failures in a row end it, and when a failed
  task is due again. It gets one chance after the other, by a
  clock that does not go back.

  Main declarations:
    * `failuresInARow`
    * `Standing`, `RetryPolicy.Chance`
    * `RetryRun`, `RetryRun.unchanged`
    * `RetryRun.counted`
    * `RetryRun.waits`, `RetryRun.retries`
-/

------------------------------------------------------------
-- Tries
------------------------------------------------------------

namespace IcpHandler

namespace Data

/-
  The tries of a task, most recent first: at which chance,
  and whether it succeeded.
-/
abbrev Tries := List (Nat × Bool)

/-
  The failures since the last success. Before the tries it
  had failed `earlier` times.
-/
def failuresInARow (earlier : Nat) : Tries → Nat
  | [] => earlier
  | (_, true) :: _ => 0
  | (_, false) :: tries => failuresInARow earlier tries + 1

/- How a task stands. One that is not able is never tried. -/
structure Standing (T : Type) where
  failures : Nat
  due : T
  able : Bool
  givenUp : Bool

/-
  How many failures in a row end the task, and when it is due
  again after the nth failure.
-/
structure RetryPolicy (T : Type) where
  most : Nat
  again : Nat → T → Option T

variable {T : Type}

/- The failure that ends a task does not make it due again. -/
def RetryPolicy.afterFailure
    (policy : RetryPolicy T)
    (now : T)
    (s : Standing T) : Standing T :=
  if policy.most ≤ s.failures + 1 then
    { s with failures := s.failures + 1, givenUp := true }
  else
    { s with
      failures := s.failures + 1
      due := (policy.again (s.failures + 1) now).getD s.due }

/- The task is tried at this time. -/
def Standing.IsDue
    [LE T]
    (s : Standing T)
    (now : T) : Prop :=
  s.able = true ∧ s.givenUp = false ∧ s.due ≤ now

/- One chance: what is tried, and how the task stands then. -/
inductive RetryPolicy.Chance
    [LE T]
    (policy : RetryPolicy T)
    (now : T)
    (s : Standing T) : Option Bool → Standing T → Prop where
  | passed (hNotDue : ¬ s.IsDue now) :
      policy.Chance now s none s
  | succeeded (hDue : s.IsDue now) (due : T) :
      policy.Chance now s (some true)
        { s with failures := 0, due := due }
  | failed (hDue : s.IsDue now) :
      policy.Chance now s (some false)
        (policy.afterFailure now s)

/- The tries after a chance. -/
def triesAfter
    (k : Nat)
    (outcome : Option Bool)
    (tries : Tries) : Tries :=
  (outcome.map (k, ·)).toList ++ tries

/- The first `n` chances of a task, one after the other. -/
def RetryRun
    [LE T]
    (policy : RetryPolicy T)
    (times : Nat → T)
    (n : Nat)
    (standing : Nat → Standing T)
    (tries : Nat → Tries) : Prop :=
  ∀ k < n, ∃ outcome,
    policy.Chance (times k) (standing k) outcome
        (standing (k + 1)) ∧
      tries (k + 1) = triesAfter k outcome (tries k)

end Data

end IcpHandler

------------------------------------------------------------
-- The Count of Failures
------------------------------------------------------------

namespace IcpHandler

namespace Data

section Counts

variable {T : Type}
variable {policy : RetryPolicy T}
variable {earlier k : Nat} {tries : Tries}
variable {s s' : Standing T} {outcome : Option Bool}

/-
  The task has counted its failures, and it is given up with
  the last one that the policy allows.
-/
structure Standing.Counted
    (policy : RetryPolicy T)
    (earlier : Nat)
    (tries : Tries)
    (s : Standing T) : Prop where
  failures_eq : s.failures = failuresInARow earlier tries
  le_most : s.failures ≤ policy.most
  givenUp_iff : s.givenUp = true ↔ s.failures = policy.most

/- A task that may still be tried has failures to spare. -/
theorem Standing.Counted.lt_most
    (hCounted : s.Counted policy earlier tries)
    (hLive : s.givenUp = false) :
    s.failures < policy.most := by
  refine Nat.lt_of_le_of_ne hCounted.le_most fun hMost => ?_
  rw [hCounted.givenUp_iff.mpr hMost] at hLive
  cases hLive

theorem Standing.Counted.chance
    [LE T]
    {now : T}
    (hCounted : s.Counted policy earlier tries)
    (hMost : 0 < policy.most)
    (hChance : policy.Chance now s outcome s') :
    s'.Counted policy earlier (triesAfter k outcome tries) := by
  cases hChance with
  | passed hNotDue => exact hCounted
  | succeeded hDue due =>
      refine ⟨rfl, Nat.zero_le _, ?_⟩
      constructor
      · intro hGivenUp
        rw [hDue.2.1] at hGivenUp
        cases hGivenUp
      · intro hNone
        exact absurd hNone (Nat.ne_of_lt hMost)
  | failed hDue =>
      have hLess := hCounted.lt_most hDue.2.1
      have hCount :
          s.failures + 1 =
            failuresInARow earlier ((k, false) :: tries) :=
        congrArg (· + 1) hCounted.failures_eq
      unfold RetryPolicy.afterFailure
      split
      · rename_i hLast
        exact ⟨hCount, hLess, iff_of_true rfl
          (Nat.le_antisymm hLess hLast)⟩
      · rename_i hSpare
        refine ⟨hCount, hLess, iff_of_false ?_ ?_⟩
        · rw [hDue.2.1]
          exact Bool.false_ne_true
        · exact fun hLast => hSpare (Nat.le_of_eq hLast.symm)

end Counts

end Data

end IcpHandler

------------------------------------------------------------
-- Runs
------------------------------------------------------------

namespace IcpHandler

namespace Data

namespace RetryRun

variable {T : Type}
variable {policy : RetryPolicy T} {times : Nat → T}
variable {n : Nat}
variable {standing : Nat → Standing T} {tries : Nat → Tries}
variable {j k m : Nat}

/- The tries tell what became of a chance. -/
theorem outcome_eq
    {outcome : Option Bool}
    {ok : Bool}
    {older : Tries}
    (hTries : triesAfter k outcome older = (k, ok) :: older) :
    outcome = some ok := by
  cases outcome with
  | none => exact absurd hTries.symm (List.cons_ne_self _ _)
  | some tried =>
      have hHead := (List.cons.inj hTries).1
      exact congrArg some (Prod.mk.inj hHead).2

/- The failures are counted at every chance. -/
theorem counted
    [LE T]
    {earlier : Nat}
    (hRun : RetryRun policy times n standing tries)
    (hMost : 0 < policy.most)
    (hStart : (standing 0).Counted policy earlier (tries 0))
    (hLe : k ≤ n) :
    (standing k).Counted policy earlier (tries k) := by
  induction k with
  | zero => exact hStart
  | succ k ih =>
      obtain ⟨outcome, hChance, hTries⟩ := hRun k hLe
      rw [hTries]
      exact (ih (Nat.le_of_succ_le hLe)).chance hMost hChance

/- While a task is not due nothing changes. -/
theorem unchanged
    [LE T]
    (hRun : RetryRun policy times n standing tries)
    (hLe : k ≤ m)
    (hWithin : m ≤ n)
    (hNotDue :
      ∀ i, k ≤ i → i < m → ¬ (standing k).IsDue (times i)) :
    standing m = standing k ∧ tries m = tries k := by
  induction m, hLe using Nat.le_induction with
  | base => exact ⟨rfl, rfl⟩
  | succ m hLe ih =>
      obtain ⟨hStanding, hTries⟩ :=
        ih (Nat.le_of_succ_le hWithin) fun i hFrom hUntil =>
          hNotDue i hFrom (Nat.lt_succ_of_lt hUntil)
      have hLast := hNotDue m hLe (Nat.lt_succ_self m)
      obtain ⟨outcome, hChance, hAfter⟩ := hRun m hWithin
      rw [← hStanding] at hLast
      rw [hAfter, ← hStanding, ← hTries]
      generalize standing (m + 1) = next at hChance
      cases hChance with
      | passed => exact ⟨rfl, rfl⟩
      | succeeded hDue due => exact absurd hDue hLast
      | failed hDue => exact absurd hDue hLast

/- A task that is given up is not tried again. -/
theorem rests
    [LE T]
    (hRun : RetryRun policy times n standing tries)
    (hGivenUp : (standing k).givenUp = true)
    (hLe : k ≤ m)
    (hWithin : m ≤ n) :
    standing m = standing k ∧ tries m = tries k := by
  refine hRun.unchanged hLe hWithin fun i _ _ hDue => ?_
  rw [hDue.2.1] at hGivenUp
  cases hGivenUp

/- When the task is due again after a failure to spare. -/
theorem due_of_failed
    [LE T]
    {due : T}
    (hRun : RetryRun policy times n standing tries)
    (hLess : j < n)
    (hFailed : tries (j + 1) = (j, false) :: tries j)
    (hSpare : (standing (j + 1)).failures < policy.most)
    (hAgain :
      policy.again (standing (j + 1)).failures (times j) =
        some due)
    (now : T) :
    (standing (j + 1)).IsDue now ↔ due ≤ now := by
  obtain ⟨outcome, hChance, hTries⟩ := hRun j hLess
  cases outcome_eq (hTries.symm.trans hFailed)
  generalize standing (j + 1) = next at hChance hSpare hAgain
  cases hChance with
  | failed hDue =>
      rw [RetryPolicy.afterFailure] at hSpare hAgain ⊢
      by_cases hLast : policy.most ≤ (standing j).failures + 1
      · rw [if_pos hLast] at hSpare
        exact absurd hSpare (Nat.not_lt.mpr hLast)
      · rw [if_neg hLast] at hAgain ⊢
        simp only [Standing.IsDue, hDue.1, hDue.2.1, true_and,
          hAgain, Option.getD_some]

/- After a failure nothing is tried before its time. -/
theorem waits
    [Preorder T]
    {due : T}
    (hRun : RetryRun policy times n standing tries)
    (hTimes : Monotone times)
    (hFailed : tries (j + 1) = (j, false) :: tries j)
    (hSpare : (standing (j + 1)).failures < policy.most)
    (hAgain :
      policy.again (standing (j + 1)).failures (times j) =
        some due)
    (hLater : j < m)
    (hWithin : m < n)
    (hEarly : ¬ due ≤ times m) :
    tries (m + 1) = tries (j + 1) := by
  have hLess : j < n := Nat.lt_trans hLater hWithin
  refine (hRun.unchanged (Nat.succ_le_succ (Nat.le_of_lt hLater))
    hWithin fun i _ hUntil => ?_).2
  rw [hRun.due_of_failed hLess hFailed hSpare hAgain]
  intro hDue
  refine hEarly (le_trans hDue (hTimes ?_))
  exact Nat.le_of_lt_succ hUntil

/- And at the first chance from its time on it is tried. -/
theorem retries
    [LE T]
    {due : T}
    (hRun : RetryRun policy times n standing tries)
    (hFailed : tries (j + 1) = (j, false) :: tries j)
    (hSpare : (standing (j + 1)).failures < policy.most)
    (hAgain :
      policy.again (standing (j + 1)).failures (times j) =
        some due)
    (hLater : j < m)
    (hWithin : m < n)
    (hReached : due ≤ times m)
    (hFirst : ∀ i, j < i → i < m → ¬ due ≤ times i) :
    ∃ ok, tries (m + 1) = (m, ok) :: tries (j + 1) := by
  have hLess : j < n := Nat.lt_trans hLater hWithin
  have hDue :=
    hRun.due_of_failed hLess hFailed hSpare hAgain
  obtain ⟨hStanding, hTries⟩ :=
    hRun.unchanged hLater (Nat.le_of_lt hWithin)
      fun i hFrom hUntil =>
        mt (hDue (times i)).mp (hFirst i hFrom hUntil)
  obtain ⟨outcome, hChance, hAfter⟩ := hRun m hWithin
  have hIsDue : (standing m).IsDue (times m) := by
    rw [hStanding]
    exact (hDue (times m)).mpr hReached
  rw [hAfter, ← hTries]
  generalize standing (m + 1) = next at hChance
  cases hChance with
  | passed hNotDue => exact absurd hIsDue hNotDue
  | succeeded _ due => exact ⟨true, rfl⟩
  | failed _ => exact ⟨false, rfl⟩

end RetryRun

end Data

end IcpHandler
