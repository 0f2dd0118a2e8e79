import Mathlib.Data.Finset.Max
import Mathlib.Logic.Relation
import IcpHandler.Concurrency.Trace

/-
  Programs that take their locks in an order. Every lock has a
  rank, and a program only asks for one above all those it
  holds. However such programs interleave, they never wait
  for each other in a circle, and while any lock is held one
  of the holders can go on.

  Main declarations:
    * `LockAct`, `Prog.Orderly`
    * `Prog.Carries` and its rules
    * `LockTable`, `Pool.Ordered`
    * `Pool.WaitsFor`
    * `Pool.run_ordered`
    * `Pool.Ordered.acyclic`
    * `Pool.Ordered.proceeds`
-/

------------------------------------------------------------
-- Programs in Order
------------------------------------------------------------

namespace IcpHandler

namespace Concurrency

/- What an effect does to the locks. -/
inductive LockAct (K : Type) where
  | take (key : K)
  | give (key : K)

namespace LockAct

variable {K : Type}

/- The locks that are held afterwards, the last one first. -/
def next [DecidableEq K] :
    Option (LockAct K) → List K → List K
  | none, held => held
  | some (.take key), held => key :: held
  | some (.give key), held => held.erase key

/- A lock is taken above all that are held. -/
def Allowed
    (rank : K → Nat) :
    Option (LockAct K) → List K → Prop
  | some (.take key), held => ∀ other ∈ held, rank other < rank key
  | _, _ => True

end LockAct

namespace Prog

variable {E K : Type} [DecidableEq K]
variable {Res : E → Type} {α β : Type}
variable {act : E → Option (LockAct K)} {rank : K → Nat}

/-
  Whatever the answers: holding the locks `held`, the program
  takes further ones in their order, and where it returns `Q`
  holds of the value and the locks it still has.
-/
def Orderly
    (act : E → Option (LockAct K))
    (rank : K → Nat) :
    Prog Res α → (α → List K → Prop) → List K → Prop
  | .ret value, Q, held => Q value held
  | .step effect next, Q, held =>
      LockAct.Allowed rank (act effect) held ∧
        ∀ answer, (next answer).Orderly act rank Q
          (LockAct.next (act effect) held)

namespace Orderly

theorem bind_iff
    {p : Prog Res α}
    {f : α → Prog Res β}
    {Q : β → List K → Prop}
    {held : List K} :
    (p >>= f).Orderly act rank Q held ↔
      p.Orderly act rank
        (fun value later =>
          (f value).Orderly act rank Q later) held := by
  induction p generalizing held with
  | ret value => exact Iff.rfl
  | step effect next ih =>
      exact and_congr_right fun _ =>
        forall_congr' fun answer => ih answer

theorem mono
    {p : Prog Res α}
    {Q Q' : α → List K → Prop}
    {held : List K}
    (hOrderly : p.Orderly act rank Q held)
    (hImp : ∀ value later, Q value later → Q' value later) :
    p.Orderly act rank Q' held := by
  induction p generalizing held with
  | ret value => exact hImp value held hOrderly
  | step effect next ih =>
      exact ⟨hOrderly.1, fun answer =>
        ih answer (hOrderly.2 answer)⟩

/- A program that leaves the locks alone is in order. -/
theorem of_quiet
    {p : Prog Res α}
    {Q : α → Trace Res → Prop}
    {past : Trace Res}
    (hQuiet : p.Traced (fun _ effect => act effect = none) Q past)
    (held : List K) :
    p.Orderly act rank (fun _ later => later = held) held := by
  induction p generalizing past with
  | ret value => rfl
  | step effect next ih =>
      obtain ⟨hEffect, hNext⟩ := hQuiet
      unfold Orderly
      rw [hEffect]
      exact ⟨trivial, fun answer => ih answer (hNext answer)⟩

/-
  A program put in a larger place takes the same locks there.
-/
theorem via
    {E' : Type}
    {Res' : E' → Type}
    {act' : E' → Option (LockAct K)}
    {place : E → E'}
    {back : ∀ effect, Res' (place effect) → Res effect}
    {p : Prog Res α}
    {Q : α → List K → Prop}
    {held : List K}
    (hOrderly : p.Orderly act rank Q held)
    (hAct : ∀ effect, act' (place effect) = act effect) :
    (p.via place back).Orderly act' rank Q held := by
  induction p generalizing held with
  | ret value => exact hOrderly
  | step effect next ih =>
      unfold Prog.via Orderly
      rw [hAct effect]
      exact ⟨hOrderly.1, fun answer =>
        ih _ (hOrderly.2 (back effect answer))⟩

end Orderly

/-
  The program comes with the locks `before`, takes no lock of
  a rank below `n`, and leaves with the locks `after`. What
  else is held stays as it is.
-/
def Carries
    (act : E → Option (LockAct K))
    (rank : K → Nat)
    (n : Nat)
    (before after : List K)
    (p : Prog Res α) : Prop :=
  ∀ outer, (∀ key ∈ outer, rank key < n) →
    p.Orderly act rank (fun _ later => later = after ++ outer)
      (before ++ outer)

namespace Carries

variable {n : Nat} {before middle after : List K}

theorem ret (value : α) :
    (Prog.ret value : Prog Res α).Carries act rank n
      before before :=
  fun _ _ => rfl

theorem bind
    {p : Prog Res α}
    {f : α → Prog Res β}
    (hFirst : p.Carries act rank n before middle)
    (hNext :
      ∀ value, (f value).Carries act rank n middle after) :
    (p >>= f).Carries act rank n before after := by
  intro outer hOuter
  rw [Orderly.bind_iff]
  refine (hFirst outer hOuter).mono ?_
  rintro value later rfl
  exact hNext value outer hOuter

theorem of_quiet
    {p : Prog Res α}
    {Q : α → Trace Res → Prop}
    {past : Trace Res}
    (hQuiet :
      p.Traced (fun _ effect => act effect = none) Q past) :
    p.Carries act rank n before before :=
  fun _ _ => Orderly.of_quiet hQuiet _

theorem perform
    {effect : E}
    (hQuiet : act effect = none) :
    (Prog.perform effect : Prog Res _).Carries act rank n
      before before :=
  have hTraced :
      (Prog.perform effect : Prog Res _).Traced
        (fun _ effect => act effect = none) (fun _ _ => True) [] :=
    ⟨hQuiet, fun _ => trivial⟩
  of_quiet hTraced

/- Take a lock above those that are held. -/
theorem take
    {effect : E}
    {key : K}
    (hTake : act effect = some (.take key))
    (hRank : n ≤ rank key)
    (hAbove : ∀ other ∈ before, rank other < rank key) :
    (Prog.perform effect : Prog Res _).Carries act rank n
      before (key :: before) := by
  intro outer hOuter
  unfold Prog.perform Orderly
  rw [hTake]
  refine ⟨?_, fun answer => rfl⟩
  intro other hOther
  rcases List.mem_append.mp hOther with hOther | hOther
  · exact hAbove other hOther
  · exact (hOuter other hOther).trans_le hRank

/- Give back the lock that was taken last. -/
theorem give
    {effect : E}
    {key : K}
    (hGive : act effect = some (.give key)) :
    (Prog.perform effect : Prog Res _).Carries act rank n
      (key :: before) before := by
  intro outer _
  unfold Prog.perform Orderly
  rw [hGive]
  refine ⟨trivial, fun answer => ?_⟩
  exact List.erase_cons_head key (before ++ outer)

/- A program that gives back all it takes, under other locks. -/
theorem nested
    {m : Nat}
    {p : Prog Res α}
    (hInner : p.Carries act rank m [] [])
    (hRank : n ≤ m)
    (hBelow : ∀ key ∈ before, rank key < m) :
    p.Carries act rank n before before := by
  intro outer hOuter
  refine hInner (before ++ outer) ?_
  intro key hKey
  rcases List.mem_append.mp hKey with hKey | hKey
  · exact hBelow key hKey
  · exact (hOuter key hKey).trans_le hRank

/- Take a lock, run the program, give the lock back. -/
theorem locked
    {lock unlock : E}
    {key : K}
    {p : Prog Res α}
    (hTake : act lock = some (.take key))
    (hGive : act unlock = some (.give key))
    (hRank : n ≤ rank key)
    (hBody : p.Carries act rank (rank key + 1) [] []) :
    (do
      let _ ← Prog.perform lock
      let value ← p
      let _ ← Prog.perform unlock
      pure value : Prog Res α).Carries act rank n [] [] := by
  have hNone : ∀ other ∈ ([] : List K), rank other < rank key :=
    fun _ hOther => nomatch hOther
  refine (take hTake hRank hNone).bind fun _ => ?_
  have hHeld : ∀ other ∈ [key], rank other < rank key + 1 := by
    intro other hOther
    rw [List.mem_singleton.mp hOther]
    omega
  refine (hBody.nested (by omega) hHeld).bind fun value => ?_
  exact (give hGive).bind fun _ => ret value

theorem via
    {E' : Type}
    {Res' : E' → Type}
    {act' : E' → Option (LockAct K)}
    {place : E → E'}
    {back : ∀ effect, Res' (place effect) → Res effect}
    {p : Prog Res α}
    (hCarries : p.Carries act rank n before after)
    (hAct : ∀ effect, act' (place effect) = act effect) :
    (p.via place back).Carries act' rank n before after :=
  fun outer hOuter => (hCarries outer hOuter).via hAct

end Carries

end Prog

end Concurrency

end IcpHandler

------------------------------------------------------------
-- The Table of Locks
------------------------------------------------------------

namespace IcpHandler

namespace Concurrency

/- The locks that a thread holds, the last one first. -/
def heldBy
    {K : Type}
    (thread : Nat)
    (table : List (K × Nat)) : List K :=
  (table.filter (·.2 = thread)).map Prod.fst

section HeldBy

variable {K : Type} {thread : Nat} {table : List (K × Nat)}

theorem mem_heldBy_iff {key : K} :
    key ∈ heldBy thread table ↔ (key, thread) ∈ table := by
  simp [heldBy]

theorem heldBy_cons_self (key : K) :
    heldBy thread ((key, thread) :: table) =
      key :: heldBy thread table := by
  simp [heldBy]

theorem heldBy_cons_other
    {other : Nat}
    (hOther : other ≠ thread)
    (key : K) :
    heldBy thread ((key, other) :: table) =
      heldBy thread table := by
  simp [heldBy, hOther]

variable [DecidableEq K]

theorem heldBy_erase_self (key : K) :
    heldBy thread (table.erase (key, thread)) =
      (heldBy thread table).erase key := by
  induction table with
  | nil => rfl
  | cons entry table ih =>
      rcases entry with ⟨taken, holder⟩
      by_cases hHolder : holder = thread
      · subst hHolder
        rw [heldBy_cons_self]
        by_cases hKey : taken = key
        · subst hKey
          rw [List.erase_cons_head, List.erase_cons_head]
        · have hEntry : (taken, holder) ≠ (key, holder) := by
            simp [hKey]
          rw [List.erase_cons_tail (by simpa using hEntry),
            List.erase_cons_tail (by simpa using hKey),
            heldBy_cons_self, ih]
      · have hEntry : (taken, holder) ≠ (key, thread) := by
          simp [hHolder]
        rw [List.erase_cons_tail (by simpa using hEntry),
          heldBy_cons_other hHolder, heldBy_cons_other hHolder,
          ih]

theorem heldBy_erase_other
    {other : Nat}
    (hOther : other ≠ thread)
    (key : K) :
    heldBy thread (table.erase (key, other)) =
      heldBy thread table := by
  induction table with
  | nil => rfl
  | cons entry table ih =>
      by_cases hEntry : entry = (key, other)
      · rw [hEntry, List.erase_cons_head,
          heldBy_cons_other hOther]
      · rw [List.erase_cons_tail (by simpa using hEntry)]
        rcases entry with ⟨taken, holder⟩
        by_cases hHolder : holder = thread
        · subst hHolder
          rw [heldBy_cons_self, heldBy_cons_self, ih]
        · rw [heldBy_cons_other hHolder,
            heldBy_cons_other hHolder, ih]

end HeldBy

/-
  The world of a machine has a table of the locks that are
  held. A lock that is held is not given out, and nothing but
  a held lock keeps a thread from its next effect for good.
-/
structure LockTable
    {E K : Type}
    [DecidableEq K]
    {Res : E → Type}
    {W C : Type}
    (m : Machine Res W C)
    (act : E → Option (LockAct K)) where
  held : W → List (K × Nat)
  keeps :
    ∀ {thread choice w effect answer w'},
      m.exec thread choice w effect = some (answer, w') →
      act effect = none → held w' = held w
  takes :
    ∀ {thread choice w effect answer w' key},
      m.exec thread choice w effect = some (answer, w') →
      act effect = some (.take key) →
      held w' = (key, thread) :: held w
  gives :
    ∀ {thread choice w effect answer w' key},
      m.exec thread choice w effect = some (answer, w') →
      act effect = some (.give key) →
      held w' = (held w).erase (key, thread)
  free :
    ∀ thread w effect,
      (∀ key, act effect = some (.take key) →
        ∀ holder, (key, holder) ∉ held w) →
      ∃ choice, (m.exec thread choice w effect).isSome

namespace LockTable

variable {E K : Type} [DecidableEq K] {Res : E → Type}
variable {W C : Type}
variable {m : Machine Res W C} {act : E → Option (LockAct K)}

/- What an effect does to the locks of its own thread. -/
theorem heldBy_own
    (locks : LockTable m act)
    {thread : Nat}
    {choice : C}
    {w w' : W}
    {effect : E}
    {answer : Res effect}
    (hExec :
      m.exec thread choice w effect = some (answer, w')) :
    heldBy thread (locks.held w') =
      LockAct.next (act effect)
        (heldBy thread (locks.held w)) := by
  cases hAct : act effect with
  | none =>
      rw [locks.keeps hExec hAct]
      rfl
  | some lockAct =>
      cases lockAct with
      | take key =>
          rw [locks.takes hExec hAct, heldBy_cons_self]
          rfl
      | give key =>
          rw [locks.gives hExec hAct, heldBy_erase_self]
          rfl

/- It does nothing to the locks of the others. -/
theorem heldBy_other
    (locks : LockTable m act)
    {thread other : Nat}
    {choice : C}
    {w w' : W}
    {effect : E}
    {answer : Res effect}
    (hExec :
      m.exec thread choice w effect = some (answer, w'))
    (hOther : other ≠ thread) :
    heldBy other (locks.held w') =
      heldBy other (locks.held w) := by
  cases hAct : act effect with
  | none => rw [locks.keeps hExec hAct]
  | some lockAct =>
      cases lockAct with
      | take key =>
          rw [locks.takes hExec hAct,
            heldBy_cons_other (Ne.symm hOther)]
      | give key =>
          rw [locks.gives hExec hAct,
            heldBy_erase_other (Ne.symm hOther)]

end LockTable

end Concurrency

end IcpHandler

------------------------------------------------------------
-- No Circles
------------------------------------------------------------

namespace IcpHandler

namespace Concurrency

namespace Pool

variable {E K : Type} [DecidableEq K] {Res : E → Type}
variable {W C α : Type}
variable {m : Machine Res W C} {act : E → Option (LockAct K)}
variable {rank : K → Nat}

/- The thread asks for a lock that the other one holds. -/
def WaitsFor
    (locks : LockTable m act)
    (pool : Pool Res W α)
    (thread other : Nat) : Prop :=
  ∃ effect next key,
    pool.threads thread = .step effect next ∧
      act effect = some (.take key) ∧
      (key, other) ∈ locks.held pool.history.world

/-
  Every thread goes on in order with the locks it has, and
  has given them all back when it returns.
-/
def Ordered
    (locks : LockTable m act)
    (rank : K → Nat)
    (pool : Pool Res W α) : Prop :=
  ∀ thread, (pool.threads thread).Orderly act rank
    (fun _ held => held = [])
    (heldBy thread (locks.held pool.history.world))

section Ordered

variable {locks : LockTable m act}
variable {pool pool' : Pool Res W α}

/- One step keeps the order. -/
theorem Ordered.step
    {thread : Nat}
    {choice : C}
    (hOrdered : pool.Ordered locks rank)
    (hStep : pool.step m thread choice = some pool') :
    pool'.Ordered locks rank := by
  obtain ⟨effect, next, answer, after, hThread, hExec,
    hHistory, hNext, hOthers⟩ := step_cases hStep
  intro other
  rw [hHistory, History.push_world]
  by_cases hOther : other = thread
  · subst hOther
    have hOwn := hOrdered other
    rw [hThread] at hOwn
    rw [hNext, locks.heldBy_own hExec]
    exact hOwn.2 answer
  · rw [hOthers other hOther, locks.heldBy_other hExec hOther]
    exact hOrdered other

/- A whole run keeps it, by induction on the schedule. -/
theorem run_ordered
    {schedule : List (Nat × C)}
    (hOrdered : pool.Ordered locks rank)
    (hRun : pool.run m schedule = some pool') :
    pool'.Ordered locks rank := by
  induction schedule generalizing pool with
  | nil =>
      cases hRun
      exact hOrdered
  | cons entry schedule ih =>
      rcases entry with ⟨thread, choice⟩
      simp only [run, Option.bind_eq_some_iff] at hRun
      obtain ⟨middle, hStep, hRest⟩ := hRun
      exact ih (hOrdered.step hStep) hRest

/- A thread waits for a lock above all those it holds. -/
theorem Ordered.above
    (hOrdered : pool.Ordered locks rank)
    {thread : Nat}
    {effect : E}
    {next : Res effect → Prog Res α}
    {key : K}
    (hThread : pool.threads thread = .step effect next)
    (hTake : act effect = some (.take key)) :
    ∀ own, (own, thread) ∈ locks.held pool.history.world →
      rank own < rank key := by
  intro own hOwn
  have hOrderly := hOrdered thread
  rw [hThread] at hOrderly
  have hAllowed := hOrderly.1
  rw [hTake] at hAllowed
  exact hAllowed own (mem_heldBy_iff.mpr hOwn)

/-
  Along a chain of waiting threads the ranks go up: the last
  one holds a lock above all those of the first.
-/
theorem Ordered.chain
    (hOrdered : pool.Ordered locks rank)
    {first last : Nat}
    (hChain :
      Relation.TransGen (pool.WaitsFor locks) first last) :
    ∃ key, (key, last) ∈ locks.held pool.history.world ∧
      ∀ own, (own, first) ∈ locks.held pool.history.world →
        rank own < rank key := by
  induction hChain with
  | single hWaits =>
      obtain ⟨effect, next, key, hThread, hTake, hHeld⟩ := hWaits
      exact ⟨key, hHeld, hOrdered.above hThread hTake⟩
  | tail hChain hWaits ih =>
      obtain ⟨lower, hLower, hBelow⟩ := ih
      obtain ⟨effect, next, key, hThread, hTake, hHeld⟩ := hWaits
      refine ⟨key, hHeld, fun own hOwn => ?_⟩
      exact (hBelow own hOwn).trans
        (hOrdered.above hThread hTake lower hLower)

/- No thread waits for itself, however long the chain. -/
theorem Ordered.acyclic
    (hOrdered : pool.Ordered locks rank)
    (thread : Nat) :
    ¬ Relation.TransGen (pool.WaitsFor locks) thread thread := by
  intro hChain
  obtain ⟨key, hHeld, hAbove⟩ := hOrdered.chain hChain
  exact absurd (hAbove key hHeld) (lt_irrefl _)

/- A thread that has work to do and waits for nobody goes on. -/
theorem step_of_free
    {thread : Nat}
    {effect : E}
    {next : Res effect → Prog Res α}
    (hThread : pool.threads thread = .step effect next)
    (hFree : ∀ other, ¬ pool.WaitsFor locks thread other) :
    ∃ choice, (pool.step m thread choice).isSome := by
  have hLock :
      ∀ key, act effect = some (.take key) →
        ∀ holder, (key, holder) ∉ locks.held pool.history.world :=
    fun key hTake holder hHeld =>
      hFree holder ⟨effect, next, key, hThread, hTake, hHeld⟩
  obtain ⟨choice, hExec⟩ :=
    locks.free thread pool.history.world effect hLock
  refine ⟨choice, ?_⟩
  unfold step
  rw [hThread]
  simpa using hExec

/-
  While a lock is held, the holder of one of the highest rank
  waits for nobody and can go on.
-/
theorem Ordered.proceeds
    (hOrdered : pool.Ordered locks rank)
    (hHeld : locks.held pool.history.world ≠ []) :
    ∃ key thread choice,
      (key, thread) ∈ locks.held pool.history.world ∧
        (∀ other, ¬ pool.WaitsFor locks thread other) ∧
        (pool.step m thread choice).isSome := by
  obtain ⟨⟨key, thread⟩, hTop, hMax⟩ :=
    Multiset.exists_max_image (fun entry : K × Nat => rank entry.1)
      ((Multiset.coe_eq_zero _).not.mpr hHeld)
  have hFree : ∀ other, ¬ pool.WaitsFor locks thread other := by
    rintro other ⟨effect, next, wanted, hThread, hTake, hOther⟩
    have hBelow := hOrdered.above hThread hTake key hTop
    have hAtMost := hMax (wanted, other) hOther
    exact absurd hBelow (not_lt.mpr hAtMost)
  cases hThread : pool.threads thread with
  | ret value =>
      -- who has returned holds nothing
      have hReturned := hOrdered thread
      rw [hThread] at hReturned
      have hOwn := mem_heldBy_iff.mpr hTop
      rw [show heldBy thread _ = [] from hReturned] at hOwn
      cases hOwn
  | step effect next =>
      obtain ⟨choice, hStep⟩ := step_of_free hThread hFree
      exact ⟨key, thread, choice, hTop, hFree, hStep⟩

end Ordered

end Pool

end Concurrency

end IcpHandler
