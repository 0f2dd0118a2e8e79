import IcpHandler.Concurrency.Prog

/-
  Threads that interleave at their effects. A machine says
  what one atomic effect of one thread does to the world; a
  history is the world together with the effects performed so
  far; a pool runs any number of programs under a schedule.

  Main declarations:
    * `Machine`
    * `Occurrence`
    * `History`
    * `Pool.run`
    * `Prog.eval`, `Prog.eval_step`
    * `Conforms`
-/

------------------------------------------------------------
-- Machines and Histories
------------------------------------------------------------

namespace IcpHandler

namespace Concurrency

/-
  The meaning of one atomic effect. The choice carries what
  the outside decides (a clock reading, a fault). No answer
  means that the thread cannot take the step in this world: it
  waits for a lock, or the choice is not one the outside can
  make.
-/
structure Machine
    {E : Type}
    (Res : E → Type)
    (W C : Type) where
  exec : Nat → C → W → (effect : E) → Option (Res effect × W)

/- One effect that some thread has performed. -/
structure Occurrence
    {E : Type}
    (Res : E → Type)
    (W : Type) where
  thread : Nat
  effect : E
  answer : Res effect
  before : W
  after : W

/- The present world, and the past, most recent first. -/
structure History
    {E : Type}
    (Res : E → Type)
    (W : Type) where
  world : W
  past : List (Occurrence Res W)

namespace History

variable {E : Type} {Res : E → Type} {W : Type}

/- The history before anything happened. -/
def start (world : W) : History Res W :=
  ⟨world, []⟩

/- The history after one more occurrence. -/
def push
    (h : History Res W)
    (o : Occurrence Res W) : History Res W :=
  ⟨o.after, o :: h.past⟩

@[simp] theorem start_world (w : W) :
    (start w : History Res W).world = w :=
  rfl

@[simp] theorem start_past (w : W) :
    (start w : History Res W).past = [] :=
  rfl

@[simp] theorem push_world
    (h : History Res W)
    (o : Occurrence Res W) :
    (h.push o).world = o.after :=
  rfl

@[simp] theorem push_past
    (h : History Res W)
    (o : Occurrence Res W) :
    (h.push o).past = o :: h.past :=
  rfl

end History

namespace Machine

variable {E : Type} {Res : E → Type} {W C : Type}

/- The occurrence is one the machine allows at the history. -/
structure Allows
    (m : Machine Res W C)
    (h : History Res W)
    (o : Occurrence Res W) : Prop where
  before_eq : o.before = h.world
  exec_eq :
    ∃ choice, m.exec o.thread choice h.world o.effect =
      some (o.answer, o.after)

end Machine

end Concurrency

end IcpHandler

------------------------------------------------------------
-- Conditions on a Past
------------------------------------------------------------

namespace IcpHandler

namespace Concurrency

variable {E : Type} {Res : E → Type} {W : Type}

/-
  Every occurrence of the past met the condition when it
  happened. The condition sees what had happened before it.
-/
def Conforms
    (cond : List (Occurrence Res W) → Occurrence Res W → Prop) :
    List (Occurrence Res W) → Prop
  | [] => True
  | o :: past => cond past o ∧ Conforms cond past

@[simp] theorem conforms_nil
    (cond :
      List (Occurrence Res W) → Occurrence Res W → Prop) :
    Conforms cond [] :=
  trivial

@[simp] theorem conforms_cons
    {cond :
      List (Occurrence Res W) → Occurrence Res W → Prop}
    {o : Occurrence Res W}
    {past : List (Occurrence Res W)} :
    Conforms cond (o :: past) ↔
      cond past o ∧ Conforms cond past :=
  Iff.rfl

theorem Conforms.mono
    {cond cond' :
      List (Occurrence Res W) → Occurrence Res W → Prop}
    {past : List (Occurrence Res W)}
    (hConforms : Conforms cond past)
    (hImp : ∀ older o, cond older o → cond' older o) :
    Conforms cond' past := by
  induction past with
  | nil => trivial
  | cons o past ih =>
      exact ⟨hImp past o hConforms.1, ih hConforms.2⟩

theorem Conforms.cut
    {cond :
      List (Occurrence Res W) → Occurrence Res W → Prop}
    {recent older : List (Occurrence Res W)}
    {o : Occurrence Res W}
    (hConforms : Conforms cond (recent ++ o :: older)) :
    cond older o ∧ Conforms cond older := by
  induction recent with
  | nil => exact hConforms
  | cons first recent ih => exact ih hConforms.2

instance
    (cond :
      List (Occurrence Res W) → Occurrence Res W → Prop)
    [∀ past o, Decidable (cond past o)]
    (past : List (Occurrence Res W)) :
    Decidable (Conforms cond past) :=
  match past with
  | [] => .isTrue trivial
  | o :: past =>
      have := instDecidableConforms cond past
      inferInstanceAs
        (Decidable (cond past o ∧ Conforms cond past))

end Concurrency

end IcpHandler

------------------------------------------------------------
-- Pools and Schedules
------------------------------------------------------------

namespace IcpHandler

namespace Concurrency

variable {E : Type} {Res : E → Type} {W C α : Type}

/- Programs that share one world, one for each thread. -/
structure Pool
    {E : Type}
    (Res : E → Type)
    (W α : Type) where
  history : History Res W
  threads : Nat → Prog Res α

namespace Pool

/- One thread performs its next effect. -/
def step
    (m : Machine Res W C)
    (thread : Nat)
    (choice : C)
    (pool : Pool Res W α) : Option (Pool Res W α) :=
  match pool.threads thread with
  | .ret _ => none
  | .step effect next =>
      (m.exec thread choice pool.history.world effect).map
        fun result =>
          { history := pool.history.push
              ⟨thread, effect, result.1,
                pool.history.world, result.2⟩
            threads := fun other =>
              if other = thread then next result.1
              else pool.threads other }

/- Run a schedule, which names the thread of every step. -/
def run
    (m : Machine Res W C) :
    List (Nat × C) → Pool Res W α → Option (Pool Res W α)
  | [], pool => some pool
  | (thread, choice) :: schedule, pool =>
      (pool.step m thread choice).bind (run m schedule)

/- What a step of a pool is made of. -/
theorem step_cases
    {m : Machine Res W C}
    {thread : Nat}
    {choice : C}
    {pool pool' : Pool Res W α}
    (hStep : pool.step m thread choice = some pool') :
    ∃ effect next answer after,
      pool.threads thread = .step effect next ∧
      m.exec thread choice pool.history.world effect =
        some (answer, after) ∧
      pool'.history = pool.history.push
        ⟨thread, effect, answer,
          pool.history.world, after⟩ ∧
      pool'.threads thread = next answer ∧
      ∀ other, other ≠ thread →
        pool'.threads other = pool.threads other := by
  unfold step at hStep
  cases hThread : pool.threads thread with
  | ret value => simp [hThread] at hStep
  | step effect next =>
      simp only [hThread, Option.map_eq_some_iff] at hStep
      rcases hStep with ⟨⟨answer, after⟩, hExec, rfl⟩
      refine ⟨effect, next, answer, after, rfl, hExec, rfl,
        by simp, ?_⟩
      intro other hOther
      simp [hOther]

/- One schedule after the other. -/
theorem run_append
    {m : Machine Res W C}
    (first second : List (Nat × C))
    (pool : Pool Res W α) :
    run m (first ++ second) pool =
      (run m first pool).bind (run m second) := by
  induction first generalizing pool with
  | nil => rfl
  | cons entry first ih =>
      rw [List.cons_append, run, run, Option.bind_assoc]
      exact congrArg _ (funext ih)

/- A run adds the moves of scheduled threads to the past. -/
theorem run_movers
    {m : Machine Res W C}
    {schedule : List (Nat × C)}
    {pool pool' : Pool Res W α}
    (hRun : run m schedule pool = some pool') :
    ∃ recent,
      pool'.history.past = recent ++ pool.history.past ∧
        ∀ o ∈ recent, ∃ entry ∈ schedule, entry.1 = o.thread := by
  induction schedule generalizing pool with
  | nil =>
      cases hRun
      exact ⟨[], rfl, fun _ hMem => nomatch hMem⟩
  | cons entry schedule ih =>
      rcases entry with ⟨thread, choice⟩
      simp only [run, Option.bind_eq_some_iff] at hRun
      rcases hRun with ⟨middle, hStep, hRest⟩
      rcases step_cases hStep with
        ⟨effect, next, answer, after, -, -, hHistory, -, -⟩
      rcases ih hRest with ⟨recent, hPast, hMovers⟩
      rw [hHistory, History.push_past] at hPast
      refine ⟨recent ++ [⟨thread, effect, answer,
        pool.history.world, after⟩], ?_, ?_⟩
      · rw [hPast, List.append_assoc, List.singleton_append]
      · intro o hMem
        rcases List.mem_append.mp hMem with hRecent | hFirst
        · obtain ⟨entry, hEntry, hThread⟩ := hMovers o hRecent
          exact ⟨entry, List.mem_cons_of_mem _ hEntry, hThread⟩
        · rw [List.mem_singleton.mp hFirst]
          exact ⟨_, List.mem_cons_self, rfl⟩

theorem run_past
    {m : Machine Res W C}
    {schedule : List (Nat × C)}
    {pool pool' : Pool Res W α}
    (hRun : run m schedule pool = some pool') :
    ∃ recent,
      pool'.history.past = recent ++ pool.history.past := by
  obtain ⟨recent, hPast, -⟩ := run_movers hRun
  exact ⟨recent, hPast⟩

/- A thread that has returned does nothing more. -/
theorem run_returned
    {m : Machine Res W C}
    {schedule : List (Nat × C)}
    {pool pool' : Pool Res W α}
    {thread : Nat}
    {value : α}
    (hRun : run m schedule pool = some pool')
    (hReturned : pool.threads thread = .ret value) :
    ∃ recent,
      pool'.history.past = recent ++ pool.history.past ∧
        ∀ o ∈ recent, o.thread ≠ thread := by
  induction schedule generalizing pool with
  | nil =>
      cases hRun
      exact ⟨[], rfl, fun _ hMem => nomatch hMem⟩
  | cons entry schedule ih =>
      rcases entry with ⟨mover, choice⟩
      simp only [run, Option.bind_eq_some_iff] at hRun
      rcases hRun with ⟨middle, hStep, hRest⟩
      rcases step_cases hStep with
        ⟨effect, next, answer, after, hMover, -, hHistory, -,
          hOthers⟩
      have hOther : thread ≠ mover := by
        rintro rfl
        rw [hReturned] at hMover
        cases hMover
      rcases ih hRest ((hOthers thread hOther).trans hReturned)
        with ⟨recent, hPast, hNot⟩
      rw [hHistory, History.push_past] at hPast
      refine ⟨recent ++ [⟨mover, effect, answer,
        pool.history.world, after⟩], ?_, ?_⟩
      · rw [hPast, List.append_assoc, List.singleton_append]
      · intro o hMem
        rcases List.mem_append.mp hMem with hRecent | hLast
        · exact hNot o hRecent
        · rw [List.mem_singleton.mp hLast]
          exact hOther.symm

/- Threads that are not scheduled make no difference. -/
theorem run_agree
    {m : Machine Res W C}
    {schedule : List (Nat × C)}
    {pool pool' other : Pool Res W α}
    (scheduled : Nat → Prop)
    (hScheduled : ∀ entry ∈ schedule, scheduled entry.1)
    (hHistory : other.history = pool.history)
    (hThreads :
      ∀ thread, scheduled thread →
        other.threads thread = pool.threads thread)
    (hRun : run m schedule pool = some pool') :
    ∃ other', run m schedule other = some other' ∧
      other'.history = pool'.history ∧
      ∀ thread, scheduled thread →
        other'.threads thread = pool'.threads thread := by
  induction schedule generalizing pool other with
  | nil =>
      cases hRun
      exact ⟨other, rfl, hHistory, hThreads⟩
  | cons entry schedule ih =>
      rcases entry with ⟨mover, choice⟩
      simp only [run, Option.bind_eq_some_iff] at hRun ⊢
      rcases hRun with ⟨middle, hStep, hRest⟩
      have hMover := hThreads mover
        (hScheduled _ List.mem_cons_self)
      rcases step_cases hStep with
        ⟨effect, next, answer, after, hEffect, hExec, hPushed,
          hNext, hOthers⟩
      rw [hEffect] at hMover
      rw [← hHistory] at hExec hPushed
      let stepped : Pool Res W α :=
        { history := other.history.push
            ⟨mover, effect, answer, other.history.world, after⟩
          threads := fun thread =>
            if thread = mover then next answer
            else other.threads thread }
      have hStepped : other.step m mover choice = some stepped := by
        simp only [step, hMover, hExec, Option.map_some]
        rfl
      have hAgree :
          ∀ thread, scheduled thread →
            stepped.threads thread = middle.threads thread := by
        intro thread hThread
        by_cases hSame : thread = mover
        · subst hSame
          rw [hNext]
          exact if_pos rfl
        · rw [hOthers thread hSame, ← hThreads thread hThread]
          exact if_neg hSame
      obtain ⟨other', hRun', hRest'⟩ :=
        ih (fun entry hEntry =>
          hScheduled entry (List.mem_cons_of_mem _ hEntry))
          hPushed.symm hAgree hRest
      exact ⟨other', ⟨stepped, hStepped, hRun'⟩, hRest'⟩

end Pool

end Concurrency

end IcpHandler

------------------------------------------------------------
-- One Program Alone
------------------------------------------------------------

namespace IcpHandler

namespace Concurrency

variable {E : Type} {Res : E → Type} {W C α : Type}

namespace Prog

/-
  Run one program to its end with nothing in between. The
  choices that are left over are returned.
-/
def eval
    (m : Machine Res W C)
    (thread : Nat) :
    Prog Res α → List C → History Res W →
      Option (α × History Res W × List C)
  | .ret value, choices, h => some (value, h, choices)
  | .step _ _, [], _ => none
  | .step effect next, choice :: choices, h =>
      match m.exec thread choice h.world effect with
      | none => none
      | some (answer, after) =>
          (next answer).eval m thread choices
            (h.push ⟨thread, effect, answer, h.world, after⟩)

/- What a program does first when it runs alone. -/
theorem eval_step
    {m : Machine Res W C}
    {thread : Nat}
    {effect : E}
    {next : Res effect → Prog Res α}
    {choices : List C}
    {h : History Res W}
    {result : α × History Res W × List C}
    (hEval :
      (Prog.step effect next).eval m thread choices h =
        some result) :
    ∃ choice others answer after,
      choices = choice :: others ∧
      m.exec thread choice h.world effect =
        some (answer, after) ∧
      (next answer).eval m thread others
          (h.push ⟨thread, effect, answer, h.world, after⟩) =
        some result := by
  cases choices with
  | nil => cases hEval
  | cons choice others =>
      unfold eval at hEval
      split at hEval
      · cases hEval
      · rename_i answer after hExec
        exact ⟨choice, others, answer, after, rfl, hExec, hEval⟩

end Prog

end Concurrency

end IcpHandler
