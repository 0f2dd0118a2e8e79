import IcpHandler.Concurrency.Trace

/-
  Threads that take turns: each runs to its end before the
  next one begins. What is special about such a run is that a
  thread finds between two moves of its own only what it has
  done itself.

  Main declarations:
    * `turns`
    * `InTurn`
    * `turns_lawful`, `Prog.eval_inTurn`
    * `InTurn.split`
-/

------------------------------------------------------------
-- Turns
------------------------------------------------------------

namespace IcpHandler

namespace Concurrency

variable {E : Type} {Res : E → Type} {W C α : Type}

/- The first threads one after the other, each to its end. -/
def turns
    (m : Machine Res W C)
    (threads : Nat → Prog Res α)
    (choices : Nat → List C)
    (w : W) : Nat → Option (History Res W)
  | 0 => some (.start w)
  | count + 1 =>
      (turns m threads choices w count).bind fun h =>
        ((threads count).eval m count (choices count) h).map
          fun result => result.2.1

/- No thread moves again after a later one has moved. -/
def InTurn (past : List (Occurrence Res W)) : Prop :=
  past.Pairwise fun later earlier =>
    earlier.thread ≤ later.thread

/-
  Threads that take turns and follow their rules make a lawful
  history. By induction on the number of threads.
-/
theorem turns_lawful
    {m : Machine Res W C}
    {rule : Nat → Trace Res → E → Prop}
    {post : Nat → α → Trace Res → Prop}
    {threads : Nat → Prog Res α}
    {choices : Nat → List C}
    {w : W}
    {count : Nat}
    {h : History Res W}
    (hTraced :
      ∀ thread, (threads thread).Traced (rule thread)
        (post thread) [])
    (hTurns : turns m threads choices w count = some h) :
    Lawful m rule w h ∧ InTurn h.past ∧
      ∀ o ∈ h.past, o.thread < count := by
  induction count generalizing h with
  | zero =>
      cases hTurns
      exact ⟨.start, List.Pairwise.nil,
        fun o hMem => absurd hMem List.not_mem_nil⟩
  | succ count ih =>
      simp only [turns, Option.bind_eq_some_iff,
        Option.map_eq_some_iff] at hTurns
      obtain ⟨before, hBefore, ⟨value, after, rest⟩, hEval,
        rfl⟩ := hTurns
      obtain ⟨hLawful, hInTurn, hThreads⟩ := ih hBefore
      have hOwn : own count before.past = [] :=
        own_eq_nil fun o hMem =>
          Nat.ne_of_lt (hThreads o hMem)
      have hThread := hTraced count
      rw [← hOwn] at hThread
      obtain ⟨hAfter, -, recent, hPast, hRecent⟩ :=
        Prog.eval_lawful hLawful hThread hEval
      refine ⟨hAfter, ?_, ?_⟩
      · change InTurn after.past
        rw [hPast, InTurn, List.pairwise_append]
        refine ⟨?_, hInTurn, ?_⟩
        · refine List.pairwise_of_forall_mem_list ?_
          intro later hLater earlier hEarlier
          exact Nat.le_of_eq ((hRecent earlier hEarlier).trans
            (hRecent later hLater).symm)
        · intro later hLater earlier hEarlier
          rw [hRecent later hLater]
          exact Nat.le_of_lt (hThreads earlier hEarlier)
      · intro o hMem
        change o ∈ after.past at hMem
        rw [hPast] at hMem
        rcases List.mem_append.mp hMem with hMem | hMem
        · rw [hRecent o hMem]
          omega
        · have hOlder := hThreads o hMem
          omega

/- A program that runs alone is always in its turn. -/
theorem Prog.eval_inTurn
    {m : Machine Res W C}
    {rule : Trace Res → E → Prop}
    {Q : α → Trace Res → Prop}
    {p : Prog Res α}
    {thread : Nat}
    {choices rest : List C}
    {w : W}
    {h : History Res W}
    {value : α}
    (hTraced : p.Traced rule Q [])
    (hEval :
      p.eval m thread choices (.start w) =
        some (value, h, rest)) :
    Lawful m (fun _ => rule) w h ∧
      Q value (own thread h.past) ∧ InTurn h.past := by
  have hStart :
      Lawful m (fun _ : Nat => rule) w (.start w) :=
    .start
  obtain ⟨hLawful, hPost, recent, hPast, hThreads⟩ :=
    eval_lawful hStart hTraced hEval
  refine ⟨hLawful, hPost, ?_⟩
  rw [History.start_past, List.append_nil] at hPast
  refine List.pairwise_of_forall_mem_list ?_
  intro later hLater earlier hEarlier
  rw [hPast] at hLater hEarlier
  exact Nat.le_of_eq ((hThreads earlier hEarlier).trans
    (hThreads later hLater).symm)

/-
  Where the turn has come to a thread, all that has happened
  since a move of its own are its own later moves.
-/
theorem InTurn.split
    {past : List (Occurrence Res W)}
    {o : Occurrence Res W}
    (hInTurn : InTurn (o :: past))
    {recent older : Trace Res}
    {move : Move Res}
    (hOwn : own o.thread past = recent ++ move :: older) :
    ∃ later first earlier,
      past = later ++ first :: earlier ∧
      first.thread = o.thread ∧ first.move = move ∧
      ∀ other ∈ later, other.move ∈ recent := by
  obtain ⟨later, first, earlier, hPast, hThread, hMove,
    hRecent, -⟩ := own_split hOwn
  refine ⟨later, first, earlier, hPast, hThread, hMove, ?_⟩
  intro other hOther
  obtain ⟨hBefore, hSorted⟩ := List.pairwise_cons.mp hInTurn
  rw [hPast] at hBefore hSorted
  have hAfterFirst : first.thread ≤ other.thread :=
    (List.pairwise_append.mp hSorted).2.2 other hOther first
      List.mem_cons_self
  have hBeforeO : other.thread ≤ o.thread :=
    hBefore other (List.mem_append_left _ hOther)
  have hSame : other.thread = o.thread := by omega
  rw [← hRecent]
  exact mem_own_iff.mpr ⟨other, hOther, hSame, rfl⟩

end Concurrency

end IcpHandler
