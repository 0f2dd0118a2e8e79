import IcpHandler.Protocol.Operations

/-
  Runs of the handler: any number of operations, one on each
  thread, that interleave at their effects. What is said here
  holds of every run: who holds the locks, who has drawn which
  token, and that a fresh subscription id is not in use.

  Main declarations:
    * `poolOf`
    * `run_lawful`, `run_post`
    * `LocksKept`, `TokensKept`
    * `absent_of_fresh`, `LawfulRun.unstored_of_fresh`
    * `LawfulRun.not_inserted`, `LawfulRun.quote_not_inserted`
-/

------------------------------------------------------------
-- Runs
------------------------------------------------------------

namespace IcpHandler

namespace Protocol

open Model Service Concurrency

/- One operation on every thread. -/
def poolOf
    (svc : IcpService)
    (ops : Nat → Op)
    (w : World) : Pool Eff.Res World OpResult :=
  ⟨.start w, fun thread => (ops thread).prog svc⟩

/- The pool after a schedule, which may not be possible. -/
def runOf
    (svc : IcpService)
    (ops : Nat → Op)
    (w : World)
    (schedule : List (Nat × Choice)) :
    Option (Pool Eff.Res World OpResult) :=
  (poolOf svc ops w).run (machine svc.deps.rfc3339) schedule

/- The pool is one the operations can reach. -/
def Reaches
    (svc : IcpService)
    (ops : Nat → Op)
    (w : World)
    (pool : Pool Eff.Res World OpResult) : Prop :=
  ∃ schedule, runOf svc ops w schedule = some pool

/- The histories in which every thread follows its rule. -/
abbrev LawfulRun
    (svc : IcpService)
    (ops : Nat → Op)
    (w : World)
    (h : History Eff.Res World) : Prop :=
  Lawful (machine svc.deps.rfc3339)
    (fun thread => Rule svc (ops thread)) w h

section Runs

variable {svc : IcpService}
variable {ops : Nat → Op}
variable {w : World}
variable {pool : Pool Eff.Res World OpResult}
variable {h : History Eff.Res World}

theorem Reaches.lawful_traced
    (hReaches : Reaches svc ops w pool) :
    LawfulRun svc ops w pool.history ∧
      ∀ thread, (pool.threads thread).Traced
        (Rule svc (ops thread)) (OpPost svc (ops thread))
        (own thread pool.history.past) := by
  rcases hReaches with ⟨schedule, hRun⟩
  refine Pool.run_lawful .start ?_ hRun
  exact fun thread => prog_traced svc (ops thread)

theorem Reaches.lawful
    (hReaches : Reaches svc ops w pool) :
    LawfulRun svc ops w pool.history :=
  hReaches.lawful_traced.1

/- What a thread that has returned has done. -/
theorem Reaches.post
    (hReaches : Reaches svc ops w pool)
    {thread : Nat}
    {result : OpResult}
    (hReturned : pool.threads thread = .ret result) :
    OpPost svc (ops thread) result
      (own thread pool.history.past) := by
  have hTraced := hReaches.lawful_traced.2 thread
  rw [hReturned] at hTraced
  exact hTraced

end Runs

end Protocol

end IcpHandler

------------------------------------------------------------
-- Lawful Histories
------------------------------------------------------------

namespace IcpHandler

namespace Protocol

open Model Service Concurrency

section Histories

variable {svc : IcpService}
variable {ops : Nat → Op}
variable {w : World}
variable {h : History Eff.Res World}

/- What every run keeps, by induction on the run. -/
@[elab_as_elim]
theorem LawfulRun.induct
    {Inv : History Eff.Res World → Prop}
    (hLawful : LawfulRun svc ops w h)
    (hStart : Inv (.start w))
    (hStep :
      ∀ h o, LawfulRun svc ops w h → Inv h →
        Executes svc.deps.rfc3339 o →
        o.before = h.world →
        Rule svc (ops o.thread) (own o.thread h.past)
          o.effect →
        Inv (h.push o)) :
    Inv h := by
  induction hLawful with
  | start => exact hStart
  | push hBefore hAllows hRule ih =>
      exact hStep _ _ hBefore ih (executes_of_allows hAllows)
        hAllows.before_eq hRule

/- A past can be cut anywhere, and what came first is a run. -/
theorem LawfulRun.cut
    (hLawful : LawfulRun svc ops w h)
    {recent older : Past}
    {o : Happening}
    (hPast : h.past = recent ++ o :: older) :
    ∃ earlier, LawfulRun svc ops w earlier ∧
      earlier.past = older ∧
      Executes svc.deps.rfc3339 o ∧
      o.before = earlier.world ∧
      Rule svc (ops o.thread) (own o.thread older)
        o.effect := by
  obtain ⟨earlier, hEarlier, hOlder, hAllows, hRule⟩ :=
    Lawful.cut hLawful hPast
  exact ⟨earlier, hEarlier, hOlder, executes_of_allows hAllows,
    hAllows.before_eq, hRule⟩

theorem LawfulRun.executes
    (hLawful : LawfulRun svc ops w h)
    {o : Happening}
    (hMem : o ∈ h.past) :
    Executes svc.deps.rfc3339 o := by
  rcases List.append_of_mem hMem with ⟨recent, older, hPast⟩
  rcases hLawful.cut hPast with ⟨_, _, _, hExec, _, _⟩
  exact hExec

end Histories

end Protocol

end IcpHandler

------------------------------------------------------------
-- Locks
------------------------------------------------------------

namespace IcpHandler

namespace Protocol

open Model Service Concurrency

section Locks

variable {svc : IcpService}
variable {ops : Nat → Op}
variable {w : World}
variable {h : History Eff.Res World}
variable {key : String}
variable {past : Moves}

theorem Held.of_cons
    {move : Move Eff.Res}
    (hHeld : Held key (move :: past))
    (hMove : move.effect.isLocking = false) :
    Held key past where
  taken := by
    rcases List.mem_cons.mp hHeld.taken with hEq | hMem
    · rw [← hEq] at hMove
      cases hMove
    · exact hMem
  kept := fun other hMem =>
    hHeld.kept other (List.mem_cons_of_mem _ hMem)

theorem ReadUnder.held
    {loud : Eff → Bool}
    {read : Move Eff.Res}
    (hRead : ReadUnder loud key read past)
    (hReading : read.effect.isLocking = false) :
    Held key past := by
  rcases hRead with ⟨recent, older, rfl, hHeld, hQuiet⟩
  induction recent with
  | nil => exact hHeld.cons hReading
  | cons move recent ih =>
      refine Held.cons (ih fun later hLater =>
        hQuiet later (List.mem_cons_of_mem _ hLater)) ?_
      exact (hQuiet move List.mem_cons_self).2

/- A read under a lock, and what came before its last move. -/
theorem ReadUnder.of_cons
    {loud : Eff → Bool}
    {read move : Move Eff.Res}
    (hRead : ReadUnder loud key read (move :: past)) :
    move = read ∨
      (ReadUnder loud key read past ∧
        loud move.effect = false) := by
  obtain ⟨recent, older, hPast, hHeld, hQuiet⟩ := hRead
  cases recent with
  | nil =>
      rw [List.nil_append] at hPast
      exact .inl (List.cons.inj hPast).1
  | cons first recent =>
      rw [List.cons_append] at hPast
      obtain ⟨rfl, rfl⟩ := List.cons.inj hPast
      refine .inr ⟨⟨recent, older, rfl, hHeld, ?_⟩, ?_⟩
      · exact fun later hLater =>
          hQuiet later (List.mem_cons_of_mem _ hLater)
      · exact (hQuiet _ List.mem_cons_self).1

/- A read under a lock was made before, or is the last step. -/
theorem ReadUnder.push_cases
    {loud : Eff → Bool}
    {read : Move Eff.Res}
    {thread : Nat}
    {o : Happening}
    (hRead :
      ReadUnder loud key read (own thread (o :: h.past))) :
    o.move = read ∨
      (ReadUnder loud key read (own thread h.past) ∧
        (o.thread = thread → loud o.effect = false)) := by
  rw [own_cons] at hRead
  split at hRead
  · rcases hRead.of_cons with hMove | ⟨hOlder, hQuiet⟩
    · exact .inl hMove
    · exact .inr ⟨hOlder, fun _ => hQuiet⟩
  · rename_i hOther
    exact .inr ⟨hRead, fun hThread => absurd hThread hOther⟩

theorem SeenTxn.held
    {id : String}
    {txn : Transaction}
    (hSeen : SeenTxn id txn past) :
    Held (txnLock id) past :=
  ReadUnder.held hSeen rfl

theorem SeenSub.held
    {id : String}
    {sub : Subscription}
    (hSeen : SeenSub id sub past) :
    Held (subLock id) past :=
  ReadUnder.held hSeen rfl

/-
  The lock table says who holds what, a thread has taken one
  lock at most, and a lock has one holder at most.
-/
structure LocksKept (h : History Eff.Res World) : Prop where
  single :
    ∀ thread key other,
      (⟨.lock key, ()⟩ : Move Eff.Res) ∈ own thread h.past →
      (⟨.lock other, ()⟩ : Move Eff.Res) ∈ own thread h.past →
      key = other
  holder :
    ∀ key thread,
      (key, thread) ∈ h.world.locks ↔
        Held key (own thread h.past)
  nodup : (h.world.locks.map Prod.fst).Nodup

namespace LocksKept

theorem one_holder
    (hKept : LocksKept h)
    {first second : Nat}
    (hFirst : Held key (own first h.past))
    (hSecond : Held key (own second h.past)) :
    first = second := by
  have hFirstMem := (hKept.holder key first).mpr hFirst
  have hSecondMem := (hKept.holder key second).mpr hSecond
  have hPairs :=
    List.inj_on_of_nodup_map hKept.nodup hFirstMem
      hSecondMem rfl
  exact congrArg Prod.snd hPairs

/- A move that takes or gives no lock. -/
theorem push_quiet
    {o : Happening}
    (hKept : LocksKept h)
    (hLocks : o.after.locks = h.world.locks)
    (hQuiet : o.effect.isLocking = false) :
    LocksKept (h.push o) := by
  have hMem :
      ∀ thread key,
        (⟨.lock key, ()⟩ : Move Eff.Res) ∈
            own thread (o :: h.past) →
          (⟨.lock key, ()⟩ : Move Eff.Res) ∈
            own thread h.past := by
    intro thread key hLock
    rw [own_cons] at hLock
    split at hLock
    · rcases List.mem_cons.mp hLock with hEq | hLock
      · have hEffect : o.effect = .lock key :=
          (congrArg Move.effect hEq).symm
        rw [hEffect] at hQuiet
        cases hQuiet
      · exact hLock
    · exact hLock
  refine ⟨?_, ?_, ?_⟩
  · intro thread key other hKey hOther
    exact hKept.single thread key other (hMem _ _ hKey)
      (hMem _ _ hOther)
  · intro key thread
    rw [History.push_world, hLocks, hKept.holder,
      History.push_past, own_cons]
    split
    · exact ⟨fun hHeld => hHeld.cons hQuiet,
        fun hHeld => hHeld.of_cons hQuiet⟩
    · exact Iff.rfl
  · rw [History.push_world, hLocks]
    exact hKept.nodup

theorem push_lock
    {o : Happening}
    (hKept : LocksKept h)
    (hEffect : o.effect = .lock key)
    (hFree : key ∉ h.world.locks.map Prod.fst)
    (hLocks :
      o.after.locks = (key, o.thread) :: h.world.locks)
    (hFirst :
      ∀ move ∈ own o.thread h.past,
        move.effect.isLocking = false) :
    LocksKept (h.push o) := by
  have hMove : o.move = ⟨.lock key, ()⟩ := by
    rcases o with ⟨thread, effect, answer, before, after⟩
    cases hEffect
    rfl
  have hNone :
      ∀ other, (⟨.lock other, ()⟩ : Move Eff.Res) ∉
        own o.thread h.past := by
    intro other hMem
    cases hFirst _ hMem
  have hOnly :
      ∀ other, (⟨.lock other, ()⟩ : Move Eff.Res) ∈
          o.move :: own o.thread h.past → other = key := by
    intro other hMem
    rcases List.mem_cons.mp hMem with hEq | hMem
    · rw [hMove] at hEq
      cases hEq
      rfl
    · exact absurd hMem (hNone other)
  refine ⟨?_, ?_, ?_⟩
  · intro thread first second hOne hTwo
    rw [History.push_past, own_cons] at hOne hTwo
    by_cases hThread : o.thread = thread
    · subst hThread
      rw [if_pos rfl] at hOne hTwo
      rw [hOnly first hOne, hOnly second hTwo]
    · rw [if_neg hThread] at hOne hTwo
      exact hKept.single thread first second hOne hTwo
  · intro other thread
    rw [History.push_world, hLocks, List.mem_cons,
      History.push_past, own_cons]
    by_cases hThread : o.thread = thread
    · subst hThread
      rw [if_pos rfl]
      constructor
      · rintro (hEq | hMem)
        · cases hEq
          refine ⟨?_, ?_⟩
          · rw [hMove]
            exact List.mem_cons_self
          · intro unlocked hMem
            rcases List.mem_cons.mp hMem with hEq | hMem
            · rw [hMove] at hEq
              cases congrArg Move.effect hEq
            · cases hFirst _ hMem
        · have hHeld := (hKept.holder other _).mp hMem
          exact absurd hHeld.taken (hNone other)
      · intro hHeld
        rw [hOnly other hHeld.taken]
        exact .inl rfl
    · rw [if_neg hThread, ← hKept.holder]
      refine ⟨fun hMem => hMem.resolve_left ?_, .inr⟩
      intro hEq
      exact hThread (congrArg Prod.snd hEq).symm
  · rw [History.push_world, hLocks, List.map_cons]
    exact List.nodup_cons.mpr ⟨hFree, hKept.nodup⟩

theorem push_unlock
    {o : Happening}
    (hKept : LocksKept h)
    (hEffect : o.effect = .unlock key)
    (hLocks :
      o.after.locks = h.world.locks.erase (key, o.thread))
    (hHeld : Held key (own o.thread h.past)) :
    LocksKept (h.push o) := by
  have hMove : o.move = ⟨.unlock key, ()⟩ := by
    rcases o with ⟨thread, effect, answer, before, after⟩
    cases hEffect
    rfl
  have hMem :
      ∀ thread other,
        (⟨.lock other, ()⟩ : Move Eff.Res) ∈
            own thread (o :: h.past) →
          (⟨.lock other, ()⟩ : Move Eff.Res) ∈
            own thread h.past := by
    intro thread other hLock
    rw [own_cons] at hLock
    split at hLock
    · rcases List.mem_cons.mp hLock with hEq | hLock
      · rw [hMove] at hEq
        cases congrArg Move.effect hEq
      · exact hLock
    · exact hLock
  have hPairs : h.world.locks.Nodup :=
    List.Nodup.of_map Prod.fst hKept.nodup
  refine ⟨?_, ?_, ?_⟩
  · intro thread first second hOne hTwo
    exact hKept.single thread first second (hMem _ _ hOne)
      (hMem _ _ hTwo)
  · intro other thread
    rw [History.push_world, hLocks, hPairs.mem_erase_iff,
      hKept.holder, History.push_past, own_cons]
    by_cases hThread : o.thread = thread
    · subst hThread
      rw [if_pos rfl]
      constructor
      · rintro ⟨hOther, hOtherHeld⟩
        have hKey : other = key :=
          hKept.single _ other key hOtherHeld.taken hHeld.taken
        exact absurd (by rw [hKey]) hOther
      · intro hOtherHeld
        refine absurd ?_ (hOtherHeld.kept key)
        rw [hMove]
        exact List.mem_cons_self
    · rw [if_neg hThread]
      refine and_iff_right ?_
      intro hEq
      exact hThread (congrArg Prod.snd hEq).symm
  · rw [History.push_world, hLocks]
    exact hKept.nodup.sublist (List.erase_sublist.map _)

end LocksKept

/- The lock table is right in every run that starts free. -/
theorem LawfulRun.locksKept
    (hLawful : LawfulRun svc ops w h)
    (hFree : w.locks = []) :
    LocksKept h := by
  refine hLawful.induct ?_ ?_
  · refine ⟨?_, ?_, ?_⟩
    · intro thread key other hKey
      cases hKey
    · intro key thread
      rw [History.start_world, hFree]
      refine ⟨fun hMem => absurd hMem (by simp),
        fun hHeld => ?_⟩
      cases hHeld.taken
    · rw [History.start_world, hFree]
      exact List.nodup_nil
  · intro h o _ hKept hExec hBefore hRule
    cases hEffect : o.effect with
    | lock key =>
        rcases hExec.lock hEffect with ⟨hKey, hLocks⟩
        rw [hEffect] at hRule
        rw [hBefore] at hKey hLocks
        exact hKept.push_lock hEffect hKey hLocks hRule
    | unlock key =>
        have hLocks := hExec.unlock hEffect
        rw [hEffect] at hRule
        rw [hBefore] at hLocks
        exact hKept.push_unlock hEffect hLocks hRule
    | _ =>
        have hQuiet : o.effect.isLocking = false := by
          rw [hEffect]
          rfl
        refine hKept.push_quiet ?_ hQuiet
        rw [hExec.framed.locks hQuiet, hBefore]

end Locks

end Protocol

end IcpHandler

------------------------------------------------------------
-- Tokens
------------------------------------------------------------

namespace IcpHandler

namespace Protocol

open Model Service Concurrency

section Tokens

variable {svc : IcpService}
variable {ops : Nat → Op}
variable {w : World}
variable {h : History Eff.Res World}
variable {loud : Eff → Bool}
variable {stem id : String}
variable {past : Moves}

/- The tokens drawn so far, each by one thread. -/
structure TokensKept (h : History Eff.Res World) : Prop where
  drawn :
    ∀ thread token,
      (⟨.uuid, token⟩ : Move Eff.Res) ∈ own thread h.past →
        (token, thread) ∈ h.world.issued
  nodup : (h.world.issued.map Prod.fst).Nodup

theorem TokensKept.one_drawer
    (hKept : TokensKept h)
    {first second : Nat}
    {token : String}
    (hFirst :
      (⟨.uuid, token⟩ : Move Eff.Res) ∈ own first h.past)
    (hSecond :
      (⟨.uuid, token⟩ : Move Eff.Res) ∈ own second h.past) :
    first = second := by
  have hPairs :=
    List.inj_on_of_nodup_map hKept.nodup
      (hKept.drawn _ _ hFirst) (hKept.drawn _ _ hSecond) rfl
  exact congrArg Prod.snd hPairs

/- No token is drawn twice. -/
theorem LawfulRun.tokensKept
    (hLawful : LawfulRun svc ops w h)
    (hNone : w.issued = []) :
    TokensKept h := by
  refine hLawful.induct ?_ ?_
  · refine ⟨fun thread token hMem => ?_, ?_⟩
    · cases hMem
    rw [History.start_world, hNone]
    exact List.nodup_nil
  · intro h o _ hKept hExec hBefore _
    by_cases hDraws : o.effect = .uuid
    · have hMove :
          ∃ token : String, o.move = ⟨.uuid, token⟩ := by
        rcases o with ⟨thread, effect, answer, before, after⟩
        cases hDraws
        exact ⟨answer, rfl⟩
      rcases hMove with ⟨token, hMove⟩
      rcases hExec.token hMove with ⟨hUnused, hIssued⟩
      rw [hBefore] at hUnused hIssued
      refine ⟨?_, ?_⟩
      · intro thread other hMem
        rw [History.push_world, hIssued]
        rw [History.push_past, own_cons] at hMem
        split at hMem
        · rename_i hThread
          rcases List.mem_cons.mp hMem with hEq | hMem
          · rw [hMove] at hEq
            cases hEq
            rw [hThread]
            exact List.mem_cons_self
          · exact List.mem_cons_of_mem _
              (hKept.drawn _ _ hMem)
        · exact List.mem_cons_of_mem _ (hKept.drawn _ _ hMem)
      · rw [History.push_world, hIssued, List.map_cons]
        exact List.nodup_cons.mpr ⟨hUnused.1, hKept.nodup⟩
    · have hIssued : o.after.issued = h.world.issued := by
        rw [hExec.framed.issued hDraws, hBefore]
      refine ⟨?_, ?_⟩
      · intro thread token hMem
        rw [History.push_world, hIssued]
        rw [History.push_past, own_cons] at hMem
        split at hMem
        · rcases List.mem_cons.mp hMem with hEq | hMem
          · exact absurd (congrArg Move.effect hEq).symm hDraws
          · exact hKept.drawn _ _ hMem
        · exact hKept.drawn _ _ hMem
      · rw [History.push_world, hIssued]
        exact hKept.nodup

/- A fresh id before the last move, unless that drew it. -/
theorem Fresh.of_cons
    {move : Move Eff.Res}
    (hFresh : Fresh loud stem id (move :: past)) :
    (∃ token, id = stem ++ token ∧ move = ⟨.uuid, token⟩) ∨
      (loud move.effect = false ∧ Fresh loud stem id past) := by
  rcases hFresh with
    ⟨token, hId, recent, older, hPast, hQuiet⟩
  cases recent with
  | nil =>
      rw [List.nil_append] at hPast
      exact .inl ⟨token, hId, (List.cons.inj hPast).1⟩
  | cons first recent =>
      rw [List.cons_append] at hPast
      rcases List.cons.inj hPast with ⟨rfl, rfl⟩
      refine .inr ⟨hQuiet _ List.mem_cons_self, token, hId,
        recent, older, rfl, ?_⟩
      exact fun later hLater =>
        hQuiet later (List.mem_cons_of_mem _ hLater)

/- Two threads never have the same fresh id. -/
theorem TokensKept.one_fresh
    (hKept : TokensKept h)
    {first second : Nat}
    (hFirst : Fresh loud stem id (own first h.past))
    (hSecond : Fresh loud stem id (own second h.past)) :
    first = second := by
  rcases hFirst with ⟨token, hId, hSince⟩
  rcases hSecond with ⟨other, hOtherId, hOtherSince⟩
  have hToken : token = other := by
    rw [hId] at hOtherId
    exact String.append_right_inj stem |>.mp hOtherId
  subst hToken
  exact hKept.one_drawer hSince.mem hOtherSince.mem

/-
  A fresh id is not in use, in any run under a rule that keeps
  it so: its drawing finds it unused, and only its drawer ends
  that. By induction on the run.
-/
theorem absent_of_fresh
    {rule : Nat → Moves → Eff → Prop}
    (absent : World → Prop)
    (hLawful : Lawful (machine svc.deps.rfc3339) rule w h)
    (hRule :
      ∀ thread moves effect, rule thread moves effect →
        Rule svc (ops thread) moves effect)
    (hNone : w.issued = [])
    (hDrawn :
      ∀ (o : Happening) (token : String),
        Executes svc.deps.rfc3339 o → id = stem ++ token →
          o.move = ⟨.uuid, token⟩ → absent o.after)
    (hKept :
      ∀ (h : History Eff.Res World) (o : Happening),
        Executes svc.deps.rfc3339 o →
          rule o.thread (own o.thread h.past) o.effect →
          absent o.before →
          absent o.after ∨
            (loud o.effect = true ∧
              Fresh loud stem id (own o.thread h.past))) :
    ∀ thread,
      Fresh loud stem id (own thread h.past) →
        absent h.world := by
  induction hLawful with
  | start =>
      rintro thread ⟨token, -, hSince⟩
      cases hSince.mem
  | @push h o hBefore hAllows hAllowed ih =>
      intro thread hFresh
      have hExec := executes_of_allows hAllows
      rw [History.push_past, own_cons] at hFresh
      rw [History.push_world]
      -- The id was fresh before, or has just been drawn.
      have hCases :
          (∃ token, id = stem ++ token ∧
              o.move = ⟨.uuid, token⟩) ∨
            (Fresh loud stem id (own thread h.past) ∧
              (o.thread = thread → loud o.effect = false)) := by
        split at hFresh
        · rcases hFresh.of_cons with hDraws | ⟨hQuiet, hOld⟩
          · exact .inl hDraws
          · exact .inr ⟨hOld, fun _ => hQuiet⟩
        · rename_i hOther
          exact .inr ⟨hFresh, fun hThread =>
            absurd hThread hOther⟩
      rcases hCases with ⟨token, hId, hMove⟩ | ⟨hOld, hOwn⟩
      · exact hDrawn o token hExec hId hMove
      · have hUnused : absent o.before := by
          rw [hAllows.before_eq]
          exact ih thread hOld
        rcases hKept h o hExec hAllowed hUnused with
          hStill | ⟨hLoud, hRow⟩
        · exact hStill
        · -- Only its drawer could use the id.
          have hRun : LawfulRun svc ops w h :=
            hBefore.mono hRule
          have hThread : o.thread = thread :=
            (hRun.tokensKept hNone).one_fresh hRow hOld
          rw [hOwn hThread] at hLoud
          cases hLoud

/- Subscriptions are only ever stored under fresh ids. -/
theorem LawfulRun.unstored_of_fresh
    (hLawful : LawfulRun svc ops w h)
    (hNone : w.issued = []) :
    ∀ thread,
      Fresh Eff.touchesSubs "sub_" id (own thread h.past) →
        h.world.subscriptions.get id = none := by
  refine absent_of_fresh
    (fun w => w.subscriptions.get id = none) hLawful
    (fun _ _ _ hRule => hRule) hNone ?_ ?_
  · rintro o token hExec rfl hMove
    have hEffect : o.effect = .uuid :=
      congrArg Move.effect hMove
    have hQuiet : o.effect.touchesSubs = false := by
      rw [hEffect]
      rfl
    rw [hExec.framed.subscriptions hQuiet]
    exact (hExec.token hMove).1.2.2.1
  · intro h o hExec hRule hUnstored
    cases hExec.subChange id with
    | kept hKept => exact .inl (hKept.trans hUnstored)
    | patched patch row _ hRow _ =>
        rw [hUnstored] at hRow
        cases hRow
    | inserted row hEffect hId _ =>
        rw [hEffect] at hRule
        obtain ⟨input, _, hInsert⟩ := hRule
        have hRow := hInsert.id
        rw [hId] at hRow
        refine .inr ⟨?_, hRow⟩
        rw [hEffect]
        rfl

/- A stored subscription is not inserted again. -/
theorem LawfulRun.not_inserted
    (hLawful : LawfulRun svc ops w h)
    (hNone : w.issued = [])
    {thread : Nat}
    {sub row : Subscription}
    (hRule :
      Rule svc (ops thread) (own thread h.past)
        (.subs (.insert sub)))
    (hRow : h.world.subscriptions.get sub.id = some row) :
    False := by
  obtain ⟨input, -, hInsert⟩ := hRule
  have hUnstored :=
    hLawful.unstored_of_fresh hNone thread hInsert.id
  rw [hRow] at hUnstored
  cases hUnstored

/- Nor is a stored peer quote. -/
theorem LawfulRun.quote_not_inserted
    (hLawful : LawfulRun svc ops w h)
    (hNone : w.issued = [])
    {thread : Nat}
    {quote row : PeerQuote}
    (hRule :
      Rule svc (ops thread) (own thread h.past)
        (.quotes (.insert quote)))
    (hRow : h.world.peerQuotes.get quote.id = some row) :
    False := by
  obtain ⟨input, -, hInsert⟩ := hRule
  have hUnstored :
      h.world.peerQuotes.get quote.id = none := by
    refine absent_of_fresh
      (fun w => w.peerQuotes.get quote.id = none) hLawful
      (fun _ _ _ hRule => hRule) hNone ?_ ?_ thread hInsert.id
    · rintro o token hExec hId hMove
      have hEffect : o.effect = .uuid :=
        congrArg Move.effect hMove
      have hQuiet : o.effect.touchesQuotes = false := by
        rw [hEffect]
        rfl
      rw [hExec.framed.peerQuotes hQuiet, hId]
      exact Option.isNone_iff_eq_none.mp
        (hExec.token hMove).1.2.2.2
    · intro h o hExec hRule hUnstored
      cases hExec.quoteChange quote.id with
      | kept hKept => exact .inl (hKept.trans hUnstored)
      | patched patch row _ hRow _ =>
          rw [hUnstored] at hRow
          cases hRow
      | inserted row hEffect hId _ =>
          rw [hEffect] at hRule
          obtain ⟨input, _, hInsert⟩ := hRule
          have hFresh := hInsert.id
          rw [hId] at hFresh
          refine .inr ⟨?_, hFresh⟩
          rw [hEffect]
          rfl
  rw [hRow] at hUnstored
  cases hUnstored

end Tokens

end Protocol

end IcpHandler
