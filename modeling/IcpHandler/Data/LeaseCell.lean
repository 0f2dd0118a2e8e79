import Mathlib.Algebra.Order.Monoid.Defs
import Mathlib.Order.Lattice

/-
  A cell that at most one holder may work on at a time. A
  claim wins an empty cell, or one whose claim has outlived
  its lease; a completed cell replays its response until its
  time to live has passed. A holder that has been superseded
  cannot complete or abandon the cell.

  Main declarations:
    * `Cell`, `Op`, `Answer`
    * `step`, `run`
    * `Held.step`
    * `exclusive`
    * `settled`
-/

------------------------------------------------------------
-- Cells and Operations
------------------------------------------------------------

namespace IcpHandler

namespace Data

namespace LeaseCell

/- Nobody's, claimed by a holder, or completed. -/
inductive Cell (T K D R : Type) where
  | empty
  | claimed (digest : D) (holder : K) (since : T)
  | done (digest : D) (response : R) (since : T)

/- What can be asked of a cell. -/
inductive Op (T K D R : Type) where
  | claim (digest : D) (holder : K) (now : T)
  | complete
      (digest : D)
      (response : R)
      (now : T)
      (holder : K)
  | abandon (holder : K)
  | peek (digest : D) (now : T)
  | evict (now : T)

/- What a cell answers. -/
inductive Answer (R : Type) where
  | won
  | busy
  | replay (response : R)
  | conflict
  | miss
  | landed (yes : Bool)
  | evicted

namespace Op

variable {T K D R : Type}

/- The clock reading an operation brings. -/
def now? : Op T K D R → Option T
  | .claim _ _ now => some now
  | .complete _ _ now _ => some now
  | .abandon _ => none
  | .peek _ now => some now
  | .evict now => some now

end Op

variable {T K D R : Type}
variable [Add T] [LinearOrder T]
variable [DecidableEq K] [DecidableEq D]

/- What a completed cell says to a digest. -/
def answerDone
    (digest : D)
    (response : R)
    (asked : D) : Answer R :=
  if digest = asked then .replay response else .conflict

/- One operation on a cell. -/
def step
    (ttl lease : T) :
    Op T K D R → Cell T K D R → Answer R × Cell T K D R
  | .claim digest holder now, cell =>
      let taken : Answer R × Cell T K D R :=
        (.won, .claimed digest holder now)
      match cell with
      | .empty => taken
      | .claimed _ _ since =>
          if since + ttl < now then taken
          else if since + lease < now then taken
          else (.busy, cell)
      | .done known response since =>
          if since + ttl < now then taken
          else (answerDone known response digest, cell)
  | .complete digest response now holder, cell =>
      let written : Answer R × Cell T K D R :=
        (.landed true, .done digest response now)
      match cell with
      | .empty => written
      | .claimed _ owner _ =>
          if owner = holder then written
          else (.landed false, cell)
      | .done _ _ _ => (.landed false, cell)
  | .abandon holder, cell =>
      match cell with
      | .claimed _ owner _ =>
          if owner = holder then (.landed true, .empty)
          else (.landed false, cell)
      | _ => (.landed false, cell)
  | .peek digest now, cell =>
      match cell with
      | .done known response since =>
          if since + ttl < now then (.miss, cell)
          else (answerDone known response digest, cell)
      | _ => (.miss, cell)
  | .evict now, cell =>
      match cell with
      | .empty => (.evicted, .empty)
      | .claimed _ _ since | .done _ _ since =>
          if since + ttl < now then (.evicted, .empty)
          else (.evicted, cell)

/-
  A completed cell stays as it is until an operation reads the
  clock past its time to live.
-/
theorem done_stays
    {ttl lease : T}
    (op : Op T K D R)
    (digest : D)
    (response : R)
    (since : T) :
    (step ttl lease op (.done digest response since)).2 =
        .done digest response since ∨
      ∃ now, op.now? = some now ∧ since + ttl < now := by
  cases op with
  | claim asked holder now =>
      by_cases hLapsed : since + ttl < now
      · exact .inr ⟨now, rfl, hLapsed⟩
      · left
        simp [step, hLapsed]
  | complete asked other now holder => exact .inl rfl
  | abandon holder => exact .inl rfl
  | peek asked now =>
      left
      simp only [step]
      split <;> rfl
  | evict now =>
      by_cases hLapsed : since + ttl < now
      · exact .inr ⟨now, rfl, hLapsed⟩
      · left
        simp [step, hLapsed]

/- Operations one after another, with their answers. -/
def run
    (ttl lease : T) :
    List (Op T K D R) → Cell T K D R →
      List (Op T K D R × Answer R) × Cell T K D R
  | [], cell => ([], cell)
  | op :: ops, cell =>
      let result := step ttl lease op cell
      let rest := run ttl lease ops result.2
      ((op, result.1) :: rest.1, rest.2)

end LeaseCell

end Data

end IcpHandler

------------------------------------------------------------
-- Runs
------------------------------------------------------------

namespace IcpHandler

namespace Data

namespace LeaseCell

variable {T K D R : Type}
variable [LinearOrder T]

/-
  The clock does not go back along a log, counting only the
  operations that bring a reading.
-/
def ClockOk (log : List (Op T K D R × Answer R)) : Prop :=
  (log.filterMap fun entry => entry.1.now?).Pairwise (· ≤ ·)

/- The readings between two entries lie between theirs. -/
theorem ClockOk.between
    {before middle after : List (Op T K D R × Answer R)}
    {first last : Op T K D R × Answer R}
    {start stop : T}
    (hClock :
      ClockOk (before ++ first :: (middle ++ last :: after)))
    (hStart : first.1.now? = some start)
    (hStop : last.1.now? = some stop) :
    ∀ entry ∈ middle, ∀ now, entry.1.now? = some now →
      start ≤ now ∧ now ≤ stop := by
  intro entry hEntry now hNow
  have hMem :
      now ∈ middle.filterMap fun entry => entry.1.now? :=
    List.mem_filterMap.mpr ⟨entry, hEntry, hNow⟩
  simp only [ClockOk, List.filterMap_append,
    List.filterMap_cons, hStart, hStop,
    List.pairwise_append, List.pairwise_cons] at hClock
  constructor
  · exact hClock.2.1.1 now
      (List.mem_append_left _ hMem)
  · exact hClock.2.1.2.2.2 now hMem stop (by simp)

variable [Add T]
variable [DecidableEq K] [DecidableEq D]
variable {ttl lease : T}

/- A log that starts with an entry starts with its step. -/
theorem run_log_cons
    {ops : List (Op T K D R)}
    {cell : Cell T K D R}
    {entry : Op T K D R × Answer R}
    {log : List (Op T K D R × Answer R)}
    (hLog : (run ttl lease ops cell).1 = entry :: log) :
    entry.2 = (step ttl lease entry.1 cell).1 ∧
      ∃ rest, (run ttl lease rest
        (step ttl lease entry.1 cell).2).1 = log := by
  cases ops with
  | nil => cases hLog
  | cons op ops =>
      simp only [run, List.cons.injEq] at hLog
      rcases hLog with ⟨rfl, hRest⟩
      exact ⟨rfl, ops, hRest⟩

/- A log that splits is two runs. -/
theorem run_log_append
    {ops : List (Op T K D R)}
    {cell : Cell T K D R}
    {before after : List (Op T K D R × Answer R)}
    (hLog : (run ttl lease ops cell).1 = before ++ after) :
    ∃ middle rest, (run ttl lease rest middle).1 = after := by
  induction before generalizing ops cell with
  | nil => exact ⟨cell, ops, hLog⟩
  | cons entry before ih =>
      rcases run_log_cons hLog with ⟨_, rest, hRest⟩
      exact ih hRest

/-
  What one operation does to a property carries over to the
  operations of a log, until one of them ends it.
-/
theorem run_log_invariant
    (Q : Cell T K D R → Prop)
    (Ends : Op T K D R × Answer R → Prop)
    (Ok : Op T K D R → Prop)
    (hStep :
      ∀ op cell, Q cell → Ok op →
        Ends (op, (step ttl lease op cell).1) ∨
          Q (step ttl lease op cell).2)
    {middle after : List (Op T K D R × Answer R)}
    {ops : List (Op T K D R)}
    {cell : Cell T K D R}
    (hLog : (run ttl lease ops cell).1 = middle ++ after)
    (hCell : Q cell)
    (hOk : ∀ entry ∈ middle, Ok entry.1) :
    (∃ entry ∈ middle, Ends entry) ∨
      ∃ cell' rest, Q cell' ∧
        (run ttl lease rest cell').1 = after := by
  induction middle generalizing ops cell with
  | nil => exact .inr ⟨cell, ops, hCell, hLog⟩
  | cons entry middle ih =>
      rcases run_log_cons hLog with ⟨hAnswer, rest, hRest⟩
      have hEntry :
          entry = (entry.1, (step ttl lease entry.1 cell).1) :=
        Prod.ext rfl hAnswer
      rcases hStep entry.1 cell hCell (hOk entry (by simp)) with
        hEnds | hKept
      · rw [← hEntry] at hEnds
        exact .inl ⟨entry, by simp, hEnds⟩
      · have hRestOk : ∀ other ∈ middle, Ok other.1 :=
          fun other hOther =>
            hOk other (List.mem_cons_of_mem _ hOther)
        rcases ih hRest hKept hRestOk with
          ⟨found, hFound, hEnds⟩ | hLater
        · exact .inl ⟨found, by simp [hFound], hEnds⟩
        · exact .inr hLater

end LeaseCell

end Data

end IcpHandler

------------------------------------------------------------
-- Exclusivity
------------------------------------------------------------

namespace IcpHandler

namespace Data

namespace LeaseCell

variable {T K D R : Type}
variable [AddCommMonoid T] [LinearOrder T]
variable [IsOrderedAddMonoid T]
variable [DecidableEq K] [DecidableEq D]
variable {ttl lease : T}

/-
  The holder's claim still stands, or the cell has been
  completed since.
-/
def Held
    (holder : K)
    (since : T)
    (cell : Cell T K D R) : Prop :=
  (∃ digest, cell = .claimed digest holder since) ∨
    ∃ digest response date,
      cell = .done digest response date ∧ since ≤ date

/-
  Within the lease, only the holder can let go of the cell.
  The cases follow the operations.
-/
theorem Held.step
    {holder : K}
    {since : T}
    {cell : Cell T K D R}
    {op : Op T K D R}
    (hHeld : Held holder since cell)
    (hTtl : lease ≤ ttl)
    (hClock :
      ∀ now, op.now? = some now →
        since ≤ now ∧ now ≤ since + lease) :
    (op = .abandon holder ∧
        (LeaseCell.step ttl lease op cell).1 = .landed true) ∨
      Held holder since
        (LeaseCell.step ttl lease op cell).2 := by
  have hFresh :
      ∀ date now, since ≤ date → op.now? = some now →
        ¬ date + ttl < now := by
    intro date now hDate hNow
    exact not_lt.mpr ((hClock now hNow).2.trans
      (add_le_add hDate hTtl))
  have hLease :
      ∀ now, op.now? = some now → ¬ since + lease < now :=
    fun now hNow => not_lt.mpr (hClock now hNow).2
  cases op with
  | claim digest claimant now =>
      right
      rcases hHeld with
        ⟨known, rfl⟩ | ⟨known, response, date, rfl, hDate⟩
      · rw [LeaseCell.step]
        simp only [if_neg (hFresh since now le_rfl rfl),
          if_neg (hLease now rfl)]
        exact .inl ⟨known, rfl⟩
      · rw [LeaseCell.step]
        simp only [if_neg (hFresh date now hDate rfl)]
        exact .inr ⟨known, response, date, rfl, hDate⟩
  | complete digest response now worker =>
      right
      rcases hHeld with
        ⟨known, rfl⟩ | ⟨known, old, date, rfl, hDate⟩
      · simp only [LeaseCell.step]
        split
        · exact .inr ⟨digest, response, now, rfl,
            (hClock now rfl).1⟩
        · exact .inl ⟨known, rfl⟩
      · exact .inr ⟨known, old, date, rfl, hDate⟩
  | abandon worker =>
      rcases hHeld with
        ⟨known, rfl⟩ | ⟨known, old, date, rfl, hDate⟩
      · by_cases hOwner : holder = worker
        · subst hOwner
          left
          simp [LeaseCell.step]
        · right
          simp only [LeaseCell.step, if_neg hOwner]
          exact .inl ⟨known, rfl⟩
      · exact .inr (.inr ⟨known, old, date, rfl, hDate⟩)
  | peek digest now =>
      right
      rcases hHeld with
        ⟨known, rfl⟩ | ⟨known, old, date, rfl, hDate⟩
      · exact .inl ⟨known, rfl⟩
      · simp only [LeaseCell.step,
          if_neg (hFresh date now hDate rfl)]
        exact .inr ⟨known, old, date, rfl, hDate⟩
  | evict now =>
      right
      rcases hHeld with
        ⟨known, rfl⟩ | ⟨known, old, date, rfl, hDate⟩
      · simp only [LeaseCell.step,
          if_neg (hFresh since now le_rfl rfl)]
        exact .inl ⟨known, rfl⟩
      · simp only [LeaseCell.step,
          if_neg (hFresh date now hDate rfl)]
        exact .inr ⟨known, old, date, rfl, hDate⟩

/-
  Two claims cannot both win within one lease, unless the
  first holder has abandoned the cell in between.
-/
theorem exclusive
    (hTtl : lease ≤ ttl)
    {ops : List (Op T K D R)}
    {cell : Cell T K D R}
    {before middle after : List (Op T K D R × Answer R)}
    {firstDigest lastDigest : D}
    {firstHolder lastHolder : K}
    {start stop : T}
    (hLog :
      (run ttl lease ops cell).1 =
        before ++
          (.claim firstDigest firstHolder start, .won) ::
            (middle ++
              (.claim lastDigest lastHolder stop, .won) ::
                after))
    (hClock : ClockOk (run ttl lease ops cell).1)
    (hWithin : stop ≤ start + lease) :
    (Op.abandon firstHolder, Answer.landed true) ∈ middle := by
  rw [hLog] at hClock
  have hBetween := hClock.between rfl rfl
  rcases run_log_append hLog with ⟨found, rest, hRest⟩
  rcases run_log_cons hRest with ⟨hWon, rest, hRest⟩
  have hHeld :
      Held firstHolder start
        (step ttl lease
          (.claim firstDigest firstHolder start) found).2 := by
    -- Winning leaves the cell claimed by the winner.
    refine .inl ⟨firstDigest, ?_⟩
    cases found with
    | empty => rfl
    | claimed known owner since =>
        simp only [step] at hWon ⊢
        split_ifs at hWon ⊢
        all_goals rfl
    | done known response since =>
        simp only [step, answerDone] at hWon ⊢
        split_ifs at hWon ⊢
        all_goals rfl
  rcases run_log_invariant (Held firstHolder start)
      (fun entry => entry =
        (Op.abandon firstHolder, Answer.landed true))
      (fun op => ∀ now, op.now? = some now →
        start ≤ now ∧ now ≤ start + lease)
      (fun op cell hCell hOk => by
        rcases hCell.step hTtl hOk with ⟨rfl, hYes⟩ | hKept
        · exact .inl (by rw [hYes])
        · exact .inr hKept)
      hRest hHeld
      (fun entry hEntry now hNow =>
        ⟨(hBetween entry hEntry now hNow).1,
          (hBetween entry hEntry now hNow).2.trans hWithin⟩)
    with ⟨entry, hEntry, rfl⟩ | ⟨last, rest, hLast, hTail⟩
  · exact hEntry
  · -- A claim on a held cell within the lease does not win.
    exfalso
    rcases run_log_cons hTail with ⟨hWonLast, _⟩
    rcases hLast with
      ⟨known, rfl⟩ | ⟨known, response, date, rfl, hDate⟩
    · have hFresh : ¬ start + ttl < stop :=
        not_lt.mpr (hWithin.trans (add_le_add le_rfl hTtl))
      simp only [step, if_neg hFresh,
        if_neg (not_lt.mpr hWithin)] at hWonLast
      cases hWonLast
    · have hFresh : ¬ date + ttl < stop :=
        not_lt.mpr (hWithin.trans (add_le_add hDate hTtl))
      simp only [step, if_neg hFresh, answerDone] at hWonLast
      split at hWonLast <;> cases hWonLast

end LeaseCell

end Data

end IcpHandler

------------------------------------------------------------
-- Completion
------------------------------------------------------------

namespace IcpHandler

namespace Data

namespace LeaseCell

variable {T K D R : Type}
variable [Add T] [LinearOrder T]
variable [DecidableEq K] [DecidableEq D]
variable {ttl lease : T}

/- A completed cell does not change while it is fresh. -/
theorem step_done
    {digest : D}
    {response : R}
    {since : T}
    {op : Op T K D R}
    (hFresh :
      ∀ now, op.now? = some now → now ≤ since + ttl) :
    (step ttl lease op (.done digest response since)).2 =
      .done digest response since := by
  cases op with
  | claim asked holder now =>
      simp only [step, if_neg (not_lt.mpr (hFresh now rfl))]
  | complete asked other now holder => rfl
  | abandon holder => rfl
  | peek asked now =>
      simp only [step, if_neg (not_lt.mpr (hFresh now rfl))]
  | evict now =>
      simp only [step, if_neg (not_lt.mpr (hFresh now rfl))]

/-
  After a completion has landed, whoever asks before the time
  to live has passed gets the stored response for the same
  digest and a conflict for any other.
-/
theorem settled
    {ops : List (Op T K D R)}
    {cell : Cell T K D R}
    {before middle after : List (Op T K D R × Answer R)}
    {digest asked : D}
    {response : R}
    {holder : K}
    {since now : T}
    {op : Op T K D R}
    {answer : Answer R}
    (hLog :
      (run ttl lease ops cell).1 =
        before ++
          (.complete digest response since holder,
            .landed true) ::
            (middle ++ (op, answer) :: after))
    (hClock : ClockOk (run ttl lease ops cell).1)
    (hOp :
      (∃ claimant, op = .claim asked claimant now) ∨
        op = .peek asked now)
    (hFresh : now ≤ since + ttl) :
    answer = answerDone digest response asked := by
  have hNow : op.now? = some now := by
    rcases hOp with ⟨claimant, rfl⟩ | rfl <;> rfl
  rw [hLog] at hClock
  have hBetween := hClock.between rfl hNow
  rcases run_log_append hLog with ⟨found, rest, hRest⟩
  rcases run_log_cons hRest with ⟨hLanded, rest, hRest⟩
  have hDone :
      (step ttl lease
        (.complete digest response since holder) found).2 =
        .done digest response since := by
    cases found with
    | empty => rfl
    | claimed known owner date =>
        simp only [step] at hLanded ⊢
        split_ifs at hLanded ⊢
        · rfl
        · cases hLanded
    | done known old date => cases hLanded
  rcases run_log_invariant
      (fun cell => cell = .done digest response since)
      (fun _ => False)
      (fun op => ∀ now, op.now? = some now → now ≤ since + ttl)
      (fun op cell hCell hOk => by
        subst hCell
        exact .inr (step_done hOk))
      hRest hDone
      (fun entry hEntry date hDate =>
        (hBetween entry hEntry date hDate).2.trans hFresh)
    with ⟨_, _, hFalse⟩ | ⟨last, rest, rfl, hTail⟩
  · exact hFalse.elim
  · rcases run_log_cons hTail with ⟨hAnswer, _⟩
    refine hAnswer.trans ?_
    rcases hOp with ⟨claimant, rfl⟩ | rfl
    · simp only [step, if_neg (not_lt.mpr hFresh)]
    · simp only [step, if_neg (not_lt.mpr hFresh)]

end LeaseCell

end Data

end IcpHandler
