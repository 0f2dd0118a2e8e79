import Mathlib.Data.List.Infix

/-
  A broadcast channel of a bounded capacity. It keeps what has
  been sent last; every receiver goes on from where it stands,
  and is told how many items it has missed when it comes too
  late. The channel is given by the log of all that was sent,
  oldest first.

  Main declarations:
    * `Received`, `receive`, `lagged_receive`
    * `between`
    * `Following`, `Following.append`, `Following.receive`
-/

------------------------------------------------------------
-- Receivers
------------------------------------------------------------

namespace IcpHandler

namespace Data

namespace Broadcast

/- What a receiver is given. -/
inductive Received (α : Type) where
  | empty
  | lagged (missed : Nat)
  | value (item : α)

/-
  The receiver that stands at `next`: what it is given, and
  where it goes on.
-/
def receive
    {α : Type}
    (capacity : Nat)
    (log : List α)
    (next : Nat) : Received α × Nat :=
  let oldest := log.length - capacity
  if next < oldest then (.lagged (oldest - next), oldest)
  else
    match log[next]? with
    | some item => (.value item, next + 1)
    | none => (.empty, next)

variable {α : Type}
variable {capacity : Nat}
variable {log : List α}
variable {start next : Nat}

/- A receiver lags when the channel is too far ahead of it. -/
theorem lagged_receive
    {missed : Nat}
    (hLagged :
      (receive capacity log next).1 = .lagged missed) :
    0 < missed ∧ next + capacity + missed = log.length := by
  unfold receive at hLagged
  dsimp only at hLagged
  split at hLagged
  · cases hLagged
    omega
  · cases hItem : log[next]? with
    | some item =>
        rw [hItem] at hLagged
        cases hLagged
    | none =>
        rw [hItem] at hLagged
        cases hLagged

/- What was sent from one place of the log to another. -/
def between
    (log : List α)
    (start next : Nat) : List α :=
  (log.take next).drop start

theorem between_append
    (hNext : next ≤ log.length)
    (more : List α) :
    between (log ++ more) start next =
      between log start next := by
  unfold between
  rw [List.take_append_of_le_length hNext]

theorem between_succ
    {item : α}
    (hStart : start ≤ next)
    (hItem : log[next]? = some item) :
    between log start (next + 1) =
      between log start next ++ [item] := by
  obtain ⟨hLess, rfl⟩ := List.getElem?_eq_some_iff.mp hItem
  have hLength : start ≤ (log.take next).length := by
    rw [List.length_take]
    omega
  unfold between
  rw [List.take_succ_eq_append_getElem hLess,
    List.drop_append_of_le_length hLength]

theorem between_starts
    {later : Nat}
    (hLater : next ≤ later) :
    between log start next <+: between log start later :=
  List.IsPrefix.drop (List.take_prefix_take_left hLater) start

/-
  A receiver that started at one place has seen these items,
  in this order. Where it has not lagged, it has seen all that
  was sent up to where it stands.
-/
structure Following
    (log : List α)
    (start next : Nat)
    (items : List α)
    (lagged : Prop) : Prop where
  start_le : start ≤ next
  next_le : next ≤ log.length
  sublist : items.Sublist (between log start next)
  whole : ¬ lagged → items = between log start next

/- A receiver that has just started has seen nothing. -/
theorem Following.begin
    {lagged : Prop} :
    Following log log.length log.length [] lagged where
  start_le := Nat.le_refl _
  next_le := Nat.le_refl _
  sublist := List.nil_sublist _
  whole := by
    intro _
    unfold between
    rw [List.take_length, List.drop_length]

namespace Following

variable {items : List α}
variable {lagged : Prop}

theorem mono
    {lagged' : Prop}
    (hFollowing : Following log start next items lagged)
    (hLagged : lagged → lagged') :
    Following log start next items lagged' where
  start_le := hFollowing.start_le
  next_le := hFollowing.next_le
  sublist := hFollowing.sublist
  whole := fun hNot =>
    hFollowing.whole fun hYes => hNot (hLagged hYes)

/- What is sent later does not change what has been seen. -/
theorem append
    (hFollowing : Following log start next items lagged)
    (more : List α) :
    Following (log ++ more) start next items lagged where
  start_le := hFollowing.start_le
  next_le := by
    rw [List.length_append]
    exact Nat.le_add_right_of_le hFollowing.next_le
  sublist := by
    rw [between_append hFollowing.next_le]
    exact hFollowing.sublist
  whole := by
    rw [between_append hFollowing.next_le]
    exact hFollowing.whole

/- What a receiver has seen after one more look. -/
def shown (items : List α) : Received α → List α
  | .value item => items ++ [item]
  | .lagged _ => items
  | .empty => items

/- Whether it has been told that it missed something. -/
def isLagged : Received α → Bool
  | .lagged _ => true
  | .value _ => false
  | .empty => false

/- A look keeps what was seen, and adds to it what is next. -/
theorem receive
    (hFollowing : Following log start next items lagged) :
    Following log start
      (Broadcast.receive capacity log next).2
      (shown items (Broadcast.receive capacity log next).1)
      (lagged ∨
        isLagged (Broadcast.receive capacity log next).1 =
          true) := by
  have hStart := hFollowing.start_le
  have hNext := hFollowing.next_le
  unfold Broadcast.receive
  dsimp only
  split
  · rename_i hLate
    constructor
    · omega
    · omega
    · exact hFollowing.sublist.trans
        (between_starts (Nat.le_of_lt hLate)).sublist
    · intro hOnTime
      exact absurd (.inr rfl) hOnTime
  · cases hItem : log[next]? with
    | some item =>
        obtain ⟨hLess, -⟩ := List.getElem?_eq_some_iff.mp hItem
        dsimp only
        constructor
        · omega
        · exact hLess
        · rw [between_succ hStart hItem]
          exact hFollowing.sublist.append (.refl _)
        · intro hOnTime
          rw [between_succ hStart hItem,
            ← hFollowing.whole fun hLagged =>
              hOnTime (.inl hLagged)]
          rfl
    | none =>
        exact ⟨hStart, hNext, hFollowing.sublist,
          fun hOnTime => hFollowing.whole fun hLagged =>
            hOnTime (.inl hLagged)⟩

end Following

end Broadcast

end Data

end IcpHandler
