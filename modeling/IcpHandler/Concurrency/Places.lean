import IcpHandler.Concurrency.Trace

/-
  A program that runs as a part of a larger one. What it does
  among the moves of the larger one is told by picking its own
  moves from them, so a rule of the part becomes a rule of the
  whole.

  Main declarations:
    * `Picks`
    * `Prog.Traced.via_pick`
-/

------------------------------------------------------------
-- Picking Moves
------------------------------------------------------------

namespace IcpHandler

namespace Concurrency

variable {E E' : Type}
variable {Res : E → Type} {Res' : E' → Type}
variable {α : Type}

/- The moves of a part are recognized among those of a whole. -/
def Picks
    (place : E → E')
    (back : ∀ effect, Res' (place effect) → Res effect)
    (pick : Move Res' → Option (Move Res)) : Prop :=
  ∀ effect answer,
    pick ⟨place effect, answer⟩ =
      some ⟨effect, back effect answer⟩

namespace Prog

namespace Traced

/-
  A part that follows its rule after its own moves follows any
  rule of the whole that allows it what its own rule does.
-/
theorem via_pick
    {place : E → E'}
    {back : ∀ effect, Res' (place effect) → Res effect}
    {pick : Move Res' → Option (Move Res)}
    (hPicks : Picks place back pick)
    {rule : Trace Res → E → Prop}
    {rule' : Trace Res' → E' → Prop}
    (kept : Trace Res' → Prop)
    (hRule :
      ∀ moves effect, kept moves →
        rule (moves.filterMap pick) effect →
        rule' moves (place effect))
    (hKept :
      ∀ moves effect answer, kept moves →
        kept (⟨place effect, answer⟩ :: moves))
    {p : Prog Res α}
    {Q : α → Trace Res → Prop}
    {past : Trace Res'}
    (hPast : kept past)
    (hTraced : p.Traced rule Q (past.filterMap pick)) :
    (p.via place back).Traced rule'
      (fun value later =>
        Q value (later.filterMap pick) ∧ kept later) past := by
  induction p generalizing past with
  | ret value => exact ⟨hTraced, hPast⟩
  | step effect next ih =>
      refine ⟨hRule past effect hPast hTraced.1,
        fun answer => ?_⟩
      apply ih (back effect answer) (hKept _ _ _ hPast)
      rw [List.filterMap_cons_some (hPicks effect answer)]
      exact hTraced.2 (back effect answer)

end Traced

end Prog

end Concurrency

end IcpHandler
