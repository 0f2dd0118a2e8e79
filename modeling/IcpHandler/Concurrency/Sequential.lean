import IcpHandler.Concurrency.Turns

/-
  What a program does when it runs alone. From a history the
  program is followed through every answer the machine can
  give to choices of one kind, and a condition is asked of
  the value and the history it ends with.

  Main declarations:
    * `Prog.Ensures`
    * `Prog.Ensures.bind_iff`, `Prog.Ensures.mono`
    * `Prog.Ensures.of_traced`, `Prog.Ensures.via`
    * `Prog.Ensures.eval`
    * `turns_induct`
-/

------------------------------------------------------------
-- One Program Alone
------------------------------------------------------------

namespace IcpHandler

namespace Concurrency

variable {E : Type} {Res : E → Type} {W C α β : Type}

/- What the thread's effect makes of the history. -/
def Machine.Makes
    (m : Machine Res W C)
    (fits : C → Prop)
    (h : History Res W)
    (o : Occurrence Res W) : Prop :=
  o.before = h.world ∧
    ∃ choice, fits choice ∧
      m.exec o.thread choice h.world o.effect =
        some (o.answer, o.after)

namespace Prog

/-
  Whatever choices of the kind the outside makes, the program
  ends with a value and a history that satisfy `Q`.
-/
def Ensures
    (m : Machine Res W C)
    (fits : C → Prop)
    (thread : Nat) :
    Prog Res α → (α → History Res W → Prop) →
      History Res W → Prop
  | .ret value, Q, h => Q value h
  | .step effect next, Q, h =>
      ∀ answer after,
        m.Makes fits h
            ⟨thread, effect, answer, h.world, after⟩ →
          (next answer).Ensures m fits thread Q
            (h.push ⟨thread, effect, answer, h.world, after⟩)

namespace Ensures

variable {m : Machine Res W C} {fits : C → Prop}
variable {thread : Nat}

theorem bind_iff
    {p : Prog Res α}
    {f : α → Prog Res β}
    {Q : β → History Res W → Prop}
    {h : History Res W} :
    (p >>= f).Ensures m fits thread Q h ↔
      p.Ensures m fits thread
        (fun value later =>
          (f value).Ensures m fits thread Q later) h := by
  induction p generalizing h with
  | ret value => exact Iff.rfl
  | step effect next ih =>
      exact forall_congr' fun answer =>
        forall_congr' fun after =>
          imp_congr_right fun _ => ih answer

theorem mono
    {p : Prog Res α}
    {Q Q' : α → History Res W → Prop}
    {h : History Res W}
    (hEnsures : p.Ensures m fits thread Q h)
    (hImp : ∀ value later, Q value later → Q' value later) :
    p.Ensures m fits thread Q' h := by
  induction p generalizing h with
  | ret value => exact hImp value h hEnsures
  | step effect next ih =>
      exact fun answer after hMakes =>
        ih answer (hEnsures answer after hMakes)

/- Both of two conditions at once. -/
theorem and
    {p : Prog Res α}
    {Q Q' : α → History Res W → Prop}
    {h : History Res W}
    (hEnsures : p.Ensures m fits thread Q h)
    (hEnsures' : p.Ensures m fits thread Q' h) :
    p.Ensures m fits thread
      (fun value later => Q value later ∧ Q' value later) h := by
  induction p generalizing h with
  | ret value => exact ⟨hEnsures, hEnsures'⟩
  | step effect next ih =>
      exact fun answer after hMakes =>
        ih answer (hEnsures answer after hMakes)
          (hEnsures' answer after hMakes)

/-
  A program of effects of one kind keeps what each of them
  keeps, and ends with moves the machine can make.
-/
theorem of_traced
    {kind : E → Prop}
    {possible : Move Res → Prop}
    (inv : History Res W → Prop)
    {p : Prog Res α}
    {Q : α → Trace Res → Prop}
    {past : Trace Res}
    {h : History Res W}
    (hTraced : p.Traced (fun _ effect => kind effect) Q past)
    (hPossible : ∀ h o, m.Makes fits h o → possible o.move)
    (hKeeps :
      ∀ h o, inv h → m.Makes fits h o → kind o.effect →
        inv (h.push o))
    (hPast : ∀ move ∈ past, possible move)
    (hInv : inv h) :
    p.Ensures m fits thread
      (fun value later =>
        inv later ∧
          ∃ moves, (∀ move ∈ moves, possible move) ∧
            Q value moves) h := by
  induction p generalizing h past with
  | ret value => exact ⟨hInv, past, hPast, hTraced⟩
  | step effect next ih =>
      intro answer after hMakes
      refine ih answer (hTraced.2 answer) ?_
        (hKeeps h _ hInv hMakes hTraced.1)
      exact List.forall_mem_cons.mpr
        ⟨hPossible h _ hMakes, hPast⟩

/-
  A program put in a larger place ensures there of the part it
  works on what it ensures alone.
-/
theorem via
    {E' : Type}
    {Res' : E' → Type}
    {W' C' : Type}
    {place : E → E'}
    {back : ∀ effect, Res' (place effect) → Res effect}
    {m' : Machine Res' W' C'}
    {fits' : C' → Prop}
    (part : W' → W)
    (hExec :
      ∀ choice w effect answer after, fits' choice →
        m'.exec thread choice w (place effect) =
            some (answer, after) →
          ∃ inner, fits inner ∧
            m.exec thread inner (part w) effect =
              some (back effect answer, part after))
    {p : Prog Res α}
    {Q : α → W → Prop}
    {h : History Res W}
    {h' : History Res' W'}
    (hEnsures :
      p.Ensures m fits thread (fun value later =>
        Q value later.world) h)
    (hPart : h.world = part h'.world) :
    (p.via place back).Ensures m' fits' thread
      (fun value later => Q value (part later.world)) h' := by
  induction p generalizing h h' with
  | ret value =>
      change Q value (part h'.world)
      rw [← hPart]
      exact hEnsures
  | step effect next ih =>
      rintro answer after ⟨-, choice, hFits, hAnswer⟩
      obtain ⟨inner, hInner, hPlaced⟩ :=
        hExec choice h'.world effect answer after hFits hAnswer
      rw [← hPart] at hPlaced
      exact ih (back effect answer)
        (hEnsures (back effect answer) (part after)
          ⟨rfl, inner, hInner, hPlaced⟩) rfl

/- What is ensured is so at the end of every run. -/
theorem eval
    {p : Prog Res α}
    {Q : α → History Res W → Prop}
    {choices rest : List C}
    {h h' : History Res W}
    {value : α}
    (hEnsures : p.Ensures m fits thread Q h)
    (hChoices : ∀ choice ∈ choices, fits choice)
    (hEval :
      p.eval m thread choices h = some (value, h', rest)) :
    Q value h' := by
  induction p generalizing choices h with
  | ret returned =>
      simp only [Prog.eval, Option.some.injEq,
        Prod.mk.injEq] at hEval
      obtain ⟨rfl, rfl, -⟩ := hEval
      exact hEnsures
  | step effect next ih =>
      obtain ⟨choice, others, answer, after, rfl, hExec, hRest⟩ :=
        eval_step hEval
      refine ih answer (hEnsures answer after
        ⟨rfl, choice, ?_, hExec⟩) ?_ hRest
      · exact hChoices choice List.mem_cons_self
      · exact fun other hOther =>
          hChoices other (List.mem_cons_of_mem _ hOther)

end Ensures

end Prog

/-
  What holds at the start and is kept by every turn, holds
  after any number of turns.
-/
theorem turns_induct
    {m : Machine Res W C}
    {threads : Nat → Prog Res α}
    {choices : Nat → List C}
    {w : W}
    {P : History Res W → Prop}
    {count : Nat}
    {h : History Res W}
    (hTurns : turns m threads choices w count = some h)
    (hStart : P (.start w))
    (hStep :
      ∀ n before value after rest, n < count →
        turns m threads choices w n = some before →
        (threads n).eval m n (choices n) before =
          some (value, after, rest) →
        P before → P after) :
    P h := by
  induction count generalizing h with
  | zero =>
      cases hTurns
      exact hStart
  | succ count ih =>
      simp only [turns, Option.bind_eq_some_iff,
        Option.map_eq_some_iff] at hTurns
      obtain ⟨before, hBefore, ⟨value, after, rest⟩, hEval,
        rfl⟩ := hTurns
      refine hStep count before value after rest
        (Nat.lt_succ_self count) hBefore hEval (ih hBefore ?_)
      exact fun n earlier value after rest hLess =>
        hStep n earlier value after rest
          (Nat.lt_succ_of_lt hLess)

end Concurrency

end IcpHandler
