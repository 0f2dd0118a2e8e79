import IcpHandler.Concurrency.Trace

/-
  One program run in two worlds with the same choices. The two
  runs go in step: both stop short, or both end with the same
  value, and what relates the worlds at the start leads to
  what relates them at the end.

  Main declarations:
    * `Prog.InStep`
    * `Prog.InStep.step`, `Prog.InStep.perform`
    * `Prog.InStep.bind`
    * `Prog.InStep.of_kind`
-/

------------------------------------------------------------
-- Runs in Step
------------------------------------------------------------

namespace IcpHandler

namespace Concurrency

variable {E : Type} {Res : E → Type} {W C α β : Type}

namespace Prog

/- Related options are both none, or have related values. -/
theorem rel_cases
    {r : α → β → Prop}
    {first : Option α}
    {second : Option β}
    (hRel : Option.Rel r first second) :
    (first = none ∧ second = none) ∨
      ∃ one other, first = some one ∧ second = some other ∧
        r one other := by
  cases hRel with
  | none => exact .inl ⟨rfl, rfl⟩
  | some hBoth => exact .inr ⟨_, _, rfl, rfl, hBoth⟩

/- Alone, a composition is one program after the other. -/
theorem eval_bind
    {m : Machine Res W C}
    {thread : Nat}
    (p : Prog Res α)
    (f : α → Prog Res β)
    (choices : List C)
    (h : History Res W) :
    (p >>= f).eval m thread choices h =
      (p.eval m thread choices h).bind fun result =>
        (f result.1).eval m thread result.2.2 result.2.1 := by
  induction p generalizing choices h with
  | ret value => rfl
  | step effect next ih =>
      rw [step_bind]
      cases choices with
      | nil => rfl
      | cons choice choices =>
          simp only [eval]
          cases m.exec thread choice h.world effect with
          | none => rfl
          | some result => exact ih result.1 choices _

/-
  From worlds that `pre` relates, with the same choices, both
  runs stop short, or both end with the same value and the
  same choices left, in worlds that `post` relates.
-/
def InStep
    (m : Machine Res W C)
    (thread : Nat)
    (pre : W → W → Prop)
    (p : Prog Res α)
    (post : α → W → W → Prop) : Prop :=
  ∀ choices h h', pre h.world h'.world →
    Option.Rel
      (fun one other =>
        one.1 = other.1 ∧ one.2.2 = other.2.2 ∧
          post one.1 one.2.1.world other.2.1.world)
      (p.eval m thread choices h)
      (p.eval m thread choices h')

namespace InStep

variable {m : Machine Res W C}
variable {thread : Nat}
variable {pre : W → W → Prop}

theorem ret
    {value : α}
    {post : α → W → W → Prop}
    (hPost : ∀ w w', pre w w' → post value w w') :
    InStep m thread pre (.ret value) post :=
  fun _ _ _ hPre => .some ⟨rfl, rfl, hPost _ _ hPre⟩

theorem mono
    {p : Prog Res α}
    {post post' : α → W → W → Prop}
    (hInStep : InStep m thread pre p post)
    (hPost :
      ∀ value w w', post value w w' → post' value w w') :
    InStep m thread pre p post' := by
  intro choices h h' hPre
  rcases rel_cases (hInStep choices h h' hPre) with
    ⟨hOne, hOther⟩ |
      ⟨one, other, hOne, hOther, hValue, hChoices, hBoth⟩
  · rw [hOne, hOther]
    exact .none
  · rw [hOne, hOther]
    exact .some ⟨hValue, hChoices, hPost _ _ _ hBoth⟩

/-
  The first effect may be answered differently in the two
  worlds, as long as the program goes on in the same way.
-/
theorem step
    {effect : E}
    {next : Res effect → Prog Res α}
    {post : α → W → W → Prop}
    (hExec :
      ∀ choice w w', pre w w' →
        Option.Rel
          (fun one other =>
            next one.1 = next other.1 ∧
              InStep m thread
                (fun v v' => v = one.2 ∧ v' = other.2)
                (next one.1) post)
          (m.exec thread choice w effect)
          (m.exec thread choice w' effect)) :
    InStep m thread pre (.step effect next) post := by
  intro choices h h' hPre
  cases choices with
  | nil => exact .none
  | cons choice choices =>
      simp only [eval]
      rcases rel_cases (hExec choice h.world h'.world hPre) with
        ⟨hOne, hOther⟩ |
          ⟨one, other, hOne, hOther, hNext, hRest⟩
      · rw [hOne, hOther]
        exact .none
      · rw [hOne, hOther]
        dsimp only
        rw [← hNext]
        exact hRest choices _ _ ⟨rfl, rfl⟩

theorem perform
    {effect : E}
    {post : Res effect → W → W → Prop}
    (hExec :
      ∀ choice w w', pre w w' →
        Option.Rel
          (fun one other =>
            one.1 = other.1 ∧ post one.1 one.2 other.2)
          (m.exec thread choice w effect)
          (m.exec thread choice w' effect)) :
    InStep m thread pre (.perform effect) post := by
  refine .step fun choice w w' hPre => ?_
  rcases rel_cases (hExec choice w w' hPre) with
    ⟨hOne, hOther⟩ |
      ⟨one, other, hOne, hOther, hAnswer, hAfter⟩
  · rw [hOne, hOther]
    exact .none
  · rw [hOne, hOther]
    refine .some ⟨by rw [hAnswer], .ret ?_⟩
    rintro v v' ⟨rfl, rfl⟩
    exact hAfter

theorem bind
    {p : Prog Res α}
    {f : α → Prog Res β}
    {mid : α → W → W → Prop}
    {post : β → W → W → Prop}
    (hFirst : InStep m thread pre p mid)
    (hNext :
      ∀ value, InStep m thread (mid value) (f value) post) :
    InStep m thread pre (p >>= f) post := by
  intro choices h h' hPre
  rw [eval_bind, eval_bind]
  rcases rel_cases (hFirst choices h h' hPre) with
    ⟨hOne, hOther⟩ |
      ⟨one, other, hOne, hOther, hValue, hChoices, hMid⟩
  · rw [hOne, hOther]
    exact .none
  · rw [hOne, hOther, Option.bind_some, Option.bind_some,
      ← hValue, ← hChoices]
    exact hNext one.1 one.2.2 _ _ hMid

/-
  A program whose effects cannot tell two worlds apart goes in
  step in them.
-/
theorem of_kind
    {kind : E → Prop}
    {p : Prog Res α}
    {Q : α → Trace Res → Prop}
    {past : Trace Res}
    (hKind : p.Traced (fun _ effect => kind effect) Q past)
    (hExec :
      ∀ choice w w' effect, kind effect → pre w w' →
        Option.Rel
          (fun one other =>
            one.1 = other.1 ∧ pre one.2 other.2)
          (m.exec thread choice w effect)
          (m.exec thread choice w' effect)) :
    InStep m thread pre p fun _ => pre := by
  induction p generalizing past with
  | ret value => exact .ret fun _ _ hPre => hPre
  | step effect next ih =>
      refine .step fun choice w w' hPre => ?_
      rcases rel_cases (hExec choice w w' effect hKind.1 hPre)
        with
        ⟨hOne, hOther⟩ |
          ⟨one, other, hOne, hOther, hAnswer, hAfter⟩
      · rw [hOne, hOther]
        exact .none
      · rw [hOne, hOther]
        refine .some ⟨by rw [hAnswer], ?_⟩
        intro choices h h' hWorlds
        refine ih one.1 (hKind.2 one.1) choices h h' ?_
        rw [hWorlds.1, hWorlds.2]
        exact hAfter

/- In step, both runs end with the same value. -/
theorem value_eq
    {p : Prog Res α}
    {post : α → W → W → Prop}
    (hInStep : InStep m thread pre p post)
    (choices : List C)
    {h h' : History Res W}
    (hPre : pre h.world h'.world) :
    (p.eval m thread choices h).map Prod.fst =
      (p.eval m thread choices h').map Prod.fst := by
  rcases rel_cases (hInStep choices h h' hPre) with
    ⟨hOne, hOther⟩ |
      ⟨one, other, hOne, hOther, hValue, -⟩
  · rw [hOne, hOther]
  · rw [hOne, hOther]
    exact congrArg some hValue

end InStep

end Prog

end Concurrency

end IcpHandler
