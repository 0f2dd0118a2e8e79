import IcpHandler.Model.World

/-
  Operations that run alone, one condition at a time. Whether
  a block returns is whether each of its checks passes, with
  the answers that the world gives it.

  Main declarations:
    * `Svc.Succeeds`
    * `Svc.succeeds_act_bind`
    * `Svc.succeeds_resolve_bind`, `Svc.succeeds_tryUsage_bind`
    * `Svc.succeeds_ensure_bind`
    * `Svc.succeeds_ofExcept_bind`, `Svc.succeeds_orFail_bind`
-/

------------------------------------------------------------
-- Blocks that Return
------------------------------------------------------------

namespace IcpHandler

namespace Model

open Concurrency

namespace Svc

variable {α β : Type}
variable {rfc3339 : Rfc3339}
variable {thread : Nat}
variable {choices : List Choice}
variable {h : History Eff.Res World}

/- The block returns a value when it runs alone. -/
def Succeeds
    (rfc3339 : Rfc3339)
    (thread : Nat)
    (choices : List Choice)
    (h : History Eff.Res World)
    (body : Svc α) : Prop :=
  ∃ value later,
    body.run.eval (machine rfc3339) thread choices h =
      some (.ok value, later)

theorem succeeds_pure
    (value : α) :
    (pure value : Svc α).Succeeds rfc3339 thread choices h :=
  ⟨value, _, rfl⟩

theorem not_succeeds_fail
    {error : ApiError}
    {next : α → Svc β} :
    ¬ (fail error >>= next).Succeeds rfc3339 thread choices
      h := by
  rintro ⟨_, _, hEval⟩
  cases hEval

theorem succeeds_ofExcept_bind
    {ε : Type}
    {error : ε → ApiError}
    {result : Except ε α}
    {next : α → Svc β} :
    (ofExcept error result >>= next).Succeeds rfc3339 thread
        choices h ↔
      ∃ value, result = .ok value ∧
        (next value).Succeeds rfc3339 thread choices h := by
  cases result with
  | ok value =>
      constructor
      · exact fun hNext => ⟨value, rfl, hNext⟩
      · rintro ⟨_, hOk, hNext⟩
        cases hOk
        exact hNext
  | error e =>
      constructor
      · exact fun hFail => (not_succeeds_fail hFail).elim
      · rintro ⟨_, hOk, _⟩
        cases hOk

theorem succeeds_orFail_bind
    {error : ApiError}
    {found : Option α}
    {next : α → Svc β} :
    (orFail error found >>= next).Succeeds rfc3339 thread
        choices h ↔
      ∃ value, found = some value ∧
        (next value).Succeeds rfc3339 thread choices h := by
  cases found with
  | some value =>
      constructor
      · exact fun hNext => ⟨value, rfl, hNext⟩
      · rintro ⟨_, hSome, hNext⟩
        cases hSome
        exact hNext
  | none =>
      constructor
      · exact fun hFail => (not_succeeds_fail hFail).elim
      · rintro ⟨_, hSome, _⟩
        cases hSome

theorem succeeds_ensure_bind
    {check : Bool}
    {error : ApiError}
    {next : Unit → Svc β} :
    (ensure check error >>= next).Succeeds rfc3339 thread
        choices h ↔
      check = true ∧
        (next ()).Succeeds rfc3339 thread choices h := by
  cases check with
  | true =>
      constructor
      · exact fun hNext => ⟨rfl, hNext⟩
      · exact fun hBoth => hBoth.2
  | false =>
      constructor
      · exact fun hFail => (not_succeeds_fail hFail).elim
      · exact fun hBoth => nomatch hBoth.1

theorem succeeds_act_bind
    {choice : Choice}
    {effect : Eff}
    {next : effect.Res → Svc β} :
    (act effect >>= next).Succeeds rfc3339 thread
        (choice :: choices) h ↔
      ∃ answer after,
        execEff rfc3339 thread choice h.world effect =
          some (answer, after) ∧
        (next answer).Succeeds rfc3339 thread choices
          (h.push ⟨thread, effect, answer, h.world, after⟩) := by
  change (∃ value later,
    (Prog.step effect fun answer => (next answer).run).eval
      (machine rfc3339) thread (choice :: choices) h =
        some (.ok value, later)) ↔ _
  constructor
  · rintro ⟨value, later, hEval⟩
    obtain ⟨_, _, answer, after, hChoices, hExec, hRest⟩ :=
      Prog.eval_step hEval
    cases hChoices
    exact ⟨answer, after, hExec, value, later, hRest⟩
  · rintro ⟨answer, after, hExec, value, later, hRest⟩
    refine ⟨value, later, ?_⟩
    unfold Prog.eval
    have hAnswer :
        (machine rfc3339).exec thread choice h.world effect =
          some (answer, after) :=
      hExec
    rw [hAnswer]
    exact hRest

/- The resolver answers with the keys that were chosen. -/
theorem succeeds_resolve_bind
    {choice : Choice}
    {did : String}
    {next :
      Except String (List VerifyingKeyEntry) → Svc β} :
    (act (.resolve did) >>= next).Succeeds rfc3339 thread
        (choice :: choices) h ↔
      (next choice.keys).Succeeds rfc3339 thread choices
        (h.push
          ⟨thread, .resolve did, choice.keys, h.world,
            h.world⟩) := by
  refine succeeds_act_bind.trans ?_
  constructor
  · rintro ⟨answer, after, hExec, hNext⟩
    cases hExec
    exact hNext
  · exact fun hNext => ⟨choice.keys, h.world, rfl, hNext⟩

/- The ledger answers with what it can read. -/
theorem succeeds_tryUsage_bind
    {choice : Choice}
    {jti : String}
    {next : Except ApiError MandateUsage → Svc β} :
    (act (.tryUsage jti) >>= next).Succeeds rfc3339 thread
        (choice :: choices) h ↔
      (next
        (h.world.ledger.tryUsage rfc3339 choice.fault
          jti)).Succeeds rfc3339 thread choices
        (h.push
          ⟨thread, .tryUsage jti,
            h.world.ledger.tryUsage rfc3339 choice.fault jti,
            h.world, h.world⟩) := by
  refine succeeds_act_bind.trans ?_
  constructor
  · rintro ⟨answer, after, hExec, hNext⟩
    cases hExec
    exact hNext
  · exact fun hNext => ⟨_, h.world, rfl, hNext⟩

end Svc

end Model

end IcpHandler
