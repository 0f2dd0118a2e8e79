import IcpHandler.Protocol.Operations
import IcpHandler.Protocol.Sequential

/-
  An intent that runs alone, seen by a view that the idle
  effects leave alone: what comes before and after the
  intent's own work does not matter to it.

  Main declarations:
    * `Presents`, `Unsigned`
    * `View.does_handleIntent`
    * `View.does_respond`
-/

------------------------------------------------------------
-- Before and After an Intent's Own Work
------------------------------------------------------------

namespace IcpHandler

namespace Protocol

open Model Service Concurrency

/-
  An intent with a scope carries on the mandate it brings,
  unless the caller skips the check.
-/
def Presents
    (input : IntentInput)
    (intent : Intent)
    (mandate : Option MandateEvaluation) : Prop :=
  intent.scope.isSome → input.mandateJws.isSome →
    input.skipMandateCheck = false → mandate ≠ none

/- Some receipt cannot be made, or not be signed. -/
def Unsigned
    (svc : IcpService)
    (fits : Choice → Prop) : Prop :=
  (∃ body error, svc.deps.jcsBody body = .error error) ∨
    ∃ choice error, fits choice ∧
      choice.signature = .error error

section Intents

variable {β : Type}
variable {rfc3339 : Rfc3339} {fits : Choice → Prop}
variable {thread : Nat} {h : Log}
variable {before after : β}
variable {svc : IcpService} {input : IntentInput}
variable (view : View rfc3339 fits β)

theorem only_of_meetsIdle
    {α : Type}
    {body : Svc α}
    (hIdle : ∀ effect, effect.isIdle = true → view.quiet effect)
    (hMeets : MeetsIdle body) :
    Svc.Only view.quiet body :=
  fun past =>
    (Svc.Meets.of_kind (hMeets past)
      fun _ effect hEffect => hIdle effect hEffect).mono
      (fun _ _ _ => trivial) (fun _ _ _ => trivial)

/- The mandate is evaluated before the intent's own work. -/
theorem does_handleIntent
    (hIdle : ∀ effect, effect.isIdle = true → view.quiet effect)
    (hView : view.of h = before)
    {Q : IntentResponseBody → Log → Prop}
    {X : Halt → Log → Prop}
    (hHalt :
      ∀ halt later, view.of later = before → X halt later)
    (hDispatch :
      ∀ intent mandate ready,
        Intent.parse input.envelope.intent = .ok intent →
        Presents input intent mandate →
        view.of ready = before →
          (dispatch svc intent input mandate).Does rfc3339 fits
            thread
            (fun outcome later =>
              (respond svc intent input mandate outcome).Does
                rfc3339 fits thread Q X later) X ready) :
    (handleIntent svc input).Does rfc3339 fits thread Q X h := by
  rw [handleIntent, Svc.does_bind, Svc.does_ensure]
  refine ⟨fun _ => ?_, fun _ => hHalt _ _ hView⟩
  rw [Svc.does_bind, Svc.does_ofExcept]
  refine ⟨fun intent hIntent => ?_, fun _ _ => hHalt _ _ hView⟩
  rw [Svc.does_bind]
  have hMandate :
      (mandateFor svc input intent).Meets
        (fun _ effect => view.quiet effect)
        (fun mandate _ => Presents input intent mandate)
        (fun _ _ => True) [] :=
    (Svc.Meets.of_kind meets_mandateFor
      fun _ effect hEffect => hIdle effect hEffect).mono
      (fun _ _ hPost => hPost.1) (fun _ _ _ => trivial)
  refine (Svc.Does.of_meets (fun _ => True)
    (fun later => view.of later = before) hMandate
    (fun _ _ _ => trivial) ?_ hView).mono ?_
    (fun halt later hPost => hHalt halt later hPost.1)
  · exact fun _ _ hInv hMakes hKind =>
      (view.keeps hMakes hKind).trans hInv
  rintro mandate evaluated ⟨hEvaluated, moves, -, hPresents⟩
  refine view.does_after hEvaluated
    (only_of_meetsIdle view hIdle (meetsIdle_ensureSubject
      mandate)) hHalt fun _ ready hReady => ?_
  rw [Svc.does_bind]
  exact hDispatch intent mandate ready hIntent hPresents hReady

/- The answer fails only where a receipt cannot be signed. -/
theorem does_respond
    (hIdle : ∀ effect, effect.isIdle = true → view.quiet effect)
    (hView : view.of h = after)
    {intent : Intent}
    {mandate : Option MandateEvaluation}
    {outcome : Outcome} :
    (respond svc intent input mandate outcome).Does rfc3339
      fits thread
      (fun _ later => view.of later = after)
      (fun halt later =>
        view.of later = after ∧ Unsigned svc fits ∧
          ∃ error, halt = .error error) h := by
  have hRespond :
      (respond svc intent input mandate outcome).Meets
        (fun _ effect => view.quiet effect)
        (fun _ _ => True)
        (fun halt later =>
          (∃ error, halt = .error error) ∧
            ReceiptFailed svc later) [] :=
    (Svc.Meets.of_kind meets_respond
      fun _ effect hEffect => hIdle effect hEffect).mono
      (fun _ _ _ => trivial) (fun _ _ hPost => hPost.1)
  refine (Svc.Does.of_meets
    (fun move => ∀ claims error,
      move = ⟨.signClaims claims, .error error⟩ →
        ∃ choice, fits choice ∧
          choice.signature = .error error)
    (fun later => view.of later = after) hRespond ?_ ?_
    hView).mono (fun _ _ hPost => hPost.1) ?_
  · intro earlier o hMakes claims error hMove
    rcases o with ⟨mover, effect, answer, world, world'⟩
    cases hMove
    obtain ⟨-, choice, hFits, hExec⟩ := hMakes
    unfold machine execEff at hExec
    simp only [Option.some.injEq, Prod.mk.injEq] at hExec
    exact ⟨choice, hFits, hExec.1⟩
  · exact fun _ _ hInv hMakes hKind =>
      (view.keeps hMakes hKind).trans hInv
  · rintro halt later
      ⟨hLater, moves, hPossible, hError, hFailed⟩
    refine ⟨hLater, ?_, hError⟩
    rcases hFailed with hBody | ⟨claims, error, hMove⟩
    · exact .inl hBody
    · obtain ⟨choice, hFits, hSignature⟩ :=
        hPossible _ hMove claims error rfl
      exact .inr ⟨choice, error, hFits, hSignature⟩

end Intents

end Protocol

end IcpHandler
