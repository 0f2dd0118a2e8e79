import IcpHandler.Protocol.A2a
import IcpHandler.Protocol.Ticks

/-
  Every operation of the handler follows the rule. The steps
  before and after an intent's own work are idle: the mandate
  is only read, and a receipt writes no store of rows.

  Main declarations:
    * `meets_mandateFor`
    * `meets_respond`
    * `meets_handleIntent`
    * `prog_traced`
-/

------------------------------------------------------------
-- Mandate Evaluation
------------------------------------------------------------

namespace IcpHandler

namespace Protocol

open Model Service Concurrency

/- The block is idle, whatever it ends with. -/
def MeetsIdle
    {α : Type}
    (body : Svc α) : Prop :=
  ∀ past, body.Meets IdleRule (fun _ _ => True)
    (fun _ _ => True) past

section Evaluation

variable {svc : IcpService}
variable {input : IntentInput}
variable {past : Moves}

/- A mandate is only read, and its issuer resolved. -/
section Reading

variable {kind : Eff → Prop}

theorem only_decodeUnverified (compactJws : String) :
    Svc.Only kind (decodeUnverified svc compactJws) :=
  (Svc.Only.ofExcept _ _).bind fun _ =>
    (Svc.Only.orFail _ _).bind fun _ =>
      Svc.Only.ofExcept _ _

theorem only_verifySignature
    (hResolve : ∀ did, kind (.resolve did))
    (compactJws issuerDid : String) :
    Svc.Only kind
      (verifySignature svc compactJws issuerDid) := by
  refine (Svc.Only.ofExcept _ _).bind fun parts => ?_
  refine (Svc.Only.orFail _ _).bind fun headerBytes => ?_
  refine (Svc.Only.ofExcept _ _).bind fun header => ?_
  refine (Svc.Only.ensure _ _).bind fun _ => ?_
  refine (Svc.Only.ensure _ _).bind fun _ => ?_
  refine (Svc.Only.orFail _ _).bind fun signature => ?_
  refine (Svc.Only.ensure _ _).bind fun _ => ?_
  refine Svc.Only.bind (Svc.Only.act (hResolve _))
    fun resolved => ?_
  refine (Svc.Only.ofExcept _ _).bind fun keys => ?_
  refine (Svc.Only.ensure _ _).bind fun _ => ?_
  exact Svc.Only.ensure _ _

theorem only_signatureVerified
    (hResolve : ∀ did, kind (.resolve did))
    (compactJws issuerDid : String) :
    Svc.Only kind
      (signatureVerified svc compactJws issuerDid) := by
  unfold signatureVerified
  split
  · exact (only_verifySignature hResolve _ _).bind fun _ =>
      Svc.Only.pure _
  · exact Svc.Only.pure _

theorem only_budgetPeriod (text : Option String) :
    Svc.Only kind (budgetPeriod text) := by
  unfold budgetPeriod
  split
  · exact Svc.Only.pure _
  · exact Svc.Only.panic _

theorem only_evaluate
    (hResolve : ∀ did, kind (.resolve did))
    (hUsage : ∀ jti, kind (.tryUsage jti))
    (compactJws intentScope : String)
    (candidateAmountMinor : Int64)
    (now : DateTime)
    (tenantId : String)
    (jurisdiction : Option String) :
    Svc.Only kind (evaluate svc compactJws intentScope
      candidateAmountMinor now tenantId jurisdiction) := by
  refine (only_decodeUnverified _).bind fun payload => ?_
  refine (Svc.Only.ofExcept _ _).bind fun _ => ?_
  refine Svc.Only.bind (Svc.Only.act (hUsage _)) fun read => ?_
  refine (Svc.Only.ofExcept _ _).bind fun usage => ?_
  refine (only_budgetPeriod _).bind fun period => ?_
  refine (Svc.Only.ensure _ _).bind fun _ => ?_
  refine Svc.Only.bind ?_ fun _ => Svc.Only.pure _
  exact only_signatureVerified hResolve _ _

theorem only_mandateFor
    (hNow : kind .now)
    (hResolve : ∀ did, kind (.resolve did))
    (hUsage : ∀ jti, kind (.tryUsage jti))
    (intent : Intent) :
    Svc.Only kind (mandateFor svc input intent) := by
  unfold mandateFor
  split
  · split
    · refine Svc.Only.bind (Svc.Only.act hNow) fun now => ?_
      exact (only_evaluate hResolve hUsage _ _ _ _ _ _).bind
        fun _ => Svc.Only.pure _
    · split
      · exact Svc.Only.fail _
      · exact Svc.Only.pure _
  · exact Svc.Only.pure _

theorem only_ensureSubject
    (mandate : Option MandateEvaluation) :
    Svc.Only kind (ensureSubject input mandate) := by
  cases mandate with
  | none => exact Svc.Only.pure _
  | some ev => exact Svc.Only.ensure _ _

end Reading

/-
  An intent with a scope that brings a mandate carries it on,
  unless the caller skips the check.
-/
theorem meets_mandateFor
    {intent : Intent} :
    (mandateFor svc input intent).Meets IdleRule
      (fun mandate _ =>
        intent.scope.isSome → input.mandateJws.isSome →
          input.skipMandateCheck = false → mandate ≠ none)
      (fun _ _ => True) past := by
  unfold mandateFor
  cases hScope : intent.scope with
  | none => exact fun hSome => absurd hSome (by simp)
  | some scope =>
      cases hSkip : input.skipMandateCheck with
      | true => exact fun _ _ hFalse => by cases hFalse
      | false =>
          cases hJws : input.mandateJws with
          | none =>
              dsimp only
              split
              · exact trivial
              · exact fun _ hSome => absurd hSome (by simp)
          | some jws =>
              dsimp only
              rw [Svc.meets_bind]
              refine Svc.meets_act.mpr ⟨rfl, fun now => ?_⟩
              rw [Svc.meets_bind]
              refine Svc.Meets.mono
                (only_evaluate (fun _ => rfl) (fun _ => rfl)
                  _ _ _ _ _ _ _) ?_
                (fun _ _ _ => trivial)
              intro evaluation later _ _ _ _
              simp

theorem meetsIdle_ensureSubject
    (mandate : Option MandateEvaluation) :
    MeetsIdle (ensureSubject input mandate) :=
  only_ensureSubject mandate

end Evaluation

end Protocol

end IcpHandler

------------------------------------------------------------
-- Receipts
------------------------------------------------------------

namespace IcpHandler

namespace Protocol

open Model Service Concurrency

section Receipts

variable {svc : IcpService}
variable {input : IntentInput}
variable {mandate : Option MandateEvaluation}
variable {past : Moves}

/- The receipt could not be made, or not be signed. -/
def ReceiptFailed
    (svc : IcpService)
    (past : Moves) : Prop :=
  (∃ body error, svc.deps.jcsBody body = .error error) ∨
    ∃ claims error,
      (⟨.signClaims claims, .error error⟩ : Move Eff.Res) ∈
        past

theorem meets_signReceipt
    {intent : Intent}
    {body : IntentResponseBody} :
    (signReceipt svc intent input mandate body).Meets IdleRule
      (fun _ _ => True)
      (fun halt later =>
        (∃ error, halt = .error error) ∧
          ReceiptFailed svc later) past := by
  rw [signReceipt, Svc.meets_bind, Svc.meets_ofExcept]
  refine ⟨fun bytes _ => ?_, fun error hError =>
    ⟨⟨_, rfl⟩, .inl ⟨body, error, hError⟩⟩⟩
  dsimp only
  rw [Svc.meets_bind]
  refine Svc.meets_act.mpr ⟨rfl, fun now => ?_⟩
  rw [Svc.meets_bind]
  refine Svc.meets_act.mpr ⟨rfl, fun token => ?_⟩
  rw [Svc.meets_bind]
  refine Svc.meets_act.mpr ⟨rfl, fun signed => ?_⟩
  rw [Svc.meets_bind, Svc.meets_ofExcept]
  refine ⟨fun jws _ => ?_, ?_⟩
  · rw [Svc.meets_bind]
    exact Svc.meets_act.mpr ⟨rfl, fun _ => trivial⟩
  · rintro error rfl
    exact ⟨⟨_, rfl⟩, .inr ⟨_, error, List.mem_cons_self⟩⟩

theorem meets_intentIdFor :
    (intentIdFor input).Meets IdleRule (fun _ _ => True)
      (fun _ _ => False) past := by
  unfold intentIdFor
  cases input.envelope.intentId with
  | some id => exact trivial
  | none => exact ⟨rfl, fun _ => trivial⟩

theorem meets_receiptFor
    {intent : Intent}
    {body : IntentResponseBody} :
    (receiptFor svc intent input mandate body).Meets IdleRule
      (fun _ _ => True)
      (fun halt later =>
        (∃ error, halt = .error error) ∧
          ReceiptFailed svc later) past := by
  unfold receiptFor
  split
  · exact meets_signReceipt
  · exact trivial

theorem meets_announce
    {intent : Intent}
    {outcome : Outcome}
    {body : IntentResponseBody} :
    (announce svc intent input outcome body).Meets IdleRule
      (fun _ _ => True) (fun _ _ => False) past := by
  rw [announce, Svc.meets_bind]
  refine Svc.meets_act.mpr ⟨rfl, fun token => ?_⟩
  rw [Svc.meets_bind]
  refine Svc.meets_act.mpr ⟨rfl, fun occurredAt => ?_⟩
  dsimp only
  split
  · rw [Svc.meets_bind]
    refine Svc.Meets.mono
      (Svc.Meets.of_kind (meets_webhookRule _ _)
        fun _ _ hMove => hMove.1) ?_
      (fun _ _ hFalse => hFalse.1)
    intro _ announced _
    exact Svc.meets_act.mpr ⟨rfl, fun _ => trivial⟩
  · exact Svc.meets_act.mpr ⟨rfl, fun _ => trivial⟩

theorem meets_respond
    {intent : Intent}
    {outcome : Outcome} :
    (respond svc intent input mandate outcome).Meets IdleRule
      (fun _ _ => True)
      (fun halt later =>
        (∃ error, halt = .error error) ∧
          ReceiptFailed svc later) past := by
  rw [respond, Svc.meets_bind]
  refine Svc.meets_act.mpr ⟨rfl, fun issuedAt => ?_⟩
  rw [Svc.meets_bind]
  refine Svc.Meets.mono meets_intentIdFor ?_
    (fun _ _ hFalse => hFalse.elim)
  intro intentId identified _
  dsimp only
  rw [Svc.meets_bind]
  refine Svc.Meets.mono meets_receiptFor ?_
    (fun _ _ hFailed => hFailed)
  intro receipt signed _
  rw [Svc.meets_bind]
  exact Svc.Meets.mono meets_announce (fun _ _ _ => trivial)
    (fun _ _ hFalse => hFalse.elim)

end Receipts

end Protocol

end IcpHandler

------------------------------------------------------------
-- Operations
------------------------------------------------------------

namespace IcpHandler

namespace Protocol

open Model Service Concurrency

section Operations

variable {svc : IcpService}
variable {input : IntentInput}
variable {past : Moves}

theorem meets_dispatch
    {intent : Intent}
    {mandate : Option MandateEvaluation}
    (hIdle : Idle past)
    (hIntent :
      Intent.parse input.envelope.intent = .ok intent)
    (hMandate :
      intent.scope.isSome → input.mandateJws.isSome →
        input.skipMandateCheck = false → mandate ≠ none) :
    (dispatch svc intent input mandate).Meets
      (Rule svc (.intent input))
      (fun _ later => pendingCharge later = none)
      (Stopped svc input) past := by
  cases intent with
  | search => exact meets_doSearch hIdle hIntent rfl
  | describe => exact meets_doDescribe hIdle hIntent rfl
  | quote => exact meets_doQuote hIdle hIntent rfl
  | negotiate => exact meets_doNegotiate hIdle
  | authorize => exact meets_doAuthorize hIdle
  | buy => exact meets_doBuy hIdle (hMandate rfl)
  | pay => exact meets_doBuy hIdle (hMandate rfl)
  | subscribe => exact meets_doSubscribe hIdle
  | renew => exact meets_doRenew hIdle
  | pause => exact meets_doPause hIdle
  | cancelSubscription => exact meets_doCancelSubscription hIdle
  | track => exact meets_doTrack hIdle
  | confirmReceipt => exact meets_doConfirmReceipt hIdle
  | «return» => exact meets_doReturn hIdle
  | refundRequest => exact meets_doReturn hIdle
  | a2aPay => exact meets_doA2aPay hIdle
  | a2aQuote => exact meets_doA2aQuote hIdle

/- A block before the intent's own work only refuses. -/
theorem meets_gate
    {α : Type}
    {body : Svc α}
    {Q : α → Moves → Prop}
    (hIdle : Idle past)
    (hBody :
      body.Meets IdleRule Q (fun _ _ => True) past) :
    body.Meets (Rule svc (.intent input))
      (fun value later => Q value later ∧ Idle later)
      (Stopped svc input) past := by
  refine (meets_of_idle hBody).mono ?_ ?_
  · rintro value later ⟨hValue, hAfter⟩
    exact ⟨hValue, hAfter.idle hIdle⟩
  · rintro halt later ⟨-, hAfter⟩
    exact (hAfter.idle hIdle).stopped

/-
  An intent that returns leaves no charge without its row; one
  that stops does so in a known way.
-/
theorem meets_handleIntent :
    (handleIntent svc input).Meets (Rule svc (.intent input))
      (fun _ later => pendingCharge later = none)
      (Stopped svc input) [] := by
  have hStart : Idle [] := fun _ hMove => by cases hMove
  rw [handleIntent, Svc.meets_bind, Svc.meets_ensure]
  refine ⟨fun _ => ?_, fun _ => hStart.stopped⟩
  rw [Svc.meets_bind, Svc.meets_ofExcept]
  refine ⟨fun intent hIntent => ?_, fun _ _ => hStart.stopped⟩
  rw [Svc.meets_bind]
  refine Svc.Meets.mono (meets_gate hStart meets_mandateFor) ?_
    (fun _ _ hStopped => hStopped)
  rintro mandate evaluated ⟨hMandate, hEvaluated⟩
  rw [Svc.meets_bind]
  refine Svc.Meets.mono
    (meets_gate hEvaluated (meetsIdle_ensureSubject mandate _))
    ?_ (fun _ _ hStopped => hStopped)
  rintro _ checked ⟨-, hChecked⟩
  rw [Svc.meets_bind]
  refine Svc.Meets.mono
    (meets_dispatch hChecked hIntent hMandate) ?_
    (fun _ _ hStopped => hStopped)
  intro outcome done hDone
  refine Svc.Meets.mono (meets_of_idle meets_respond) ?_ ?_
  · rintro body later ⟨-, hAfter⟩
    rw [hAfter.quiet.pendingCharge_eq]
    exact hDone
  · rintro halt later ⟨⟨-, hFailed⟩, hAfter⟩
    refine ⟨?_, fun _ _ => .inr (.receipt hFailed)⟩
    rw [hAfter.quiet.pendingCharge_eq]
    exact hDone

/- What is known of a thread's moves once it has returned. -/
def OpPost
    (svc : IcpService) :
    Op → OpResult → Moves → Prop
  | .intent input, .response (.error halt), past =>
      Stopped svc input halt past
  | .tickExpiries now, .expiries _, past => Swept now past
  | _, _, past => pendingCharge past = none

/- Every operation follows the rule. -/
theorem prog_traced
    (svc : IcpService)
    (op : Op) :
    (op.prog svc).Traced (Rule svc op) (OpPost svc op) [] := by
  cases op with
  | intent input =>
      rw [Op.prog, Prog.Traced.bind_iff]
      refine Prog.Traced.mono meets_handleIntent ?_
      intro result later hPost
      cases result with
      | ok body => exact hPost
      | error halt => exact hPost
  | tickSubscriptions now =>
      rw [Op.prog, Prog.Traced.bind_iff]
      refine Prog.Traced.mono (meets_tickSubscriptions rfl) ?_
      intro result later hPost
      cases result with
      | ok report => exact hPost
      | error halt => exact hPost.elim
  | tickExpiries now =>
      rw [Op.prog, Prog.Traced.bind_iff]
      refine Prog.Traced.mono meets_tickExpiries ?_
      intro result later hPost
      cases result with
      | ok report => exact hPost
      | error halt => exact hPost.elim

/- No charge is left without its row by a finished thread. -/
theorem OpPost.settled
    {op : Op}
    {result : OpResult}
    (hPost : OpPost svc op result past) :
    pendingCharge past = none := by
  cases op with
  | intent input =>
      rcases result with result | result | result
      · cases result with
        | ok body => exact hPost
        | error halt => exact Stopped.settled hPost
      · exact hPost
      · exact hPost
  | tickSubscriptions now => exact hPost
  | tickExpiries now =>
      rcases result with result | result | result
      · exact hPost
      · exact hPost
      · exact Swept.settled hPost

end Operations

end Protocol

end IcpHandler
