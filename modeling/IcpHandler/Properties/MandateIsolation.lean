import IcpHandler.Concurrency.TwoRuns
import IcpHandler.Properties.LedgerBudget
import IcpHandler.Protocol.Operations

/-
  One mandate's spends and another's budget. The ledger is
  keyed by the mandate id alone, so mandates with different
  ids never see each other, and mandates with one id share a
  row whoever issued them.

  Main declarations:
    * `Consults`
    * `only_evaluateDecoded`
    * `mandates_isolated`
    * `mandates_share_id`
-/

------------------------------------------------------------
-- What Evaluation Looks At
------------------------------------------------------------

namespace IcpHandler

namespace Protocol

open Model Service Concurrency

/- The effect looks at one mandate's usage, or resolves. -/
def Consults (jti : String) : Eff → Prop
  | .tryUsage name => name = jti
  | .resolve _ => True
  | _ => False

/- Two worlds whose ledgers agree on a mandate. -/
def AlikeOn
    (rfc3339 : Rfc3339)
    (jti : String)
    (w w' : World) : Prop :=
  w.ledger.usage rfc3339 jti = w'.ledger.usage rfc3339 jti

section Evaluate

variable {svc : IcpService} {jti : String}
variable {rfc3339 : Rfc3339}

/- Such an effect answers alike in such worlds. -/
theorem consults_alike
    (thread : Nat)
    (choice : Choice)
    (w w' : World)
    (effect : Eff)
    (hConsults : Consults jti effect)
    (hAlike : AlikeOn rfc3339 jti w w') :
    Option.Rel
      (fun one other =>
        one.1 = other.1 ∧ AlikeOn rfc3339 jti one.2 other.2)
      ((machine rfc3339).exec thread choice w effect)
      ((machine rfc3339).exec thread choice w' effect) := by
  cases effect with
  | tryUsage name =>
      cases hConsults
      refine .some ⟨?_, hAlike⟩
      unfold MandateLedger.tryUsage
      split
      · rfl
      · exact congrArg Except.ok hAlike
  | resolve did => exact .some ⟨rfl, hAlike⟩
  | _ => exact hConsults.elim

/-
  Evaluating a mandate looks at the usage under its own id and
  at the issuer's keys.
-/
theorem only_evaluateDecoded
    {compactJws : String}
    {payload : MandatePayload}
    (hPayload : decodeUnverified svc compactJws = pure payload)
    (intentScope : String)
    (candidateAmountMinor : Int64)
    (now : DateTime)
    (tenantId : String)
    (jurisdiction : Option String) :
    Svc.Only (Consults payload.jti)
      (evaluate svc compactJws intentScope candidateAmountMinor
        now tenantId jurisdiction) := by
  unfold evaluate
  rw [hPayload, pure_bind]
  refine (Svc.Only.ofExcept _ _).bind fun _ => ?_
  refine Svc.Only.bind (Svc.Only.act rfl) fun read => ?_
  refine (Svc.Only.ofExcept _ _).bind fun usage => ?_
  refine (only_budgetPeriod _).bind fun period => ?_
  refine (Svc.Only.ensure _ _).bind fun _ => ?_
  refine Svc.Only.bind ?_ fun _ => Svc.Only.pure _
  exact only_signatureVerified (fun _ => trivial) _ _

end Evaluate

end Protocol

end IcpHandler

------------------------------------------------------------
-- Isolation
------------------------------------------------------------

namespace IcpHandler

namespace Protocol

open Model Service Concurrency

variable {rfc3339 : Rfc3339}

/- What `evaluate` answers when it runs alone in a world. -/
def evaluateIn
    (svc : IcpService)
    (thread : Nat)
    (choices : List Choice)
    (w : World)
    (compactJws intentScope : String)
    (candidateAmountMinor : Int64)
    (now : DateTime)
    (tenantId : String)
    (jurisdiction : Option String) :
    Option (Except Halt MandateEvaluation) :=
  ((evaluate svc compactJws intentScope candidateAmountMinor
      now tenantId jurisdiction).run.eval
    (machine svc.deps.rfc3339) thread choices
    (History.start w)).map Prod.fst

/- Spends on other mandates leave this one's usage alone. -/
theorem runCalls_usage_of_ne
    {jti : String}
    (calls : List SpendCall)
    (hOther : ∀ call ∈ calls, call.jti ≠ jti)
    (ledger : MandateLedger) :
    (runCalls rfc3339 calls ledger).ledger.usage rfc3339 jti =
      ledger.usage rfc3339 jti := by
  suffices hAll :
      ∀ run : LedgerRun,
        (calls.foldl (LedgerRun.call rfc3339) run).ledger.usage
            rfc3339 jti =
          run.ledger.usage rfc3339 jti from
    hAll ⟨ledger, []⟩
  induction calls with
  | nil => exact fun _ => rfl
  | cons call calls ih =>
      intro run
      rw [List.foldl_cons, ih fun other hMem =>
        hOther other (List.mem_cons_of_mem _ hMem)]
      exact MandateLedger.usage_of_ne rfl
        (hOther call List.mem_cons_self).symm

/- The answer to a spend depends on the usage alone. -/
theorem tryRecordSpendChecked_answer_congr
    {first second : MandateLedger}
    {jti : String}
    (hUsage :
      first.usage rfc3339 jti = second.usage rfc3339 jti)
    (fault : Bool)
    (tenantId : String)
    (amountMinor : Int64)
    (now : DateTime)
    (limits : MandateSpendLimits) :
    (first.tryRecordSpendChecked rfc3339 fault jti tenantId
        amountMinor now limits).1 =
      (second.tryRecordSpendChecked rfc3339 fault jti tenantId
        amountMinor now limits).1 := by
  unfold MandateLedger.tryRecordSpendChecked
  rw [hUsage]
  split
  · rfl
  split
  · rfl
  split
  · rfl
  split
  · rfl
  cases first <;> cases second <;> dsimp only <;>
    split <;> rfl

/-
  Spends under other mandate ids, by any tenants and on any
  terms, leave a mandate as it was: its usage, the answer to
  every later spend on it, and the outcome of evaluating it.
-/
theorem mandates_isolated
    (svc : IcpService)
    (second : MandatePayload)
    (compactJws : String)
    (hSecond : decodeUnverified svc compactJws = pure second)
    (calls : List SpendCall)
    (hOther : ∀ call ∈ calls, call.jti ≠ second.jti)
    (ledger : MandateLedger) :
    let rfc3339 := svc.deps.rfc3339
    let after := (runCalls rfc3339 calls ledger).ledger
    (∀ fault,
      after.tryUsage rfc3339 fault second.jti =
        ledger.tryUsage rfc3339 fault second.jti) ∧
    (∀ fault tenantId amountMinor now limits,
      (after.tryRecordSpendChecked rfc3339 fault second.jti
          tenantId amountMinor now limits).1 =
        (ledger.tryRecordSpendChecked rfc3339 fault second.jti
          tenantId amountMinor now limits).1) ∧
    ∀ thread choices (w : World) scope amountMinor now tenantId
        jurisdiction,
      evaluateIn svc thread choices { w with ledger := after }
          compactJws scope amountMinor now tenantId
          jurisdiction =
        evaluateIn svc thread choices
          { w with ledger := ledger } compactJws scope
          amountMinor now tenantId jurisdiction := by
  intro rfc3339 after
  have hUsage :
      after.usage rfc3339 second.jti =
        ledger.usage rfc3339 second.jti :=
    runCalls_usage_of_ne calls hOther ledger
  refine ⟨?_, ?_, ?_⟩
  · intro fault
    unfold MandateLedger.tryUsage
    rw [hUsage]
  · intro fault tenantId amountMinor now limits
    exact tryRecordSpendChecked_answer_congr hUsage fault
      tenantId amountMinor now limits
  · intro thread choices w scope amountMinor now tenantId
      jurisdiction
    have hOnly :=
      only_evaluateDecoded hSecond scope amountMinor now
        tenantId jurisdiction
    exact
      (Prog.InStep.of_kind (hOnly [])
        (consults_alike thread)).value_eq choices hUsage

private theorem decodeUnverified_eq
    {svc : IcpService}
    {compactJws header segment signature : String}
    {bytes : List UInt8}
    {payload : MandatePayload}
    (hSplit :
      splitCompact compactJws =
        .ok (header, segment, signature))
    (hBytes : svc.deps.base64Decode segment = some bytes)
    (hPayload : svc.deps.mandatePayload bytes = .ok payload) :
    decodeUnverified svc compactJws = pure payload := by
  simp only [decodeUnverified, decodeSegment, hSplit]
  change Svc.orFail _ (svc.deps.base64Decode segment) >>= _ = _
  rw [hBytes]
  change Svc.ofExcept _ (svc.deps.mandatePayload bytes) = _
  rw [hPayload]
  rfl

private theorem decode_sample :
    decodeUnverified mandateService sampleMandateJws =
      pure sampleMandate := by
  have hSegment :
      mandateService.deps.base64Decode sampleMandateSegment =
        some sampleMandateBytes := by
    simp only [mandateService, if_true]
  have hPayload :
      mandateService.deps.mandatePayload sampleMandateBytes =
        .ok sampleMandate := by
    simp only [mandateService, if_true]
  exact decodeUnverified_eq splitCompact_sample hSegment hPayload

/- 60 spent on another mandate id. -/
private def otherSpend : SpendCall where
  jti := "m2"
  tenantId := "globex"
  amountMinor := 60
  now := Duration.seconds 0
  limits := ⟨100, none, Duration.days 1⟩

theorem mandates_isolated_sample :
    (runCalls concreteRfc3339 [otherSpend]
        (.sqlite ∅)).ledger.tryUsage concreteRfc3339 false
          "m1" = .ok {} :=
  (mandates_isolated mandateService sampleMandate
    sampleMandateJws decode_sample [otherSpend] (by decide)
    (.sqlite ∅)).1 false

/- The same terms from another issuer, under the same id. -/
private def rivalMandate : MandatePayload :=
  { sampleMandate with iss := "did:web:q.example" }

/- 60 spent under the rival mandate by another tenant. -/
private def rivalSpend : SpendCall :=
  { otherSpend with jti := rivalMandate.jti }

/-
  A spend of 60 under one mandate makes the same spend under
  another issuer's mandate with the same id exceed its budget.
-/
theorem mandates_share_id :
    ¬ ∀ (rfc3339 : Rfc3339) (first second : MandatePayload)
        (calls : List SpendCall) (ledger : MandateLedger),
      first.iss ≠ second.iss →
      (∀ call ∈ calls, call.jti = first.jti) →
      ∀ tenantId amountMinor now,
        let limits : MandateSpendLimits :=
          ⟨second.icp.budget.amountMinor, none,
            Duration.days 1⟩
        ((runCalls rfc3339 calls
            ledger).ledger.tryRecordSpendChecked rfc3339 false
              second.jti tenantId amountMinor now limits).1 =
          (ledger.tryRecordSpendChecked rfc3339 false
            second.jti tenantId amountMinor now limits).1 := by
  intro hIsolated
  have hSame :=
    hIsolated concreteRfc3339 rivalMandate sampleMandate
      [rivalSpend] (.sqlite ∅) (by decide) (by decide)
      "acme" 60 (Duration.seconds 0)
  revert hSame
  decide

end Protocol

end IcpHandler
