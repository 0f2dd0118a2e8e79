import IcpHandler.Model.WireFormat
import IcpHandler.Properties.MandateEvaluation
import IcpHandler.Protocol.Billing
import IcpHandler.Protocol.Runs

/-
  What stands behind a charge. Where mandates are required, an
  intent books a payment only after it has evaluated the
  mandate it brings, for its own agent and scope, and has
  reserved the amount under it.

  Main declarations:
    * `Approved`, `Mandated`
    * `ChargeRule`, `charges_traced`
    * `charges_are_mandated`
    * `payments_settle_outside`
-/

------------------------------------------------------------
-- Approval
------------------------------------------------------------

namespace IcpHandler

namespace Protocol

open Model Service Concurrency

/-
  A mandate that the handler has accepted for an intent, from
  what its thread has been answered.
-/
structure Approved
    (svc : IcpService)
    (input : IntentInput)
    (intent : Intent)
    (ev : MandateEvaluation)
    (past : Moves) : Prop where
  presented : input.mandateJws = some ev.compactJws
  subject : ev.payload.sub = input.agent.raw
  decoded :
    ∃ segments, splitCompact ev.compactJws = .ok segments ∧
      DecodesTo svc segments ev.payload ∧
      (svc.config.verifyMandateSignatures = true →
        ∃ keys,
          (⟨.resolve ev.payload.iss, .ok keys⟩ :
            Move Eff.Res) ∈ past ∧
          SignedByIssuer svc segments (.ok keys))
  granted :
    ∃ scope now usage, intent.scope = some scope ∧
      (⟨.now, now⟩ : Move Eff.Res) ∈ past ∧
      ev.payload.Grants svc.deps.calendar.fromTimestamp scope
        (estimateIntentAmountMinor input.envelope) now
        input.tenant.tenantId
        input.envelope.context.jurisdiction ∧
      (⟨.tryUsage ev.payload.jti, .ok usage⟩ :
        Move Eff.Res) ∈ past ∧
      ev.payload.Affords usage
        (estimateIntentAmountMinor input.envelope) now

/-
  The mandate an intent goes on with. It has none where the
  caller skips the check, where nothing is asked of the intent,
  and where none is presented nor required.
-/
structure Mandated
    (svc : IcpService)
    (input : IntentInput)
    (intent : Intent)
    (mandate : Option MandateEvaluation)
    (past : Moves) : Prop where
  approved :
    ∀ ev, mandate = some ev →
      input.skipMandateCheck = false ∧
        Approved svc input intent ev past
  missing :
    mandate = none →
      intent.scope = none ∨ input.skipMandateCheck = true ∨
        (input.mandateJws = none ∧
          svc.config.requireMandate = false)

section Approval

variable {svc : IcpService}
variable {input : IntentInput}
variable {intent : Intent}
variable {ev : MandateEvaluation}
variable {mandate : Option MandateEvaluation}
variable {past : Moves}

theorem Approved.append
    (hApproved : Approved svc input intent ev past)
    (recent : Moves) :
    Approved svc input intent ev (recent ++ past) where
  presented := hApproved.presented
  subject := hApproved.subject
  decoded := by
    obtain ⟨segments, hSegments, hDecodes, hSigned⟩ :=
      hApproved.decoded
    refine ⟨segments, hSegments, hDecodes, fun hVerify => ?_⟩
    obtain ⟨keys, hResolved, hSigned⟩ := hSigned hVerify
    exact ⟨keys, List.mem_append_right _ hResolved, hSigned⟩
  granted := by
    obtain ⟨scope, now, usage, hScope, hNow, hGrants, hRead,
      hAffords⟩ := hApproved.granted
    exact ⟨scope, now, usage, hScope,
      List.mem_append_right _ hNow, hGrants,
      List.mem_append_right _ hRead, hAffords⟩

theorem Mandated.append
    (hMandated : Mandated svc input intent mandate past)
    (recent : Moves) :
    Mandated svc input intent mandate (recent ++ past) where
  approved := by
    intro ev hEv
    obtain ⟨hChecked, hApproved⟩ := hMandated.approved ev hEv
    exact ⟨hChecked, hApproved.append recent⟩
  missing := hMandated.missing

/- A signature that passes is one of the issuer's keys'. -/
theorem meets_verifySignature
    {rule : Moves → Eff → Prop}
    (hRule : ∀ moves did, rule moves (.resolve did))
    {compactJws issuerDid : String}
    {segments : String × String × String}
    (hSegments : splitCompact compactJws = .ok segments) :
    (verifySignature svc compactJws issuerDid).Meets rule
      (fun _ later =>
        ∃ keys, later = ⟨.resolve issuerDid, .ok keys⟩ :: past ∧
          SignedByIssuer svc segments (.ok keys))
      (fun _ _ => True) past := by
  simp only [verifySignature, decodeSegment, hSegments,
    Svc.meets_bind, Svc.meets_ofExcept, Svc.meets_orFail,
    Svc.meets_ensure, implies_true, and_true, Except.ok.injEq,
    forall_eq']
  intro headerBytes hHeaderBytes header hHeader _ hAlg
    signature hSignature hLength
  refine Svc.meets_act.mpr ⟨hRule _ _, fun resolved => ?_⟩
  rintro keys rfl _ hVerified
  rw [List.any_eq_true] at hVerified
  obtain ⟨entry, hEntry, hVerified⟩ := hVerified
  exact ⟨keys, rfl, headerBytes, header, signature, keys,
    hHeaderBytes, hHeader, beq_iff_eq.mp hAlg, hSignature,
    beq_iff_eq.mp hLength, rfl, entry,
    (candidateKeys_perm header.kid keys).mem_iff.mp hEntry,
    hVerified⟩

theorem meets_signatureVerified
    {rule : Moves → Eff → Prop}
    (hRule : ∀ moves did, rule moves (.resolve did))
    {compactJws issuerDid : String}
    {segments : String × String × String}
    (hSegments : splitCompact compactJws = .ok segments) :
    (signatureVerified svc compactJws issuerDid).Meets rule
      (fun _ later =>
        (∃ recent, later = recent ++ past) ∧
          (svc.config.verifyMandateSignatures = true →
            ∃ keys,
              (⟨.resolve issuerDid, .ok keys⟩ :
                Move Eff.Res) ∈ later ∧
              SignedByIssuer svc segments (.ok keys)))
      (fun _ _ => True) past := by
  unfold signatureVerified
  split
  · rw [Svc.meets_bind]
    apply (meets_verifySignature hRule hSegments).mono ?_
      (fun _ _ _ => trivial)
    rintro _ _ ⟨keys, rfl, hSigned⟩
    refine ⟨⟨[_], rfl⟩, fun _ => ?_⟩
    exact ⟨keys, List.mem_cons_self, hSigned⟩
  · rename_i hVerify
    refine ⟨⟨[], rfl⟩, fun hTrue => ?_⟩
    exact absurd hTrue hVerify

/- The budget check of an evaluation, as a statement. -/
theorem affords_of_check
    {payload : MandatePayload}
    {usage : MandateUsage}
    {amount : Int64}
    {now : DateTime}
    {period : Option Duration}
    (hPeriod :
      parsePeriod payload.icp.budget.period = .ok period)
    (hFits :
      (!decide
        (amount >
          Saturating.satSub payload.icp.budget.amountMinor
            (if usage.windowStart.any
                (fun start =>
                  decide (now - start >
                    period.getD (Duration.days 1))) = true
              then 0
              else usage.spentMinor))) = true) :
    payload.Affords usage amount now := by
  refine ⟨period, hPeriod, ?_⟩
  rw [Bool.not_eq_true', decide_eq_false_iff_not] at hFits
  rw [← Int64.not_lt]
  intro hExceeds
  apply hFits
  unfold MandateUsage.spentInWindow at hExceeds
  cases hStart : usage.windowStart with
  | none =>
      rw [hStart] at hExceeds
      exact hExceeds
  | some start =>
      rw [hStart] at hExceeds
      rw [Option.any_some]
      dsimp only at hExceeds
      by_cases hElapsed :
          now - start > period.getD (Duration.days 1)
      · rw [if_pos (decide_eq_true hElapsed)]
        rw [if_neg (not_le.mpr hElapsed)] at hExceeds
        exact hExceeds
      · rw [if_neg (mt of_decide_eq_true hElapsed)]
        rw [if_pos (not_lt.mp hElapsed)] at hExceeds
        exact hExceeds

/- What an evaluation has found out by the time it returns. -/
theorem meets_evaluate
    {rule : Moves → Eff → Prop}
    (hResolve : ∀ moves did, rule moves (.resolve did))
    (hUsage : ∀ moves jti, rule moves (.tryUsage jti))
    (compactJws scope : String)
    (amount : Int64)
    (now : DateTime)
    (tenantId : String)
    (jurisdiction : Option String) :
    (evaluate svc compactJws scope amount now tenantId
      jurisdiction).Meets rule
      (fun ev later =>
        ev.compactJws = compactJws ∧
        (∃ recent, later = recent ++ past) ∧
        (∃ segments, splitCompact compactJws = .ok segments ∧
          DecodesTo svc segments ev.payload ∧
          (svc.config.verifyMandateSignatures = true →
            ∃ keys,
              (⟨.resolve ev.payload.iss, .ok keys⟩ :
                Move Eff.Res) ∈ later ∧
              SignedByIssuer svc segments (.ok keys))) ∧
        ev.payload.Grants svc.deps.calendar.fromTimestamp
          scope amount now tenantId jurisdiction ∧
        ∃ usage,
          (⟨.tryUsage ev.payload.jti, .ok usage⟩ :
            Move Eff.Res) ∈ later ∧
          ev.payload.Affords usage amount now)
      (fun _ _ => True) past := by
  simp only [evaluate, decodeUnverified, decodeSegment,
    Svc.meets_bind, Svc.meets_ofExcept, Svc.meets_orFail,
    implies_true, and_true]
  intro segments hSegments bytes hBytes payload hPayload
    _ hTerms
  refine Svc.meets_act.mpr ⟨hUsage _ _, fun read => ?_⟩
  rintro usage rfl
  unfold budgetPeriod
  cases hPeriod : parsePeriod payload.icp.budget.period with
  | error message => exact trivial
  | ok period =>
      simp only [Svc.meets_pure, Svc.meets_ensure,
        implies_true, and_true]
      intro hFits
      apply (meets_signatureVerified hResolve hSegments).mono
        ?_ (fun _ _ _ => trivial)
      rintro _ _ ⟨⟨recent, rfl⟩, hSigned⟩
      refine ⟨trivial, ⟨recent ++
        [⟨.tryUsage payload.jti, .ok usage⟩], by simp⟩, ?_,
        ?_, ?_⟩
      · exact ⟨segments, hSegments, ⟨bytes, hBytes, hPayload⟩,
          hSigned⟩
      · exact MandatePayload.checkTerms_ok_iff.mp hTerms
      · refine ⟨usage, ?_, affords_of_check hPeriod hFits⟩
        exact List.mem_append_right _ List.mem_cons_self

/-
  The mandate an intent goes on with is the one it presents,
  and it has been evaluated for the intent's own scope.
-/
theorem mandated_mandateFor
    {rule : Moves → Eff → Prop}
    (hNow : ∀ moves, rule moves .now)
    (hResolve : ∀ moves did, rule moves (.resolve did))
    (hUsage : ∀ moves jti, rule moves (.tryUsage jti)) :
    (mandateFor svc input intent).Meets rule
      (fun mandate later =>
        (∀ ev, mandate = some ev →
          ev.payload.sub = input.agent.raw →
            input.skipMandateCheck = false ∧
              Approved svc input intent ev later) ∧
        (mandate = none →
          intent.scope = none ∨
            input.skipMandateCheck = true ∨
            (input.mandateJws = none ∧
              svc.config.requireMandate = false)))
      (fun _ _ => True) past := by
  unfold mandateFor
  cases hScope : intent.scope with
  | none =>
      refine ⟨?_, fun _ => .inl rfl⟩
      intro ev hEv
      cases hEv
  | some scope =>
      cases hSkip : input.skipMandateCheck with
      | true =>
          refine ⟨?_, fun _ => .inr (.inl rfl)⟩
          intro ev hEv
          cases hEv
      | false =>
          cases hJws : input.mandateJws with
          | none =>
              dsimp only
              split
              · exact trivial
              · rename_i hRequire
                refine ⟨?_, fun _ => .inr (.inr ⟨rfl, ?_⟩)⟩
                · intro ev hEv
                  cases hEv
                · rw [Bool.not_eq_true] at hRequire
                  exact hRequire
          | some jws =>
              dsimp only
              rw [Svc.meets_bind]
              refine Svc.meets_act.mpr
                ⟨hNow _, fun now => ?_⟩
              rw [Svc.meets_bind]
              apply (meets_evaluate hResolve hUsage _ _ _ _ _
                _).mono ?_ (fun _ _ _ => trivial)
              rintro ev _ ⟨hJwsEq, ⟨recent, rfl⟩, hDecoded,
                hGrants, usage, hRead, hAffords⟩
              constructor
              · intro other hOther hSubject
                cases hOther
                refine ⟨rfl, ⟨?_, hSubject, ?_, ?_⟩⟩
                · rw [hJws, hJwsEq]
                · rw [hJwsEq]
                  exact hDecoded
                · refine ⟨scope, now, usage, hScope, ?_,
                    hGrants, hRead, hAffords⟩
                  exact List.mem_append_right _
                    List.mem_cons_self
              · intro hNone
                cases hNone

end Approval

end Protocol

end IcpHandler

------------------------------------------------------------
-- The Rule of a Run
------------------------------------------------------------

namespace IcpHandler

namespace Protocol

open Model Service Concurrency

/-
  An intent moves money under the mandate it goes on with, and
  as that mandate and the kind of intent allow. The ticks are
  left out: they carry out what was agreed before.
-/
def ChargeRule
    (svc : IcpService) : Op → Moves → Eff → Prop
  | .intent input, past, effect =>
      Free effect ∨
        ∃ intent mandate,
          Intent.parse input.envelope.intent = .ok intent ∧
          Mandated svc input intent mandate past ∧
          BillRule svc input intent mandate past effect
  | _, _, _ => True

section Runs

variable {svc : IcpService}
variable {input : IntentInput}
variable {intent : Intent}
variable {mandate : Option MandateEvaluation}
variable {past : Moves}

/- Nothing that is free is forbidden. -/
theorem charges_of_free
    {α : Type}
    {body : Svc α}
    {Q : α → Moves → Prop}
    (hBody :
      body.Meets (fun _ effect => Free effect) Q
        (fun _ _ => True) past) :
    body.Meets (ChargeRule svc (.intent input))
      (fun value later => Q value later ∧ AfterFree past later)
      (fun _ _ => True) past := by
  apply (Svc.Meets.of_kind hBody fun _ _ hFree =>
    Or.inl hFree).mono
  · intro value later hPost
    exact hPost
  · intro halt later _
    trivial

/- The mandate of an intent stands through its whole work. -/
theorem charges_dispatch
    (hIntent :
      Intent.parse input.envelope.intent = .ok intent)
    (hMandated : Mandated svc input intent mandate past)
    (hUnbooked : Unbooked past) :
    (dispatch svc intent input mandate).Meets
      (ChargeRule svc (.intent input))
      (fun _ _ => True) (fun _ _ => True) past := by
  have hStands :
      (dispatch svc intent input mandate).Meets
        (fun moves _ => Mandated svc input intent mandate moves)
        (fun _ _ => True) (fun _ _ => True) past := by
    apply (Prog.Traced.of_kind_keeping
      (Mandated svc input intent mandate)
      (Prog.Traced.of_forall (fun _ _ => trivial)
        (fun _ _ => trivial) _ past)
      (fun _ _ hStands (_ : True) => hStands)
      (fun _ move hStands _ => hStands.append [move])
      hMandated).mono
    intro result later _
    cases result with
    | ok outcome => trivial
    | error halt => trivial
  have hBoth :=
    Prog.Traced.and (bills_dispatch hUnbooked) hStands
  apply (hBoth.weaken ?_).mono
  · intro result later _
    cases result with
    | ok outcome => trivial
    | error halt => trivial
  · rintro moves effect ⟨hBills, hMandated⟩
    exact .inr ⟨intent, mandate, hIntent, hMandated, hBills⟩

theorem free_respond
    {outcome : Outcome} :
    Svc.Only Free
      (respond svc intent input mandate outcome) := by
  intro moves
  have hIdle :
      (respond svc intent input mandate outcome).Meets
        IdleRule (fun _ _ => True) (fun _ _ => True) moves :=
    meets_respond.mono (fun _ _ _ => trivial)
      (fun _ _ _ => trivial)
  apply Prog.Traced.weaken hIdle
  intro past effect hIdleEff
  have hIsIdle : effect.isIdle = true := hIdleEff
  cases effect with
  | txns op =>
      cases op with
      | insert row => cases hIsIdle
      | update id patch => cases hIsIdle
      | _ => exact ⟨rfl, rfl, rfl⟩
  | subs op =>
      cases op with
      | insert row => cases hIsIdle
      | update id patch => cases hIsIdle
      | _ => exact ⟨rfl, rfl, rfl⟩
  | recordSpend jti tenantId amount now limits => cases hIsIdle
  | insertCharge txn bill => cases hIsIdle
  | _ => exact ⟨rfl, rfl, rfl⟩

/- An intent moves no money but under its mandate. -/
theorem charges_handleIntent
    (hStart : Unbooked past) :
    (handleIntent svc input).Meets
      (ChargeRule svc (.intent input))
      (fun _ _ => True) (fun _ _ => True) past := by
  rw [handleIntent, Svc.meets_bind, Svc.meets_ensure]
  refine ⟨fun _ => ?_, fun _ => trivial⟩
  rw [Svc.meets_bind, Svc.meets_ofExcept]
  refine ⟨fun intent hIntent => ?_, fun _ _ => trivial⟩
  rw [Svc.meets_bind]
  apply (charges_of_free (mandated_mandateFor
    (fun _ => ⟨rfl, rfl, rfl⟩) (fun _ _ => ⟨rfl, rfl, rfl⟩)
    (fun _ _ => ⟨rfl, rfl, rfl⟩))).mono ?_
    (fun _ _ _ => trivial)
  rintro mandate evaluated ⟨⟨hSome, hNone⟩, hEvaluated⟩
  have hUnbooked : Unbooked evaluated :=
    hEvaluated.unbooked hStart
  rw [Svc.meets_bind]
  cases mandate with
  | none =>
      rw [ensureSubject, Svc.meets_pure, Svc.meets_bind]
      have hMandated :
          Mandated svc input intent none evaluated :=
        { approved := by
            intro ev hEv
            cases hEv
          missing := hNone }
      apply (charges_dispatch hIntent hMandated
        hUnbooked).mono ?_ (fun _ _ _ => trivial)
      intro outcome later _
      apply (charges_of_free (free_respond later)).mono
      · intro body ended _
        trivial
      · intro halt ended _
        trivial
  | some ev =>
      rw [ensureSubject, Svc.meets_ensure]
      refine ⟨fun hSubject => ?_, fun _ => trivial⟩
      rw [Svc.meets_bind]
      have hMandated :
          Mandated svc input intent (some ev) evaluated :=
        { approved := by
            intro other hOther
            cases hOther
            exact hSome ev rfl (beq_iff_eq.mp hSubject)
          missing := hNone }
      apply (charges_dispatch hIntent hMandated
        hUnbooked).mono ?_ (fun _ _ _ => trivial)
      intro outcome later _
      apply (charges_of_free (free_respond later)).mono
      · intro body ended _
        trivial
      · intro halt ended _
        trivial

/- Every operation follows the rule of charges. -/
theorem charges_traced
    (svc : IcpService)
    (op : Op) :
    (op.prog svc).Traced (ChargeRule svc op)
      (fun _ _ => True) [] := by
  cases op with
  | intent input =>
      rw [Op.prog, Prog.Traced.bind_iff]
      apply Prog.Traced.mono (charges_handleIntent ?_)
        (fun _ _ _ => trivial)
      intro move hMove
      cases hMove
  | tickSubscriptions now =>
      exact Prog.Traced.of_forall (fun _ _ => trivial)
        (fun _ _ => trivial) _ _
  | tickExpiries now =>
      exact Prog.Traced.of_forall (fun _ _ => trivial)
        (fun _ _ => trivial) _ _

end Runs

end Protocol

end IcpHandler

------------------------------------------------------------
-- Charges of a Run
------------------------------------------------------------

namespace IcpHandler

namespace Protocol

open Model Service Concurrency

/- The histories in which charges follow their rule. -/
abbrev ChargeRun
    (svc : IcpService)
    (ops : Nat → Op)
    (w : World)
    (h : History Eff.Res World) : Prop :=
  Lawful (machine svc.deps.rfc3339)
    (fun thread moves effect =>
      Rule svc (ops thread) moves effect ∧
        ChargeRule svc (ops thread) moves effect) w h

/-
  An intent has done all this before it charges an amount: it
  has not charged anything yet, and it has a mandate that it
  has evaluated and reserved the amount under. It needs none
  where the caller skips the check, and where it presents none
  and none is required.
-/
structure Backing
    (svc : IcpService)
    (input : IntentInput)
    (past : Moves)
    (amount : Int64) : Prop where
  first : Unbooked past
  mandate :
    (input.skipMandateCheck = true ∨
        (input.mandateJws = none ∧
          svc.config.requireMandate = false)) ∨
      ∃ intent ev,
        Intent.parse input.envelope.intent = .ok intent ∧
        Approved svc input intent ev past ∧
        (0 < amount →
          ∃ now period,
            parsePeriod ev.payload.icp.budget.period =
              .ok period ∧
            (⟨.recordSpend ev.payload.jti
                input.tenant.tenantId amount now
                (limitsOf ev.payload period), .ok ()⟩ :
              Move Eff.Res) ∈ past)

section Charges

variable {svc : IcpService}
variable {ops : Nat → Op}
variable {w : World}
variable {h : History Eff.Res World}
variable {pool : Pool Eff.Res World OpResult}
variable {input : IntentInput}
variable {intent : Intent}
variable {mandate : Option MandateEvaluation}
variable {effect : Eff}
variable {past : Moves}

theorem ChargeRun.lawful
    (hRun : ChargeRun svc ops w h) :
    LawfulRun svc ops w h :=
  Lawful.mono hRun fun _ _ _ hRule => hRule.1

theorem Reaches.chargeRun
    (hReaches : Reaches svc ops w pool) :
    ChargeRun svc ops w pool.history := by
  obtain ⟨schedule, hRun⟩ := hReaches
  apply (Pool.run_lawful .start ?_ hRun).1
  · exact fun thread result later =>
      OpPost svc (ops thread) result later ∧ True
  · intro thread
    exact (prog_traced svc (ops thread)).and
      (charges_traced svc (ops thread))

/- An effect that is not free follows the billing rule. -/
theorem ChargeRule.billed
    (hRule : ChargeRule svc (.intent input) past effect)
    (hPaid :
      bills effect = true ∨ reserves effect = true ∨
        setsInstrument effect ≠ none) :
    ∃ intent mandate,
      Intent.parse input.envelope.intent = .ok intent ∧
      Mandated svc input intent mandate past ∧
      BillRule svc input intent mandate past effect := by
  rcases hRule with hFree | hBilled
  · obtain ⟨hBills, hReserves, hSets⟩ := hFree
    rw [hBills, hReserves] at hPaid
    rcases hPaid with hPaid | hPaid | hPaid
    · cases hPaid
    · cases hPaid
    · exact absurd hSets hPaid
  · exact hBilled

/- What stands behind a booking, in full. -/
theorem MayBook.backing
    (hBook : MayBook svc input intent mandate past effect)
    (hIntent :
      Intent.parse input.envelope.intent = .ok intent)
    (hMandated : Mandated svc input intent mandate past) :
    ∃ amount, charged past effect = some amount ∧
      Backing svc input past amount := by
  obtain ⟨amount, hCharged, hCovered⟩ := hBook.covered
  refine ⟨amount, hCharged, hBook.first, ?_⟩
  cases hMandate : mandate with
  | none =>
      have hMissing := hMandated.missing hMandate
      rcases hMissing with hScope | hSkip | hNone
      · exact absurd hScope hBook.needsMandate
      · exact .inl (.inl hSkip)
      · exact .inl (.inr hNone)
  | some ev =>
      have hApproved := (hMandated.approved ev hMandate).2
      refine .inr ⟨intent, ev, hIntent, hApproved, ?_⟩
      intro hPositive
      have hSome : mandate.isSome := by
        rw [hMandate]
        rfl
      obtain ⟨jti, tenantId, now, limits, hFor, hMem⟩ :=
        hCovered hSome hPositive
      obtain ⟨other, period, hOther, hPeriod, rfl, rfl, -,
        rfl⟩ := hFor
      rw [hMandate, Option.some.injEq] at hOther
      subst hOther
      exact ⟨now, period, hPeriod, hMem⟩

end Charges

/-
  In every run, whatever else goes on, an intent charges only
  what its mandate backs.
-/
theorem charges_are_mandated
    (svc : IcpService)
    (ops : Nat → Op)
    (w : World)
    (pool : Pool Eff.Res World OpResult)
    (hReaches : Reaches svc ops w pool)
    (recent older : Past)
    (o : Happening)
    (hPast : pool.history.past = recent ++ o :: older)
    (input : IntentInput)
    (hOp : ops o.thread = .intent input)
    (hBills : bills o.effect = true) :
    ∃ amount,
      charged (own o.thread older) o.effect = some amount ∧
        Backing svc input (own o.thread older) amount := by
  obtain ⟨earlier, -, -, -, -, hRule⟩ :=
    Lawful.cut hReaches.chargeRun hPast
  rw [hOp] at hRule
  obtain ⟨intent, mandate, hIntent, hMandated, hBill⟩ :=
    hRule.billed (.inl hBills)
  exact (hBill.books hBills).backing hIntent hMandated

/-
  A handler that reads payments, price hints and mandates, and
  has payments authorized outside.
-/
def chargeService : IcpService :=
  { hintService with
    config := { paymentExecutionMode := "external_required" }
    deps :=
      { hintService.deps with
        buyParams := fun params => do
          match (params.get? "payment").bind
              PaymentInstrument.ofJson? with
          | some payment =>
              pure
                { transactionId :=
                    ← requiredStr "transaction_id" params
                  payment := payment }
          | none => throw "missing field `payment`"
        base64Decode := mandateService.deps.base64Decode
        mandatePayload := mandateService.deps.mandatePayload } }

theorem chargeService_bytes :
    chargeService.deps.base64Decode sampleMandateSegment =
      some sampleMandateBytes := by
  simp only [chargeService, mandateService, if_true]

theorem chargeService_payload :
    chargeService.deps.mandatePayload sampleMandateBytes =
      .ok sampleMandate := by
  simp only [chargeService, mandateService, if_true]

/- A purchase of the quote that settles it outside. -/
def mandatedPurchase : IntentInput :=
  { sampleInput .buy
      [("transaction_id", .str "X"),
        ("payment",
          (PaymentInstrument.externalAuthorization "stripe"
            "auth_1" none).toJson)] none with
    mandateJws := some sampleMandateJws }

/- A quote of 43, and its purchase under a mandate for 100. -/
def mandatedSale : Nat → Op
  | 0 => .intent (sampleHint "X" 40 "USD")
  | _ => .intent mandatedPurchase

/- The sale up to the charge. -/
def mandatedSchedule : List (Nat × Choice) :=
  List.replicate 4 (0, ({} : Choice)) ++
    List.replicate 9 (1, ({} : Choice))

/- The spends of a run are all at the start of time. -/
def spentAtStart (effect : Eff) : Bool :=
  match effect with
  | .recordSpend _ _ _ now limits =>
      now == 0 && limits.window == Duration.days 1
  | _ => true

private theorem mandatedSale_runs :
    ((runOf chargeService mandatedSale
      (.fresh (.memory ∅) []) mandatedSchedule).any
        fun pool =>
          let older := pool.history.past.drop 1
          (pool.history.past.head?.any fun o =>
            o.thread == 1 && bills o.effect &&
              decide (charged (own 1 older) o.effect =
                some 43)) &&
            older.all (fun o => !bills o.effect) &&
            pool.history.past.all fun o =>
              spentAtStart o.effect) = true := by
  -- down to where the purchase's mandate is decoded
  delta runOf poolOf Op.prog handleIntent mandateFor evaluate
  rw [decodeUnverified_at splitCompact_sample
    chargeService_bytes chargeService_payload]
  decide +kernel

/- The last step of the schedule is the only charge. -/
theorem mandatedSale_charges :
    ∃ pool o older,
      runOf chargeService mandatedSale
        (.fresh (.memory ∅) []) mandatedSchedule = some pool ∧
      pool.history.past = o :: older ∧
      o.thread = 1 ∧
      bills o.effect = true ∧
      charged (own 1 older) o.effect = some 43 ∧
      (∀ earlier ∈ older, bills earlier.effect = false) ∧
      ∀ other ∈ pool.history.past,
        spentAtStart other.effect = true := by
  have hRuns := mandatedSale_runs
  rw [Option.any_eq_true] at hRuns
  obtain ⟨pool, hPool, hTests⟩ := hRuns
  simp only [Bool.and_eq_true, Option.any_eq_true, beq_iff_eq,
    decide_eq_true_eq, List.all_eq_true,
    Bool.not_eq_true'] at hTests
  obtain ⟨⟨⟨o, hFirst, ⟨hThread, hBills⟩, hCharged⟩, hOlder⟩,
    hDates⟩ := hTests
  obtain ⟨older, hPast⟩ := List.head?_eq_some_iff.mp hFirst
  have hDrop : pool.history.past.drop 1 = older := by
    rw [hPast]
    rfl
  rw [hDrop] at hCharged hOlder
  exact ⟨pool, o, older, hPool, hPast, hThread, hBills,
    hCharged, hOlder, hDates⟩

theorem charges_are_mandated_sample :
    ∃ pool o older,
      Reaches chargeService mandatedSale
        (.fresh (.memory ∅) []) pool ∧
      pool.history.past = o :: older ∧
      charged (own o.thread older) o.effect = some 43 ∧
      Backing chargeService mandatedPurchase
        (own o.thread older) 43 := by
  obtain ⟨pool, o, older, hPool, hPast, hThread, hBills,
    hCharged, -⟩ := mandatedSale_charges
  rw [← hThread] at hCharged
  have hOp : mandatedSale o.thread = .intent mandatedPurchase := by
    rw [hThread]
    rfl
  obtain ⟨amount, hAmount, hBacking⟩ :=
    charges_are_mandated chargeService mandatedSale
      (.fresh (.memory ∅) []) pool ⟨_, hPool⟩ [] older o
      hPast mandatedPurchase hOp hBills
  rw [hCharged] at hAmount
  cases hAmount
  exact ⟨pool, o, older, ⟨_, hPool⟩, hPast, hCharged,
    hBacking⟩

end Protocol

end IcpHandler

------------------------------------------------------------
-- Payments from Outside
------------------------------------------------------------

namespace IcpHandler

namespace Protocol

open Model Service Concurrency

/- Every subscription is paid by an outside authorization. -/
def OutsideOnly (w : World) : Prop :=
  ∀ id sub, w.subscriptions.get id = some sub →
    ExternallyAuthorized sub.paymentInstrument

/-
  The instrument of a charge: the one an intent brings, or the
  one of the subscription that a pass has listed.
-/
def ChargedInstrument
    (svc : IcpService)
    (op : Op)
    (past : Moves)
    (effect : Eff)
    (instrument : Option PaymentInstrument) : Prop :=
  (∃ input intent, op = .intent input ∧
      Intent.parse input.envelope.intent = .ok intent ∧
      instrument = paymentOf svc input intent) ∨
    ∃ now sub txn, op = .tickSubscriptions now ∧
      ListedSub sub past ∧
      effect =
        .insertCharge txn ⟨sub.id, sub.currentPeriodEnd⟩ ∧
      instrument = sub.paymentInstrument

section Outside

variable {svc : IcpService}
variable {ops : Nat → Op}
variable {w : World}
variable {h : History Eff.Res World}

/- Only intents and passes over subscriptions book payments. -/
theorem booked_by
    {op : Op}
    {past : Moves}
    {effect : Eff}
    (hRule : Rule svc op past effect)
    (hBills : bills effect = true) :
    (∃ input, op = .intent input) ∨
      ∃ now sub txn, op = .tickSubscriptions now ∧
        ListedSub sub past ∧
        effect =
          .insertCharge txn ⟨sub.id, sub.currentPeriodEnd⟩ := by
  cases effect with
  | insertCharge txn bill =>
      have hBill := hRule.bills
      cases op with
      | intent input => exact .inl ⟨input, rfl⟩
      | tickSubscriptions now =>
          obtain ⟨sub, hListed, -, rfl⟩ := hBill
          exact .inr ⟨now, sub, txn, rfl, hListed, rfl⟩
      | tickExpiries now => exact hBill.elim
  | txns storeOp =>
      cases storeOp with
      | insert txn =>
          obtain ⟨input, hOp, -⟩ := hRule
          exact .inl ⟨input, hOp⟩
      | update id patch =>
          cases patch with
          | complete orderId now =>
              obtain ⟨input, txn, hOp, -⟩ := hRule
              exact .inl ⟨input, hOp⟩
          | _ => cases hBills
      | _ => cases hBills
  | _ => cases hBills

/- What a thread stores has been authorized elsewhere. -/
theorem outside_of_stores
    {op : Op}
    {past : Moves}
    {effect : Eff}
    {instrument : Option PaymentInstrument}
    (hMode :
      svc.config.paymentExecutionMode = "external_required")
    (hRule : Rule svc op past effect)
    (hCharge : ChargeRule svc op past effect)
    (hSets : setsInstrument effect = some instrument) :
    ExternallyAuthorized instrument := by
  have hIntent : ∃ input, op = .intent input := by
    cases effect with
    | subs storeOp =>
        cases storeOp with
        | insert sub =>
            obtain ⟨input, hOp, -⟩ := hRule
            exact ⟨input, hOp⟩
        | update id patch =>
            cases patch with
            | renew start stop txnId payment jti now =>
                obtain ⟨input, sub, hOp, -⟩ := hRule
                exact ⟨input, hOp⟩
            | _ => cases hSets
        | _ => cases hSets
    | _ => cases hSets
  obtain ⟨input, rfl⟩ := hIntent
  have hSome : setsInstrument effect ≠ none := by
    rw [hSets]
    intro hNone
    cases hNone
  obtain ⟨intent, mandate, -, -, hBill⟩ :=
    hCharge.billed (.inr (.inr hSome))
  exact hBill.stores instrument hSets hMode

/- One step keeps every subscription's instrument so. -/
theorem outsideOnly_step
    (hMode :
      svc.config.paymentExecutionMode = "external_required")
    {o : Happening}
    (hExec : Executes svc.deps.rfc3339 o)
    (hRule :
      Rule svc (ops o.thread) (own o.thread h.past) o.effect)
    (hCharge :
      ChargeRule svc (ops o.thread) (own o.thread h.past)
        o.effect)
    (hOutside : OutsideOnly o.before) :
    OutsideOnly o.after := by
  intro id sub hSub
  cases hExec.subChange id with
  | kept hKept =>
      rw [hKept] at hSub
      exact hOutside id sub hSub
  | inserted row hEffect _ hAfter =>
      rw [hAfter] at hSub
      cases hSub
      apply outside_of_stores hMode hRule hCharge
      rw [hEffect]
      rfl
  | patched patch row hEffect hBefore hAfter =>
      rw [hAfter] at hSub
      cases hSub
      have hRow := hOutside id row hBefore
      cases patch with
      | renew start stop txnId payment jti now =>
          have hUpdate :
              o.effect = .subs (.update id
                (.renew start stop txnId payment jti now)) :=
            congrArg Move.effect hEffect
          apply outside_of_stores hMode hRule hCharge
          rw [hUpdate]
          rfl
      | _ => exact hRow

/- By induction on the run. -/
theorem ChargeRun.outsideOnly
    (hRun : ChargeRun svc ops w h)
    (hMode :
      svc.config.paymentExecutionMode = "external_required")
    (hOutside : OutsideOnly w) :
    OutsideOnly h.world := by
  induction hRun with
  | start => exact hOutside
  | @push h o hBefore hAllows hRule ih =>
      rw [History.push_world]
      apply outsideOnly_step hMode
        (executes_of_allows hAllows) hRule.1 hRule.2
      rw [hAllows.before_eq]
      exact ih

/- What a pass has listed was stored when it listed it. -/
theorem ChargeRun.listed_outside
    (hRun : ChargeRun svc ops w h)
    (hMode :
      svc.config.paymentExecutionMode = "external_required")
    (hOutside : OutsideOnly w)
    {thread : Nat}
    {sub : Subscription}
    (hListed : ListedSub sub (own thread h.past)) :
    ExternallyAuthorized sub.paymentInstrument := by
  obtain ⟨now, due, hDue, hListing⟩ := hListed
  obtain ⟨listing, hMem, -, hMove⟩ := mem_own_iff.mp hListing
  obtain ⟨recent, older, hPast⟩ := List.append_of_mem hMem
  obtain ⟨earlier, hEarlier, -, hAllows, -⟩ :=
    Lawful.cut hRun hPast
  have hExec := executes_of_allows hAllows
  obtain ⟨hGet, -⟩ := hExec.listSubs hMove sub hDue
  rw [hAllows.before_eq] at hGet
  exact ChargeRun.outsideOnly hEarlier hMode hOutside sub.id
    sub hGet

end Outside

/-
  Where payments have to be authorized outside, no run stores
  or charges any other instrument.
-/
theorem payments_settle_outside
    (svc : IcpService)
    (ops : Nat → Op)
    (w : World)
    (pool : Pool Eff.Res World OpResult)
    (hMode :
      svc.config.paymentExecutionMode = "external_required")
    (hOutside : OutsideOnly w)
    (hReaches : Reaches svc ops w pool) :
    OutsideOnly pool.history.world ∧
      ∀ recent o older,
        pool.history.past = recent ++ o :: older →
        bills o.effect = true →
        ∃ instrument,
          ChargedInstrument svc (ops o.thread)
            (own o.thread older) o.effect instrument ∧
          ExternallyAuthorized instrument := by
  have hRun := hReaches.chargeRun
  refine ⟨hRun.outsideOnly hMode hOutside, ?_⟩
  intro recent o older hPast hBills
  obtain ⟨earlier, hEarlier, rfl, -, hRule, hCharge⟩ :=
    Lawful.cut hRun hPast
  cases hOp : ops o.thread with
  | intent input =>
      rw [hOp] at hCharge
      obtain ⟨intent, mandate, hIntent, -, hBill⟩ :=
        hCharge.billed (.inl hBills)
      refine ⟨paymentOf svc input intent,
        .inl ⟨input, intent, rfl, hIntent, rfl⟩, ?_⟩
      exact (hBill.books hBills).external (.inl hMode)
  | tickSubscriptions now =>
      rw [hOp] at hRule
      rcases booked_by hRule hBills with ⟨input, hIntent⟩ |
        ⟨at_, sub, txn, hTick, hListed, hEffect⟩
      · cases hIntent
      · refine ⟨sub.paymentInstrument, .inr ⟨now, sub, txn,
          rfl, hListed, hEffect, rfl⟩, ?_⟩
        exact ChargeRun.listed_outside hEarlier hMode hOutside
          hListed
  | tickExpiries now =>
      rw [hOp] at hRule
      rcases booked_by hRule hBills with ⟨input, hIntent⟩ |
        ⟨at_, sub, txn, hTick, -⟩
      · cases hIntent
      · cases hTick

/- The sale where payments are authorized outside. -/
theorem payments_settle_outside_sample :
    ∃ pool,
      Reaches chargeService mandatedSale
        (.fresh (.memory ∅) []) pool ∧
      (∃ o ∈ pool.history.past, bills o.effect = true) ∧
      OutsideOnly pool.history.world := by
  obtain ⟨pool, o, older, hPool, hPast, -, hBills, -⟩ :=
    mandatedSale_charges
  refine ⟨pool, ⟨_, hPool⟩, ?_, ?_⟩
  · refine ⟨o, ?_, hBills⟩
    rw [hPast]
    exact List.mem_cons_self
  · apply (payments_settle_outside _ mandatedSale
      (.fresh (.memory ∅) []) pool rfl ?_ ⟨_, hPool⟩).1
    intro id sub hSub
    cases hSub

end Protocol

end IcpHandler
