import Mathlib.Data.List.TakeWhile
import IcpHandler.Properties.MandateIsolation
import IcpHandler.Protocol.Alone

/-
  When a mandate authorizes an intent. The conditions are
  stated on the decoded payload, the usage of the mandate and
  the keys of its issuer, and evaluation returns exactly where
  all of them hold.

  Main declarations:
    * `MandatePayload.Grants`, `checkTerms_ok_iff`
    * `MandatePayload.Affords`
    * `SignedByIssuer`, `verifySignature_succeeds_iff`
    * `evaluate_ok_iff`
-/

------------------------------------------------------------
-- Terms
------------------------------------------------------------

namespace IcpHandler

namespace Model

/- The two codes are equal but for the case of letters. -/
def SameCode (first second : String) : Prop :=
  Text.eqIgnoreAsciiCase first second = true

/- A jurisdiction without its subdivision. -/
def countryPart (code : String) : String :=
  String.ofList (code.toList.takeWhile (· != '-'))

theorem jurisdictionAuthorizes_iff
    {allowed actual : String} :
    jurisdictionAuthorizes allowed actual = true ↔
      SameCode allowed actual ∨
        SameCode allowed (countryPart actual) := by
  unfold jurisdictionAuthorizes SameCode Text.splitOnce
  rw [Bool.or_eq_true]
  dsimp only
  by_cases hDash : '-' ∈ actual.toList
  · rw [if_pos hDash]
    exact Iff.rfl
  · have hWhole : countryPart actual = actual := by
      unfold countryPart
      rw [List.takeWhile_eq_self_iff.mpr, String.ofList_toList]
      intro c hC
      rw [bne_iff_ne]
      rintro rfl
      exact hDash hC
    rw [if_neg hDash, hWhole, or_self]
    simp

namespace MandatePayload

section Grants

variable (payload : MandatePayload)
variable (fromTimestamp : Int → Option DateTime)
variable (intentScope : String)
variable (candidateAmountMinor : Int64)
variable (now : DateTime)
variable (tenantId : String)
variable (jurisdiction : Option String)

/- The terms allow the intent, whatever has been spent. -/
structure Grants : Prop where
  valid :
    ∃ nbf exp,
      fromTimestamp payload.nbf.toInt = some nbf ∧
      fromTimestamp payload.exp.toInt = some exp ∧
      nbf ≤ now ∧ now ≤ exp
  version : payload.icp.version ≠ ""
  scope : intentScope ∈ payload.icp.scope
  merchant :
    payload.icp.merchants = [] ∨
      tenantId ∈ payload.icp.merchants ∨
      "*" ∈ payload.icp.merchants
  jurisdiction :
    payload.icp.jurisdictions = [] ∨
      "*" ∈ payload.icp.jurisdictions ∨
      ∃ actual, jurisdiction = some actual ∧
        ∃ allowed ∈ payload.icp.jurisdictions,
          SameCode allowed actual ∨
            SameCode allowed (countryPart actual)
  policy :
    ¬ (payload.icp.policies.prohibitSubscriptions = true ∧
      intentScope = "subscribe")
  cap :
    ∀ cap, payload.icp.budget.perTransaction = some cap →
      candidateAmountMinor ≤ cap

end Grants

private theorem ite_throw_ok_iff
    {refused : Prop}
    [Decidable refused]
    {error : ApiError}
    {α : Type}
    {skipped : α → Except ApiError Unit}
    {next : Except ApiError Unit} :
    (if refused then throw error >>= skipped else next) =
        .ok () ↔
      ¬ refused ∧ next = .ok () := by
  by_cases hRefused : refused
  · rw [if_pos hRefused]
    constructor
    · nofun
    · exact fun hBoth => absurd hRefused hBoth.1
  · rw [if_neg hRefused]
    exact ⟨fun hNext => ⟨hRefused, hNext⟩, And.right⟩

private theorem ite_ite_throw_ok_iff
    {limited refused : Prop}
    [Decidable limited]
    [Decidable refused]
    {error : ApiError}
    {α : Type}
    {skipped : α → Except ApiError Unit}
    {next : Except ApiError Unit} :
    (if limited then
        if refused then throw error >>= skipped else next
      else next) = .ok () ↔
      ¬ (limited ∧ refused) ∧ next = .ok () := by
  by_cases hLimited : limited
  · rw [if_pos hLimited, ite_throw_ok_iff]
    simp [hLimited]
  · rw [if_neg hLimited]
    simp [hLimited]

private theorem cap_ok_iff
    {exceeds : Prop}
    [Decidable exceeds]
    {error : ApiError} :
    (if exceeds then throw error else pure () :
        Except ApiError Unit) = .ok () ↔ ¬ exceeds := by
  by_cases hExceeds : exceeds
  · rw [if_pos hExceeds]
    exact ⟨nofun, fun hNot => absurd hExceeds hNot⟩
  · rw [if_neg hExceeds]
    exact ⟨fun _ => hExceeds, fun _ => rfl⟩

variable {payload : MandatePayload}
variable {fromTimestamp : Int → Option DateTime}
variable {intentScope : String}
variable {candidateAmountMinor : Int64}
variable {now : DateTime}
variable {tenantId : String}
variable {jurisdiction : Option String}

/- The checks one by one, once the window is read. -/
private theorem checkTerms_ok_iff_of_window
    {nbf exp : DateTime}
    (hNbf : fromTimestamp payload.nbf.toInt = some nbf)
    (hExp : fromTimestamp payload.exp.toInt = some exp) :
    payload.checkTerms fromTimestamp intentScope
        candidateAmountMinor now tenantId jurisdiction =
          .ok () ↔
      ¬ now < nbf ∧ ¬ now > exp ∧
        ¬ payload.icp.version.isEmpty = true ∧
        ¬ (!payload.icp.scope.contains intentScope) = true ∧
        ¬ (!payload.icp.merchants.isEmpty &&
          !payload.icp.merchants.any
            (fun m => m == "*" || m == tenantId)) = true ∧
        ((payload.icp.jurisdictions.isEmpty ||
            payload.icp.jurisdictions.any (· == "*")) = true ∨
          ∃ actual, jurisdiction = some actual ∧
            payload.icp.jurisdictions.any
              (fun allowed =>
                jurisdictionAuthorizes allowed actual) =
              true) ∧
        ¬ (payload.icp.policies.prohibitSubscriptions &&
          intentScope == "subscribe") = true ∧
        ∀ cap, payload.icp.budget.perTransaction = some cap →
          ¬ candidateAmountMinor > cap := by
  unfold checkTerms
  rw [hNbf, hExp]
  generalize hAny :
    (payload.icp.jurisdictions.isEmpty ||
      payload.icp.jurisdictions.any (· == "*")) = anywhere
  generalize hCap :
    payload.icp.budget.perTransaction = perTransaction
  -- the code after the jurisdiction is reached in three ways
  cases jurisdiction with
  | none =>
      cases perTransaction with
      | none =>
          simp only [pure_bind, ite_throw_ok_iff,
            and_congr_right_iff]
          intros
          cases anywhere <;> simp [pure, Except.pure]
      | some cap =>
          simp only [pure_bind, ite_throw_ok_iff, cap_ok_iff,
            and_congr_right_iff]
          intros
          cases anywhere <;> simp
  | some actual =>
      generalize hCovers :
        (payload.icp.jurisdictions.any fun allowed =>
          jurisdictionAuthorizes allowed actual) = covers
      cases perTransaction with
      | none =>
          simp only [pure_bind, ite_throw_ok_iff,
            ite_ite_throw_ok_iff, hCovers,
            and_congr_right_iff]
          intros
          cases anywhere <;>
            simp [pure, Except.pure, ← hCovers]
      | some cap =>
          simp only [pure_bind, ite_throw_ok_iff,
            ite_ite_throw_ok_iff, cap_ok_iff, hCovers,
            and_congr_right_iff]
          intros
          cases anywhere <;> simp [← hCovers]

private theorem merchant_iff :
    ¬ (!payload.icp.merchants.isEmpty &&
        !payload.icp.merchants.any
          (fun m => m == "*" || m == tenantId)) = true ↔
      payload.icp.merchants = [] ∨
        tenantId ∈ payload.icp.merchants ∨
        "*" ∈ payload.icp.merchants := by
  rw [Bool.and_eq_true, Bool.not_eq_true', Bool.not_eq_true',
    not_and_or, Bool.not_eq_false, Bool.not_eq_false,
    List.isEmpty_iff, List.any_eq_true]
  apply or_congr_right
  constructor
  · rintro ⟨m, hM, hSame⟩
    rw [Bool.or_eq_true, beq_iff_eq, beq_iff_eq] at hSame
    rcases hSame with rfl | rfl
    · exact .inr hM
    · exact .inl hM
  · rintro (hTenant | hAny)
    · exact ⟨tenantId, hTenant, by simp⟩
    · exact ⟨"*", hAny, by simp⟩

private theorem jurisdiction_iff :
    ((payload.icp.jurisdictions.isEmpty ||
          payload.icp.jurisdictions.any (· == "*")) = true ∨
        ∃ actual, jurisdiction = some actual ∧
          payload.icp.jurisdictions.any
            (fun allowed =>
              jurisdictionAuthorizes allowed actual) = true) ↔
      payload.icp.jurisdictions = [] ∨
        "*" ∈ payload.icp.jurisdictions ∨
        ∃ actual, jurisdiction = some actual ∧
          ∃ allowed ∈ payload.icp.jurisdictions,
            SameCode allowed actual ∨
              SameCode allowed (countryPart actual) := by
  simp only [Bool.or_eq_true, List.isEmpty_iff,
    List.any_eq_true, beq_iff_eq, exists_eq_right, or_assoc,
    jurisdictionAuthorizes_iff]

/- The checks of the terms pass exactly when they grant it. -/
theorem checkTerms_ok_iff :
    payload.checkTerms fromTimestamp intentScope
        candidateAmountMinor now tenantId jurisdiction =
          .ok () ↔
      payload.Grants fromTimestamp intentScope
        candidateAmountMinor now tenantId jurisdiction := by
  cases hNbf : fromTimestamp payload.nbf.toInt with
  | none =>
      unfold checkTerms
      rw [hNbf]
      constructor
      · nofun
      · intro hGrants
        obtain ⟨nbf, exp, hSome, _⟩ := hGrants.valid
        rw [hNbf] at hSome
        cases hSome
  | some nbf =>
      cases hExp : fromTimestamp payload.exp.toInt with
      | none =>
          unfold checkTerms
          rw [hNbf, hExp]
          constructor
          · nofun
          · intro hGrants
            obtain ⟨_, exp, _, hSome, _⟩ := hGrants.valid
            rw [hExp] at hSome
            cases hSome
      | some exp =>
          rw [checkTerms_ok_iff_of_window hNbf hExp,
            merchant_iff, jurisdiction_iff]
          constructor
          · rintro ⟨hFrom, hTo, hVersion, hScope, hMerchant,
              hJurisdiction, hPolicy, hCap⟩
            constructor
            · exact ⟨nbf, exp, hNbf, hExp, not_lt.mp hFrom,
                not_lt.mp hTo⟩
            · simpa using hVersion
            · simpa using hScope
            · exact hMerchant
            · exact hJurisdiction
            · simpa using hPolicy
            · exact fun cap hSome =>
                Int64.not_lt.mp (hCap cap hSome)
          · intro hGrants
            obtain ⟨start, stop, hFrom, hTo, hAfter, hBefore⟩ :=
              hGrants.valid
            rw [hNbf] at hFrom
            rw [hExp] at hTo
            cases hFrom
            cases hTo
            refine ⟨not_lt.mpr hAfter, not_lt.mpr hBefore, ?_,
              ?_, hGrants.merchant, hGrants.jurisdiction, ?_,
              fun cap hSome =>
                Int64.not_lt.mpr (hGrants.cap cap hSome)⟩
            · simpa using hGrants.version
            · simpa using hGrants.scope
            · simpa using hGrants.policy

end MandatePayload

end Model

end IcpHandler

------------------------------------------------------------
-- Budget and Signature
------------------------------------------------------------

namespace IcpHandler

namespace Model

/- What of the usage counts in the window around the time. -/
def MandateUsage.spentInWindow
    (usage : MandateUsage)
    (window : Duration)
    (now : DateTime) : Int64 :=
  match usage.windowStart with
  | some start =>
      if now - start ≤ window then usage.spentMinor else 0
  | none => usage.spentMinor

namespace MandatePayload

/-
  The amount fits into what is left of the budget. A mandate
  without a readable period has windows of one day.
-/
def Affords
    (payload : MandatePayload)
    (usage : MandateUsage)
    (candidateAmountMinor : Int64)
    (now : DateTime) : Prop :=
  ∃ period,
    parsePeriod payload.icp.budget.period = .ok period ∧
      candidateAmountMinor ≤
        Saturating.satSub payload.icp.budget.amountMinor
          (usage.spentInWindow
            (period.getD (Duration.days 1)) now)

end MandatePayload

end Model

namespace Service

open Model

/- The payload segment holds the payload. -/
def DecodesTo
    (svc : IcpService)
    (segments : String × String × String)
    (payload : MandatePayload) : Prop :=
  ∃ bytes,
    svc.deps.base64Decode segments.2.1 = some bytes ∧
      svc.deps.mandatePayload bytes = .ok payload

/-
  One of the keys has signed the first two segments. Which key
  the header names does not matter.
-/
def SignedByIssuer
    (svc : IcpService)
    (segments : String × String × String)
    (resolved : Except String (List VerifyingKeyEntry)) :
    Prop :=
  ∃ headerBytes header signature keys,
    svc.deps.base64Decode segments.1 = some headerBytes ∧
      svc.deps.jwsHeader headerBytes = .ok header ∧
      header.alg = "EdDSA" ∧
      svc.deps.base64Decode segments.2.2 = some signature ∧
      signature.length = 64 ∧
      resolved = .ok keys ∧
      ∃ entry ∈ keys,
        svc.deps.verify entry.key
          (segments.1 ++ "." ++ segments.2.1) signature = true

/- The advertised id only changes the order of the keys. -/
theorem candidateKeys_perm
    (kid : Option String)
    (keys : List VerifyingKeyEntry) :
    (candidateKeys kid keys).Perm keys := by
  cases kid with
  | none => exact .refl keys
  | some kid =>
      exact List.filter_append_perm
        (fun key : VerifyingKeyEntry => key.kid == some kid)
        keys

end Service

end IcpHandler

------------------------------------------------------------
-- Evaluation
------------------------------------------------------------

namespace IcpHandler

namespace Service

open Model Protocol Concurrency

variable {svc : IcpService}
variable {rfc3339 : Rfc3339}
variable {thread : Nat}
variable {choices : List Choice}
variable {resolution : Choice}
variable {h : History Eff.Res World}
variable {compactJws : String}
variable {segments : String × String × String}

theorem decodeUnverified_bind_succeeds_iff
    {β : Type}
    {next : MandatePayload → Svc β}
    (hSegments : splitCompact compactJws = .ok segments) :
    (decodeUnverified svc compactJws >>= next).Succeeds
        rfc3339 thread choices h ↔
      ∃ payload, DecodesTo svc segments payload ∧
        (next payload).Succeeds rfc3339 thread choices h := by
  unfold decodeUnverified decodeSegment
  simp only [bind_assoc, Svc.succeeds_ofExcept_bind,
    Svc.succeeds_orFail_bind, hSegments]
  constructor
  · rintro ⟨_, ⟨⟩, bytes, hBytes, payload, hPayload, hNext⟩
    exact ⟨payload, ⟨bytes, hBytes, hPayload⟩, hNext⟩
  · rintro ⟨payload, ⟨bytes, hBytes, hPayload⟩, hNext⟩
    exact ⟨segments, rfl, bytes, hBytes, payload, hPayload,
      hNext⟩

/-
  The signature is accepted exactly when one of the issuer's
  keys verifies it, whichever the header asks for.
-/
theorem verifySignature_bind_succeeds_iff
    {β : Type}
    {issuerDid : String}
    {next : Unit → Svc β}
    (hSegments : splitCompact compactJws = .ok segments)
    (hNext : ∀ h, (next ()).Succeeds rfc3339 thread choices h) :
    (verifySignature svc compactJws issuerDid >>= next).Succeeds
        rfc3339 thread (resolution :: choices) h ↔
      SignedByIssuer svc segments resolution.keys := by
  unfold verifySignature decodeSegment
  simp only [bind_assoc, Svc.succeeds_ofExcept_bind,
    Svc.succeeds_orFail_bind, Svc.succeeds_ensure_bind,
    hSegments]
  constructor
  · rintro ⟨_, ⟨⟩, headerBytes, hHeaderBytes, header, hHeader,
      _, hAlg, signature, hSignature, hLength, hResolve⟩
    have hResolved := Svc.succeeds_resolve_bind.mp hResolve
    simp only [Svc.succeeds_ofExcept_bind,
      Svc.succeeds_ensure_bind] at hResolved
    obtain ⟨keys, hKeys, _, hVerified, _⟩ := hResolved
    rw [List.any_eq_true] at hVerified
    obtain ⟨entry, hEntry, hVerified⟩ := hVerified
    exact ⟨headerBytes, header, signature, keys, hHeaderBytes,
      hHeader, beq_iff_eq.mp hAlg, hSignature,
      beq_iff_eq.mp hLength, hKeys, entry,
      (candidateKeys_perm header.kid keys).mem_iff.mp hEntry,
      hVerified⟩
  · rintro ⟨headerBytes, header, signature, keys, hHeaderBytes,
      hHeader, hAlg, hSignature, hLength, hKeys, entry, hEntry,
      hVerified⟩
    have hCandidate :=
      (candidateKeys_perm header.kid keys).mem_iff.mpr hEntry
    have hSome :
        (!(candidateKeys header.kid keys).isEmpty) = true := by
      rw [Bool.not_eq_true', List.isEmpty_eq_false_iff]
      exact List.ne_nil_of_mem hCandidate
    refine ⟨segments, rfl, headerBytes, hHeaderBytes, header,
      hHeader, ?_, beq_iff_eq.mpr hAlg, signature, hSignature,
      beq_iff_eq.mpr hLength, Svc.succeeds_resolve_bind.mpr ?_⟩
    · rw [hAlg]
      decide
    · simp only [Svc.succeeds_ofExcept_bind,
        Svc.succeeds_ensure_bind]
      exact ⟨keys, hKeys, hSome, List.any_eq_true.mpr
        ⟨entry, hCandidate, hVerified⟩, hNext _⟩

theorem signatureVerified_bind_succeeds_iff
    {β : Type}
    {issuerDid : String}
    {next : Bool → Svc β}
    (hSegments : splitCompact compactJws = .ok segments)
    (hNext :
      ∀ verified choices h,
        (next verified).Succeeds rfc3339 thread choices h) :
    (signatureVerified svc compactJws issuerDid >>=
        next).Succeeds rfc3339 thread (resolution :: choices)
        h ↔
      (svc.config.verifyMandateSignatures = true →
        SignedByIssuer svc segments resolution.keys) := by
  unfold signatureVerified
  split
  case isTrue hVerify =>
    rw [bind_assoc]
    refine (verifySignature_bind_succeeds_iff hSegments
      fun h => hNext true choices h).trans ?_
    exact ⟨fun hSigned _ => hSigned, fun hAll => hAll hVerify⟩
  case isFalse hVerify =>
    constructor
    · exact fun _ hTrue => absurd hTrue hVerify
    · exact fun _ => hNext false (resolution :: choices) h

/- The window has elapsed, or all the usage counts. -/
private theorem effectiveSpent_eq
    (usage : MandateUsage)
    (window : Duration)
    (now : DateTime) :
    (if usage.windowStart.any
        (fun start => decide (now - start > window)) = true then
        0
      else usage.spentMinor) =
      usage.spentInWindow window now := by
  unfold MandateUsage.spentInWindow
  cases usage.windowStart with
  | none => rfl
  | some start =>
      simp only [Option.any_some, decide_eq_true_eq]
      by_cases hElapsed : now - start > window
      · rw [if_pos hElapsed, if_neg (not_le.mpr hElapsed)]
      · rw [if_neg hElapsed, if_pos (not_lt.mp hElapsed)]

/-
  For every token of three segments, every intent, usage and
  keys: evaluation returns exactly when the payload decodes,
  its terms grant the intent, the amount fits into the budget
  left in the window and, if signatures are checked, one of
  the issuer's keys verifies it.
-/
theorem evaluate_ok_iff
    (svc : IcpService)
    (thread : Nat)
    (w : World)
    (resolver :
      String → Except String (List VerifyingKeyEntry))
    (read resolution : Choice)
    (choices : List Choice)
    (compactJws : String)
    (segments : String × String × String)
    (intentScope : String)
    (candidateAmountMinor : Int64)
    (now : DateTime)
    (tenantId : String)
    (jurisdiction : Option String)
    (hSegments : splitCompact compactJws = .ok segments)
    (hReadable : read.fault = false)
    (hResolver :
      ∀ payload, DecodesTo svc segments payload →
        resolution.keys = resolver payload.iss)
    (hPeriod :
      ∀ payload, DecodesTo svc segments payload →
        ∃ period,
          parsePeriod payload.icp.budget.period = .ok period) :
    (∃ evaluation,
      evaluateIn svc thread (read :: resolution :: choices) w
          compactJws intentScope candidateAmountMinor now
          tenantId jurisdiction = some (.ok evaluation)) ↔
      ∃ payload, DecodesTo svc segments payload ∧
        payload.Grants svc.deps.calendar.fromTimestamp
          intentScope candidateAmountMinor now tenantId
          jurisdiction ∧
        payload.Affords
          (w.ledger.usage svc.deps.rfc3339 payload.jti)
          candidateAmountMinor now ∧
        (svc.config.verifyMandateSignatures = true →
          SignedByIssuer svc segments
            (resolver payload.iss)) := by
  have hSucceeds :
      (∃ evaluation,
        evaluateIn svc thread (read :: resolution :: choices) w
            compactJws intentScope candidateAmountMinor now
            tenantId jurisdiction = some (.ok evaluation)) ↔
        (evaluate svc compactJws intentScope
          candidateAmountMinor now tenantId
          jurisdiction).Succeeds svc.deps.rfc3339 thread
            (read :: resolution :: choices) (.start w) := by
    unfold evaluateIn Svc.Succeeds
    constructor
    · rintro ⟨evaluation, hEval⟩
      obtain ⟨⟨result, later⟩, hEval, rfl⟩ :=
        Option.map_eq_some_iff.mp hEval
      exact ⟨evaluation, later, hEval⟩
    · rintro ⟨evaluation, later, hEval⟩
      exact ⟨evaluation, by rw [hEval]; rfl⟩
  rw [hSucceeds]
  unfold evaluate
  rw [decodeUnverified_bind_succeeds_iff hSegments]
  refine exists_congr fun payload => and_congr_right ?_
  intro hDecodes
  obtain ⟨period, hPeriod⟩ := hPeriod payload hDecodes
  have hRead :
      (History.start w : History Eff.Res World).world.ledger.tryUsage
          svc.deps.rfc3339 read.fault payload.jti =
        .ok (w.ledger.usage svc.deps.rfc3339 payload.jti) := by
    rw [hReadable]
    rfl
  have hBudget :
      budgetPeriod payload.icp.budget.period = pure period := by
    unfold budgetPeriod
    rw [hPeriod]
  have hAffords :
      payload.Affords
          (w.ledger.usage svc.deps.rfc3339 payload.jti)
          candidateAmountMinor now ↔
        (!decide
          (candidateAmountMinor >
            Saturating.satSub payload.icp.budget.amountMinor
              ((w.ledger.usage svc.deps.rfc3339
                payload.jti).spentInWindow
                  (period.getD (Duration.days 1)) now))) =
          true := by
    rw [Bool.not_eq_true', decide_eq_false_iff_not]
    unfold MandatePayload.Affords
    rw [hPeriod]
    constructor
    · rintro ⟨_, ⟨⟩, hFits⟩
      exact Int64.not_lt.mpr hFits
    · exact fun hFits => ⟨period, rfl, Int64.not_lt.mp hFits⟩
  rw [← hResolver payload hDecodes,
    Svc.succeeds_ofExcept_bind,
    ← MandatePayload.checkTerms_ok_iff, hAffords]
  constructor
  · rintro ⟨⟨⟩, hTerms, hRest⟩
    have hRest := Svc.succeeds_tryUsage_bind.mp hRest
    rw [hRead] at hRest
    obtain ⟨usage, hUsage, hRest⟩ :=
      Svc.succeeds_ofExcept_bind.mp hRest
    cases hUsage
    rw [hBudget, pure_bind] at hRest
    dsimp only at hRest
    rw [effectiveSpent_eq, Svc.succeeds_ensure_bind] at hRest
    exact ⟨hTerms, hRest.1,
      (signatureVerified_bind_succeeds_iff hSegments
        fun _ _ _ => Svc.succeeds_pure _).mp hRest.2⟩
  · rintro ⟨hTerms, hFits, hSigned⟩
    refine ⟨(), hTerms, Svc.succeeds_tryUsage_bind.mpr ?_⟩
    rw [hRead]
    refine Svc.succeeds_ofExcept_bind.mpr ⟨_, rfl, ?_⟩
    rw [hBudget, pure_bind]
    dsimp only
    rw [effectiveSpent_eq, Svc.succeeds_ensure_bind]
    exact ⟨hFits,
      (signatureVerified_bind_succeeds_iff hSegments
        fun _ _ _ => Svc.succeeds_pure _).mpr hSigned⟩

/- The sample mandate is the only payload of its segments. -/
private theorem decodesTo_sample
    {payload : MandatePayload}
    (hDecodes :
      DecodesTo mandateService
        ("eyJhbGciOiJFZERTQSJ9", sampleMandateSegment, "c2ln")
        payload) : payload = sampleMandate := by
  obtain ⟨bytes, hBytes, hPayload⟩ := hDecodes
  have hSegment :
      mandateService.deps.base64Decode sampleMandateSegment =
        some sampleMandateBytes := by
    simp only [mandateService, if_true]
  have hSample :
      mandateService.deps.mandatePayload sampleMandateBytes =
        .ok sampleMandate := by
    simp only [mandateService, if_true]
  rw [hSegment] at hBytes
  rw [← Option.some.inj hBytes, hSample] at hPayload
  exact (Except.ok.inj hPayload).symm

theorem evaluate_ok_iff_sample :
    (∃ evaluation,
      evaluateIn mandateService 0 [{}, {}]
          (.fresh (.sqlite ∅) []) sampleMandateJws "buy" 60 0
          "acme" none = some (.ok evaluation)) ↔
      ∃ payload,
        DecodesTo mandateService
          ("eyJhbGciOiJFZERTQSJ9", sampleMandateSegment,
            "c2ln") payload ∧
        payload.Grants
          mandateService.deps.calendar.fromTimestamp "buy" 60
          0 "acme" none ∧
        payload.Affords
          ((World.fresh (.sqlite ∅) []).ledger.usage
            mandateService.deps.rfc3339 payload.jti) 60 0 ∧
        (mandateService.config.verifyMandateSignatures = true →
          SignedByIssuer mandateService
            ("eyJhbGciOiJFZERTQSJ9", sampleMandateSegment,
              "c2ln") (.ok [])) := by
  refine evaluate_ok_iff mandateService 0
    (.fresh (.sqlite ∅) []) (fun _ => .ok []) {} {} []
    sampleMandateJws
    ("eyJhbGciOiJFZERTQSJ9", sampleMandateSegment, "c2ln")
    "buy" 60 0 "acme" none splitCompact_sample rfl
    (fun _ _ => rfl) ?_
  intro payload hDecodes
  rw [decodesTo_sample hDecodes]
  exact ⟨none, rfl⟩

end Service

end IcpHandler
