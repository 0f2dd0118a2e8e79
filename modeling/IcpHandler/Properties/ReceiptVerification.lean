import IcpHandler.Model.Concrete
import IcpHandler.Model.Receipts
import IcpHandler.Protocol.IdempotentRuns

/-
  Receipts verify. A response to a state change, also when it
  is replayed from the cache, is one that `verify_receipt`
  accepts for its own canonical form, and for no other.

  Main declarations:
    * `ReceiptVerifies`, `SameResponse`
    * `Receipted`, `FirstResponse`
    * `receipts_verify`
-/

------------------------------------------------------------
-- Signed Claims
------------------------------------------------------------

namespace IcpHandler

namespace Model

namespace ReceiptSigner

variable {deps : Deps}
variable {packages : Packages}
variable {signer : ReceiptSigner}

private theorem decodeSegment_encode
    (hBehaves : signer.Behaves deps packages)
    (name : String)
    (bytes : List UInt8) :
    decodeSegment deps name (packages.base64Encode bytes) =
      .ok bytes := by
  rw [decodeSegment, hBehaves.base64_decode]

private theorem checkHeader_own :
    signer.checkHeader signer.header = .ok () := by
  simp [checkHeader, header]
  rfl

private theorem checkSignature_own
    (hBehaves : signer.Behaves deps packages)
    (signingInput : String) :
    signer.checkSignature deps signingInput
        (packages.sign signer.signingKey signingInput) =
      .ok () := by
  simp [checkSignature, hBehaves.sign_length,
    hBehaves.sign_verifies]
  rfl

/- The segments of what was signed. -/
private theorem signJws_cases
    {claims : ReceiptClaims}
    {jws : String}
    (hSigned : signer.signJws packages claims = .ok jws) :
    ∃ headerBytes payloadBytes signingInput,
      packages.headerToVec signer.header = .ok headerBytes ∧
        packages.jcsClaims claims = .ok payloadBytes ∧
        signingInput =
          packages.base64Encode headerBytes ++ "." ++
            packages.base64Encode payloadBytes ∧
        jws =
          packages.base64Encode headerBytes ++ "." ++
            (packages.base64Encode payloadBytes ++ "." ++
              packages.base64Encode
                (packages.sign signer.signingKey
                  signingInput)) := by
  unfold signJws at hSigned
  cases hHeader : packages.headerToVec signer.header with
  | error e =>
      rw [hHeader] at hSigned
      cases hSigned
  | ok headerBytes =>
      cases hPayload : packages.jcsClaims claims with
      | error e =>
          rw [hHeader, hPayload] at hSigned
          cases hSigned
      | ok payloadBytes =>
          rw [hHeader, hPayload] at hSigned
          refine ⟨headerBytes, payloadBytes, _, rfl, rfl, rfl,
            ?_⟩
          rw [← Except.ok.inj hSigned]
          simp only [String.append_assoc]

/- What the handler has signed it accepts. -/
theorem signedClaims_signJws
    (hBehaves : signer.Behaves deps packages)
    {claims : ReceiptClaims}
    {jws : String}
    (hExact : claims.ExactTime)
    (hSigned : signer.signJws packages claims = .ok jws) :
    signer.signedClaims deps packages jws = .ok claims := by
  obtain ⟨headerBytes, payloadBytes, signingInput, hHeader,
    hPayload, hInput, rfl⟩ := signJws_cases hSigned
  have hReadHeader :
      packages.headerOfSlice headerBytes = .ok signer.header :=
    hBehaves.header_text _ _ _ hHeader
      (ReceiptHeader.ofJson?_toJson _)
  have hReadClaims :
      packages.claimsOfSlice payloadBytes = .ok claims :=
    hBehaves.claims_text _ _ _ hPayload hExact
      (ReceiptClaims.ofJson?_toJson hExact)
  unfold signedClaims splitReceipt
  rw [Text.splitOn_segments
    (hBehaves.base64_no_dot headerBytes)
    (hBehaves.base64_no_dot payloadBytes)
    (hBehaves.base64_no_dot _)]
  simp only [decodeSegment_encode hBehaves, hReadHeader,
    checkHeader_own, hReadClaims, ← hInput,
    checkSignature_own hBehaves, bind, Except.bind,
    Except.mapError]

/-
  Under the key that signed them, the claims verify with the
  body they were signed over, and with no other bytes.
-/
theorem verifyReceipt_signJws
    (hBehaves : signer.Behaves deps packages)
    {claims : ReceiptClaims}
    {jws : String}
    {bytes : List UInt8}
    (hExact : claims.ExactTime)
    (hSigned : signer.signJws packages claims = .ok jws)
    (hDigest :
      claims.icp.bodyDigest =
        "sha256:" ++ deps.bodySha256 bytes) :
    signer.verifyReceipt deps packages jws none = .ok claims ∧
      signer.verifyReceipt deps packages jws (some bytes) =
        .ok claims ∧
      ∀ other, other ≠ bytes →
        ∃ e, signer.verifyReceipt deps packages jws
          (some other) = .error e := by
  have hClaims := signedClaims_signJws hBehaves hExact hSigned
  unfold verifyReceipt
  rw [hClaims]
  refine ⟨rfl, ?_, ?_⟩
  · simp only [bind, Except.bind, checkDigest, hDigest, ne_eq,
      not_true_eq_false, if_false]
    rfl
  · intro other hOther
    have hApart :
        claims.icp.bodyDigest ≠
          "sha256:" ++ deps.bodySha256 other := by
      rw [hDigest]
      intro hSame
      apply hOther
      apply hBehaves.collision_free
      exact (String.append_right_inj "sha256:").mp hSame.symm
    simp only [bind, Except.bind, checkDigest, hApart, ne_eq,
      not_false_eq_true, if_true]
    exact ⟨_, rfl⟩

end ReceiptSigner

end Model

end IcpHandler

------------------------------------------------------------
-- Responses That Verify
------------------------------------------------------------

namespace IcpHandler

namespace Model

/-
  The same response. In which order the list of its references
  is kept says nothing.
-/
def SameResponse (body body' : IntentResponseBody) : Prop :=
  body.inKeyOrder = body'.inKeyOrder

/-
  With `jti`, `jws` and `body_digest` blank, the canonical form
  of the response has the digest that the signed claims name;
  the receipt verifies with it, and with no other bytes.
-/
def ReceiptVerifies
    (deps : Deps)
    (packages : Packages)
    (signer : ReceiptSigner)
    (body : IntentResponseBody) : Prop :=
  ∃ claims bytes,
    packages.jcs
        (blankReceipt (body.toJson packages.times)) =
      .ok bytes ∧
    claims.icp.bodyDigest =
      "sha256:" ++ deps.bodySha256 bytes ∧
    signer.verifyReceipt deps packages body.receipt.jws none =
      .ok claims ∧
    signer.verifyReceipt deps packages body.receipt.jws
        (some bytes) =
      .ok claims ∧
    ∀ other, other ≠ bytes →
      ∃ e, signer.verifyReceipt deps packages body.receipt.jws
        (some other) = .error e

namespace IntentResponseBody

variable (times : TimeText)

/- The response before the signature was filled in. -/
def unsigned (body : IntentResponseBody) : IntentResponseBody :=
  { body with receipt := ⟨"", body.receipt.kid, "", ""⟩ }

private theorem blankStub_toJson
    (receipt : ReceiptStub) :
    blankStub receipt.toJson =
      (⟨"", receipt.kid, "", ""⟩ : ReceiptStub).toJson := by
  simp [blankStub, ReceiptStub.toJson, Members.toJson,
    Members.present, ReceiptStub.members]

/- The verifier blanks what the signer had left blank. -/
theorem blankReceipt_toJson
    (body : IntentResponseBody) :
    blankReceipt (body.toJson times) =
      body.unsigned.toJson times := by
  have hStub := blankStub_toJson body.receipt
  rcases body with ⟨intent, intentId, transaction, order,
    subscription, peerQuote, receipt, envelope⟩
  cases order <;> cases subscription <;> cases peerQuote <;>
    simpa [blankReceipt, toJson, Members.toJson,
      Members.present, members, unsigned] using hStub

end IntentResponseBody

variable {deps : Deps}
variable {packages : Packages}
variable {signer : ReceiptSigner}

theorem SameResponse.toJson_eq
    {body body' : IntentResponseBody}
    (hSame : SameResponse body body')
    (times : TimeText) :
    body.toJson times = body'.toJson times := by
  rw [← IntentResponseBody.toJson_inKeyOrder, hSame,
    IntentResponseBody.toJson_inKeyOrder]

/- The same response verifies alike. -/
theorem ReceiptVerifies.of_same
    {body body' : IntentResponseBody}
    (hVerifies : ReceiptVerifies deps packages signer body)
    (hSame : SameResponse body body') :
    ReceiptVerifies deps packages signer body' := by
  have hReceipt : body'.receipt = body.receipt :=
    (congrArg IntentResponseBody.receipt hSame).symm
  unfold ReceiptVerifies
  rw [← hSame.toJson_eq packages.times, hReceipt]
  exact hVerifies

end Model

end IcpHandler

------------------------------------------------------------
-- Signed Responses
------------------------------------------------------------

namespace IcpHandler

namespace Protocol

open Model Service Concurrency

/-
  The receipt was filled in with claims over the response as
  it was without them.
-/
structure Filled
    (svc : IcpService)
    (body : IntentResponseBody)
    (claims : ReceiptClaims)
    (jws : String) : Prop where
  digest :
    ∃ bytes,
      svc.deps.jcsBody
          { body with receipt := unsignedReceipt svc } =
        .ok bytes ∧
      claims.icp.bodyDigest =
        "sha256:" ++ svc.deps.bodySha256 bytes
  issued : ∃ instant, claims.iat = svc.deps.timestamp instant
  stub :
    body.receipt =
      ⟨claims.jti, svc.signerKid, jws, claims.icp.bodyDigest⟩

/- The intent that a response names is a state change. -/
def StateChanging (body : IntentResponseBody) : Prop :=
  ∃ intent : Intent,
    body.intent = intent.wireName ∧
      intent.isStateChange = true

/- A response to a state change has been signed. -/
def Receipted
    (svc : IcpService)
    (signs : ReceiptClaims → String → Prop)
    (body : IntentResponseBody) : Prop :=
  StateChanging body →
    ∃ claims jws, signs claims jws ∧ Filled svc body claims jws

theorem Receipted.mono
    {svc : IcpService}
    {signs signs' : ReceiptClaims → String → Prop}
    {body : IntentResponseBody}
    (hReceipted : Receipted svc signs body)
    (hSigns :
      ∀ claims jws, signs claims jws → signs' claims jws) :
    Receipted svc signs' body := by
  intro hChanging
  obtain ⟨claims, jws, hSigned, hFilled⟩ :=
    hReceipted hChanging
  exact ⟨claims, jws, hSigns claims jws hSigned, hFilled⟩

/- The signature of the claims is among the moves. -/
def SignedIn
    (past : Moves)
    (claims : ReceiptClaims)
    (jws : String) : Prop :=
  (⟨.signClaims claims, .ok jws⟩ : Move Eff.Res) ∈ past

section Verification

variable {svc : IcpService}
variable {packages : Packages}
variable {signer : ReceiptSigner}

/- A filled receipt verifies. -/
theorem Filled.verifies
    {body : IntentResponseBody}
    {claims : ReceiptClaims}
    {jws : String}
    (hBehaves : signer.Behaves svc.deps packages)
    (hFilled : Filled svc body claims jws)
    (hSigned : signer.signJws packages claims = .ok jws) :
    ReceiptVerifies svc.deps packages signer body := by
  obtain ⟨bytes, hCanonical, hDigest⟩ := hFilled.digest
  obtain ⟨instant, hIssued⟩ := hFilled.issued
  have hExact : claims.ExactTime := by
    unfold ReceiptClaims.ExactTime
    rw [hIssued]
    exact hBehaves.timestamp_bound instant
  have hUnsigned :
      body.unsigned =
        { body with receipt := unsignedReceipt svc } := by
    unfold IntentResponseBody.unsigned
    rw [hFilled.stub]
    rfl
  have hBytes :
      packages.jcs
          (blankReceipt (body.toJson packages.times)) =
        .ok bytes := by
    rw [IntentResponseBody.blankReceipt_toJson, hUnsigned,
      ← hBehaves.jcs_body, hCanonical]
  have hJws : body.receipt.jws = jws := by rw [hFilled.stub]
  unfold ReceiptVerifies
  rw [hJws]
  exact ⟨claims, bytes, hBytes, hDigest,
    ReceiptSigner.verifyReceipt_signJws hBehaves hExact hSigned
      hDigest⟩

end Verification

end Protocol

end IcpHandler

------------------------------------------------------------
-- Tracing a Response
------------------------------------------------------------

namespace IcpHandler

namespace Protocol

open Model Service Concurrency

section Tracing

variable {svc : IcpService}
variable {input : IntentInput}
variable {past : Moves}

/- Nothing is asked of a block on the way. -/
private theorem meets_unasked
    {α : Type}
    {body : Svc α}
    {Q : α → Moves → Prop}
    (hQ : ∀ value later, Q value later) :
    body.Meets (fun _ _ => True) Q (fun _ _ => True) past := by
  refine Prog.Traced.of_forall (fun _ _ => trivial) ?_ _ _
  intro result later
  cases result with
  | ok value => exact hQ value later
  | error halt => exact trivial

/- A block adds to the moves there are. -/
private theorem meets_appends
    {α : Type}
    (body : Svc α)
    (past : Moves) :
    body.Meets (fun _ _ => True)
      (fun _ later => ∃ recent, later = recent ++ past)
      (fun _ _ => True) past := by
  refine (Prog.Traced.appends body.run past).mono ?_
  intro result later hRecent
  cases result with
  | ok value => exact hRecent
  | error halt => exact trivial

private theorem meets_signed
    {intent : Intent}
    {mandate : Option MandateEvaluation}
    {body : IntentResponseBody}
    (hUnsigned : body.receipt = unsignedReceipt svc) :
    (signReceipt svc intent input mandate body).Meets
      (fun _ _ => True)
      (fun receipt later =>
        ∃ claims jws, SignedIn later claims jws ∧
          Filled svc { body with receipt := receipt } claims
            jws)
      (fun _ _ => True) past := by
  unfold signReceipt
  simp only [Svc.meets_bind, Svc.meets_ofExcept,
    Svc.meets_pure]
  refine ⟨fun bytes hBytes => ?_, fun _ _ => trivial⟩
  refine ⟨trivial, fun now => ⟨trivial, fun token => ?_⟩⟩
  refine ⟨trivial, fun signed => ⟨fun jws hJws => ?_,
    fun _ _ => trivial⟩⟩
  subst hJws
  refine ⟨trivial, fun _ => ?_⟩
  refine ⟨_, jws, List.mem_cons_of_mem _ List.mem_cons_self,
    ⟨⟨bytes, ?_, rfl⟩, ⟨now, rfl⟩, rfl⟩⟩
  rw [← hUnsigned]
  exact hBytes

/- A signed receipt, or one that no state change asks for. -/
private theorem meets_receipt
    {intent : Intent}
    {mandate : Option MandateEvaluation}
    {body : IntentResponseBody}
    (hUnsigned : body.receipt = unsignedReceipt svc) :
    (receiptFor svc intent input mandate body).Meets
      (fun _ _ => True)
      (fun receipt later =>
        intent.isStateChange = true →
          ∃ claims jws, SignedIn later claims jws ∧
            Filled svc { body with receipt := receipt } claims
              jws)
      (fun _ _ => True) past := by
  unfold receiptFor
  split
  · refine (meets_signed hUnsigned).mono ?_
      fun _ _ _ => trivial
    exact fun receipt later hSigned _ => hSigned
  · rename_i hRead
    rw [Svc.meets_pure]
    exact fun hChange => absurd hChange hRead

private theorem meets_response
    {intent : Intent}
    {mandate : Option MandateEvaluation}
    {outcome : Outcome} :
    (respond svc intent input mandate outcome).Meets
      (fun _ _ => True)
      (fun body later => Receipted svc (SignedIn later) body)
      (fun _ _ => True) past := by
  unfold respond
  simp only [Svc.meets_bind, Svc.meets_pure]
  rw [Svc.meets_act]
  refine ⟨trivial, fun issuedAt => ?_⟩
  refine meets_unasked fun intentId later => ?_
  apply Svc.Meets.mono
  · exact meets_receipt rfl
  · intro receipt signedAt hReceipt
    -- the announcement takes no move away
    refine (meets_appends _ signedAt).mono ?_
      fun _ _ _ => trivial
    rintro _ _ ⟨recent, rfl⟩ ⟨intent', hName, hChange⟩
    have hIntent : intent' = intent :=
      Intent.wireName_inj hName.symm
    subst hIntent
    obtain ⟨claims, jws, hSigned, hFilled⟩ := hReceipt hChange
    exact ⟨claims, jws, List.mem_append_right _ hSigned,
      hFilled⟩
  · exact fun _ _ _ => trivial

/- Every response that the handler builds has its receipt. -/
theorem handleIntent_receipted :
    (handleIntent svc input).Meets (fun _ _ => True)
      (fun body later => Receipted svc (SignedIn later) body)
      (fun _ _ => True) past := by
  unfold handleIntent
  rw [Svc.meets_bind]
  refine meets_unasked fun _ _ => ?_
  rw [Svc.meets_bind, Svc.meets_ofExcept]
  refine ⟨fun intent _ => ?_, fun _ _ => trivial⟩
  rw [Svc.meets_bind]
  refine meets_unasked fun mandate _ => ?_
  rw [Svc.meets_bind]
  refine meets_unasked fun _ _ => ?_
  rw [Svc.meets_bind]
  exact meets_unasked fun outcome _ => meets_response

end Tracing

end Protocol

end IcpHandler

------------------------------------------------------------
-- Tracing a Protected Request
------------------------------------------------------------

namespace IcpHandler

namespace Protocol

open Model Service Concurrency

/- The signature of the claims is among a request's moves. -/
def SignedWithin
    (past : DedupMoves)
    (claims : ReceiptClaims)
    (jws : String) : Prop :=
  (⟨.inner (.signClaims claims), .ok jws⟩ :
    Move DedupEff.Res) ∈ past

/- A response is recorded. -/
def records : Move DedupEff.Res → Bool
  | ⟨.record _ _ _ _, _⟩ => true
  | _ => false

/- What is recorded is the text of a signed response. -/
def RecordRule
    (svc : IcpService)
    (past : DedupMoves) : DedupEff → Prop
  | .record _ _ response _ =>
      ∃ body, svc.deps.bodyToText body = .ok response.bodyJson ∧
        Receipted svc (SignedWithin past) body
  | _ => True

/-
  An execution answers with a signed response, and where it
  has recorded one it answers with that.
-/
structure RecordPost
    (svc : IcpService)
    (result : ExecutionResult)
    (past : DedupMoves) : Prop where
  receipted :
    ∀ body, result = .ok ⟨body, false⟩ →
      Receipted svc (SignedWithin past) body
  recorded :
    ∀ key digest response token answer,
      (⟨.record key digest response token, answer⟩ :
        Move DedupEff.Res) ∈ past →
      ∃ body, result = .ok ⟨body, false⟩ ∧
        svc.deps.bodyToText body = .ok response.bodyJson

section Tracing

variable {svc : IcpService}
variable {input : IntentInput}
variable {explicitKey : Option String}
variable {past : DedupMoves}

/- Nothing was recorded, and nothing is executed. -/
private theorem recordPost_of_none
    {result : ExecutionResult}
    (hPast : ∀ move ∈ past, records move = false)
    (hResult : ∀ body, result ≠ .ok ⟨body, false⟩) :
    RecordPost svc result past where
  receipted body hBody := absurd hBody (hResult body)
  recorded _ _ _ _ _ hMove := nomatch hPast _ hMove

private theorem recordPost_error
    (halt : Halt)
    (hPast : ∀ move ∈ past, records move = false) :
    RecordPost svc (.error halt) past := by
  apply recordPost_of_none hPast
  intro body hSame
  cases hSame

private theorem unrecorded_cons
    {move : Move DedupEff.Res}
    (hMove : records move = false)
    (hPast : ∀ move ∈ past, records move = false) :
    ∀ other ∈ move :: past, records other = false :=
  List.forall_mem_cons.mpr ⟨hMove, hPast⟩

/- A replay executes nothing. -/
private theorem replay_not_executed
    (cached : CachedResponse)
    (body : IntentResponseBody) :
    replay svc cached ≠ .ok ⟨body, false⟩ := by
  unfold replay
  split
  · intro hSame
    cases hSame
  · exact nofun

/- The intent of a request comes back with its receipt. -/
private theorem runInner_receipted
    (hPast : ∀ move ∈ past, records move = false) :
    (runInner (handleIntent svc input)).Traced
      (RecordRule svc)
      (fun outcome later =>
        (∀ body, outcome = .ok body →
          Receipted svc (SignedWithin later) body) ∧
        ∀ move ∈ later, records move = false) past := by
  refine (runInner_yields (fun _ _ => trivial)
    (handleIntent svc input) past).mono ?_
  rintro outcome later ⟨inner, hYields, rfl⟩
  constructor
  · rintro body rfl
    have hReceipted :
        Receipted svc (SignedIn (inner.reverse ++ [])) body :=
      hYields.post handleIntent_receipted
    refine hReceipted.mono fun claims jws hSigned => ?_
    unfold SignedIn at hSigned
    rw [List.append_nil, List.mem_reverse] at hSigned
    apply List.mem_append_left
    rw [List.mem_reverse]
    exact List.mem_map_of_mem hSigned
  · intro move hMove
    rcases List.mem_append.mp hMove with hInner | hOld
    · rw [List.mem_reverse, List.mem_map] at hInner
      obtain ⟨effect, _, rfl⟩ := hInner
      rfl
    · exact hPast move hOld

/-
  Under a claim the response is recorded once, and answered.
-/
private theorem executeClaimed_recorded
    {key digest token lock : String}
    (hPast : ∀ move ∈ past, records move = false) :
    (executeClaimed svc input key digest token lock).Traced
      (RecordRule svc) (RecordPost svc) past := by
  unfold executeClaimed
  refine Prog.Traced.bind_iff.mpr ?_
  refine (runInner_receipted hPast).mono ?_
  rintro outcome later ⟨hReceipted, hLater⟩
  rcases outcome with (e | message) | body
  · refine traced_perform.mpr ⟨trivial, fun _ => ?_⟩
    refine traced_perform.mpr ⟨trivial, fun _ => ?_⟩
    exact recordPost_error _
      (unrecorded_cons rfl (unrecorded_cons rfl hLater))
  · refine traced_perform.mpr ⟨trivial, fun _ => ?_⟩
    exact recordPost_error _ (unrecorded_cons rfl hLater)
  · have hBody := hReceipted body rfl
    dsimp only
    cases hText : svc.deps.bodyToText body with
    | error e =>
        refine traced_perform.mpr ⟨trivial, fun _ => ?_⟩
        exact recordPost_error _ (unrecorded_cons rfl hLater)
    | ok text =>
        refine traced_perform.mpr
          ⟨⟨body, hText, hBody⟩, fun answer => ?_⟩
        refine traced_perform.mpr ⟨trivial, fun _ => ?_⟩
        constructor
        · intro other hOther
          cases hOther
          exact hBody.mono fun claims jws hSigned =>
            List.mem_cons_of_mem _
              (List.mem_cons_of_mem _ hSigned)
        · intro key' digest' response token' answer' hMove
          refine ⟨body, rfl, ?_⟩
          rcases List.mem_cons.mp hMove with hUnlock | hMove
          · cases hUnlock
          rcases List.mem_cons.mp hMove with hRecord | hOld
          · cases hRecord
            exact hText
          · exact nomatch hLater _ hOld

private theorem awaitResponse_unrecorded
    {tenantId key digest : String}
    (hPast : ∀ move ∈ past, records move = false)
    (polls : Nat) :
    (awaitResponse svc tenantId key digest polls).Traced
      (RecordRule svc) (RecordPost svc) past := by
  induction polls generalizing past with
  | zero => exact recordPost_error _ hPast
  | succ polls ih =>
      unfold awaitResponse
      refine traced_perform.mpr ⟨trivial, ?_⟩
      rintro ⟨readAt, outcome⟩
      have hLater :
          ∀ move ∈ (⟨.lookup (tenantId, key) digest,
              (readAt, outcome)⟩ :: past : DedupMoves),
            records move = false :=
        unrecorded_cons rfl hPast
      cases outcome with
      | replay cached =>
          exact recordPost_of_none hLater
            (replay_not_executed cached)
      | conflict => exact recordPost_error _ hLater
      | miss => exact ih hLater

private theorem executeUnderKey_recorded
    {key digest : String}
    (hPast : ∀ move ∈ past, records move = false) :
    (executeUnderKey svc input key digest).Traced
      (RecordRule svc) (RecordPost svc) past := by
  unfold executeUnderKey
  refine traced_perform.mpr ⟨trivial, fun _ => ?_⟩
  refine traced_perform.mpr ⟨trivial, ?_⟩
  rintro ⟨claimedAt, outcome⟩
  have hClaimed :
      ∀ move ∈ (⟨.reserve (input.tenant.tenantId, key) digest
            (claimLease svc), (claimedAt, outcome)⟩ ::
          ⟨.inner (.lock (idempotencyLock input.tenant.tenantId
            key)), ()⟩ :: past : DedupMoves),
        records move = false :=
    unrecorded_cons rfl (unrecorded_cons rfl hPast)
  cases outcome with
  | won token => exact executeClaimed_recorded hClaimed
  | replay cached =>
      refine traced_perform.mpr ⟨trivial, fun _ => ?_⟩
      exact recordPost_of_none (unrecorded_cons rfl hClaimed)
        (replay_not_executed cached)
  | conflict =>
      refine traced_perform.mpr ⟨trivial, fun _ => ?_⟩
      exact recordPost_error _ (unrecorded_cons rfl hClaimed)
  | inProgress =>
      refine traced_perform.mpr ⟨trivial, fun _ => ?_⟩
      exact awaitResponse_unrecorded
        (unrecorded_cons rfl hClaimed) maxPolls

private theorem executeAdmitted_recorded
    (hPast : ∀ move ∈ past, records move = false) :
    (executeAdmitted svc input explicitKey).Traced
      (RecordRule svc) (RecordPost svc) past := by
  unfold executeAdmitted
  cases effectiveKey input explicitKey with
  | none =>
      refine Prog.Traced.bind_iff.mpr
        ((runInner_receipted hPast).mono ?_)
      rintro (halt | body) later ⟨hReceipted, hLater⟩
      · exact recordPost_error halt hLater
      · constructor
        · intro other hOther
          cases hOther
          exact hReceipted body rfl
        · exact fun _ _ _ _ _ hMove => nomatch hLater _ hMove
  | some name =>
      dsimp only
      cases requestDigest svc input.envelope with
      | error e => exact recordPost_error _ hPast
      | ok digest => exact executeUnderKey_recorded hPast

theorem handleIntentIdempotent_recorded :
    (handleIntentIdempotent svc input explicitKey).Traced
      (RecordRule svc) (RecordPost svc) [] := by
  have hNone :
      ∀ move ∈ ([] : DedupMoves), records move = false := by
    simp
  unfold handleIntentIdempotent
  split
  · exact executeAdmitted_recorded hNone
  · refine traced_perform.mpr ⟨trivial, ?_⟩
    rintro (e | allowed)
    · exact recordPost_error _ (unrecorded_cons rfl hNone)
    · cases allowed with
      | false =>
          exact recordPost_error _ (unrecorded_cons rfl hNone)
      | true =>
          exact executeAdmitted_recorded
            (unrecorded_cons rfl hNone)

end Tracing

end Protocol

end IcpHandler

------------------------------------------------------------
-- Runs
------------------------------------------------------------

namespace IcpHandler

namespace Protocol

open Model Service Concurrency

/- Every signature was made by the signer of the handler. -/
def SignsWith
    (packages : Packages)
    (signer : ReceiptSigner)
    (past : List DedupHappening) : Prop :=
  ∀ o ∈ past, ∀ claims jws,
    o.move = ⟨.inner (.signClaims claims), .ok jws⟩ →
    signer.signJws packages claims = .ok jws

/-
  The response that was first returned. An execution answers
  with its own. A replay answers with one that a request under
  the same key has recorded, and has returned where it has
  come to an end.
-/
def FirstResponse
    (svc : IcpService)
    (ops : Nat → DedupOp)
    (pool : Pool DedupEff.Res DedupWorld DedupResult)
    (thread : Nat)
    (execution : IntentExecution)
    (first : IntentResponseBody) : Prop :=
  (execution.replayed = false ∧ first = execution.body) ∨
  (execution.replayed = true ∧
    ∃ key digest response since,
      Protects svc (ops thread) key digest ∧
        ∃ o ∈ pool.history.past,
          Recorded key digest response since o ∧
            Protects svc (ops o.thread) key digest ∧
            svc.deps.bodyToText first =
              .ok response.bodyJson ∧
            ∀ result,
              pool.threads o.thread =
                .ret (.answered result) →
              result = .ok ⟨first, false⟩)

/- What an operation on the cache ends with. -/
private def RecordEnd
    (svc : IcpService)
    (result : DedupResult)
    (past : DedupMoves) : Prop :=
  ∀ answer, result = .answered answer →
    RecordPost svc answer past

private theorem dedupProg_recorded
    (svc : IcpService)
    (op : DedupOp) :
    (op.prog svc).Traced (RecordRule svc) (RecordEnd svc)
      [] := by
  cases op with
  | sweep =>
      refine ⟨trivial, fun _ => ?_⟩
      intro answer hAnswer
      cases hAnswer
  | request input explicitKey =>
      refine Prog.Traced.bind_iff.mpr
        (handleIntentIdempotent_recorded.mono ?_)
      intro result later hPost answer hAnswer
      cases hAnswer
      exact hPost

section Runs

variable {svc : IcpService}
variable {packages : Packages}
variable {signer : ReceiptSigner}
variable {ops : Nat → DedupOp}
variable {w : DedupWorld}
variable {pool : Pool DedupEff.Res DedupWorld DedupResult}

private theorem traced_recorded
    (hReaches : DedupReaches svc ops w pool) :
    Lawful (dedupMachine svc.deps.rfc3339)
        (fun _ => RecordRule svc) w pool.history ∧
      ∀ thread, (pool.threads thread).Traced (RecordRule svc)
        (RecordEnd svc) (own thread pool.history.past) := by
  rcases hReaches with ⟨schedule, hRun⟩
  refine Pool.run_lawful .start ?_ hRun
  exact fun thread => dedupProg_recorded svc (ops thread)

/- The signatures of one thread are those of the signer. -/
private theorem SignsWith.own
    {past : List DedupHappening}
    {thread : Nat}
    (hSigns : SignsWith packages signer past)
    {claims : ReceiptClaims}
    {jws : String}
    (hSigned :
      SignedWithin (Concurrency.own thread past) claims jws) :
    signer.signJws packages claims = .ok jws := by
  obtain ⟨o, hMem, _, hMove⟩ := mem_own_iff.mp hSigned
  exact hSigns o hMem claims jws hMove

/-
  What was recorded is the text of a signed response, which
  the request answers with where it has ended.
-/
private theorem recorded_first
    (hReaches : DedupReaches svc ops w pool)
    (hSigns : SignsWith packages signer pool.history.past)
    {o : DedupHappening}
    (hMem : o ∈ pool.history.past)
    {key : IdempotencyKey}
    {digest : String}
    {response : CachedResponse}
    {since : DateTime}
    (hRecorded : Recorded key digest response since o) :
    ∃ first,
      svc.deps.bodyToText first = .ok response.bodyJson ∧
        Receipted svc
          (fun claims jws =>
            signer.signJws packages claims = .ok jws) first ∧
        ∀ result,
          pool.threads o.thread = .ret (.answered result) →
          result = .ok ⟨first, false⟩ := by
  obtain ⟨hLawful, hTraced⟩ := traced_recorded hReaches
  obtain ⟨token, hMove⟩ := hRecorded
  by_cases hEnded :
      ∃ result, pool.threads o.thread = .ret (.answered result)
  · -- it has ended: its answer is the response
    obtain ⟨result, hReturned⟩ := hEnded
    have hEnd := hTraced o.thread
    rw [hReturned] at hEnd
    have hPost := hEnd result rfl
    obtain ⟨first, hFirst, hText⟩ :=
      hPost.recorded key digest response token (since, true)
        (mem_own_iff.mpr ⟨o, hMem, rfl, hMove⟩)
    refine ⟨first, hText, ?_, ?_⟩
    · exact (hPost.receipted first hFirst).mono
        fun claims jws hSigned => hSigns.own hSigned
    · intro other hOther
      rw [hReturned] at hOther
      cases hOther
      exact hFirst
  · -- it has not: the rule says what it has recorded
    obtain ⟨recent, older, hPast⟩ := List.append_of_mem hMem
    obtain ⟨_, _, _, _, hRule⟩ := hLawful.cut hPast
    rcases o with ⟨thread, effect, answer, before, after⟩
    cases hMove
    obtain ⟨first, hText, hReceipted⟩ := hRule
    refine ⟨first, hText, ?_, ?_⟩
    · refine hReceipted.mono fun claims jws hSigned => ?_
      obtain ⟨other, hOther, _, hSigning⟩ :=
        mem_own_iff.mp hSigned
      apply hSigns other _ claims jws hSigning
      rw [hPast]
      exact List.mem_append_right _
        (List.mem_cons_of_mem _ hOther)
    · exact fun result hReturned =>
        absurd ⟨result, hReturned⟩ hEnded

/-
  A response that was recorded and read back is the same one.
-/
private theorem replayed_same
    (hBehaves : signer.Behaves svc.deps packages)
    {cached : CachedResponse}
    {first : IntentResponseBody}
    {execution : IntentExecution}
    (hText : svc.deps.bodyToText first = .ok cached.bodyJson)
    (hParams : first.PlainParams)
    (hReplay : replay svc cached = .ok execution) :
    SameResponse first execution.body := by
  unfold replay at hReplay
  split at hReplay
  · rename_i body hRead
    cases hReplay
    have hBack :=
      hBehaves.body_text first body cached.bodyJson hText
        (IntentResponseBody.plain_toJson packages.times hParams)
        hRead
    rw [IntentResponseBody.ofJson?_toJson,
      Option.some.injEq] at hBack
    unfold SameResponse
    rw [← hBack, IntentResponseBody.inKeyOrder_idem]
  · cases hReplay

/- What is recorded under a key is what the key protects. -/
private theorem recorded_protects
    (hReaches : DedupReaches svc ops w pool)
    {o : DedupHappening}
    (hMem : o ∈ pool.history.past)
    {key : IdempotencyKey}
    {digest : String}
    {response : CachedResponse}
    {since : DateTime}
    (hRecorded : Recorded key digest response since o) :
    Protects svc (ops o.thread) key digest := by
  obtain ⟨token, hMove⟩ := hRecorded
  obtain ⟨recent, older, hPast⟩ := List.append_of_mem hMem
  obtain ⟨_, _, _, _, hRule⟩ := hReaches.traced.1.cut hPast
  rcases o with ⟨thread, effect, answer, before, after⟩
  cases hMove
  exact hRule.1

/-
  Every response to a state change verifies, and a replayed
  one is the response that was first returned.
-/
theorem receipts_verify
    (hBehaves : signer.Behaves svc.deps packages)
    (hNew : NothingCached svc.deps.rfc3339 w)
    (hReaches : DedupReaches svc ops w pool)
    (hSigns : SignsWith packages signer pool.history.past)
    {thread : Nat}
    {input : IntentInput}
    {explicitKey : Option String}
    {execution : IntentExecution}
    (hOp : ops thread = .request input explicitKey)
    (hReturned :
      pool.threads thread = .ret (.answered (.ok execution))) :
    ∃ first,
      FirstResponse svc ops pool thread execution first ∧
        (StateChanging first → first.PlainParams →
          SameResponse first execution.body ∧
            ReceiptVerifies svc.deps packages signer
              execution.body) := by
  have hPost := hReaches.post hReturned
  rw [hOp] at hPost
  obtain ⟨hReplayed, _⟩ := hPost execution rfl
  rcases execution with ⟨body, replayed⟩
  cases replayed with
  | false =>
      have hEnd := (traced_recorded hReaches).2 thread
      rw [hReturned] at hEnd
      have hReceipted :=
        (hEnd _ rfl).receipted body rfl
      refine ⟨body, .inl ⟨rfl, rfl⟩, fun hChange _ => ?_⟩
      obtain ⟨claims, jws, hSigned, hFilled⟩ :=
        hReceipted hChange
      exact ⟨rfl,
        hFilled.verifies hBehaves (hSigns.own hSigned)⟩
  | true =>
      obtain ⟨key, digest, cached, hProtects, hReplay, hTold⟩ :=
        hReplayed rfl
      obtain ⟨o, hMem, since, hRecorded⟩ :=
        hReaches.traced.1.told_recorded hNew hTold
      obtain ⟨first, hText, hReceipted, hAnswer⟩ :=
        recorded_first hReaches hSigns hMem hRecorded
      refine ⟨first, .inr ⟨rfl, key, digest, cached, since, ?_,
        o, hMem, hRecorded,
        recorded_protects hReaches hMem hRecorded, hText,
        hAnswer⟩, ?_⟩
      · rw [hOp]
        exact hProtects
      · intro hChange hParams
        have hSame :=
          replayed_same hBehaves hText hParams hReplay
        obtain ⟨claims, jws, hSigned, hFilled⟩ :=
          hReceipted hChange
        exact ⟨hSame,
          (hFilled.verifies hBehaves hSigned).of_same hSame⟩

end Runs

end Protocol

end IcpHandler

------------------------------------------------------------
-- A Quote and Its Replay
------------------------------------------------------------

namespace IcpHandler

namespace Protocol

open Model Service Concurrency

deriving instance DecidableEq for ReceiptStub, ResponseEnvelope
deriving instance DecidableEq for ReceiptIcp, ReceiptClaims

/- Bytes as characters that stand in no other text. -/
private def spelled (bytes : List UInt8) : List Char :=
  '!' :: bytes.map fun b => Char.ofNat (b.toNat + 256)

/- The text a table has for the bytes, or their spelling. -/
private def coded
    (table : List (List UInt8 × String))
    (bytes : List UInt8) : String :=
  match table.find? (·.1 == bytes) with
  | some entry => entry.2
  | none => String.ofList (spelled bytes)

private def decoded
    (table : List (List UInt8 × String))
    (text : String) : Option (List UInt8) :=
  match table.find? (·.2 == text) with
  | some entry => some entry.1
  | none =>
      some (text.toList.tail.map fun c =>
        UInt8.ofNat (c.toNat - 256))

private theorem toNat_spelled (b : UInt8) :
    (Char.ofNat (b.toNat + 256)).toNat = b.toNat + 256 := by
  have hBound := b.toNat_lt
  have hValid : (b.toNat + 256).isValidChar := by
    left
    omega
  rw [Char.ofNat, dif_pos hValid]
  rfl

/- A text of a table without repetitions is found. -/
private theorem find?_text
    {table : List (List UInt8 × String)}
    (hTexts : (table.map Prod.snd).Nodup)
    {entry : List UInt8 × String}
    (hMem : entry ∈ table) :
    table.find? (·.2 == entry.2) = some entry := by
  induction table with
  | nil => cases hMem
  | cons first rest ih =>
      rw [List.map_cons, List.nodup_cons] at hTexts
      rcases List.mem_cons.mp hMem with rfl | hRest
      · simp
      · have hNe : first.2 ≠ entry.2 := by
          intro hSame
          apply hTexts.1
          rw [hSame]
          exact List.mem_map_of_mem hRest
        rw [List.find?_cons_of_neg (by simpa using hNe)]
        exact ih hTexts.2 hRest

private def textBytes (text : String) : List UInt8 :=
  text.toUTF8.data.toList

/- An ASCII character of a text is one of its bytes. -/
private theorem mem_textBytes
    {text : String}
    {c : Char}
    {b : UInt8}
    (hByte : String.utf8EncodeChar c = [b])
    (hMem : c ∈ text.toList) : b ∈ textBytes text := by
  have hBytes :
      textBytes text =
        text.toList.flatMap String.utf8EncodeChar := by
    unfold textBytes
    rw [String.toUTF8_eq_toByteArray,
      ← String.utf8Encode_toList, List.utf8Encode]
    simp
  rw [hBytes, List.mem_flatMap]
  exact ⟨c, hMem, by simp [hByte]⟩

private theorem decoded_coded
    {table : List (List UInt8 × String)}
    (hTexts : (table.map Prod.snd).Nodup)
    (hBang : ∀ entry ∈ table, 33 ∉ textBytes entry.2)
    (bytes : List UInt8) :
    decoded table (coded table bytes) = some bytes := by
  unfold coded
  cases hFound : table.find? (·.1 == bytes) with
  | some entry =>
      have hMem := List.mem_of_find?_eq_some hFound
      have hBytes : entry.1 = bytes := by
        simpa using List.find?_some hFound
      dsimp only
      rw [decoded, find?_text hTexts hMem]
      exact congrArg some hBytes
  | none =>
      have hNone :
          table.find?
              (·.2 == String.ofList (spelled bytes)) =
            none := by
        rw [List.find?_eq_none]
        intro entry hMem hSame
        apply hBang entry hMem
        have hByte : String.utf8EncodeChar '!' = [33] := by
          decide
        apply mem_textBytes hByte
        rw [beq_iff_eq.mp hSame, String.toList_ofList, spelled]
        exact List.mem_cons_self
      have hBack :
          (bytes.map fun b => Char.ofNat (b.toNat + 256)).map
              (fun c => UInt8.ofNat (c.toNat - 256)) =
            bytes := by
        rw [List.map_map]
        conv_rhs => rw [← List.map_id bytes]
        apply List.map_congr_left
        intro b _
        simp [toNat_spelled]
      dsimp only
      rw [decoded, hNone]
      simp only [String.toList_ofList, spelled, List.tail_cons,
        hBack]

private theorem notMem_coded
    {table : List (List UInt8 × String)}
    (hDot : ∀ entry ∈ table, 46 ∉ textBytes entry.2)
    (bytes : List UInt8) :
    '.' ∉ (coded table bytes).toList := by
  unfold coded
  split
  · rename_i entry hFound
    exact fun hMem =>
      hDot entry (List.mem_of_find?_eq_some hFound)
        (mem_textBytes (by decide) hMem)
  · rw [String.toList_ofList, spelled, List.mem_cons]
    rintro (hBang | hByte)
    · cases hBang
    · obtain ⟨b, _, hDot⟩ := List.mem_map.mp hByte
      have hCode := toNat_spelled b
      rw [hDot] at hCode
      have hSmall : '.'.toNat = 46 := rfl
      omega

/- The instants of the sample, as chrono writes them. -/
private def sampleTimes : TimeText where
  print instant :=
    if instant = 0 then "1970-01-01T00:00:00Z"
    else if instant = Duration.seconds 900 then
      "1970-01-01T00:15:00Z"
    else
      String.ofList
        ((if instant < 0 then '-' else '+') ::
          List.replicate instant.natAbs '1')
  parse text :=
    if text = "1970-01-01T00:00:00Z" then some 0
    else if text = "1970-01-01T00:15:00Z" then
      some (Duration.seconds 900)
    else
      match text.toList with
      | '-' :: ones => some (-(ones.length : Int))
      | _ :: ones => some (ones.length : Int)
      | [] => none
  parse_print := by
    intro instant
    by_cases hStart : instant = 0
    · rw [if_pos hStart, if_pos rfl, hStart]
    by_cases hExpiry : instant = Duration.seconds 900
    · rw [if_neg hStart, if_pos hExpiry,
        if_neg (by decide), if_pos rfl, hExpiry]
    rw [if_neg hStart, if_neg hExpiry]
    have hApart :
        ∀ (sign : Char) (ones : List Char), sign ≠ '1' →
          String.ofList (sign :: ones) ≠
              "1970-01-01T00:00:00Z" ∧
            String.ofList (sign :: ones) ≠
              "1970-01-01T00:15:00Z" := by
      intro sign ones hSign
      constructor
      · intro hSame
        have hHead := congrArg (fun text => text.toList.head?)
          hSame
        rw [String.toList_ofList] at hHead
        exact hSign (Option.some.inj hHead)
      · intro hSame
        have hHead := congrArg (fun text => text.toList.head?)
          hSame
        rw [String.toList_ofList] at hHead
        exact hSign (Option.some.inj hHead)
    by_cases hBefore : instant < 0
    · rw [if_pos hBefore]
      obtain ⟨hFirst, hSecond⟩ :=
        hApart '-' (List.replicate instant.natAbs '1')
          (by decide)
      rw [if_neg hFirst, if_neg hSecond, String.toList_ofList]
      change some (-((List.replicate _ '1').length : Int)) = _
      rw [List.length_replicate,
        Int.ofNat_natAbs_of_nonpos (le_of_lt hBefore), neg_neg]
    · rw [if_neg hBefore]
      obtain ⟨hFirst, hSecond⟩ :=
        hApart '+' (List.replicate instant.natAbs '1')
          (by decide)
      rw [if_neg hFirst, if_neg hSecond, String.toList_ofList]
      change some (((List.replicate _ '1').length : Int)) = _
      rw [List.length_replicate,
        Int.natAbs_of_nonneg (not_lt.mp hBefore)]

/- The canonical form of the quote, before it was signed. -/
private def quoteCanonical : List UInt8 :=
  textBytes
    ("\x7b\"envelope\":\x7b\"icp_version\":" ++
      "\"2026-04-21\",\"issued_at\":\"1970-01-01T00:00:" ++
      "00Z\",\"request_id\":\"\"\x7d,\"intent\":" ++
      "\"intent.quote\",\"intent_id\":\"i1\",\"receipt\":" ++
      "\x7b\"body_digest\":\"\",\"jti\":\"\",\"jws\":" ++
      "\"\",\"kid\":\"k1\"\x7d,\"transaction\":\x7b" ++
      "\"agent_id\":\"bot\",\"bill_to\":null,\"buyer\":" ++
      "\x7b\"email\":null,\"first_name\":null," ++
      "\"last_name\":null,\"phone_number\":null," ++
      "\"principal_did\":null\x7d,\"created_at\":" ++
      "\"1970-01-01T00:00:00Z\",\"currency\":\"USD\"," ++
      "\"external_refs\":\x7b\x7d,\"id\":\"txn_a2\"," ++
      "\"line_items\":[\x7b\"id\":\"li_000000\",\"name\":" ++
      "\"tea\",\"quantity\":2,\"sku\":\"tea\"," ++
      "\"subtotal\":\x7b\"amount_minor\":2000," ++
      "\"currency\":\"USD\"\x7d,\"tax\":null,\"total\":" ++
      "\x7b\"amount_minor\":2000,\"currency\":\"USD\"\x7d" ++
      ",\"unit_price\":\x7b\"amount_minor\":1000," ++
      "\"currency\":\"USD\"\x7d\x7d]," ++
      "\"quote_expires_at\":\"1970-01-01T00:15:00Z\"," ++
      "\"ship_to\":null,\"state\":\"quoted\"," ++
      "\"tenant_id\":\"acme\",\"totals\":\x7b" ++
      "\"discount\":null,\"shipping\":null,\"subtotal\":" ++
      "\x7b\"amount_minor\":2000,\"currency\":\"USD\"\x7d" ++
      ",\"tax\":\x7b\"amount_minor\":175,\"currency\":" ++
      "\"USD\"\x7d,\"total\":\x7b\"amount_minor\":2175," ++
      "\"currency\":\"USD\"\x7d\x7d,\"updated_at\":" ++
      "\"1970-01-01T00:00:00Z\"\x7d\x7d")

private def quoteDigest : String :=
  "ca082f8543bfea6f52bcb595f2b7a257" ++
    "6074929238a8b652df21c64aef5785da"

/- The canonical form of the request. -/
private def requestCanonical : List UInt8 :=
  textBytes
    ("\x7b\"agent_id\":\"bot\",\"context\":\x7b" ++
      "\"channel\":null,\"currency\":null," ++
      "\"jurisdiction\":null,\"locale\":null," ++
      "\"session_hint\":null\x7d,\"intent\":" ++
      "\"intent.quote\",\"intent_id\":\"i1\",\"params\":" ++
      "\x7b\"items\":[\x7b\"quantity\":2,\"sku\":" ++
      "\"tea\"\x7d]\x7d\x7d")

private def requestDigestText : String :=
  "4abbe54a341a5f0b64915ac41d58cffa" ++
    "7b6faadd4b4d673a178f9c1f486eb2a6"

private def quoteHeader : List UInt8 :=
  textBytes
    ("\x7b\"alg\":\"EdDSA\",\"typ\":\"JWT\",\"kid\":" ++
      "\"k1\"\x7d")

private def quoteHeaderB64 : String :=
  "eyJhbGciOiJFZERTQSIsInR5cCI6IkpXVCIsImtpZCI6ImsxIn" ++
    "0"

private def quoteClaims : ReceiptClaims where
  iss := "http://127.0.0.1"
  aud := "bot"
  iat := 0
  jti := "rcpt_a9"
  icp :=
    { version := "2026-04-21"
      intent := "intent.quote"
      transactionId := "txn_a2"
      orderId := none
      mandateJti := none
      bodyDigest := "sha256:" ++ quoteDigest
      bodyCanonicalization := "jcs" }

private def quoteClaimsBytes : List UInt8 :=
  textBytes
    ("\x7b\"aud\":\"bot\",\"iat\":0,\"icp\":\x7b" ++
      "\"body_canonicalization\":\"jcs\",\"body_digest\":" ++
      "\"sha256:" ++ quoteDigest ++
      "\",\"intent\":\"intent.quote\",\"transaction_id\":" ++
      "\"txn_a2\",\"version\":\"2026-04-21\"\x7d,\"iss\":" ++
      "\"http://127.0.0.1\",\"jti\":\"rcpt_a9\"\x7d")

private def quoteClaimsB64 : String :=
  "eyJhdWQiOiJib3QiLCJpYXQiOjAsImljcCI6eyJib2R5X2Nhbm" ++
    "9uaWNhbGl6YXRpb24iOiJqY3MiLCJib2R5X2RpZ2VzdCI6InNo" ++
    "YTI1NjpjYTA4MmY4NTQzYmZlYTZmNTJiY2I1OTVmMmI3YTI1Nz" ++
    "YwNzQ5MjkyMzhhOGI2NTJkZjIxYzY0YWVmNTc4NWRhIiwiaW50" ++
    "ZW50IjoiaW50ZW50LnF1b3RlIiwidHJhbnNhY3Rpb25faWQiOi" ++
    "J0eG5fYTIiLCJ2ZXJzaW9uIjoiMjAyNi0wNC0yMSJ9LCJpc3Mi" ++
    "OiJodHRwOi8vMTI3LjAuMC4xIiwianRpIjoicmNwdF9hOSJ9"

private def quoteSignature : List UInt8 :=
  [140, 255, 67, 117, 172, 34, 142, 209, 78, 31, 179,
   120, 81, 109, 66, 231, 80, 88, 136, 122, 30, 226,
   251, 49, 100, 101, 89, 67, 253, 65, 166, 48, 252,
   183, 16, 208, 236, 117, 97, 174, 11, 116, 75, 58, 37,
   0, 35, 100, 21, 155, 18, 86, 184, 91, 160, 37, 113,
   99, 11, 230, 229, 197, 170, 14]

private def quoteSignatureB64 : String :=
  "jP9DdawijtFOH7N4UW1C51BYiHoe4vsxZGVZQ_1BpjD8txDQ7H" ++
    "Vhrgt0SzolACNkFZsSVrhboCVxYwvm5cWqDg"

private def quoteJws : String :=
  quoteHeaderB64 ++ "." ++ quoteClaimsB64 ++ "." ++
    quoteSignatureB64

private def sampleSigner : ReceiptSigner where
  kid := "k1"
  signingKey :=
    [157, 97, 177, 157, 239, 253, 90, 96, 186, 132, 74,
     244, 146, 236, 44, 196, 68, 73, 197, 105, 123, 50,
     105, 25, 112, 59, 172, 3, 28, 174, 127, 96]
  verifyingKey :=
    [215, 90, 152, 1, 130, 177, 10, 183, 213, 75, 254,
     211, 201, 100, 7, 58, 14, 225, 114, 243, 218, 166,
     35, 37, 175, 2, 26, 104, 247, 7, 81, 26]

/- What the quote answers. -/
private def quoteBody : IntentResponseBody where
  intent := "intent.quote"
  intentId := "i1"
  transaction :=
    { id := "txn_a2"
      state := .quoted
      agentId := "bot"
      tenantId := "acme"
      mandateJti := none
      currency := "USD"
      jurisdiction := none
      buyer := {}
      shipTo := none
      billTo := none
      lineItems :=
        [{ id := "li_000000"
           sku := "tea"
           name := "tea"
           quantity := 2
           unitPrice := .new 1000 "USD"
           subtotal := .new 2000 "USD"
           tax := none
           total := .new 2000 "USD" }]
      totals :=
        { subtotal := some (.new 2000 "USD")
          tax := some (.new 175 "USD")
          total := some (.new 2175 "USD") }
      orderId := none
      quoteExpiresAt := some (Duration.seconds 900)
      createdAt := 0
      updatedAt := 0
      externalRefs := ∅ }
  order := none
  subscription := none
  peerQuote := none
  receipt :=
    ⟨"rcpt_a9", "k1", quoteJws, "sha256:" ++ quoteDigest⟩
  envelope :=
    { icpVersion := "2026-04-21"
      requestId := ""
      traceId := none
      issuedAt := 0 }

/- The JSON text of the answer. -/
private def quoteText : String :=
  "\x7b\"intent\":\"intent.quote\",\"intent_id\":" ++
    "\"i1\",\"transaction\":\x7b\"id\":\"txn_a2\"," ++
    "\"state\":\"quoted\",\"agent_id\":\"bot\"," ++
    "\"tenant_id\":\"acme\",\"currency\":\"USD\"," ++
    "\"buyer\":\x7b\"first_name\":null,\"last_name\":" ++
    "null,\"email\":null,\"phone_number\":null," ++
    "\"principal_did\":null\x7d,\"ship_to\":null," ++
    "\"bill_to\":null,\"line_items\":[\x7b\"id\":" ++
    "\"li_000000\",\"sku\":\"tea\",\"name\":\"tea\"," ++
    "\"quantity\":2,\"unit_price\":\x7b" ++
    "\"amount_minor\":1000,\"currency\":\"USD\"\x7d," ++
    "\"subtotal\":\x7b\"amount_minor\":2000," ++
    "\"currency\":\"USD\"\x7d,\"tax\":null,\"total\":" ++
    "\x7b\"amount_minor\":2000,\"currency\":\"USD\"\x7d" ++
    "\x7d],\"totals\":\x7b\"subtotal\":\x7b" ++
    "\"amount_minor\":2000,\"currency\":\"USD\"\x7d," ++
    "\"discount\":null,\"shipping\":null,\"tax\":\x7b" ++
    "\"amount_minor\":175,\"currency\":\"USD\"\x7d," ++
    "\"total\":\x7b\"amount_minor\":2175,\"currency\":" ++
    "\"USD\"\x7d\x7d,\"quote_expires_at\":" ++
    "\"1970-01-01T00:15:00Z\",\"created_at\":" ++
    "\"1970-01-01T00:00:00Z\",\"updated_at\":" ++
    "\"1970-01-01T00:00:00Z\",\"external_refs\":\x7b" ++
    "\x7d\x7d,\"receipt\":\x7b\"jti\":\"rcpt_a9\"," ++
    "\"kid\":\"k1\",\"jws\":\"" ++ quoteJws ++
    "\",\"body_digest\":\"sha256:" ++ quoteDigest ++
    "\"\x7d,\"envelope\":\x7b\"icp_version\":" ++
    "\"2026-04-21\",\"request_id\":\"\",\"issued_at\":" ++
    "\"1970-01-01T00:00:00Z\"\x7d\x7d"

/- The transaction is the quoted one, in every field. -/
private def isQuoted (txn : Transaction) : Bool :=
  let quoted := quoteBody.transaction
  txn.id = quoted.id && txn.state = quoted.state &&
    txn.agentId = quoted.agentId &&
    txn.tenantId = quoted.tenantId &&
    txn.mandateJti = quoted.mandateJti &&
    txn.currency = quoted.currency &&
    txn.jurisdiction = quoted.jurisdiction &&
    txn.buyer = quoted.buyer && txn.shipTo = quoted.shipTo &&
    txn.billTo = quoted.billTo &&
    txn.lineItems = quoted.lineItems &&
    txn.totals = quoted.totals &&
    txn.orderId = quoted.orderId &&
    txn.quoteExpiresAt = quoted.quoteExpiresAt &&
    txn.createdAt = quoted.createdAt &&
    txn.updatedAt = quoted.updatedAt &&
    txn.externalRefs.entries = quoted.externalRefs.entries

private theorem eq_of_isQuoted
    {txn : Transaction}
    (hQuoted : isQuoted txn = true) :
    txn = quoteBody.transaction := by
  unfold isQuoted at hQuoted
  simp only [Bool.and_eq_true, decide_eq_true_eq,
    and_assoc] at hQuoted
  obtain ⟨hId, hState, hAgent, hTenant, hMandate, hCurrency,
    hPlace, hBuyer, hShip, hBill, hItems, hTotals, hOrder,
    hExpires, hCreated, hUpdated, hRefs⟩ := hQuoted
  rcases txn
  simp only at *
  rw [hId, hState, hAgent, hTenant, hMandate, hCurrency, hPlace,
    hBuyer, hShip, hBill, hItems, hTotals, hOrder, hExpires,
    hCreated, hUpdated, AList.ext hRefs]

/- The answer is this one, in every field. -/
private def isQuote (body : IntentResponseBody) : Bool :=
  body.intent = quoteBody.intent &&
    body.intentId = quoteBody.intentId &&
    isQuoted body.transaction &&
    body.order.isNone && body.subscription.isNone &&
    body.peerQuote.isNone &&
    body.receipt = quoteBody.receipt &&
    body.envelope = quoteBody.envelope

private theorem eq_of_isQuote
    {body : IntentResponseBody}
    (hQuote : isQuote body = true) : body = quoteBody := by
  unfold isQuote at hQuote
  simp only [Bool.and_eq_true, decide_eq_true_eq,
    Option.isNone_iff_eq_none] at hQuote
  obtain ⟨⟨⟨⟨⟨⟨⟨hIntent, hId⟩, hQuoted⟩, hOrder⟩, hSub⟩,
    hPeer⟩, hReceipt⟩, hEnvelope⟩ := hQuote
  have hTxn := eq_of_isQuoted hQuoted
  rcases body with ⟨intent, intentId, transaction, order,
    subscription, peerQuote, receipt, envelope⟩
  simp only at *
  rw [hIntent, hId, hTxn, hOrder, hSub, hPeer, hReceipt,
    hEnvelope]
  rfl

private def quoteDigests : List (List UInt8 × String) :=
  [(quoteCanonical, quoteDigest),
    (requestCanonical, requestDigestText)]

private def quoteSegments : List (List UInt8 × String) :=
  [(quoteHeader, quoteHeaderB64),
    (quoteClaimsBytes, quoteClaimsB64),
    (quoteSignature, quoteSignatureB64)]

/- The signature of the sample, and none for other inputs. -/
private def sampleSign
    (key : List UInt8)
    (signingInput : String) : List UInt8 :=
  if key = sampleSigner.signingKey ∧
      signingInput = quoteHeaderB64 ++ "." ++ quoteClaimsB64 then
    quoteSignature
  else List.replicate 64 0

private def samplePackages : Packages where
  times := sampleTimes
  jcs json :=
    if (json.get? "intent_id").bind Json.asStr? = some "i1" then
      .ok quoteCanonical
    else .error "unsupported"
  jcsClaims claims :=
    if claims = quoteClaims then .ok quoteClaimsBytes
    else .error "unsupported"
  headerToVec header :=
    if header = sampleSigner.header then .ok quoteHeader
    else .error "unsupported"
  headerOfSlice bytes :=
    if bytes = quoteHeader then .ok sampleSigner.header
    else .error "EOF while parsing a value"
  claimsOfSlice bytes :=
    if bytes = quoteClaimsBytes then .ok quoteClaims
    else .error "EOF while parsing a value"
  base64Encode := coded quoteSegments
  sign := sampleSign

/- The handler, which can sign and read back this quote. -/
private def quoteService : IcpService :=
  { concreteService with
    deps :=
      { concreteDeps with
        jcsBody := fun body =>
          samplePackages.jcs (body.toJson sampleTimes)
        jcsEnvelope := fun envelope =>
          if envelope.intentId = some "i1" then
            .ok requestCanonical
          else .error "unsupported"
        bodySha256 := coded quoteDigests
        bodyToText := fun body =>
          if isQuote body then .ok quoteText
          else .error "unsupported"
        bodyOfText := fun text =>
          if text = quoteText then .ok quoteBody
          else .error "EOF while parsing a value"
        base64Decode := decoded quoteSegments
        verify := fun key signingInput signature =>
          decide (key = sampleSigner.verifyingKey) &&
            signature ==
              sampleSign sampleSigner.signingKey signingInput
        timestamp := fun instant =>
          if instant.natAbs ≤ 9007199254740992 then
            instant / Duration.seconds 1
          else 0 } }

private theorem quoteService_sha256 :
    quoteService.deps.bodySha256 = coded quoteDigests :=
  rfl

private theorem quoteService_bodyToText
    (body : IntentResponseBody) :
    quoteService.deps.bodyToText body =
      if isQuote body then .ok quoteText
      else .error "unsupported" :=
  rfl

private theorem quoteService_bodyOfText
    (text : String) :
    quoteService.deps.bodyOfText text =
      if text = quoteText then .ok quoteBody
      else .error "EOF while parsing a value" :=
  rfl

private theorem quoteService_verify
    (key signature : List UInt8)
    (signingInput : String) :
    quoteService.deps.verify key signingInput signature =
      (decide (key = sampleSigner.verifyingKey) &&
        signature ==
          sampleSign sampleSigner.signingKey signingInput) :=
  rfl

private theorem quoteService_behaves :
    sampleSigner.Behaves quoteService.deps samplePackages where
  jcs_body _ := rfl
  collision_free := by
    have hTexts : (quoteDigests.map Prod.snd).Nodup := by
      decide
    have hBang :
        ∀ entry ∈ quoteDigests, 33 ∉ textBytes entry.2 := by
      decide
    have hDecoded := decoded_coded hTexts hBang
    intro bytes bytes' hSame
    rw [quoteService_sha256] at hSame
    have hBytes := hDecoded bytes
    rw [hSame, hDecoded] at hBytes
    exact (Option.some.inj hBytes).symm
  base64_decode := by
    have hTexts : (quoteSegments.map Prod.snd).Nodup := by
      decide
    have hBang :
        ∀ entry ∈ quoteSegments, 33 ∉ textBytes entry.2 := by
      decide +kernel
    exact decoded_coded hTexts hBang
  base64_no_dot := notMem_coded (by decide +kernel)
  sign_length signingInput := by
    change (sampleSign _ _).length = 64
    unfold sampleSign
    split
    · decide
    · exact List.length_replicate
  sign_verifies signingInput := by
    rw [quoteService_verify]
    simp [samplePackages]
  header_text := by
    intro header header' bytes hText hRead
    rw [ReceiptHeader.ofJson?_toJson, Option.some.injEq] at hRead
    subst hRead
    simp only [samplePackages] at hText ⊢
    split at hText
    · rename_i hHeader
      cases hText
      rw [if_pos rfl, hHeader]
    · cases hText
  claims_text := by
    intro claims claims' bytes hText hExact hRead
    rw [ReceiptClaims.ofJson?_toJson hExact,
      Option.some.injEq] at hRead
    subst hRead
    simp only [samplePackages] at hText ⊢
    split at hText
    · rename_i hClaims
      cases hText
      rw [if_pos rfl, hClaims]
    · cases hText
  body_text := by
    intro body body' text hText _ hRead
    rw [quoteService_bodyToText] at hText
    rw [quoteService_bodyOfText] at hRead
    split at hText
    · rename_i hQuote
      cases hText
      rw [if_pos rfl] at hRead
      cases hRead
      rw [eq_of_isQuote hQuote,
        IntentResponseBody.ofJson?_toJson]
      rfl
    · cases hText
  timestamp_bound := by
    intro instant
    simp only [quoteService]
    split
    · rename_i hSmall
      unfold Duration.seconds
      omega
    · decide

/- A quote of two teas. -/
private def quoteInput : IntentInput :=
  let input := sampleInput .quote [sampleItems 2] none
  { input with
    envelope := { input.envelope with intentId := some "i1" } }

/- Both threads ask for the quote under one key. -/
private def quoteTwice : Nat → DedupOp
  | 0 => .request quoteInput (some "k2")
  | 1 => .request quoteInput (some "k2")
  | _ => .sweep

/- The choices of a request that is signed. -/
private def signedChoices : List DedupChoice :=
  {} :: (List.range 19).map fun i =>
    { token := "a" ++ toString i, signature := .ok quoteJws }

/- The second request comes after the first has answered. -/
private def quoteThenReplay : List (Nat × DedupChoice) :=
  signedChoices.map (fun choice => (0, choice)) ++
    List.replicate 4 (1, { token := "b" })

/- The signature, if it is one, is that of the signer. -/
private def signedAsSample (o : DedupHappening) : Bool :=
  match o with
  | ⟨_, .inner (.signClaims claims), .ok jws, _, _⟩ =>
      decide (claims = quoteClaims) && jws == quoteJws
  | _ => true

-- Long texts are compared here and at the run below. Both are
-- instances, since these are checked before what follows them.
private instance quoteJws_written :
    Fact ((sampleSigner.signJws samplePackages
      quoteClaims).toOption = some quoteJws) :=
  ⟨by decide +kernel⟩

private theorem quoteJws_signed :
    sampleSigner.signJws samplePackages quoteClaims =
      .ok quoteJws := by
  have hSigned := quoteJws_written.out
  cases hResult :
      sampleSigner.signJws samplePackages quoteClaims with
  | error e =>
      rw [hResult] at hSigned
      cases hSigned
  | ok jws =>
      rw [hResult] at hSigned
      exact congrArg Except.ok (Option.some.inj hSigned)

private theorem signsWith_sample
    {past : List DedupHappening}
    (hAll : past.all signedAsSample = true) :
    SignsWith samplePackages sampleSigner past := by
  intro o hMem claims jws hMove
  have hSigned := List.all_eq_true.mp hAll o hMem
  rcases o with ⟨thread, effect, answer, before, after⟩
  cases hMove
  unfold signedAsSample at hSigned
  simp only [Bool.and_eq_true, decide_eq_true_eq,
    beq_iff_eq] at hSigned
  rw [hSigned.1, hSigned.2]
  exact quoteJws_signed

/- The thread has been answered by a replay. -/
private def answeredAgain
    (thread : Nat)
    (pool : Pool DedupEff.Res DedupWorld DedupResult) : Bool :=
  match pool.threads thread with
  | .ret (.answered (.ok execution)) => execution.replayed
  | _ => false

private theorem answeredAgain_iff
    {thread : Nat}
    {pool : Pool DedupEff.Res DedupWorld DedupResult}
    (hAgain : answeredAgain thread pool = true) :
    ∃ execution,
      pool.threads thread =
          .ret (.answered (.ok execution)) ∧
        execution.replayed = true := by
  unfold answeredAgain at hAgain
  split at hAgain
  · rename_i execution hReturned
    exact ⟨execution, hReturned, hAgain⟩
  · cases hAgain

/- Nothing is stored yet. -/
private def unusedWorld : DedupWorld :=
  ⟨.fresh (.memory ∅) [], ⟨.memory ∅, defaultTtl⟩⟩

private instance quoteTwice_runs :
    Fact (((dedupRunOf quoteService quoteTwice
        unusedWorld quoteThenReplay).any fun pool =>
      pool.history.past.all signedAsSample &&
        answeredAgain 1 pool) = true) :=
  ⟨by decide +kernel⟩

/-
  The quote is asked for twice. The replayed answer is the
  first, and its receipt verifies.
-/
theorem receipts_verify_sample :
    ∃ pool execution,
      dedupRunOf quoteService quoteTwice
          unusedWorld quoteThenReplay = some pool ∧
        pool.threads 1 = .ret (.answered (.ok execution)) ∧
        execution.replayed = true ∧
        SameResponse quoteBody execution.body ∧
        ReceiptVerifies quoteService.deps samplePackages
          sampleSigner execution.body := by
  obtain ⟨pool, hPool, hChecks⟩ :=
    (Option.any_eq_true _ _).mp quoteTwice_runs.out
  obtain ⟨hSigned, hAgain⟩ := Bool.and_eq_true_iff.mp hChecks
  obtain ⟨execution, hReturned, hReplayed⟩ :=
    answeredAgain_iff hAgain
  obtain ⟨first, hFirst, hSame⟩ :=
    receipts_verify quoteService_behaves (w := unusedWorld)
      (fun _ => rfl)
      ⟨quoteThenReplay, hPool⟩ (signsWith_sample hSigned)
      rfl hReturned
  have hQuote : first = quoteBody := by
    rcases hFirst with ⟨hFresh, _⟩ | ⟨_, _, _, _, _, _, _, _, _,
      _, hText, _⟩
    · rw [hReplayed] at hFresh
      cases hFresh
    · rw [quoteService_bodyToText] at hText
      split at hText
      · rename_i hIs
        exact eq_of_isQuote hIs
      · cases hText
  subst hQuote
  obtain ⟨hAlike, hVerifies⟩ :=
    hSame ⟨.quote, rfl, rfl⟩ (fun _ hNone => by cases hNone)
  exact ⟨pool, execution, hPool, hReturned, hReplayed, hAlike,
    hVerifies⟩

end Protocol

end IcpHandler
