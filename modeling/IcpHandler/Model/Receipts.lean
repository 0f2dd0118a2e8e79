import IcpHandler.Model.Deps
import IcpHandler.Model.WireFormat

/-
  Receipts: how one is signed over the canonical form of a
  response, and how it is verified.

  Main declarations:
    * `Packages`, `ReceiptSigner`
    * `ReceiptSigner.signJws`
    * `ReceiptSigner.verifyReceipt`
    * `blankReceipt`
    * `ReceiptSigner.Behaves`
-/

------------------------------------------------------------
-- Signing
------------------------------------------------------------

namespace IcpHandler

namespace Model

/- The header of a receipt. -/
structure ReceiptHeader where
  alg : String
  typ : String
  kid : String
  deriving DecidableEq

/- The other packages that receipts are signed with. -/
structure Packages where
  -- a `DateTime<Utc>` in JSON
  times : TimeText
  -- `serde_jcs::to_vec`
  jcs : Json → Except String (List UInt8)
  jcsClaims : ReceiptClaims → Except String (List UInt8)
  -- `serde_json::to_vec`, and `from_slice`
  headerToVec : ReceiptHeader → Except String (List UInt8)
  headerOfSlice : List UInt8 → Except String ReceiptHeader
  claimsOfSlice : List UInt8 → Except String ReceiptClaims
  -- base64url without padding
  base64Encode : List UInt8 → String
  -- Ed25519: key and signing input
  sign : List UInt8 → String → List UInt8

structure ReceiptSigner where
  kid : String
  signingKey : List UInt8
  verifyingKey : List UInt8

namespace ReceiptSigner

variable (packages : Packages)
variable (signer : ReceiptSigner)

def header : ReceiptHeader :=
  { alg := "EdDSA", typ := "JWT", kid := signer.kid }

/- The compact form of signed claims, in `sign_receipt`. -/
def signJws
    (claims : ReceiptClaims) : Except String String := do
  let headerBytes ←
    (packages.headerToVec signer.header).mapError
      ("serialization failed: " ++ ·)
  let headerB64 := packages.base64Encode headerBytes
  let payloadBytes ←
    (packages.jcsClaims claims).mapError
      ("canonicalization failed: " ++ ·)
  let payloadB64 := packages.base64Encode payloadBytes
  let signingInput := headerB64 ++ "." ++ payloadB64
  let signature := packages.sign signer.signingKey signingInput
  pure (signingInput ++ "." ++ packages.base64Encode signature)

end ReceiptSigner

end Model

end IcpHandler

------------------------------------------------------------
-- The Wire Form of Headers and Claims
------------------------------------------------------------

namespace IcpHandler

namespace Model

namespace ReceiptHeader

def members (header : ReceiptHeader) : Members where
  fields :=
    [("alg", some (.str header.alg)),
      ("kid", some (.str header.kid)),
      ("typ", some (.str header.typ))]
  sorted := by
    simp only [List.map_cons, List.map_nil]
    decide

def toJson (header : ReceiptHeader) : Json :=
  header.members.toJson

def ofJson? (json : Json) : Option ReceiptHeader := do
  let alg ← required "alg" Json.asStr? json
  let typ ← required "typ" Json.asStr? json
  let kid ← required "kid" Json.asStr? json
  pure { alg, typ, kid }

theorem ofJson?_toJson
    (header : ReceiptHeader) :
    ofJson? header.toJson = some header := by
  unfold ofJson? toJson
  refine read_then (required_toJson rfl rfl) ?_
  refine read_then (required_toJson rfl rfl) ?_
  exact read_then (required_toJson rfl rfl) rfl

end ReceiptHeader

namespace ReceiptIcp

def members (icp : ReceiptIcp) : Members where
  fields :=
    [("body_canonicalization",
        some (.str icp.bodyCanonicalization)),
      ("body_digest", some (.str icp.bodyDigest)),
      ("intent", some (.str icp.intent)),
      ("mandate_jti", icp.mandateJti.map .str),
      ("order_id", icp.orderId.map .str),
      ("transaction_id", some (.str icp.transactionId)),
      ("version", some (.str icp.version))]
  sorted := by
    simp only [List.map_cons, List.map_nil]
    decide

def toJson (icp : ReceiptIcp) : Json :=
  icp.members.toJson

def ofJson? (json : Json) : Option ReceiptIcp := do
  let version ← required "version" Json.asStr? json
  let intent ← required "intent" Json.asStr? json
  let transactionId ←
    required "transaction_id" Json.asStr? json
  let orderId ← optional "order_id" Json.asStr? json
  let mandateJti ← optional "mandate_jti" Json.asStr? json
  let bodyDigest ← required "body_digest" Json.asStr? json
  let bodyCanonicalization ←
    required "body_canonicalization" Json.asStr? json
  pure
    { version, intent, transactionId, orderId, mandateJti,
      bodyDigest, bodyCanonicalization }

theorem ofJson?_toJson
    (icp : ReceiptIcp) : ofJson? icp.toJson = some icp := by
  unfold ofJson? toJson
  refine read_then (required_toJson rfl rfl) ?_
  refine read_then (required_toJson rfl rfl) ?_
  refine read_then (required_toJson rfl rfl) ?_
  refine read_then (skipped_text rfl) ?_
  refine read_then (skipped_text rfl) ?_
  refine read_then (required_toJson rfl rfl) ?_
  exact read_then (required_toJson rfl rfl) rfl

end ReceiptIcp

namespace ReceiptClaims

def members (claims : ReceiptClaims) : Members where
  fields :=
    [("aud", some (.str claims.aud)),
      ("iat", some (.int claims.iat)),
      ("icp", some claims.icp.toJson),
      ("iss", some (.str claims.iss)),
      ("jti", some (.str claims.jti))]
  sorted := by
    simp only [List.map_cons, List.map_nil]
    decide

def toJson (claims : ReceiptClaims) : Json :=
  claims.members.toJson

def ofJson? (json : Json) : Option ReceiptClaims := do
  let iss ← required "iss" Json.asStr? json
  let aud ← required "aud" Json.asStr? json
  let iat ← required "iat" Json.asI64? json
  let jti ← required "jti" Json.asStr? json
  let icp ← required "icp" ReceiptIcp.ofJson? json
  pure { iss, aud, iat := iat.toInt, jti, icp }

/-
  The number is one that a double holds exactly, as the
  canonical form asks of it.
-/
def ExactTime (claims : ReceiptClaims) : Prop :=
  claims.iat.natAbs ≤ 9007199254740992

theorem ofJson?_toJson
    {claims : ReceiptClaims}
    (hExact : claims.ExactTime) :
    ofJson? claims.toJson = some claims := by
  have hFits :
      Int64.minValue.toInt ≤ claims.iat ∧
        claims.iat ≤ Int64.maxValue.toInt := by
    rw [Int64.toInt_minValue, Int64.toInt_maxValue]
    unfold ExactTime at hExact
    omega
  have hIat :
      (Json.int claims.iat).asI64? =
        some (Int64.ofInt claims.iat) := by
    rw [Json.asI64?, if_pos hFits]
  have hBack : (Int64.ofInt claims.iat).toInt = claims.iat :=
    Int64.toInt_ofInt_of_le hFits.1
      (Int.lt_of_le_of_lt hFits.2 (by decide))
  unfold ofJson? toJson
  refine read_then (required_toJson rfl rfl) ?_
  refine read_then (required_toJson rfl rfl) ?_
  refine read_then (required_toJson rfl hIat) ?_
  refine read_then (required_toJson rfl rfl) ?_
  refine read_then
    (required_toJson rfl (ReceiptIcp.ofJson?_toJson _)) ?_
  rw [hBack]
  rfl

end ReceiptClaims

end Model

end IcpHandler

------------------------------------------------------------
-- Verifying
------------------------------------------------------------

namespace IcpHandler

namespace Model

namespace ReceiptSigner

variable (deps : Deps)
variable (packages : Packages)
variable (signer : ReceiptSigner)

/- The three segments of a receipt. -/
def splitReceipt
    (compactJws : String) :
    Except String (String × String × String) :=
  match Text.splitOn '.' compactJws with
  | [] => .error "receipt: missing header segment"
  | [_] => .error "receipt: missing payload segment"
  | [_, _] => .error "receipt: missing signature segment"
  | [header, payload, signature] =>
      .ok (header, payload, signature)
  | _ => .error "receipt: unexpected extra segments"

/- base64url, of the segment with this name. -/
def decodeSegment
    (name segment : String) : Except String (List UInt8) :=
  match deps.base64Decode segment with
  | some bytes => .ok bytes
  | none => .error ("receipt: " ++ name ++ " not base64url")

/- The header names the algorithm and the handler's key. -/
def checkHeader
    (header : ReceiptHeader) : Except String Unit := do
  if header.alg ≠ "EdDSA" then
    throw ("receipt: unsupported alg `" ++ header.alg ++ "`")
  if header.kid ≠ signer.kid then
    throw
      ("receipt: kid `" ++ header.kid ++
        "` does not match handler key `" ++ signer.kid ++ "`")

/- The signature has the length of one, and verifies. -/
def checkSignature
    (signingInput : String)
    (signature : List UInt8) : Except String Unit := do
  if signature.length ≠ 64 then
    throw
      ("receipt: Ed25519 signature must be 64 bytes, got " ++
        toString signature.length)
  if deps.verify signer.verifyingKey signingInput signature ≠
      true then
    throw "receipt: signature did not verify"

/- The digest of the body that is expected. -/
def checkDigest
    (claims : ReceiptClaims)
    (expectedBody : Option (List UInt8)) :
    Except String Unit :=
  match expectedBody with
  | none => .ok ()
  | some expected =>
      let digest := "sha256:" ++ deps.bodySha256 expected
      if claims.icp.bodyDigest ≠ digest then
        .error
          ("receipt: body_digest `" ++ claims.icp.bodyDigest ++
            "` does not match expected `" ++ digest ++ "`")
      else .ok ()

/- The claims that the handler's key has signed. -/
def signedClaims
    (compactJws : String) : Except String ReceiptClaims := do
  let (headerB64, payloadB64, sigB64) ← splitReceipt compactJws
  let headerBytes ← decodeSegment deps "header" headerB64
  let header ←
    (packages.headerOfSlice headerBytes).mapError
      ("receipt: header JSON: " ++ ·)
  signer.checkHeader header
  let signature ← decodeSegment deps "signature" sigB64
  signer.checkSignature deps (headerB64 ++ "." ++ payloadB64)
    signature
  let payloadBytes ← decodeSegment deps "payload" payloadB64
  (packages.claimsOfSlice payloadBytes).mapError
    ("receipt: claims JSON: " ++ ·)

def verifyReceipt
    (compactJws : String)
    (expectedBody : Option (List UInt8)) :
    Except String ReceiptClaims := do
  let claims ← signer.signedClaims deps packages compactJws
  checkDigest deps claims expectedBody
  pure claims

end ReceiptSigner

/-
  Blank what the signature fills in: three members of the
  receipt. Its `kid` stays.
-/
def blankStub : Json → Json
  | .obj fields =>
      .obj (fields.map fun field =>
        if field.1 ∈ ["jti", "jws", "body_digest"] then
          (field.1, .str "")
        else field)
  | other => other

def blankReceipt : Json → Json
  | .obj fields =>
      .obj (fields.map fun field =>
        if field.1 = "receipt" then
          (field.1, blankStub field.2)
        else field)
  | other => other

end Model

end IcpHandler

------------------------------------------------------------
-- What the Packages Are Relied on For
------------------------------------------------------------

namespace IcpHandler

namespace Model

namespace ReceiptSigner

/-
  JCS, base64url, SHA-256, Ed25519 and the JSON texts of serde
  behave as specified.
-/
structure Behaves
    (deps : Deps)
    (packages : Packages)
    (signer : ReceiptSigner) : Prop where
  -- a response has the canonical form of its JSON value
  jcs_body :
    ∀ body : IntentResponseBody,
      deps.jcsBody body =
        packages.jcs (body.toJson packages.times)
  collision_free :
    ∀ bytes bytes',
      deps.bodySha256 bytes = deps.bodySha256 bytes' →
      bytes = bytes'
  base64_decode :
    ∀ bytes,
      deps.base64Decode (packages.base64Encode bytes) =
        some bytes
  base64_no_dot :
    ∀ bytes, '.' ∉ (packages.base64Encode bytes).toList
  sign_length :
    ∀ signingInput,
      (packages.sign signer.signingKey signingInput).length = 64
  sign_verifies :
    ∀ signingInput,
      deps.verify signer.verifyingKey signingInput
        (packages.sign signer.signingKey signingInput) = true
  -- a text is read as the JSON value it was written from
  header_text :
    ∀ (header header' : ReceiptHeader) bytes,
      packages.headerToVec header = .ok bytes →
      ReceiptHeader.ofJson? header.toJson = some header' →
      packages.headerOfSlice bytes = .ok header'
  claims_text :
    ∀ (claims claims' : ReceiptClaims) bytes,
      packages.jcsClaims claims = .ok bytes →
      claims.ExactTime →
      ReceiptClaims.ofJson? claims.toJson = some claims' →
      packages.claimsOfSlice bytes = .ok claims'
  -- a response that nests too deep may be refused
  body_text :
    ∀ (body body' : IntentResponseBody) text,
      deps.bodyToText body = .ok text →
      (body.toJson packages.times).Plain →
      deps.bodyOfText text = .ok body' →
      IntentResponseBody.ofJson? packages.times
        (body.toJson packages.times) = some body'
  -- the seconds of a `DateTime<Utc>` stay far below 2^53
  timestamp_bound :
    ∀ instant, (deps.timestamp instant).natAbs ≤ 9007199254740992

end ReceiptSigner

end Model

end IcpHandler
