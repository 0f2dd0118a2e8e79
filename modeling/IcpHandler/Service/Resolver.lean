import IcpHandler.Model.Bytes
import IcpHandler.Model.Text

/-
  The Ed25519 keys that a DID document advertises.

  Main declarations:
    * `KeyPackages`, `KeyWriters`
    * `decodeDidKey`, `encodeDidKey`
    * `resolveDidKey`
    * `VerificationMethod`, `DidDocument`
    * `jwkPoint`, `jwkKey`, `methodKey`
    * `parseVerificationMethods`
-/

------------------------------------------------------------
-- Keys in Multibase
------------------------------------------------------------

namespace IcpHandler

namespace Service

open Model

/- `ResolveError`, by the variants of the parser. -/
inductive ResolveError where
  | unsupportedMethod (message : String)
  | malformedDid (message : String)
  | keyExtraction (message : String)
  | didDocument (url message : String)
  deriving DecidableEq

/-
  The packages that decode keys: base58btc, base64url without
  padding, and `VerifyingKey::from_bytes` of 32 bytes.
-/
structure KeyPackages (Key : Type) where
  base58 : String → Except String Bytes
  base64Url : String → Except String Bytes
  fromBytes : Bytes → Except String Key

variable {Key : Type}
variable (packages : KeyPackages Key)

/- `0x` and two digits -/
def hexByte (byte : UInt8) : String := "0x" ++ hexEncode [byte]

/- `decode_did_key` -/
def decodeDidKey
    (fingerprint : String) : Except ResolveError Key :=
  match Text.stripPrefix "z" fingerprint with
  | none =>
      .error (.malformedDid "expected multibase `z` prefix")
  | some rest =>
      match packages.base58 rest with
      | .error e => .error (.malformedDid ("base58btc: " ++ e))
      | .ok bytes =>
          if bytes.length != 34 then
            .error (.malformedDid
              ("expected 34 bytes (2 multicodec + 32 key), " ++
                "got " ++ toString bytes.length))
          else if bytes.getD 0 0 != 0xed ||
              bytes.getD 1 0 != 0x01 then
            .error (.unsupportedMethod
              ("only Ed25519 (multicodec 0xed 0x01) " ++
                "supported in did:key, got " ++
                hexByte (bytes.getD 0 0) ++ " " ++
                hexByte (bytes.getD 1 0)))
          else
            match packages.fromBytes (bytes.drop 2) with
            | .error e =>
                .error (.keyExtraction ("ed25519-dalek: " ++ e))
            | .ok key => .ok key

/-
  The packages that write keys: base58btc, and the 32 bytes of
  a `VerifyingKey`.
-/
structure KeyWriters (Key : Type) where
  base58 : Bytes → String
  toBytes : Key → Bytes

variable (writers : KeyWriters Key)

/- `encode_did_key` -/
def encodeDidKey (key : Key) : String :=
  let body := 0xed :: 0x01 :: writers.toBytes key
  "did:key:z" ++ writers.base58 body

/- `encode_multibase_key`; without the prefix it panics. -/
def encodeMultibaseKey (key : Key) : Option String :=
  Text.stripPrefix "did:key:" (encodeDidKey writers key)

end Service

end IcpHandler

------------------------------------------------------------
-- Verification Methods
------------------------------------------------------------

namespace IcpHandler

namespace Service

open Model

structure Jwk where
  kty : Option String := none
  crv : Option String := none
  x : Option String := none

structure VerificationMethod where
  id : Option String := none
  type_ : Option String := none
  publicKeyMultibase : Option String := none
  publicKeyMultibaseCamel : Option String := none
  publicKeyJwk : Option Jwk := none
  publicKeyJwkCamel : Option Jwk := none

structure DidDocument where
  verificationMethod : List VerificationMethod := []
  verificationMethodCamel : List VerificationMethod := []

/- `VerifyingKeyEntry` -/
structure ResolvedKeyEntry (Key : Type) where
  kid : Option String
  alg : String
  key : Key
  deriving DecidableEq

namespace VerificationMethod

variable (vm : VerificationMethod)

def multibase : Option String :=
  vm.publicKeyMultibase.or vm.publicKeyMultibaseCamel

def jwk : Option Jwk :=
  vm.publicKeyJwk.or vm.publicKeyJwkCamel

/- The type is one of these, or missing. -/
def typeAccepted : Bool :=
  vm.type_.all fun t =>
    ["Ed25519VerificationKey2020", "Ed25519VerificationKey2018",
      "JsonWebKey2020", "Multikey"].contains t

end VerificationMethod

variable {Key : Type}
variable (packages : KeyPackages Key)

/- `DidKeyResolver::resolve` -/
def resolveDidKey
    (did : String) :
    Except ResolveError (List (ResolvedKeyEntry Key)) :=
  match Text.stripPrefix "did:key:" did with
  | none => .error (.unsupportedMethod did)
  | some fingerprint =>
      match decodeDidKey packages fingerprint with
      | .error e => .error e
      | .ok key =>
          .ok [
            { kid := some did
              alg := "EdDSA"
              key := key }]

/- The key that the `x` of a JWK stands for. -/
def jwkPoint (url x : String) : Except ResolveError Key :=
  match packages.base64Url x with
  | .error e =>
      .error (.didDocument url
        ("publicKeyJwk.x not base64url: " ++ e))
  | .ok bytes =>
      if bytes.length != 32 then
        .error (.didDocument url
          "publicKeyJwk.x is not 32 bytes (Ed25519)")
      else
        match packages.fromBytes bytes with
        | .error e =>
            .error (.didDocument url
              ("publicKeyJwk.x not a valid Ed25519 point: " ++
                e))
        | .ok key => .ok key

/- The key of a JWK, unless it is of another kind. -/
def jwkKey
    (url : String)
    (jwk : Jwk) : Except ResolveError (Option Key) :=
  if jwk.kty != some "OKP" || jwk.crv != some "Ed25519" then
    .ok none
  else
    match jwk.x with
    | none => .ok none
    | some x => (jwkPoint packages url x).map some

/- The key of a method. Multibase takes precedence. -/
def methodKey
    (url : String)
    (vm : VerificationMethod) :
    Except ResolveError (Option Key) :=
  match vm.multibase with
  | some mb =>
      match decodeDidKey packages mb with
      | .ok key => .ok (some key)
      | .error _ => .ok none
  | none =>
      match vm.jwk with
      | some jwk => jwkKey packages url jwk
      | none => .ok none

/- The loop over the methods. -/
def parseMethods
    (did url : String) :
    List VerificationMethod →
      Except ResolveError (List (ResolvedKeyEntry Key))
  | [] => .ok []
  | vm :: rest =>
      match methodKey packages url vm with
      | .error e => .error e
      | .ok none => parseMethods did url rest
      | .ok (some key) =>
          if vm.typeAccepted then
            (parseMethods did url rest).map fun out =>
              { kid := vm.id.or (some did)
                alg := "EdDSA"
                key := key } :: out
          else parseMethods did url rest

/- `parse_verification_methods` -/
def parseVerificationMethods
    (doc : DidDocument)
    (did url : String) :
    Except ResolveError (List (ResolvedKeyEntry Key)) :=
  parseMethods packages did url
    (doc.verificationMethod ++ doc.verificationMethodCamel)

end Service

end IcpHandler
