import IcpHandler.Service.Resolver

/-
  Which keys of a DID document are found. Methods without a
  usable key are passed over, except for one kind: an Ed25519
  JWK that does not decode ends the parser, and the keys of
  all other methods are lost with it.

  Main declarations:
    * `keyOf?`, `entryOf?`
    * `BrokenJwk`
    * `methodKey_cases`
    * `valid_keys_kept_iff`
-/

------------------------------------------------------------
-- Well-Formed Methods
------------------------------------------------------------

namespace IcpHandler

namespace Service

open Model

variable {Key : Type}
variable (packages : KeyPackages Key)

/- The bytes of a JWK, if it is of the kind for Ed25519. -/
def Jwk.ed25519? (jwk : Jwk) : Option String :=
  if jwk.kty = some "OKP" ∧ jwk.crv = some "Ed25519" then jwk.x
  else none

/- The key that a text of base64url stands for. -/
def pointOf? (x : String) : Option Key := do
  let bytes ← (packages.base64Url x).toOption
  if bytes.length = 32 then
    (packages.fromBytes bytes).toOption
  else none

/- The key that a method carries, if it is well formed. -/
def keyOf? (vm : VerificationMethod) : Option Key :=
  match vm.multibase with
  | some mb => (decodeDidKey packages mb).toOption
  | none => do
      let jwk ← vm.jwk
      let x ← jwk.ed25519?
      pointOf? packages x

/- What a well-formed method is found as. -/
def entryOf?
    (did : String)
    (vm : VerificationMethod) :
    Option (ResolvedKeyEntry Key) :=
  if vm.typeAccepted then
    (keyOf? packages vm).map fun key =>
      { kid := some (vm.id.getD did)
        alg := "EdDSA"
        key := key }
  else none

/- The method has an Ed25519 JWK without a key, and no more. -/
def BrokenJwk (vm : VerificationMethod) : Prop :=
  vm.multibase = none ∧
    ∃ jwk x, vm.jwk = some jwk ∧ jwk.ed25519? = some x ∧
      pointOf? packages x = none

theorem toOption_jwkPoint (url x : String) :
    (jwkPoint packages url x).toOption =
      pointOf? packages x := by
  unfold jwkPoint pointOf?
  cases packages.base64Url x with
  | error e => rfl
  | ok bytes =>
      dsimp only
      by_cases hLength : bytes.length = 32
      · rw [if_neg (by simpa using hLength)]
        cases hKey : packages.fromBytes bytes with
        | error e =>
            simp [Except.toOption, hLength, hKey]
        | ok key => simp [Except.toOption, hLength, hKey]
      · rw [if_pos (by simpa using hLength)]
        simp [Except.toOption, hLength]

/- Without an error there is the key of a method, if any. -/
theorem methodKey_of_sound
    (url : String)
    {vm : VerificationMethod}
    (hSound : ¬ BrokenJwk packages vm) :
    methodKey packages url vm = .ok (keyOf? packages vm) := by
  unfold methodKey keyOf?
  cases hMultibase : vm.multibase with
  | some mb =>
      dsimp only
      cases decodeDidKey packages mb with
      | ok key => rfl
      | error e => rfl
  | none =>
      cases hJwk : vm.jwk with
      | none => rfl
      | some jwk =>
          dsimp only
          unfold jwkKey
          by_cases hKind :
              jwk.kty = some "OKP" ∧ jwk.crv = some "Ed25519"
          · rw [if_neg (by simp [hKind])]
            cases hX : jwk.x with
            | none => simp [Jwk.ed25519?, hX]
            | some x =>
                have hEd : jwk.ed25519? = some x := by
                  rw [Jwk.ed25519?, if_pos hKind, hX]
                have hPoint := toOption_jwkPoint packages url x
                cases hFound : jwkPoint packages url x with
                | ok key =>
                    rw [hFound] at hPoint
                    simp [hEd, ← hPoint, hFound,
                      Except.toOption, Except.map]
                | error e =>
                    rw [hFound] at hPoint
                    exact (hSound ⟨hMultibase, jwk, x, hJwk,
                      hEd, hPoint.symm⟩).elim
          · rw [if_pos (by
              by_contra hNot
              simp at hNot
              exact hKind hNot)]
            simp [Jwk.ed25519?, hKind]

/- A broken JWK ends the parser, whatever its type. -/
theorem methodKey_of_broken
    (url : String)
    {vm : VerificationMethod}
    (hBroken : BrokenJwk packages vm) :
    ∃ e, methodKey packages url vm = .error e := by
  obtain ⟨hMultibase, jwk, x, hJwk, hEd, hNone⟩ := hBroken
  have hPoint := toOption_jwkPoint packages url x
  rw [hNone] at hPoint
  unfold Jwk.ed25519? at hEd
  split at hEd
  · rename_i hKind
    unfold methodKey
    rw [hMultibase, hJwk]
    dsimp only
    unfold jwkKey
    rw [if_neg (by simp [hKind]), hEd]
    cases hFound : jwkPoint packages url x with
    | error e => exact ⟨e, by simp [hFound, Except.map]⟩
    | ok key =>
        rw [hFound] at hPoint
        cases hPoint
  · cases hEd

end Service

end IcpHandler

------------------------------------------------------------
-- Documents
------------------------------------------------------------

namespace IcpHandler

namespace Service

open Model

section Documents

variable {Key : Type}
variable {packages : KeyPackages Key}

/- The entry of one method is put before those of the rest. -/
theorem parseMethods_cons
    (did url : String)
    {vm : VerificationMethod}
    (rest : List VerificationMethod)
    (hSound : ¬ BrokenJwk packages vm) :
    parseMethods packages did url (vm :: rest) =
      (parseMethods packages did url rest).map
        ((entryOf? packages did vm).toList ++ ·) := by
  have hId :
      ∀ result :
          Except ResolveError (List (ResolvedKeyEntry Key)),
        result.map ([] ++ ·) = result := by
    intro result
    cases result with
    | ok out => rfl
    | error e => rfl
  rw [parseMethods, methodKey_of_sound packages url hSound]
  unfold entryOf?
  cases hKey : keyOf? packages vm with
  | none =>
      dsimp only
      split
      · exact (hId _).symm
      · exact (hId _).symm
  | some key =>
      dsimp only
      by_cases hType : vm.typeAccepted = true
      · rw [if_pos hType, if_pos hType]
        have hKid : vm.id.or (some did) = some (vm.id.getD did) := by
          cases vm.id with
          | none => rfl
          | some id => rfl
        rw [hKid]
        rfl
      · rw [if_neg hType, if_neg hType]
        exact (hId _).symm

theorem parseMethods_iff
    (did url : String)
    (methods : List VerificationMethod) :
    parseMethods packages did url methods =
        .ok (methods.filterMap (entryOf? packages did)) ↔
      ∀ vm ∈ methods, ¬ BrokenJwk packages vm := by
  induction methods with
  | nil => exact ⟨fun _ _ hNone => (nomatch hNone), fun _ => rfl⟩
  | cons vm rest ih =>
      rw [List.forall_mem_cons]
      by_cases hBroken : BrokenJwk packages vm
      · obtain ⟨e, hError⟩ := methodKey_of_broken packages url
          hBroken
        rw [parseMethods, hError]
        constructor
        · intro hNo
          cases hNo
        · exact fun hSound => absurd hBroken hSound.1
      · have hList :
            (vm :: rest).filterMap (entryOf? packages did) =
              (entryOf? packages did vm).toList ++
                rest.filterMap (entryOf? packages did) := by
          rw [List.filterMap_cons]
          cases entryOf? packages did vm with
          | none => rfl
          | some entry => rfl
        rw [parseMethods_cons did url rest hBroken, hList]
        cases hRest : parseMethods packages did url rest with
        | error e =>
            rw [hRest] at ih
            constructor
            · intro hNo
              cases hNo
            · exact fun hSound => nomatch ih.mpr hSound.2
        | ok out =>
            rw [hRest, Except.ok.injEq] at ih
            rw [Except.map, Except.ok.injEq,
              List.append_cancel_left_eq, ih]
            exact ⟨fun hSound => ⟨hBroken, hSound⟩, And.right⟩

end Documents

/-
  The entries of a document are those of its well-formed
  methods, in their order, exactly if no method has a broken
  JWK.
-/
theorem valid_keys_kept_iff
    {Key : Type}
    (packages : KeyPackages Key)
    (doc : DidDocument)
    (did url : String) :
    parseVerificationMethods packages doc did url =
        .ok ((doc.verificationMethod ++
          doc.verificationMethodCamel).filterMap
            (entryOf? packages did)) ↔
      ∀ vm ∈ doc.verificationMethod ++
          doc.verificationMethodCamel,
        ¬ BrokenJwk packages vm :=
  parseMethods_iff did url _

/- A key, and packages that know its fingerprint. -/
private def sampleKey : Bytes :=
  [46, 111, 204, 227, 103, 1, 220, 121, 20, 136, 224, 208, 177,
    116, 92, 193, 227, 58, 76, 28, 159, 204, 65, 198, 59, 211,
    67, 219, 190, 9, 112, 230]

private def samplePackages : KeyPackages Bytes where
  base58 text :=
    if text =
        "6MkhaXgBZDvotDkL5257faiztiGiC2QtKLGpbnnEGta2doK" then
      .ok (0xed :: 0x01 :: sampleKey)
    else .error "provided string contained invalid character"
  base64Url _ := .error "Invalid symbol 33, offset 0."
  fromBytes := .ok

/- A key in multibase, and a JWK that is none. -/
private def mixedDocument : DidDocument where
  verificationMethod :=
    [{ id := some "did:web:example.com#key-1"
       publicKeyMultibase :=
         some
           "z6MkhaXgBZDvotDkL5257faiztiGiC2QtKLGpbnnEGta2doK" },
      { publicKeyJwk :=
          some
            { kty := some "OKP"
              crv := some "Ed25519"
              x := some "!!" } }]

/- The broken JWK takes the valid key with it. -/
theorem broken_jwk_hides_key :
    ¬ ∀ (packages : KeyPackages Bytes) (doc : DidDocument)
        (did url : String),
      parseVerificationMethods packages doc did url =
        .ok ((doc.verificationMethod ++
          doc.verificationMethodCamel).filterMap
            (entryOf? packages did)) := by
  intro hAll
  have hSound :=
    parseMethods_iff _ _ _ |>.mp
      (hAll samplePackages mixedDocument "did:web:example.com"
        "https://example.com/.well-known/did.json")
  exact hSound _ (List.mem_cons_of_mem _ List.mem_cons_self)
    ⟨rfl, _, "!!", rfl, by decide, rfl⟩

example :
    (keyOf? samplePackages
      { publicKeyMultibase :=
          some
            "z6MkhaXgBZDvotDkL5257faiztiGiC2QtKLGpbnnEGta2doK" })
      = some sampleKey := by
  decide

end Service

end IcpHandler
