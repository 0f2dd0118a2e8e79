import IcpHandler.Data.Radix
import IcpHandler.Model.ClientKeys
import IcpHandler.Service.Resolver

/-
  Keys as text. Both clients write base58btc, and what they
  write decodes to the same bytes, leading zeros included; so
  a `did:key` that one of them or the handler writes resolves
  to its key.

  Main declarations:
    * `base58Encode`, `base58Decode`
    * `base58btcEncode_eq`, `base58btcEncodePy_eq`
    * `DecodesKeys`
    * `key_encodings_round_trip`
    * `client_did_keys_resolve`
-/

------------------------------------------------------------
-- Base58btc
------------------------------------------------------------

namespace IcpHandler

namespace Model

namespace ClientKeys

open Data

/- The alphabet of Bitcoin: no `0`, `O`, `I` or `l`. -/
def btcSymbols : List Char :=
  ['1', '2', '3', '4', '5', '6', '7', '8', '9',
    'A', 'B', 'C', 'D', 'E', 'F', 'G', 'H',
    'J', 'K', 'L', 'M', 'N',
    'P', 'Q', 'R', 'S', 'T', 'U', 'V', 'W', 'X', 'Y', 'Z',
    'a', 'b', 'c', 'd', 'e', 'f', 'g', 'h', 'i', 'j', 'k',
    'm', 'n', 'o', 'p', 'q', 'r', 's', 't', 'u', 'v', 'w',
    'x', 'y', 'z']

/-
  Base58btc: the number of the bytes in base 58, after one
  `1` for each leading zero byte.
-/
def base58Encode (data : Bytes) : String :=
  String.ofList (Radix.write btcSymbols
    (Radix.convert 256 58 (data.map UInt8.toNat)))

/- The number of the text in base 256, likewise. -/
def base58Decode (text : String) : Option Bytes :=
  (Radix.read btcSymbols text.toList).map fun digits =>
    (Radix.convert 58 256 digits).map UInt8.ofNat

private theorem nodup_btcSymbols : btcSymbols.Nodup := by
  decide

/- What is encoded decodes to the same bytes. -/
theorem base58Decode_encode (data : Bytes) :
    base58Decode (base58Encode data) = some data := by
  have hBytes : ∀ d ∈ data.map UInt8.toNat, d < 256 := by
    intro d hMem
    obtain ⟨b, -, hByte⟩ := List.mem_map.mp hMem
    rw [← hByte]
    exact b.toNat_lt
  have hRead :
      Radix.read btcSymbols (base58Encode data).toList =
        some (Radix.convert 256 58
          (data.map UInt8.toNat)) := by
    unfold base58Encode
    rw [String.toList_ofList]
    apply Radix.read_write nodup_btcSymbols
    intro d hMem
    exact Radix.lt_of_mem_convert (by decide) hMem
  unfold base58Decode
  rw [hRead, Option.map_some,
    Radix.convert_convert (by decide) (by decide) hBytes,
    List.map_map]
  refine congrArg some ?_
  calc
    data.map (UInt8.ofNat ∘ UInt8.toNat) = data.map id := by
      apply List.map_congr_left
      intro b _
      exact UInt8.ofNat_toNat
    _ = data := List.map_id data

end ClientKeys

end Model

end IcpHandler

------------------------------------------------------------
-- The Loops of the Encoders
------------------------------------------------------------

namespace IcpHandler

namespace Model

namespace ClientKeys

open Data

theorem countLeading_eq
    (data : Bytes)
    (leading : Nat) :
    countLeading data leading =
      leading + Radix.leadingZeros (data.map UInt8.toNat) := by
  induction data generalizing leading with
  | nil => rfl
  | cons b data ih =>
      rw [countLeading, List.map_cons, Radix.leadingZeros]
      by_cases hZero : b = 0
      · subst hZero
        have hNat : UInt8.toNat 0 = 0 := rfl
        rw [if_neg (by decide), if_pos hNat, ih]
        omega
      · have hNat : b.toNat ≠ 0 := by
          intro hNat
          exact hZero (UInt8.toNat_inj.mp hNat)
        rw [if_pos (by simpa using hZero), if_neg hNat,
          Nat.add_zero]

theorem bigEndian_eq (data : Bytes) :
    bigEndian data =
      Radix.value 256 (data.map UInt8.toNat) := by
  unfold bigEndian Radix.value
  rw [Nat.ofDigits_eq_foldr, List.foldr_reverse,
    List.foldl_map]
  congr 1
  funext num b
  simp only [Nat.cast_id]
  omega

/- The symbol of a digit is the one at its place. -/
private theorem write_singleton
    (alphabet : Alphabet58)
    (num : Nat) :
    Radix.write alphabet.symbols [num % 58] =
      [alphabet.symbol num] := by
  have hDigit : num % 58 < alphabet.symbols.length := by
    rw [alphabet.length]
    exact Nat.mod_lt num (by decide)
  unfold Radix.write
  rw [List.filterMap_cons_some
    (List.getElem?_eq_getElem hDigit)]
  rfl

/- The divisions append the digits, lowest first. -/
theorem toList_pushDigits
    (alphabet : Alphabet58)
    (num : Nat)
    (out : Array Char) :
    (pushDigits alphabet num out).toList =
      out.toList ++
        Radix.write alphabet.symbols (Nat.digits 58 num) := by
  fun_induction pushDigits alphabet num out with
  | case1 num out hPos ih =>
      have hDigits :
          Nat.digits 58 num =
            [num % 58] ++ Nat.digits 58 (num / 58) :=
        Nat.digits_def' (by decide) hPos
      rw [ih, Array.toList_push, hDigits, Radix.write_append,
        write_singleton, List.append_assoc]
  | case2 num out hZero =>
      have hZero : num = 0 := by omega
      subst hZero
      rw [Nat.digits_zero]
      exact (List.append_nil _).symm

theorem toList_pushLeading
    (symbol : Char)
    (leading : Nat)
    (out : Array Char) :
    (pushLeading symbol leading out).toList =
      out.toList ++ List.replicate leading symbol := by
  induction leading generalizing out with
  | zero => exact (List.append_nil _).symm
  | succ leading ih =>
      rw [pushLeading, ih, Array.toList_push,
        List.append_assoc]
      rfl

/- Between the ends the slice is turned over. -/
theorem getElem?_swapEnds
    {out : Array Char}
    {i j : Nat}
    (hEnd : j < out.size ∨ j = 0)
    (k : Nat) :
    (swapEnds out i j)[k]? =
      if i ≤ k ∧ k ≤ j then out[i + j - k]? else out[k]? := by
  fun_induction swapEnds out i j with
  | case1 out i j hOrder ih =>
      have hJ : j < out.size := by omega
      have hI : i < out.size := by omega
      have hSize :
          j - 1 < (out.swapIfInBounds i j).size := by
        rw [Array.size_swapIfInBounds]
        omega
      rw [ih (.inl hSize), Array.swapIfInBounds_def,
        dif_pos hI, dif_pos hJ]
      simp only [Array.getElem?_swap]
      by_cases hK : i ≤ k ∧ k ≤ j
      · rw [if_pos hK]
        by_cases hLeft : k = i
        · subst hLeft
          rw [if_neg (by omega), if_neg (by omega), if_pos rfl,
            Nat.add_sub_cancel_left,
            Array.getElem?_eq_getElem hJ]
        by_cases hRight : k = j
        · subst hRight
          rw [if_neg (by omega), if_pos rfl,
            Nat.add_sub_cancel, Array.getElem?_eq_getElem hI]
        · rw [if_pos (by omega), if_neg (by omega),
            if_neg (by omega)]
          congr 1
          omega
      · rw [if_neg hK, if_neg (by omega), if_neg (by omega),
          if_neg (by omega)]
  | case2 out i j hOrder =>
      by_cases hK : i ≤ k ∧ k ≤ j
      · rw [if_pos hK]
        congr 1
        omega
      · rw [if_neg hK]

/- From both ends of a whole slice it is reversed. -/
theorem swapEnds_eq_reverse (out : Array Char) :
    swapEnds out 0 (out.size - 1) = out.reverse := by
  apply Array.ext_getElem?
  intro k
  rw [getElem?_swapEnds (by omega)]
  by_cases hK : k < out.size
  · rw [if_pos (by omega), Array.getElem?_reverse hK,
      Nat.zero_add]
  · have hNone : out.reverse[k]? = none := by
      apply Array.getElem?_eq_none
      rw [Array.size_reverse]
      omega
    rw [hNone]
    split
    · exact Array.getElem?_eq_none (by omega)
    · exact Array.getElem?_eq_none (by omega)

end ClientKeys

end Model

end IcpHandler

------------------------------------------------------------
-- Both Encoders
------------------------------------------------------------

namespace IcpHandler

namespace Model

namespace ClientKeys

open Data

/- What the loops have appended, the other way round. -/
private theorem reverse_appended
    (data : Bytes) :
    (Radix.write btcSymbols
          (Nat.digits 58 (bigEndian data)) ++
        List.replicate (countLeading data 0) '1').reverse =
      (base58Encode data).toList := by
  have hZeros :
      ∀ z : Nat,
        Radix.write btcSymbols (List.replicate z 0) =
          List.replicate z '1' := by
    intro z
    induction z with
    | zero => rfl
    | succ z ih =>
        rw [List.replicate_succ, List.replicate_succ, ← ih]
        rfl
  have hReverse :
      ∀ digits : List Nat,
        (Radix.write btcSymbols digits).reverse =
          Radix.write btcSymbols digits.reverse := by
    intro digits
    exact (List.filterMap_reverse).symm
  unfold base58Encode Radix.convert Radix.digits
  rw [String.toList_ofList, List.reverse_append,
    List.reverse_replicate, hReverse, Radix.write_append,
    hZeros, countLeading_eq, bigEndian_eq, Nat.zero_add]

theorem base58btcEncode_eq (data : Bytes) :
    base58btcEncode data = base58Encode data := by
  have hSymbol : base58Alphabet.symbol 0 = '1' := rfl
  have hSymbols : base58Alphabet.symbols = btcSymbols := rfl
  unfold base58btcEncode
  dsimp only
  rw [swapEnds_eq_reverse, Array.toList_reverse,
    toList_pushLeading, toList_pushDigits, hSymbol, hSymbols,
    List.nil_append, reverse_appended, String.ofList_toList]

theorem base58btcEncodePy_eq (data : Bytes) :
    base58btcEncodePy data = base58Encode data := by
  have hSymbols : b58Alphabet.symbols = btcSymbols := rfl
  unfold base58btcEncodePy
  dsimp only
  rw [Array.toList_reverse, Array.toList_append,
    Array.toList_replicate, toList_pushDigits, hSymbols,
    List.nil_append, reverse_appended, String.ofList_toList]

/- Leading zeros are written as ones. -/
example : base58btcEncode [0, 0, 0, 0x61] = "1112g" := by
  decide +kernel

end ClientKeys

end Model

end IcpHandler

------------------------------------------------------------
-- Keys as DIDs
------------------------------------------------------------

namespace IcpHandler

namespace Service

open Model
open ClientKeys

/-
  What the packages do: `bs58` implements base58btc, and the
  32 bytes of a key are read as that key.
-/
structure Faithful
    {Key : Type}
    (packages : KeyPackages Key)
    (writers : KeyWriters Key) : Prop where
  decode (text : String) (data : Bytes) :
    base58Decode text = some data →
      packages.base58 text = .ok data
  encode (data : Bytes) :
    writers.base58 data = base58Encode data
  length_toBytes (key : Key) :
    (writers.toBytes key).length = 32
  fromBytes_toBytes (key : Key) :
    packages.fromBytes (writers.toBytes key) = .ok key

section Faithful

variable {Key : Type}
variable {packages : KeyPackages Key}
variable {writers : KeyWriters Key}

/- The multicodec prefix and the key, in base58btc. -/
def fingerprint
    (writers : KeyWriters Key)
    (key : Key) : String :=
  "z" ++ base58Encode (0xed :: 0x01 :: writers.toBytes key)

theorem Faithful.encodeDidKey_eq
    (hFaithful : Faithful packages writers)
    (key : Key) :
    encodeDidKey writers key =
      "did:key:" ++ fingerprint writers key := by
  have hPrefix : "did:key:z" = "did:key:" ++ "z" := rfl
  unfold encodeDidKey fingerprint
  dsimp only
  rw [hFaithful.encode, hPrefix, String.append_assoc]

theorem Faithful.decodeDidKey_eq
    (hFaithful : Faithful packages writers)
    (key : Key) :
    decodeDidKey packages (fingerprint writers key) =
      .ok key := by
  have hDecode :=
    hFaithful.decode _ _ (base58Decode_encode
      (0xed :: 0x01 :: writers.toBytes key))
  have hLength := hFaithful.length_toBytes key
  unfold decodeDidKey fingerprint
  rw [Text.stripPrefix_append]
  dsimp only
  rw [hDecode]
  simp [hLength, hFaithful.fromBytes_toBytes]

/- The handler resolves what it writes. -/
theorem Faithful.resolveDidKey_eq
    (hFaithful : Faithful packages writers)
    (key : Key) :
    resolveDidKey packages (encodeDidKey writers key) =
      .ok [
        { kid := some (encodeDidKey writers key)
          alg := "EdDSA"
          key := key }] := by
  rw [hFaithful.encodeDidKey_eq]
  unfold resolveDidKey
  rw [Text.stripPrefix_append]
  dsimp only
  rw [hFaithful.decodeDidKey_eq]

/- Both clients write the `did:key` of the handler. -/
theorem Faithful.clients
    (hFaithful : Faithful packages writers)
    (key : Key) :
    didKeyFromPublicKey (writers.toBytes key) =
        .ok (encodeDidKey writers key) ∧
      didKeyFromPublicKeyPy (writers.toBytes key) =
        encodeDidKey writers key := by
  have hLength := hFaithful.length_toBytes key
  constructor
  · unfold didKeyFromPublicKey encodeDidKey
    dsimp only
    rw [if_neg (by simp [hLength]), base58btcEncode_eq,
      hFaithful.encode]
  · unfold didKeyFromPublicKeyPy encodeDidKey
    dsimp only
    rw [base58btcEncodePy_eq, hFaithful.encode]

/-
  For every byte string both clients write one text, which
  decodes to the bytes. For every key the fingerprint of its
  `did:key` decodes to the key, and the whole resolves to it.
-/
theorem key_encodings_round_trip
    (hFaithful : Faithful packages writers) :
    (∀ data : Bytes,
      base58btcEncode data = base58btcEncodePy data ∧
        base58Decode (base58btcEncode data) = some data) ∧
      ∀ key : Key, ∃ print : String,
        encodeDidKey writers key = "did:key:" ++ print ∧
          encodeMultibaseKey writers key = some print ∧
          decodeDidKey packages print = .ok key ∧
          resolveDidKey packages (encodeDidKey writers key) =
            .ok [
              { kid := some (encodeDidKey writers key)
                alg := "EdDSA"
                key := key }] := by
  constructor
  · intro data
    rw [base58btcEncode_eq, base58btcEncodePy_eq]
    exact ⟨rfl, base58Decode_encode data⟩
  · intro key
    have hMultibase :
        encodeMultibaseKey writers key =
          some (fingerprint writers key) := by
      unfold encodeMultibaseKey
      rw [hFaithful.encodeDidKey_eq, Text.stripPrefix_append]
    exact ⟨fingerprint writers key,
      hFaithful.encodeDidKey_eq key, hMultibase,
      hFaithful.decodeDidKey_eq key,
      hFaithful.resolveDidKey_eq key⟩

/- What a client writes of a key, the handler resolves. -/
theorem client_did_keys_resolve
    (hFaithful : Faithful packages writers)
    (key : Key)
    {did : String}
    (hClient :
      didKeyFromPublicKey (writers.toBytes key) = .ok did ∨
        didKeyFromPublicKeyPy (writers.toBytes key) = did) :
    resolveDidKey packages did =
      .ok [{ kid := some did, alg := "EdDSA", key := key }] := by
  have hDid : encodeDidKey writers key = did := by
    obtain ⟨hGo, hPython⟩ := hFaithful.clients key
    rcases hClient with hClient | hClient
    · rw [hGo] at hClient
      exact Except.ok.inj hClient
    · rw [hPython] at hClient
      exact hClient
  rw [← hDid]
  exact hFaithful.resolveDidKey_eq key

end Faithful

end Service

end IcpHandler

------------------------------------------------------------
-- Samples
------------------------------------------------------------

namespace IcpHandler

namespace Service

open Model
open ClientKeys

private abbrev SampleKey :=
  { bytes : Bytes // bytes.length = 32 }

private def samplePoint : SampleKey :=
  ⟨[0xd7, 0x5a, 0x98, 0x01, 0x82, 0xb1, 0x0a, 0xb7,
    0xd5, 0x4b, 0xfe, 0xd3, 0xc9, 0x64, 0x07, 0x3a,
    0x0e, 0xe1, 0x72, 0xf3, 0xda, 0xa6, 0x23, 0x25,
    0xaf, 0x02, 0x1a, 0x68, 0xf7, 0x07, 0x51, 0x1a], rfl⟩

/- The first of the vectors of `did:key`. -/
example :
    didKeyFromPublicKey samplePoint.val =
      .ok ("did:key:z6MktwupdmLXVVqTzCw4i46r4uGyosGXRnR3" ++
        "XjN4Zq7oMMsw") := by
  decide +kernel

private def sampleReaders : KeyPackages SampleKey where
  base58 text :=
    match base58Decode text with
    | some data => .ok data
    | none => .error "provided string contained invalid character"
  base64Url _ := .error "Invalid padding"
  fromBytes bytes :=
    if hLength : bytes.length = 32 then .ok ⟨bytes, hLength⟩
    else .error "signature error"

private def sampleWriters : KeyWriters SampleKey where
  base58 := base58Encode
  toBytes key := key.val

private theorem faithful_sample :
    Faithful sampleReaders sampleWriters where
  decode text data hData := by
    unfold sampleReaders
    dsimp only
    rw [hData]
  encode _ := rfl
  length_toBytes key := key.property
  fromBytes_toBytes key := dif_pos key.property

/- `encode_did_key` puts a prefix before the fingerprint. -/
private theorem decodeDidKey_encodeDidKey_sample :
    decodeDidKey sampleReaders
        (encodeDidKey sampleWriters samplePoint) =
      .error (.malformedDid
        "expected multibase `z` prefix") := by
  have hStrip :
      Text.stripPrefix "z"
        (encodeDidKey sampleWriters samplePoint) = none := by
    rw [faithful_sample.encodeDidKey_eq]
    unfold Text.stripPrefix
    rw [String.toList_append]
    rfl
  unfold decodeDidKey
  rw [hStrip]

/- The round trip of a key of the vectors. -/
theorem key_encodings_round_trip_sample :
    base58Decode (base58btcEncode [0, 0, 0, 0x61]) =
        some [0, 0, 0, 0x61] ∧
      resolveDidKey sampleReaders
          (encodeDidKey sampleWriters samplePoint) =
        .ok [
          { kid := some (encodeDidKey sampleWriters samplePoint)
            alg := "EdDSA"
            key := samplePoint }] := by
  obtain ⟨hTexts, hKeys⟩ :=
    key_encodings_round_trip faithful_sample
  obtain ⟨_, -, -, -, hResolve⟩ := hKeys samplePoint
  exact ⟨(hTexts [0, 0, 0, 0x61]).2, hResolve⟩

/- The whole text is not what `decode_did_key` takes. -/
theorem whole_did_key_not_decoded :
    ¬ ∀ (Key : Type)
        (packages : KeyPackages Key)
        (writers : KeyWriters Key),
        Faithful packages writers →
          (∀ data : Bytes,
            base58btcEncode data = base58btcEncodePy data ∧
              base58Decode (base58btcEncode data) =
                some data) ∧
            ∀ key : Key,
              decodeDidKey packages
                (encodeDidKey writers key) = .ok key := by
  intro hAll
  have hDecoded :=
    (hAll SampleKey sampleReaders sampleWriters
      faithful_sample).2 samplePoint
  rw [decodeDidKey_encodeDidKey_sample] at hDecoded
  cases hDecoded

end Service

end IcpHandler
