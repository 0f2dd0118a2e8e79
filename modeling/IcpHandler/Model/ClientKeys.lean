import IcpHandler.Model.Bytes

/-
  How the clients write a public key as a `did:key`. Both have
  an encoder of base58btc of their own.

  Main declarations:
    * `Alphabet58`, `base58Alphabet`, `b58Alphabet`
    * `base58btcEncode`, `didKeyFromPublicKey` of the Go client
    * `base58btcEncodePy`, `didKeyFromPublicKeyPy`
-/

------------------------------------------------------------
-- Parts of the Encoders
------------------------------------------------------------

namespace IcpHandler

namespace Model

namespace ClientKeys

/- An alphabet with a symbol for each digit of base 58. -/
structure Alphabet58 where
  symbols : List Char
  length : symbols.length = 58

namespace Alphabet58

/- The symbol of a remainder. -/
def symbol
    (alphabet : Alphabet58)
    (num : Nat) : Char :=
  have hDigit : num % 58 < alphabet.symbols.length := by
    rw [alphabet.length]
    exact Nat.mod_lt num (by decide)
  alphabet.symbols[num % 58]

end Alphabet58

/- The zeros before the loop breaks off. -/
def countLeading : Bytes → Nat → Nat
  | [], leading => leading
  | b :: data, leading =>
      if b != 0 then leading
      else countLeading data (leading + 1)

/- `SetBytes` of Go, `int.from_bytes(data, "big")` of Python -/
def bigEndian (data : Bytes) : Nat :=
  data.foldl (fun num b => num * 256 + b.toNat) 0

/- The loop of divisions, the lowest digit first. -/
def pushDigits
    (alphabet : Alphabet58)
    (num : Nat)
    (out : Array Char) : Array Char :=
  if num > 0 then
    pushDigits alphabet (num / 58)
      (out.push (alphabet.symbol num))
  else out
termination_by num

end ClientKeys

end Model

end IcpHandler

------------------------------------------------------------
-- The Go Client
------------------------------------------------------------

namespace IcpHandler

namespace Model

namespace ClientKeys

/- `base58Alphabet`, its ASCII bytes as characters -/
def base58Alphabet : Alphabet58 where
  symbols :=
    ['1', '2', '3', '4', '5', '6', '7', '8', '9', 'A', 'B',
      'C', 'D', 'E', 'F', 'G', 'H', 'J', 'K', 'L', 'M', 'N',
      'P', 'Q', 'R', 'S', 'T', 'U', 'V', 'W', 'X', 'Y', 'Z',
      'a', 'b', 'c', 'd', 'e', 'f', 'g', 'h', 'i', 'j', 'k',
      'm', 'n', 'o', 'p', 'q', 'r', 's', 't', 'u', 'v', 'w',
      'x', 'y', 'z']
  length := rfl

/- The loop that appends one symbol for each leading zero. -/
def pushLeading
    (symbol : Char) : Nat → Array Char → Array Char
  | 0, out => out
  | leading + 1, out =>
      pushLeading symbol leading (out.push symbol)

/-
  The loop that swaps from both ends. Of an empty slice `j`
  starts at `-1` there and at `0` here; it ends at once.
-/
def swapEnds (out : Array Char) (i j : Nat) : Array Char :=
  if i < j then
    swapEnds (out.swapIfInBounds i j) (i + 1) (j - 1)
  else out
termination_by j - i

/- `base58btcEncode` -/
def base58btcEncode (data : Bytes) : String :=
  let leading := countLeading data 0
  let num := bigEndian data
  let out := pushDigits base58Alphabet num #[]
  let out := pushLeading (base58Alphabet.symbol 0) leading out
  let out := swapEnds out 0 (out.size - 1)
  String.ofList out.toList

/- `DIDKeyFromPublicKey` -/
def didKeyFromPublicKey (pk : Bytes) : Except String String :=
  if pk.length != 32 then
    .error ("ed25519 public key must be 32 bytes, got " ++
      toString pk.length)
  else
    .ok ("did:key:z" ++ base58btcEncode (0xed :: 0x01 :: pk))

end ClientKeys

end Model

end IcpHandler

------------------------------------------------------------
-- The Python Client
------------------------------------------------------------

namespace IcpHandler

namespace Model

namespace ClientKeys

/- `_B58_ALPHABET` -/
def b58Alphabet : Alphabet58 where
  symbols :=
    ['1', '2', '3', '4', '5', '6', '7', '8', '9', 'A', 'B',
      'C', 'D', 'E', 'F', 'G', 'H', 'J', 'K', 'L', 'M', 'N',
      'P', 'Q', 'R', 'S', 'T', 'U', 'V', 'W', 'X', 'Y', 'Z',
      'a', 'b', 'c', 'd', 'e', 'f', 'g', 'h', 'i', 'j', 'k',
      'm', 'n', 'o', 'p', 'q', 'r', 's', 't', 'u', 'v', 'w',
      'x', 'y', 'z']
  length := rfl

/- `_base58btc_encode` -/
def base58btcEncodePy (data : Bytes) : String :=
  let n := countLeading data 0
  let num := bigEndian data
  let out := pushDigits b58Alphabet num #[]
  let out := out ++ Array.replicate n '1'
  let out := out.reverse
  String.ofList out.toList

/- `did_key_from_public_key`, of the raw bytes -/
def didKeyFromPublicKeyPy (raw : Bytes) : String :=
  "did:key:z" ++ base58btcEncodePy (0xed :: 0x01 :: raw)

end ClientKeys

end Model

end IcpHandler
