import IcpHandler.Data.JsonWriter
import IcpHandler.Data.ShortestDecimal

/-
  How the clients serialize a mandate before they sign it, and
  the canonical form of RFC 8785 that the handler uses.

  Main declarations:
    * `GoRelease`, `canonicalJSON`
    * `dumps`
    * `jcs`
-/

------------------------------------------------------------
-- Parts of the Encoders
------------------------------------------------------------

namespace IcpHandler

namespace Model

open Data

namespace ClientJson

/- `\uXXXX`, in lower case. -/
def unicodeEscape (unit : Nat) : List Char :=
  ['\\', 'u', Nat.digitChar (unit / 4096 % 16),
    Nat.digitChar (unit / 256 % 16),
    Nat.digitChar (unit / 16 % 16),
    Nat.digitChar (unit % 16)]

/- The code units of a character in UTF-16. -/
def utf16Units (c : Char) : List Nat :=
  if c.toNat < 65536 then [c.toNat]
  else
    [55296 + (c.toNat - 65536) / 1024,
      56320 + (c.toNat - 65536) % 1024]

/- The bytes of a character in UTF-8. -/
def utf8Units (c : Char) : List Nat :=
  (String.utf8EncodeChar c).map UInt8.toNat

/- An integer, by the text of its magnitude. -/
def signed
    (magnitude : Nat → List Char)
    (n : Int) : List Char :=
  if n < 0 then '-' :: magnitude n.natAbs
  else magnitude n.natAbs

/- All digits of an integer, as both clients write it. -/
def decimal : Int → List Char :=
  signed (Nat.toDigits 10)

/- The UTF-8 bytes of a text. -/
def encodeUtf8 (text : List Char) : ByteArray :=
  (String.ofList text).toByteArray

theorem encodeUtf8_inj
    {text text' : List Char} :
    encodeUtf8 text = encodeUtf8 text' ↔ text = text' := by
  unfold encodeUtf8
  rw [String.toByteArray_inj]
  constructor
  · intro hSame
    rw [← String.toList_ofList (l := text), hSame,
      String.toList_ofList]
  · rintro rfl
    rfl

end ClientJson

end Model

end IcpHandler

------------------------------------------------------------
-- The Go Client
------------------------------------------------------------

namespace IcpHandler

namespace Model

open Data

namespace ClientJson

/-
  The release of `encoding/json` that the client is built
  with. Since 1.22 the backspace and the form feed have short
  escapes. The module only asks for 1.20.
-/
structure GoRelease where
  shortEscapes : Bool
  deriving DecidableEq

/- `appendString`, without the escapes for HTML -/
def goEscape (release : GoRelease) (c : Char) : List Char :=
  if c = '\\' ∨ c = '"' then ['\\', c]
  else if c = '\x08' ∧ release.shortEscapes then ['\\', 'b']
  else if c = '\x0c' ∧ release.shortEscapes then ['\\', 'f']
  else if c = '\n' then ['\\', 'n']
  else if c = '\r' then ['\\', 'r']
  else if c = '\t' then ['\\', 't']
  else if c.toNat < 32 then unicodeEscape c.toNat
  -- the line and the paragraph separator
  else if c.toNat = 8232 ∨ c.toNat = 8233 then
    unicodeEscape c.toNat
  else [c]

/- The keys of a map are compared byte by byte. -/
def goStyle (release : GoRelease) : JsonStyle where
  escape := goEscape release
  number := decimal
  units := utf8Units

/- The encoder ends with a newline, which is cut off. -/
def canonicalJSON
    (release : GoRelease)
    (v : JsonValue) : ByteArray :=
  let out := (goStyle release).write v ++ ['\n']
  encodeUtf8
    (if out.getLast? = some '\n' then out.dropLast else out)

theorem canonicalJSON_eq
    {release : GoRelease}
    {v : JsonValue} :
    canonicalJSON release v =
      encodeUtf8 ((goStyle release).write v) := by
  simp [canonicalJSON]

end ClientJson

end Model

end IcpHandler

------------------------------------------------------------
-- The Python Client
------------------------------------------------------------

namespace IcpHandler

namespace Model

open Data

namespace ClientJson

/- `ensure_ascii`, which `json.dumps` has on by default -/
def pythonEscape (c : Char) : List Char :=
  if c = '\\' ∨ c = '"' then ['\\', c]
  else if c = '\x08' then ['\\', 'b']
  else if c = '\x0c' then ['\\', 'f']
  else if c = '\n' then ['\\', 'n']
  else if c = '\r' then ['\\', 'r']
  else if c = '\t' then ['\\', 't']
  else if 32 ≤ c.toNat ∧ c.toNat ≤ 126 then [c]
  else (utf16Units c).flatMap unicodeEscape

/- `sort_keys` compares code points. -/
def pythonStyle : JsonStyle where
  escape := pythonEscape
  number := decimal
  units c := [c.toNat]

/-
  `json.dumps` with compact separators and sorted keys, and
  `encode("utf-8")`, as in `sign_mandate`
-/
def dumps (v : JsonValue) : ByteArray :=
  encodeUtf8 (pythonStyle.write v)

end ClientJson

end Model

end IcpHandler

------------------------------------------------------------
-- The Canonical Form
------------------------------------------------------------

namespace IcpHandler

namespace Model

open Data

namespace ClientJson

/- Only what has to be escaped is. -/
def jcsEscape (c : Char) : List Char :=
  if c = '\\' ∨ c = '"' then ['\\', c]
  else if c = '\x08' then ['\\', 'b']
  else if c = '\t' then ['\\', 't']
  else if c = '\n' then ['\\', 'n']
  else if c = '\x0c' then ['\\', 'f']
  else if c = '\r' then ['\\', 'r']
  else if c.toNat < 32 then unicodeEscape c.toNat
  else [c]

/- Numbers as in ECMAScript, keys by their UTF-16 units. -/
def jcsStyle : JsonStyle where
  escape := jcsEscape
  number := signed numberText
  units := utf16Units

/- The integer is not too large for a double. -/
def HasDouble (n : Int) : Prop :=
  roundToDouble n.natAbs < 2 ^ doubleExponent

instance : DecidablePred HasDouble := fun n =>
  inferInstanceAs
    (Decidable (roundToDouble n.natAbs < 2 ^ doubleExponent))

/-
  The form of RFC 8785. A value with an integer that no double
  is near has none.
-/
def jcs (v : JsonValue) : Option ByteArray :=
  if v.Every (fun _ => True) HasDouble then
    some (encodeUtf8 (jcsStyle.write v))
  else none

end ClientJson

end Model

end IcpHandler
