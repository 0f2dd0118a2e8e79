import IcpHandler.Model.Bytes
import IcpHandler.Model.Text

/-
  Signatures of webhooks. The MAC is HMAC-SHA256 of a package:
  a function of a key and a message, whose tag is written in
  hexadecimal digits.

  Main declarations:
    * `constantTimeEq`
    * `macInput`, `sign`
    * `readFields`, `verify`
-/

------------------------------------------------------------
-- Comparison
------------------------------------------------------------

namespace IcpHandler

namespace Service

open Model

/- `constant_time_eq` -/
def constantTimeEq (a b : Bytes) : Bool :=
  if a.length != b.length then false
  else
    (a.zip b).foldl
      (fun diff pair => diff ||| (pair.1 ^^^ pair.2))
      (0 : UInt8) == 0

end Service

end IcpHandler

------------------------------------------------------------
-- Signatures
------------------------------------------------------------

namespace IcpHandler

namespace Service

open Model

/- The package's MAC, of a key and a message. -/
variable (mac : Bytes → Bytes → Bytes)

/- What the MAC is updated with: the time, a dot, the body. -/
def macInput (timestampUnix : Int64) (body : Bytes) : Bytes :=
  utf8Bytes (toString timestampUnix.toInt ++ ".") ++ body

/- `sign` -/
def sign
    (secret : String)
    (timestampUnix : Int64)
    (body : Bytes) : String :=
  let tag := mac (utf8Bytes secret) (macInput timestampUnix body)
  "t=" ++ toString timestampUnix.toInt ++ ",v1=" ++ hexEncode tag

/- What has been read of a header. -/
structure SignatureFields where
  t : Option Int64 := none
  v1 : Option String := none

/- One field of a header. Others than these are tolerated. -/
def readField
    (fields : SignatureFields)
    (part : String) : SignatureFields :=
  let part := Text.trim part
  match Text.stripPrefix "t=" part with
  | some rest => { fields with t := Text.parseI64 rest }
  | none =>
      match Text.stripPrefix "v1=" part with
      | some rest => { fields with v1 := some rest }
      | none => fields

def readFields (headerValue : String) : SignatureFields :=
  (Text.splitOn ',' headerValue).foldl readField {}

/- `verify` -/
def verify
    (secret headerValue : String)
    (body : Bytes) : Bool :=
  let fields := readFields headerValue
  match fields.t, fields.v1 with
  | some ts, some supplied =>
      let expected := sign mac secret ts body
      let expectedV1 :=
        ((Text.splitOn ',' expected).findSome?
          (Text.stripPrefix "v1=")).getD ""
      constantTimeEq (utf8Bytes supplied) (utf8Bytes expectedV1)
  | _, _ => false

end Service

end IcpHandler
