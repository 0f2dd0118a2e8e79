import IcpHandler.Model.Intent
import IcpHandler.Model.Mandate
import IcpHandler.Model.Records

/-
  What the handler is configured with, and the functions it
  takes from other packages: the JSON decoders and encoders
  that serde derives, base64, the signature check, the date
  library and floating point.

  Main declarations:
    * `Config`
    * `Deps`
    * `IcpService`
    * `IntentInput`
-/

------------------------------------------------------------
-- Configuration
------------------------------------------------------------

namespace IcpHandler

namespace Model

/- The fields of `Config` the service layer reads. -/
structure Config where
  icpVersion : String := "2026-04-21"
  requireMandate : Bool := false
  verifyMandateSignatures : Bool := false
  publicBaseUrl : String := "http://127.0.0.1"
  webhookUrl : Option String := none
  webhookSecret : Option String := none
  subscriptionDunningScheduleHours : List UInt32 := []
  deploymentEnv : String := "test"
  paymentExecutionMode : String := "simulated"
  idempotencyLeaseSecs : Nat := 60

/- `Config::is_production` -/
def Config.isProduction (config : Config) : Bool :=
  Text.eqIgnoreAsciiCase config.deploymentEnv "production"

/- A verifying key that a principal advertises. -/
structure VerifyingKeyEntry where
  kid : Option String
  key : List UInt8

end Model

end IcpHandler

------------------------------------------------------------
-- Other Packages
------------------------------------------------------------

namespace IcpHandler

namespace Model

/- The functions of other packages. -/
structure Deps where
  calendar : Calendar
  rfc3339 : Rfc3339
  -- `serde_json::from_value`, at each parameter type
  quoteParams : Json → Except String QuoteParams
  authorizeParams : Json → Except String AuthorizeParams
  buyParams : Json → Except String BuyParams
  negotiateParams : Json → Except String NegotiateParams
  confirmReceiptParams :
    Json → Except String ConfirmReceiptParams
  subscribeParams : Json → Except String SubscribeParams
  renewParams : Json → Except String RenewParams
  subscriptionRefParams :
    Json → Except String SubscriptionRefParams
  a2aQuoteParams : Json → Except String A2aQuoteParams
  a2aPayParams : Json → Except String A2aPayParams
  -- `serde_json::to_string` and `serde_json::to_value`
  jsonToString : Json → String
  bodyToJson : IntentResponseBody → Json
  eventToString : Event → String
  timeToJson : DateTime → String
  -- `serde_json::to_vec` and `from_slice`, of a response
  bodyToText : IntentResponseBody → Except String String
  bodyOfText : String → Except String IntentResponseBody
  -- `serde_jcs::to_vec` and SHA-256 in hexadecimal
  jcsBody : IntentResponseBody → Except String (List UInt8)
  jcsEnvelope : IntentEnvelope → Except String (List UInt8)
  bodySha256 : List UInt8 → String
  -- base64url, and the decoders of the two mandate segments
  base64Decode : String → Option (List UInt8)
  mandatePayload : List UInt8 → Except String MandatePayload
  jwsHeader : List UInt8 → Except String JwsHeader
  -- Ed25519: key, signing input, signature
  verify : List UInt8 → String → List UInt8 → Bool
  -- `(0.0..=90.0).contains`, `{pct}`, and
  -- `(10_000.0 - pct * 100.0) as i128`
  pctInRange : F64 → Bool
  pctDisplay : F64 → String
  pctScale : F64 → Int
  -- the seconds of an instant, `DateTime::timestamp`
  timestamp : DateTime → Int

/-
  `IcpService`, without its stores: these are in the world the
  service acts on.
-/
structure IcpService where
  config : Config
  deps : Deps
  hasEngine : Bool
  signerKid : String

structure ApiKeyInfo where
  tenantId : String

structure AgentIdentifier where
  raw : String

structure IntentInput where
  envelope : IntentEnvelope
  agent : AgentIdentifier
  tenant : ApiKeyInfo
  mandateJws : Option String := none
  requestId : String := ""
  traceId : Option String := none
  skipMandateCheck : Bool := false
  skipRateLimit : Bool := false

/- What each `do_*` intent method returns. -/
structure Outcome where
  transaction : Transaction
  order : Option OrderSummary := none
  subscription : Option Subscription := none
  peerQuote : Option PeerQuote := none

end Model

end IcpHandler
