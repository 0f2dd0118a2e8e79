import IcpHandler.Model.Errors
import IcpHandler.Model.Text

/-
  The canonical intents, their wire names and the mandate
  scope that gates each of them.

  Main declarations:
    * `Intent`
    * `Intent.parse`
    * `Intent.scope`
    * `Intent.isStateChange`
    * `Intent.parse_wireName`
-/

------------------------------------------------------------
-- Intents
------------------------------------------------------------

namespace IcpHandler

namespace Model

inductive Intent where
  | search
  | describe
  | quote
  | negotiate
  | authorize
  | buy
  | pay
  | subscribe
  | renew
  | pause
  | cancelSubscription
  | track
  | confirmReceipt
  | return
  | refundRequest
  | a2aPay
  | a2aQuote
  deriving DecidableEq, Repr

namespace Intent

/- Parse the canonical name, with or without `intent.`. -/
def parse (s : String) : Except ApiError Intent :=
  let trimmed := Text.trim s
  let name :=
    (Text.stripPrefix "intent." trimmed).getD trimmed
  match name with
  | "search" => .ok .search
  | "describe" => .ok .describe
  | "quote" => .ok .quote
  | "negotiate" => .ok .negotiate
  | "authorize" => .ok .authorize
  | "buy" => .ok .buy
  | "pay" => .ok .pay
  | "subscribe" => .ok .subscribe
  | "renew" => .ok .renew
  | "pause" => .ok .pause
  | "cancel_subscription" => .ok .cancelSubscription
  | "track" => .ok .track
  | "confirm_receipt" => .ok .confirmReceipt
  | "return" => .ok .return
  | "refund_request" => .ok .refundRequest
  | "a2a_pay" => .ok .a2aPay
  | "a2a_quote" => .ok .a2aQuote
  | other =>
      .error (.intentNotSupported
        ("unknown intent `intent." ++ other ++ "`"))

def wireName : Intent → String
  | .search => "intent.search"
  | .describe => "intent.describe"
  | .quote => "intent.quote"
  | .negotiate => "intent.negotiate"
  | .authorize => "intent.authorize"
  | .buy => "intent.buy"
  | .pay => "intent.pay"
  | .subscribe => "intent.subscribe"
  | .renew => "intent.renew"
  | .pause => "intent.pause"
  | .cancelSubscription => "intent.cancel_subscription"
  | .track => "intent.track"
  | .confirmReceipt => "intent.confirm_receipt"
  | .return => "intent.return"
  | .refundRequest => "intent.refund_request"
  | .a2aPay => "intent.a2a_pay"
  | .a2aQuote => "intent.a2a_quote"

/-
  The mandate scope that gates the intent. The read-only
  intents have none.
-/
def scope : Intent → Option String
  | .search | .describe => none
  | .quote | .negotiate => some "quote"
  | .authorize | .buy | .pay => some "buy"
  | .subscribe | .renew | .pause | .cancelSubscription =>
      some "subscribe"
  | .track | .confirmReceipt => some "fulfill"
  | .return | .refundRequest => some "return"
  | .a2aPay | .a2aQuote => some "pay_peer"

/- Whether the intent must be signed into a receipt. -/
def isStateChange : Intent → Bool
  | .search | .describe | .track => false
  | _ => true

/- Every intent is parsed back from its wire name. -/
theorem parse_wireName (intent : Intent) :
    parse intent.wireName = .ok intent := by
  cases intent <;> decide +kernel

theorem wireName_inj
    {intent intent' : Intent}
    (hName : intent.wireName = intent'.wireName) :
    intent = intent' := by
  have hParse := parse_wireName intent
  rw [hName, parse_wireName] at hParse
  exact (Except.ok.inj hParse).symm

end Intent

end Model

end IcpHandler
