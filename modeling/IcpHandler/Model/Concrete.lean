import Mathlib.Algebra.Order.Ring.Int
import IcpHandler.Model.CivilDates
import IcpHandler.Model.RequestItems
import IcpHandler.Model.World

/-
  Concrete functions for what other packages provide, right on
  a few instants of the first days of 1970 and on parameters
  that only have their required fields. They let the model
  run.

  Main declarations:
    * `concreteRfc3339`
    * `concreteCalendar`
    * `concreteDeps`
    * `concreteService`, `mandateService`, `payService`
    * `offerService`, `hintService`
-/

------------------------------------------------------------
-- Time
------------------------------------------------------------

namespace IcpHandler

namespace Model

/- The instants the concrete text form covers. -/
def concreteInstants : List (DateTime × String) :=
  [(Duration.seconds 0, "1970-01-01T00:00:00+00:00"),
    (Duration.seconds 60, "1970-01-01T00:01:00+00:00"),
    (Duration.seconds 120, "1970-01-01T00:02:00+00:00"),
    (Duration.seconds 86460, "1970-01-02T00:01:00+00:00"),
    (Duration.seconds 172800, "1970-01-03T00:00:00+00:00")]

/- The RFC 3339 text of the covered instants. -/
def concreteRfc3339 : Rfc3339 where
  print instant :=
    ((concreteInstants.find? (·.1 == instant)).map
      Prod.snd).getD ""
  parse text :=
    (concreteInstants.find? (·.2 == text)).map Prod.fst
  Valid instant := instant ∈ concreteInstants.map Prod.fst
  parse_print := by decide
  print_lt_iff := by
    have hAll :
        ∀ first ∈ concreteInstants.map Prod.fst,
          ∀ second ∈ concreteInstants.map Prod.fst,
            (((concreteInstants.find? (·.1 == first)).map
                Prod.snd).getD "" <
              ((concreteInstants.find? (·.1 == second)).map
                Prod.snd).getD "" ↔ first < second) := by
      decide
    exact fun first second hFirst hSecond =>
      hAll first hFirst second hSecond

/- A calendar on which no instant is moved by months. -/
def concreteCalendar : Calendar where
  fromTimestamp seconds := some (Duration.seconds seconds)
  checkedAddMonths _ _ := none
  checkedAddSigned start duration := some (start + duration)
  addMonths_lt := by simp
  addSigned_eq := eq_of_some_add

end Model

end IcpHandler

------------------------------------------------------------
-- Parameters
------------------------------------------------------------

namespace IcpHandler

namespace Model

/- A required string field. -/
def requiredStr
    (name : String)
    (params : Json) : Except String String :=
  match (params.get? name).bind Json.asStr? with
  | some value => .ok value
  | none => .error ("missing field `" ++ name ++ "`")

def concreteItem (json : Json) : Except String RequestItem := do
  let sku ← requiredStr "sku" json
  match (json.get? "quantity").bind Json.asI64? with
  | some quantity => pure ⟨sku, quantity, none⟩
  | none => throw "missing field `quantity`"

def concreteItems
    (params : Json) : Except String (List RequestItem) :=
  match (params.get? "items").bind Json.asArray? with
  | some items => items.mapM concreteItem
  | none => .error "missing field `items`"

/- A card with a token. -/
def concretePayment
    (params : Json) : Except String PaymentInstrument := do
  match params.get? "payment" with
  | some payment =>
      let method ← requiredStr "method" payment
      let token ← requiredStr "token" payment
      if method == "card" then pure (.card (some token) none none)
      else throw "unknown variant"
  | none => throw "missing field `payment`"

def concreteCadence
    (params : Json) : Except String BillingCadence := do
  match ← requiredStr "cadence" params with
  | "weekly" => pure .weekly
  | "monthly" => pure .monthly
  | "annual" => pure .annual
  | _ => throw "unknown variant"

def concreteTrialDays (params : Json) : Option UInt32 :=
  ((params.get? "trial_days").bind Json.asI64?).map
    fun days => UInt32.ofNat days.toInt.toNat

/-
  The functions of other packages. Only the decoders of
  parameters matter to what is stored.
-/
def concreteDeps : Deps where
  calendar := concreteCalendar
  rfc3339 := concreteRfc3339
  quoteParams params := do
    pure { items := ← concreteItems params }
  authorizeParams params := do
    pure
      { transactionId := ← requiredStr "transaction_id" params }
  buyParams params := do
    pure
      { transactionId := ← requiredStr "transaction_id" params
        payment := ← concretePayment params }
  negotiateParams _ := .error "missing field `transaction_id`"
  confirmReceiptParams params := do
    pure
      { transactionId := ← requiredStr "transaction_id" params }
  subscribeParams params := do
    pure
      { items := ← concreteItems params
        cadence := ← concreteCadence params
        payment := ← concretePayment params
        trialDays := concreteTrialDays params }
  renewParams params := do
    pure
      { subscriptionId :=
          ← requiredStr "subscription_id" params
        payment := ← concretePayment params }
  subscriptionRefParams params := do
    pure
      { subscriptionId :=
          ← requiredStr "subscription_id" params }
  a2aQuoteParams _ := .error "missing field `peer_agent_id`"
  a2aPayParams _ := .error "missing field `from`"
  jsonToString _ := "null"
  bodyToJson _ := .null
  eventToString _ := "null"
  timeToJson := concreteRfc3339.print
  bodyToText _ := .ok "null"
  bodyOfText _ := .error "EOF while parsing a value"
  jcsBody _ := .ok []
  jcsEnvelope _ := .ok []
  bodySha256 _ := ""
  base64Decode _ := none
  mandatePayload _ := .error "EOF while parsing a value"
  jwsHeader _ := .error "EOF while parsing a value"
  verify _ _ _ := false
  pctInRange _ := false
  pctDisplay _ := "NaN"
  pctScale _ := 0
  timestamp instant := instant / Duration.seconds 1

/- A handler without an engine, outside production. -/
def concreteService : IcpService where
  config := {}
  deps := concreteDeps
  hasEngine := false
  signerKid := "k1"

/- A mandate for 100 minor units a day. -/
def sampleMandate : MandatePayload where
  iss := "did:web:p.example"
  sub := "bot"
  iat := 0
  nbf := 0
  exp := 172800
  jti := "m1"
  icp :=
    { version := "1.0"
      scope := ["buy", "subscribe"]
      budget := { currency := "USD", amountMinor := 100 } }

/- The JSON text of the sample mandate, as bytes. -/
def sampleMandateBytes : List UInt8 :=
  ("\x7b\"iss\":\"did:web:p.example\",\"sub\":\"bot\"," ++
    "\"iat\":0,\"nbf\":0,\"exp\":172800,\"jti\":\"m1\"," ++
    "\"icp\":\x7b\"version\":\"1.0\"," ++
    "\"scope\":[\"buy\",\"subscribe\"]," ++
    "\"budget\":\x7b\"currency\":\"USD\"," ++
    "\"amount_minor\":100\x7d\x7d\x7d").toList.map
      fun c => UInt8.ofNat c.toNat

/- The base64url text of these bytes. -/
def sampleMandateSegment : String :=
  "eyJpc3MiOiJkaWQ6d2ViOnAuZXhhbXBsZSIsInN1YiI6ImJvdCIs" ++
    "ImlhdCI6MCwibmJmIjowLCJleHAiOjE3MjgwMCwianRpIjoibTEi" ++
    "LCJpY3AiOnsidmVyc2lvbiI6IjEuMCIsInNjb3BlIjpbImJ1eSIs" ++
    "InN1YnNjcmliZSJdLCJidWRnZXQiOnsiY3VycmVuY3kiOiJVU0Qi" ++
    "LCJhbW91bnRfbWlub3IiOjEwMH19fQ"

/- The compact form, under an EdDSA header. -/
def sampleMandateJws : String :=
  "eyJhbGciOiJFZERTQSJ9" ++ "." ++
    (sampleMandateSegment ++ "." ++ "c2ln")

theorem sampleMandateSegment_free :
    '.' ∉ sampleMandateSegment.toList := by
  unfold sampleMandateSegment
  rw [String.toList_append, String.toList_append,
    String.toList_append, String.toList_append]
  dsimp only [String.reduceToList]
  decide

/- The segments of the sample mandate. -/
theorem splitCompact_sample :
    splitCompact sampleMandateJws =
      .ok ("eyJhbGciOiJFZERTQSJ9", sampleMandateSegment,
        "c2ln") :=
  splitCompact_join (by decide)
    sampleMandateSegment_free (by decide)

/- The same handler, which can also read the sample mandate. -/
def mandateService : IcpService :=
  { concreteService with
    deps :=
      { concreteDeps with
        base64Decode := fun segment =>
          if segment = sampleMandateSegment then
            some sampleMandateBytes
          else none
        mandatePayload := fun bytes =>
          if bytes = sampleMandateBytes then .ok sampleMandate
          else .error "EOF while parsing a value" } }

/- The same handler, which can also read payments of quotes. -/
def payService : IcpService :=
  { concreteService with
    deps :=
      { concreteDeps with
        a2aPayParams := fun params => do
          pure
            { peerQuoteId :=
                some (← requiredStr "peer_quote_id" params)
              from_ := ← requiredStr "from" params } } }

/- The same handler, which can also read counter-offers. -/
def offerService : IcpService :=
  { concreteService with
    deps :=
      { concreteDeps with
        negotiateParams := fun params => do
          pure
            { transactionId :=
                ← requiredStr "transaction_id" params
              proposedTotal :=
                (params.get? "proposed_total").bind
                  Money.read } } }

/- The same handler, which can also read price hints. -/
def hintService : IcpService :=
  { concreteService with
    deps :=
      { concreteDeps with
        quoteParams := fun params =>
          match itemsOfParams params with
          | some items => .ok { items := items }
          | none => .error "missing field `items`" } }

/- An intent of the tenant `acme`, through its agent `bot`. -/
def sampleInput
    (intent : Intent)
    (params : List (String × Json))
    (transactionId : Option String) : IntentInput :=
  { envelope :=
      { intent := intent.wireName
        agentId := "bot"
        transactionId := transactionId
        params := .obj params }
    agent := ⟨"bot"⟩
    tenant := ⟨"acme"⟩ }

def sampleItems (quantity : Int) : String × Json :=
  ("items",
    .arr [.obj
      [("sku", .str "tea"), ("quantity", .int quantity)]])

def samplePayment : String × Json :=
  ("payment",
    .obj [("method", .str "card"), ("token", .str "tok")])

/- A quote under a transaction id of the client's choice. -/
def sampleQuote
    (transactionId : String)
    (quantity : Int) : IntentInput :=
  sampleInput .quote [sampleItems quantity] (some transactionId)

def sampleBuy (transactionId : String) : IntentInput :=
  sampleInput .buy
    [("transaction_id", .str transactionId), samplePayment]
    none

/- A counter-offer of a whole amount, in a currency. -/
def sampleOffer
    (transactionId : String)
    (amountMinor : Int)
    (currency : String) : IntentInput :=
  sampleInput .negotiate
    [("transaction_id", .str transactionId),
      ("proposed_total", .obj
        [("amount_minor", .int amountMinor),
          ("currency", .str currency)])]
    none

/- A quote of one item that is said to cost an amount. -/
def sampleHint
    (transactionId : String)
    (amountMinor : Int)
    (currency : String) : IntentInput :=
  sampleInput .quote
    [("items",
      .arr [.obj
        [("sku", .str "tea"), ("quantity", .int 1),
          ("unit_price_hint", .obj
            [("amount_minor", .int amountMinor),
              ("currency", .str currency)])]])]
    (some transactionId)

/- Enough choices for one operation. Each thread's are new. -/
def sampleChoices (thread : Nat) : List Choice :=
  "abcdefghijklmnopqrstuvwxyz".toList.map fun letter =>
    { token := String.ofList (.replicate (thread + 1) letter) }

end Model

end IcpHandler
