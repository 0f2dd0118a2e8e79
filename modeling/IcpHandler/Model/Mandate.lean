import IcpHandler.Model.Chrono
import IcpHandler.Model.Errors
import IcpHandler.Model.Text

/-
  Mandates: the signed terms under which an agent may act for
  a principal, and what of them can be checked without
  looking at the usage ledger or at the signature.

  Main declarations:
    * `MandatePayload`
    * `parsePeriod`
    * `splitCompact`
    * `MandatePayload.checkTerms`
-/

------------------------------------------------------------
-- Payloads
------------------------------------------------------------

namespace IcpHandler

namespace Model

structure MandateBudget where
  currency : String
  amountMinor : Int64
  perTransaction : Option Int64 := none
  period : Option String := none

structure MandatePolicies where
  requireReceipt : Bool := false
  requireShippingAddressConfirmation : Bool := false
  prohibitSubscriptions : Bool := false

structure MandateTerms where
  version : String
  scope : List String
  budget : MandateBudget
  merchants : List String := []
  categories : List String := []
  jurisdictions : List String := []
  policies : MandatePolicies := {}
  linkedPaymentMethods : List String := []

structure MandatePayload where
  iss : String
  sub : String
  iat : Int64
  nbf : Int64
  exp : Int64
  jti : String
  icp : MandateTerms

/- The effect of evaluating a mandate against an intent. -/
structure MandateEvaluation where
  payload : MandatePayload
  compactJws : String
  spendRoomMinor : Int64
  signatureVerified : Bool

/- The fields of a JWS header that are looked at. -/
structure JwsHeader where
  alg : String := ""
  kid : Option String := none

/- Split a compact JWS into its three segments. -/
def splitCompact
    (compactJws : String) :
    Except ApiError (String × String × String) :=
  match Text.splitOn '.' compactJws with
  | [] =>
      .error (.mandateInvalid "mandate: missing header segment")
  | [_] =>
      .error (.mandateInvalid "mandate: missing payload segment")
  | [_, _] =>
      .error
        (.mandateInvalid "mandate: missing signature segment")
  | [header, payload, signature] =>
      .ok (header, payload, signature)
  | _ =>
      .error
        (.mandateInvalid "mandate: unexpected extra segments")

theorem splitCompact_join
    {header payload signature : String}
    (hHeader : '.' ∉ header.toList)
    (hPayload : '.' ∉ payload.toList)
    (hSignature : '.' ∉ signature.toList) :
    splitCompact
        (header ++ "." ++ (payload ++ "." ++ signature)) =
      .ok (header, payload, signature) := by
  rw [splitCompact,
    Text.splitOn_segments hHeader hPayload hSignature]

/-
  One text is split beforehand, and the others as ever. A run
  that meets this text need not read it letter by letter.
-/
theorem splitCompact_at
    {compactJws : String}
    {segments : String × String × String}
    (hSegments : splitCompact compactJws = .ok segments) :
    splitCompact = fun other =>
      if other = compactJws then .ok segments
      else splitCompact other := by
  funext other
  by_cases hSame : other = compactJws
  · rw [if_pos hSame, hSame, hSegments]
  · rw [if_neg hSame]

end Model

end IcpHandler

------------------------------------------------------------
-- Periods
------------------------------------------------------------

namespace IcpHandler

namespace Model

/-
  Build a duration from a parsed count. A count outside the
  range of the type is a panic in the date library, reported
  here as the error.
-/
private def buildPeriod
    (build : Int → Option Duration)
    (unit : String)
    (count : Option Int64) :
    Except String (Option Duration) :=
  match count with
  | none => .ok none
  | some n =>
      match build n.toInt with
      | some duration => .ok (some duration)
      | none =>
          .error ("TimeDelta::" ++ unit ++ " out of bounds")

/-
  The small ISO 8601 duration reader. The products by 7 and
  by 30 wrap, since the release profile does not check them.
-/
def parsePeriod
    (s : Option String) : Except String (Option Duration) :=
  match s.bind (Text.stripPrefix "P") with
  | none => .ok none
  | some inner =>
      match Text.stripPrefix "T" inner with
      | some rest =>
          match Text.stripSuffix "H" rest with
          | some h =>
              buildPeriod Duration.tryHours "hours"
                (Text.parseI64 h)
          | none => .ok none
      | none =>
          match Text.stripSuffix "D" inner with
          | some d =>
              buildPeriod Duration.tryDays "days"
                (Text.parseI64 d)
          | none =>
              match Text.stripSuffix "W" inner with
              | some w =>
                  buildPeriod Duration.tryDays "days"
                    ((Text.parseI64 w).map (· * 7))
              | none =>
                  match Text.stripSuffix "M" inner with
                  | some m =>
                      buildPeriod Duration.tryDays "days"
                        ((Text.parseI64 m).map (· * 30))
                  | none => .ok none

end Model

end IcpHandler

------------------------------------------------------------
-- Terms
------------------------------------------------------------

namespace IcpHandler

namespace Model

/-
  Whether a mandate's jurisdiction covers an intent's: the
  same code, or the country of its subdivision.
-/
def jurisdictionAuthorizes (allowed actual : String) : Bool :=
  Text.eqIgnoreAsciiCase allowed actual ||
    match Text.splitOnce '-' actual with
    | some (country, _) => Text.eqIgnoreAsciiCase allowed country
    | none => false

namespace MandatePayload

/-
  The checks of `evaluate` between the decoding of the payload
  and the reading of the ledger: validity window, version,
  scope, merchant, jurisdiction, policies and the cap on one
  transaction.
-/
def checkTerms
    (payload : MandatePayload)
    (fromTimestamp : Int → Option DateTime)
    (intentScope : String)
    (candidateAmountMinor : Int64)
    (now : DateTime)
    (tenantId : String)
    (jurisdiction : Option String) :
    Except ApiError Unit := do
  let nbf ←
    match fromTimestamp payload.nbf.toInt with
    | some nbf => pure nbf
    | none => throw (.mandateInvalid "mandate: invalid `nbf`")
  let exp ←
    match fromTimestamp payload.exp.toInt with
    | some exp => pure exp
    | none => throw (.mandateInvalid "mandate: invalid `exp`")
  if now < nbf then
    throw (.mandateInvalid "mandate not yet valid")
  if now > exp then
    throw (.mandateInvalid "mandate expired")
  if payload.icp.version.isEmpty then
    throw (.mandateInvalid "mandate: missing icp.version")
  if !payload.icp.scope.contains intentScope then
    throw (.mandateOutOfScope
      ("mandate does not authorize scope `" ++
        intentScope ++ "`"))
  if !payload.icp.merchants.isEmpty &&
      !payload.icp.merchants.any
        (fun m => m == "*" || m == tenantId) then
    throw (.mandateOutOfScope
      ("mandate does not authorize merchant `" ++
        tenantId ++ "`"))
  let allowsAnyJurisdiction :=
    payload.icp.jurisdictions.isEmpty ||
      payload.icp.jurisdictions.any (· == "*")
  if !allowsAnyJurisdiction then
    match jurisdiction with
    | some j =>
        if !payload.icp.jurisdictions.any
            (fun allowed => jurisdictionAuthorizes allowed j)
          then
          throw (.mandateOutOfScope
            ("mandate does not authorize jurisdiction `" ++
              j ++ "`"))
    | none =>
        throw (.mandateOutOfScope
          ("mandate constrains jurisdictions but the " ++
            "intent declares none"))
  if payload.icp.policies.prohibitSubscriptions &&
      intentScope == "subscribe" then
    throw (.mandateOutOfScope
      "mandate policy prohibits subscriptions")
  match payload.icp.budget.perTransaction with
  | some perTxn =>
      if candidateAmountMinor > perTxn then
        throw (.mandateBudgetExceeded
          ("intent amount " ++ toString candidateAmountMinor ++
            " exceeds per-transaction cap " ++
            toString perTxn))
  | none => pure ()

end MandatePayload

end Model

end IcpHandler
