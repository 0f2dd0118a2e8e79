import IcpHandler.Service.Dispatch

/-
  The filter of the event streams. The bus is shared by all
  tenants, so that a stream has to find out from an event, and
  from the stores, whose event it is.

  Main declarations:
    * `eventBelongsToTenant`
-/

------------------------------------------------------------
-- The Filter
------------------------------------------------------------

namespace IcpHandler

namespace Service

open Model

/- A text in the payload of an event. -/
def payloadText
    (event : Event)
    (field : String) : Option String :=
  (event.payload.get? field).bind Json.asStr?

/-
  An event with a transaction is the event of its owner. Only
  without one is the payload looked at.
-/
def eventBelongsToTenant
    (w : World)
    (event : Event)
    (tenantId : String) : Bool :=
  match event.transactionId with
  | some txnId =>
      (w.transactions.get txnId).any (·.tenantId == tenantId)
  | none =>
      match payloadText event "subscription_id" with
      | some subId =>
          (w.subscriptions.get subId).any
            (·.tenantId == tenantId)
      | none =>
          match payloadText event "peer_quote_id" with
          | some quoteId =>
              (w.peerQuotes.get quoteId).any
                (·.tenantId == tenantId)
          | none => false

end Service

end IcpHandler
