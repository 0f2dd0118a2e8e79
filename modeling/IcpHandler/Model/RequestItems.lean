import IcpHandler.Model.Records
import IcpHandler.Model.Serde

/-
  How serde reads the items of a request. A struct is read
  from an object, and from an array as well, which lists its
  fields in the order of their declaration; only trailing
  fields with a default can be left out of it.

  Main declarations:
    * `Money.read`
    * `RequestItem.read`
    * `itemsOfParams`
-/

------------------------------------------------------------
-- Items
------------------------------------------------------------

namespace IcpHandler

namespace Model

/- An `Option` at its place in an array. -/
def nullable
    {α : Type}
    (read : Json → Option α) : Json → Option (Option α)
  | .null => some none
  | value => (read value).map some

def Money.read : Json → Option Money
  | .arr [amountMinor, amountDisplay, currency] => do
      pure
        { amountMinor := ← amountMinor.asI64?
          amountDisplay := ← nullable Json.asStr? amountDisplay
          currency := ← currency.asStr? }
  | .arr _ => none
  | json => do
      pure
        { amountMinor := ← required "amount_minor" Json.asI64? json
          amountDisplay :=
            ← optional "amount_display" Json.asStr? json
          currency := ← required "currency" Json.asStr? json }

def RequestItem.read : Json → Option RequestItem
  | .arr [sku, quantity] => do
      pure
        { sku := ← sku.asStr?
          quantity := ← quantity.asI64?
          unitPriceHint := none }
  | .arr [sku, quantity, unitPriceHint] => do
      pure
        { sku := ← sku.asStr?
          quantity := ← quantity.asI64?
          unitPriceHint := ← nullable Money.read unitPriceHint }
  | .arr _ => none
  | json => do
      pure
        { sku := ← required "sku" Json.asStr? json
          quantity := ← required "quantity" Json.asI64? json
          unitPriceHint :=
            ← optional "unit_price_hint" Money.read json }

/-
  The items of parameters whose first field they are, as of
  `SubscribeParams`.
-/
def itemsOfParams : Json → Option (List RequestItem)
  | .arr (items :: _) => elements RequestItem.read items
  | .arr [] => none
  | json =>
      required "items" (elements RequestItem.read) json

end Model

end IcpHandler
