import IcpHandler.Concurrency.Trace
import IcpHandler.Model.MinorUnits
import IcpHandler.Model.Deps
import IcpHandler.Service.Helpers

/-
  How an order of the commerce engine is built. The calls of
  the engine are effects, and what they answer is up to it.

  Main declarations:
    * `EngineEff`, `EngineCall`
    * `ensureProductForSku`
    * `persistOrder`
-/

------------------------------------------------------------
-- Requests to the Engine
------------------------------------------------------------

namespace IcpHandler

namespace Service

open Model Concurrency

/- `CreateCustomer` -/
structure CreateCustomer where
  email : String
  firstName : String
  lastName : String
  phone : Option String

/- `CreateProduct`, with its default variant. -/
structure CreateProduct where
  name : String
  description : String
  variantSku : String
  variantName : String
  price : Amount

/- `CreateOrderItem` -/
structure CreateOrderItem where
  productId : String
  sku : String
  name : String
  quantity : Int32
  unitPrice : Amount

/- `CreateOrder`; without a currency the engine takes its own. -/
structure CreateOrder where
  customerId : String
  items : List CreateOrderItem
  currency : Option String

/- The calls of the engine. -/
inductive EngineEff where
  | createCustomer (request : CreateCustomer)
  | variantBySku (sku : String)
  | createProduct (request : CreateProduct)
  | createOrder (request : CreateOrder)

/-
  What each call answers: the id of the record, and the number
  of the order.
-/
abbrev EngineEff.Res : EngineEff → Type
  | .createCustomer _ => Except String String
  | .variantBySku _ => Except String (Option String)
  | .createProduct _ => Except String String
  | .createOrder _ => Except String (String × String)

/- Calls of the engine, and an early stop. -/
abbrev EngineCall (α : Type) :=
  ExceptT Halt (Prog EngineEff.Res) α

namespace EngineCall

variable {α β : Type}

/- An answer, or the error that the engine is unavailable. -/
def answered
    (context : String) : Except String α → EngineCall α
  | .ok value => pure value
  | .error message =>
      throw (.error (.engineUnavailable
        (context ++ ": " ++ message)))

def createCustomer
    (request : CreateCustomer) : EngineCall String := do
  let answer ←
    ExceptT.lift (Prog.perform (.createCustomer request))
  answered "customer.create" answer

def variantBySku (sku : String) : EngineCall (Option String) := do
  let answer ← ExceptT.lift (Prog.perform (.variantBySku sku))
  answered ("products.get_variant_by_sku(" ++ sku ++ ")") answer

def createProduct
    (request : CreateProduct) : EngineCall String := do
  let answer ←
    ExceptT.lift (Prog.perform (.createProduct request))
  answered ("products.create(" ++ request.variantSku ++ ")")
    answer

def createOrder
    (request : CreateOrder) : EngineCall (String × String) := do
  let answer ←
    ExceptT.lift (Prog.perform (.createOrder request))
  answered "orders.create" answer

/- The result of a decimal operation, or its panic. -/
def decimal : Option α → EngineCall α
  | some value => pure value
  | none => throw (.panicked "decimal overflow")

end EngineCall

end Service

end IcpHandler

------------------------------------------------------------
-- Orders
------------------------------------------------------------

namespace IcpHandler

namespace Service

open Model Concurrency

/- `non_empty` -/
def nonEmpty (s : Option String) : Option String :=
  (s.map Text.trim).filter (!·.isEmpty)

/- `local_part` -/
def localPart (email : String) : Option String :=
  ((Text.splitOnce '@' email).map Prod.fst).filter (!·.isEmpty)

/- `quantity.clamp(1, i32::MAX as i64) as i32` -/
def orderQuantity (quantity : Int64) : Int32 :=
  Int32.ofInt (min (max quantity.toInt 1) 2147483647)

variable (ops : DecimalOps)

/- The product of a SKU, created if the catalog has none. -/
def ensureProductForSku
    (sku name : String)
    (unitPrice : Amount) : EngineCall String := do
  match ← EngineCall.variantBySku sku with
  | some productId => pure productId
  | none =>
      let displayName := (nonEmpty (some name)).getD sku
      EngineCall.createProduct
        { name := displayName
          description :=
            "Auto-created by ICP handler for SKU " ++ sku
          variantSku := sku
          variantName := displayName
          price := unitPrice }

/- The loop over the line items. -/
def orderItems
    (currency : String) :
    List LineItem → EngineCall (List CreateOrderItem)
  | [] => pure []
  | li :: rest => do
      let unitPrice ←
        EngineCall.decimal
          (minorToDecimal ops li.unitPrice.amountMinor currency)
      let productId ←
        ensureProductForSku li.sku li.name unitPrice
      let items ← orderItems currency rest
      pure
        ({ productId := productId
           sku := li.sku
           name := li.name
           quantity := orderQuantity li.quantity
           unitPrice := unitPrice } :: items)

/-
  `CommerceEngine::persist_order`. Without an email there is
  no order; a currency the engine cannot parse is left out.
-/
def persistOrder
    (parseCurrency : String → Option String)
    (buyer : Buyer)
    (currency : String)
    (lineItems : List LineItem)
    (totals : Totals) : EngineCall (Option PersistedOrder) :=
  match buyer.email.filter (!·.isEmpty) with
  | none => pure none
  | some email => do
      let customerId ←
        EngineCall.createCustomer
          { email := email
            firstName :=
              (nonEmpty buyer.firstName).getD
                ((localPart email).getD "ICP Buyer")
            lastName := buyer.lastName.getD ""
            phone := buyer.phoneNumber }
      let items ← orderItems ops currency lineItems
      let (id, orderNumber) ←
        EngineCall.createOrder
          { customerId := customerId
            items := items
            currency := parseCurrency currency }
      pure (some
        { id := id
          orderNumber := orderNumber
          total := totals.total.getD (.new 0 currency) })

end Service

end IcpHandler
