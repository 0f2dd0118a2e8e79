import Mathlib.Data.List.Sort
import IcpHandler.Model.Records
import IcpHandler.Model.Serde

/-
  The wire form of a response: what serde derives for every
  type a response is made of. Each type is written as a JSON
  value, and read back from it.

  Main declarations:
    * `TimeText`, `Refs.inKeyOrder`
    * `Transaction.toJson`, `Subscription.toJson`,
      `PeerQuote.toJson`
    * `IntentResponseBody.toJson`
    * `IntentResponseBody.ofJson?_toJson`
    * `IntentResponseBody.plain_toJson`
-/

------------------------------------------------------------
-- Money, Addresses and Buyers
------------------------------------------------------------

namespace IcpHandler

namespace Model

namespace Money

def members (money : Money) : Members where
  fields :=
    [("amount_display", money.amountDisplay.map .str),
      ("amount_minor", some (.ofI64 money.amountMinor)),
      ("currency", some (.str money.currency))]
  sorted := by
    simp only [List.map_cons, List.map_nil]
    decide

def toJson (money : Money) : Json :=
  money.members.toJson

def ofJson? (json : Json) : Option Money := do
  let amountMinor ← required "amount_minor" Json.asI64? json
  let amountDisplay ←
    optional "amount_display" Json.asStr? json
  let currency ← required "currency" Json.asStr? json
  pure ⟨amountMinor, amountDisplay, currency⟩

theorem ofJson?_toJson
    (money : Money) : ofJson? money.toJson = some money := by
  unfold ofJson? toJson
  refine read_then
    (required_toJson rfl (Json.asI64?_ofI64 _)) ?_
  refine read_then (skipped_text rfl) ?_
  exact read_then (required_toJson rfl rfl) rfl

@[simp] theorem plain_toJson
    (money : Money) : money.toJson.Plain := by
  apply Members.plain_toJson
  simp [members]

end Money

namespace Address

def members (address : Address) : Members where
  fields :=
    [("city", some (.ofOption .str address.city)),
      ("country", some (.ofOption .str address.country)),
      ("email", some (.ofOption .str address.email)),
      ("line_one", some (.ofOption .str address.lineOne)),
      ("line_two", some (.ofOption .str address.lineTwo)),
      ("name", some (.ofOption .str address.name)),
      ("phone_number",
        some (.ofOption .str address.phoneNumber)),
      ("postal_code", some (.ofOption .str address.postalCode)),
      ("state", some (.ofOption .str address.state))]
  sorted := by
    simp only [List.map_cons, List.map_nil]
    decide

def toJson (address : Address) : Json :=
  address.members.toJson

def ofJson? (json : Json) : Option Address := do
  let name ← optional "name" Json.asStr? json
  let lineOne ← optional "line_one" Json.asStr? json
  let lineTwo ← optional "line_two" Json.asStr? json
  let city ← optional "city" Json.asStr? json
  let state ← optional "state" Json.asStr? json
  let postalCode ← optional "postal_code" Json.asStr? json
  let country ← optional "country" Json.asStr? json
  let phoneNumber ← optional "phone_number" Json.asStr? json
  let email ← optional "email" Json.asStr? json
  pure
    { name, lineOne, lineTwo, city, state, postalCode,
      country, phoneNumber, email }

theorem ofJson?_toJson
    (address : Address) :
    ofJson? address.toJson = some address := by
  unfold ofJson? toJson
  refine read_then (nullable_text rfl) ?_
  refine read_then (nullable_text rfl) ?_
  refine read_then (nullable_text rfl) ?_
  refine read_then (nullable_text rfl) ?_
  refine read_then (nullable_text rfl) ?_
  refine read_then (nullable_text rfl) ?_
  refine read_then (nullable_text rfl) ?_
  refine read_then (nullable_text rfl) ?_
  exact read_then (nullable_text rfl) rfl

@[simp] theorem plain_toJson
    (address : Address) : address.toJson.Plain := by
  apply Members.plain_toJson
  simp [members]

end Address

namespace Buyer

def members (buyer : Buyer) : Members where
  fields :=
    [("email", some (.ofOption .str buyer.email)),
      ("first_name", some (.ofOption .str buyer.firstName)),
      ("last_name", some (.ofOption .str buyer.lastName)),
      ("phone_number", some (.ofOption .str buyer.phoneNumber)),
      ("principal_did",
        some (.ofOption .str buyer.principalDid))]
  sorted := by
    simp only [List.map_cons, List.map_nil]
    decide

def toJson (buyer : Buyer) : Json :=
  buyer.members.toJson

def ofJson? (json : Json) : Option Buyer := do
  let firstName ← optional "first_name" Json.asStr? json
  let lastName ← optional "last_name" Json.asStr? json
  let email ← optional "email" Json.asStr? json
  let phoneNumber ← optional "phone_number" Json.asStr? json
  let principalDid ← optional "principal_did" Json.asStr? json
  pure { firstName, lastName, email, phoneNumber, principalDid }

theorem ofJson?_toJson
    (buyer : Buyer) : ofJson? buyer.toJson = some buyer := by
  unfold ofJson? toJson
  refine read_then (nullable_text rfl) ?_
  refine read_then (nullable_text rfl) ?_
  refine read_then (nullable_text rfl) ?_
  refine read_then (nullable_text rfl) ?_
  exact read_then (nullable_text rfl) rfl

@[simp] theorem plain_toJson
    (buyer : Buyer) : buyer.toJson.Plain := by
  apply Members.plain_toJson
  simp [members]

end Buyer

end Model

end IcpHandler

------------------------------------------------------------
-- References
------------------------------------------------------------

namespace IcpHandler

namespace Model

namespace Refs

/-
  The entries in the order in which a `BTreeMap` holds them.
  The order of an association list says nothing.
-/
def inKeyOrder (refs : Refs) : Refs where
  entries :=
    refs.entries.insertionSort fun entry next =>
      entry.1 ≤ next.1
  nodupKeys :=
    (List.perm_nodupKeys (List.perm_insertionSort _ _)).mpr
      refs.nodupKeys

private def writeEntry
    (entry : Sigma fun _ : String => String) :
    String × Json :=
  (entry.1, .str entry.2)

def toJson (refs : Refs) : Json :=
  .obj ((inKeyOrder refs).entries.map writeEntry)

private def readEntry
    (field : String × Json) :
    Option (Sigma fun _ : String => String) :=
  field.2.asStr?.map fun text => ⟨field.1, text⟩

private theorem readEntry_writeEntry
    (entry : Sigma fun _ : String => String) :
    readEntry (writeEntry entry) = some entry :=
  rfl

/- A later entry replaces an earlier one with its key. -/
def ofJson? : Json → Option Refs
  | .obj fields => do
      let entries ← fields.mapM readEntry
      pure (inKeyOrder entries.reverse.toAList)
  | _ => none

private theorem perm_inKeyOrder
    (refs : Refs) :
    (inKeyOrder refs).entries.Perm refs.entries :=
  List.perm_insertionSort _ _

private theorem pairwise_inKeyOrder
    (refs : Refs) :
    (inKeyOrder refs).entries.Pairwise fun entry next =>
      entry.1 ≤ next.1 := by
  have hTotal :
      Std.Total fun entry next :
          Sigma fun _ : String => String =>
        entry.1 ≤ next.1 :=
    ⟨fun entry next => le_total entry.1 next.1⟩
  have hTrans :
      IsTrans (Sigma fun _ : String => String)
        fun entry next => entry.1 ≤ next.1 :=
    ⟨fun _ _ _ => le_trans⟩
  exact List.pairwise_insertionSort _ _

/- One map has one order. -/
theorem inKeyOrder_congr
    {refs refs' : Refs}
    (hSame : refs.entries.Perm refs'.entries) :
    inKeyOrder refs = inKeyOrder refs' := by
  apply AList.ext
  have hPerm :
      (inKeyOrder refs).entries.Perm
        (inKeyOrder refs').entries :=
    (perm_inKeyOrder refs).trans
      (hSame.trans (perm_inKeyOrder refs').symm)
  refine hPerm.eq_of_pairwise ?_ (pairwise_inKeyOrder refs)
    (pairwise_inKeyOrder refs')
  intro entry next hEntry hNext hLe hGe
  exact (inKeyOrder refs).nodupKeys.eq_of_fst_eq hEntry
    (hPerm.mem_iff.mpr hNext) (le_antisymm hLe hGe)

theorem inKeyOrder_idem
    (refs : Refs) :
    inKeyOrder (inKeyOrder refs) = inKeyOrder refs :=
  inKeyOrder_congr (perm_inKeyOrder refs)

theorem toJson_inKeyOrder
    (refs : Refs) : toJson (inKeyOrder refs) = toJson refs := by
  unfold toJson
  rw [inKeyOrder_idem]

/- Two maps are one when they say the same of every key. -/
theorem inKeyOrder_eq_iff
    {refs refs' : Refs} :
    inKeyOrder refs = inKeyOrder refs' ↔
      ∀ key, refs.lookup key = refs'.lookup key := by
  constructor
  · intro hSame key
    have hPerm : refs.entries.Perm refs'.entries :=
      (perm_inKeyOrder refs).symm.trans
        (hSame ▸ perm_inKeyOrder refs')
    exact AList.perm_lookup hPerm
  · intro hSame
    apply inKeyOrder_congr
    apply List.lookup_ext refs.nodupKeys refs'.nodupKeys
    intro key text
    have hKey : refs.entries.dlookup key =
        refs'.entries.dlookup key := hSame key
    rw [hKey]

theorem ofJson?_toJson
    (refs : Refs) :
    ofJson? (toJson refs) = some (inKeyOrder refs) := by
  have hEntries :
      ((inKeyOrder refs).entries.map writeEntry).mapM
          readEntry =
        some (inKeyOrder refs).entries :=
    mapM_map readEntry_writeEntry _
  have hOrder :
      inKeyOrder (inKeyOrder refs).entries.reverse.toAList =
        inKeyOrder refs := by
    apply inKeyOrder_congr
    have hReverse :
        (inKeyOrder refs).entries.reverse.NodupKeys :=
      (List.perm_nodupKeys (List.reverse_perm _)).mpr
        (inKeyOrder refs).nodupKeys
    have hDedup :
        (inKeyOrder refs).entries.reverse.toAList.entries.Perm
          (inKeyOrder refs).entries.reverse := by
      apply List.lookup_ext (AList.nodupKeys _) hReverse
      intro key text
      change _ ∈ List.dlookup key (List.dedupKeys _) ↔ _
      rw [List.dlookup_dedupKeys]
    exact hDedup.trans
      ((List.reverse_perm _).trans (perm_inKeyOrder refs))
  unfold toJson ofJson?
  refine read_then hEntries ?_
  exact congrArg some hOrder

@[simp] theorem plain_toJson
    (refs : Refs) : (toJson refs).Plain := by
  unfold toJson
  rw [Json.plain_obj]
  constructor
  · rw [List.map_map]
    have hNe := (inKeyOrder refs).nodupKeys.pairwise_ne
    have hLe := pairwise_inKeyOrder refs
    rw [List.pairwise_map]
    exact (hLe.and hNe).imp
      fun hBoth => lt_of_le_of_ne hBoth.1 hBoth.2
  · intro field hField
    obtain ⟨entry, _, rfl⟩ := List.mem_map.mp hField
    exact Json.plain_str _

end Refs

end Model

end IcpHandler

------------------------------------------------------------
-- Transactions
------------------------------------------------------------

namespace IcpHandler

namespace Model

/-
  How a `DateTime<Utc>` is written into JSON and read from it.
  Every instant is read back.
-/
structure TimeText where
  print : DateTime → String
  parse : String → Option DateTime
  parse_print : ∀ instant, parse (print instant) = some instant

namespace TimeText

variable (times : TimeText)

def toJson (instant : DateTime) : Json :=
  .str (times.print instant)

def ofJson? (json : Json) : Option DateTime :=
  json.asStr?.bind times.parse

theorem ofJson?_toJson
    (instant : DateTime) :
    times.ofJson? (times.toJson instant) = some instant :=
  times.parse_print instant

@[simp] theorem plain_toJson
    (instant : DateTime) : (times.toJson instant).Plain :=
  trivial

end TimeText

namespace TransactionState

def ofJson? : Json → Option TransactionState :=
  named
    [.draft, .quoted, .authorized, .captured, .fulfilled,
      .completed, .reversed, .canceled, .expired]
    wireName

theorem ofJson?_wireName
    (state : TransactionState) :
    ofJson? (.str state.wireName) = some state := by
  cases state <;> rfl

end TransactionState

namespace LineItem

def members (item : LineItem) : Members where
  fields :=
    [("id", some (.str item.id)),
      ("name", some (.str item.name)),
      ("quantity", some (.ofI64 item.quantity)),
      ("sku", some (.str item.sku)),
      ("subtotal", some item.subtotal.toJson),
      ("tax", some (.ofOption Money.toJson item.tax)),
      ("total", some item.total.toJson),
      ("unit_price", some item.unitPrice.toJson)]
  sorted := by
    simp only [List.map_cons, List.map_nil]
    decide

def toJson (item : LineItem) : Json :=
  item.members.toJson

def ofJson? (json : Json) : Option LineItem := do
  let id ← required "id" Json.asStr? json
  let sku ← required "sku" Json.asStr? json
  let name ← required "name" Json.asStr? json
  let quantity ← required "quantity" Json.asI64? json
  let unitPrice ← required "unit_price" Money.ofJson? json
  let subtotal ← required "subtotal" Money.ofJson? json
  let tax ← optional "tax" Money.ofJson? json
  let total ← required "total" Money.ofJson? json
  pure
    { id, sku, name, quantity, unitPrice, subtotal, tax,
      total }

theorem ofJson?_toJson
    (item : LineItem) : ofJson? item.toJson = some item := by
  unfold ofJson? toJson
  refine read_then (required_toJson rfl rfl) ?_
  refine read_then (required_toJson rfl rfl) ?_
  refine read_then (required_toJson rfl rfl) ?_
  refine read_then
    (required_toJson rfl (Json.asI64?_ofI64 _)) ?_
  refine read_then
    (required_toJson rfl (Money.ofJson?_toJson _)) ?_
  refine read_then
    (required_toJson rfl (Money.ofJson?_toJson _)) ?_
  refine read_then
    (optional_nullable rfl Money.ofJson?_toJson
      fun money => money.members.toJson_ne_null) ?_
  exact read_then
    (required_toJson rfl (Money.ofJson?_toJson _)) rfl

@[simp] theorem plain_toJson
    (item : LineItem) : item.toJson.Plain := by
  apply Members.plain_toJson
  simp [members]

end LineItem

namespace Totals

def members (totals : Totals) : Members where
  fields :=
    [("discount",
        some (.ofOption Money.toJson totals.discount)),
      ("shipping",
        some (.ofOption Money.toJson totals.shipping)),
      ("subtotal",
        some (.ofOption Money.toJson totals.subtotal)),
      ("tax", some (.ofOption Money.toJson totals.tax)),
      ("total", some (.ofOption Money.toJson totals.total))]
  sorted := by
    simp only [List.map_cons, List.map_nil]
    decide

def toJson (totals : Totals) : Json :=
  totals.members.toJson

def ofJson? (json : Json) : Option Totals := do
  let subtotal ← optional "subtotal" Money.ofJson? json
  let discount ← optional "discount" Money.ofJson? json
  let shipping ← optional "shipping" Money.ofJson? json
  let tax ← optional "tax" Money.ofJson? json
  let total ← optional "total" Money.ofJson? json
  pure { subtotal, discount, shipping, tax, total }

private theorem nullable_money
    {members : Members}
    {name : String}
    {found : Option Money}
    (hField :
      members.fields.lookup name =
        some (some (Json.ofOption Money.toJson found))) :
    optional name Money.ofJson? members.toJson = some found :=
  optional_nullable hField Money.ofJson?_toJson
    fun money => money.members.toJson_ne_null

theorem ofJson?_toJson
    (totals : Totals) :
    ofJson? totals.toJson = some totals := by
  unfold ofJson? toJson
  refine read_then (nullable_money rfl) ?_
  refine read_then (nullable_money rfl) ?_
  refine read_then (nullable_money rfl) ?_
  refine read_then (nullable_money rfl) ?_
  exact read_then (nullable_money rfl) rfl

@[simp] theorem plain_toJson
    (totals : Totals) : totals.toJson.Plain := by
  apply Members.plain_toJson
  simp [members]

end Totals

namespace Transaction

variable (times : TimeText)

def members (txn : Transaction) : Members where
  fields :=
    [("agent_id", some (.str txn.agentId)),
      ("bill_to", some (.ofOption Address.toJson txn.billTo)),
      ("buyer", some txn.buyer.toJson),
      ("created_at", some (times.toJson txn.createdAt)),
      ("currency", some (.str txn.currency)),
      ("external_refs", some (Refs.toJson txn.externalRefs)),
      ("id", some (.str txn.id)),
      ("jurisdiction", txn.jurisdiction.map .str),
      ("line_items",
        some (.arr (txn.lineItems.map LineItem.toJson))),
      ("mandate_jti", txn.mandateJti.map .str),
      ("order_id", txn.orderId.map .str),
      ("quote_expires_at",
        txn.quoteExpiresAt.map times.toJson),
      ("ship_to", some (.ofOption Address.toJson txn.shipTo)),
      ("state", some (.str txn.state.wireName)),
      ("tenant_id", some (.str txn.tenantId)),
      ("totals", some txn.totals.toJson),
      ("updated_at", some (times.toJson txn.updatedAt))]
  sorted := by
    simp only [List.map_cons, List.map_nil]
    decide

def toJson (txn : Transaction) : Json :=
  (txn.members times).toJson

def ofJson? (json : Json) : Option Transaction := do
  let id ← required "id" Json.asStr? json
  let state ← required "state" TransactionState.ofJson? json
  let agentId ← required "agent_id" Json.asStr? json
  let tenantId ← defaulted "tenant_id" Json.asStr? "" json
  let mandateJti ← optional "mandate_jti" Json.asStr? json
  let currency ← required "currency" Json.asStr? json
  let jurisdiction ← optional "jurisdiction" Json.asStr? json
  let buyer ← required "buyer" Buyer.ofJson? json
  let shipTo ← optional "ship_to" Address.ofJson? json
  let billTo ← optional "bill_to" Address.ofJson? json
  let lineItems ←
    required "line_items" (elements LineItem.ofJson?) json
  let totals ← required "totals" Totals.ofJson? json
  let orderId ← optional "order_id" Json.asStr? json
  let quoteExpiresAt ←
    optional "quote_expires_at" times.ofJson? json
  let createdAt ← required "created_at" times.ofJson? json
  let updatedAt ← required "updated_at" times.ofJson? json
  let externalRefs ←
    defaulted "external_refs" Refs.ofJson? ∅ json
  pure
    { id, state, agentId, tenantId, mandateJti, currency,
      jurisdiction, buyer, shipTo, billTo, lineItems, totals,
      orderId, quoteExpiresAt, createdAt, updatedAt,
      externalRefs }

/- The same transaction, its references in key order. -/
def inKeyOrder (txn : Transaction) : Transaction :=
  { txn with externalRefs := Refs.inKeyOrder txn.externalRefs }

theorem toJson_inKeyOrder
    (txn : Transaction) :
    txn.inKeyOrder.toJson times = txn.toJson times := by
  simp only [toJson, Members.toJson, Members.present, members,
    inKeyOrder, Refs.toJson_inKeyOrder]

theorem ofJson?_toJson
    (txn : Transaction) :
    ofJson? times (txn.toJson times) =
      some txn.inKeyOrder := by
  unfold ofJson? toJson
  refine read_then (required_toJson rfl rfl) ?_
  refine read_then
    (required_toJson rfl (TransactionState.ofJson?_wireName _))
    ?_
  refine read_then (required_toJson rfl rfl) ?_
  refine read_then (defaulted_toJson rfl rfl) ?_
  refine read_then (skipped_text rfl) ?_
  refine read_then (required_toJson rfl rfl) ?_
  refine read_then (skipped_text rfl) ?_
  refine read_then
    (required_toJson rfl (Buyer.ofJson?_toJson _)) ?_
  refine read_then
    (optional_nullable rfl Address.ofJson?_toJson
      fun address => address.members.toJson_ne_null) ?_
  refine read_then
    (optional_nullable rfl Address.ofJson?_toJson
      fun address => address.members.toJson_ne_null) ?_
  refine read_then
    (required_toJson rfl
      (elements_arr LineItem.ofJson?_toJson _)) ?_
  refine read_then
    (required_toJson rfl (Totals.ofJson?_toJson _)) ?_
  refine read_then (skipped_text rfl) ?_
  refine read_then
    (optional_skipped rfl times.ofJson?_toJson nofun) ?_
  refine read_then
    (required_toJson rfl (times.ofJson?_toJson _)) ?_
  refine read_then
    (required_toJson rfl (times.ofJson?_toJson _)) ?_
  exact read_then
    (defaulted_toJson rfl (Refs.ofJson?_toJson _)) rfl

@[simp] theorem plain_toJson
    (txn : Transaction) : (txn.toJson times).Plain := by
  apply Members.plain_toJson
  simp [members]

end Transaction

end Model

end IcpHandler

------------------------------------------------------------
-- Orders and Payment Instruments
------------------------------------------------------------

namespace IcpHandler

namespace Model

namespace OrderSummary

def members (order : OrderSummary) : Members where
  fields :=
    [("id", some (.str order.id)),
      ("order_number", some (.str order.orderNumber)),
      ("permalink_url",
        some (.ofOption .str order.permalinkUrl)),
      ("status", some (.str order.status)),
      ("total", some order.total.toJson)]
  sorted := by
    simp only [List.map_cons, List.map_nil]
    decide

def toJson (order : OrderSummary) : Json :=
  order.members.toJson

def ofJson? (json : Json) : Option OrderSummary := do
  let id ← required "id" Json.asStr? json
  let orderNumber ← required "order_number" Json.asStr? json
  let status ← required "status" Json.asStr? json
  let permalinkUrl ← optional "permalink_url" Json.asStr? json
  let total ← required "total" Money.ofJson? json
  pure { id, orderNumber, status, permalinkUrl, total }

theorem ofJson?_toJson
    (order : OrderSummary) :
    ofJson? order.toJson = some order := by
  unfold ofJson? toJson
  refine read_then (required_toJson rfl rfl) ?_
  refine read_then (required_toJson rfl rfl) ?_
  refine read_then (required_toJson rfl rfl) ?_
  refine read_then (nullable_text rfl) ?_
  exact read_then
    (required_toJson rfl (Money.ofJson?_toJson _)) rfl

@[simp] theorem plain_toJson
    (order : OrderSummary) : order.toJson.Plain := by
  apply Members.plain_toJson
  simp [members]

end OrderSummary

namespace RequestItem

def members (item : RequestItem) : Members where
  fields :=
    [("quantity", some (.ofI64 item.quantity)),
      ("sku", some (.str item.sku)),
      ("unit_price_hint", item.unitPriceHint.map Money.toJson)]
  sorted := by
    simp only [List.map_cons, List.map_nil]
    decide

def toJson (item : RequestItem) : Json :=
  item.members.toJson

def ofJson? (json : Json) : Option RequestItem := do
  let sku ← required "sku" Json.asStr? json
  let quantity ← required "quantity" Json.asI64? json
  let unitPriceHint ←
    optional "unit_price_hint" Money.ofJson? json
  pure { sku, quantity, unitPriceHint }

theorem ofJson?_toJson
    (item : RequestItem) : ofJson? item.toJson = some item := by
  unfold ofJson? toJson
  refine read_then (required_toJson rfl rfl) ?_
  refine read_then
    (required_toJson rfl (Json.asI64?_ofI64 _)) ?_
  exact read_then
    (optional_skipped rfl Money.ofJson?_toJson
      fun money => money.members.toJson_ne_null) rfl

@[simp] theorem plain_toJson
    (item : RequestItem) : item.toJson.Plain := by
  apply Members.plain_toJson
  simp [members]

end RequestItem

namespace PaymentInstrument

/- The member `method` tells the variants apart. -/
def members : PaymentInstrument → Members
  | .card token lastDigits brand =>
      { fields :=
          [("brand", some (.ofOption .str brand)),
            ("last_digits", some (.ofOption .str lastDigits)),
            ("method", some (.str "card")),
            ("token", some (.ofOption .str token))]
        sorted := by
          simp only [List.map_cons, List.map_nil]
          decide }
  | .delegatedVault token provider =>
      { fields :=
          [("method", some (.str "delegated_vault")),
            ("provider", some (.ofOption .str provider)),
            ("token", some (.str token))]
        sorted := by
          simp only [List.map_cons, List.map_nil]
          decide }
  | .stablecoin asset chain from_ networkMemo =>
      { fields :=
          [("asset", some (.str asset)),
            ("chain", some (.str chain)),
            ("from", some (.str from_)),
            ("method", some (.str "stablecoin")),
            ("network_memo",
              some (.ofOption .str networkMemo))]
        sorted := by
          simp only [List.map_cons, List.map_nil]
          decide }
  | .a2a peerAgentId memo =>
      { fields :=
          [("memo", some (.ofOption .str memo)),
            ("method", some (.str "a2a")),
            ("peer_agent_id", some (.str peerAgentId))]
        sorted := by
          simp only [List.map_cons, List.map_nil]
          decide }
  | .externalAuthorization provider authorizationId hint =>
      { fields :=
          [("authorization_id", some (.str authorizationId)),
            ("instrument_hint", some (.ofOption .str hint)),
            ("method", some (.str "external_authorization")),
            ("provider", some (.str provider))]
        sorted := by
          simp only [List.map_cons, List.map_nil]
          decide }

def toJson (payment : PaymentInstrument) : Json :=
  payment.members.toJson

def ofJson? (json : Json) : Option PaymentInstrument := do
  let method ← required "method" Json.asStr? json
  match method with
  | "card" => do
      let token ← optional "token" Json.asStr? json
      let lastDigits ← optional "last_digits" Json.asStr? json
      let brand ← optional "brand" Json.asStr? json
      pure (.card token lastDigits brand)
  | "delegated_vault" => do
      let token ← required "token" Json.asStr? json
      let provider ← optional "provider" Json.asStr? json
      pure (.delegatedVault token provider)
  | "stablecoin" => do
      let asset ← required "asset" Json.asStr? json
      let chain ← required "chain" Json.asStr? json
      let from_ ← required "from" Json.asStr? json
      let networkMemo ← optional "network_memo" Json.asStr? json
      pure (.stablecoin asset chain from_ networkMemo)
  | "a2a" => do
      let peerAgentId ← required "peer_agent_id" Json.asStr? json
      let memo ← optional "memo" Json.asStr? json
      pure (.a2a peerAgentId memo)
  | "external_authorization" => do
      let provider ← required "provider" Json.asStr? json
      let authorizationId ←
        required "authorization_id" Json.asStr? json
      let hint ← optional "instrument_hint" Json.asStr? json
      pure (.externalAuthorization provider authorizationId hint)
  | _ => none

theorem ofJson?_toJson
    (payment : PaymentInstrument) :
    ofJson? payment.toJson = some payment := by
  unfold ofJson? toJson
  cases payment with
  | card token lastDigits brand =>
      refine read_then (required_toJson rfl rfl) ?_
      refine read_then (nullable_text rfl) ?_
      refine read_then (nullable_text rfl) ?_
      exact read_then (nullable_text rfl) rfl
  | delegatedVault token provider =>
      refine read_then (required_toJson rfl rfl) ?_
      refine read_then (required_toJson rfl rfl) ?_
      exact read_then (nullable_text rfl) rfl
  | stablecoin asset chain from_ networkMemo =>
      refine read_then (required_toJson rfl rfl) ?_
      refine read_then (required_toJson rfl rfl) ?_
      refine read_then (required_toJson rfl rfl) ?_
      refine read_then (required_toJson rfl rfl) ?_
      exact read_then (nullable_text rfl) rfl
  | a2a peerAgentId memo =>
      refine read_then (required_toJson rfl rfl) ?_
      refine read_then (required_toJson rfl rfl) ?_
      exact read_then (nullable_text rfl) rfl
  | externalAuthorization provider authorizationId hint =>
      refine read_then (required_toJson rfl rfl) ?_
      refine read_then (required_toJson rfl rfl) ?_
      refine read_then (required_toJson rfl rfl) ?_
      exact read_then (nullable_text rfl) rfl

@[simp] theorem plain_toJson
    (payment : PaymentInstrument) : payment.toJson.Plain := by
  apply Members.plain_toJson
  cases payment <;> simp [members]

end PaymentInstrument

end Model

end IcpHandler

------------------------------------------------------------
-- Subscriptions
------------------------------------------------------------

namespace IcpHandler

namespace Model

/- The `snake_case` name serde writes. -/
def BillingCadence.wireName : BillingCadence → String
  | .weekly => "weekly"
  | .monthly => "monthly"
  | .annual => "annual"

namespace BillingCadence

def ofJson? : Json → Option BillingCadence :=
  named [.weekly, .monthly, .annual] wireName

theorem ofJson?_wireName
    (cadence : BillingCadence) :
    ofJson? (.str cadence.wireName) = some cadence := by
  cases cadence <;> rfl

end BillingCadence

namespace SubscriptionStatus

def ofJson? : Json → Option SubscriptionStatus :=
  named [.trialing, .active, .paused, .canceled, .pastDue]
    wireName

theorem ofJson?_wireName
    (status : SubscriptionStatus) :
    ofJson? (.str status.wireName) = some status := by
  cases status <;> rfl

end SubscriptionStatus

namespace Subscription

variable (times : TimeText)

def members (sub : Subscription) : Members where
  fields :=
    [("agent_id", some (.str sub.agentId)),
      ("buyer", some sub.buyer.toJson),
      ("cadence", some (.str sub.cadence.wireName)),
      ("canceled_at", sub.canceledAt.map times.toJson),
      ("charges_completed",
        some (.ofU32 sub.chargesCompleted)),
      ("created_at", some (times.toJson sub.createdAt)),
      ("currency", some (.str sub.currency)),
      ("current_period_end",
        some (times.toJson sub.currentPeriodEnd)),
      ("current_period_start",
        some (times.toJson sub.currentPeriodStart)),
      ("failed_renewal_attempts",
        some (.ofU32 sub.failedRenewalAttempts)),
      ("id", some (.str sub.id)),
      ("items",
        some (.arr (sub.items.map RequestItem.toJson))),
      ("last_transaction_id", sub.lastTransactionId.map .str),
      ("mandate_jti", sub.mandateJti.map .str),
      ("next_charge_at", some (times.toJson sub.nextChargeAt)),
      ("paused_at", sub.pausedAt.map times.toJson),
      ("payment_instrument",
        sub.paymentInstrument.map PaymentInstrument.toJson),
      ("ship_to", sub.shipTo.map Address.toJson),
      ("status", some (.str sub.status.wireName)),
      ("tenant_id", some (.str sub.tenantId)),
      ("trial_end", sub.trialEnd.map times.toJson),
      ("updated_at", some (times.toJson sub.updatedAt))]
  sorted := by
    simp only [List.map_cons, List.map_nil]
    decide

def toJson (sub : Subscription) : Json :=
  (sub.members times).toJson

def ofJson? (json : Json) : Option Subscription := do
  let id ← required "id" Json.asStr? json
  let status ←
    required "status" SubscriptionStatus.ofJson? json
  let agentId ← required "agent_id" Json.asStr? json
  let tenantId ← defaulted "tenant_id" Json.asStr? "" json
  let mandateJti ← optional "mandate_jti" Json.asStr? json
  let buyer ← required "buyer" Buyer.ofJson? json
  let shipTo ← optional "ship_to" Address.ofJson? json
  let items ←
    required "items" (elements RequestItem.ofJson?) json
  let currency ← required "currency" Json.asStr? json
  let cadence ← required "cadence" BillingCadence.ofJson? json
  let currentPeriodStart ←
    required "current_period_start" times.ofJson? json
  let currentPeriodEnd ←
    required "current_period_end" times.ofJson? json
  let nextChargeAt ←
    required "next_charge_at" times.ofJson? json
  let chargesCompleted ←
    required "charges_completed" Json.asU32? json
  let lastTransactionId ←
    optional "last_transaction_id" Json.asStr? json
  let paymentInstrument ←
    optional "payment_instrument" PaymentInstrument.ofJson? json
  let createdAt ← required "created_at" times.ofJson? json
  let updatedAt ← required "updated_at" times.ofJson? json
  let canceledAt ← optional "canceled_at" times.ofJson? json
  let pausedAt ← optional "paused_at" times.ofJson? json
  let failedRenewalAttempts ←
    defaulted "failed_renewal_attempts" Json.asU32? 0 json
  let trialEnd ← optional "trial_end" times.ofJson? json
  pure
    { id, status, agentId, tenantId, mandateJti, buyer,
      shipTo, items, currency, cadence, currentPeriodStart,
      currentPeriodEnd, nextChargeAt, chargesCompleted,
      lastTransactionId, paymentInstrument, createdAt,
      updatedAt, canceledAt, pausedAt, failedRenewalAttempts,
      trialEnd }

theorem ofJson?_toJson
    (sub : Subscription) :
    ofJson? times (sub.toJson times) = some sub := by
  unfold ofJson? toJson
  refine read_then (required_toJson rfl rfl) ?_
  refine read_then
    (required_toJson rfl
      (SubscriptionStatus.ofJson?_wireName _)) ?_
  refine read_then (required_toJson rfl rfl) ?_
  refine read_then (defaulted_toJson rfl rfl) ?_
  refine read_then (skipped_text rfl) ?_
  refine read_then
    (required_toJson rfl (Buyer.ofJson?_toJson _)) ?_
  refine read_then
    (optional_skipped rfl Address.ofJson?_toJson
      fun address => address.members.toJson_ne_null) ?_
  refine read_then
    (required_toJson rfl
      (elements_arr RequestItem.ofJson?_toJson _)) ?_
  refine read_then (required_toJson rfl rfl) ?_
  refine read_then
    (required_toJson rfl (BillingCadence.ofJson?_wireName _))
    ?_
  refine read_then
    (required_toJson rfl (times.ofJson?_toJson _)) ?_
  refine read_then
    (required_toJson rfl (times.ofJson?_toJson _)) ?_
  refine read_then
    (required_toJson rfl (times.ofJson?_toJson _)) ?_
  refine read_then
    (required_toJson rfl (Json.asU32?_ofU32 _)) ?_
  refine read_then (skipped_text rfl) ?_
  refine read_then
    (optional_skipped rfl PaymentInstrument.ofJson?_toJson
      fun payment => payment.members.toJson_ne_null) ?_
  refine read_then
    (required_toJson rfl (times.ofJson?_toJson _)) ?_
  refine read_then
    (required_toJson rfl (times.ofJson?_toJson _)) ?_
  refine read_then
    (optional_skipped rfl times.ofJson?_toJson nofun) ?_
  refine read_then
    (optional_skipped rfl times.ofJson?_toJson nofun) ?_
  refine read_then
    (defaulted_toJson rfl (Json.asU32?_ofU32 _)) ?_
  exact read_then
    (optional_skipped rfl times.ofJson?_toJson nofun) rfl

@[simp] theorem plain_toJson
    (sub : Subscription) : (sub.toJson times).Plain := by
  apply Members.plain_toJson
  simp [members]

end Subscription

end Model

end IcpHandler

------------------------------------------------------------
-- Peer Quotes
------------------------------------------------------------

namespace IcpHandler

namespace Model

namespace A2aServiceKind

def ofJson? : Json → Option A2aServiceKind :=
  named [.compute, .dataFeed, .imageGeneration, .adHoc]
    wireName

theorem ofJson?_wireName
    (kind : A2aServiceKind) :
    ofJson? (.str kind.wireName) = some kind := by
  cases kind <;> rfl

end A2aServiceKind

namespace A2aServiceSpec

def members (service : A2aServiceSpec) : Members where
  fields :=
    [("description", some (.str service.description)),
      ("kind", some (.str service.kind.wireName)),
      ("params", some service.params)]
  sorted := by
    simp only [List.map_cons, List.map_nil]
    decide

def toJson (service : A2aServiceSpec) : Json :=
  service.members.toJson

def ofJson? (json : Json) : Option A2aServiceSpec := do
  let kind ← required "kind" A2aServiceKind.ofJson? json
  let description ← required "description" Json.asStr? json
  let params ← defaulted "params" some .null json
  pure { kind, description, params }

theorem ofJson?_toJson
    (service : A2aServiceSpec) :
    ofJson? service.toJson = some service := by
  unfold ofJson? toJson
  refine read_then
    (required_toJson rfl (A2aServiceKind.ofJson?_wireName _))
    ?_
  refine read_then (required_toJson rfl rfl) ?_
  exact read_then (defaulted_toJson rfl rfl) rfl

/- Only the parameters of a service are free. -/
theorem plain_toJson
    {service : A2aServiceSpec}
    (hParams : service.params.Plain) :
    service.toJson.Plain := by
  apply Members.plain_toJson
  simp [members, hParams]

end A2aServiceSpec

namespace PeerQuoteStatus

def ofJson? : Json → Option PeerQuoteStatus :=
  named [.pending, .quoted, .accepted, .expired, .rejected]
    wireName

theorem ofJson?_wireName
    (status : PeerQuoteStatus) :
    ofJson? (.str status.wireName) = some status := by
  cases status <;> rfl

end PeerQuoteStatus

namespace PeerQuote

variable (times : TimeText)

def members (quote : PeerQuote) : Members where
  fields :=
    [("accepted_at", quote.acceptedAt.map times.toJson),
      ("charge_transaction_id",
        quote.chargeTransactionId.map .str),
      ("created_at", some (times.toJson quote.createdAt)),
      ("expires_at", some (times.toJson quote.expiresAt)),
      ("id", some (.str quote.id)),
      ("mandate_jti", quote.mandateJti.map .str),
      ("peer_agent_id", some (.str quote.peerAgentId)),
      ("price", quote.price.map Money.toJson),
      ("reference_id", quote.referenceId.map .str),
      ("requester_agent_id",
        some (.str quote.requesterAgentId)),
      ("service", some quote.service.toJson),
      ("status", some (.str quote.status.wireName)),
      ("tenant_id", some (.str quote.tenantId)),
      ("updated_at", some (times.toJson quote.updatedAt))]
  sorted := by
    simp only [List.map_cons, List.map_nil]
    decide

def toJson (quote : PeerQuote) : Json :=
  (quote.members times).toJson

def ofJson? (json : Json) : Option PeerQuote := do
  let id ← required "id" Json.asStr? json
  let status ← required "status" PeerQuoteStatus.ofJson? json
  let tenantId ← defaulted "tenant_id" Json.asStr? "" json
  let requesterAgentId ←
    required "requester_agent_id" Json.asStr? json
  let peerAgentId ← required "peer_agent_id" Json.asStr? json
  let service ← required "service" A2aServiceSpec.ofJson? json
  let price ← optional "price" Money.ofJson? json
  let createdAt ← required "created_at" times.ofJson? json
  let updatedAt ← required "updated_at" times.ofJson? json
  let expiresAt ← required "expires_at" times.ofJson? json
  let acceptedAt ← optional "accepted_at" times.ofJson? json
  let chargeTransactionId ←
    optional "charge_transaction_id" Json.asStr? json
  let mandateJti ← optional "mandate_jti" Json.asStr? json
  let referenceId ← optional "reference_id" Json.asStr? json
  pure
    { id, status, tenantId, requesterAgentId, peerAgentId,
      service, price, createdAt, updatedAt, expiresAt,
      acceptedAt, chargeTransactionId, mandateJti,
      referenceId }

theorem ofJson?_toJson
    (quote : PeerQuote) :
    ofJson? times (quote.toJson times) = some quote := by
  unfold ofJson? toJson
  refine read_then (required_toJson rfl rfl) ?_
  refine read_then
    (required_toJson rfl (PeerQuoteStatus.ofJson?_wireName _))
    ?_
  refine read_then (defaulted_toJson rfl rfl) ?_
  refine read_then (required_toJson rfl rfl) ?_
  refine read_then (required_toJson rfl rfl) ?_
  refine read_then
    (required_toJson rfl (A2aServiceSpec.ofJson?_toJson _)) ?_
  refine read_then
    (optional_skipped rfl Money.ofJson?_toJson
      fun money => money.members.toJson_ne_null) ?_
  refine read_then
    (required_toJson rfl (times.ofJson?_toJson _)) ?_
  refine read_then
    (required_toJson rfl (times.ofJson?_toJson _)) ?_
  refine read_then
    (required_toJson rfl (times.ofJson?_toJson _)) ?_
  refine read_then
    (optional_skipped rfl times.ofJson?_toJson nofun) ?_
  refine read_then (skipped_text rfl) ?_
  refine read_then (skipped_text rfl) ?_
  exact read_then (skipped_text rfl) rfl

theorem plain_toJson
    {quote : PeerQuote}
    (hParams : quote.service.params.Plain) :
    (quote.toJson times).Plain := by
  apply Members.plain_toJson
  simp [members, A2aServiceSpec.plain_toJson hParams]

end PeerQuote

end Model

end IcpHandler

------------------------------------------------------------
-- Responses
------------------------------------------------------------

namespace IcpHandler

namespace Model

namespace ReceiptStub

def members (receipt : ReceiptStub) : Members where
  fields :=
    [("body_digest", some (.str receipt.bodyDigest)),
      ("jti", some (.str receipt.jti)),
      ("jws", some (.str receipt.jws)),
      ("kid", some (.str receipt.kid))]
  sorted := by
    simp only [List.map_cons, List.map_nil]
    decide

def toJson (receipt : ReceiptStub) : Json :=
  receipt.members.toJson

def ofJson? (json : Json) : Option ReceiptStub := do
  let jti ← required "jti" Json.asStr? json
  let kid ← required "kid" Json.asStr? json
  let jws ← required "jws" Json.asStr? json
  let bodyDigest ← required "body_digest" Json.asStr? json
  pure { jti, kid, jws, bodyDigest }

theorem ofJson?_toJson
    (receipt : ReceiptStub) :
    ofJson? receipt.toJson = some receipt := by
  unfold ofJson? toJson
  refine read_then (required_toJson rfl rfl) ?_
  refine read_then (required_toJson rfl rfl) ?_
  refine read_then (required_toJson rfl rfl) ?_
  exact read_then (required_toJson rfl rfl) rfl

@[simp] theorem plain_toJson
    (receipt : ReceiptStub) : receipt.toJson.Plain := by
  apply Members.plain_toJson
  simp [members]

end ReceiptStub

namespace ResponseEnvelope

variable (times : TimeText)

def members (envelope : ResponseEnvelope) : Members where
  fields :=
    [("icp_version", some (.str envelope.icpVersion)),
      ("issued_at", some (times.toJson envelope.issuedAt)),
      ("request_id", some (.str envelope.requestId)),
      ("trace_id", envelope.traceId.map .str)]
  sorted := by
    simp only [List.map_cons, List.map_nil]
    decide

def toJson (envelope : ResponseEnvelope) : Json :=
  (envelope.members times).toJson

def ofJson? (json : Json) : Option ResponseEnvelope := do
  let icpVersion ← required "icp_version" Json.asStr? json
  let requestId ← required "request_id" Json.asStr? json
  let traceId ← optional "trace_id" Json.asStr? json
  let issuedAt ← required "issued_at" times.ofJson? json
  pure { icpVersion, requestId, traceId, issuedAt }

theorem ofJson?_toJson
    (envelope : ResponseEnvelope) :
    ofJson? times (envelope.toJson times) =
      some envelope := by
  unfold ofJson? toJson
  refine read_then (required_toJson rfl rfl) ?_
  refine read_then (required_toJson rfl rfl) ?_
  refine read_then (skipped_text rfl) ?_
  exact read_then
    (required_toJson rfl (times.ofJson?_toJson _)) rfl

@[simp] theorem plain_toJson
    (envelope : ResponseEnvelope) :
    (envelope.toJson times).Plain := by
  apply Members.plain_toJson
  simp [members]

end ResponseEnvelope

namespace IntentResponseBody

variable (times : TimeText)

def members (body : IntentResponseBody) : Members where
  fields :=
    [("envelope", some (body.envelope.toJson times)),
      ("intent", some (.str body.intent)),
      ("intent_id", some (.str body.intentId)),
      ("order", body.order.map OrderSummary.toJson),
      ("peer_quote",
        body.peerQuote.map (PeerQuote.toJson times)),
      ("receipt", some body.receipt.toJson),
      ("subscription",
        body.subscription.map (Subscription.toJson times)),
      ("transaction", some (body.transaction.toJson times))]
  sorted := by
    simp only [List.map_cons, List.map_nil]
    decide

def toJson (body : IntentResponseBody) : Json :=
  (body.members times).toJson

def ofJson? (json : Json) : Option IntentResponseBody := do
  let intent ← required "intent" Json.asStr? json
  let intentId ← required "intent_id" Json.asStr? json
  let transaction ←
    required "transaction" (Transaction.ofJson? times) json
  let order ← optional "order" OrderSummary.ofJson? json
  let subscription ←
    optional "subscription" (Subscription.ofJson? times) json
  let peerQuote ←
    optional "peer_quote" (PeerQuote.ofJson? times) json
  let receipt ← required "receipt" ReceiptStub.ofJson? json
  let envelope ←
    required "envelope" (ResponseEnvelope.ofJson? times) json
  pure
    { intent, intentId, transaction, order, subscription,
      peerQuote, receipt, envelope }

/- The same response, its references in key order. -/
def inKeyOrder
    (body : IntentResponseBody) : IntentResponseBody :=
  { body with transaction := body.transaction.inKeyOrder }

theorem inKeyOrder_idem
    (body : IntentResponseBody) :
    body.inKeyOrder.inKeyOrder = body.inKeyOrder := by
  unfold inKeyOrder Transaction.inKeyOrder
  dsimp only
  rw [Refs.inKeyOrder_idem]

theorem toJson_inKeyOrder
    (body : IntentResponseBody) :
    body.inKeyOrder.toJson times = body.toJson times := by
  simp only [toJson, Members.toJson, Members.present, members,
    inKeyOrder, Transaction.toJson_inKeyOrder]

/- What is skipped, tagged or mapped survives the round trip. -/
theorem ofJson?_toJson
    (body : IntentResponseBody) :
    ofJson? times (body.toJson times) =
      some body.inKeyOrder := by
  unfold ofJson? toJson
  refine read_then (required_toJson rfl rfl) ?_
  refine read_then (required_toJson rfl rfl) ?_
  refine read_then
    (required_toJson rfl (Transaction.ofJson?_toJson times _))
    ?_
  refine read_then
    (optional_skipped rfl OrderSummary.ofJson?_toJson
      fun order => order.members.toJson_ne_null) ?_
  refine read_then
    (optional_skipped rfl (Subscription.ofJson?_toJson times)
      fun sub => (sub.members times).toJson_ne_null) ?_
  refine read_then
    (optional_skipped rfl (PeerQuote.ofJson?_toJson times)
      fun quote => (quote.members times).toJson_ne_null) ?_
  refine read_then
    (required_toJson rfl (ReceiptStub.ofJson?_toJson _)) ?_
  exact read_then
    (required_toJson rfl
      (ResponseEnvelope.ofJson?_toJson times _)) rfl

/-
  The content of a response that a client chooses freely has
  no floating point in it.
-/
def PlainParams (body : IntentResponseBody) : Prop :=
  ∀ quote, body.peerQuote = some quote →
    quote.service.params.Plain

/- Then the response has none. -/
theorem plain_toJson
    {body : IntentResponseBody}
    (hParams : body.PlainParams) :
    (body.toJson times).Plain := by
  apply Members.plain_toJson
  have hQuote :
      ∀ quote, body.peerQuote = some quote →
        (quote.toJson times).Plain := fun quote hQuote =>
    PeerQuote.plain_toJson times (hParams quote hQuote)
  simpa [members] using hQuote

end IntentResponseBody

end Model

end IcpHandler
