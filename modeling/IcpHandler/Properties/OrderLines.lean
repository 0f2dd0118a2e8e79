import IcpHandler.Model.Concrete
import IcpHandler.Properties.MinorUnitRounding
import IcpHandler.Protocol.Origins
import IcpHandler.Service.CommerceEngine

/-
  Orders of stored transactions. Every line is ordered under
  its SKU and at its price, but an order counts pieces in 32
  bits: of a larger quantity the most it can say is ordered.

  Main declarations:
    * `EngineCall.Meets`
    * `OrderedAs`, `OrderFor`, `OrderCarries`
    * `meets_persistOrder`
    * `orders_carry_lines`
-/

------------------------------------------------------------
-- Tracing Calls of the Engine
------------------------------------------------------------

namespace IcpHandler

namespace Service

open Model Concurrency

/- The calls that have been answered. -/
abbrev EngineMoves := Trace EngineEff.Res

/- The engine has refused the call. -/
def refused : Move EngineEff.Res → Bool
  | ⟨.createCustomer _, .error _⟩ => true
  | ⟨.variantBySku _, .error _⟩ => true
  | ⟨.createProduct _, .error _⟩ => true
  | ⟨.createOrder _, .error _⟩ => true
  | _ => false

/- Some call has been refused. -/
def SomeRefused (past : EngineMoves) : Prop :=
  ∃ move ∈ past, refused move = true

namespace EngineCall

variable {α β : Type}
variable {kind : EngineEff → Prop}
variable {past : EngineMoves}

/-
  The block only makes calls of one kind. It lands in `Q` where
  it returns, and only stops early for a refused call.
-/
def Meets
    (kind : EngineEff → Prop)
    (body : EngineCall α)
    (Q : α → EngineMoves → Prop)
    (past : EngineMoves) : Prop :=
  body.run.Traced (fun _ effect => kind effect)
    (fun result later =>
      match result with
      | .ok value => Q value later
      | .error _ => SomeRefused later)
    past

theorem meets_pure
    {Q : α → EngineMoves → Prop}
    {value : α}
    (hPost : Q value past) :
    Meets kind (pure value) Q past :=
  hPost

theorem Meets.bind
    {body : EngineCall α}
    {next : α → EngineCall β}
    {Q : α → EngineMoves → Prop}
    {Q' : β → EngineMoves → Prop}
    (hBody : Meets kind body Q past)
    (hNext :
      ∀ value later, Q value later →
        Meets kind (next value) Q' later) :
    Meets kind (body >>= next) Q' past := by
  rw [Meets, ExceptT.run_bind, Prog.Traced.bind_iff]
  refine Prog.Traced.mono hBody fun result later hPost => ?_
  cases result with
  | ok value => exact hNext value later hPost
  | error halt => exact hPost

/- A whole run of the block made calls of the kind. -/
theorem Meets.of_yields
    {body : EngineCall α}
    {Q : α → EngineMoves → Prop}
    {calls : List (Move EngineEff.Res)}
    {result : Except Halt α}
    (hMeets : Meets kind body Q [])
    (hYields : body.run.Yields calls result) :
    (∀ call ∈ calls, kind call.effect) ∧
      (∀ value, result = .ok value → Q value calls.reverse) ∧
      ∀ halt, result = .error halt →
        SomeRefused calls.reverse := by
  have hTraced :
      body.run.Traced (fun _ _ => True) _ [] :=
    Prog.Traced.of_kind hMeets fun _ _ _ => trivial
  obtain ⟨hPost, recent, hRecent, hKinds⟩ :=
    hYields.post hTraced
  rw [List.append_nil] at hPost hRecent
  rw [List.append_nil] at hRecent
  subst hRecent
  refine ⟨fun call hCall =>
    hKinds call (List.mem_reverse.mpr hCall), ?_, ?_⟩
  · rintro value rfl
    exact hPost
  · rintro halt rfl
    exact hPost

theorem meets_createCustomer
    {request : CreateCustomer}
    (hKind : kind (.createCustomer request)) :
    Meets kind (createCustomer request) (fun _ _ => True)
      past := by
  refine ⟨hKind, fun answer => ?_⟩
  cases answer with
  | ok id => exact trivial
  | error message => exact ⟨_, List.mem_cons_self, rfl⟩

theorem meets_variantBySku
    {sku : String}
    (hKind : kind (.variantBySku sku)) :
    Meets kind (variantBySku sku) (fun _ _ => True) past := by
  refine ⟨hKind, fun answer => ?_⟩
  cases answer with
  | ok found => exact trivial
  | error message => exact ⟨_, List.mem_cons_self, rfl⟩

theorem meets_createProduct
    {request : CreateProduct}
    (hKind : kind (.createProduct request)) :
    Meets kind (createProduct request) (fun _ _ => True)
      past := by
  refine ⟨hKind, fun answer => ?_⟩
  cases answer with
  | ok id => exact trivial
  | error message => exact ⟨_, List.mem_cons_self, rfl⟩

/- A created order has been answered with its id and number. -/
theorem meets_createOrder
    {request : CreateOrder}
    (hKind : kind (.createOrder request)) :
    Meets kind (createOrder request)
      (fun created later =>
        (⟨.createOrder request, .ok created⟩ :
          Move EngineEff.Res) ∈ later)
      past := by
  refine ⟨hKind, fun answer => ?_⟩
  cases answer with
  | ok created => exact List.mem_cons_self
  | error message => exact ⟨_, List.mem_cons_self, rfl⟩

end EngineCall

end Service

end IcpHandler

------------------------------------------------------------
-- What an Order Says
------------------------------------------------------------

namespace IcpHandler

namespace Service

open Model Concurrency

/-
  The item orders what the line sells, at its price, and as
  many pieces of it as an order can count.
-/
structure OrderedAs
    (line : LineItem)
    (item : CreateOrderItem) : Prop where
  sku : item.sku = line.sku
  quantity :
    item.quantity.toInt = min line.quantity.toInt 2147483647
  unitPrice :
    item.unitPrice.value =
      line.unitPrice.amountMinor.toInt /
        (minorUnitScale line.unitPrice.currency).toInt

/- The order has an item for each line, in their order. -/
structure OrderFor
    (parseCurrency : String → Option String)
    (row : Transaction)
    (request : CreateOrder) : Prop where
  items : List.Forall₂ OrderedAs row.lineItems request.items
  currency : request.currency = parseCurrency row.currency

/-
  What comes of an attempt to order. There is an order unless
  the buyer has no email or the engine refuses a call; it is
  for the lines, and has the total of the transaction.
-/
structure OrderCarries
    (parseCurrency : String → Option String)
    (row : Transaction)
    (calls : List (Move EngineEff.Res))
    (result : Except Halt (Option PersistedOrder)) :
    Prop where
  requests :
    ∀ call ∈ calls, ∀ request,
      call.effect = .createOrder request →
        OrderFor parseCurrency row request
  created :
    ∀ order, result = .ok (some order) →
      order.total =
          row.totals.total.getD (.new 0 row.currency) ∧
        ∃ request,
          (⟨.createOrder request,
              .ok (order.id, order.orderNumber)⟩ :
            Move EngineEff.Res) ∈ calls
  nobody :
    result = .ok none →
      row.buyer.email.filter (!·.isEmpty) = none
  stopped :
    ∀ halt, result = .error halt →
      ∃ call ∈ calls, refused call = true

/- An order counts what it is asked for, up to its limit. -/
theorem toInt_orderQuantity
    {quantity : Int64}
    (hCounted : 0 < quantity) :
    (orderQuantity quantity).toInt =
      min quantity.toInt 2147483647 := by
  have hPositive : 0 < quantity.toInt :=
    Int64.lt_iff_toInt_lt.mp hCounted
  unfold orderQuantity
  rw [Int32.toInt_ofInt_of_le]
  · omega
  · omega
  · omega

variable {ops : DecimalOps}
variable {parseCurrency : String → Option String}

/- Calls that are no order, or the order of the row. -/
def OrderCalls
    (parseCurrency : String → Option String)
    (row : Transaction)
    (effect : EngineEff) : Prop :=
  ∀ request, effect = .createOrder request →
    OrderFor parseCurrency row request

theorem meets_ensureProductForSku
    {row : Transaction}
    {past : EngineMoves}
    (sku name : String)
    (unitPrice : Amount) :
    EngineCall.Meets (OrderCalls parseCurrency row)
      (ensureProductForSku sku name unitPrice)
      (fun _ _ => True) past := by
  refine (EngineCall.meets_variantBySku
    (fun _ hNo => nomatch hNo)).bind fun found later _ => ?_
  cases found with
  | some productId => exact trivial
  | none =>
      exact EngineCall.meets_createProduct
        (fun _ hNo => nomatch hNo)

/- The loop makes an item of every line. -/
theorem meets_orderItems
    (hOps : ops.Behaves)
    {row : Transaction}
    {currency : String}
    {lines : List LineItem}
    {past : EngineMoves}
    (hLines :
      ∀ line ∈ lines,
        0 < line.quantity ∧
          line.unitPrice.currency = currency) :
    EngineCall.Meets (OrderCalls parseCurrency row)
      (orderItems ops currency lines)
      (fun items _ => List.Forall₂ OrderedAs lines items)
      past := by
  induction lines generalizing past with
  | nil => exact List.Forall₂.nil
  | cons line rest ih =>
      obtain ⟨⟨hCounted, hCurrency⟩, hRest⟩ :=
        List.forall_mem_cons.mp hLines
      obtain ⟨unitPrice, hPrice, hValue⟩ :=
        minorToDecimal_exact hOps line.unitPrice.amountMinor
          currency
      unfold orderItems
      rw [hPrice]
      refine EngineCall.Meets.bind
        (EngineCall.meets_pure (Q := fun price _ =>
          price.value = unitPrice.value) rfl)
        fun price _ hSame => ?_
      refine (meets_ensureProductForSku line.sku line.name
        price).bind fun productId _ _ => ?_
      refine (ih hRest).bind fun items _ hItems => ?_
      refine EngineCall.meets_pure (.cons ?_ hItems)
      constructor
      · rfl
      · exact toInt_orderQuantity hCounted
      · rw [hCurrency]
        exact hSame.trans hValue

/- An attempt to order keeps to the lines of the row. -/
theorem meets_persistOrder
    (hOps : ops.Behaves)
    {row : Transaction}
    (hLines : Protocol.CountedLines row) :
    EngineCall.Meets (OrderCalls parseCurrency row)
      (persistOrder ops parseCurrency row.buyer row.currency
        row.lineItems row.totals)
      (fun result later =>
        match result with
        | some order =>
            order.total =
                row.totals.total.getD (.new 0 row.currency) ∧
              ∃ request,
                (⟨.createOrder request,
                    .ok (order.id, order.orderNumber)⟩ :
                  Move EngineEff.Res) ∈ later
        | none => row.buyer.email.filter (!·.isEmpty) = none)
      [] := by
  unfold persistOrder
  split
  · rename_i hNobody
    exact EngineCall.meets_pure hNobody
  · refine (EngineCall.meets_createCustomer
      (fun _ hNo => nomatch hNo)).bind fun customerId _ _ => ?_
    refine (meets_orderItems hOps hLines).bind
      fun items _ hItems => ?_
    refine EngineCall.Meets.bind
      (EngineCall.meets_createOrder ?_)
      fun created later hCreated => ?_
    · intro request hRequest
      cases hRequest
      exact ⟨hItems, rfl⟩
    · exact EngineCall.meets_pure ⟨rfl, _, hCreated⟩

/- Every run of the attempt carries the row. -/
theorem orderCarries_of_yields
    (hOps : ops.Behaves)
    {row : Transaction}
    {calls : List (Move EngineEff.Res)}
    {result : Except Halt (Option PersistedOrder)}
    (hLines : Protocol.CountedLines row)
    (hYields :
      (persistOrder ops parseCurrency row.buyer row.currency
        row.lineItems row.totals).run.Yields calls result) :
    OrderCarries parseCurrency row calls result := by
  obtain ⟨hCalls, hReturned, hStopped⟩ :=
    (meets_persistOrder hOps hLines).of_yields hYields
  constructor
  · exact hCalls
  · intro order hOrder
    obtain ⟨hTotal, request, hCreated⟩ := hReturned _ hOrder
    exact ⟨hTotal, request, List.mem_reverse.mp hCreated⟩
  · exact fun hNone => hReturned _ hNone
  · intro halt hHalt
    obtain ⟨call, hCall, hRefused⟩ := hStopped halt hHalt
    exact ⟨call, List.mem_reverse.mp hCall, hRefused⟩

end Service

end IcpHandler

------------------------------------------------------------
-- Orders of Stored Transactions
------------------------------------------------------------

namespace IcpHandler

namespace Service

open Model Concurrency Protocol

/-
  In every run an order of a stored transaction is for its
  lines, with the total of the transaction. Only the number of
  pieces on a line may be cut, to what 32 bits can count.
-/
theorem orders_carry_lines
    (svc : IcpService)
    (ops : Nat → Op)
    (ledger : MandateLedger)
    (subscribers : List WebhookSubscriber)
    (pool : Pool Eff.Res World OpResult)
    (hReaches :
      Reaches svc ops (.fresh ledger subscribers) pool)
    (id : String)
    (row : Transaction)
    (hStored :
      pool.history.world.transactions.get id = some row)
    (decimals : DecimalOps)
    (hDecimals : decimals.Behaves)
    (parseCurrency : String → Option String)
    (calls : List (Move EngineEff.Res))
    (result : Except Halt (Option PersistedOrder))
    (hYields :
      (persistOrder decimals parseCurrency row.buyer
        row.currency row.lineItems row.totals).run.Yields
          calls result) :
    OrderCarries parseCurrency row calls result :=
  orderCarries_of_yields hDecimals
    (hReaches.countsLines (fun _ _ hNone => nomatch hNone)
      hStored)
    hYields

/- A handler whose quotes are for a buyer with an email. -/
private def emailService : IcpService :=
  { concreteService with
    deps :=
      { concreteDeps with
        quoteParams := fun params => do
          pure
            { items := ← concreteItems params
              buyer :=
                some { email := some "ann@example.com" } } } }

/- A purchase of more pieces than an order can count. -/
private def crate : Nat → Op
  | 0 => .intent (sampleQuote "X" 2147483648)
  | _ => .intent (sampleBuy "X")

private def crateSchedule : List (Nat × Choice) :=
  [(0, {}), (0, {}), (0, {}), (0, {}),
    (1, {}), (1, {}), (1, {}), (1, {}), (1, {}), (1, {})]

private theorem crate_bought :
    ∃ pool row line,
      Reaches emailService crate (.fresh (.memory ∅) []) pool ∧
        pool.history.world.transactions.get "X" = some row ∧
        row.state = .completed ∧
        row.buyer.email = some "ann@example.com" ∧
        row.lineItems = [line] ∧
        line.quantity = 2147483648 := by
  have hRun :
      ((runOf emailService crate (.fresh (.memory ∅) [])
        crateSchedule).any fun pool =>
          (pool.history.world.transactions.get "X").any
            fun row =>
              row.state == .completed &&
                row.buyer.email == some "ann@example.com" &&
                row.lineItems.map (·.quantity) ==
                  [2147483648]) = true := by
    decide
  obtain ⟨pool, hPool, hRow⟩ := (Option.any_eq_true _ _).mp hRun
  obtain ⟨row, hStored, hChecks⟩ :=
    (Option.any_eq_true _ _).mp hRow
  simp only [Bool.and_eq_true, beq_iff_eq] at hChecks
  obtain ⟨⟨hState, hEmail⟩, hQuantities⟩ := hChecks
  obtain ⟨line, hLine, hQuantity⟩ :=
    List.map_eq_singleton_iff.mp hQuantities
  exact ⟨pool, row, line, ⟨crateSchedule, hPool⟩, hStored,
    hState, hEmail, hLine, hQuantity⟩

/- An engine that takes every order. -/
private def obliging : ∀ effect : EngineEff, effect.Res
  | .createCustomer _ => .ok "customer"
  | .variantBySku _ => .ok (some "product")
  | .createProduct _ => .ok "product"
  | .createOrder _ => .ok ("order", "1001")

private theorem not_refused_obliging
    {call : Move EngineEff.Res}
    (hAnswer : call.answer = obliging call.effect) :
    refused call = false := by
  rcases call with ⟨effect, answer⟩
  dsimp only at hAnswer
  subst hAnswer
  cases effect with
  | _ => rfl

/- The bought transaction is ordered. -/
private theorem crate_ordered :
    ∃ pool row line calls result request item,
      Reaches emailService crate (.fresh (.memory ∅) []) pool ∧
        pool.history.world.transactions.get "X" = some row ∧
        row.state = .completed ∧
        (persistOrder exactOps some row.buyer row.currency
          row.lineItems row.totals).run.Yields calls result ∧
        (∃ answer : Except String (String × String),
          (⟨.createOrder request, answer⟩ :
            Move EngineEff.Res) ∈ calls) ∧
        row.lineItems = [line] ∧ request.items = [item] ∧
        line.quantity = 2147483648 ∧ OrderedAs line item := by
  obtain ⟨pool, row, line, hReaches, hStored, hState, hEmail,
    hLine, hQuantity⟩ := crate_bought
  obtain ⟨calls, result, hYields, hAnswers⟩ :=
    Prog.exists_yields obliging
      (persistOrder exactOps some row.buyer row.currency
        row.lineItems row.totals).run
  have hCarries := orderCarries_of_yields exactOps_behaves
    (hReaches.countsLines (fun _ _ hNone => nomatch hNone)
      hStored) hYields
  have hPlaced : ∃ order, result = .ok (some order) := by
    rcases result with halt | (_ | order)
    · obtain ⟨call, hCall, hRefused⟩ :=
        hCarries.stopped halt rfl
      rw [not_refused_obliging (hAnswers call hCall)]
        at hRefused
      cases hRefused
    · have hNobody := hCarries.nobody rfl
      rw [hEmail] at hNobody
      cases hNobody
    · exact ⟨order, rfl⟩
  obtain ⟨order, hOrder⟩ := hPlaced
  obtain ⟨-, request, hCreated⟩ := hCarries.created order hOrder
  have hItems :=
    (hCarries.requests _ hCreated request rfl).items
  rw [hLine] at hItems
  obtain ⟨item, hItem⟩ :=
    List.length_eq_one_iff.mp hItems.length_eq.symm
  rw [hItem, List.forall₂_cons] at hItems
  exact ⟨pool, row, line, calls, result, request, item,
    hReaches, hStored, hState, hYields, ⟨_, hCreated⟩, hLine,
    hItem, hQuantity, hItems.1⟩

/- One piece of the crate is not ordered. -/
theorem crate_cut_short :
    ¬ ∀ svc ops ledger subscribers pool,
      Reaches svc ops (.fresh ledger subscribers) pool →
      ∀ id row,
        pool.history.world.transactions.get id = some row →
        row.state = .completed →
        ∀ (decimals : DecimalOps)
            (parseCurrency : String → Option String),
          decimals.Behaves →
          ∀ calls result,
            (persistOrder decimals parseCurrency row.buyer
              row.currency row.lineItems
              row.totals).run.Yields calls result →
            ∀ call ∈ calls, ∀ request,
              call.effect = .createOrder request →
                List.Forall₂
                  (fun line item =>
                    OrderedAs line item ∧
                      item.quantity.toInt =
                        line.quantity.toInt)
                  row.lineItems request.items := by
  intro hAll
  obtain ⟨pool, row, line, calls, result, request, item,
    hReaches, hStored, hState, hYields, ⟨answer, hCreated⟩,
    hLine, hItem, hQuantity, hOrdered⟩ := crate_ordered
  have hExact :=
    hAll _ _ _ _ pool hReaches "X" row hStored hState exactOps
      some exactOps_behaves calls result hYields _ hCreated
      request rfl
  rw [hLine, hItem, List.forall₂_cons] at hExact
  have hCut := hOrdered.quantity
  rw [hExact.1.2, hQuantity] at hCut
  revert hCut
  decide

theorem orders_carry_lines_sample :
    ∃ row calls result,
      row.state = .completed ∧
        OrderCarries some row calls result := by
  obtain ⟨pool, row, line, calls, result, request, item,
    hReaches, hStored, hState, hYields, -⟩ := crate_ordered
  exact ⟨row, calls, result, hState,
    orders_carry_lines emailService crate (.memory ∅) [] pool
      hReaches "X" row hStored exactOps exactOps_behaves some
      calls result hYields⟩

end Service

end IcpHandler
