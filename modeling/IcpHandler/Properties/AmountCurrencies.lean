import Mathlib.Data.List.ReduceOption
import IcpHandler.Model.Concrete
import IcpHandler.Properties.ExactPricing
import IcpHandler.Protocol.Origins

/-
  The currency of an amount. Prices and offers come with a
  currency of their own, and are recorded under that of the
  transaction. They keep their currency just where the two
  agree: nothing is refused or converted.

  Main declarations:
    * `Relabelled`
    * `HintsKept`, `PricedFrom`
    * `OfferKept`
    * `currencies_kept_iff`
-/

------------------------------------------------------------
-- Amounts under a Currency
------------------------------------------------------------

namespace IcpHandler

namespace Protocol

open Model Service Concurrency

/- Currency codes are compared as the ledger compares them. -/
def SameCurrency (first second : String) : Prop :=
  Text.eqIgnoreAsciiCase first second = true

instance (first second : String) :
    Decidable (SameCurrency first second) :=
  inferInstanceAs (Decidable (_ = true))

/- An amount is recorded as it was, in another currency. -/
def Relabelled (given recorded : Money) : Prop :=
  recorded.amountMinor = given.amountMinor ∧
    ¬ SameCurrency given.currency recorded.currency

/- The price hints are in the currency. -/
def HintedIn
    (currency : String)
    (items : List RequestItem) : Prop :=
  ∀ item ∈ items, ∀ hint, item.unitPriceHint = some hint →
    SameCurrency hint.currency currency

/- No price hint is relabelled on the line of its item. -/
def HintsKept
    (items : List RequestItem)
    (lines : List LineItem) : Prop :=
  List.Forall₂
    (fun item line => ∀ hint, item.unitPriceHint = some hint →
      ¬ Relabelled hint line.unitPrice)
    items lines

/- The amounts that a transaction records. -/
def recordedAmounts (row : Transaction) : List Money :=
  row.lineItems.flatMap (fun line =>
      [line.unitPrice, line.subtotal, line.total]) ++
    [row.totals.subtotal, row.totals.discount,
      row.totals.shipping, row.totals.tax,
      row.totals.total].reduceOption

/-
  The row keeps its amounts' currencies: they are all under
  its own currency, and none was given in another one.
-/
structure CurrenciesKept
    (items : List RequestItem)
    (row : Transaction) : Prop where
  own : ∀ money ∈ recordedAmounts row,
    money.currency = row.currency
  hints : HintsKept items row.lineItems

section Hints

variable {items : List RequestItem} {currency : String}
variable {lines : List LineItem}

/- A line keeps a hint that is in its currency, and no other. -/
theorem not_relabelled_iff
    {item : RequestItem}
    {line : LineItem}
    (hLine : LineFor currency item line)
    {hint : Money}
    (hHint : item.unitPriceHint = some hint) :
    ¬ Relabelled hint line.unitPrice ↔
      SameCurrency hint.currency currency := by
  have hUnit : unitMinor item = hint.amountMinor := by
    rw [unitMinor, hHint]
    rfl
  have hPrice := hLine.unitPrice
  rw [hUnit] at hPrice
  rw [Relabelled, hPrice]
  constructor
  · intro hKept
    by_contra hOther
    exact hKept ⟨rfl, hOther⟩
  · rintro hSame ⟨-, hOther⟩
    exact hOther hSame

theorem hintsKept_iff
    (hLines : List.Forall₂ (LineFor currency) items lines) :
    HintsKept items lines ↔ HintedIn currency items := by
  induction hLines with
  | nil =>
      refine ⟨fun _ item hItem => ?_, fun _ => .nil⟩
      cases hItem
  | @cons item line items lines hLine _ ih =>
      rw [HintsKept, List.forall₂_cons]
      constructor
      · rintro ⟨hFirst, hRest⟩ other hOther hint hHint
        rcases List.mem_cons.mp hOther with rfl | hOther
        · exact (not_relabelled_iff hLine hHint).mp
            (hFirst hint hHint)
        · exact ih.mp hRest other hOther hint hHint
      · intro hAll
        refine ⟨fun hint hHint => ?_, ih.mpr ?_⟩
        · exact (not_relabelled_iff hLine hHint).mpr
            (hAll item List.mem_cons_self hint hHint)
        · exact fun other hOther =>
            hAll other (List.mem_cons_of_mem _ hOther)

/- Lines are in the currency they are priced in. -/
theorem lines_own
    (hLines : List.Forall₂ (LineFor currency) items lines) :
    ∀ line ∈ lines,
      line.unitPrice.currency = currency ∧
        line.subtotal.currency = currency ∧
        line.total.currency = currency := by
  intro line hMem
  induction hLines with
  | nil => cases hMem
  | @cons item first items lines hLine _ ih =>
      rcases List.mem_cons.mp hMem with rfl | hMem
      · refine ⟨?_, hLine.currency, ?_⟩
        · rw [hLine.unitPrice]
          rfl
        · rw [hLine.total]
          exact hLine.currency
      · exact ih hMem

end Hints

end Protocol

end IcpHandler

------------------------------------------------------------
-- Priced Items
------------------------------------------------------------

namespace IcpHandler

namespace Protocol

open Model Service Concurrency

/- The operation prices items. -/
def PricesItems : Op → Prop
  | .intent input =>
      ∃ intent, Intent.parse input.envelope.intent = .ok intent ∧
        pricesItems intent = true
  | .tickSubscriptions _ => True
  | .tickExpiries _ => False

/- The amounts of the row are computed from the items. -/
structure PricedFrom
    (svc : IcpService)
    (op : Op)
    (past : Moves)
    (effect : Eff)
    (items : List RequestItem)
    (row : Transaction) : Prop where
  source : PricedFor svc op past effect items row.currency
  computed :
    ∃ fieldPrefix totals,
      priceRequestItems items row.currency fieldPrefix =
          .ok (row.lineItems, totals) ∧
        (row.totals = totals ∨ ∃ discountMinor,
          row.totals =
            applyDiscountToTotals totals discountMinor
              row.currency)

section Priced

variable {svc : IcpService} {op : Op}
variable {past : Moves} {effect : Eff}
variable {items : List RequestItem}
variable {row : Transaction}

theorem ItemFree.not_prices
    (hFree : ItemFree op) :
    ¬ PricesItems op := by
  obtain ⟨input, intent, rfl, hIntent, hNot⟩ := hFree
  rintro ⟨other, hOther, hPrices⟩
  rw [hIntent] at hOther
  cases hOther
  rw [hNot] at hPrices
  cases hPrices

theorem pricedFrom_of_origin
    (hOrigin : Origin svc op past effect row)
    (hPrices : PricesItems op) :
    ∃ items, PricedFrom svc op past effect items row := by
  cases hOrigin with
  | blank hFree hTotals hLines =>
      exact absurd hPrices hFree.not_prices
  | paid money hFree hPositive hCurrency hTotals hLines =>
      exact absurd hPrices hFree.not_prices
  | priced items fieldPrefix totals hFor hPriced hTotals =>
      exact ⟨items, hFor, fieldPrefix, totals, hPriced,
        hTotals⟩

/- Amounts are recorded under the row's own currency. -/
theorem PricedFrom.own
    (hFrom : PricedFrom svc op past effect items row) :
    ∀ money ∈ recordedAmounts row,
      money.currency = row.currency := by
  obtain ⟨-, fieldPrefix, totals, hPriced, hTotals⟩ := hFrom
  obtain ⟨subtotal, tax, total, hExact, hNonneg⟩ :=
    pricedExactly_of_ok hPriced
  have hEq := hExact.totals_eq
  have hOwn := lines_own hExact.lines_for
  intro money hMoney
  rcases List.mem_append.mp hMoney with hLine | hTotal
  · obtain ⟨line, hLine, hMoney⟩ := List.mem_flatMap.mp hLine
    obtain ⟨hUnit, hSubtotal, hAll⟩ := hOwn line hLine
    simp only [List.mem_cons, List.not_mem_nil,
      or_false] at hMoney
    rcases hMoney with rfl | rfl | rfl
    · exact hUnit
    · exact hSubtotal
    · exact hAll
  · rw [List.reduceOption_mem_iff] at hTotal
    rcases hTotals with hTotals | ⟨discountMinor, hTotals⟩
    · rw [hTotals, hEq] at hTotal
      simp only [List.mem_cons, List.not_mem_nil, or_false,
        Option.some.injEq, reduceCtorEq, false_or] at hTotal
      rcases hTotal with rfl | rfl | rfl
      · rfl
      · rfl
      · rfl
    · rw [hTotals, hEq, applyDiscountToTotals] at hTotal
      simp only [List.mem_cons, List.not_mem_nil, or_false,
        Option.some.injEq, reduceCtorEq, false_or] at hTotal
      rcases hTotal with rfl | rfl | rfl | rfl
      · rfl
      · rfl
      · rfl
      · rfl

theorem PricedFrom.kept_iff
    (hFrom : PricedFrom svc op past effect items row) :
    CurrenciesKept items row ↔ HintedIn row.currency items := by
  have hOwn := hFrom.own
  obtain ⟨-, fieldPrefix, totals, hPriced, -⟩ := hFrom
  obtain ⟨subtotal, tax, total, hExact, -⟩ :=
    pricedExactly_of_ok hPriced
  have hHints := hintsKept_iff hExact.lines_for
  exact ⟨fun hKept => hHints.mp hKept.hints, fun hHinted =>
    ⟨hOwn, hHints.mpr hHinted⟩⟩

end Priced

end Protocol

end IcpHandler

------------------------------------------------------------
-- Offers
------------------------------------------------------------

namespace IcpHandler

namespace Protocol

open Model Service Concurrency

/-
  What an offer is made in: the proposed total, or else the
  total that a percentage is taken off.
-/
def offerBasis
    (params : NegotiateParams)
    (txn : Transaction) : Option Money :=
  params.proposedTotal <|> txn.totals.total

/- The offer is made in the transaction's currency. -/
def OfferedIn
    (params : NegotiateParams)
    (txn : Transaction) : Prop :=
  ∀ basis, offerBasis params txn = some basis →
    SameCurrency basis.currency txn.currency

/-
  A proposed total is not relabelled, and a percentage is
  taken off a total in the currency of the result.
-/
structure OfferKept
    (params : NegotiateParams)
    (txn : Transaction)
    (recorded : Money) : Prop where
  proposed :
    ∀ given, params.proposedTotal = some given →
      ¬ Relabelled given recorded
  computed :
    params.proposedTotal = none →
      ∀ prior, txn.totals.total = some prior →
        SameCurrency prior.currency recorded.currency

theorem offerKept_iff
    (svc : IcpService)
    (params : NegotiateParams)
    (txn : Transaction) :
    OfferKept params txn
        (.new (offeredMinor svc params
          (totalAmountMinor txn.totals)) txn.currency) ↔
      OfferedIn params txn := by
  cases hProposed : params.proposedTotal with
  | some given =>
      have hBasis : offerBasis params txn = some given := by
        rw [offerBasis, hProposed]
        rfl
      have hAmount :
          offeredMinor svc params
              (totalAmountMinor txn.totals) =
            given.amountMinor := by
        rw [offeredMinor, hProposed]
      constructor
      · intro hKept basis hSome
        rw [hBasis] at hSome
        cases hSome
        by_contra hOther
        exact hKept.proposed given hProposed
          ⟨hAmount, hOther⟩
      · intro hOffered
        constructor
        · rintro other hSome ⟨-, hOther⟩
          rw [hProposed] at hSome
          cases hSome
          exact hOther (hOffered given hBasis)
        · intro hNone
          rw [hProposed] at hNone
          cases hNone
  | none =>
      have hBasis : offerBasis params txn = txn.totals.total := by
        rw [offerBasis, hProposed]
        rfl
      constructor
      · intro hKept basis hSome
        rw [hBasis] at hSome
        exact hKept.computed hProposed basis hSome
      · intro hOffered
        constructor
        · intro given hSome
          rw [hProposed] at hSome
          cases hSome
        · intro _ prior hPrior
          rw [← hBasis] at hPrior
          exact hOffered prior hPrior

end Protocol

end IcpHandler

------------------------------------------------------------
-- Runs
------------------------------------------------------------

namespace IcpHandler

namespace Protocol

open Model Service Concurrency

/-
  In every run, a transaction that is stored for a quote, a
  subscription or a renewal keeps the currencies of its items'
  prices just where they are its own; and so does the total
  that an answered counter-offer sets.
-/
theorem currencies_kept_iff
    (svc : IcpService)
    (ops : Nat → Op)
    (ledger : MandateLedger)
    (subscribers : List WebhookSubscriber)
    (pool : Pool Eff.Res World OpResult)
    (hReaches :
      Reaches svc ops (.fresh ledger subscribers) pool)
    (since older : Past)
    (o : Happening)
    (hPast : pool.history.past = since ++ o :: older) :
    (∀ row, StoredBy o row → PricesItems (ops o.thread) →
      ∃ items,
        PricedFrom svc (ops o.thread) (own o.thread older)
            o.effect items row ∧
          (CurrenciesKept items row ↔
            HintedIn row.currency items)) ∧
    ∀ id patch row,
      o.move = ⟨.txns (.update id patch), some row⟩ →
      reprices patch = true →
      ∃ input params txn recorded,
        CounterOffer svc input params txn (ops o.thread)
            (own o.thread older) id patch ∧
          row.totals.total = some recorded ∧
          (OfferKept params txn recorded ↔
            OfferedIn params txn) := by
  obtain ⟨earlier, -, -, hAllows, hRule⟩ :=
    hReaches.originated.cut hPast
  have hExec := executes_of_allows hAllows
  constructor
  · intro row hStored hPrices
    obtain ⟨items, hFrom⟩ :=
      pricedFrom_of_origin (origin_of_stored hRule hStored)
        hPrices
    exact ⟨items, hFrom, hFrom.kept_iff⟩
  · intro id patch row hMove hReprices
    have hEffect : o.effect = .txns (.update id patch) :=
      congrArg Move.effect hMove
    rw [hEffect] at hRule
    obtain ⟨input, params, txn, hOffer⟩ := hRule hReprices
    obtain ⟨before, -, hRow, -⟩ := hExec.updatedTxn hMove
    obtain ⟨now, hPatch⟩ := hOffer.writes
    refine ⟨input, params, txn, _, hOffer, ?_,
      offerKept_iff svc params txn⟩
    rw [hRow, hPatch]
    rfl

/- A quote of an item at a thousand yen, under dollars. -/
private def hintedQuote : Op :=
  .intent (sampleHint "X" 1000 "JPY")

private def yenItem : RequestItem :=
  { sku := "tea"
    quantity := 1
    unitPriceHint := some (.new 1000 "JPY") }

/- The run up to the storing of the row. -/
private def hinted : Option (Pool Eff.Res World OpResult) :=
  runOf hintService (fun _ => hintedQuote)
    (.fresh (.memory ∅) []) (List.replicate 4 (0, {}))

private theorem yen_of_priced
    {past : Moves} {effect : Eff}
    {items : List RequestItem} {currency : String}
    (hFor :
      PricedFor hintService hintedQuote past effect items
        currency) :
    items = [yenItem] ∧ currency = "USD" := by
  cases hFor with
  | quoted input params hOp hIntent hParams =>
      cases hOp
      cases hParams
      exact ⟨rfl, rfl⟩
  | enrolled input params hOp hIntent hParams =>
      cases hOp
      cases hParams
  | renewed input params sub hOp hIntent hParams hRead =>
      cases hOp
      cases hParams
  | billed now sub row hOp hEffect hListed => cases hOp

private def storedRow (o : Happening) : Option Transaction :=
  match o.effect with
  | .txns (.insert row) => some row
  | _ => none

private theorem hinted_row :
    ∃ pool o older row,
      Reaches hintService (fun _ => hintedQuote)
          (.fresh (.memory ∅) []) pool ∧
        pool.history.past = [] ++ o :: older ∧
        StoredBy o row := by
  have hRun :
      (hinted.any fun pool =>
        pool.history.past.head?.any fun o =>
          (storedRow o).isSome) = true := by
    decide
  obtain ⟨pool, hPool, hHead⟩ := (Option.any_eq_true _ _).mp hRun
  obtain ⟨o, hLast, hStored⟩ := (Option.any_eq_true _ _).mp hHead
  obtain ⟨older, hPast⟩ := List.head?_eq_some_iff.mp hLast
  obtain ⟨row, hRow⟩ := Option.isSome_iff_exists.mp hStored
  refine ⟨pool, o, older, row, ⟨_, hPool⟩, hPast, .inl ?_⟩
  unfold storedRow at hRow
  split at hRow
  · rename_i stored hEffect
    cases hRow
    exact hEffect
  · cases hRow

private theorem hintedQuote_prices : PricesItems hintedQuote :=
  ⟨.quote, by decide, rfl⟩

/- A thousand yen are recorded as a thousand cents. -/
theorem yen_relabelled :
    ¬ ∀ svc ops ledger subscribers pool,
      Reaches svc ops (.fresh ledger subscribers) pool →
      ∀ since o older,
        pool.history.past = since ++ o :: older →
        ∀ row items, StoredBy o row →
          PricedFrom svc (ops o.thread) (own o.thread older)
            o.effect items row →
          CurrenciesKept items row := by
  intro hAll
  obtain ⟨pool, o, older, row, hReaches, hPast, hStored⟩ :=
    hinted_row
  obtain ⟨earlier, -, -, -, hRule⟩ :=
    hReaches.originated.cut hPast
  obtain ⟨items, hFrom⟩ :=
    pricedFrom_of_origin (origin_of_stored hRule hStored)
      hintedQuote_prices
  have hKept :=
    hAll _ _ _ _ pool hReaches _ o older hPast row items hStored
      hFrom
  obtain ⟨rfl, hCurrency⟩ := yen_of_priced hFrom.source
  have hHinted := hFrom.kept_iff.mp hKept
  rw [hCurrency] at hHinted
  have hSame :=
    hHinted yenItem List.mem_cons_self (.new 1000 "JPY") rfl
  revert hSame
  decide

theorem currencies_kept_iff_sample :
    ∃ (o : Happening) (row : Transaction) (older : Past)
        (items : List RequestItem),
      StoredBy o row ∧
        PricedFrom hintService hintedQuote
            (own o.thread older) o.effect items row ∧
          (CurrenciesKept items row ↔
            HintedIn row.currency items) := by
  obtain ⟨pool, o, older, row, hReaches, hPast, hStored⟩ :=
    hinted_row
  obtain ⟨items, hFrom, hIff⟩ :=
    (currencies_kept_iff hintService (fun _ => hintedQuote)
      (.memory ∅) [] pool hReaches [] older o hPast).1 row
      hStored hintedQuote_prices
  exact ⟨o, row, older, items, hStored, hFrom, hIff⟩

end Protocol

end IcpHandler
