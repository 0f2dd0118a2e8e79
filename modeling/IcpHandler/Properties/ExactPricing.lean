import IcpHandler.Data.CappedSums
import IcpHandler.Service.Helpers

/-
  Prices. What the items of a request come to is the exact sum
  of their products, capped once, with the tax rounded down;
  and a discount lowers it without ever going below zero.

  Main declarations:
    * `zeroPadded_injective`
    * `RequestItem.Priceable`, `exactSubtotal`
    * `PricedExactly`, `priceRequestItems_exact`
    * `discounted_bounded`
-/

------------------------------------------------------------
-- Line Ids
------------------------------------------------------------

namespace IcpHandler

namespace Model

namespace Text

/- Leading zeros do not change what number is meant. -/
theorem zeroPadded_injective (width : Nat) :
    Function.Injective (zeroPadded width) := by
  have hValue :
      ∀ n, Nat.ofDigitChars 10 (zeroPadded width n).toList 0 =
        n := by
    intro n
    unfold zeroPadded
    rw [String.toList_append, String.toList_ofList,
      Nat.ofDigitChars_append, Nat.ofDigitChars_replicate_zero,
      Nat.mul_zero, Nat.toString_eq_ofList_toDigits,
      String.toList_ofList, Nat.ofDigitChars_ten_toDigits]
  intro m n hSame
  rw [← hValue m, ← hValue n]
  exact congrArg
    (fun text : String => Nat.ofDigitChars 10 text.toList 0)
    hSame

end Text

end Model

end IcpHandler

------------------------------------------------------------
-- Exact Prices
------------------------------------------------------------

namespace IcpHandler

namespace Service

open Model Saturating

/- The price of one unit: the hint, or the default. -/
def unitMinor (item : RequestItem) : Int64 :=
  (item.unitPriceHint.map Money.amountMinor).getD 1000

/- What `price_request_items` asks of an item. -/
def Priceable (item : RequestItem) : Prop :=
  0 < item.quantity ∧ 0 ≤ unitMinor item

instance (item : RequestItem) : Decidable (Priceable item) :=
  inferInstanceAs (Decidable (_ ∧ _))

/- Quantity times unit price, over the integers. -/
def exactLine (item : RequestItem) : Int :=
  (unitMinor item).toInt * item.quantity.toInt

/- The exact sum over all items. -/
def exactSubtotal (items : List RequestItem) : Int :=
  (items.map exactLine).sum

/- The id of the line at an index. -/
def lineId (idx : Nat) : String :=
  "li_" ++ Text.zeroPadded 6 idx

theorem lineId_injective : Function.Injective lineId :=
  fun _ _ hSame =>
    Text.zeroPadded_injective 6
      ((String.append_right_inj _).mp hSame)

/- What a line says about its item. -/
structure LineFor
    (currency : String)
    (item : RequestItem)
    (line : LineItem) : Prop where
  sku : line.sku = item.sku
  quantity : line.quantity = item.quantity
  unitPrice : line.unitPrice = .new (unitMinor item) currency
  total : line.total = line.subtotal
  currency : line.subtotal.currency = currency
  amount :
    line.subtotal.amountMinor.toInt = cap (exactLine item)

theorem exactLine_nonneg
    {item : RequestItem}
    (hItem : Priceable item) :
    0 ≤ exactLine item := by
  have hUnit := Int64.le_iff_toInt_le.mp hItem.2
  have hQuantity := Int64.lt_iff_toInt_lt.mp hItem.1
  exact Int.mul_nonneg hUnit (Int.le_of_lt hQuantity)

theorem exactSubtotal_nonneg
    {items : List RequestItem}
    (hItems : ∀ item ∈ items, Priceable item) :
    0 ≤ exactSubtotal items := by
  refine List.sum_nonneg ?_
  intro n hMem
  obtain ⟨item, hItem, rfl⟩ := List.mem_map.mp hMem
  exact exactLine_nonneg (hItems item hItem)

/- The line of the item at an index. -/
def pricedLine
    (currency : String)
    (idx : Nat)
    (item : RequestItem) : LineItem where
  id := lineId idx
  sku := item.sku
  name := item.sku
  quantity := item.quantity
  unitPrice := .new (unitMinor item) currency
  subtotal :=
    .new (satMul (unitMinor item) item.quantity) currency
  tax := none
  total := .new (satMul (unitMinor item) item.quantity) currency

section Loop

variable {items : List RequestItem}
variable {currency fieldPrefix : String}
variable {idx : Nat} {subtotalMinor : Int64}

/- The loop succeeds on priceable items with the exact sum. -/
theorem priceLoop_ok
    (hItems : ∀ item ∈ items, Priceable item)
    (hStart : 0 ≤ subtotalMinor.toInt) :
    ∃ lines total,
      priceLoop currency fieldPrefix idx subtotalMinor items =
          .ok (lines, total) ∧
        total.toInt =
          cap (subtotalMinor.toInt + exactSubtotal items) ∧
        lines.map LineItem.id =
          (List.range' idx items.length).map lineId ∧
        List.Forall₂ (LineFor currency) items lines := by
  induction items generalizing idx subtotalMinor with
  | nil =>
      refine ⟨[], subtotalMinor, rfl, ?_, rfl, .nil⟩
      rw [exactSubtotal, List.map_nil, List.sum_nil, add_zero,
        cap_toInt]
  | cons item items ih =>
      have hItem := hItems item List.mem_cons_self
      have hRest := fun other hMem =>
        hItems other (List.mem_cons_of_mem item hMem)
      have hUnit : 0 ≤ (unitMinor item).toInt :=
        Int64.le_iff_toInt_le.mp hItem.2
      have hQuantity : 0 ≤ item.quantity.toInt :=
        Int.le_of_lt (Int64.lt_iff_toInt_lt.mp hItem.1)
      have hLine :
          (satMul (unitMinor item) item.quantity).toInt =
            cap (exactLine item) :=
        toInt_satMul_of_nonneg hUnit hQuantity
      have hLineNonneg :
          0 ≤ (satMul (unitMinor item) item.quantity).toInt := by
        rw [hLine]
        exact cap_nonneg (exactLine_nonneg hItem)
      have hAdded :
          (satAdd subtotalMinor
              (satMul (unitMinor item) item.quantity)).toInt =
            cap (subtotalMinor.toInt + exactLine item) := by
        rw [toInt_satAdd_of_nonneg hStart hLineNonneg, hLine,
          cap_add_cap_right hStart]
      have hAddedNonneg :
          0 ≤ (satAdd subtotalMinor
            (satMul (unitMinor item) item.quantity)).toInt := by
        rw [hAdded]
        refine cap_nonneg ?_
        have hNonneg := exactLine_nonneg hItem
        omega
      obtain ⟨lines, total, hOk, hTotal, hIds, hLines⟩ :=
        @ih (idx + 1) _ hRest hAddedNonneg
      refine ⟨pricedLine currency idx item :: lines, total, ?_,
        ?_, ?_, .cons ?_ hLines⟩
      · rw [priceLoop]
        dsimp only
        rw [if_neg (Int64.not_le.mpr hItem.1)]
        rw [show (item.unitPriceHint.map
          Money.amountMinor).getD 1000 = unitMinor item from rfl]
        rw [if_neg (Int64.not_lt.mpr hItem.2), hOk]
        rfl
      · rw [hTotal, hAdded,
          cap_add_cap (exactSubtotal_nonneg hRest),
          exactSubtotal, exactSubtotal, List.map_cons,
          List.sum_cons, add_assoc]
      · rw [List.map_cons, hIds, List.length_cons,
          List.range'_succ, List.map_cons]
        rfl
      · exact ⟨rfl, rfl, rfl, rfl, rfl, hLine⟩

/- The loop stops at the first item that is not priceable. -/
theorem priceLoop_error
    {item : RequestItem}
    (hMem : item ∈ items)
    (hBad : ¬ Priceable item) :
    ∃ error,
      priceLoop currency fieldPrefix idx subtotalMinor items =
        .error error := by
  induction items generalizing idx subtotalMinor with
  | nil => cases hMem
  | cons first items ih =>
      rw [priceLoop]
      dsimp only
      by_cases hQuantity : first.quantity ≤ 0
      · exact ⟨_, if_pos hQuantity⟩
      · rw [if_neg hQuantity]
        by_cases hUnit :
            (first.unitPriceHint.map
              Money.amountMinor).getD 1000 < 0
        · exact ⟨_, if_pos hUnit⟩
        · rw [if_neg hUnit]
          have hFirst : Priceable first :=
            ⟨Int64.not_le.mp hQuantity, Int64.not_lt.mp hUnit⟩
          rcases List.mem_cons.mp hMem with rfl | hMem
          · exact absurd hFirst hBad
          · obtain ⟨error, hError⟩ := ih hMem
            rw [hError]
            exact ⟨error, rfl⟩

end Loop

end Service

end IcpHandler

------------------------------------------------------------
-- The Totals
------------------------------------------------------------

namespace IcpHandler

namespace Service

open Model Saturating

/-
  The tax is an eighth and three quarters of a percent of the
  subtotal, rounded down. The product fits in 128 bits.
-/
theorem flatTaxMinor_exact
    {subtotalMinor : Int64}
    (hNonneg : 0 ≤ subtotalMinor.toInt) :
    (flatTaxMinor subtotalMinor).toInt =
        subtotalMinor.toInt * 875 / 10000 ∧
      subtotalMinor.toInt * 875 < 2 ^ 127 := by
  have hLt := Int64.toInt_lt subtotalMinor
  refine ⟨?_, by omega⟩
  rw [flatTaxMinor, Int.tdiv_eq_ediv_of_nonneg (by omega)]
  have hMin : Int64.minValue.toInt = -(2 ^ 63) := by decide
  have hMax : Int64.maxValue.toInt = 2 ^ 63 - 1 := by decide
  rw [Int64.toInt_ofInt_of_le (by omega) (by omega)]

/- What a list of priceable items comes to. -/
structure PricedExactly
    (items : List RequestItem)
    (currency : String)
    (lines : List LineItem)
    (totals : Totals)
    (subtotal tax total : Int64) : Prop where
  totals_eq :
    totals =
      { subtotal := some (.new subtotal currency)
        discount := none
        shipping := none
        tax := some (.new tax currency)
        total := some (.new total currency) }
  subtotal_eq : subtotal.toInt = cap (exactSubtotal items)
  tax_eq : tax.toInt = subtotal.toInt * 875 / 10000
  total_eq : total.toInt = cap (subtotal.toInt + tax.toInt)
  fits : subtotal.toInt * 875 < 2 ^ 127
  lines_for : List.Forall₂ (LineFor currency) items lines
  ids_nodup : (lines.map LineItem.id).Nodup

/-
  Pricing is exact, and refuses a list for an item that fails
  one of its own checks, and for nothing else.
-/
theorem priceRequestItems_exact
    (items : List RequestItem)
    (currency fieldPrefix : String) :
    ((∀ item ∈ items, Priceable item) →
      ∃ lines totals subtotal tax total,
        priceRequestItems items currency fieldPrefix =
            .ok (lines, totals) ∧
          PricedExactly items currency lines totals subtotal
            tax total) ∧
    ((∃ error,
        priceRequestItems items currency fieldPrefix =
          .error error) ↔
      ∃ item ∈ items, ¬ Priceable item) := by
  have hPriced :
      (∀ item ∈ items, Priceable item) →
        ∃ lines totals subtotal tax total,
          priceRequestItems items currency fieldPrefix =
              .ok (lines, totals) ∧
            PricedExactly items currency lines totals subtotal
              tax total := by
    intro hItems
    obtain ⟨lines, subtotal, hOk, hSubtotal, hIds, hLines⟩ :=
      @priceLoop_ok items currency fieldPrefix 0 0 hItems
        (Int.le_refl 0)
    have hZero : (0 : Int64).toInt = 0 := rfl
    rw [hZero, zero_add] at hSubtotal
    have hNonneg : 0 ≤ subtotal.toInt := by
      rw [hSubtotal]
      exact cap_nonneg (exactSubtotal_nonneg hItems)
    obtain ⟨hTax, hFits⟩ := flatTaxMinor_exact hNonneg
    have hTaxNonneg : 0 ≤ (flatTaxMinor subtotal).toInt := by
      omega
    refine ⟨lines, _, subtotal, flatTaxMinor subtotal,
      satAdd subtotal (flatTaxMinor subtotal), ?_,
      ⟨rfl, hSubtotal, hTax,
        toInt_satAdd_of_nonneg hNonneg hTaxNonneg, hFits, hLines,
        ?_⟩⟩
    · rw [priceRequestItems, hOk]
      rfl
    · rw [hIds]
      have hDistinct : (List.range' 0 items.length).Nodup :=
        List.nodup_range'
      exact hDistinct.map lineId_injective
  refine ⟨hPriced, ?_, ?_⟩
  · rintro ⟨error, hError⟩
    by_contra hNone
    push Not at hNone
    obtain ⟨lines, totals, _, _, _, hOk, -⟩ := hPriced hNone
    rw [hOk] at hError
    cases hError
  · rintro ⟨item, hMem, hBad⟩
    obtain ⟨error, hError⟩ :=
      @priceLoop_error items currency fieldPrefix 0 0 item hMem
        hBad
    exact ⟨error, by rw [priceRequestItems, hError]; rfl⟩

end Service

end IcpHandler

------------------------------------------------------------
-- Discounts
------------------------------------------------------------

namespace IcpHandler

namespace Service

open Model Saturating

/- The amount a discount is cut down to. -/
def clampedDiscount
    (subtotal discountMinor : Int64) : Int64 :=
  max 0 (min discountMinor subtotal)

/- What totals come to after a discount. -/
structure Discounted
    (totals : Totals)
    (currency : String)
    (discountMinor : Int64)
    (after : Totals)
    (subtotal discount tax total : Int64) : Prop where
  subtotal_eq : totals.subtotal = some (.new subtotal currency)
  after_eq :
    after =
      { totals with
        discount := some (.new discount currency)
        tax := some (.new tax currency)
        total := some (.new total currency) }
  discount_eq :
    discount.toInt =
      max 0 (min discountMinor.toInt subtotal.toInt)
  discount_nonneg : 0 ≤ discount.toInt
  discount_le : discount.toInt ≤ subtotal.toInt
  -- The difference is exact, and so is the tax on it.
  fits :
    (subtotal - discount).toInt =
      subtotal.toInt - discount.toInt
  tax_eq :
    tax.toInt =
      (subtotal.toInt - discount.toInt) * 875 / 10000
  total_eq :
    total.toInt =
      cap (subtotal.toInt - discount.toInt + tax.toInt)
  total_nonneg : 0 ≤ total.toInt
  total_le : total.toInt ≤ (totalAmountMinor totals).toInt

theorem toInt_max (a b : Int64) :
    (max a b).toInt = max a.toInt b.toInt := by
  change (if a ≤ b then b else a).toInt = _
  split
  · rename_i hLe
    rw [max_eq_right (Int64.le_iff_toInt_le.mp hLe)]
  · rename_i hNot
    rw [max_eq_left]
    exact Int.le_of_lt
      (Int64.lt_iff_toInt_lt.mp (Int64.not_le.mp hNot))

theorem toInt_min (a b : Int64) :
    (min a b).toInt = min a.toInt b.toInt := by
  change (if a ≤ b then a else b).toInt = _
  split
  · rename_i hLe
    rw [min_eq_left (Int64.le_iff_toInt_le.mp hLe)]
  · rename_i hNot
    rw [min_eq_right]
    exact Int.le_of_lt
      (Int64.lt_iff_toInt_lt.mp (Int64.not_le.mp hNot))

theorem toInt_clampedDiscount
    (subtotal discountMinor : Int64) :
    (clampedDiscount subtotal discountMinor).toInt =
      max 0 (min discountMinor.toInt subtotal.toInt) := by
  rw [clampedDiscount, toInt_max, toInt_min]
  rfl

/- A difference of amounts in order does not wrap. -/
theorem toInt_sub_of_le
    {a b : Int64}
    (hNonneg : 0 ≤ b.toInt)
    (hLe : b.toInt ≤ a.toInt) :
    (a - b).toInt = a.toInt - b.toInt := by
  have hLt := Int64.toInt_lt a
  rw [Int64.toInt_sub, Int.bmod_eq_of_le]
  · omega
  · omega

/- A tax on a larger amount is larger, and both are small. -/
theorem taxed_mono
    {m n : Int}
    (hLe : m ≤ n) :
    cap (m + m * 875 / 10000) ≤ cap (n + n * 875 / 10000) := by
  refine cap_mono ?_
  omega

section Discount

variable {items : List RequestItem}
variable {currency fieldPrefix : String}
variable {lines : List LineItem} {totals : Totals}

/- What has been priced could be. -/
theorem priceable_of_ok
    (hPriced :
      priceRequestItems items currency fieldPrefix =
        .ok (lines, totals)) :
    ∀ item ∈ items, Priceable item := by
  obtain ⟨-, hError⟩ :=
    priceRequestItems_exact items currency fieldPrefix
  by_contra hBad
  push Not at hBad
  obtain ⟨error, hRefused⟩ := hError.mpr hBad
  rw [hPriced] at hRefused
  cases hRefused

/- The totals that pricing answers with are exact. -/
theorem pricedExactly_of_ok
    (hPriced :
      priceRequestItems items currency fieldPrefix =
        .ok (lines, totals)) :
    ∃ subtotal tax total,
      PricedExactly items currency lines totals subtotal tax
        total ∧
      0 ≤ subtotal.toInt := by
  have hItems := priceable_of_ok hPriced
  obtain ⟨hOk, -⟩ :=
    priceRequestItems_exact items currency fieldPrefix
  obtain ⟨lines', totals', subtotal, tax, total, hSame,
    hExact⟩ := hOk hItems
  rw [hPriced] at hSame
  cases hSame
  refine ⟨subtotal, tax, total, hExact, ?_⟩
  rw [hExact.subtotal_eq]
  exact cap_nonneg (exactSubtotal_nonneg hItems)

/- One discount on priced totals. -/
theorem discounted_of_priced
    {subtotal tax total : Int64}
    (hExact :
      PricedExactly items currency lines totals subtotal tax
        total)
    (hNonneg : 0 ≤ subtotal.toInt)
    (discountMinor : Int64) :
    ∃ discount tax' total',
      Discounted totals currency discountMinor
        (applyDiscountToTotals totals discountMinor currency)
        subtotal discount tax' total' := by
  have hTotals := hExact.totals_eq
  have hClamped := toInt_clampedDiscount subtotal discountMinor
  have hDiscountNonneg :
      0 ≤ (clampedDiscount subtotal discountMinor).toInt := by
    omega
  have hDiscountLe :
      (clampedDiscount subtotal discountMinor).toInt ≤
        subtotal.toInt := by
    omega
  have hDifference := toInt_sub_of_le hDiscountNonneg hDiscountLe
  have hLeft :
      0 ≤ (subtotal -
        clampedDiscount subtotal discountMinor).toInt := by
    omega
  obtain ⟨hTax, -⟩ := flatTaxMinor_exact hLeft
  have hTaxNonneg :
      0 ≤ (flatTaxMinor (subtotal -
        clampedDiscount subtotal discountMinor)).toInt := by
    omega
  have hTotal := toInt_satAdd_of_nonneg hLeft hTaxNonneg
  rw [hDifference] at hTax hTotal
  refine ⟨clampedDiscount subtotal discountMinor, _, _,
    { subtotal_eq := by rw [hTotals]
      after_eq := ?_
      discount_eq := hClamped
      discount_nonneg := hDiscountNonneg
      discount_le := hDiscountLe
      fits := hDifference
      tax_eq := hTax
      total_eq := hTotal
      total_nonneg := ?_
      total_le := ?_ }⟩
  · rw [hTotals]
    rfl
  · rw [hTotal]
    exact cap_nonneg (by omega)
  · have hWhole : totalAmountMinor totals = total := by
      rw [hTotals]
      rfl
    rw [hWhole, hTotal, hTax, hExact.total_eq, hExact.tax_eq]
    exact taxed_mono (by omega)

/-
  Whatever the discount, the totals end between zero and the
  undiscounted total, with the tax taken on what is left; and
  a larger discount never makes them larger.
-/
theorem discounts_bounded
    (hPriced :
      priceRequestItems items currency fieldPrefix =
        .ok (lines, totals)) :
    (∀ discountMinor, ∃ subtotal discount tax total,
      Discounted totals currency discountMinor
        (applyDiscountToTotals totals discountMinor currency)
        subtotal discount tax total) ∧
    ∀ smaller larger : Int64, smaller ≤ larger →
      totalAmountMinor
          (applyDiscountToTotals totals larger currency) ≤
        totalAmountMinor
          (applyDiscountToTotals totals smaller currency) := by
  obtain ⟨subtotal, tax, total, hExact, hNonneg⟩ :=
    pricedExactly_of_ok hPriced
  have hDiscounted := discounted_of_priced hExact hNonneg
  refine ⟨fun discountMinor => ⟨subtotal,
    hDiscounted discountMinor⟩, ?_⟩
  intro smaller larger hLe
  obtain ⟨discount, tax, total, hSmaller⟩ :=
    hDiscounted smaller
  obtain ⟨discount', tax', total', hLarger⟩ :=
    hDiscounted larger
  have hOrder := Int64.le_iff_toInt_le.mp hLe
  have hDiscounts := hSmaller.discount_eq
  have hDiscounts' := hLarger.discount_eq
  have hTotal :
      totalAmountMinor
          (applyDiscountToTotals totals smaller currency) =
        total := by
    rw [hSmaller.after_eq]
    rfl
  have hTotal' :
      totalAmountMinor
          (applyDiscountToTotals totals larger currency) =
        total' := by
    rw [hLarger.after_eq]
    rfl
  rw [hTotal, hTotal', Int64.le_iff_toInt_le,
    hSmaller.total_eq, hLarger.total_eq, hSmaller.tax_eq,
    hLarger.tax_eq]
  exact taxed_mono (by omega)

/- Two units at ten dollars each. -/
private def twoUnits : List RequestItem :=
  [{ sku := "sku_1", quantity := 2 }]

theorem discounts_bounded_sample :
    ∃ lines totals,
      priceRequestItems twoUnits "USD" "items" =
          .ok (lines, totals) ∧
        (∀ discountMinor, ∃ subtotal discount tax total,
          Discounted totals "USD" discountMinor
            (applyDiscountToTotals totals discountMinor "USD")
            subtotal discount tax total) ∧
        ∀ smaller larger : Int64, smaller ≤ larger →
          totalAmountMinor
              (applyDiscountToTotals totals larger "USD") ≤
            totalAmountMinor
              (applyDiscountToTotals totals smaller "USD") := by
  have hPriced :
      ∃ lines totals,
        priceRequestItems twoUnits "USD" "items" =
          .ok (lines, totals) :=
    ⟨_, _, rfl⟩
  obtain ⟨lines, totals, hPriced⟩ := hPriced
  exact ⟨lines, totals, hPriced, discounts_bounded hPriced⟩

end Discount

end Service

end IcpHandler
