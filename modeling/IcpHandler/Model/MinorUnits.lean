import IcpHandler.Data.Decimals
import IcpHandler.Model.Text

/-
  Amounts between minor units and the decimals of
  `rust_decimal`. A call of that package that panics has no
  result.

  Main declarations:
    * `DecimalOps`, `DecimalOps.Behaves`
    * `minorUnitScale`
    * `decimalToMinor`, `minorToDecimal`
    * `exactOps`
-/

------------------------------------------------------------
-- The Package
------------------------------------------------------------

namespace IcpHandler

namespace Model

/- `Decimal`: a mantissa of 96 bits, and up to 28 places. -/
abbrev Amount := Data.Decimal (2 ^ 96) 28

/- The functions of `rust_decimal`. -/
structure DecimalOps where
  -- `Decimal::from`
  ofI64 : Int64 → Amount
  -- `*` and `/`
  mul : Amount → Amount → Option Amount
  div : Amount → Amount → Option Amount
  -- `Decimal::round`
  round : Amount → Amount
  -- `i64::try_from`
  toI64 : Amount → Option Int64

/-
  Exact while the result is a decimal; a product too large for
  the mantissa panics. Rounding is half to even.
-/
structure DecimalOps.Behaves (ops : DecimalOps) : Prop where
  ofI64_eq : ∀ n, (ops.ofI64 n).value = n.toInt
  mul_exact :
    ∀ a b, Data.Decimal.Fits (2 ^ 96) 28 (a.value * b.value) →
      ∃ product, ops.mul a b = some product ∧
        product.value = a.value * b.value
  mul_overflow :
    ∀ a b, 2 ^ 96 ≤ |a.value * b.value| → ops.mul a b = none
  div_exact :
    ∀ a b, b.value ≠ 0 →
      Data.Decimal.Fits (2 ^ 96) 28 (a.value / b.value) →
      ∃ quotient, ops.div a b = some quotient ∧
        quotient.value = a.value / b.value
  round_eq :
    ∀ a, (ops.round a).value = Data.roundHalfEven a.value
  toI64_eq :
    ∀ (a : Amount) (n : ℤ), a.value = n →
      ops.toI64 a =
        if Int64.minValue.toInt ≤ n ∧
            n ≤ Int64.maxValue.toInt then
          some (Int64.ofInt n)
        else none

end Model

end IcpHandler

------------------------------------------------------------
-- Minor Units
------------------------------------------------------------

namespace IcpHandler

namespace Model

/- `str::to_ascii_uppercase` -/
def Text.toAsciiUppercase (s : String) : String :=
  String.ofList (s.toList.map fun c =>
    if 97 ≤ c.toNat ∧ c.toNat ≤ 122 then
      Char.ofNat (c.toNat - 32)
    else c)

/- `minor_unit_scale` -/
def minorUnitScale (currency : String) : Int64 :=
  let code := Text.toAsciiUppercase currency
  if code ∈ ["JPY", "KRW", "VND"] then 1
  else if code ∈
      ["BHD", "IQD", "JOD", "KWD", "LYD", "OMR", "TND"] then
    1000
  else if code = "BTC" then 100000000
  else if code ∈ ["USDC", "USDT", "DAI", "SSUSD"] then 1000000
  else 100

variable (ops : DecimalOps)

/-
  `decimal_to_minor`: what does not fit an `i64` is saturated,
  by the sign of the rounded amount.
-/
def decimalToMinor
    (amount : Amount)
    (currency : String) : Option Int64 := do
  let scale := minorUnitScale currency
  let product ← ops.mul amount (ops.ofI64 scale)
  let scaled := ops.round product
  pure ((ops.toI64 scaled).getD
    (if scaled.negative then Int64.minValue
      else Int64.maxValue))

/- `minor_to_decimal` -/
def minorToDecimal
    (amountMinor : Int64)
    (currency : String) : Option Amount :=
  let scale := minorUnitScale currency
  ops.div (ops.ofI64 amountMinor) (ops.ofI64 (max scale 1))

/- Every currency counts in a power of ten. -/
theorem minorUnitScale_pow (currency : String) :
    ∃ places ≤ 8,
      (minorUnitScale currency).toInt = 10 ^ places := by
  unfold minorUnitScale
  dsimp only
  split
  · exact ⟨0, by decide, rfl⟩
  split
  · exact ⟨3, by decide, rfl⟩
  split
  · exact ⟨8, by decide, rfl⟩
  split
  · exact ⟨6, by decide, rfl⟩
  · exact ⟨2, by decide, rfl⟩

theorem max_minorUnitScale (currency : String) :
    max (minorUnitScale currency) 1 =
      minorUnitScale currency := by
  unfold minorUnitScale
  dsimp only
  split
  · rfl
  split
  · rfl
  split
  · rfl
  split
  · rfl
  · rfl

end Model

end IcpHandler

------------------------------------------------------------
-- An Exact Package
------------------------------------------------------------

namespace IcpHandler

namespace Model

open Data

theorem natAbs_toInt_lt (n : Int64) :
    n.toInt.natAbs < 2 ^ 96 := by
  have hLow := Int64.le_toInt n
  have hHigh := Int64.toInt_lt n
  omega

theorem natAbs_rounded_lt (a : Amount) :
    (roundHalfEven a.value).natAbs < 2 ^ 96 :=
  Nat.lt_of_le_of_lt
    (natAbs_roundHalfEven_le a.abs_value_le) a.mantissa_lt

/- The package on the rationals, without any inexact result. -/
def exactOps : DecimalOps where
  ofI64 n :=
    Decimal.ofScaled n.toInt 0 (natAbs_toInt_lt n) (by decide)
  mul a b := Decimal.ofRat? _ _ (a.value * b.value)
  div a b :=
    if b.value = 0 then none
    else Decimal.ofRat? _ _ (a.value / b.value)
  round a :=
    Decimal.ofScaled (roundHalfEven a.value) 0
      (natAbs_rounded_lt a) (by decide)
  toI64 a :=
    if a.value.den = 1 ∧
        Int64.minValue.toInt ≤ a.value.num ∧
        a.value.num ≤ Int64.maxValue.toInt then
      some (Int64.ofInt a.value.num)
    else none

theorem exactOps_behaves : exactOps.Behaves where
  ofI64_eq n := by
    rw [exactOps, Decimal.value_ofScaled, pow_zero, div_one]
  mul_exact a b hFits := by
    obtain ⟨product, hProduct⟩ :=
      Option.isSome_iff_exists.mp
        (Decimal.ofRat?_isSome_iff.mpr hFits)
    exact ⟨product, hProduct, Decimal.value_ofRat? hProduct⟩
  mul_overflow a b hLarge := by
    rw [← Option.not_isSome_iff_eq_none]
    intro hSome
    obtain ⟨product, hProduct⟩ :=
      Decimal.ofRat?_isSome_iff.mp hSome
    have hLess := product.abs_value_lt
    rw [hProduct] at hLess
    exact absurd hLess (not_lt.mpr (by exact_mod_cast hLarge))
  div_exact a b hNonzero hFits := by
    obtain ⟨quotient, hQuotient⟩ :=
      Option.isSome_iff_exists.mp
        (Decimal.ofRat?_isSome_iff.mpr hFits)
    refine ⟨quotient, ?_, Decimal.value_ofRat? hQuotient⟩
    rw [exactOps]
    dsimp only
    rw [if_neg hNonzero]
    exact hQuotient
  round_eq a := by
    rw [exactOps, Decimal.value_ofScaled, pow_zero, div_one]
  toI64_eq a n hValue := by
    rw [exactOps]
    dsimp only
    rw [hValue, Rat.den_intCast, Rat.num_intCast]
    by_cases hRange :
        Int64.minValue.toInt ≤ n ∧ n ≤ Int64.maxValue.toInt
    · rw [if_pos ⟨rfl, hRange⟩, if_pos hRange]
    · rw [if_neg fun hAll => hRange hAll.2, if_neg hRange]

end Model

end IcpHandler
