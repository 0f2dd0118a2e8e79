import IcpHandler.Model.MinorUnits

/-
  Decimals to minor units and back. The multiplication comes
  before the clamp, so an amount that outgrows the mantissa
  panics; an amount of minor units never does.

  Main declarations:
    * `decimalToMinor_of_fits`
    * `decimal_to_minor_saturates_iff`
    * `minorToDecimal_exact`
    * `minor_units_round_trip`
-/

------------------------------------------------------------
-- To Minor Units
------------------------------------------------------------

namespace IcpHandler

namespace Model

open Data

variable {ops : DecimalOps}

/- An integral decimal, read as an `i64` or saturated. -/
theorem saturated_eq
    (hOps : ops.Behaves)
    {scaled : Amount}
    {n : ℤ}
    (hScaled : scaled.value = n) :
    (ops.toI64 scaled).getD
        (if scaled.negative then Int64.minValue
          else Int64.maxValue) =
      Int64.ofIntClamp n := by
  rw [hOps.toI64_eq scaled n hScaled]
  by_cases hLow : n < Int64.minValue.toInt
  · have hNegative : scaled.negative = true := by
      have hBelow : (n : ℚ) < 0 := by
        have hZero : n < 0 := lt_trans hLow (by decide)
        exact_mod_cast hZero
      rw [← hScaled] at hBelow
      exact (Decimal.negative_iff (ne_of_lt hBelow)).mpr hBelow
    rw [if_neg (fun hRange => absurd hRange.1 (not_le.mpr hLow)),
      Option.getD_none, if_pos hNegative, Int64.ofIntClamp,
      dif_neg (not_le.mpr hLow)]
  by_cases hHigh : Int64.maxValue.toInt < n
  · have hPositive : ¬ scaled.negative = true := by
      have hAbove : (0 : ℚ) < n := by
        have hZero : 0 < n := lt_trans (by decide) hHigh
        exact_mod_cast hZero
      rw [← hScaled] at hAbove
      rw [Decimal.negative_iff (ne_of_gt hAbove)]
      exact not_lt.mpr (le_of_lt hAbove)
    rw [if_neg (fun hRange => absurd hRange.2 (not_le.mpr hHigh)),
      Option.getD_none, if_neg hPositive, Int64.ofIntClamp,
      dif_pos (not_lt.mp hLow), dif_neg (not_le.mpr hHigh)]
  · have hRange :
        Int64.minValue.toInt ≤ n ∧ n ≤ Int64.maxValue.toInt :=
      ⟨not_lt.mp hLow, not_lt.mp hHigh⟩
    rw [if_pos hRange, Option.getD_some, Int64.ofIntClamp,
      dif_pos hRange.1, dif_pos hRange.2]
    rfl

/- The scale of a currency, as the decimal it is used as. -/
theorem ofI64_minorUnitScale
    (hOps : ops.Behaves)
    (currency : String) :
    ∃ places ≤ 8,
      (ops.ofI64 (minorUnitScale currency)).value =
          10 ^ places ∧
        (minorUnitScale currency).toInt = 10 ^ places := by
  obtain ⟨places, hPlaces, hScale⟩ :=
    minorUnitScale_pow currency
  refine ⟨places, hPlaces, ?_, hScale⟩
  rw [hOps.ofI64_eq, hScale]
  push_cast
  rfl

/- A product that is a decimal is rounded and saturated. -/
theorem decimalToMinor_of_fits
    (hOps : ops.Behaves)
    {amount : Amount}
    {currency : String}
    (hFits :
      Decimal.Fits (2 ^ 96) 28
        (amount.value *
          (ops.ofI64 (minorUnitScale currency)).value)) :
    decimalToMinor ops amount currency =
      some (Int64.ofIntClamp (roundHalfEven (amount.value *
        (minorUnitScale currency).toInt))) := by
  obtain ⟨product, hProduct, hValue⟩ :=
    hOps.mul_exact _ _ hFits
  have hScaled := hOps.round_eq product
  rw [hValue, hOps.ofI64_eq] at hScaled
  unfold decimalToMinor
  dsimp only
  rw [hProduct]
  exact congrArg some (saturated_eq hOps hScaled)

/-
  An amount is converted exactly if it stays within 96 bits
  when it is counted in minor units. Beyond, the
  multiplication panics before anything is clamped.
-/
theorem decimal_to_minor_saturates_iff
    (ops : DecimalOps)
    (hOps : ops.Behaves)
    (amount : Amount)
    (currency : String) :
    decimalToMinor ops amount currency =
        some (Int64.ofIntClamp (roundHalfEven (amount.value *
          (minorUnitScale currency).toInt))) ↔
      |amount.value * (minorUnitScale currency).toInt| <
        2 ^ 96 := by
  obtain ⟨places, -, hPower, hScale⟩ :=
    ofI64_minorUnitScale hOps currency
  have hFactor :
      amount.value * ((minorUnitScale currency).toInt : ℚ) =
        amount.value * 10 ^ places := by
    rw [hScale]
    push_cast
    rfl
  have hFits := amount.fits_shifted_iff places
  push_cast at hFits
  constructor
  · intro hConverted
    by_contra hLarge
    have hPanics :=
      hOps.mul_overflow amount
        (ops.ofI64 (minorUnitScale currency))
        (by rw [hOps.ofI64_eq]; exact not_lt.mp hLarge)
    unfold decimalToMinor at hConverted
    dsimp only at hConverted
    rw [hPanics] at hConverted
    cases hConverted
  · intro hSmall
    refine decimalToMinor_of_fits hOps ?_
    rw [hPower]
    rw [hFactor] at hSmall
    exact hFits.mpr hSmall

/- The largest decimal cannot be counted in cents. -/
theorem largest_amount_panics :
    ¬ ∀ ops : DecimalOps, ops.Behaves →
      ∀ (amount : Amount) (currency : String),
        decimalToMinor ops amount currency =
          some (Int64.ofIntClamp (roundHalfEven (amount.value *
            (minorUnitScale currency).toInt))) := by
  intro hAll
  have hScale : (minorUnitScale "USD").toInt = 100 := by
    decide
  have hSmall :=
    (decimal_to_minor_saturates_iff exactOps exactOps_behaves
      (Decimal.ofScaled (2 ^ 96 - 1) 0 (by decide) (by decide))
      "USD").mp
      (hAll exactOps exactOps_behaves _ "USD")
  rw [hScale, Decimal.value_ofScaled] at hSmall
  norm_num at hSmall

/- A dollar and half a cent. -/
theorem decimal_to_minor_saturates_iff_sample :
    decimalToMinor exactOps
        (Decimal.ofScaled 1005 3 (by decide) (by decide))
        "USD" =
      some 100 := by
  have hScale : (minorUnitScale "USD").toInt = 100 := by
    decide
  have hSmall :
      |(Decimal.ofScaled 1005 3 (by decide) (by decide) :
          Amount).value * (minorUnitScale "USD").toInt| <
        2 ^ 96 := by
    rw [hScale, Decimal.value_ofScaled]
    norm_num
  refine ((decimal_to_minor_saturates_iff exactOps
    exactOps_behaves _ "USD").mpr hSmall).trans ?_
  rw [hScale, Decimal.value_ofScaled]
  decide +kernel

end Model

end IcpHandler

------------------------------------------------------------
-- There and Back
------------------------------------------------------------

namespace IcpHandler

namespace Model

open Data

/- Minor units become a decimal of the currency's places. -/
theorem minorToDecimal_exact
    (hOps : ops.Behaves)
    (amountMinor : Int64)
    (currency : String) :
    ∃ amount, minorToDecimal ops amountMinor currency =
        some amount ∧
      amount.value =
        amountMinor.toInt / (minorUnitScale currency).toInt := by
  obtain ⟨places, hPlaces, hPower, -⟩ :=
    ofI64_minorUnitScale hOps currency
  have hNonzero :
      (ops.ofI64 (minorUnitScale currency)).value ≠ 0 := by
    rw [hPower]
    positivity
  have hMinor := hOps.ofI64_eq amountMinor
  have hFits :
      Decimal.Fits (2 ^ 96) 28
        ((ops.ofI64 amountMinor).value /
          (ops.ofI64 (minorUnitScale currency)).value) := by
    rw [hMinor, hPower]
    exact Decimal.fits_scaled (natAbs_toInt_lt amountMinor)
      (Nat.le_trans hPlaces (by decide))
  obtain ⟨amount, hAmount, hValue⟩ :=
    hOps.div_exact _ _ hNonzero hFits
  refine ⟨amount, ?_, ?_⟩
  · unfold minorToDecimal
    dsimp only
    rw [max_minorUnitScale]
    exact hAmount
  · rw [hValue, hMinor, hOps.ofI64_eq]

/-
  Minor units become a decimal with the places of the
  currency, and the same minor units again.
-/
theorem minor_units_round_trip
    (ops : DecimalOps)
    (hOps : ops.Behaves)
    (amountMinor : Int64)
    (currency : String) :
    ∃ amount, minorToDecimal ops amountMinor currency =
        some amount ∧
      amount.value =
        amountMinor.toInt / (minorUnitScale currency).toInt ∧
      decimalToMinor ops amount currency = some amountMinor := by
  obtain ⟨amount, hAmount, hValue⟩ :=
    minorToDecimal_exact hOps amountMinor currency
  obtain ⟨places, -, -, hScale⟩ :=
    ofI64_minorUnitScale hOps currency
  have hNonzero :
      ((minorUnitScale currency).toInt : ℚ) ≠ 0 := by
    rw [hScale]
    positivity
  have hBack :
      amount.value *
        (ops.ofI64 (minorUnitScale currency)).value =
          amountMinor.toInt := by
    rw [hOps.ofI64_eq, hValue, div_mul_cancel₀ _ hNonzero]
  have hFits :
      Decimal.Fits (2 ^ 96) 28
        (amount.value *
          (ops.ofI64 (minorUnitScale currency)).value) := by
    rw [hBack, ← div_one (amountMinor.toInt : ℚ),
      ← pow_zero (10 : ℚ)]
    exact Decimal.fits_scaled (natAbs_toInt_lt amountMinor)
      (Nat.zero_le _)
  refine ⟨amount, hAmount, hValue, ?_⟩
  rw [decimalToMinor_of_fits hOps hFits,
    ← hOps.ofI64_eq (minorUnitScale currency), hBack,
    roundHalfEven_intCast, Int64.ofIntClamp_toInt]

/- The smallest amount, in a currency of eight places. -/
theorem minor_units_round_trip_sample :
    ∃ amount,
      minorToDecimal exactOps Int64.minValue "btc" =
          some amount ∧
        decimalToMinor exactOps amount "btc" =
          some Int64.minValue := by
  obtain ⟨amount, hAmount, -, hBack⟩ :=
    minor_units_round_trip exactOps exactOps_behaves
      Int64.minValue "btc"
  exact ⟨amount, hAmount, hBack⟩

end Model

end IcpHandler
