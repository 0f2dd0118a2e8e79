import Mathlib.Algebra.Order.Floor.Ring
import Mathlib.Data.Rat.Floor
import Mathlib.Tactic.FieldSimp
import Mathlib.Tactic.Linarith
import Mathlib.Tactic.NormNum
import Mathlib.Tactic.Positivity
import Mathlib.Tactic.Push

/-
  Decimal numbers of a bounded mantissa and a bounded number
  of places, with the rationals they stand for, and rounding
  to an integer with ties to the even one.

  Main declarations:
    * `roundHalfEven`
    * `Decimal`, `Decimal.value`
    * `Decimal.Fits`, `Decimal.fits_scaled`
    * `Decimal.fits_shifted_iff`
    * `Decimal.ofRat?`
-/

------------------------------------------------------------
-- Rounding
------------------------------------------------------------

namespace IcpHandler

namespace Data

/- The nearest integer; of two, the even one. -/
def roundHalfEven (q : ℚ) : ℤ :=
  let rest := q - q.floor
  if rest < 1 / 2 then q.floor
  else if 1 / 2 < rest then q.floor + 1
  else if q.floor % 2 = 0 then q.floor
  else q.floor + 1

section Rounding

variable {q : ℚ}

theorem floor_bounds (q : ℚ) :
    (q.floor : ℚ) ≤ q ∧ q < q.floor + 1 :=
  ⟨Int.floor_le q, Int.lt_floor_add_one q⟩

/- No integer is nearer. -/
theorem abs_sub_roundHalfEven (q : ℚ) :
    |q - roundHalfEven q| ≤ 1 / 2 := by
  obtain ⟨hLow, hHigh⟩ := floor_bounds q
  rw [abs_le]
  unfold roundHalfEven
  dsimp only
  split
  · constructor
    · linarith
    · linarith
  · split
    · push_cast
      constructor
      · linarith
      · linarith
    · split
      · constructor
        · linarith
        · linarith
      · push_cast
        constructor
        · linarith
        · linarith

theorem roundHalfEven_intCast (n : ℤ) :
    roundHalfEven (n : ℚ) = n := by
  have hFloor : (n : ℚ).floor = n := Rat.floor_intCast n
  unfold roundHalfEven
  dsimp only
  rw [hFloor, sub_self, if_pos (by norm_num)]

/- Rounding does not leave an interval of integers. -/
theorem natAbs_roundHalfEven_le
    {bound : Nat}
    (hBound : |q| ≤ bound) :
    (roundHalfEven q).natAbs ≤ bound := by
  have hNear := abs_le.mp (abs_sub_roundHalfEven q)
  have hWithin := abs_le.mp hBound
  have hUpper : (roundHalfEven q : ℚ) < (bound : ℤ) + 1 := by
    push_cast
    linarith
  have hLower : (-(bound : ℤ) : ℚ) - 1 < roundHalfEven q := by
    push_cast
    linarith
  have hLess : roundHalfEven q < (bound : ℤ) + 1 := by
    exact_mod_cast hUpper
  have hMore : -(bound : ℤ) - 1 < roundHalfEven q := by
    exact_mod_cast hLower
  omega

end Rounding

end Data

end IcpHandler

------------------------------------------------------------
-- Bounded Decimals
------------------------------------------------------------

namespace IcpHandler

namespace Data

/- A sign, a mantissa below the bound, and decimal places. -/
structure Decimal (bound places : Nat) where
  negative : Bool
  mantissa : Nat
  scale : Nat
  mantissa_lt : mantissa < bound
  scale_le : scale ≤ places

namespace Decimal

variable {bound places : Nat}

/- The number that a decimal stands for. -/
def value (d : Decimal bound places) : ℚ :=
  (if d.negative then -1 else 1) *
    ((d.mantissa : ℚ) / 10 ^ d.scale)

/- The number is that of some decimal. -/
def Fits (bound places : Nat) (q : ℚ) : Prop :=
  ∃ d : Decimal bound places, d.value = q

theorem abs_value (d : Decimal bound places) :
    |d.value| = (d.mantissa : ℚ) / 10 ^ d.scale := by
  have hNonneg : (0 : ℚ) ≤ d.mantissa / 10 ^ d.scale := by
    positivity
  rw [value, abs_mul, abs_of_nonneg hNonneg]
  cases d.negative with
  | true => simp
  | false => simp

theorem abs_value_le (d : Decimal bound places) :
    |d.value| ≤ d.mantissa := by
  rw [abs_value]
  refine div_le_self (Nat.cast_nonneg _) ?_
  exact one_le_pow₀ (by norm_num)

theorem abs_value_lt (d : Decimal bound places) :
    |d.value| < bound :=
  (abs_value_le d).trans_lt (by exact_mod_cast d.mantissa_lt)

/- The sign of a number that is not zero. -/
theorem negative_iff
    {d : Decimal bound places}
    (hNonzero : d.value ≠ 0) :
    d.negative = true ↔ d.value < 0 := by
  have hNonneg : (0 : ℚ) ≤ d.mantissa / 10 ^ d.scale := by
    positivity
  unfold value at hNonzero ⊢
  cases hSign : d.negative with
  | true =>
      rw [hSign] at hNonzero
      have hPos : (0 : ℚ) < d.mantissa / 10 ^ d.scale := by
        refine lt_of_le_of_ne hNonneg fun hZero => hNonzero ?_
        rw [← hZero, mul_zero]
      simp only [if_true, true_iff]
      linarith
  | false =>
      simp only [Bool.false_eq_true, if_false, one_mul,
        false_iff, not_lt]
      exact hNonneg

/- An integer, moved behind the point. -/
def ofScaled
    (n : ℤ)
    (scale : Nat)
    (hMantissa : n.natAbs < bound)
    (hScale : scale ≤ places) : Decimal bound places where
  negative := decide (n < 0)
  mantissa := n.natAbs
  scale := scale
  mantissa_lt := hMantissa
  scale_le := hScale

theorem value_ofScaled
    {n : ℤ}
    {scale : Nat}
    (hMantissa : n.natAbs < bound)
    (hScale : scale ≤ places) :
    (ofScaled n scale hMantissa hScale).value =
      (n : ℚ) / 10 ^ scale := by
  have hSigned :
      (if decide (n < 0) then (-1 : ℚ) else 1) *
        (n.natAbs : ℚ) = n := by
    rw [Nat.cast_natAbs]
    by_cases hNegative : n < 0
    · simp [hNegative, abs_of_neg]
    · simp [hNegative, abs_of_nonneg (not_lt.mp hNegative)]
  rw [value, ofScaled, ← mul_div_assoc]
  dsimp only
  rw [hSigned]

theorem fits_scaled
    {n : ℤ}
    {scale : Nat}
    (hMantissa : n.natAbs < bound)
    (hScale : scale ≤ places) :
    Fits bound places ((n : ℚ) / 10 ^ scale) :=
  ⟨ofScaled n scale hMantissa hScale,
    value_ofScaled hMantissa hScale⟩

/-
  A decimal multiplied by a power of ten fits unless it has
  grown past the bound: the places are used up first.
-/
theorem fits_shifted_iff
    (d : Decimal bound places)
    (k : Nat) :
    Fits bound places (d.value * 10 ^ k) ↔
      |d.value * 10 ^ k| < bound := by
  constructor
  · rintro ⟨shifted, hShifted⟩
    rw [← hShifted]
    exact shifted.abs_value_lt
  · intro hBound
    have hTen : (10 : ℚ) ≠ 0 := by norm_num
    by_cases hPlaces : k ≤ d.scale
    · refine ⟨⟨d.negative, d.mantissa, d.scale - k,
        d.mantissa_lt,
        (Nat.sub_le _ _).trans d.scale_le⟩, ?_⟩
      simp only [value]
      rw [pow_sub₀ _ hTen hPlaces]
      field_simp
    · have hMore : d.scale ≤ k := Nat.le_of_not_le hPlaces
      have hWhole :
          (d.mantissa : ℚ) / 10 ^ d.scale * 10 ^ k =
            ((d.mantissa * 10 ^ (k - d.scale) : Nat) : ℚ) := by
        push_cast
        rw [pow_sub₀ _ hTen hMore]
        field_simp
      have hMantissa :
          d.mantissa * 10 ^ (k - d.scale) < bound := by
        rw [abs_mul, abs_value, abs_of_pos (by positivity),
          hWhole] at hBound
        exact_mod_cast hBound
      refine ⟨⟨d.negative, _, 0, hMantissa,
        Nat.zero_le places⟩, ?_⟩
      simp only [value, pow_zero, div_one]
      rw [mul_assoc, hWhole]

end Decimal

end Data

end IcpHandler

------------------------------------------------------------
-- Exact Arithmetic
------------------------------------------------------------

namespace IcpHandler

namespace Data

namespace Decimal

variable {bound places : Nat}

/- The decimal of a number at a given scale. -/
def atScale?
    (bound places : Nat)
    (q : ℚ)
    (scale : Nat) : Option (Decimal bound places) :=
  let shifted := q * 10 ^ scale
  if hFits : shifted.num.natAbs < bound ∧ scale ≤ places then
    if shifted.den = 1 then
      some (ofScaled shifted.num scale hFits.1 hFits.2)
    else none
  else none

/- The decimal of a number, with the fewest places. -/
def ofRat?
    (bound places : Nat)
    (q : ℚ) : Option (Decimal bound places) :=
  (List.range (places + 1)).findSome?
    (atScale? bound places q)

theorem value_atScale?
    {q : ℚ}
    {scale : Nat}
    {d : Decimal bound places}
    (hFound : atScale? bound places q scale = some d) :
    d.value = q := by
  unfold atScale? at hFound
  dsimp only at hFound
  split at hFound
  · rename_i hFits
    split at hFound
    · rename_i hDen
      cases hFound
      rw [value_ofScaled, Rat.den_eq_one_iff _ |>.mp hDen]
      field_simp
    · cases hFound
  · cases hFound

theorem value_ofRat?
    {q : ℚ}
    {d : Decimal bound places}
    (hFound : ofRat? bound places q = some d) :
    d.value = q := by
  obtain ⟨scale, -, hAt⟩ := List.exists_of_findSome?_eq_some hFound
  exact value_atScale? hAt

/- It is found exactly if the number fits. -/
theorem ofRat?_isSome_iff {q : ℚ} :
    (ofRat? bound places q).isSome ↔ Fits bound places q := by
  constructor
  · intro hSome
    obtain ⟨d, hFound⟩ := Option.isSome_iff_exists.mp hSome
    exact ⟨d, value_ofRat? hFound⟩
  · rintro ⟨d, rfl⟩
    refine List.findSome?_isSome_iff.mpr ⟨d.scale, ?_, ?_⟩
    · rw [List.mem_range]
      exact Nat.lt_succ_of_le d.scale_le
    have hShifted :
        d.value * 10 ^ d.scale =
          ((if d.negative then -(d.mantissa : ℤ)
            else d.mantissa : ℤ) : ℚ) := by
      unfold value
      cases d.negative with
      | true =>
          simp only [if_true]
          push_cast
          field_simp
      | false =>
          simp only [Bool.false_eq_true, if_false]
          push_cast
          field_simp
    have hMantissa :
        (d.value * 10 ^ d.scale).num.natAbs = d.mantissa := by
      rw [hShifted, Rat.num_intCast]
      cases d.negative with
      | true => simp
      | false => simp
    have hDen : (d.value * 10 ^ d.scale).den = 1 := by
      rw [hShifted]
      exact Rat.den_intCast _
    unfold atScale?
    dsimp only
    rw [dif_pos ⟨hMantissa.symm ▸ d.mantissa_lt, d.scale_le⟩,
      if_pos hDen]
    rfl

end Decimal

end Data

end IcpHandler
