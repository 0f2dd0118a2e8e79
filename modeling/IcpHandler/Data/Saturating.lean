import Mathlib.Data.Int.Order.Basic

/-
  Saturating machine arithmetic on the fixed-width types.

  Main declarations:
    * `satAdd`
    * `satSub`
    * `satMul`
    * `satAdd32`, `satSub32`
-/

------------------------------------------------------------
-- Signed 64-Bit
------------------------------------------------------------

namespace IcpHandler

namespace Saturating

/- `i64::saturating_add` -/
def satAdd (a b : Int64) : Int64 :=
  Int64.ofIntClamp (a.toInt + b.toInt)

/- `i64::saturating_sub` -/
def satSub (a b : Int64) : Int64 :=
  Int64.ofIntClamp (a.toInt - b.toInt)

/- `i64::saturating_mul` -/
def satMul (a b : Int64) : Int64 :=
  Int64.ofIntClamp (a.toInt * b.toInt)

theorem minValue_le_toInt (a : Int64) :
    Int64.minValue.toInt ≤ a.toInt :=
  Int64.le_toInt a

theorem toInt_le_maxValue (a : Int64) :
    a.toInt ≤ Int64.maxValue.toInt := by
  have hLt := Int64.toInt_lt a
  have hMax : Int64.maxValue.toInt = 2 ^ 63 - 1 := by decide
  omega

/- A sum that fits is the exact sum. -/
theorem toInt_satAdd
    {a b : Int64}
    (hMin : Int64.minValue.toInt ≤ a.toInt + b.toInt)
    (hMax : a.toInt + b.toInt ≤ Int64.maxValue.toInt) :
    (satAdd a b).toInt = a.toInt + b.toInt :=
  Int64.toInt_ofIntClamp hMin hMax

/- A difference that fits is the exact difference. -/
theorem toInt_satSub
    {a b : Int64}
    (hMin : Int64.minValue.toInt ≤ a.toInt - b.toInt)
    (hMax : a.toInt - b.toInt ≤ Int64.maxValue.toInt) :
    (satSub a b).toInt = a.toInt - b.toInt :=
  Int64.toInt_ofIntClamp hMin hMax

/-
  The difference of two non-negative numbers always fits.
-/
theorem toInt_satSub_of_nonneg
    {a b : Int64}
    (hLeft : 0 ≤ a.toInt)
    (hRight : 0 ≤ b.toInt) :
    (satSub a b).toInt = a.toInt - b.toInt := by
  have hA := toInt_le_maxValue a
  have hB := toInt_le_maxValue b
  have hMin : Int64.minValue.toInt = -(2 ^ 63) := by decide
  have hMax : Int64.maxValue.toInt = 2 ^ 63 - 1 := by decide
  exact toInt_satSub (by omega) (by omega)

end Saturating

end IcpHandler

------------------------------------------------------------
-- Unsigned 32-Bit
------------------------------------------------------------

namespace IcpHandler

namespace Saturating

/- `u32::saturating_add` -/
def satAdd32 (a b : UInt32) : UInt32 :=
  UInt32.ofNatClamp (a.toNat + b.toNat)

theorem toNat_satAdd32
    {a b : UInt32}
    (hFits : a.toNat + b.toNat < UInt32.size) :
    (satAdd32 a b).toNat = a.toNat + b.toNat := by
  rw [satAdd32, UInt32.ofNatClamp_eq_ofNat _ hFits]
  exact UInt32.toNat_ofNat_of_lt' hFits

/- `u32::saturating_sub` -/
def satSub32 (a b : UInt32) : UInt32 :=
  UInt32.ofNat (a.toNat - b.toNat)

theorem toNat_satSub32 (a b : UInt32) :
    (satSub32 a b).toNat = a.toNat - b.toNat := by
  rw [satSub32]
  refine UInt32.toNat_ofNat_of_lt' ?_
  exact Nat.lt_of_le_of_lt (Nat.sub_le _ _) a.toNat_lt

/- Counting one more never counts none. -/
theorem satAdd32_one_pos (a : UInt32) : 0 < satAdd32 a 1 := by
  rw [satAdd32, UInt32.lt_iff_toNat_lt]
  unfold UInt32.ofNatClamp
  split
  · rw [UInt32.toNat_ofNatLT]
    exact Nat.succ_pos _
  · decide

end Saturating

end IcpHandler
