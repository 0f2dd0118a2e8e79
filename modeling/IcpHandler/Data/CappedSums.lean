import Mathlib.Algebra.Order.BigOperators.Group.List
import Mathlib.Algebra.Order.Ring.Int
import IcpHandler.Data.Saturating

/-
  Saturating sums of non-negative amounts. As long as no
  amount is negative, saturating on the way is the same as
  capping the exact result once at the end.

  Main declarations:
    * `cap`
    * `cap_add_cap`
    * `toInt_satAdd_of_nonneg`, `toInt_satMul_of_nonneg`
    * `foldl_satAdd`
-/

------------------------------------------------------------
-- The Cap
------------------------------------------------------------

namespace IcpHandler

namespace Saturating

/- The greatest amount, or the number if it is less. -/
def cap (n : Int) : Int :=
  min (2 ^ 63 - 1) n

theorem cap_nonneg {n : Int} (hNonneg : 0 ≤ n) :
    0 ≤ cap n := by
  unfold cap
  omega

theorem cap_le (n : Int) : cap n ≤ n := by
  unfold cap
  omega

theorem cap_mono {m n : Int} (hLe : m ≤ n) :
    cap m ≤ cap n := by
  unfold cap
  omega

/- Capping a part of a sum makes no difference. -/
theorem cap_add_cap
    {m n : Int}
    (hNonneg : 0 ≤ n) :
    cap (cap m + n) = cap (m + n) := by
  unfold cap
  omega

theorem cap_add_cap_right
    {m n : Int}
    (hNonneg : 0 ≤ m) :
    cap (m + cap n) = cap (m + n) := by
  unfold cap
  omega

/- A machine integer is within the cap. -/
theorem cap_toInt (a : Int64) : cap a.toInt = a.toInt := by
  have hLt := Int64.toInt_lt a
  unfold cap
  omega

end Saturating

end IcpHandler

------------------------------------------------------------
-- Sums and Products
------------------------------------------------------------

namespace IcpHandler

namespace Saturating

theorem toInt_ofIntClamp_of_nonneg
    {n : Int}
    (hNonneg : 0 ≤ n) :
    (Int64.ofIntClamp n).toInt = cap n := by
  have hMin : Int64.minValue.toInt = -(2 ^ 63) := by decide
  have hMax : Int64.maxValue.toInt = 2 ^ 63 - 1 := by decide
  by_cases hFits : n ≤ Int64.maxValue.toInt
  · rw [Int64.toInt_ofIntClamp (by omega) hFits]
    unfold cap
    omega
  · have hClamp : Int64.ofIntClamp n = Int64.maxValue := by
      unfold Int64.ofIntClamp
      rw [dif_pos (by omega), dif_neg hFits]
    rw [hClamp, hMax]
    unfold cap
    omega

theorem toInt_satAdd_of_nonneg
    {a b : Int64}
    (hLeft : 0 ≤ a.toInt)
    (hRight : 0 ≤ b.toInt) :
    (satAdd a b).toInt = cap (a.toInt + b.toInt) :=
  toInt_ofIntClamp_of_nonneg (by omega)

theorem toInt_satMul_of_nonneg
    {a b : Int64}
    (hLeft : 0 ≤ a.toInt)
    (hRight : 0 ≤ b.toInt) :
    (satMul a b).toInt = cap (a.toInt * b.toInt) :=
  toInt_ofIntClamp_of_nonneg (Int.mul_nonneg hLeft hRight)

/-
  A saturating sum over a list of non-negative amounts is the
  capped exact sum.
-/
theorem foldl_satAdd
    {α : Type}
    (amount : α → Int64)
    (exact : α → Int)
    {xs : List α}
    (hAmount :
      ∀ x ∈ xs, 0 ≤ exact x ∧
        (amount x).toInt = cap (exact x))
    {start : Int64}
    (hStart : 0 ≤ start.toInt) :
    (xs.foldl (fun sum x => satAdd sum (amount x)) start).toInt =
      cap (start.toInt + (xs.map exact).sum) := by
  induction xs generalizing start with
  | nil =>
      rw [List.foldl_nil, List.map_nil, List.sum_nil, add_zero,
        cap_toInt]
  | cons x xs ih =>
      obtain ⟨hNonneg, hCapped⟩ := hAmount x List.mem_cons_self
      have hRest := fun y hMem =>
        hAmount y (List.mem_cons_of_mem x hMem)
      have hSumNonneg : 0 ≤ (xs.map exact).sum := by
        refine List.sum_nonneg ?_
        intro n hMem
        obtain ⟨y, hY, rfl⟩ := List.mem_map.mp hMem
        exact (hRest y hY).1
      have hAdded :
          (satAdd start (amount x)).toInt =
            cap (start.toInt + exact x) := by
        rw [toInt_satAdd_of_nonneg hStart
          (hCapped ▸ cap_nonneg hNonneg), hCapped,
          cap_add_cap_right hStart]
      have hAddedNonneg : 0 ≤ (satAdd start (amount x)).toInt := by
        rw [hAdded]
        exact cap_nonneg (by omega)
      rw [List.foldl_cons, ih hRest hAddedNonneg, hAdded,
        cap_add_cap hSumNonneg, List.map_cons, List.sum_cons,
        add_assoc]

end Saturating

end IcpHandler
