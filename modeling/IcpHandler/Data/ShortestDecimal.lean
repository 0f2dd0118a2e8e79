import Mathlib.Data.Bool.AllAny
import Mathlib.Data.Nat.Log
import Mathlib.Algebra.Order.Group.Nat

/-
  Natural numbers as ECMAScript prints them. A number is read
  as the nearest double, and printed as the decimal with the
  fewest significant digits that reads as the same double.

  Main declarations:
    * `roundToDouble`, `doubleExponent`
    * `shortestDecimal`
    * `numberText`
    * `roundToDouble_shortestDecimal`
    * `shortestDecimal_of_lt`
    * `numberText_eq_toDigits_iff`
-/

------------------------------------------------------------
-- The Nearest Double
------------------------------------------------------------

namespace IcpHandler

namespace Data

/-
  The nearest number of 53 significant bits. Of two that are
  as near, it is the even one.
-/
def roundToDouble (n : Nat) : Nat :=
  let shift := n.log2 + 1 - 53
  let quotient := n / 2 ^ shift
  let rest := n % 2 ^ shift
  if 2 ^ shift < 2 * rest ∨
      2 * rest = 2 ^ shift ∧ quotient % 2 = 1 then
    (quotient + 1) * 2 ^ shift
  else quotient * 2 ^ shift

/- The doubles are below this power of two. -/
def doubleExponent : Nat := 1024

theorem roundToDouble_of_lt
    {n : Nat}
    (hN : n < 2 ^ 53) : roundToDouble n = n := by
  have hShift : n.log2 + 1 - 53 = 0 := by
    by_cases hZero : n = 0
    · subst hZero
      decide
    · have := (Nat.log2_lt hZero).mpr hN
      omega
  simp [roundToDouble, hShift, Nat.mod_one]

theorem le_roundToDouble
    {n : Nat}
    (hN : 2 ^ 53 ≤ n) : 2 ^ 53 ≤ roundToDouble n := by
  have hZero : n ≠ 0 := by
    rintro rfl
    exact absurd hN (by decide)
  have hLog : 53 ≤ n.log2 := (Nat.le_log2 hZero).mpr hN
  obtain ⟨shift, hShift⟩ : ∃ shift, n.log2 = 52 + shift + 1 :=
    ⟨n.log2 - 53, by omega⟩
  have hQuotient : 2 ^ 52 ≤ n / 2 ^ (shift + 1) := by
    rw [Nat.le_div_iff_mul_le (Nat.two_pow_pos _),
      ← Nat.pow_add, ← Nat.add_assoc, ← hShift]
    exact Nat.log2_self_le hZero
  have hLow : 2 ^ 53 ≤ n / 2 ^ (shift + 1) * 2 ^ (shift + 1) := by
    calc 2 ^ 53 = 2 ^ 52 * 2 ^ 1 := Nat.pow_add 2 52 1
      _ ≤ 2 ^ 52 * 2 ^ (shift + 1) :=
        Nat.mul_le_mul_left _
          (Nat.pow_le_pow_right (by decide) (by omega))
      _ ≤ n / 2 ^ (shift + 1) * 2 ^ (shift + 1) :=
        Nat.mul_le_mul_right _ hQuotient
  have hSame : n.log2 + 1 - 53 = shift + 1 := by omega
  unfold roundToDouble
  simp only [hSame]
  split
  · rw [Nat.add_mul]
    omega
  · exact hLow

/- Rounding does not more than double a number. -/
theorem roundToDouble_le (n : Nat) :
    roundToDouble n ≤ 2 * n := by
  by_cases hSmall : n < 2 ^ 53
  · rw [roundToDouble_of_lt hSmall]
    omega
  · have hZero : n ≠ 0 := by
      rintro rfl
      exact hSmall (by decide)
    unfold roundToDouble
    dsimp only
    generalize hShift : n.log2 + 1 - 53 = shift
    have hPow : 2 ^ shift ≤ n :=
      calc 2 ^ shift ≤ 2 ^ n.log2 :=
            Nat.pow_le_pow_right (by decide) (by omega)
        _ ≤ n := Nat.log2_self_le hZero
    have hQuotient := Nat.div_mul_le_self n (2 ^ shift)
    split
    · rw [Nat.add_mul]
      omega
    · omega

/- Only a number below 2^53 reads as one. -/
theorem eq_of_roundToDouble_lt
    {n : Nat}
    (hRead : roundToDouble n < 2 ^ 53) : roundToDouble n = n := by
  by_cases hN : n < 2 ^ 53
  · exact roundToDouble_of_lt hN
  · have := le_roundToDouble (n := n) (by omega)
    omega

end Data

end IcpHandler

------------------------------------------------------------
-- The Shortest Decimal
------------------------------------------------------------

namespace IcpHandler

namespace Data

/-
  The multiple of the power of ten that reads as the double,
  the nearer one if two do, and the even one if they are as
  near.
-/
def multipleReading (double zeros : Nat) : Option Nat :=
  let unit := 10 ^ zeros
  let low := double / unit
  let gap := double % unit
  match decide (roundToDouble (low * unit) = double),
      decide (roundToDouble ((low + 1) * unit) = double) with
  | false, false => none
  | true, false => some (low * unit)
  | false, true => some ((low + 1) * unit)
  | true, true =>
      if gap < unit - gap ∨ gap = unit - gap ∧ low % 2 = 0 then
        some (low * unit)
      else some ((low + 1) * unit)

/- The search, from the most trailing zeros to none. -/
def shortestFrom (double : Nat) : Nat → Nat
  | 0 => double
  | zeros + 1 =>
      (multipleReading double (zeros + 1)).getD
        (shortestFrom double zeros)

/-
  The number of the fewest significant digits that reads as
  the double, and the nearest such.
-/
def shortestDecimal (double : Nat) : Nat :=
  shortestFrom double (Nat.toDigits 10 double).length

theorem roundToDouble_of_multipleReading
    {double zeros found : Nat}
    (hFound : multipleReading double zeros = some found) :
    roundToDouble found = double := by
  unfold multipleReading at hFound
  dsimp only at hFound
  split at hFound
  · cases hFound
  · rename_i hLow _
    rw [← Option.some.inj hFound]
    exact of_decide_eq_true hLow
  · rename_i _ hHigh
    rw [← Option.some.inj hFound]
    exact of_decide_eq_true hHigh
  · rename_i hLow hHigh
    split at hFound
    · rw [← Option.some.inj hFound]
      exact of_decide_eq_true hLow
    · rw [← Option.some.inj hFound]
      exact of_decide_eq_true hHigh

/- What is printed reads as the same double. -/
theorem roundToDouble_shortestDecimal
    {double : Nat}
    (hDouble : roundToDouble double = double) :
    roundToDouble (shortestDecimal double) = double := by
  unfold shortestDecimal
  induction (Nat.toDigits 10 double).length with
  | zero => exact hDouble
  | succ zeros ih =>
      rw [shortestFrom]
      cases hFound : multipleReading double (zeros + 1) with
      | none => exact ih
      | some found =>
          exact roundToDouble_of_multipleReading hFound

/- Numbers of up to 53 bits are printed as they are. -/
theorem shortestDecimal_of_lt
    {n : Nat}
    (hN : n < 2 ^ 53) :
    shortestDecimal (roundToDouble n) = n := by
  have hSelf := roundToDouble_of_lt hN
  rw [hSelf]
  have hRead := roundToDouble_shortestDecimal hSelf
  have hSame := eq_of_roundToDouble_lt (hRead.trans_lt hN)
  rw [← hSame, hRead]

end Data

end IcpHandler

------------------------------------------------------------
-- The Text
------------------------------------------------------------

namespace IcpHandler

namespace Data

/- The digits without the zeros at the end. -/
def significantDigits (digits : List Char) : List Char :=
  (digits.reverse.dropWhile (· == '0')).reverse

/-
  A number of more than 21 digits has an exponent, and a point
  after the first of its significant digits.
-/
def exponentText (digits : List Char) : List Char :=
  let fraction := (significantDigits digits).tail
  digits.take 1 ++
    (if fraction = [] then [] else '.' :: fraction) ++
    "e+".toList ++ Nat.toDigits 10 (digits.length - 1)

/- The text of a number. -/
def numberText (n : Nat) : List Char :=
  let digits :=
    Nat.toDigits 10 (shortestDecimal (roundToDouble n))
  if digits.length ≤ 21 then digits else exponentText digits

theorem toDigits_inj
    {n m : Nat}
    (hSame : Nat.toDigits 10 n = Nat.toDigits 10 m) : n = m := by
  rw [← Nat.ofDigitChars_ten_toDigits (n := n), hSame,
    Nat.ofDigitChars_ten_toDigits]

theorem isDigit_of_mem_toDigits
    {n : Nat}
    {c : Char}
    (hC : c ∈ Nat.toDigits 10 n) : c.isDigit = true :=
  Nat.isDigit_of_mem_toDigits (by decide) (by decide) hC

/- A text of a number is of digits, a point and an exponent. -/
theorem mem_numberText
    {n : Nat}
    {c : Char}
    (hC : c ∈ numberText n) :
    c.isDigit = true ∨ c ∈ ".e+".toList := by
  have hDigits :
      ∀ d ∈ Nat.toDigits 10 (shortestDecimal (roundToDouble n)),
        d.isDigit = true :=
    fun d hD => isDigit_of_mem_toDigits hD
  have hFraction :
      ∀ d ∈ (significantDigits
          (Nat.toDigits 10
            (shortestDecimal (roundToDouble n)))).tail,
        d.isDigit = true := by
    intro d hD
    have hD := List.mem_reverse.mp (List.mem_of_mem_tail hD)
    exact hDigits d (List.mem_reverse.mp
      (List.dropWhile_sublist _ |>.subset hD))
  unfold numberText at hC
  dsimp only at hC
  split at hC
  · exact .inl (hDigits c hC)
  · unfold exponentText at hC
    dsimp only at hC
    simp only [List.mem_append] at hC
    rcases hC with ((hFirst | hRest) | hE) | hExponent
    · exact .inl (hDigits c (List.mem_of_mem_take hFirst))
    · split at hRest
      · cases hRest
      · rcases List.mem_cons.mp hRest with rfl | hRest
        · exact .inr (by decide)
        · exact .inl (hFraction c hRest)
    · refine .inr ?_
      have hSub : ∀ d ∈ "e+".toList, d ∈ ".e+".toList := by
        exact List.all_iff_forall_prop.mp (by decide)
      exact hSub c hE
    · exact .inl (isDigit_of_mem_toDigits hExponent)

/-
  A number is printed in its own digits exactly when it is the
  shortest decimal of its double and has no exponent.
-/
theorem numberText_eq_toDigits_iff
    {n : Nat} :
    numberText n = Nat.toDigits 10 n ↔
      shortestDecimal (roundToDouble n) = n ∧ n < 10 ^ 21 := by
  rw [← Nat.length_toDigits_le_iff (b := 10) (by decide)
    (by decide)]
  unfold numberText
  dsimp only
  split
  case isTrue hShort =>
    constructor
    · intro hSame
      have hPrinted := toDigits_inj hSame
      rw [hPrinted] at hShort
      exact ⟨hPrinted, hShort⟩
    · rintro ⟨hPrinted, _⟩
      rw [hPrinted]
  case isFalse hLong =>
    constructor
    · intro hSame
      have hE : 'e' ∈ Nat.toDigits 10 n := by
        rw [← hSame, exponentText]
        simp
      exact absurd (isDigit_of_mem_toDigits hE) (by decide)
    · rintro ⟨hPrinted, hShort⟩
      rw [hPrinted] at hLong
      exact absurd hShort hLong

end Data

end IcpHandler
