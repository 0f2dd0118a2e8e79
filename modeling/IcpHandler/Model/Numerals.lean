import Mathlib.Algebra.Group.Nat.Defs
import IcpHandler.Model.Text

/-
  Numbers as they are written and read. A text that starts
  with a digit is a number if it is all digits; every `i64`
  is read back from the text it is written as.

  Main declarations:
    * `parseDigits_eq`, `parseI64_of_digit`
    * `isNumeral`, `isNumeral_of_mem`
    * `parseI64_toString`
-/

------------------------------------------------------------
-- Decimal Counts
------------------------------------------------------------

namespace IcpHandler

namespace Model

namespace Text

/- A run of digits is read as its value, anything else not. -/
theorem parseDigits_eq
    (chars : List Char)
    (value : Nat) :
    parseDigits chars value =
      if chars.all Char.isDigit then
        some (Nat.ofDigitChars 10 chars value)
      else none := by
  induction chars generalizing value with
  | nil => rfl
  | cons c rest ih =>
      rw [parseDigits, ih, List.all_cons,
        Nat.ofDigitChars_cons, Nat.mul_comm value 10]
      cases c.isDigit with
      | true => rfl
      | false => rfl

/- A text that starts with a digit has no sign. -/
theorem parseI64_of_digit
    {chars : List Char}
    {c : Char}
    (hHead : chars.head? = some c)
    (hDigit : c.isDigit = true) :
    parseI64 (String.ofList chars) =
      if chars.all Char.isDigit ∧
          Nat.ofDigitChars 10 chars 0 < 2 ^ 63 then
        some (Int64.ofNat (Nat.ofDigitChars 10 chars 0))
      else none := by
  obtain ⟨rest, rfl⟩ : ∃ rest, chars = c :: rest := by
    cases chars with
    | nil => cases hHead
    | cons first rest =>
        cases hHead
        exact ⟨rest, rfl⟩
  have hMinus : c ≠ '-' := by
    rintro rfl
    exact absurd hDigit (by decide)
  have hPlus : c ≠ '+' := by
    rintro rfl
    exact absurd hDigit (by decide)
  have hMin : Int64.minValue.toInt = -(2 ^ 63) := by decide
  have hMax : Int64.maxValue.toInt = 2 ^ 63 - 1 := by decide
  unfold parseI64
  rw [String.toList_ofList]
  dsimp only
  split
  · rename_i digits hSame
    cases hSame
    exact absurd rfl hMinus
  · rename_i digits hSame
    cases hSame
    exact absurd rfl hPlus
  · rw [List.isEmpty_cons, if_neg Bool.false_ne_true,
      parseDigits_eq, hMin, hMax]
    cases hAll : (c :: rest).all Char.isDigit with
    | false => simp
    | true =>
        by_cases hFits :
            Nat.ofDigitChars 10 (c :: rest) 0 < 2 ^ 63
        · rw [if_pos rfl, if_pos ⟨rfl, hFits⟩]
          simp only [Option.map_some, Option.bind_some]
          rw [if_pos (by simp only [Int.ofNat_eq_natCast]; omega)]
          rfl
        · rw [if_pos rfl, if_neg (fun hBoth => hFits hBoth.2)]
          simp only [Option.map_some, Option.bind_some]
          rw [if_neg (by simp only [Int.ofNat_eq_natCast]; omega)]

end Text

end Model

end IcpHandler

------------------------------------------------------------
-- Written Numbers
------------------------------------------------------------

namespace IcpHandler

namespace Model

namespace Text

/- A number is written in digits, behind a sign. -/
theorem toList_toString_int (n : Int) :
    (toString n).toList =
      (if n < 0 then ['-'] else []) ++
        Nat.toDigits 10 n.natAbs := by
  rw [Int.toString_eq_repr]
  cases n with
  | ofNat m =>
      have hNonneg : ¬ Int.ofNat m < 0 :=
        Int.not_lt.mpr (Int.natCast_nonneg m)
      rw [if_neg hNonneg]
      exact Nat.toList_repr
  | negSucc m =>
      rw [if_pos (Int.negSucc_lt_zero m)]
      simp only [Int.repr, String.toList_append,
        Nat.toList_repr]
      rfl

theorem all_isDigit_toDigits (n : Nat) :
    (Nat.toDigits 10 n).all Char.isDigit = true :=
  List.all_eq_true.mpr fun _ hMem =>
    Nat.isDigit_of_mem_toDigits (by decide) (by decide) hMem

/- The characters of written numbers. -/
def isNumeral (c : Char) : Bool := c == '-' || c.isDigit

theorem isNumeral_of_mem
    {n : Int}
    {c : Char}
    (hMem : c ∈ (toString n).toList) :
    isNumeral c = true := by
  rw [toList_toString_int, List.mem_append] at hMem
  rw [isNumeral, Bool.or_eq_true]
  rcases hMem with hSign | hDigits
  · left
    split at hSign
    · rw [List.mem_singleton.mp hSign]
      rfl
    · cases hSign
  · right
    exact Nat.isDigit_of_mem_toDigits (by decide) (by decide)
      hDigits

/- A written number is read again. -/
theorem parseI64_toString (n : Int64) :
    parseI64 (toString n.toInt) = some n := by
  have hLow := Int64.le_toInt n
  have hHigh := Int64.toInt_lt n
  have hText := toList_toString_int n.toInt
  have hDigits := Nat.toDigits_ne_nil (n := n.toInt.natAbs)
    (b := 10)
  have hValue :
      Nat.ofDigitChars 10
        (Nat.toDigits 10 n.toInt.natAbs) 0 = n.toInt.natAbs :=
    Nat.ofDigitChars_ten_toDigits
  by_cases hNegative : n.toInt < 0
  · rw [if_pos hNegative, List.singleton_append] at hText
    have hFound :
        (if (Nat.toDigits 10 n.toInt.natAbs).isEmpty = true then
            none
          else parseDigits (Nat.toDigits 10 n.toInt.natAbs) 0) =
          some n.toInt.natAbs := by
      rw [if_neg (by rw [List.isEmpty_iff]; exact hDigits),
        parseDigits_eq, if_pos (all_isDigit_toDigits _), hValue]
    have hBack : -(n.toInt.natAbs : Int) = n.toInt := by omega
    have hMin : Int64.minValue.toInt = -(2 ^ 63) := by decide
    have hMax : Int64.maxValue.toInt = 2 ^ 63 - 1 := by decide
    unfold parseI64
    rw [hText]
    dsimp only
    split
    · rename_i digits hSame
      cases hSame
      rw [hFound]
      simp only [Option.bind_eq_bind, Option.bind_some,
        Option.pure_def, Option.map_some]
      rw [hBack, if_pos (by omega), Int64.ofInt_toInt]
    · rename_i digits hSame
      cases hSame
    · rename_i hMinus hPlus
      exact absurd rfl (hMinus _)
  · rw [if_neg hNegative, List.nil_append] at hText
    obtain ⟨c, rest, hHead⟩ := List.exists_cons_of_ne_nil hDigits
    have hDigit : c.isDigit = true := by
      refine Nat.isDigit_of_mem_toDigits (b := 10)
        (by decide) (by decide) (n := n.toInt.natAbs) ?_
      rw [hHead]
      exact List.mem_cons_self
    rw [← String.ofList_toList (s := toString n.toInt), hText,
      parseI64_of_digit (by rw [hHead]; rfl) hDigit,
      if_pos ⟨all_isDigit_toDigits _, by rw [hValue]; omega⟩,
      hValue]
    refine congrArg some (Int64.toInt_inj.mp ?_)
    rw [Int64.toInt_ofNat_of_lt (by omega)]
    omega

theorem toString_int64_inj
    {first second : Int64}
    (hSame :
      toString first.toInt = toString second.toInt) :
    first = second := by
  have hRead := congrArg parseI64 hSame
  rw [parseI64_toString, parseI64_toString] at hRead
  exact Option.some.inj hRead

end Text

end Model

end IcpHandler
