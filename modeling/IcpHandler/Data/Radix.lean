import Mathlib.Data.Nat.Digits.Defs

/-
  Numerals with leading zeros. A string of digits in one base
  is turned into one in another: the number is converted, and
  the leading zeros, which do not count in it, are carried
  over one for one. Digits are written with the symbols of an
  alphabet.

  Main declarations:
    * `convert`, `convert_convert`
    * `write`, `read`, `read_write`
-/

------------------------------------------------------------
-- Leading Zeros
------------------------------------------------------------

namespace IcpHandler

namespace Data

namespace Radix

/- The number of zeros before the first other digit. -/
def leadingZeros : List Nat → Nat
  | [] => 0
  | d :: ds => if d = 0 then leadingZeros ds + 1 else 0

/- The string does not begin with a zero. -/
def Bare (ds : List Nat) : Prop :=
  ds.head? ≠ some 0

/- The number that a string stands for, first digit highest. -/
def value (b : Nat) (ds : List Nat) : Nat :=
  Nat.ofDigits b ds.reverse

/- The string of a number, without leading zeros. -/
def digits (b n : Nat) : List Nat :=
  (Nat.digits b n).reverse

section Zeros

variable {b z n : Nat} {ds : List Nat}

theorem leadingZeros_of_bare
    (hBare : Bare ds) :
    leadingZeros ds = 0 := by
  cases ds with
  | nil => rfl
  | cons d ds =>
      refine if_neg fun hZero => hBare ?_
      rw [hZero]
      rfl

theorem leadingZeros_replicate_append
    (hBare : Bare ds) :
    leadingZeros (List.replicate z 0 ++ ds) = z := by
  induction z with
  | zero => exact leadingZeros_of_bare hBare
  | succ z ih =>
      rw [List.replicate_succ, List.cons_append, leadingZeros,
        if_pos rfl, ih]

theorem exists_bare (ds : List Nat) :
    ∃ rest, Bare rest ∧
      ds = List.replicate (leadingZeros ds) 0 ++ rest := by
  induction ds with
  | nil => exact ⟨[], by simp [Bare], rfl⟩
  | cons d ds ih =>
      by_cases hZero : d = 0
      · obtain ⟨rest, hBare, hSplit⟩ := ih
        refine ⟨rest, hBare, ?_⟩
        rw [leadingZeros, if_pos hZero, List.replicate_succ,
          List.cons_append, ← hSplit, hZero]
      · refine ⟨d :: ds, by simpa [Bare] using hZero, ?_⟩
        rw [leadingZeros, if_neg hZero]
        rfl

/- Leading zeros do not count. -/
theorem value_replicate_append :
    value b (List.replicate z 0 ++ ds) = value b ds := by
  unfold value
  rw [List.reverse_append, List.reverse_replicate,
    Nat.ofDigits_append_replicate_zero]

/- The highest digit of a number is not zero. -/
theorem bare_digits (hBase : 1 < b) : Bare (digits b n) := by
  unfold Bare digits
  rw [List.head?_reverse]
  induction n using Nat.strongRecOn with
  | ind n ih =>
      rcases Nat.eq_zero_or_pos n with hZero | hPos
      · rw [hZero, Nat.digits_zero]
        exact nofun
      · have hRest := ih (n / b) (Nat.div_lt_self hPos hBase)
        rw [Nat.digits_def' hBase hPos, List.getLast?_cons]
        by_cases hSmall : n < b
        · rw [Nat.div_eq_of_lt hSmall, Nat.mod_eq_of_lt hSmall,
            Nat.digits_zero]
          intro hLast
          exact hPos.ne' (Option.some.inj hLast)
        · have hQuotient : n / b ≠ 0 :=
            (Nat.div_pos (not_lt.mp hSmall) (by omega)).ne'
          have hNonempty : Nat.digits b (n / b) ≠ [] :=
            Nat.digits_ne_nil_iff_ne_zero.mpr hQuotient
          rw [List.getLast?_eq_some_getLast hNonempty]
            at hRest ⊢
          exact hRest

theorem value_digits : value b (digits b n) = n := by
  unfold value digits
  rw [List.reverse_reverse, Nat.ofDigits_digits]

/- A bare string is that of its number. -/
theorem digits_value
    (hBase : 1 < b)
    (hDigits : ∀ d ∈ ds, d < b)
    (hBare : Bare ds) :
    digits b (value b ds) = ds := by
  unfold digits value
  rw [Nat.digits_ofDigits b hBase, List.reverse_reverse]
  · exact fun d hMem => hDigits d (List.mem_reverse.mp hMem)
  · intro hNonempty hZero
    rw [List.getLast_reverse] at hZero
    refine hBare ?_
    rw [List.head?_eq_some_head (by simpa using hNonempty),
      hZero]

theorem lt_of_mem_digits
    {d : Nat}
    (hBase : 1 < b)
    (hMem : d ∈ digits b n) :
    d < b :=
  Nat.digits_lt_base hBase (List.mem_reverse.mp hMem)

end Zeros

end Radix

end Data

end IcpHandler

------------------------------------------------------------
-- From Base to Base
------------------------------------------------------------

namespace IcpHandler

namespace Data

namespace Radix

/- The same number in another base, with as many zeros. -/
def convert (b c : Nat) (ds : List Nat) : List Nat :=
  List.replicate (leadingZeros ds) 0 ++ digits c (value b ds)

section Convert

variable {b c : Nat} {ds : List Nat}

theorem lt_of_mem_convert
    {d : Nat}
    (hBase : 1 < c)
    (hMem : d ∈ convert b c ds) :
    d < c := by
  rcases List.mem_append.mp hMem with hZero | hDigit
  · rw [List.eq_of_mem_replicate hZero]
    omega
  · exact lt_of_mem_digits hBase hDigit

/- There and back again the string is the same. -/
theorem convert_convert
    (hBase : 1 < b)
    (hOther : 1 < c)
    (hDigits : ∀ d ∈ ds, d < b) :
    convert c b (convert b c ds) = ds := by
  obtain ⟨rest, hBare, hSplit⟩ := exists_bare ds
  have hRest : ∀ d ∈ rest, d < b := by
    intro d hMem
    refine hDigits d ?_
    rw [hSplit]
    exact List.mem_append_right _ hMem
  have hValue : value b ds = value b rest := by
    rw [hSplit, value_replicate_append]
  have hZeros :
      leadingZeros (convert b c ds) = leadingZeros ds :=
    leadingZeros_replicate_append (bare_digits hOther)
  have hBack : value c (convert b c ds) = value b ds := by
    unfold convert
    rw [value_replicate_append, value_digits]
  calc
    convert c b (convert b c ds)
        = List.replicate (leadingZeros ds) 0 ++
            digits b (value b ds) := by
          rw [convert, hZeros, hBack]
    _ = List.replicate (leadingZeros ds) 0 ++ rest := by
          rw [hValue, digits_value hBase hRest hBare]
    _ = ds := hSplit.symm

end Convert

end Radix

end Data

end IcpHandler

------------------------------------------------------------
-- Alphabets
------------------------------------------------------------

namespace IcpHandler

namespace Data

namespace Radix

variable {σ : Type}

/- The symbols of the digits, from the alphabet. -/
def write (alphabet : List σ) (ds : List Nat) : List σ :=
  ds.filterMap fun d => alphabet[d]?

/- The place of a symbol in the alphabet. -/
def digitOf?
    [DecidableEq σ]
    (alphabet : List σ)
    (symbol : σ) : Option Nat :=
  if symbol ∈ alphabet then some (alphabet.idxOf symbol)
  else none

/- The digits of the symbols, if all are in the alphabet. -/
def read
    [DecidableEq σ]
    (alphabet text : List σ) : Option (List Nat) :=
  text.mapM (digitOf? alphabet)

theorem write_append
    (alphabet : List σ)
    (first second : List Nat) :
    write alphabet (first ++ second) =
      write alphabet first ++ write alphabet second :=
  List.filterMap_append

/- What is written is read, where symbols are told apart. -/
theorem read_write
    [DecidableEq σ]
    {alphabet : List σ}
    {ds : List Nat}
    (hApart : alphabet.Nodup)
    (hDigits : ∀ d ∈ ds, d < alphabet.length) :
    read alphabet (write alphabet ds) = some ds := by
  induction ds with
  | nil => rfl
  | cons d ds ih =>
      obtain ⟨hFirst, hRest⟩ := List.forall_mem_cons.mp hDigits
      have hSymbol : alphabet[d]? = some alphabet[d] :=
        List.getElem?_eq_getElem hFirst
      have hFound : digitOf? alphabet alphabet[d] = some d := by
        rw [digitOf?, if_pos (List.getElem_mem hFirst),
          hApart.idxOf_getElem d hFirst]
      have hTail := ih hRest
      unfold read write at hTail ⊢
      rw [List.filterMap_cons_some hSymbol, List.mapM_cons,
        hFound, hTail]
      rfl

end Radix

end Data

end IcpHandler
