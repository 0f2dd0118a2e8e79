import Mathlib.Data.List.Lex
import Mathlib.Algebra.Order.Group.Nat

/-
  Texts that sort as what they stand for. A text is a list of
  symbols and lists compare by their first difference. Fields
  of a fixed width, the highest first, sort as a whole; so do
  numerals of a fixed width, and fractions that leave out
  their last zeros, if a lower symbol than all digits ends
  them.

  Main declarations:
    * `Sorts`, `SortsAt`
    * `SortsAt.append`, `SortsAt.append_sorts`
    * `numeral`, `sortsAt_numeral`
    * `trimmed_lt_trimmed`
-/

------------------------------------------------------------
-- Texts and Keys
------------------------------------------------------------

namespace IcpHandler

namespace Data

namespace OrderedText

variable {ι κ α β γ σ : Type}
variable [LinearOrder α] [LinearOrder β] [LinearOrder γ]
variable [LinearOrder σ]

/- On `S` the texts compare as the keys. -/
def Sorts
    (S : ι → Prop)
    (key : ι → α)
    (text : ι → List σ) : Prop :=
  ∀ x y, S x → S y → (text x < text y ↔ key x < key y)

/- The texts have this width besides. -/
structure SortsAt
    (width : Nat)
    (S : ι → Prop)
    (key : ι → α)
    (text : ι → List σ) : Prop where
  length : ∀ x, S x → (text x).length = width
  sorts : Sorts S key text

/- The key is one key first and then another. -/
def Refines
    (S : ι → Prop)
    (key : ι → γ)
    (high : ι → α)
    (low : ι → β) : Prop :=
  ∀ x y, S x → S y →
    (key x < key y ↔
      high x < high y ∨ high x = high y ∧ low x < low y)

/- Symbol by symbol, texts may be coded in order. -/
theorem coded_lt_coded_iff
    {τ : Type}
    [LT τ]
    {code : σ → τ}
    {first second : List σ}
    (hCode :
      ∀ c ∈ first, ∀ d ∈ second,
        (code c < code d ↔ c < d) ∧
          (code c = code d ↔ c = d)) :
    first.map code < second.map code ↔ first < second := by
  induction first generalizing second with
  | nil =>
      cases second with
      | nil => simp
      | cons d second =>
          exact iff_of_true List.Lex.nil List.Lex.nil
  | cons c first ih =>
      cases second with
      | nil =>
          exact iff_of_false (List.not_lt_nil _)
            (List.not_lt_nil _)
      | cons d second =>
          obtain ⟨hLess, hSame⟩ :=
            hCode c List.mem_cons_self d List.mem_cons_self
          have hRest :
              first.map code < second.map code ↔
                first < second :=
            ih fun c' hC d' hD =>
              hCode c' (List.mem_cons_of_mem c hC) d'
                (List.mem_cons_of_mem d hD)
          rw [List.map_cons, List.map_cons,
            List.cons_lt_cons_iff, List.cons_lt_cons_iff,
            hLess, hSame, hRest]

/- Of texts of one length the first parts decide first. -/
theorem append_lt_append_iff
    {first first' : List σ}
    (hLength : first.length = first'.length)
    (second second' : List σ) :
    first ++ second < first' ++ second' ↔
      first < first' ∨ first = first' ∧ second < second' := by
  induction first generalizing first' with
  | nil =>
      have hNil : first' = [] :=
        List.eq_nil_of_length_eq_zero hLength.symm
      subst hNil
      simp
  | cons c first ih =>
      cases first' with
      | nil => cases hLength
      | cons c' first' =>
          have hLength : first.length = first'.length :=
            Nat.succ.inj hLength
          simp only [List.cons_append, List.cons_lt_cons_iff,
            ih hLength, List.cons.injEq]
          tauto

section Fields

variable {S : ι → Prop}
variable {key : ι → α}
variable {text : ι → List σ}

/- Equal texts have equal keys, and the other way round. -/
theorem Sorts.eq_iff
    (hSorts : Sorts S key text)
    {x y : ι}
    (hX : S x)
    (hY : S y) :
    text x = text y ↔ key x = key y := by
  have hLess := hSorts x y hX hY
  have hMore := hSorts y x hY hX
  constructor
  · intro hSame
    rw [hSame] at hLess hMore
    apply le_antisymm
    · exact not_lt.mp fun hNot =>
        lt_irrefl _ (hMore.mpr hNot)
    · exact not_lt.mp fun hNot =>
        lt_irrefl _ (hLess.mpr hNot)
  · intro hSame
    rw [hSame] at hLess hMore
    apply le_antisymm
    · exact not_lt.mp fun hNot =>
        lt_irrefl _ (hMore.mp hNot)
    · exact not_lt.mp fun hNot =>
        lt_irrefl _ (hLess.mp hNot)

/- Texts of the keys that ascend with them. -/
theorem sorts_of_lt
    (hSame : ∀ x y, key x = key y → text x = text y)
    (hLess :
      ∀ x y, S x → S y → key x < key y → text x < text y) :
    Sorts S key text := by
  intro x y hX hY
  constructor
  · intro hText
    by_contra hNot
    rcases lt_or_eq_of_le (not_lt.mp hNot) with hKey | hKey
    · exact lt_asymm hText (hLess y x hY hX hKey)
    · rw [hSame y x hKey] at hText
      exact lt_irrefl _ hText
  · exact hLess x y hX hY

/- The same of what the cases are made of. -/
theorem SortsAt.comp
    {width : Nat}
    {T : κ → Prop}
    (hAt : SortsAt width S key text)
    (part : κ → ι)
    (hPart : ∀ z, T z → S (part z)) :
    SortsAt width T (fun z => key (part z))
      (fun z => text (part z)) where
  length z hZ := hAt.length _ (hPart z hZ)
  sorts x y hX hY := hAt.sorts _ _ (hPart x hX) (hPart y hY)

/- A separator before all texts makes no difference. -/
theorem SortsAt.cons
    {width : Nat}
    (hAt : SortsAt width S key text)
    (separator : σ) :
    SortsAt (width + 1) S key
      (fun x => separator :: text x) where
  length x hX := by
    rw [List.length_cons, hAt.length x hX]
  sorts x y hX hY := by
    have hSorts := hAt.sorts x y hX hY
    simp only [List.cons_lt_cons_iff, lt_irrefl, true_and,
      false_or]
    exact hSorts

variable {low : ι → β}
variable {whole : ι → γ}
variable {rest : ι → List σ}

/- A field of a fixed width and what follows it. -/
theorem SortsAt.append_sorts
    {width : Nat}
    (hFirst : SortsAt width S key text)
    (hRest : Sorts S low rest)
    (hWhole : Refines S whole key low) :
    Sorts S whole (fun x => text x ++ rest x) := by
  intro x y hX hY
  have hLength : (text x).length = (text y).length := by
    rw [hFirst.length x hX, hFirst.length y hY]
  rw [append_lt_append_iff hLength, hFirst.sorts x y hX hY,
    hFirst.sorts.eq_iff hX hY, hRest x y hX hY,
    hWhole x y hX hY]

theorem SortsAt.append
    {width width' : Nat}
    (hFirst : SortsAt width S key text)
    (hRest : SortsAt width' S low rest)
    (hWhole : Refines S whole key low) :
    SortsAt (width + width') S whole
      (fun x => text x ++ rest x) where
  length x hX := by
    rw [List.length_append, hFirst.length x hX,
      hRest.length x hX]
  sorts := hFirst.append_sorts hRest.sorts hWhole

end Fields

end OrderedText

end Data

end IcpHandler

------------------------------------------------------------
-- Numerals
------------------------------------------------------------

namespace IcpHandler

namespace Data

namespace OrderedText

variable {σ : Type} [LinearOrder σ]

/- The last digits of a number, as many as the width. -/
def numeral
    (symbol : Nat → σ)
    (base : Nat) : Nat → Nat → List σ
  | 0, _ => []
  | width + 1, n =>
      numeral symbol base width (n / base) ++
        [symbol (n % base)]

section Numerals

variable {symbol : Nat → σ}
variable {base : Nat}

omit [LinearOrder σ] in
theorem length_numeral
    (width n : Nat) :
    (numeral symbol base width n).length = width := by
  induction width generalizing n with
  | zero => rfl
  | succ width ih =>
      rw [numeral, List.length_append, ih]
      rfl

/- The symbols of the digits are in order. -/
def InOrder
    (symbol : Nat → σ)
    (base : Nat) : Prop :=
  ∀ d e, d < base → e < base →
    (symbol d < symbol e ↔ d < e)

omit [LinearOrder σ] in
/- A number is its quotient first and then its remainder. -/
theorem refines_div_mod
    {S : Nat → Prop} :
    Refines S id (fun n => n / base) (fun n => n % base) := by
  intro n m _ _
  have hN := Nat.div_add_mod n base
  have hM := Nat.div_add_mod m base
  dsimp only [id]
  constructor
  · intro hLess
    rcases lt_trichotomy (n / base) (m / base) with
      hHigh | hHigh | hHigh
    · exact .inl hHigh
    · refine .inr ⟨hHigh, ?_⟩
      rw [hHigh] at hN
      omega
    · exact absurd (Nat.lt_of_div_lt_div hHigh)
        (Nat.lt_asymm hLess)
  · rintro (hHigh | ⟨hHigh, hLow⟩)
    · exact Nat.lt_of_div_lt_div hHigh
    · rw [hHigh] at hN
      omega

/- Numerals of numbers that fit sort as the numbers. -/
theorem sortsAt_numeral
    (hBase : 0 < base)
    (hSymbols : InOrder symbol base)
    (width : Nat) :
    SortsAt width (fun n => n < base ^ width) id
      (numeral symbol base width) := by
  induction width with
  | zero =>
      refine ⟨fun n _ => rfl, ?_⟩
      intro n m hN hM
      have hSame : n = m := by
        rw [Nat.pow_zero] at hN hM
        omega
      rw [hSame]
      simp
  | succ width ih =>
      have hFirst :
          SortsAt width (fun n => n < base ^ (width + 1))
            (fun n => n / base)
            (fun n => numeral symbol base width (n / base)) :=
        ih.comp (fun n => n / base) fun n hN => by
          rw [Nat.pow_succ] at hN
          exact Nat.div_lt_of_lt_mul (by rwa [Nat.mul_comm])
      have hDigit :
          SortsAt 1 (fun n => n < base ^ (width + 1))
            (fun n => n % base)
            (fun n => [symbol (n % base)]) := by
        refine ⟨fun n _ => rfl, ?_⟩
        intro n m _ _
        rw [List.cons_lt_cons_iff,
          hSymbols _ _ (Nat.mod_lt n hBase)
            (Nat.mod_lt m hBase)]
        simp
      exact hFirst.append hDigit refines_div_mod

omit [LinearOrder σ] in
/- A number of units, written in a lower unit. -/
theorem numeral_mul_pow
    (hBase : 0 < base)
    (width zeros n : Nat) :
    numeral symbol base (width + zeros) (n * base ^ zeros) =
      numeral symbol base width n ++
        List.replicate zeros (symbol 0) := by
  induction zeros with
  | zero => simp
  | succ zeros ih =>
      have hShift :
          n * base ^ (zeros + 1) = n * base ^ zeros * base := by
        rw [Nat.pow_succ, Nat.mul_assoc]
      rw [← Nat.add_assoc, numeral, hShift,
        Nat.mul_div_cancel _ hBase, Nat.mul_mod_left, ih,
        List.append_assoc, ← List.replicate_succ']

omit [LinearOrder σ] in
/- Every symbol of a numeral is that of a digit. -/
theorem exists_digit_of_mem_numeral
    (hBase : 0 < base)
    {width n : Nat}
    {c : σ}
    (hMem : c ∈ numeral symbol base width n) :
    ∃ d, d < base ∧ symbol d = c := by
  induction width generalizing n with
  | zero => cases hMem
  | succ width ih =>
      rw [numeral, List.mem_append, List.mem_singleton] at hMem
      rcases hMem with hRest | hLast
      · exact ih hRest
      · exact ⟨n % base, Nat.mod_lt n hBase, hLast.symm⟩

theorem le_of_mem_numeral
    (hBase : 0 < base)
    (hSymbols : InOrder symbol base)
    {width n : Nat}
    {c : σ}
    (hMem : c ∈ numeral symbol base width n) :
    symbol 0 ≤ c := by
  obtain ⟨d, hDigit, hSymbol⟩ :=
    exists_digit_of_mem_numeral hBase hMem
  rw [← hSymbol]
  refine not_lt.mp fun hLess => ?_
  have hNot := (hSymbols d 0 hDigit hBase).mp hLess
  omega

end Numerals

end OrderedText

end Data

end IcpHandler

------------------------------------------------------------
-- Trimmed Fractions
------------------------------------------------------------

namespace IcpHandler

namespace Data

namespace OrderedText

variable {σ : Type} [LinearOrder σ]

/- Zeros are the least text of their length. -/
theorem not_lt_replicate
    {zero : σ}
    {digits : List σ}
    (hDigits : ∀ c ∈ digits, zero ≤ c) :
    ¬ digits < List.replicate digits.length zero := by
  induction digits with
  | nil => simp
  | cons c digits ih =>
      obtain ⟨hFirst, hRest⟩ := List.forall_mem_cons.mp hDigits
      rw [List.length_cons, List.replicate_succ,
        List.cons_lt_cons_iff]
      rintro (hLess | ⟨-, hLess⟩)
      · exact absurd hLess (not_lt.mpr hFirst)
      · exact ih hRest hLess

/-
  Digits that compare with their last zeros compare without
  them, where a mark below zero ends both.
-/
theorem trimmed_lt_trimmed
    {zero mark : σ}
    (hMark : mark < zero)
    {first second : List σ}
    {zeros zeros' : Nat}
    (hFirst : ∀ c ∈ first, zero ≤ c)
    (hSecond : ∀ c ∈ second, zero ≤ c)
    (hLength :
      first.length + zeros = second.length + zeros')
    (hLess :
      first ++ List.replicate zeros zero <
        second ++ List.replicate zeros' zero)
    (rest : List σ) :
    first ++ mark :: rest < second ++ mark :: rest := by
  induction first generalizing second with
  | nil =>
      cases second with
      | nil =>
          rw [List.length_nil, Nat.zero_add, Nat.zero_add]
            at hLength
          rw [hLength] at hLess
          exact absurd hLess (lt_irrefl _)
      | cons c second =>
          have hC : zero ≤ c := hSecond c List.mem_cons_self
          exact List.Lex.rel (lt_of_lt_of_le hMark hC)
  | cons c first ih =>
      cases second with
      | nil =>
          have hZeros :
              ∀ d ∈ (c :: first) ++ List.replicate zeros zero,
                zero ≤ d := by
            intro d hMem
            rcases List.mem_append.mp hMem with hMem | hMem
            · exact hFirst d hMem
            · exact le_of_eq (List.eq_of_mem_replicate hMem).symm
          have hNot := not_lt_replicate hZeros
          rw [List.length_append, List.length_replicate,
            hLength, List.length_nil, Nat.zero_add] at hNot
          exact absurd hLess hNot
      | cons c' second =>
          obtain ⟨-, hFirstRest⟩ :=
            List.forall_mem_cons.mp hFirst
          obtain ⟨-, hSecondRest⟩ :=
            List.forall_mem_cons.mp hSecond
          rw [List.length_cons, List.length_cons] at hLength
          rw [List.cons_append, List.cons_append,
            List.cons_lt_cons_iff] at hLess ⊢
          rcases hLess with hHead | ⟨hHead, hTail⟩
          · exact .inl hHead
          · exact .inr ⟨hHead, ih hFirstRest hSecondRest
              (by omega) hTail⟩

end OrderedText

end Data

end IcpHandler
