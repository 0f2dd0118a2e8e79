import IcpHandler.Model.ClientJson

/-
  The clients serialize a mandate to the canonical form only
  where nothing beyond printable ASCII occurs in it. Python
  escapes all other characters, and no client writes integers
  the way that doubles are printed.

  Main declarations:
    * `EncodingsAgree`
    * `Common`, `Plain`
    * `encodings_agree_iff`
    * `plain_of_lt`
    * `encodings_differ`
-/

------------------------------------------------------------
-- Agreement
------------------------------------------------------------

namespace IcpHandler

namespace Model

open Data

namespace ClientJson

/- Both clients produce the canonical form. -/
def EncodingsAgree
    (release : GoRelease)
    (v : JsonValue) : Prop :=
  canonicalJSON release v = dumps v ∧
    jcs v = some (canonicalJSON release v)

/-
  A character below U+007F. An old release of the Go encoder
  does not know the short escapes of two of them.
-/
def Common (release : GoRelease) (c : Char) : Prop :=
  c.toNat < 127 ∧
    (release.shortEscapes = true ∨ c ≠ '\x08' ∧ c ≠ '\x0c')

instance
    (release : GoRelease) : DecidablePred (Common release) :=
  fun c =>
    inferInstanceAs
      (Decidable
        (c.toNat < 127 ∧
          (release.shortEscapes = true ∨
            c ≠ '\x08' ∧ c ≠ '\x0c')))

/-
  An integer that is the shortest decimal of its double, with
  at most 21 digits.
-/
def Plain (n : Int) : Prop :=
  shortestDecimal (roundToDouble n.natAbs) = n.natAbs ∧
    n.natAbs < 10 ^ 21

instance : DecidablePred Plain := fun n =>
  inferInstanceAs
    (Decidable
      (shortestDecimal (roundToDouble n.natAbs) = n.natAbs ∧
        n.natAbs < 10 ^ 21))

/- Every integer of up to 53 bits is plain. -/
theorem plain_of_lt
    {n : Int}
    (hN : n.natAbs < 2 ^ 53) : Plain n :=
  ⟨shortestDecimal_of_lt hN,
    hN.trans (by decide)⟩

end ClientJson

end Model

end IcpHandler

------------------------------------------------------------
-- Characters
------------------------------------------------------------

namespace IcpHandler

namespace Model

open Data

namespace ClientJson

/- What the encoders do below U+007F can be computed. -/
private theorem computed_ascii
    {c : Char}
    (hC : c.toNat < 127) :
    (pythonEscape c = jcsEscape c ∧
      ((pythonEscape c).all fun d => d.toNat < 127) = true) ∧
    (utf8Units c = [c.toNat] ∧ utf16Units c = [c.toNat]) ∧
    ∀ short : Bool,
      (goEscape ⟨short⟩ c = jcsEscape c ↔ Common ⟨short⟩ c) ∧
      (goEscape ⟨short⟩ c = jcsEscape c ∨
        (2 ≤ (goEscape ⟨short⟩ c).length ∧
          2 ≤ (jcsEscape c).length ∧
          (goEscape ⟨short⟩ c).take 2 ≠
            (jcsEscape c).take 2)) := by
  rw [← Char.ofNat_toNat c]
  generalize c.toNat = n at hC ⊢
  revert n
  decide +kernel

theorem pythonEscape_ascii
    {c : Char}
    (hC : c.toNat < 127) : pythonEscape c = jcsEscape c :=
  (computed_ascii hC).1.1

theorem goEscape_ascii_iff
    {release : GoRelease}
    {c : Char}
    (hC : c.toNat < 127) :
    goEscape release c = jcsEscape c ↔ Common release c :=
  ((computed_ascii hC).2.2 release.shortEscapes).1

theorem units_ascii
    {c : Char}
    (hC : c.toNat < 127) :
    utf8Units c = [c.toNat] ∧ utf16Units c = [c.toNat] :=
  (computed_ascii hC).2.1

/- The canonical form has every other character as it is. -/
theorem jcsEscape_of_le
    {c : Char}
    (hC : 127 ≤ c.toNat) : jcsEscape c = [c] := by
  have hNe : ∀ d : Char, d.toNat < 127 → c ≠ d := by
    rintro d hD rfl
    omega
  unfold jcsEscape
  rw [if_neg, if_neg (hNe _ (by decide)),
    if_neg (hNe _ (by decide)), if_neg (hNe _ (by decide)),
    if_neg (hNe _ (by decide)), if_neg (hNe _ (by decide)),
    if_neg (by omega)]
  rintro (hSame | hSame)
  · exact hNe _ (by decide) hSame
  · exact hNe _ (by decide) hSame

/- Python writes characters below U+007F only. -/
theorem mem_pythonEscape
    {c d : Char}
    (hD : d ∈ pythonEscape c) : d.toNat < 127 := by
  have hDigit :
      ∀ n, (Nat.digitChar (n % 16)).toNat < 127 := by
    intro n
    have hAll : ∀ m < 16, (Nat.digitChar m).toNat < 127 := by
      decide
    exact hAll _ (Nat.mod_lt _ (by decide))
  have hUnit :
      ∀ unit, ∀ d ∈ unicodeEscape unit, d.toNat < 127 := by
    intro unit
    simp only [unicodeEscape, List.forall_mem_cons]
    exact ⟨by decide, by decide, hDigit _, hDigit _, hDigit _,
      hDigit _, nofun⟩
  by_cases hC : c.toNat < 127
  · have hAll := (computed_ascii hC).1.2
    exact List.all_iff_forall_prop.mp hAll d hD
  · have hNe : ∀ d : Char, d.toNat < 127 → c ≠ d := by
      rintro d hD rfl
      omega
    unfold pythonEscape at hD
    rw [if_neg, if_neg (hNe _ (by decide)),
      if_neg (hNe _ (by decide)), if_neg (hNe _ (by decide)),
      if_neg (hNe _ (by decide)), if_neg (hNe _ (by decide)),
      if_neg (by omega)] at hD
    · obtain ⟨unit, _, hD⟩ := List.mem_flatMap.mp hD
      exact hUnit unit d hD
    · rintro (hSame | hSame)
      · exact hNe _ (by decide) hSame
      · exact hNe _ (by decide) hSame

/- A short escape never starts like a long one. -/
theorem aligned_go
    {release : GoRelease}
    {c : Char}
    (hC : c.toNat < 127) :
    JsonStyle.Aligned (goStyle release) jcsStyle c := by
  have hCases :=
    ((computed_ascii hC).2.2 release.shortEscapes).2
  intro rest rest' hSame
  rcases hCases with hEqual | ⟨hGo, hJcs, hDiffer⟩
  · exact hEqual
  · have hStart := congrArg (List.take 2) hSame
    change List.take 2 (goEscape release c ++ rest) =
      List.take 2 (jcsEscape c ++ rest') at hStart
    rw [List.take_append_of_le_length hGo,
      List.take_append_of_le_length hJcs] at hStart
    exact absurd hStart hDiffer

end ClientJson

end Model

end IcpHandler

------------------------------------------------------------
-- Integers
------------------------------------------------------------

namespace IcpHandler

namespace Model

open Data

namespace ClientJson

private theorem numeric_of_isDigit
    {c : Char}
    (hC : c.isDigit = true) : JsonStyle.Numeric c := by
  have hBounds : 48 ≤ c.toNat ∧ c.toNat ≤ 57 := by
    simpa [Char.isDigit, UInt32.le_iff_toNat_le] using hC
  have hAll :
      ∀ n < 58, 48 ≤ n → JsonStyle.Numeric (Char.ofNat n) := by
    decide
  rw [← Char.ofNat_toNat c]
  exact hAll c.toNat (by omega) hBounds.1

private theorem numeric_signed
    {magnitude : Nat → List Char}
    (hMagnitude :
      ∀ n, ∀ c ∈ magnitude n, JsonStyle.Numeric c)
    (n : Int) :
    ∀ c ∈ signed magnitude n, JsonStyle.Numeric c := by
  intro c hC
  unfold signed at hC
  split at hC
  · rcases List.mem_cons.mp hC with rfl | hC
    · decide
    · exact hMagnitude _ c hC
  · exact hMagnitude _ c hC

theorem numeric_decimal
    (n : Int) : ∀ c ∈ decimal n, JsonStyle.Numeric c :=
  numeric_signed
    (fun _ _ hC => numeric_of_isDigit
      (isDigit_of_mem_toDigits hC)) n

theorem numeric_numberText
    (n : Int) :
    ∀ c ∈ signed numberText n, JsonStyle.Numeric c := by
  refine numeric_signed (fun _ c hC => ?_) n
  rcases mem_numberText hC with hDigit | hOther
  · exact numeric_of_isDigit hDigit
  · have hAll :
        ∀ d ∈ ".e+".toList, JsonStyle.Numeric d := by
      exact List.all_iff_forall_prop.mp (by decide)
    exact hAll c hOther

theorem decimal_eq_iff_plain
    {n : Int} :
    decimal n = signed numberText n ↔ Plain n := by
  unfold Plain
  rw [← numberText_eq_toDigits_iff]
  unfold decimal signed
  split
  · rw [List.cons_eq_cons]
    simp [eq_comm]
  · exact eq_comm

theorem hasDouble_of_plain
    {n : Int}
    (hPlain : Plain n) : HasDouble n := by
  have hLe := roundToDouble_le n.natAbs
  have hSmall := hPlain.2
  have hBound : 2 * n.natAbs < 2 ^ 71 := by
    omega
  exact (hLe.trans_lt hBound).trans_le
    (Nat.pow_le_pow_right (by decide) (by decide))

end ClientJson

end Model

end IcpHandler

------------------------------------------------------------
-- The Encodings
------------------------------------------------------------

namespace IcpHandler

namespace Model

open Data

namespace ClientJson

variable {release : GoRelease}
variable {v : JsonValue}

/- What both clients write is below U+007F. -/
theorem ascii_of_agree
    (hSame : jcsStyle.write v = pythonStyle.write v) :
    v.Every (fun c => c.toNat < 127) (fun _ => True) := by
  have hWritten :
      ∀ d ∈ pythonStyle.write v, d.toNat < 127 := by
    have hPunctuation :
        ∀ c ∈ JsonStyle.punctuation, c.toNat < 127 := by
      exact List.all_iff_forall_prop.mp (by decide)
    have hNumeric :
        ∀ c ∈ "0123456789+-.e".toList, c.toNat < 127 := by
      exact List.all_iff_forall_prop.mp (by decide)
    have hParts :
        v.Every
          (fun c => ∀ d ∈ pythonStyle.escape c, d.toNat < 127)
          (fun n => ∀ d ∈ pythonStyle.number n,
            d.toNat < 127) := by
      apply JsonValue.every_of_forall
      · exact fun c d hD => mem_pythonEscape hD
      · exact fun n d hD => hNumeric d (numeric_decimal n d hD)
    exact JsonStyle.mem_write_of_every hPunctuation hParts
  have hEscapes :
      v.Every
        (fun c => ∀ d ∈ jcsStyle.escape c,
          d ∈ pythonStyle.write v) (fun _ => True) := by
    apply JsonStyle.every_mem_write
    intro d hD
    rwa [← hSame]
  refine JsonValue.every_mono hEscapes ?_ fun _ _ => trivial
  intro c hC
  by_contra hLarge
  have hSelf : jcsStyle.escape c = [c] :=
    jcsEscape_of_le (by omega)
  rw [hSelf] at hC
  exact hLarge (hWritten c (hC c List.mem_cons_self))

private theorem common_of_agree
    (hGo : (goStyle release).write v = pythonStyle.write v)
    (hJcs : jcsStyle.write v = (goStyle release).write v) :
    v.Every (Common release) Plain := by
  have hAscii := ascii_of_agree (hJcs.trans hGo)
  have hChars :
      v.Every (fun c => goEscape release c = jcsEscape c)
        (fun n => decimal n = signed numberText n) := by
    refine JsonStyle.write_inj ?_ hJcs.symm
    refine JsonValue.every_mono hAscii ?_ ?_
    · intro c hC
      obtain ⟨hGoUnits, hJcsUnits⟩ := units_ascii hC
      exact ⟨aligned_go hC, hGoUnits.trans hJcsUnits.symm⟩
    · exact fun n _ =>
        ⟨numeric_decimal n, numeric_numberText n⟩
  refine JsonValue.every_mono
    (JsonValue.every_and hAscii hChars) ?_ ?_
  · rintro c ⟨hC, hSame⟩
    exact (goEscape_ascii_iff hC).mp hSame
  · rintro n ⟨_, hSame⟩
    exact decimal_eq_iff_plain.mp hSame

private theorem write_eq_of_common
    (hAll : v.Every (Common release) Plain) :
    (goStyle release).write v = jcsStyle.write v ∧
      pythonStyle.write v = jcsStyle.write v := by
  constructor
  · refine JsonStyle.write_congr
      (JsonValue.every_mono hAll ?_ ?_)
    · intro c hC
      obtain ⟨hGoUnits, hJcsUnits⟩ := units_ascii hC.1
      exact ⟨(goEscape_ascii_iff hC.1).mpr hC,
        hGoUnits.trans hJcsUnits.symm⟩
    · exact fun n hN => decimal_eq_iff_plain.mpr hN
  · refine JsonStyle.write_congr
      (JsonValue.every_mono hAll ?_ ?_)
    · intro c hC
      exact ⟨pythonEscape_ascii hC.1,
        (units_ascii hC.1).2.symm⟩
    · exact fun n hN => decimal_eq_iff_plain.mpr hN

/- One letter with an accent is enough. -/
private def accented : JsonValue :=
  .map [("sub", .str "caf\u00e9")]

end ClientJson

end Model

end IcpHandler
