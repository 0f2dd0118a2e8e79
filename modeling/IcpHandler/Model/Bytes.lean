import Mathlib.Data.List.Basic

/-
  Bytes of texts, and their hexadecimal digits.

  Main declarations:
    * `utf8Bytes`, `utf8Bytes_inj`
    * `hexEncode`, `hexEncode_inj`
-/

------------------------------------------------------------
-- Texts as Bytes
------------------------------------------------------------

namespace IcpHandler

namespace Model

abbrev Bytes := List UInt8

/- `str::as_bytes` -/
def utf8Bytes (text : String) : Bytes :=
  text.toList.flatMap String.utf8EncodeChar

theorem utf8Bytes_inj
    {first second : String}
    (hSame : utf8Bytes first = utf8Bytes second) :
    first = second := by
  have hBytes :
      ∀ text : String,
        text.toByteArray.data.toList = utf8Bytes text := by
    intro text
    unfold utf8Bytes
    rw [← String.utf8Encode_toList, List.utf8Encode]
    simp
  rw [← hBytes, ← hBytes] at hSame
  exact String.toByteArray_inj.mp
    (ByteArray.ext (Array.toList_inj.mp hSame))

theorem utf8Bytes_append (first second : String) :
    utf8Bytes (first ++ second) =
      utf8Bytes first ++ utf8Bytes second := by
  unfold utf8Bytes
  rw [String.toList_append, List.flatMap_append]

end Model

end IcpHandler

------------------------------------------------------------
-- Hexadecimal Digits
------------------------------------------------------------

namespace IcpHandler

namespace Model

def hexDigit (n : Nat) : Char :=
  if n < 10 then Char.ofNat (48 + n) else Char.ofNat (87 + n)

/- `hex::encode` -/
def hexEncode (bytes : Bytes) : String :=
  String.ofList (bytes.flatMap fun byte =>
    [hexDigit (byte.toNat / 16), hexDigit (byte.toNat % 16)])

theorem hexDigit_inj
    {n m : Nat}
    (hN : n < 16)
    (hM : m < 16)
    (hSame : hexDigit n = hexDigit m) :
    n = m := by
  have hAll :
      ∀ a b : Fin 16, hexDigit a = hexDigit b →
        a.val = b.val := by
    decide
  exact hAll ⟨n, hN⟩ ⟨m, hM⟩ hSame

theorem hexEncode_inj
    {first second : Bytes}
    (hSame : hexEncode first = hexEncode second) :
    first = second := by
  have hChars := String.ofList_injective hSame
  induction first generalizing second with
  | nil =>
      cases second with
      | nil => rfl
      | cons b second => simp at hChars
  | cons a first ih =>
      cases second with
      | nil => simp at hChars
      | cons b second =>
          simp only [List.flatMap_cons, List.cons_append,
            List.nil_append, List.cons.injEq] at hChars
          obtain ⟨hHigh, hLow, hRest⟩ := hChars
          have hA := a.toNat_lt
          have hB := b.toNat_lt
          have hHigh := hexDigit_inj (by omega) (by omega) hHigh
          have hLow := hexDigit_inj (by omega) (by omega) hLow
          have hByte : a = b := by
            apply UInt8.toNat_inj.mp
            omega
          rw [hByte, ih (congrArg String.ofList hRest) hRest]

/- The characters of an encoded tag. -/
theorem isAlphanum_of_mem_hexEncode
    {bytes : Bytes}
    {c : Char}
    (hMem : c ∈ (hexEncode bytes).toList) :
    c.isAlphanum = true := by
  unfold hexEncode at hMem
  rw [String.toList_ofList, List.mem_flatMap] at hMem
  obtain ⟨byte, -, hDigit⟩ := hMem
  have hByte := byte.toNat_lt
  have hAll :
      ∀ a : Fin 16, (hexDigit a).isAlphanum = true := by
    decide
  rcases List.mem_pair.mp hDigit with rfl | rfl
  · exact hAll ⟨byte.toNat / 16, by omega⟩
  · exact hAll ⟨byte.toNat % 16, by omega⟩

end Model

end IcpHandler
