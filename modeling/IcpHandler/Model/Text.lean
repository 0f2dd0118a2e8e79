import Mathlib.Data.List.Basic

/-
  The string functions of the standard library the handler
  calls, on the characters of a string.

  Main declarations:
    * `trim`
    * `stripPrefix`
    * `stripSuffix`
    * `eqIgnoreAsciiCase`
    * `splitOn`
    * `zeroPadded`
    * `parseI64`
-/

------------------------------------------------------------
-- Strings
------------------------------------------------------------

namespace IcpHandler

namespace Model

namespace Text

/- `char::is_whitespace`, the Unicode property. -/
def isWhitespace (c : Char) : Bool :=
  let n := c.toNat
  (9 ≤ n && n ≤ 13) || n == 32 || n == 133 || n == 160 ||
    n == 5760 || (8192 ≤ n && n ≤ 8202) || n == 8232 ||
    n == 8233 || n == 8239 || n == 8287 || n == 12288

/- `str::trim` -/
def trim (s : String) : String :=
  String.ofList
    (((s.toList.dropWhile isWhitespace).reverse.dropWhile
      isWhitespace).reverse)

/- `str::strip_prefix` -/
def stripPrefix (start s : String) : Option String :=
  if start.toList.isPrefixOf s.toList then
    some (String.ofList (s.toList.drop start.length))
  else none

/- What follows a prefix is left when it is stripped. -/
theorem stripPrefix_append (start rest : String) :
    stripPrefix start (start ++ rest) = some rest := by
  unfold stripPrefix
  rw [String.toList_append, if_pos (by simp)]
  refine congrArg some ?_
  rw [← String.length_toList, List.drop_left,
    String.ofList_toList]

/- `str::strip_suffix` -/
def stripSuffix (ending s : String) : Option String :=
  if ending.toList.isSuffixOf s.toList then
    some (String.ofList
      (s.toList.take (s.length - ending.length)))
  else none

/- `str::starts_with` -/
def startsWith (start s : String) : Bool :=
  start.toList.isPrefixOf s.toList

/- ASCII lower case of one character. -/
def toAsciiLower (c : Char) : Char :=
  if 65 ≤ c.toNat ∧ c.toNat ≤ 90 then
    Char.ofNat (c.toNat + 32)
  else c

/- `str::eq_ignore_ascii_case` -/
def eqIgnoreAsciiCase (left right : String) : Bool :=
  left.toList.map toAsciiLower == right.toList.map toAsciiLower

/- `str::split` at a character, on lists of characters. -/
def splitChars (separator : Char) : List Char → List (List Char)
  | [] => [[]]
  | c :: rest =>
      if c = separator then
        [] :: splitChars separator rest
      else
        match splitChars separator rest with
        | [] => [[c]]
        | part :: parts => (c :: part) :: parts

/- `str::split` at a character. -/
def splitOn (separator : Char) (s : String) : List String :=
  (splitChars separator s.toList).map String.ofList

theorem splitChars_of_notMem
    {separator : Char}
    {part : List Char}
    (hFree : separator ∉ part) :
    splitChars separator part = [part] := by
  induction part with
  | nil => rfl
  | cons c part ih =>
      have hNe : c ≠ separator := fun hSame =>
        hFree (hSame ▸ List.mem_cons_self)
      have hRest : separator ∉ part := fun hMem =>
        hFree (List.mem_cons_of_mem c hMem)
      rw [splitChars, if_neg hNe, ih hRest]

/- A part without the separator is split off whole. -/
theorem splitChars_append
    {separator : Char}
    {part : List Char}
    (hFree : separator ∉ part)
    (rest : List Char) :
    splitChars separator (part ++ separator :: rest) =
      part :: splitChars separator rest := by
  induction part with
  | nil => simp [splitChars]
  | cons c part ih =>
      have hNe : c ≠ separator := fun hSame =>
        hFree (hSame ▸ List.mem_cons_self)
      have hRest : separator ∉ part := fun hMem =>
        hFree (List.mem_cons_of_mem c hMem)
      rw [List.cons_append, splitChars, if_neg hNe, ih hRest]

/- Three segments without a dot are found again. -/
theorem splitOn_segments
    {first second third : String}
    (hFirst : '.' ∉ first.toList)
    (hSecond : '.' ∉ second.toList)
    (hThird : '.' ∉ third.toList) :
    splitOn '.' (first ++ "." ++ (second ++ "." ++ third)) =
      [first, second, third] := by
  have hList :
      (first ++ "." ++ (second ++ "." ++ third)).toList =
        first.toList ++
          '.' :: (second.toList ++ '.' :: third.toList) := by
    simp [String.toList_append]
  unfold splitOn
  rw [hList, splitChars_append hFirst,
    splitChars_append hSecond, splitChars_of_notMem hThird]
  simp

/- `str::split_once` at a character. -/
def splitOnce
    (separator : Char)
    (s : String) : Option (String × String) :=
  let before := s.toList.takeWhile (· != separator)
  if separator ∈ s.toList then
    some (String.ofList before,
      String.ofList (s.toList.drop (before.length + 1)))
  else none

/- `format!` of a count with leading zeros. -/
def zeroPadded (width n : Nat) : String :=
  let digits := toString n
  String.ofList (List.replicate (width - digits.length) '0') ++
    digits

/- The value of a non-empty run of decimal digits. -/
def parseDigits : List Char → Nat → Option Nat
  | [], value => some value
  | c :: rest, value =>
      if c.isDigit then
        parseDigits rest (value * 10 + (c.toNat - 48))
      else none

/- `str::parse::<i64>` -/
def parseI64 (s : String) : Option Int64 :=
  let magnitude (digits : List Char) : Option Nat :=
    if digits.isEmpty then none else parseDigits digits 0
  let signed : Option Int :=
    match s.toList with
    | '-' :: digits => (magnitude digits).map fun n => -(n : Int)
    | '+' :: digits => (magnitude digits).map Int.ofNat
    | digits => (magnitude digits).map Int.ofNat
  signed.bind fun value =>
    if Int64.minValue.toInt ≤ value ∧
        value ≤ Int64.maxValue.toInt then
      some (Int64.ofInt value)
    else none

end Text

end Model

end IcpHandler
