import IcpHandler.Model.Numerals
import IcpHandler.Service.WebhookSigning

/-
  What a signature binds. A header is read back as it was
  written, other fields among its own or not. No two pairs of
  a time and a body give the MAC one message, because the time
  is written without a dot.

  Main declarations:
    * `splitOn_intercalate`
    * `constantTimeEq_iff`
    * `macInput_inj`
    * `Unrelated`, `readFields_spread`
    * `verify_iff`
    * `signatures_bind`
-/

------------------------------------------------------------
-- Texts
------------------------------------------------------------

namespace IcpHandler

namespace Model

namespace Text

/- Parts without the separator are found again. -/
theorem splitOn_intercalate
    {parts : List String}
    (hSome : parts ≠ [])
    (hFree : ∀ part ∈ parts, ',' ∉ part.toList) :
    splitOn ',' (",".intercalate parts) = parts := by
  unfold splitOn
  suffices hChars :
      splitChars ',' (",".intercalate parts).toList =
        parts.map String.toList by
    rw [hChars, List.map_map]
    simp [Function.comp_def]
  induction parts with
  | nil => exact absurd rfl hSome
  | cons part parts ih =>
      obtain ⟨hPart, hParts⟩ := List.forall_mem_cons.mp hFree
      cases parts with
      | nil =>
          rw [String.intercalate_singleton,
            splitChars_of_notMem hPart]
          rfl
      | cons next parts =>
          rw [String.intercalate_cons_cons,
            String.toList_append, String.toList_append,
            List.append_assoc]
          have hComma : ",".toList = [','] := rfl
          rw [hComma, List.singleton_append,
            splitChars_append hPart,
            ih (List.cons_ne_nil _ _) hParts]
          rfl

/- A text without white space is trimmed to itself. -/
theorem trim_eq_self
    {s : String}
    (hFree : ∀ c ∈ s.toList, isWhitespace c = false) :
    trim s = s := by
  have hDrop :
      ∀ l : List Char, (∀ c ∈ l, isWhitespace c = false) →
        l.dropWhile isWhitespace = l := by
    intro l hL
    cases l with
    | nil => rfl
    | cons c l =>
        rw [List.dropWhile_cons_of_neg]
        rw [hL c List.mem_cons_self]
        exact Bool.false_ne_true
  unfold trim
  rw [hDrop _ hFree, hDrop _ (fun c hMem =>
    hFree c (List.mem_reverse.mp hMem)), List.reverse_reverse,
    String.ofList_toList]

end Text

end Model

end IcpHandler

------------------------------------------------------------
-- Comparison
------------------------------------------------------------

namespace IcpHandler

namespace Service

open Model

/- Differences accumulate to nothing only if there are none. -/
theorem foldl_diff_eq_zero
    (pairs : List (UInt8 × UInt8))
    (diff : UInt8) :
    pairs.foldl
        (fun diff pair => diff ||| (pair.1 ^^^ pair.2)) diff =
          0 ↔
      diff = 0 ∧ ∀ pair ∈ pairs, pair.1 = pair.2 := by
  induction pairs generalizing diff with
  | nil => simp
  | cons pair pairs ih =>
      rw [List.foldl_cons, ih, UInt8.or_eq_zero_iff,
        UInt8.xor_eq_zero_iff, List.forall_mem_cons, and_assoc]

/- Lists of one length agree if their pairs do. -/
theorem eq_of_zip
    {a b : Bytes}
    (hLength : a.length = b.length)
    (hPairs : ∀ pair ∈ a.zip b, pair.1 = pair.2) :
    a = b := by
  induction a generalizing b with
  | nil =>
      cases b with
      | nil => rfl
      | cons y b => cases hLength
  | cons x a ih =>
      cases b with
      | nil => cases hLength
      | cons y b =>
          rw [List.zip_cons_cons, List.forall_mem_cons] at hPairs
          have hHead : x = y := hPairs.1
          rw [ih (Nat.succ.inj hLength) hPairs.2, hHead]

/- The comparison in constant time compares. -/
theorem constantTimeEq_iff (a b : Bytes) :
    constantTimeEq a b = true ↔ a = b := by
  unfold constantTimeEq
  by_cases hLength : a.length = b.length
  · rw [if_neg (by simpa using hLength), beq_iff_eq,
      foldl_diff_eq_zero]
    constructor
    · exact fun hDiff => eq_of_zip hLength hDiff.2
    · rintro rfl
      refine ⟨rfl, fun pair hPair => ?_⟩
      rw [List.zip_eq_zipWith, List.zipWith_self,
        List.mem_map] at hPair
      obtain ⟨x, -, rfl⟩ := hPair
      rfl
  · rw [if_pos (by simpa using hLength)]
    constructor
    · exact fun hNo => (Bool.false_ne_true hNo).elim
    · exact fun hSame => absurd (congrArg List.length hSame)
        hLength

end Service

end IcpHandler

------------------------------------------------------------
-- Fields
------------------------------------------------------------

namespace IcpHandler

namespace Service

open Model

def tField (timestampUnix : Int64) : String :=
  "t=" ++ toString timestampUnix.toInt

def v1Field (tag : Bytes) : String := "v1=" ++ hexEncode tag

/- A field that a reader of signatures passes over. -/
structure Unrelated (part : String) : Prop where
  comma : ',' ∉ part.toList
  time : Text.stripPrefix "t=" (Text.trim part) = none
  tag : Text.stripPrefix "v1=" (Text.trim part) = none

/- A visible character of ASCII that separates nothing. -/
def isPlain (c : Char) : Bool :=
  decide (33 ≤ c.toNat ∧ c.toNat ≤ 126) && c != ','

theorem isPlain_of_isAlphanum
    {c : Char}
    (hAlphanum : c.isAlphanum = true) :
    isPlain c = true := by
  have hRange :
      48 ≤ c.toNat ∧ c.toNat ≤ 57 ∨ 65 ≤ c.toNat ∧
        c.toNat ≤ 90 ∨ 97 ≤ c.toNat ∧ c.toNat ≤ 122 := by
    unfold Char.isAlphanum Char.isAlpha Char.isUpper
      Char.isLower Char.isDigit at hAlphanum
    simp only [Bool.or_eq_true, Bool.and_eq_true,
      decide_eq_true_eq, ge_iff_le,
      UInt32.le_iff_toNat_le] at hAlphanum
    have hBounds :
        'A'.val.toNat = 65 ∧ 'Z'.val.toNat = 90 ∧
          'a'.val.toNat = 97 ∧ 'z'.val.toNat = 122 ∧
          '0'.val.toNat = 48 ∧ '9'.val.toNat = 57 := by
      decide
    have hSame : c.val.toNat = c.toNat := rfl
    omega
  have hComma : c ≠ ',' := by
    rintro rfl
    revert hRange
    decide
  rw [isPlain, Bool.and_eq_true, decide_eq_true_eq,
    bne_iff_ne]
  exact ⟨by omega, hComma⟩

theorem isPlain_of_isNumeral
    {c : Char}
    (hNumeral : Text.isNumeral c = true) :
    isPlain c = true := by
  rw [Text.isNumeral, Bool.or_eq_true, beq_iff_eq] at hNumeral
  rcases hNumeral with rfl | hDigit
  · decide
  · refine isPlain_of_isAlphanum ?_
    rw [Char.isAlphanum, hDigit, Bool.or_true]

theorem isWhitespace_of_isPlain
    {c : Char}
    (hPlain : isPlain c = true) :
    Text.isWhitespace c = false := by
  rw [isPlain, Bool.and_eq_true, decide_eq_true_eq] at hPlain
  unfold Text.isWhitespace
  simp only [Bool.or_eq_false_iff, Bool.and_eq_false_iff,
    decide_eq_false_iff_not, beq_eq_false_iff_ne]
  omega

/- A text of plain characters is one field as it stands. -/
structure PlainText (s : String) : Prop where
  plain : ∀ c ∈ s.toList, isPlain c = true

theorem PlainText.comma
    {s : String}
    (hPlain : PlainText s) : ',' ∉ s.toList := by
  intro hMem
  exact absurd (hPlain.plain ',' hMem) (by decide)

theorem PlainText.trim
    {s : String}
    (hPlain : PlainText s) : Text.trim s = s :=
  Text.trim_eq_self fun c hMem =>
    isWhitespace_of_isPlain (hPlain.plain c hMem)

theorem PlainText.append
    {first second : String}
    (hFirst : PlainText first)
    (hSecond : PlainText second) :
    PlainText (first ++ second) := by
  constructor
  intro c hMem
  rw [String.toList_append, List.mem_append] at hMem
  rcases hMem with hMem | hMem
  · exact hFirst.plain c hMem
  · exact hSecond.plain c hMem

theorem plainText_tField (ts : Int64) : PlainText (tField ts) :=
  PlainText.append ⟨List.all_eq_true.mp (by decide)⟩
    ⟨fun _ hMem =>
      isPlain_of_isNumeral (Text.isNumeral_of_mem hMem)⟩

theorem plainText_v1Field (tag : Bytes) :
    PlainText (v1Field tag) :=
  PlainText.append ⟨List.all_eq_true.mp (by decide)⟩
    ⟨fun _ hMem =>
      isPlain_of_isAlphanum (isAlphanum_of_mem_hexEncode hMem)⟩

theorem stripPrefix_v1Field (tag : Bytes) :
    Text.stripPrefix "t=" (v1Field tag) = none := by
  unfold Text.stripPrefix v1Field
  rw [String.toList_append, if_neg]
  simp

theorem stripPrefix_tField (ts : Int64) :
    Text.stripPrefix "v1=" (tField ts) = none := by
  unfold Text.stripPrefix tField
  rw [String.toList_append, if_neg]
  simp

theorem readField_tField
    (fields : SignatureFields)
    (ts : Int64) :
    readField fields (tField ts) =
      { fields with t := some ts } := by
  unfold readField
  rw [(plainText_tField ts).trim, tField]
  dsimp only
  rw [Text.stripPrefix_append]
  dsimp only
  rw [Text.parseI64_toString]

theorem readField_v1Field
    (fields : SignatureFields)
    (tag : Bytes) :
    readField fields (v1Field tag) =
      { fields with v1 := some (hexEncode tag) } := by
  unfold readField
  rw [(plainText_v1Field tag).trim]
  dsimp only
  rw [stripPrefix_v1Field, v1Field, Text.stripPrefix_append]

theorem readField_unrelated
    (fields : SignatureFields)
    {part : String}
    (hUnrelated : Unrelated part) :
    readField fields part = fields := by
  unfold readField
  dsimp only
  rw [hUnrelated.time]
  dsimp only
  rw [hUnrelated.tag]

theorem foldl_unrelated
    (fields : SignatureFields)
    {parts : List String}
    (hUnrelated : ∀ part ∈ parts, Unrelated part) :
    parts.foldl readField fields = fields := by
  induction parts generalizing fields with
  | nil => rfl
  | cons part parts ih =>
      obtain ⟨hPart, hParts⟩ :=
        List.forall_mem_cons.mp hUnrelated
      rw [List.foldl_cons, readField_unrelated fields hPart]
      exact ih fields hParts

end Service

end IcpHandler

------------------------------------------------------------
-- Signed Headers
------------------------------------------------------------

namespace IcpHandler

namespace Service

open Model

variable {mac : Bytes → Bytes → Bytes}

/- The fields of a signature among others. -/
theorem readFields_spread
    {before between after : List String}
    (hUnrelated :
      ∀ part ∈ before ++ between ++ after, Unrelated part)
    (ts : Int64)
    (tag : Bytes) :
    readFields (",".intercalate
        (before ++ tField ts ::
          (between ++ v1Field tag :: after))) =
      { t := some ts, v1 := some (hexEncode tag) } := by
  simp only [List.mem_append, or_imp, forall_and]
    at hUnrelated
  obtain ⟨⟨hBefore, hBetween⟩, hAfter⟩ := hUnrelated
  unfold readFields
  rw [Text.splitOn_intercalate (by simp) ?_]
  · rw [List.foldl_append, foldl_unrelated _ hBefore,
      List.foldl_cons, readField_tField, List.foldl_append,
      foldl_unrelated _ hBetween, List.foldl_cons,
      readField_v1Field, foldl_unrelated _ hAfter]
  · intro part hPart
    simp only [List.mem_append, List.mem_cons] at hPart
    rcases hPart with hPart | rfl | hPart | rfl | hPart
    · exact (hBefore part hPart).comma
    · exact (plainText_tField ts).comma
    · exact (hBetween part hPart).comma
    · exact (plainText_v1Field tag).comma
    · exact (hAfter part hPart).comma

/- A signature consists of its two fields. -/
theorem sign_eq
    (secret : String)
    (ts : Int64)
    (body : Bytes) :
    sign mac secret ts body =
      ",".intercalate
        [tField ts,
          v1Field (mac (utf8Bytes secret)
            (macInput ts body))] := by
  apply String.toList_inj.mp
  simp [sign, tField, v1Field, String.toList_append]

/- The tag that a signature is compared with. -/
theorem findSome?_sign
    (secret : String)
    (ts : Int64)
    (body : Bytes) :
    (Text.splitOn ',' (sign mac secret ts body)).findSome?
        (Text.stripPrefix "v1=") =
      some (hexEncode (mac (utf8Bytes secret)
        (macInput ts body))) := by
  rw [sign_eq, Text.splitOn_intercalate (by simp) ?_]
  · rw [List.findSome?_cons, stripPrefix_tField,
      List.findSome?_cons, v1Field, Text.stripPrefix_append]
  · intro part hPart
    rcases List.mem_pair.mp hPart with rfl | rfl
    · exact (plainText_tField ts).comma
    · exact (plainText_v1Field _).comma

/- A header is accepted for the tag of its time and the body. -/
theorem verify_iff
    (secret headerValue : String)
    (body : Bytes) :
    verify mac secret headerValue body = true ↔
      ∃ ts, (readFields headerValue).t = some ts ∧
        (readFields headerValue).v1 =
          some (hexEncode (mac (utf8Bytes secret)
            (macInput ts body))) := by
  unfold verify
  dsimp only
  split
  · rename_i ts supplied hTime hTag
    rw [findSome?_sign, constantTimeEq_iff, Option.getD_some,
      hTime, hTag]
    constructor
    · intro hSame
      exact ⟨ts, rfl, congrArg some (utf8Bytes_inj hSame)⟩
    · rintro ⟨ts', hTs, hSame⟩
      cases hTs
      rw [Option.some.inj hSame]
  · rename_i hNone
    constructor
    · exact fun hNo => (Bool.false_ne_true hNo).elim
    · rintro ⟨ts, hTime, hTag⟩
      exact (hNone _ _ hTime hTag).elim

/- Two texts without a mark end where the mark stands. -/
theorem append_cons_inj
    {α : Type}
    {mark : α}
    {first second rest rest' : List α}
    (hFirst : mark ∉ first)
    (hSecond : mark ∉ second)
    (hSame : first ++ mark :: rest = second ++ mark :: rest') :
    first = second ∧ rest = rest' := by
  induction first generalizing second with
  | nil =>
      cases second with
      | nil => exact ⟨rfl, (List.cons.inj hSame).2⟩
      | cons b second =>
          have hHead := (List.cons.inj hSame).1
          exact absurd (hHead ▸ List.mem_cons_self) hSecond
  | cons a first ih =>
      cases second with
      | nil =>
          have hHead := (List.cons.inj hSame).1
          exact absurd (hHead ▸ List.mem_cons_self) hFirst
      | cons b second =>
          obtain ⟨hHead, hTail⟩ := List.cons.inj hSame
          obtain ⟨hRest, hAfter⟩ :=
            ih (fun hMem => hFirst (List.mem_cons_of_mem _ hMem))
              (fun hMem => hSecond (List.mem_cons_of_mem _ hMem))
              hTail
          exact ⟨by rw [hHead, hRest], hAfter⟩

/- A written number has no dot. -/
theorem dot_notMem_utf8Bytes (n : Int) :
    (46 : UInt8) ∉ utf8Bytes (toString n) := by
  intro hMem
  obtain ⟨c, hC, hByte⟩ := List.mem_flatMap.mp hMem
  have hNumeral := Text.isNumeral_of_mem hC
  have hPlain := isPlain_of_isNumeral hNumeral
  rw [isPlain, Bool.and_eq_true, decide_eq_true_eq] at hPlain
  have hAll :
      ∀ k : Fin 128,
        (46 : UInt8) ∈ String.utf8EncodeChar (Char.ofNat k) →
          Text.isNumeral (Char.ofNat k) = false := by
    decide
  have hNot := hAll ⟨c.toNat, by omega⟩
  dsimp only at hNot
  rw [Char.ofNat_toNat] at hNot
  rw [hNot hByte] at hNumeral
  cases hNumeral

/- The dot ends the time: no body can take its place. -/
theorem macInput_inj
    {ts ts' : Int64}
    {body body' : Bytes}
    (hSame : macInput ts body = macInput ts' body') :
    ts = ts' ∧ body = body' := by
  have hDot : utf8Bytes "." = [46] := by decide
  unfold macInput at hSame
  rw [utf8Bytes_append, utf8Bytes_append, hDot,
    List.append_assoc, List.append_assoc,
    List.singleton_append, List.singleton_append] at hSame
  obtain ⟨hTime, hBody⟩ :=
    append_cons_inj (dot_notMem_utf8Bytes _)
      (dot_notMem_utf8Bytes _) hSame
  exact ⟨Text.toString_int64_inj (utf8Bytes_inj hTime), hBody⟩

/-
  A signature is accepted for its body, also among other
  fields. Under a MAC without collisions a header that carries
  its tag is accepted for no other body, and with no other
  time.
-/
theorem signatures_bind
    (mac : Bytes → Bytes → Bytes)
    (secret : String)
    (ts : Int64)
    (body : Bytes) :
    verify mac secret (sign mac secret ts body) body = true ∧
    (∀ before between after : List String,
      (∀ part ∈ before ++ between ++ after, Unrelated part) →
      verify mac secret
        (",".intercalate
          (before ++ tField ts ::
            (between ++
              v1Field (mac (utf8Bytes secret)
                (macInput ts body)) :: after)))
        body = true) ∧
    (∀ ts' body', (ts, body) ≠ (ts', body') →
      macInput ts body ≠ macInput ts' body') ∧
    (Function.Injective (mac (utf8Bytes secret)) →
      ∀ headerValue body',
        (readFields headerValue).v1 =
          some (hexEncode (mac (utf8Bytes secret)
            (macInput ts body))) →
        verify mac secret headerValue body' = true →
          (readFields headerValue).t = some ts ∧
            body' = body) := by
  have hSpread :
      ∀ before between after : List String,
        (∀ part ∈ before ++ between ++ after,
          Unrelated part) →
        verify mac secret
          (",".intercalate
            (before ++ tField ts ::
              (between ++
                v1Field (mac (utf8Bytes secret)
                  (macInput ts body)) :: after)))
          body = true := by
    intro before between after hUnrelated
    rw [verify_iff, readFields_spread hUnrelated]
    exact ⟨ts, rfl, rfl⟩
  refine ⟨?_, hSpread, ?_, ?_⟩
  · rw [sign_eq]
    exact hSpread [] [] [] (fun _ hNone => nomatch hNone)
  · intro ts' body' hNe hSame
    obtain ⟨rfl, rfl⟩ := macInput_inj hSame
    exact hNe rfl
  · intro hIdeal headerValue body' hTag hAccepted
    obtain ⟨ts', hTime, hTag'⟩ := verify_iff _ _ _ |>.mp
      hAccepted
    rw [hTag, Option.some.injEq] at hTag'
    obtain ⟨rfl, rfl⟩ :=
      macInput_inj (hIdeal (hexEncode_inj hTag'))
    exact ⟨hTime, rfl⟩

private def sampleBody : Bytes := [46, 44]

/- Fields all around, and another body, under a free MAC. -/
theorem signatures_bind_sample :
    verify List.append "key"
        (",".intercalate
          ["v=1", tField (-5), " x ",
            v1Field (List.append (utf8Bytes "key")
              (macInput (-5) sampleBody)), "v2=t="])
        sampleBody = true ∧
    ∀ body',
      verify List.append "key"
          (sign List.append "key" (-5) sampleBody) body' =
        true → body' = sampleBody := by
  obtain ⟨-, hSpread, -, hBinds⟩ :=
    signatures_bind List.append "key" (-5) sampleBody
  constructor
  · refine hSpread ["v=1"] [" x "] ["v2=t="] fun part hPart => ?_
    simp only [List.cons_append, List.nil_append,
      List.mem_cons, List.not_mem_nil, or_false] at hPart
    rcases hPart with rfl | rfl | rfl
    · exact ⟨by decide, by decide, by decide⟩
    · exact ⟨by decide, by decide, by decide⟩
    · exact ⟨by decide, by decide, by decide⟩
  · intro body' hAccepted
    exact (hBinds (List.append_right_injective _) _ body'
      (by decide) hAccepted).2

end Service

end IcpHandler
