import Mathlib.Data.Bool.AllAny
import Mathlib.Data.List.Sort
import Mathlib.Order.Defs.LinearOrder
import Mathlib.Data.List.Lex

/-
  Writers of compact JSON. Encoders differ in how they escape
  a character, how they write an integer and how they compare
  keys. The rest is common to them all, so two encoders write
  the same text exactly when they agree on these.

  Main declarations:
    * `JsonValue`, `JsonValue.Every`
    * `JsonStyle`, `JsonStyle.write`
    * `write_congr`
    * `mem_write_of_every`, `every_mem_write`
    * `JsonStyle.Aligned`, `write_inj`
-/

------------------------------------------------------------
-- Values
------------------------------------------------------------

namespace IcpHandler

namespace Data

/- A JSON value whose numbers are integers. -/
inductive JsonValue where
  | null
  | bool (value : Bool)
  | int (value : Int)
  | str (value : String)
  | arr (items : List JsonValue)
  | map (fields : List (String × JsonValue))

namespace JsonValue

section Every

variable (chars : Char → Prop)
variable (ints : Int → Prop)

mutual

/-
  Every character of every string and key has one property,
  and every integer has another.
-/
def Every : JsonValue → Prop
  | .null => True
  | .bool _ => True
  | .int n => ints n
  | .str s => ∀ c ∈ s.toList, chars c
  | .arr items => EveryItem items
  | .map fields => EveryField fields

def EveryItem : List JsonValue → Prop
  | [] => True
  | v :: rest => v.Every ∧ EveryItem rest

def EveryField : List (String × JsonValue) → Prop
  | [] => True
  | (key, v) :: rest =>
      (∀ c ∈ key.toList, chars c) ∧ v.Every ∧ EveryField rest

end

mutual

/- Whether it holds of a value can be computed. -/
def decideEvery
    [DecidablePred chars]
    [DecidablePred ints] :
    (v : JsonValue) → Decidable (v.Every chars ints)
  | .null => .isTrue trivial
  | .bool _ => .isTrue trivial
  | .int n => inferInstanceAs (Decidable (ints n))
  | .str s =>
      inferInstanceAs (Decidable (∀ c ∈ s.toList, chars c))
  | .arr items => decideItems items
  | .map fields => decideFields fields

def decideItems
    [DecidablePred chars]
    [DecidablePred ints] :
    (items : List JsonValue) →
      Decidable (EveryItem chars ints items)
  | [] => .isTrue trivial
  | v :: rest =>
      @instDecidableAnd _ _ (decideEvery v) (decideItems rest)

def decideFields
    [DecidablePred chars]
    [DecidablePred ints] :
    (fields : List (String × JsonValue)) →
      Decidable (EveryField chars ints fields)
  | [] => .isTrue trivial
  | (_, v) :: rest =>
      @instDecidableAnd _ _ inferInstance
        (@instDecidableAnd _ _ (decideEvery v)
          (decideFields rest))

end

instance
    [DecidablePred chars]
    [DecidablePred ints]
    (v : JsonValue) : Decidable (v.Every chars ints) :=
  decideEvery chars ints v

end Every

variable {chars chars' : Char → Prop}
variable {ints ints' : Int → Prop}

@[simp] theorem every_arr
    {items : List JsonValue} :
    (arr items).Every chars ints ↔
      ∀ v ∈ items, v.Every chars ints := by
  rw [Every]
  induction items with
  | nil => simp [EveryItem]
  | cons v rest ih => simp [EveryItem, ih]

@[simp] theorem every_map
    {fields : List (String × JsonValue)} :
    (map fields).Every chars ints ↔
      ∀ field ∈ fields,
        (∀ c ∈ field.1.toList, chars c) ∧
          field.2.Every chars ints := by
  rw [Every]
  induction fields with
  | nil => simp [EveryField]
  | cons field rest ih => simp [EveryField, ih, and_assoc]

/- Induction over a value, its items and its fields. -/
@[elab_as_elim]
theorem induction_on
    {motive : JsonValue → Prop}
    (null : motive .null)
    (bool : ∀ b, motive (.bool b))
    (int : ∀ n, motive (.int n))
    (str : ∀ s, motive (.str s))
    (arr :
      ∀ items : List JsonValue,
        (∀ v ∈ items, motive v) → motive (.arr items))
    (map :
      ∀ fields : List (String × JsonValue),
        (∀ field ∈ fields, motive field.2) →
        motive (.map fields))
    (v : JsonValue) : motive v := by
  refine @JsonValue.rec motive
    (fun items => ∀ v ∈ items, motive v)
    (fun fields => ∀ field ∈ fields, motive field.2)
    (fun field => motive field.2)
    null bool int str arr map ?_ ?_ ?_ ?_ ?_ v
  · simp
  · intro v rest ih ihRest
    exact List.forall_mem_cons.mpr ⟨ih, ihRest⟩
  · simp
  · intro field rest ih ihRest
    exact List.forall_mem_cons.mpr ⟨ih, ihRest⟩
  · intro key v ih
    exact ih

theorem every_mono
    {v : JsonValue}
    (hEvery : v.Every chars ints)
    (hChars : ∀ c, chars c → chars' c)
    (hInts : ∀ n, ints n → ints' n) :
    v.Every chars' ints' := by
  induction v using induction_on with
  | null => trivial
  | bool b => trivial
  | int n => exact hInts n hEvery
  | str s => exact fun c hC => hChars c (hEvery c hC)
  | arr items ih =>
      rw [every_arr] at hEvery ⊢
      exact fun v hV => ih v hV (hEvery v hV)
  | map fields ih =>
      rw [every_map] at hEvery ⊢
      intro field hField
      obtain ⟨hKey, hValue⟩ := hEvery field hField
      exact ⟨fun c hC => hChars c (hKey c hC),
        ih field hField hValue⟩

theorem every_and
    {v : JsonValue}
    (hEvery : v.Every chars ints)
    (hEvery' : v.Every chars' ints') :
    v.Every (fun c => chars c ∧ chars' c)
      (fun n => ints n ∧ ints' n) := by
  induction v using induction_on with
  | null => trivial
  | bool b => trivial
  | int n => exact ⟨hEvery, hEvery'⟩
  | str s => exact fun c hC => ⟨hEvery c hC, hEvery' c hC⟩
  | arr items ih =>
      rw [every_arr] at hEvery hEvery' ⊢
      exact fun v hV => ih v hV (hEvery v hV) (hEvery' v hV)
  | map fields ih =>
      rw [every_map] at hEvery hEvery' ⊢
      intro field hField
      obtain ⟨hKey, hValue⟩ := hEvery field hField
      obtain ⟨hKey', hValue'⟩ := hEvery' field hField
      exact ⟨fun c hC => ⟨hKey c hC, hKey' c hC⟩,
        ih field hField hValue hValue'⟩

theorem every_of_forall
    (v : JsonValue)
    (hChars : ∀ c, chars c)
    (hInts : ∀ n, ints n) : v.Every chars ints := by
  induction v using induction_on with
  | null => trivial
  | bool b => trivial
  | int n => exact hInts n
  | str s => exact fun c _ => hChars c
  | arr items ih =>
      rw [every_arr]
      exact ih
  | map fields ih =>
      rw [every_map]
      exact fun field hField =>
        ⟨fun c _ => hChars c, ih field hField⟩

end JsonValue

end Data

end IcpHandler

------------------------------------------------------------
-- Writers
------------------------------------------------------------

namespace IcpHandler

namespace Data

/- What encoders of compact JSON differ in. -/
structure JsonStyle where
  escape : Char → List Char
  number : Int → List Char
  /- What a character of a key is compared by. -/
  units : Char → List Nat

/- The texts with commas between them. -/
def commaJoin : List (List Char) → List Char
  | [] => []
  | [text] => text
  | text :: next :: rest =>
      text ++ ',' :: commaJoin (next :: rest)

namespace JsonStyle

section Write

variable (style : JsonStyle)

def quote (s : String) : List Char :=
  '"' :: (s.toList.flatMap style.escape ++ ['"'])

def keyUnits (key : String) : List Nat :=
  key.toList.flatMap style.units

def KeyLe
    {α : Type}
    (field next : String × α) : Prop :=
  ¬ style.keyUnits next.1 < style.keyUnits field.1

instance {α : Type} :
    DecidableRel (style.KeyLe (α := α)) := fun field next =>
  inferInstanceAs
    (Decidable
      (¬ style.keyUnits next.1 < style.keyUnits field.1))

def sortByKey
    {α : Type}
    (fields : List (String × α)) : List (String × α) :=
  fields.insertionSort style.KeyLe

def member (field : String × List Char) : List Char :=
  style.quote field.1 ++ ':' :: field.2

mutual

/- The text of a value, the fields of a map in key order. -/
def write : JsonValue → List Char
  | .null => "null".toList
  | .bool true => "true".toList
  | .bool false => "false".toList
  | .int n => style.number n
  | .str s => style.quote s
  | .arr items =>
      '[' :: (commaJoin (writeItems items) ++ [']'])
  | .map fields =>
      '\x7b' ::
        (commaJoin
          ((style.sortByKey (writeFields fields)).map
            style.member) ++ ['\x7d'])

def writeItems : List JsonValue → List (List Char)
  | [] => []
  | v :: rest => write v :: writeItems rest

def writeFields :
    List (String × JsonValue) → List (String × List Char)
  | [] => []
  | (key, v) :: rest => (key, write v) :: writeFields rest

end

/- A field of a map. -/
def writeField (field : String × JsonValue) : List Char :=
  style.member (field.1, style.write field.2)

end Write

variable {style style' : JsonStyle}

theorem mem_sortByKey
    {α : Type}
    {fields : List (String × α)}
    {field : String × α} :
    field ∈ style.sortByKey fields ↔ field ∈ fields :=
  List.mem_insertionSort _

/- Keys that compare alike are sorted alike. -/
theorem sortByKey_congr
    {α : Type}
    {fields : List (String × α)}
    (hUnits :
      ∀ field ∈ fields, ∀ c ∈ field.1.toList,
        style.units c = style'.units c) :
    style.sortByKey fields = style'.sortByKey fields := by
  have hKeys :
      ∀ field ∈ fields,
        style.keyUnits field.1 = style'.keyUnits field.1 := by
    intro field hField
    exact List.flatMap_congr (hUnits field hField)
  have hSorted :=
    List.map_insertionSort style.KeyLe style'.KeyLe id fields
      fun field hField next hNext => by
        unfold KeyLe
        rw [hKeys field hField, hKeys next hNext]
        exact Iff.rfl
  rwa [List.map_id, List.map_id] at hSorted

@[simp] theorem write_arr
    {items : List JsonValue} :
    style.write (.arr items) =
      '[' :: (commaJoin (items.map style.write) ++ [']']) := by
  have hItems :
      style.writeItems items = items.map style.write := by
    induction items with
    | nil => rfl
    | cons v rest ih =>
        rw [List.map_cons, ← ih]
        rfl
  rw [← hItems]
  rfl

@[simp] theorem write_map
    {fields : List (String × JsonValue)} :
    style.write (.map fields) =
      '\x7b' ::
        (commaJoin
          ((style.sortByKey fields).map style.writeField) ++
            ['\x7d']) := by
  have hFields :
      style.writeFields fields =
        fields.map fun field =>
          (field.1, style.write field.2) := by
    induction fields with
    | nil => rfl
    | cons field rest ih =>
        rw [List.map_cons, ← ih]
        rfl
  have hSorted :
      style.sortByKey (style.writeFields fields) =
        (style.sortByKey fields).map fun field =>
          (field.1, style.write field.2) := by
    rw [hFields]
    exact (List.map_insertionSort style.KeyLe style.KeyLe
      (fun field => (field.1, style.write field.2)) fields
      fun _ _ _ _ => Iff.rfl).symm
  have hText :
      style.write (.map fields) =
        '\x7b' ::
          (commaJoin
            ((style.sortByKey (style.writeFields fields)).map
              style.member) ++ ['\x7d']) :=
    rfl
  rw [hText, hSorted, List.map_map]
  rfl

theorem quote_congr
    {s : String}
    (hChars : ∀ c ∈ s.toList, style.escape c = style'.escape c) :
    style.quote s = style'.quote s := by
  rw [quote, quote, List.flatMap_congr hChars]

/-
  Encoders that agree on the characters and the integers of a
  value write the same text.
-/
theorem write_congr
    {v : JsonValue}
    (hSame :
      v.Every
        (fun c =>
          style.escape c = style'.escape c ∧
            style.units c = style'.units c)
        (fun n => style.number n = style'.number n)) :
    style.write v = style'.write v := by
  induction v using JsonValue.induction_on with
  | null => rfl
  | bool b => cases b <;> rfl
  | int n => exact hSame
  | str s => exact quote_congr fun c hC => (hSame c hC).1
  | arr items ih =>
      rw [JsonValue.every_arr] at hSame
      have hItems :
          items.map style.write = items.map style'.write :=
        List.map_congr_left fun v hV => ih v hV (hSame v hV)
      rw [write_arr, write_arr, hItems]
  | map fields ih =>
      rw [JsonValue.every_map] at hSame
      have hSorted :
          style.sortByKey fields = style'.sortByKey fields := by
        apply sortByKey_congr
        intro field hField c hC
        exact ((hSame field hField).1 c hC).2
      have hFields :
          (style.sortByKey fields).map style.writeField =
            (style.sortByKey fields).map style'.writeField := by
        apply List.map_congr_left
        intro field hField
        have hField := mem_sortByKey.mp hField
        have hBoth := hSame field hField
        unfold writeField member
        rw [quote_congr fun c hC => (hBoth.1 c hC).1,
          ih field hField hBoth.2]
      rw [write_map, write_map, hFields, hSorted]

end JsonStyle

end Data

end IcpHandler

------------------------------------------------------------
-- The Characters of a Text
------------------------------------------------------------

namespace IcpHandler

namespace Data

namespace JsonStyle

variable {style : JsonStyle}
variable {chars : Char → Prop}

/- The characters of the syntax itself. -/
def punctuation : List Char :=
  "nultrefas\"[]\x7b\x7d,:".toList

theorem mem_commaJoin_iff
    {texts : List (List Char)}
    {c : Char} :
    c ∈ commaJoin texts ↔
      (∃ text ∈ texts, c ∈ text) ∨
        c = ',' ∧ 2 ≤ texts.length := by
  induction texts with
  | nil => simp [commaJoin]
  | cons text rest ih =>
      cases rest with
      | nil => simp [commaJoin]
      | cons next rest =>
          rw [commaJoin, List.mem_append, List.mem_cons, ih]
          simp only [List.mem_cons, exists_eq_or_imp,
            List.length_cons]
          by_cases hComma : c = ','
          · simp [hComma]
          · simp [hComma]

theorem forall_mem_quote
    {s : String}
    (hPunctuation : ∀ c ∈ punctuation, chars c)
    (hChars : ∀ c ∈ s.toList, ∀ d ∈ style.escape c, chars d) :
    ∀ d ∈ style.quote s, chars d := by
  intro d hD
  rw [quote, List.mem_cons, List.mem_append,
    List.mem_singleton, List.mem_flatMap] at hD
  rcases hD with rfl | ⟨c, hC, hD⟩ | rfl
  · exact hPunctuation _ (by decide)
  · exact hChars c hC d hD
  · exact hPunctuation _ (by decide)

theorem forall_mem_commaJoin
    {texts : List (List Char)}
    (hPunctuation : ∀ c ∈ punctuation, chars c)
    (hTexts : ∀ text ∈ texts, ∀ d ∈ text, chars d) :
    ∀ d ∈ commaJoin texts, chars d := by
  intro d hD
  rcases mem_commaJoin_iff.mp hD with
    ⟨text, hText, hIn⟩ | ⟨rfl, _⟩
  · exact hTexts text hText d hIn
  · exact hPunctuation _ (by decide)

/-
  The text of a value only has characters of the syntax, of
  the escapes of its characters and of its integers.
-/
theorem mem_write_of_every
    {v : JsonValue}
    (hPunctuation : ∀ c ∈ punctuation, chars c)
    (hEvery :
      v.Every (fun c => ∀ d ∈ style.escape c, chars d)
        (fun n => ∀ d ∈ style.number n, chars d)) :
    ∀ d ∈ style.write v, chars d := by
  induction v using JsonValue.induction_on with
  | null =>
      have hNull : ∀ d ∈ "null".toList, d ∈ punctuation := by
        exact List.all_iff_forall_prop.mp (by decide)
      exact fun d hD => hPunctuation d (hNull d hD)
  | bool b =>
      have hTrue : ∀ d ∈ "true".toList, d ∈ punctuation := by
        exact List.all_iff_forall_prop.mp (by decide)
      have hFalse : ∀ d ∈ "false".toList, d ∈ punctuation := by
        exact List.all_iff_forall_prop.mp (by decide)
      cases b with
      | true => exact fun d hD => hPunctuation d (hTrue d hD)
      | false => exact fun d hD => hPunctuation d (hFalse d hD)
  | int n => exact hEvery
  | str s => exact forall_mem_quote hPunctuation hEvery
  | arr items ih =>
      rw [JsonValue.every_arr] at hEvery
      have hInner :
          ∀ d ∈ commaJoin (items.map style.write), chars d := by
        apply forall_mem_commaJoin hPunctuation
        intro text hText
        obtain ⟨v, hV, rfl⟩ := List.mem_map.mp hText
        exact ih v hV (hEvery v hV)
      intro d hD
      rw [write_arr, List.mem_cons, List.mem_append,
        List.mem_singleton] at hD
      rcases hD with rfl | hD | rfl
      · exact hPunctuation _ (by decide)
      · exact hInner d hD
      · exact hPunctuation _ (by decide)
  | map fields ih =>
      rw [JsonValue.every_map] at hEvery
      have hInner :
          ∀ d ∈ commaJoin
            ((style.sortByKey fields).map style.writeField),
            chars d := by
        apply forall_mem_commaJoin hPunctuation
        intro text hText
        obtain ⟨field, hField, rfl⟩ := List.mem_map.mp hText
        have hField := mem_sortByKey.mp hField
        intro d hD
        rw [writeField, member, List.mem_append,
          List.mem_cons] at hD
        rcases hD with hKey | rfl | hValue
        · exact forall_mem_quote hPunctuation
            (hEvery field hField).1 d hKey
        · exact hPunctuation _ (by decide)
        · exact ih field hField (hEvery field hField).2 d hValue
      intro d hD
      rw [write_map, List.mem_cons, List.mem_append,
        List.mem_singleton] at hD
      rcases hD with rfl | hD | rfl
      · exact hPunctuation _ (by decide)
      · exact hInner d hD
      · exact hPunctuation _ (by decide)

/- The escape of each character of a value is in its text. -/
theorem every_mem_write
    {v : JsonValue}
    {text : List Char}
    (hText : ∀ d ∈ style.write v, d ∈ text) :
    v.Every (fun c => ∀ d ∈ style.escape c, d ∈ text)
      (fun _ => True) := by
  have hQuote :
      ∀ s, (∀ d ∈ style.quote s, d ∈ text) →
        ∀ c ∈ s.toList, ∀ d ∈ style.escape c, d ∈ text := by
    intro s hQuote c hC d hD
    apply hQuote
    rw [quote, List.mem_cons, List.mem_append]
    exact .inr (.inl (List.mem_flatMap.mpr ⟨c, hC, hD⟩))
  induction v using JsonValue.induction_on with
  | null => trivial
  | bool b => trivial
  | int n => trivial
  | str s => exact hQuote s hText
  | arr items ih =>
      rw [JsonValue.every_arr]
      intro v hV
      apply ih v hV
      intro d hD
      apply hText
      rw [write_arr, List.mem_cons, List.mem_append,
        mem_commaJoin_iff]
      exact .inr (.inl (.inl
        ⟨_, List.mem_map_of_mem hV, hD⟩))
  | map fields ih =>
      rw [JsonValue.every_map]
      intro field hField
      have hInner :
          ∀ d ∈ style.writeField field, d ∈ text := by
        intro d hD
        apply hText
        rw [write_map, List.mem_cons, List.mem_append,
          mem_commaJoin_iff]
        exact .inr (.inl (.inl
          ⟨_, List.mem_map_of_mem (mem_sortByKey.mpr hField),
            hD⟩))
      constructor
      · apply hQuote
        intro d hD
        exact hInner d (List.mem_append_left _ hD)
      · apply ih field hField
        intro d hD
        exact hInner d (List.mem_append_right _
          (List.mem_cons_of_mem _ hD))

end JsonStyle

end Data

end IcpHandler

------------------------------------------------------------
-- Equal Texts
------------------------------------------------------------

namespace IcpHandler

namespace Data

namespace JsonStyle

/- The characters that numbers are written with. -/
def Numeric (c : Char) : Prop :=
  c ∈ "0123456789+-.e".toList

instance : DecidablePred Numeric := fun c =>
  inferInstanceAs (Decidable (c ∈ "0123456789+-.e".toList))

/- No number goes on there. -/
def Ends (rest : List Char) : Prop :=
  ∀ c, rest.head? = some c → ¬ Numeric c

private theorem ends_cons
    {c : Char}
    {rest : List Char}
    (hC : ¬ Numeric c) : Ends (c :: rest) := by
  intro d hD
  rw [List.head?_cons, Option.some.injEq] at hD
  exact hD ▸ hC

theorem number_append_inj
    {left right rest rest' : List Char}
    (hLeft : ∀ c ∈ left, Numeric c)
    (hRight : ∀ c ∈ right, Numeric c)
    (hRest : Ends rest)
    (hRest' : Ends rest')
    (hSame : left ++ rest = right ++ rest') :
    left = right ∧ rest = rest' := by
  induction left generalizing right with
  | nil =>
      cases right with
      | nil => exact ⟨rfl, hSame⟩
      | cons c right =>
          rw [List.nil_append] at hSame
          rw [hSame] at hRest
          exact absurd (hRight c List.mem_cons_self)
            (hRest c rfl)
  | cons c left ih =>
      cases right with
      | nil =>
          rw [List.nil_append] at hSame
          rw [← hSame] at hRest'
          exact absurd (hLeft c List.mem_cons_self)
            (hRest' c rfl)
      | cons d right =>
          obtain ⟨rfl, hTails⟩ := List.cons_eq_cons.mp hSame
          obtain ⟨rfl, hRests⟩ := ih
            (fun c hC => hLeft c (List.mem_cons_of_mem _ hC))
            (fun c hC => hRight c (List.mem_cons_of_mem _ hC))
            hTails
          exact ⟨rfl, hRests⟩

variable (style style' : JsonStyle)

/-
  If the escapes of a character start two equal texts, they
  are the same escape.
-/
def Aligned (c : Char) : Prop :=
  ∀ rest rest' : List Char,
    style.escape c ++ rest = style'.escape c ++ rest' →
    style.escape c = style'.escape c

variable {style style'}

private theorem quote_append_inj
    {s : String}
    {rest rest' : List Char}
    (hAligned : ∀ c ∈ s.toList, Aligned style style' c)
    (hSame : style.quote s ++ rest = style'.quote s ++ rest') :
    (∀ c ∈ s.toList, style.escape c = style'.escape c) ∧
      rest = rest' := by
  have hChars :
      ∀ cs : List Char, (∀ c ∈ cs, Aligned style style' c) →
        cs.flatMap style.escape ++ '"' :: rest =
          cs.flatMap style'.escape ++ '"' :: rest' →
        (∀ c ∈ cs, style.escape c = style'.escape c) ∧
          rest = rest' := by
    intro cs hAligned hSame
    induction cs with
    | nil => exact ⟨nofun, (List.cons_eq_cons.mp hSame).2⟩
    | cons c cs ih =>
        rw [List.flatMap_cons, List.flatMap_cons,
          List.append_assoc, List.append_assoc] at hSame
        have hEscape :=
          hAligned c List.mem_cons_self _ _ hSame
        rw [hEscape] at hSame
        obtain ⟨hRest, hRests⟩ := ih
          (fun d hD => hAligned d (List.mem_cons_of_mem _ hD))
          (List.append_cancel_left hSame)
        exact ⟨List.forall_mem_cons.mpr ⟨hEscape, hRest⟩,
          hRests⟩
  apply hChars s.toList hAligned
  simpa [quote] using hSame

private theorem commaJoin_append_inj
    {α : Type}
    {first second : α → List Char}
    {Same : α → Prop}
    {xs : List α}
    {close : Char}
    {rest rest' : List Char}
    (hClose : ¬ Numeric close)
    (hEach :
      ∀ x ∈ xs, ∀ rest rest', Ends rest → Ends rest' →
        first x ++ rest = second x ++ rest' →
        Same x ∧ rest = rest')
    (hSame :
      commaJoin (xs.map first) ++ close :: rest =
        commaJoin (xs.map second) ++ close :: rest') :
    (∀ x ∈ xs, Same x) ∧ rest = rest' := by
  induction xs with
  | nil => exact ⟨nofun, (List.cons_eq_cons.mp hSame).2⟩
  | cons x xs ih =>
      have hX := hEach x List.mem_cons_self
      cases xs with
      | nil =>
          obtain ⟨hX, hRest⟩ := hX _ _ (ends_cons hClose)
            (ends_cons hClose) hSame
          exact ⟨by simpa using hX,
            (List.cons_eq_cons.mp hRest).2⟩
      | cons y ys =>
          simp only [List.map_cons, commaJoin,
            List.append_assoc, List.cons_append] at hSame
          obtain ⟨hX, hRest⟩ := hX _ _ (ends_cons (by decide))
            (ends_cons (by decide)) hSame
          obtain ⟨hXs, hRests⟩ := ih
            (fun z hZ => hEach z (List.mem_cons_of_mem _ hZ))
            (List.cons_eq_cons.mp hRest).2
          exact ⟨List.forall_mem_cons.mpr ⟨hX, hXs⟩, hRests⟩

private theorem write_append_inj
    {v : JsonValue}
    (hEvery :
      v.Every
        (fun c =>
          Aligned style style' c ∧
            style.units c = style'.units c)
        (fun n =>
          (∀ c ∈ style.number n, Numeric c) ∧
            ∀ c ∈ style'.number n, Numeric c)) :
    ∀ rest rest', Ends rest → Ends rest' →
      style.write v ++ rest = style'.write v ++ rest' →
      v.Every (fun c => style.escape c = style'.escape c)
          (fun n => style.number n = style'.number n) ∧
        rest = rest' := by
  induction v using JsonValue.induction_on with
  | null =>
      intro rest rest' _ _ hSame
      exact ⟨trivial, List.append_cancel_left hSame⟩
  | bool b =>
      intro rest rest' _ _ hSame
      cases b <;>
        exact ⟨trivial, List.append_cancel_left hSame⟩
  | int n =>
      intro rest rest' hRest hRest' hSame
      exact number_append_inj hEvery.1 hEvery.2 hRest hRest'
        hSame
  | str s =>
      intro rest rest' _ _ hSame
      exact quote_append_inj (fun c hC => (hEvery c hC).1)
        hSame
  | arr items ih =>
      intro rest rest' _ _ hSame
      rw [JsonValue.every_arr] at hEvery ⊢
      rw [write_arr, write_arr] at hSame
      simp only [List.cons_append, List.append_assoc,
        List.cons.injEq, true_and] at hSame
      exact commaJoin_append_inj (by decide)
        (fun v hV => ih v hV (hEvery v hV)) hSame
  | map fields ih =>
      intro rest rest' _ _ hSame
      rw [JsonValue.every_map] at hEvery ⊢
      have hSorted :
          style.sortByKey fields = style'.sortByKey fields := by
        apply sortByKey_congr
        intro field hField c hC
        exact ((hEvery field hField).1 c hC).2
      rw [write_map, write_map, ← hSorted] at hSame
      simp only [List.cons_append, List.append_assoc,
        List.cons.injEq, true_and] at hSame
      have hBoth :
          (∀ field ∈ style.sortByKey fields,
            (∀ c ∈ field.1.toList,
              style.escape c = style'.escape c) ∧
            field.2.Every
              (fun c => style.escape c = style'.escape c)
              (fun n => style.number n = style'.number n)) ∧
            rest = rest' := by
        refine commaJoin_append_inj (by decide) ?_ hSame
        intro field hField rest rest' hRest hRest' hSame
        have hField := mem_sortByKey.mp hField
        obtain ⟨hKey, hValue⟩ := hEvery field hField
        unfold writeField member at hSame
        rw [List.append_assoc, List.append_assoc] at hSame
        obtain ⟨hKey, hTexts⟩ :=
          quote_append_inj (fun c hC => (hKey c hC).1) hSame
        obtain ⟨hValue, hRests⟩ :=
          ih field hField hValue rest rest' hRest hRest'
            (List.cons_eq_cons.mp hTexts).2
        exact ⟨⟨hKey, hValue⟩, hRests⟩
      exact ⟨fun field hField =>
        hBoth.1 field (mem_sortByKey.mpr hField), hBoth.2⟩

/-
  Encoders whose escapes are aligned write the same text only
  if they agree on every character and integer of the value.
-/
theorem write_inj
    {v : JsonValue}
    (hEvery :
      v.Every
        (fun c =>
          Aligned style style' c ∧
            style.units c = style'.units c)
        (fun n =>
          (∀ c ∈ style.number n, Numeric c) ∧
            ∀ c ∈ style'.number n, Numeric c))
    (hSame : style.write v = style'.write v) :
    v.Every (fun c => style.escape c = style'.escape c)
      (fun n => style.number n = style'.number n) := by
  refine (write_append_inj hEvery [] [] nofun nofun ?_).1
  rw [hSame]

end JsonStyle

end Data

end IcpHandler
