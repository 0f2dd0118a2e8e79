import Mathlib.Data.List.Nodup
import Mathlib.Data.String.Basic
import IcpHandler.Model.Json

/-
  How serde writes a struct as a JSON value and reads one
  back. The members of an object are in the order of their
  keys, as `serde_json::Value` keeps them. A struct names each
  member once; a member can be skipped, and an absent member
  can have a default.

  Main declarations:
    * `Json.Plain`
    * `Members`, `Members.toJson`
    * `required`, `optional`, `defaulted`
    * `elements`, `named`
-/

------------------------------------------------------------
-- Values of the Wire
------------------------------------------------------------

namespace IcpHandler

namespace Model

namespace Json

mutual

/-
  A value without floating point: its integers are those of a
  64-bit number and the keys of its objects are in order.
-/
def Plain : Json → Prop
  | .null => True
  | .bool _ => True
  | .int n => -9223372036854775808 ≤ n ∧ n < 18446744073709551616
  | .float _ => False
  | .str _ => True
  | .arr items => PlainItems items
  | .obj fields =>
      (fields.map Prod.fst).Pairwise (· < ·) ∧
        PlainFields fields

def PlainItems : List Json → Prop
  | [] => True
  | item :: rest => item.Plain ∧ PlainItems rest

def PlainFields : List (String × Json) → Prop
  | [] => True
  | (_, value) :: rest => value.Plain ∧ PlainFields rest

end

@[simp] theorem plain_str
    (text : String) : (str text).Plain :=
  trivial

@[simp] theorem plain_null : null.Plain :=
  trivial

@[simp] theorem plain_arr
    {items : List Json} :
    (arr items).Plain ↔ ∀ item ∈ items, item.Plain := by
  rw [Plain]
  induction items with
  | nil => simp [PlainItems]
  | cons item rest ih => simp [PlainItems, ih]

@[simp] theorem plain_obj
    {fields : List (String × Json)} :
    (obj fields).Plain ↔
      (fields.map Prod.fst).Pairwise (· < ·) ∧
        ∀ field ∈ fields, field.2.Plain := by
  have hFields :
      PlainFields fields ↔
        ∀ field ∈ fields, field.2.Plain := by
    induction fields with
    | nil => simp [PlainFields]
    | cons field rest ih => simp [PlainFields, ih]
  rw [Plain, hFields]

@[simp] theorem plain_ofI64
    (value : Int64) : (ofI64 value).Plain := by
  have hLow := value.le_toInt
  have hHigh := value.toInt_lt
  unfold ofI64 Plain
  omega

@[simp] theorem plain_ofOption
    {α : Type}
    {render : α → Json}
    {found : Option α}
    (hRender : ∀ value, (render value).Plain) :
    (ofOption render found).Plain := by
  cases found with
  | none => trivial
  | some value => exact hRender value

@[simp] theorem asI64?_ofI64
    (value : Int64) : (ofI64 value).asI64? = some value := by
  have hLow := value.minValue_le_toInt
  have hHigh := value.toInt_le
  simp only [ofI64, asI64?]
  rw [if_pos ⟨hLow, hHigh⟩, Int64.ofInt_toInt]

/- An unsigned 32-bit number. -/
def ofU32 (value : UInt32) : Json :=
  .int value.toNat

/- A number that fits into 32 bits without a sign. -/
def asU32? : Json → Option UInt32
  | .int value =>
      if 0 ≤ value ∧ value < 4294967296 then
        some (UInt32.ofNat value.toNat)
      else none
  | _ => none

@[simp] theorem plain_ofU32
    (value : UInt32) : (ofU32 value).Plain := by
  have hBound := value.toNat_lt
  unfold ofU32 Plain
  omega

@[simp] theorem asU32?_ofU32
    (value : UInt32) : (ofU32 value).asU32? = some value := by
  have hBound := value.toNat_lt
  have hFits :
      (0 : Int) ≤ value.toNat ∧
        (value.toNat : Int) < 4294967296 := by
    omega
  simp only [ofU32, asU32?]
  rw [if_pos hFits, Int.toNat_natCast, UInt32.ofNat_toNat]

end Json

end Model

end IcpHandler

------------------------------------------------------------
-- Members
------------------------------------------------------------

namespace IcpHandler

namespace Model

/-
  What a struct is written as: a value for each name, or none
  where `skip_serializing_if` leaves the member out.
-/
structure Members where
  fields : List (String × Option Json)
  sorted : (fields.map Prod.fst).Pairwise (· < ·)

namespace Members

variable {members : Members}

/- The members that are there. -/
def present (members : Members) : List (String × Json) :=
  members.fields.filterMap fun field =>
    field.2.map fun value => (field.1, value)

/- `serde_json::to_value` of the struct. -/
def toJson (members : Members) : Json :=
  .obj members.present

theorem toJson_ne_null
    (members : Members) : members.toJson ≠ .null :=
  nofun

theorem names_nodup
    (members : Members) :
    (members.fields.map Prod.fst).Nodup :=
  members.sorted.imp fun hLt => ne_of_lt hLt

/- An object has what its struct has under a name. -/
theorem get?_toJson
    {name : String}
    {value : Option Json}
    (hField : members.fields.lookup name = some value) :
    members.toJson.get? name = value := by
  have hNames := members.names_nodup
  unfold toJson Json.get? present
  revert hField hNames
  generalize members.fields = fields
  intro hField hNames
  induction fields with
  | nil => cases hField
  | cons field rest ih =>
      rcases field with ⟨other, found⟩
      rw [List.map_cons, List.nodup_cons] at hNames
      by_cases hSame : name = other
      · subst hSame
        rw [List.lookup_cons_self] at hField
        cases hField
        cases value with
        | some value => simp
        | none =>
            -- a skipped name is no other member's name
            simp only [Option.map_none,
              List.filterMap_cons_none]
            rw [List.lookup_eq_none_iff]
            intro present hPresent
            obtain ⟨member, hMember, hMap⟩ :=
              List.mem_filterMap.mp hPresent
            obtain ⟨value, _, rfl⟩ :=
              Option.map_eq_some_iff.mp hMap
            have hOther : name ≠ member.1 := by
              rintro rfl
              exact hNames.1
                (List.mem_map.mpr ⟨member, hMember, rfl⟩)
            simpa using hOther
      · have hNe : (name == other) = false := by simpa using hSame
        rw [List.lookup_cons, hNe] at hField
        have hRest := ih hField hNames.2
        cases found with
        | none => simpa using hRest
        | some found => simpa [List.lookup_cons, hNe] using hRest

/- A struct of plain members is plain. -/
theorem plain_toJson
    (hFields :
      ∀ field ∈ members.fields, ∀ value,
        field.2 = some value → value.Plain) :
    members.toJson.Plain := by
  unfold toJson
  rw [Json.plain_obj]
  constructor
  · have hNames :
        (members.present.map Prod.fst).Sublist
          (members.fields.map Prod.fst) := by
      unfold present
      generalize members.fields = fields
      induction fields with
      | nil => exact .slnil
      | cons field rest ih =>
          rcases field with ⟨name, found⟩
          cases found with
          | none => exact ih.cons name
          | some value => exact ih.cons_cons name
    exact members.sorted.sublist hNames
  · intro present hPresent
    obtain ⟨field, hField, hMap⟩ :=
      List.mem_filterMap.mp hPresent
    obtain ⟨value, hValue, rfl⟩ := Option.map_eq_some_iff.mp hMap
    exact hFields field hField value hValue

end Members

end Model

end IcpHandler

------------------------------------------------------------
-- Readers
------------------------------------------------------------

namespace IcpHandler

namespace Model

section Readers

variable {α : Type}
variable {members : Members}
variable {name : String}
variable {read : Json → Option α}
variable {write : α → Json}

/- A member that has to be there. -/
def required
    (name : String)
    (read : Json → Option α)
    (json : Json) : Option α :=
  (json.get? name).bind read

/- An `Option`: an absent member and a `null` are `None`. -/
def optional
    (name : String)
    (read : Json → Option α)
    (json : Json) : Option (Option α) :=
  match json.get? name with
  | none => some none
  | some .null => some none
  | some value => (read value).map some

/- A member under `#[serde(default)]`. -/
def defaulted
    (name : String)
    (read : Json → Option α)
    (default : α)
    (json : Json) : Option α :=
  match json.get? name with
  | none => some default
  | some value => read value

/- A `Vec`. -/
def elements
    (read : Json → Option α)
    (json : Json) : Option (List α) :=
  json.asArray?.bind fun values => values.mapM read

/- A unit variant, by its name. -/
def named
    (variants : List α)
    (wireName : α → String)
    (json : Json) : Option α :=
  json.asStr?.bind fun text =>
    variants.find? fun variant => wireName variant == text

theorem required_toJson
    {value : Json}
    {found : α}
    (hField :
      members.fields.lookup name = some (some value))
    (hRead : read value = some found) :
    required name read members.toJson = some found := by
  unfold required
  rw [Members.get?_toJson hField, Option.bind_some, hRead]

theorem defaulted_toJson
    {value : Json}
    {found default : α}
    (hField :
      members.fields.lookup name = some (some value))
    (hRead : read value = some found) :
    defaulted name read default members.toJson =
      some found := by
  unfold defaulted
  rw [Members.get?_toJson hField]
  exact hRead

theorem optional_present
    {json : Json}
    {found : α}
    (hThere : json.get? name = some (write found))
    (hRead : read (write found) = some found)
    (hNotNull : write found ≠ .null) :
    optional name read json = some (some found) := by
  unfold optional
  rw [hThere]
  split
  · rename_i hNone
    cases hNone
  · rename_i hNull
    exact absurd (Option.some.inj hNull) hNotNull
  · rename_i other _ hOther
    cases hOther
    rw [hRead, Option.map_some]

/- An `Option` that is skipped where it is `None`. -/
theorem optional_skipped
    {found : Option α}
    (hField :
      members.fields.lookup name = some (found.map write))
    (hRead : ∀ value, read (write value) = some value)
    (hNotNull : ∀ value, write value ≠ .null) :
    optional name read members.toJson = some found := by
  have hGet := Members.get?_toJson hField
  cases found with
  | none => rw [optional, hGet, Option.map_none]
  | some value =>
      exact optional_present hGet (hRead value)
        (hNotNull value)

/- An `Option` that is written as `null` where it is `None`. -/
theorem optional_nullable
    {found : Option α}
    (hField :
      members.fields.lookup name =
        some (some (Json.ofOption write found)))
    (hRead : ∀ value, read (write value) = some value)
    (hNotNull : ∀ value, write value ≠ .null) :
    optional name read members.toJson = some found := by
  have hGet := Members.get?_toJson hField
  cases found with
  | none => rw [optional, hGet, Json.ofOption]
  | some value =>
      exact optional_present hGet (hRead value)
        (hNotNull value)

/- What was written one by one is read one by one. -/
theorem mapM_map
    {β : Type}
    {put : α → β}
    {get : β → Option α}
    (hRead : ∀ value, get (put value) = some value)
    (values : List α) :
    (values.map put).mapM get = some values := by
  induction values with
  | nil => rfl
  | cons value rest ih =>
      rw [List.map_cons, List.mapM_cons, hRead, ih]
      rfl

theorem elements_arr
    (hRead : ∀ value, read (write value) = some value)
    (values : List α) :
    elements read (.arr (values.map write)) = some values :=
  mapM_map hRead values

/- What has been read is handed on. -/
theorem read_then
    {β : Type}
    {found : Option α}
    {value : α}
    {next : α → Option β}
    {result : Option β}
    (hFound : found = some value)
    (hNext : next value = result) :
    (found >>= next) = result := by
  rw [hFound]
  exact hNext

theorem skipped_text
    {found : Option String}
    (hField :
      members.fields.lookup name =
        some (found.map Json.str)) :
    optional name Json.asStr? members.toJson = some found :=
  optional_skipped hField (fun _ => rfl) nofun

theorem nullable_text
    {found : Option String}
    (hField :
      members.fields.lookup name =
        some (some (Json.ofOption .str found))) :
    optional name Json.asStr? members.toJson = some found :=
  optional_nullable hField (fun _ => rfl) nofun

end Readers

end Model

end IcpHandler
