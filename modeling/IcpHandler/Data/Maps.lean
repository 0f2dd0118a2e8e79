import Mathlib.Data.List.AList

/-
  Keeping only some of the entries of a map, the image of a
  map under a function of its values, changing all of its
  values, and searching them.

  Main declarations:
    * `retain`, `lookup_retain`
    * `image`, `lookup_image`, `image_insert`, `image_retain`
    * `mapValues`, `lookup_mapValues`
    * `foldl_scan`, `find?_values`
-/

------------------------------------------------------------
-- Retaining Entries
------------------------------------------------------------

namespace IcpHandler

namespace Data

variable {K V : Type}

/- The entries whose value satisfies the test. -/
def retain
    (keep : V → Bool)
    (rows : AList fun _ : K => V) : AList fun _ : K => V :=
  ⟨rows.entries.filter fun entry => keep entry.2,
    rows.nodupKeys.sublist List.filter_sublist⟩

/- Tests that agree on the values keep the same entries. -/
theorem retain_congr
    {keep keep' : V → Bool}
    {rows : AList fun _ : K => V}
    (hSame :
      ∀ entry ∈ rows.entries,
        keep entry.2 = keep' entry.2) :
    retain keep rows = retain keep' rows :=
  AList.ext (List.filter_congr hSame)

/- A lookup sees the entries that were kept. -/
theorem lookup_retain
    [DecidableEq K]
    (keep : V → Bool)
    (rows : AList fun _ : K => V)
    (id : K) :
    (retain keep rows).lookup id =
      (rows.lookup id).filter keep := by
  refine Option.ext fun value => ?_
  have hKept :
      (retain keep rows).lookup id = some value ↔
        ⟨id, value⟩ ∈ rows.entries ∧ keep value = true := by
    rw [← Option.mem_def, AList.mem_lookup_iff]
    simp [retain, List.mem_filter]
  rw [hKept, ← AList.mem_lookup_iff, Option.mem_def,
    Option.filter_eq_some_iff]

end Data

end IcpHandler

------------------------------------------------------------
-- Images
------------------------------------------------------------

namespace IcpHandler

namespace Data

variable {K V W : Type}

/- The map of what the values are written as. -/
def image
    (f : V → W)
    (rows : AList fun _ : K => V) : AList fun _ : K => W :=
  ⟨rows.entries.map fun entry => ⟨entry.1, f entry.2⟩, by
    have hKeys :
        (rows.entries.map fun entry =>
          (⟨entry.1, f entry.2⟩ : (_ : K) × W)).keys =
          rows.entries.keys := by
      simp [List.keys, Function.comp_def]
    unfold List.NodupKeys
    rw [hKeys]
    exact rows.nodupKeys⟩

/- A map and its image have the same number of entries. -/
theorem length_image
    (f : V → W)
    (rows : AList fun _ : K => V) :
    (image f rows).entries.length = rows.entries.length :=
  List.length_map _

/- Keeping by the written value is keeping before writing. -/
theorem image_retain
    {keep : V → Bool}
    {keepWritten : W → Bool}
    (f : V → W)
    (rows : AList fun _ : K => V)
    (hSame :
      ∀ entry ∈ rows.entries,
        keepWritten (f entry.2) = keep entry.2) :
    retain keepWritten (image f rows) =
      image f (retain keep rows) := by
  refine AList.ext ?_
  simp only [retain, image, List.filter_map]
  refine congrArg _ (List.filter_congr ?_)
  intro entry hMem
  exact hSame entry hMem

variable [DecidableEq K]

theorem lookup_image
    (f : V → W)
    (rows : AList fun _ : K => V)
    (id : K) :
    (image f rows).lookup id = (rows.lookup id).map f := by
  refine Option.ext fun value => ?_
  have hImage :
      (image f rows).lookup id = some value ↔
        ∃ old, ⟨id, old⟩ ∈ rows.entries ∧ f old = value := by
    rw [← Option.mem_def, AList.mem_lookup_iff]
    simp only [image, List.mem_map]
    constructor
    · rintro ⟨⟨key, old⟩, hMem, hEntry⟩
      cases hEntry
      exact ⟨old, hMem, rfl⟩
    · rintro ⟨old, hMem, rfl⟩
      exact ⟨⟨id, old⟩, hMem, rfl⟩
  rw [hImage, Option.map_eq_some_iff]
  constructor
  · rintro ⟨old, hMem, hValue⟩
    exact ⟨old, AList.mem_lookup_iff.mpr hMem, hValue⟩
  · rintro ⟨old, hLookup, hValue⟩
    exact ⟨old, AList.mem_lookup_iff.mp hLookup, hValue⟩

private theorem kerase_image
    (f : V → W)
    (id : K)
    (entries : List ((_ : K) × V)) :
    (entries.map fun entry =>
        (⟨entry.1, f entry.2⟩ : (_ : K) × W)).kerase id =
      (entries.kerase id).map fun entry =>
        ⟨entry.1, f entry.2⟩ := by
  unfold List.kerase
  rw [List.eraseP_map]
  rfl

theorem image_erase
    (f : V → W)
    (rows : AList fun _ : K => V)
    (id : K) :
    (image f rows).erase id = image f (rows.erase id) := by
  refine AList.ext ?_
  exact kerase_image f id rows.entries

theorem image_insert
    (f : V → W)
    (rows : AList fun _ : K => V)
    (id : K)
    (value : V) :
    (image f rows).insert id (f value) =
      image f (rows.insert id value) := by
  have hErased :
      (image f rows).entries.kerase id =
        (rows.entries.kerase id).map fun entry =>
          ⟨entry.1, f entry.2⟩ :=
    kerase_image f id rows.entries
  refine AList.ext ?_
  simp only [AList.entries_insert, image, List.map_cons]
  exact congrArg _ hErased

end Data

end IcpHandler

------------------------------------------------------------
-- Changing Values
------------------------------------------------------------

namespace IcpHandler

namespace Data

variable {K V : Type}

/- The map with a function applied to every value. -/
def mapValues
    (f : V → V)
    (rows : AList fun _ : K => V) : AList fun _ : K => V :=
  ⟨rows.entries.map fun entry => ⟨entry.1, f entry.2⟩, by
    have hKeys :
        (rows.entries.map fun entry =>
          (⟨entry.1, f entry.2⟩ : (_ : K) × V)).keys =
          rows.entries.keys := by
      simp [List.keys, Function.comp_def]
    unfold List.NodupKeys
    rw [hKeys]
    exact rows.nodupKeys⟩

/- A lookup sees the changed value. -/
theorem lookup_mapValues
    [DecidableEq K]
    (f : V → V)
    (rows : AList fun _ : K => V)
    (id : K) :
    (mapValues f rows).lookup id = (rows.lookup id).map f :=
  lookup_image f rows id

end Data

end IcpHandler

------------------------------------------------------------
-- Searching Values
------------------------------------------------------------

namespace IcpHandler

namespace Data

variable {K V : Type}

/- A scan that goes on to the end finds the last match. -/
theorem foldl_scan
    (test : V → Bool)
    (values : List V)
    (found : Option V) :
    values.foldl
        (fun found value =>
          if test value then some value else found) found =
      (values.reverse.find? test).or found := by
  induction values generalizing found with
  | nil => rfl
  | cons value values ih =>
      rw [List.foldl_cons, ih, List.reverse_cons,
        List.find?_append]
      cases hRest : values.reverse.find? test with
      | some other => rfl
      | none =>
          rw [Option.none_or, Option.none_or]
          cases hTest : test value with
          | true => simp [hTest]
          | false => simp [hTest]

/-
  The values of a map that know their own keys, in any order,
  are searched as the map is.
-/
theorem find?_values
    [DecidableEq K]
    (keyOf : V → K)
    {rows : AList fun _ : K => V}
    (hKeyed :
      ∀ name value, rows.lookup name = some value →
        keyOf value = name)
    {values : List V}
    (hPerm : values.Perm (rows.entries.map Sigma.snd))
    (name : K) :
    (values.find? fun value => keyOf value == name) =
      rows.lookup name := by
  have hMem :
      ∀ value, value ∈ values ↔
        rows.lookup (keyOf value) = some value := by
    intro value
    rw [hPerm.mem_iff, List.mem_map]
    constructor
    · rintro ⟨⟨own, other⟩, hEntry, rfl⟩
      have hLookup := AList.mem_lookup_iff.mpr hEntry
      rw [hKeyed own other hLookup]
      exact hLookup
    · intro hLookup
      exact ⟨⟨keyOf value, value⟩,
        AList.mem_lookup_iff.mp hLookup, rfl⟩
  cases hLookup : rows.lookup name with
  | none =>
      rw [List.find?_eq_none]
      intro value hValue hSame
      rw [hMem, beq_iff_eq.mp hSame, hLookup] at hValue
      cases hValue
  | some value =>
      have hKey := hKeyed name value hLookup
      cases hFound :
          values.find? fun value => keyOf value == name with
      | none =>
          exfalso
          rw [List.find?_eq_none] at hFound
          apply hFound value
          · rw [hMem, hKey]
            exact hLookup
          · exact beq_iff_eq.mpr hKey
      | some other =>
          have hOther := (hMem other).mp
            (List.mem_of_find?_eq_some hFound)
          have hSame := List.find?_some hFound
          rw [beq_iff_eq.mp hSame, hLookup] at hOther
          exact hOther.symm

end Data

end IcpHandler
