import Mathlib.Data.List.Dedup
import Mathlib.Data.List.Perm.Basic

/-
  Selecting rows by what is stored beside them. A row holds a
  value that can be read back, and other columns that a test
  can look at without reading it. The selection is exact when
  the test says of every row what its value says.

  Main declarations:
    * `Tells`
    * `select_eq_of_tells`
    * `select_perm_iff`, `select_perm_iff_silent`
    * `foldl_groups`
-/

------------------------------------------------------------
-- Tests on Rows
------------------------------------------------------------

namespace IcpHandler

namespace Data

variable {R V : Type}

/- The test says of every row what its value says. -/
def Tells
    (read : R → Option V)
    (test : R → Bool)
    (due : V → Bool)
    (rows : List R) : Prop :=
  ∀ row ∈ rows, ∀ value, read row = some value →
    test row = due value

/- The test selects no row whose value is not due. -/
def Sound
    (read : R → Option V)
    (test : R → Bool)
    (due : V → Bool)
    (rows : List R) : Prop :=
  ∀ row ∈ rows, ∀ value, read row = some value →
    test row = true → due value = true

/- The test selects every row whose value is due. -/
def Complete
    (read : R → Option V)
    (test : R → Bool)
    (due : V → Bool)
    (rows : List R) : Prop :=
  ∀ row ∈ rows, ∀ value, read row = some value →
    due value = true → test row = true

variable {read : R → Option V}
variable {test : R → Bool}
variable {due : V → Bool}

theorem tells_iff (rows : List R) :
    Tells read test due rows ↔
      Sound read test due rows ∧
        Complete read test due rows := by
  constructor
  · intro hTells
    constructor
    · intro row hRow value hRead hTest
      rw [← hTells row hRow value hRead]
      exact hTest
    · intro row hRow value hRead hDue
      rw [hTells row hRow value hRead]
      exact hDue
  · rintro ⟨hSound, hComplete⟩ row hRow value hRead
    rw [Bool.eq_iff_iff]
    exact ⟨hSound row hRow value hRead,
      hComplete row hRow value hRead⟩

/-
  Selecting by a test that tells is reading every row and
  keeping the values that are due.
-/
theorem select_eq_of_tells
    {rows : List R}
    (hTells : Tells read test due rows) :
    (rows.filter test).filterMap read =
      (rows.filterMap read).filter due := by
  induction rows with
  | nil => rfl
  | cons row rows ih =>
      have hRest :
          (rows.filter test).filterMap read =
            (rows.filterMap read).filter due :=
        ih fun other hOther =>
          hTells other (List.mem_cons_of_mem _ hOther)
      cases hRead : read row with
      | none =>
          cases hTest : test row with
          | false => simp [hRead, hTest, hRest]
          | true => simp [hRead, hTest, hRest]
      | some value =>
          have hSame :=
            hTells row List.mem_cons_self value hRead
          cases hTest : test row with
          | false =>
              rw [hTest] at hSame
              simp [hRead, hTest, hRest, ← hSame]
          | true =>
              rw [hTest] at hSame
              simp [hRead, hTest, hRest, ← hSame]

/-
  A sound selection finds at most what is due, and it is
  complete when it finds as much. By induction on the rows.
-/
theorem select_length
    {rows : List R}
    (hSound : Sound read test due rows) :
    ((rows.filter test).filterMap read).length ≤
        ((rows.filterMap read).filter due).length ∧
      (((rows.filter test).filterMap read).length =
          ((rows.filterMap read).filter due).length →
        Complete read test due rows) := by
  induction rows with
  | nil =>
      refine ⟨Nat.le_refl 0, ?_⟩
      intro _ row hRow
      cases hRow
  | cons row rows ih =>
      obtain ⟨hLe, hComplete⟩ := ih fun other hOther =>
        hSound other (List.mem_cons_of_mem _ hOther)
      have hHead := hSound row List.mem_cons_self
      have hCons :
          (∀ value, read row = some value →
              due value = true → test row = true) →
            Complete read test due rows →
            Complete read test due (row :: rows) := by
        intro hRow hRows other hOther
        rcases List.mem_cons.mp hOther with rfl | hLater
        · exact hRow
        · exact hRows other hLater
      cases hRead : read row with
      | none =>
          have hNothing :
              ((row :: rows).filter test).filterMap read =
                (rows.filter test).filterMap read := by
            cases hTest : test row with
            | false => simp [hTest]
            | true => simp [hTest, hRead]
          rw [hNothing, List.filterMap_cons_none hRead]
          refine ⟨hLe, fun hLength => ?_⟩
          refine hCons ?_ (hComplete hLength)
          intro value hValue
          rw [hRead] at hValue
          cases hValue
      | some value =>
          rw [List.filterMap_cons_some hRead]
          cases hTest : test row with
          | true =>
              have hDue := hHead value hRead hTest
              rw [List.filter_cons_of_pos hTest,
                List.filterMap_cons_some hRead,
                List.filter_cons_of_pos hDue,
                List.length_cons, List.length_cons]
              refine ⟨by omega, fun hLength => ?_⟩
              refine hCons (fun _ _ _ => hTest)
                (hComplete ?_)
              omega
          | false =>
              have hSkip : ¬ test row = true := by
                rw [hTest]
                exact Bool.false_ne_true
              rw [List.filter_cons_of_neg hSkip]
              cases hDue : due value with
              | false =>
                  have hNot : ¬ due value = true := by
                    rw [hDue]
                    exact Bool.false_ne_true
                  rw [List.filter_cons_of_neg hNot]
                  refine ⟨hLe, fun hLength => ?_⟩
                  refine hCons ?_ (hComplete hLength)
                  intro other hOther hOtherDue
                  rw [hRead] at hOther
                  cases hOther
                  exact absurd hOtherDue hNot
              | true =>
                  rw [List.filter_cons_of_pos hDue,
                    List.length_cons]
                  constructor
                  · omega
                  · intro hLength
                    omega

/- A sound selection is exact when it is complete. -/
theorem select_perm_iff
    {rows : List R}
    (hSound : Sound read test due rows) :
    ((rows.filter test).filterMap read).Perm
        ((rows.filterMap read).filter due) ↔
      Complete read test due rows := by
  constructor
  · intro hPerm
    exact (select_length hSound).2 hPerm.length_eq
  · intro hComplete
    have hTells : Tells read test due rows :=
      (tells_iff rows).mpr ⟨hSound, hComplete⟩
    rw [select_eq_of_tells hTells]

/-
  Where the test says nothing of the silent rows and is right
  about the others, it misses the silent rows that are due.
-/
theorem select_perm_iff_silent
    {silent : R → Prop}
    {rows : List R}
    (hRows :
      ∀ row ∈ rows, ∀ value, read row = some value →
        (¬ silent row ∧ test row = due value) ∨
          (silent row ∧ test row = false)) :
    ((rows.filter test).filterMap read).Perm
        ((rows.filterMap read).filter due) ↔
      ∀ row ∈ rows, ∀ value, read row = some value →
        silent row → due value = false := by
  have hSound : Sound read test due rows := by
    intro row hRow value hRead hTest
    rcases hRows row hRow value hRead with
      ⟨_, hTells⟩ | ⟨_, hFalse⟩
    · rw [← hTells]
      exact hTest
    · rw [hFalse] at hTest
      cases hTest
  rw [select_perm_iff hSound]
  constructor
  · intro hComplete row hRow value hRead hSilent
    cases hDue : due value with
    | false => rfl
    | true =>
        have hTest := hComplete row hRow value hRead hDue
        rcases hRows row hRow value hRead with
          ⟨hSpeaks, _⟩ | ⟨_, hFalse⟩
        · exact absurd hSilent hSpeaks
        · rw [hFalse] at hTest
          cases hTest
  · intro hMissed row hRow value hRead hDue
    rcases hRows row hRow value hRead with
      ⟨_, hTells⟩ | ⟨hSilent, _⟩
    · rw [hTells]
      exact hDue
    · rw [hMissed row hRow value hRead hSilent] at hDue
      cases hDue

end Data

end IcpHandler

------------------------------------------------------------
-- Groups
------------------------------------------------------------

namespace IcpHandler

namespace Data

variable {K : Type} [DecidableEq K]

/- The distinct keys of a list, each with its count. -/
def groups (keys : List K) : List (K × Nat) :=
  keys.dedup.map fun key => (key, keys.count key)

/-
  Go through the groups of a list, where each group sets the
  field of its own key. In the end a field holds the count of
  its key, or what it held before, if the key does not occur.
-/
theorem foldl_groups
    {S : Type}
    {key : K}
    {field : S → Nat}
    {set : S → K × Nat → S}
    (hSet :
      ∀ state group,
        field (set state group) =
          if group.1 = key then group.2 else field state)
    (keys : List K)
    {state : S}
    (hBlank : field state = 0) :
    field ((groups keys).foldl set state) =
      keys.count key := by
  have hFold :
      ∀ (names : List K) (count : K → Nat) (start : S),
        names.Nodup →
        field ((names.map fun name =>
            (name, count name)).foldl set start) =
          if key ∈ names then count key else field start := by
    intro names count
    induction names with
    | nil => simp
    | cons name names ih =>
        intro start hNodup
        obtain ⟨hNew, hRest⟩ := List.nodup_cons.mp hNodup
        rw [List.map_cons, List.foldl_cons, ih _ hRest, hSet]
        by_cases hName : name = key
        · subst hName
          simp [hNew]
        · have hOther : key ≠ name := Ne.symm hName
          simp [hName, hOther]
  unfold groups
  rw [hFold _ _ _ keys.nodup_dedup, hBlank]
  split
  · rfl
  · rename_i hNot
    rw [List.mem_dedup] at hNot
    exact (List.count_eq_zero.mpr hNot).symm

end Data

end IcpHandler
