import Mathlib.Data.List.Count
import Mathlib.Data.List.Sort
import Mathlib.Data.Prod.Lex

/-
  The newest of a list of values, and pages of a ranking. A
  ranking lists rows by a key, the greatest first, and leaves
  open how rows of one key follow each other. Its first rows
  are a page. The page is taken by the key and presented by a
  time, which may differ.

  Main declarations:
    * `newestOf`, `IsNewest`
    * `isNewest_take`, `IsNewest.widen_iff`
    * `isNewest_newestOf`, `isNewest_newestOf_iff`
    * `Descending`, `above`, `notBelow`
    * `exists_page`
    * `every_page_isNewest_iff`
-/

------------------------------------------------------------
-- The Newest Values
------------------------------------------------------------

namespace IcpHandler

namespace Data

section Newest

variable {V T : Type} [LinearOrder T]

/- The first of the values after a stable sort by time. -/
def newestOf
    (time : V → T)
    (limit : Nat)
    (values : List V) : List V :=
  (values.insertionSort fun first second =>
    time second ≤ time first).take limit

/- The result is as many of the newest values as it may be. -/
structure IsNewest
    (time : V → T)
    (limit : Nat)
    (values result : List V) : Prop where
  nodup : result.Nodup
  subset : result ⊆ values
  length : result.length = min limit values.length
  newest :
    ∀ shown ∈ result, ∀ missed ∈ values, missed ∉ result →
      time missed ≤ time shown
  sorted :
    result.Pairwise fun first second =>
      time second ≤ time first

variable {time : V → T}
variable {limit : Nat}
variable {values page : List V}

private theorem sorted_by (time : V → T) (values : List V) :
    (values.insertionSort fun first second =>
      time second ≤ time first).Pairwise fun first second =>
        time second ≤ time first :=
  haveI : Std.Total fun first second : V =>
      time second ≤ time first :=
    ⟨fun first second => le_total (time second) (time first)⟩
  haveI : IsTrans V fun first second =>
      time second ≤ time first :=
    ⟨fun _ _ _ hFirst hSecond => hSecond.trans hFirst⟩
  List.pairwise_insertionSort _ values

theorem newestOf_subset : newestOf time limit values ⊆ values := by
  intro value hValue
  unfold newestOf at hValue
  exact (List.mem_insertionSort _).mp
    (List.mem_of_mem_take hValue)

theorem newestOf_sorted :
    (newestOf time limit values).Pairwise fun first second =>
      time second ≤ time first :=
  (sorted_by time values).sublist (List.take_sublist _ _)

theorem newestOf_perm
    (hFits : page.length ≤ limit) :
    (newestOf time limit page).Perm page := by
  unfold newestOf
  rw [List.take_of_length_le]
  · exact List.perm_insertionSort _ page
  · rw [List.length_insertionSort]
    exact hFits

/- The first of the values in order are the newest. -/
theorem isNewest_take
    {ranked : List V}
    (hPerm : ranked.Perm values)
    (hNodup : values.Nodup)
    (hRanked :
      ranked.Pairwise fun first second =>
        time second ≤ time first) :
    IsNewest time limit values (ranked.take limit) where
  nodup :=
    (hPerm.nodup_iff.mpr hNodup).sublist
      (List.take_sublist _ _)
  subset := fun _ hValue =>
    hPerm.mem_iff.mp (List.mem_of_mem_take hValue)
  length := by rw [List.length_take, hPerm.length_eq]
  newest := by
    intro shown hShown missed hMissed hOut
    rw [← List.take_append_drop limit ranked,
      List.pairwise_append] at hRanked
    have hMember := hPerm.mem_iff.mpr hMissed
    rw [← List.take_append_drop limit ranked] at hMember
    have hDropped :=
      (List.mem_append.mp hMember).resolve_left hOut
    exact hRanked.2.2 shown hShown missed hDropped
  sorted := hRanked.sublist (List.take_sublist _ _)

/- Sorting all values finds the newest. -/
theorem isNewest_newestOf
    {gathered : List V}
    (hPerm : gathered.Perm values)
    (hNodup : values.Nodup) :
    IsNewest time limit values
      (newestOf time limit gathered) :=
  isNewest_take
    ((List.perm_insertionSort _ gathered).trans hPerm) hNodup
    (sorted_by time gathered)

/-
  The newest of some values are the newest of all just if
  there are as many as there may be, and none of the values
  left aside is newer.
-/
theorem IsNewest.widen_iff
    {part result : List V}
    (hNewest : IsNewest time limit part result)
    (hPart : part ⊆ values) :
    IsNewest time limit values result ↔
      min limit part.length = min limit values.length ∧
        ∀ shown ∈ result, ∀ missed ∈ values, missed ∉ part →
          time missed ≤ time shown := by
  constructor
  · intro hAll
    constructor
    · rw [← hNewest.length]
      exact hAll.length
    · intro shown hShown missed hMissed hAside
      exact hAll.newest shown hShown missed hMissed
        (fun hIn => hAside (hNewest.subset hIn))
  · rintro ⟨hLength, hAside⟩
    constructor
    · exact hNewest.nodup
    · exact fun _ hValue => hPart (hNewest.subset hValue)
    · rw [hNewest.length]
      exact hLength
    · intro shown hShown missed hMissed hOut
      by_cases hIn : missed ∈ part
      · exact hNewest.newest shown hShown missed hIn hOut
      · exact hAside shown hShown missed hMissed hIn
    · exact hNewest.sorted

/-
  Sorting no more values than may be shown finds the newest
  just if these values are the newest.
-/
theorem isNewest_newestOf_iff
    (hFits : page.length ≤ limit)
    (hNodup : page.Nodup)
    (hSubset : page ⊆ values) :
    IsNewest time limit values (newestOf time limit page) ↔
      page.length = min limit values.length ∧
        ∀ shown ∈ page, ∀ missed ∈ values, missed ∉ page →
          time missed ≤ time shown := by
  have hPage :
      IsNewest time limit page (newestOf time limit page) :=
    isNewest_newestOf (List.Perm.refl page) hNodup
  have hPerm : (newestOf time limit page).Perm page :=
    newestOf_perm hFits
  rw [hPage.widen_iff hSubset, Nat.min_eq_right hFits]
  constructor
  · rintro ⟨hLength, hAside⟩
    refine ⟨hLength, fun shown hShown => ?_⟩
    exact hAside shown (hPerm.mem_iff.mpr hShown)
  · rintro ⟨hLength, hAside⟩
    refine ⟨hLength, fun shown hShown => ?_⟩
    exact hAside shown (hPerm.mem_iff.mp hShown)

/- Reading values one by one changes nothing about them. -/
theorem newestOf_map
    {R : Type}
    (read : R → V)
    (rows : List R) :
    newestOf time limit (rows.map read) =
      (newestOf (fun row => time (read row)) limit rows).map
        read := by
  have hSorted :
      (rows.insertionSort fun first second =>
          time (read second) ≤ time (read first)).map read =
        (rows.map read).insertionSort fun first second =>
          time second ≤ time first :=
    List.map_insertionSort _ _ read rows
      fun _ _ _ _ => Iff.rfl
  unfold newestOf
  rw [← hSorted, List.map_take]

theorem isNewest_map_iff
    {R : Type}
    {read : R → V}
    {rows result : List R}
    (hInj :
      ∀ first ∈ rows, ∀ second ∈ rows,
        read first = read second → first = second)
    (hSubset : result ⊆ rows) :
    IsNewest time limit (rows.map read) (result.map read) ↔
      IsNewest (fun row => time (read row)) limit rows
        result := by
  have hMem :
      ∀ row ∈ rows,
        (read row ∈ result.map read ↔ row ∈ result) := by
    intro row hRow
    constructor
    · intro hRead
      obtain ⟨other, hOther, hSame⟩ := List.mem_map.mp hRead
      rw [← hInj other (hSubset hOther) row hRow hSame]
      exact hOther
    · exact List.mem_map_of_mem
  constructor
  · intro hNewest
    constructor
    · exact hNewest.nodup.of_map read
    · exact hSubset
    · have hLength := hNewest.length
      rw [List.length_map, List.length_map] at hLength
      exact hLength
    · intro shown hShown missed hMissed hOut
      exact hNewest.newest (read shown)
        (List.mem_map_of_mem hShown) (read missed)
        (List.mem_map_of_mem hMissed)
        (fun hIn => hOut ((hMem missed hMissed).mp hIn))
    · exact List.pairwise_map.mp hNewest.sorted
  · intro hNewest
    constructor
    · exact hNewest.nodup.map_on fun first hFirst second
        hSecond => hInj first (hSubset hFirst) second
          (hSubset hSecond)
    · intro value hValue
      obtain ⟨row, hRow, rfl⟩ := List.mem_map.mp hValue
      exact List.mem_map_of_mem (hSubset hRow)
    · rw [List.length_map, List.length_map]
      exact hNewest.length
    · intro value hValue other hOther hOut
      obtain ⟨shown, hShown, rfl⟩ := List.mem_map.mp hValue
      obtain ⟨missed, hMissed, rfl⟩ := List.mem_map.mp hOther
      exact hNewest.newest shown hShown missed hMissed
        (fun hIn => hOut ((hMem missed hMissed).mpr hIn))
    · exact List.pairwise_map.mpr hNewest.sorted

end Newest

end Data

end IcpHandler

------------------------------------------------------------
-- Pages of a Ranking
------------------------------------------------------------

namespace IcpHandler

namespace Data

section Pages

variable {R K : Type} [LinearOrder K]

/- The rows stand by their keys, the greatest first. -/
def Descending (key : R → K) (rows : List R) : Prop :=
  rows.Pairwise fun first second => key second ≤ key first

/- The number of rows that come before the row in any ranking. -/
def above (key : R → K) (rows : List R) (row : R) : Nat :=
  rows.countP fun other => decide (key row < key other)

/- The number of rows that may come before it, with itself. -/
def notBelow (key : R → K) (rows : List R) (row : R) : Nat :=
  rows.countP fun other => decide (key row ≤ key other)

variable {key : R → K}
variable {rows ranked : List R}
variable {limit : Nat}

/- On a page there are fewer rows above than the page has. -/
theorem above_lt_of_mem_take
    (hPerm : ranked.Perm rows)
    (hRanked : Descending key ranked)
    {shown : R}
    (hShown : shown ∈ ranked.take limit) :
    above key rows shown < limit := by
  unfold Descending at hRanked
  rw [← List.take_append_drop limit ranked,
    List.pairwise_append] at hRanked
  have hDropped :
      (ranked.drop limit).countP
        (fun other => decide (key shown < key other)) = 0 := by
    rw [List.countP_eq_zero]
    intro other hOther
    have hLe := hRanked.2.2 shown hShown other hOther
    simpa using hLe
  have hTaken :
      (ranked.take limit).countP
          (fun other => decide (key shown < key other)) <
        (ranked.take limit).length := by
    rw [List.countP_lt_length_iff]
    exact ⟨shown, hShown, by simp⟩
  have hLength : (ranked.take limit).length ≤ limit :=
    List.length_take_le limit ranked
  unfold above
  rw [← hPerm.countP_eq, ← List.take_append_drop limit ranked,
    List.countP_append, hDropped]
  omega

/- Behind a page there are more rows not below than it has. -/
theorem lt_notBelow_of_notMem_take
    (hPerm : ranked.Perm rows)
    (hRanked : Descending key ranked)
    {missed : R}
    (hMissed : missed ∈ rows)
    (hOut : missed ∉ ranked.take limit) :
    limit < notBelow key rows missed := by
  unfold Descending at hRanked
  rw [← List.take_append_drop limit ranked,
    List.pairwise_append] at hRanked
  have hDropped : missed ∈ ranked.drop limit := by
    have hMember := hPerm.mem_iff.mpr hMissed
    rw [← List.take_append_drop limit ranked] at hMember
    exact (List.mem_append.mp hMember).resolve_left hOut
  have hFull : (ranked.take limit).length = limit := by
    have hLater := List.length_pos_of_mem hDropped
    rw [List.length_drop] at hLater
    rw [List.length_take]
    omega
  have hTaken :
      (ranked.take limit).countP
          (fun other => decide (key missed ≤ key other)) =
        (ranked.take limit).length := by
    rw [List.countP_eq_length]
    intro other hOther
    exact decide_eq_true
      (hRanked.2.2 other hOther missed hDropped)
  have hSelf :
      0 < (ranked.drop limit).countP
        (fun other => decide (key missed ≤ key other)) := by
    rw [List.countP_pos_iff]
    exact ⟨missed, hDropped, by simp⟩
  unfold notBelow
  rw [← hPerm.countP_eq, ← List.take_append_drop limit ranked,
    List.countP_append, hTaken, hFull]
  omega

/- One more value to count raises a count by one at most. -/
theorem countP_le_succ
    {few many : R → Bool}
    (extra : R)
    (hNodup : rows.Nodup)
    (hCases :
      ∀ row ∈ rows, many row = true →
        few row = true ∨ row = extra) :
    rows.countP many ≤ rows.countP few + 1 := by
  induction rows with
  | nil => exact Nat.zero_le _
  | cons row rows ih =>
      obtain ⟨hNew, hRest⟩ := List.nodup_cons.mp hNodup
      have hLater :
          ∀ other ∈ rows, many other = true →
            few other = true ∨ other = extra :=
        fun other hOther =>
          hCases other (List.mem_cons_of_mem _ hOther)
      by_cases hExtra : row = extra
      · -- The extra row does not come again.
        have hMono : rows.countP many ≤ rows.countP few := by
          refine List.countP_mono_left fun other hOther hMany => ?_
          refine (hLater other hOther hMany).resolve_right ?_
          intro hSame
          rw [hSame, ← hExtra] at hOther
          exact hNew hOther
        rw [List.countP_cons, List.countP_cons]
        split <;> split <;> omega
      · have hRows := ih hRest hLater
        rw [List.countP_cons, List.countP_cons]
        by_cases hMany : many row = true
        · have hFew :=
            (hCases row List.mem_cons_self hMany).resolve_right
              hExtra
          rw [if_pos hMany, if_pos hFew]
          omega
        · rw [if_neg hMany]
          omega

/-
  A row that is not forced off the page is on it in a ranking
  that has another row off the page, if that row is not forced
  onto it. The rows of one key are ranked by a second key that
  prefers the one and defers the other.
-/
theorem exists_page
    (hNodup : rows.Nodup)
    {shown missed : R}
    (hShown : shown ∈ rows)
    (hAbove : above key rows shown < limit)
    (hMissed : missed ∉ rows ∨ limit < notBelow key rows missed)
    (hNe : missed ≠ shown) :
    ∃ ranked : List R, ranked.Perm rows ∧
      Descending key ranked ∧ shown ∈ ranked.take limit ∧
      missed ∉ ranked.take limit := by
  classical
  let place : R → Nat := fun row =>
    if row = shown then 2 else if row = missed then 0 else 1
  let full : R → K ×ₗ Nat := fun row =>
    toLex (key row, place row)
  let ranked := rows.insertionSort fun first second =>
    full second ≤ full first
  have hPerm : ranked.Perm rows := List.perm_insertionSort _ rows
  have hFull : Descending full ranked := sorted_by full rows
  refine ⟨ranked, hPerm, ?_, ?_, ?_⟩
  · refine hFull.imp fun {first second} hLe => ?_
    exact Prod.Lex.monotone_fst _ _ hLe
  · by_contra hOut
    have hBehind :=
      lt_notBelow_of_notMem_take hPerm hFull hShown hOut
    have hCount :
        notBelow full rows shown ≤ above key rows shown + 1 := by
      refine countP_le_succ shown hNodup ?_
      intro row _ hLe
      rcases Prod.Lex.toLex_le_toLex.mp (of_decide_eq_true hLe)
        with hLt | ⟨_, hPlace⟩
      · exact .inl (decide_eq_true hLt)
      · right
        by_contra hOther
        have hTop : place shown = 2 := if_pos rfl
        have hLow : place row ≤ 1 := by
          change (if row = shown then 2
            else if row = missed then 0 else 1) ≤ 1
          rw [if_neg hOther]
          split <;> omega
        have hPlaces : place shown ≤ place row := hPlace
        omega
    omega
  · intro hIn
    have hStored : missed ∈ rows :=
      hPerm.mem_iff.mp (List.mem_of_mem_take hIn)
    have hBefore := above_lt_of_mem_take hPerm hFull hIn
    have hBehind :=
      hMissed.resolve_left (not_not_intro hStored)
    have hCount :
        notBelow key rows missed ≤
          above full rows missed + 1 := by
      refine countP_le_succ missed hNodup ?_
      intro row _ hLe
      by_cases hOther : row = missed
      · exact .inr hOther
      · left
        refine decide_eq_true (Prod.Lex.toLex_lt_toLex.mpr ?_)
        rcases lt_or_eq_of_le (of_decide_eq_true hLe) with
          hLt | hSame
        · exact .inl hLt
        · refine .inr ⟨hSame, ?_⟩
          have hBottom : place missed = 0 := by
            change (if missed = shown then 2
              else if missed = missed then 0 else 1) = 0
            rw [if_neg hNe, if_pos rfl]
          have hHigh : 0 < place row := by
            change 0 < (if row = shown then 2
              else if row = missed then 0 else 1)
            rw [if_neg hOther]
            split <;> omega
          change place missed < place row
          omega
    omega

theorem exists_ranking
    (key : R → K)
    (rows : List R) :
    ∃ ranked : List R, ranked.Perm rows ∧
      Descending key ranked :=
  ⟨_, List.perm_insertionSort _ rows, sorted_by key rows⟩

section EveryPage

variable {T : Type} [LinearOrder T]
variable {time : R → T}
variable {all : List R}

/-
  Every page of some of the rows shows the newest of all rows
  just if the page is full or the rows are all there are, and
  no row that may be missed is newer than one that may be
  shown.
-/
theorem every_page_isNewest_iff
    (hRows : rows.Nodup)
    (hAll : all.Nodup)
    (hSubset : rows ⊆ all) :
    (∀ ranked : List R, ranked.Perm rows →
        Descending key ranked →
        IsNewest time limit all
          (newestOf time limit (ranked.take limit))) ↔
      (limit ≤ rows.length ∨ all ⊆ rows) ∧
        ∀ shown ∈ rows, above key rows shown < limit →
          ∀ missed ∈ all,
            missed ∉ rows ∨ limit < notBelow key rows missed →
            time missed ≤ time shown := by
  have hPage :
      ∀ ranked : List R, ranked.Perm rows →
        (IsNewest time limit all
            (newestOf time limit (ranked.take limit)) ↔
          min limit rows.length = min limit all.length ∧
            ∀ shown ∈ ranked.take limit, ∀ missed ∈ all,
              missed ∉ ranked.take limit →
              time missed ≤ time shown) := by
    intro ranked hPerm
    have hLength :
        (ranked.take limit).length = min limit rows.length := by
      rw [List.length_take, hPerm.length_eq]
    rw [← hLength]
    refine isNewest_newestOf_iff (List.length_take_le _ _) ?_ ?_
    · exact (hPerm.nodup_iff.mpr hRows).sublist
        (List.take_sublist _ _)
    · exact fun _ hRow =>
        hSubset (hPerm.mem_iff.mp (List.mem_of_mem_take hRow))
  have hSize :
      min limit rows.length = min limit all.length ↔
        limit ≤ rows.length ∨ all ⊆ rows := by
    have hSubperm := List.subperm_of_subset hRows hSubset
    have hLe := hSubperm.length_le
    constructor
    · intro hSame
      by_cases hFull : limit ≤ rows.length
      · exact .inl hFull
      · right
        have hPerm := hSubperm.perm_of_length_le (by omega)
        exact fun _ hRow => hPerm.mem_iff.mpr hRow
    · rintro (hFull | hWhole)
      · omega
      · have hGe :=
          (List.subperm_of_subset hAll hWhole).length_le
        omega
  constructor
  · intro hEvery
    obtain ⟨ranked, hPerm, hRanked⟩ := exists_ranking key rows
    have hSome := (hPage ranked hPerm).mp
      (hEvery ranked hPerm hRanked)
    refine ⟨hSize.mp hSome.1, ?_⟩
    intro shown hShown hAbove missed hMissed hMay
    by_cases hSame : missed = shown
    · rw [hSame]
    · obtain ⟨other, hOther, hOrder, hOn, hOff⟩ :=
        exists_page hRows hShown hAbove hMay hSame
      exact ((hPage other hOther).mp
        (hEvery other hOther hOrder)).2 shown hOn missed hMissed
          hOff
  · rintro ⟨hFull, hNewest⟩ ranked hPerm hRanked
    refine (hPage ranked hPerm).mpr ⟨hSize.mpr hFull, ?_⟩
    intro shown hOn missed hMissed hOff
    refine hNewest shown
      (hPerm.mem_iff.mp (List.mem_of_mem_take hOn))
      (above_lt_of_mem_take hPerm hRanked hOn) missed hMissed ?_
    by_cases hStored : missed ∈ rows
    · exact .inr
        (lt_notBelow_of_notMem_take hPerm hRanked hStored hOff)
    · exact .inl hStored

end EveryPage

end Pages

end Data

end IcpHandler
