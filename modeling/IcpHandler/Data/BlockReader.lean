import Mathlib.Data.List.Basic
import Mathlib.Data.List.Induction

/-
  Readers that gather the lines of a block and turn the block
  into a record at the blank line that ends it. Two readers
  whose states stay related yield the same records exactly if
  neither has given up, or has found nothing, at a blank line
  where the other yields one.

  Main declarations:
    * `AtBlanks`
    * `BlockReader`, `BlockReader.read`, `BlockReader.pending`
    * `BlockReader.Follows`
    * `BlockReader.Follows.read_eq_iff`
-/

------------------------------------------------------------
-- Blank Lines
------------------------------------------------------------

namespace IcpHandler

namespace Data

variable {L : Type}

/- What precedes a blank line satisfies a condition. -/
def AtBlanks
    (blank : L → Bool)
    (Holds : List L → Prop)
    (lines : List L) : Prop :=
  ∀ before line after, lines = before ++ line :: after →
    blank line = true → Holds before

variable {blank : L → Bool}
variable {Holds Holds' : List L → Prop}
variable {line : L}
variable {lines : List L}

theorem atBlanks_nil : AtBlanks blank Holds [] := by
  intro before line after hLines
  cases before with
  | nil => cases hLines
  | cons first before => cases hLines

theorem atBlanks_cons :
    AtBlanks blank Holds (line :: lines) ↔
      (blank line = true → Holds []) ∧
        AtBlanks blank (fun before => Holds (line :: before))
          lines := by
  constructor
  · intro hAll
    constructor
    · exact hAll [] line lines rfl
    · intro before other after hLines hBlank
      exact hAll (line :: before) other after
        (by rw [hLines]; rfl) hBlank
  · rintro ⟨hFirst, hRest⟩ before other after hLines hBlank
    cases before with
    | nil =>
        cases hLines
        exact hFirst hBlank
    | cons first before =>
        cases hLines
        exact hRest before other after rfl hBlank

theorem atBlanks_congr
    (hSame : ∀ before, Holds before ↔ Holds' before) :
    AtBlanks blank Holds lines ↔
      AtBlanks blank Holds' lines := by
  constructor
  · intro hAll before line after hLines hBlank
    exact (hSame before).mp (hAll before line after hLines hBlank)
  · intro hAll before line after hLines hBlank
    exact (hSame before).mpr (hAll before line after hLines hBlank)

/- The lines after the last blank one. -/
def openBlock
    (blank : L → Bool)
    (lines : List L) : List L :=
  (lines.reverse.takeWhile fun line => !blank line).reverse

/- A blank line begins a new block, another one is added. -/
theorem openBlock_append :
    openBlock blank (lines ++ [line]) =
      if blank line then [] else openBlock blank lines ++ [line]
    := by
  unfold openBlock
  rw [List.reverse_append, List.reverse_singleton,
    List.singleton_append, List.takeWhile_cons]
  cases hBlank : blank line with
  | true => rfl
  | false => simp

end Data

end IcpHandler

------------------------------------------------------------
-- Readers
------------------------------------------------------------

namespace IcpHandler

namespace Data

/-
  A reader of lines. It starts anew at every blank line, and
  gives up at a line that it refuses.
-/
structure BlockReader (L P R : Type) where
  start : P
  blank : L → Bool
  refuses : L → Bool
  feed : P → L → P
  record? : P → Option R

namespace BlockReader

variable {L P R : Type}

/- The records that are yielded. -/
def read (reader : BlockReader L P R) : P → List L → List R
  | _, [] => []
  | state, line :: rest =>
      if reader.refuses line then []
      else if reader.blank line then
        (reader.record? state).toList ++
          reader.read reader.start rest
      else reader.read (reader.feed state line) rest

/- What has been gathered after some lines. -/
def pending (reader : BlockReader L P R) : P → List L → P
  | state, [] => state
  | state, line :: rest =>
      if reader.blank line then
        reader.pending reader.start rest
      else reader.pending (reader.feed state line) rest

variable {reader : BlockReader L P R}
variable {state : P}
variable {line : L}
variable {lines : List L}

theorem pending_append :
    reader.pending state (lines ++ [line]) =
      if reader.blank line then reader.start
      else reader.feed (reader.pending state lines) line := by
  induction lines generalizing state with
  | nil => rfl
  | cons first rest ih =>
      rw [List.cons_append, pending, pending]
      split
      · exact ih
      · exact ih

/- The state tells the block that is open. -/
theorem pending_openBlock :
    reader.pending reader.start lines =
      (openBlock reader.blank lines).foldl reader.feed
        reader.start := by
  induction lines using List.reverseRecOn with
  | nil => rfl
  | append_singleton lines line ih =>
      rw [pending_append, openBlock_append, ih]
      split
      · rfl
      · rw [List.foldl_append]
        rfl

/- Nothing is yielded if no block holds a record. -/
theorem read_eq_nil_iff
    (hRefuses : ∀ line, reader.refuses line = false) :
    reader.read state lines = [] ↔
      AtBlanks reader.blank
        (fun before =>
          reader.record? (reader.pending state before) = none)
        lines := by
  induction lines generalizing state with
  | nil => exact iff_of_true rfl atBlanks_nil
  | cons line rest ih =>
      rw [read, hRefuses, atBlanks_cons]
      cases hBlank : reader.blank line with
      | true =>
          simp [pending, hBlank, ih]
      | false =>
          simp [pending, hBlank, ih]

end BlockReader

end Data

end IcpHandler

------------------------------------------------------------
-- One Reader Follows Another
------------------------------------------------------------

namespace IcpHandler

namespace Data

namespace BlockReader

variable {L P R P' R' V : Type}

/-
  Every record of the first reader is one of the second, seen
  alike. Only the first one may give up at a line.
-/
structure Follows
    (reader : BlockReader L P R)
    (other : BlockReader L P' R')
    (Related : P → P' → Prop)
    (view : R → V)
    (view' : R' → V) : Prop where
  blank : reader.blank = other.blank
  tireless : ∀ line, other.refuses line = false
  refuses :
    ∀ line, reader.blank line = true →
      reader.refuses line = false
  start : Related reader.start other.start
  feed :
    ∀ line state state', reader.blank line = false →
      Related state state' →
      Related (reader.feed state line) (other.feed state' line)
  record :
    ∀ state state' record, Related state state' →
      reader.record? state = some record →
      ∃ record', other.record? state' = some record' ∧
        view record = view' record'

namespace Follows

variable {reader : BlockReader L P R}
variable {other : BlockReader L P' R'}
variable {Related : P → P' → Prop}
variable {view : R → V}
variable {view' : R' → V}
variable {state : P}
variable {state' : P'}
variable {lines : List L}

/-
  Where the second reader yields a record, the first one has
  not given up and yields one.
-/
def KeepsUp
    (reader : BlockReader L P R)
    (other : BlockReader L P' R')
    (state : P)
    (state' : P')
    (before : List L) : Prop :=
  (other.record? (other.pending state' before)).isSome = true →
    (∀ line ∈ before, reader.refuses line = false) ∧
      (reader.record? (reader.pending state before)).isSome =
        true

/- What both have gathered stays related. -/
theorem pending
    (hFollows : Follows reader other Related view view')
    (hRelated : Related state state') :
    Related (reader.pending state lines)
      (other.pending state' lines) := by
  induction lines generalizing state state' with
  | nil => exact hRelated
  | cons line rest ih =>
      rw [BlockReader.pending, BlockReader.pending,
        ← hFollows.blank]
      cases hBlank : reader.blank line with
      | true => exact ih hFollows.start
      | false =>
          exact ih (hFollows.feed line state state' hBlank
            hRelated)

/- The first reader yields no more than the second. -/
private theorem length_read_le
    (hFollows : Follows reader other Related view view')
    (hRelated : Related state state') :
    (reader.read state lines).length ≤
      (other.read state' lines).length := by
  induction lines generalizing state state' with
  | nil => exact Nat.le_refl _
  | cons line rest ih =>
      rw [read, read, hFollows.tireless, ← hFollows.blank]
      cases hRefuses : reader.refuses line with
      | true => exact Nat.zero_le _
      | false =>
          cases hBlank : reader.blank line with
          | false =>
              exact ih (hFollows.feed line state state' hBlank
                hRelated)
          | true =>
              have hRest := ih hFollows.start
              simp only [Bool.false_eq_true, if_false, if_true,
                List.length_append]
              cases hRecord : reader.record? state with
              | none =>
                  simp only [Option.toList_none,
                    List.length_nil]
                  omega
              | some record =>
                  obtain ⟨record', hRecord', _⟩ :=
                    hFollows.record state state' record hRelated
                      hRecord
                  rw [hRecord']
                  simp only [Option.toList_some,
                    List.length_singleton]
                  omega

/- One line: what both yield, and what has to keep up. -/
private theorem keepsUp_cons
    {line : L}
    (hFollows : Follows reader other Related view view')
    (hFits : reader.refuses line = false)
    {before : List L} :
    KeepsUp reader other state state' (line :: before) ↔
      KeepsUp reader other
        (if reader.blank line then reader.start
          else reader.feed state line)
        (if reader.blank line then other.start
          else other.feed state' line) before := by
  unfold KeepsUp
  rw [BlockReader.pending, BlockReader.pending, ← hFollows.blank, List.forall_mem_cons]
  cases reader.blank line <;> simp [hFits]

/- A reader that has given up only agrees with silence. -/
private theorem gives_up_iff
    {line : L}
    (hFollows : Follows reader other Related view view')
    (hRefuses : reader.refuses line = true) :
    other.read state' (line :: lines) = [] ↔
      AtBlanks other.blank
        (KeepsUp reader other state state') (line :: lines) := by
  have hNotBlank : other.blank line = false := by
    rw [← hFollows.blank]
    by_contra hBlank
    rw [hFollows.refuses line (by simpa using hBlank)]
      at hRefuses
    cases hRefuses
  rw [other.read_eq_nil_iff hFollows.tireless, atBlanks_cons,
    atBlanks_cons, hNotBlank]
  apply and_congr
  · exact iff_of_true (fun hBlank => by cases hBlank)
      (fun hBlank => by cases hBlank)
  · apply atBlanks_congr
    intro before
    unfold KeepsUp
    constructor
    · intro hNone hSome
      rw [hNone] at hSome
      cases hSome
    · intro hKeeps
      by_contra hSome
      have hFits :=
        (hKeeps (Option.isSome_iff_ne_none.mpr hSome)).1 line
          List.mem_cons_self
      rw [hRefuses] at hFits
      cases hFits

/-
  Both yield the same exactly if the first reader keeps up at
  every blank line.
-/
theorem read_eq_iff
    (hFollows : Follows reader other Related view view')
    (hRelated : Related state state') :
    (reader.read state lines).map view =
        (other.read state' lines).map view' ↔
      AtBlanks other.blank
        (KeepsUp reader other state state') lines := by
  induction lines generalizing state state' with
  | nil => exact iff_of_true rfl atBlanks_nil
  | cons line rest ih =>
      cases hRefuses : reader.refuses line with
      | true =>
          rw [← gives_up_iff hFollows hRefuses, read, hRefuses,
            if_pos rfl, List.map_nil, eq_comm, List.map_eq_nil_iff]
      | false =>
          rw [atBlanks_cons,
            atBlanks_congr fun before =>
              keepsUp_cons hFollows hRefuses,
            read, read, hFollows.tireless, hRefuses,
            ← hFollows.blank]
          cases hBlank : reader.blank line with
          | false =>
              -- the line is gathered by both
              rw [hFollows.blank] at hBlank
              simp only [Bool.false_eq_true, if_false,
                false_implies, true_and]
              rw [ih (hFollows.feed line state state'
                (by rw [hFollows.blank, hBlank]) hRelated),
                hFollows.blank]
          | true =>
              simp only [Bool.false_eq_true, if_false, if_true,
                true_implies, List.map_append]
              rw [← hFollows.blank] at ih
              rw [← ih hFollows.start]
              cases hRecord : reader.record? state with
              | some record =>
                  -- both yield a record here
                  obtain ⟨record', hRecord', hView⟩ :=
                    hFollows.record state state' record hRelated
                      hRecord
                  simp [KeepsUp, BlockReader.pending, hRecord, hRecord',
                    hView]
              | none =>
                  cases hRecord' : other.record? state' with
                  | none =>
                      simp [KeepsUp, BlockReader.pending, hRecord']
                  | some record' =>
                      -- the first reader has missed a record
                      have hShort :
                          (reader.read reader.start
                              rest).length ≤
                            (other.read other.start
                              rest).length :=
                        length_read_le hFollows
                          hFollows.start
                      apply iff_of_false
                      · intro hSame
                        have hLength :=
                          congrArg List.length hSame
                        simp at hLength
                        omega
                      · rintro ⟨hKeeps, _⟩
                        unfold KeepsUp at hKeeps
                        rw [BlockReader.pending, BlockReader.pending,
                          hRecord, hRecord']
                          at hKeeps
                        exact absurd (hKeeps rfl).2
                          Bool.false_ne_true

end Follows

end BlockReader

end Data

end IcpHandler
