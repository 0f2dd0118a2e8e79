import IcpHandler.Data.Bisimulation
import IcpHandler.Model.Concrete
import IcpHandler.Properties.IdempotencyCells

/-
  The two backends of the idempotency cache are
  interchangeable. The table is the image of the map in
  memory, entry by entry, and every call keeps it so and comes
  to the same on both.

  Main declarations:
    * `runIdempotency_eq_transcript`
    * `IdempotencyCall.Regular`
    * `Written`
    * `written_bisimulation`
    * `idempotency_backends_agree`
-/

------------------------------------------------------------
-- Runs as Transcripts
------------------------------------------------------------

namespace IcpHandler

namespace Model

open Data

/- The log of a run is the transcript of its calls. -/
theorem runIdempotency_eq_transcript
    (rfc3339 : Rfc3339)
    (calls : List IdempotencyCall)
    (store : IdempotencyStore) :
    (runIdempotency rfc3339 calls store).1 =
      transcript
        (fun store call => call.perform rfc3339 store)
        calls store := by
  induction calls generalizing store with
  | nil => rfl
  | cons call calls ih =>
      simp only [runIdempotency, transcript, ih]

end Model

end IcpHandler

------------------------------------------------------------
-- The Table as an Image
------------------------------------------------------------

namespace IcpHandler

namespace Model

open Data

/-
  The database does not fail under the call, and the dates the
  call writes or compares have a text form.
-/
def IdempotencyCall.Regular
    (rfc3339 : Rfc3339)
    (ttl : Duration)
    (call : IdempotencyCall) : Prop :=
  call.fault = false ∧
    match call with
    | .reserve _ _ now _ _ _ => rfc3339.Valid now
    | .store _ _ _ now _ _ => rfc3339.Valid now
    | .prune now _ => rfc3339.Valid (now - ttl)
    | _ => True

/- Every date in the map has a text form. -/
def Dated
    (rfc3339 : Rfc3339)
    (entries : AList fun _ : IdempotencyKey =>
      IdempotencyEntry) : Prop :=
  ∀ entry ∈ entries.entries, rfc3339.Valid entry.2.createdAt

/-
  The second store is the table that the entries of the first
  are written to.
-/
def Written
    (rfc3339 : Rfc3339)
    (ttl : Duration)
    (_past : IdempotencyLog)
    (memory sqlite : IdempotencyStore) : Prop :=
  ∃ entries,
    Dated rfc3339 entries ∧
      memory = ⟨.memory entries, ttl⟩ ∧
      sqlite =
        ⟨.sqlite (image (.ofEntry rfc3339) entries), ttl⟩

variable {rfc3339 : Rfc3339}
variable {ttl : Duration}
variable {past : IdempotencyLog}
variable {entries :
  AList fun _ : IdempotencyKey => IdempotencyEntry}
variable {key : IdempotencyKey}
variable {entry : IdempotencyEntry}

namespace Dated

theorem of_lookup
    (hDated : Dated rfc3339 entries)
    (hEntry : entries.lookup key = some entry) :
    rfc3339.Valid entry.createdAt :=
  hDated ⟨key, entry⟩ (AList.mem_lookup_iff.mp hEntry)

theorem erase
    (hDated : Dated rfc3339 entries) :
    Dated rfc3339 (entries.erase key) := by
  intro other hOther
  exact hDated other
    ((List.kerase_sublist key entries.entries).subset hOther)

theorem insert
    (hDated : Dated rfc3339 entries)
    (hValid : rfc3339.Valid entry.createdAt) :
    Dated rfc3339 (entries.insert key entry) := by
  intro other hOther
  rw [AList.entries_insert] at hOther
  rcases List.mem_cons.mp hOther with rfl | hOld
  · exact hValid
  · exact hDated.erase other hOld

theorem retain
    (hDated : Dated rfc3339 entries)
    (keep : IdempotencyEntry → Bool) :
    Dated rfc3339 (Data.retain keep entries) := by
  intro other hOther
  exact hDated other (List.mem_filter.mp hOther).1

end Dated

/- A reader makes out the same entry on both. -/
theorem entryAt_image
    (hDated : Dated rfc3339 entries)
    (now : DateTime) :
    IdempotencyStore.entryAt rfc3339 now key
        ⟨.sqlite (image (.ofEntry rfc3339) entries), ttl⟩ =
      entries.lookup key := by
  simp only [IdempotencyStore.entryAt, lookup_image,
    Option.map_map]
  cases hEntry : entries.lookup key with
  | none => rfl
  | some entry =>
      exact congrArg some
        (toEntry_ofEntry now (hDated.of_lookup hEntry))

/- A write on both sides. -/
theorem written_put
    (hDated : Dated rfc3339 entries)
    (hValid : rfc3339.Valid entry.createdAt) :
    Written rfc3339 ttl past
      (IdempotencyStore.put rfc3339 key entry
        ⟨.memory entries, ttl⟩)
      (IdempotencyStore.put rfc3339 key entry
        ⟨.sqlite (image (.ofEntry rfc3339) entries), ttl⟩) := by
  refine ⟨entries.insert key entry, hDated.insert hValid,
    rfl, ?_⟩
  simp only [IdempotencyStore.put, image_insert]

/- A removal on both sides. -/
theorem written_drop
    (hDated : Dated rfc3339 entries) :
    Written rfc3339 ttl past
      (IdempotencyStore.drop key ⟨.memory entries, ttl⟩)
      (IdempotencyStore.drop key
        ⟨.sqlite (image (.ofEntry rfc3339) entries), ttl⟩) := by
  refine ⟨entries.erase key, hDated.erase, rfl, ?_⟩
  simp only [IdempotencyStore.drop, image_erase]

/- Nothing happens on both sides. -/
theorem written_same
    (hDated : Dated rfc3339 entries) :
    Written rfc3339 ttl past ⟨.memory entries, ttl⟩
      ⟨.sqlite (image (.ofEntry rfc3339) entries), ttl⟩ :=
  ⟨entries, hDated, rfl, rfl⟩

end Model

end IcpHandler

------------------------------------------------------------
-- The Calls on Both
------------------------------------------------------------

namespace IcpHandler

namespace Model

open Data

/-
  Two results of a call: the same outcome, on stores of which
  the second is written from the first.
-/
structure SameCall
    (rfc3339 : Rfc3339)
    (ttl : Duration)
    {Outcome : Type}
    (memory sqlite : Outcome × IdempotencyStore) : Prop where
  outcome : memory.1 = sqlite.1
  written :
    ∀ past, Written rfc3339 ttl past memory.2 sqlite.2

/- An outcome under another name is the same outcome. -/
theorem SameCall.map
    {rfc3339 : Rfc3339}
    {ttl : Duration}
    {Outcome : Type}
    {memory sqlite : Outcome × IdempotencyStore}
    (hSame : SameCall rfc3339 ttl memory sqlite)
    (f : Outcome → CallOutcome) :
    SameCall rfc3339 ttl (f memory.1, memory.2)
      (f sqlite.1, sqlite.2) :=
  ⟨congrArg f hSame.outcome, hSame.written⟩

section Calls

variable {rfc3339 : Rfc3339}
variable {ttl : Duration}
variable {entries :
  AList fun _ : IdempotencyKey => IdempotencyEntry}
variable {key : IdempotencyKey}
variable {digest token : String}
variable {now : DateTime}

/-
  Both decide from the entry they read, which is the same.
-/
theorem lookup_agrees
    (hDated : Dated rfc3339 entries) :
    IdempotencyStore.lookup rfc3339 false key digest now
        ⟨.memory entries, ttl⟩ =
      IdempotencyStore.lookup rfc3339 false key digest now
        ⟨.sqlite (image (.ofEntry rfc3339) entries), ttl⟩ := by
  rw [lookup_eq rfl, lookup_eq rfl, entryAt_image hDated]
  rfl

theorem reserve_agrees
    {lease : Duration}
    (hDated : Dated rfc3339 entries)
    (hValid : rfc3339.Valid now) :
    SameCall rfc3339 ttl
      (IdempotencyStore.reserve rfc3339 false token key digest
        now lease ⟨.memory entries, ttl⟩)
      (IdempotencyStore.reserve rfc3339 false token key digest
        now lease
        ⟨.sqlite (image (.ofEntry rfc3339) entries), ttl⟩) := by
  have hClaimed :
      ∀ past,
        Written rfc3339 ttl past
          (IdempotencyStore.put rfc3339 key
            (IdempotencyStore.pendingEntry digest now token)
            ⟨.memory entries, ttl⟩)
          (IdempotencyStore.put rfc3339 key
            (IdempotencyStore.pendingEntry digest now token)
            ⟨.sqlite (image (.ofEntry rfc3339) entries),
              ttl⟩) :=
    fun past => written_put hDated hValid
  have hKept :
      ∀ past,
        Written rfc3339 ttl past ⟨.memory entries, ttl⟩
          ⟨.sqlite (image (.ofEntry rfc3339) entries), ttl⟩ :=
    fun past => written_same hDated
  rw [reserve_eq rfl, reserve_eq rfl, entryAt_image hDated]
  simp only [IdempotencyStore.entryAt]
  cases entries.lookup key with
  | none => exact ⟨rfl, hClaimed⟩
  | some entry =>
      dsimp only
      split_ifs
      · exact ⟨rfl, hClaimed⟩
      · exact ⟨rfl, hClaimed⟩
      · exact ⟨rfl, hKept⟩
      · exact ⟨rfl, hKept⟩
      · exact ⟨rfl, hKept⟩

/-
  A row is pending, and carries a token, as its entry is and
  does.
-/
theorem release_agrees
    (hDated : Dated rfc3339 entries) :
    SameCall rfc3339 ttl
      (IdempotencyStore.release false key token
        ⟨.memory entries, ttl⟩)
      (IdempotencyStore.release false key token
        ⟨.sqlite (image (.ofEntry rfc3339) entries), ttl⟩) := by
  have hTest :
      ((image (IdempotencyRow.ofEntry rfc3339) entries).lookup
          key).any
          (fun row =>
            row.responseStatus == 0 &&
              row.reservationId == token) =
        (entries.lookup key).any fun entry =>
          entry.response.status == pendingStatus &&
            entry.reservationId == token := by
    rw [lookup_image, Option.any_map]
    simp only [ofEntry_status_beq]
    rfl
  simp only [IdempotencyStore.release, hTest, Bool.not_false,
    Bool.true_and]
  split
  · exact ⟨rfl, fun past => written_drop hDated⟩
  · exact ⟨rfl, fun past => written_same hDated⟩

theorem store_agrees
    {response : CachedResponse}
    (hDated : Dated rfc3339 entries)
    (hValid : rfc3339.Valid now) :
    SameCall rfc3339 ttl
      (IdempotencyStore.store rfc3339 false key digest response
        now token ⟨.memory entries, ttl⟩)
      (IdempotencyStore.store rfc3339 false key digest response
        now token
        ⟨.sqlite (image (.ofEntry rfc3339) entries), ttl⟩) := by
  have hTest :
      ((image (IdempotencyRow.ofEntry rfc3339) entries).lookup
          key).all
          (fun row => row.reservationId == token) =
        (entries.lookup key).all fun entry =>
          entry.reservationId == token := by
    rw [lookup_image, Option.all_map]
    rfl
  simp only [IdempotencyStore.store, hTest, Bool.not_false,
    Bool.true_and]
  split
  · refine ⟨rfl, fun past => ?_⟩
    exact written_put hDated hValid
  · exact ⟨rfl, fun past => written_same hDated⟩

/- The texts of two dates compare as the dates do. -/
theorem prune_agrees
    (hDated : Dated rfc3339 entries)
    (hValid : rfc3339.Valid (now - ttl)) :
    SameCall rfc3339 ttl
      (IdempotencyStore.prune rfc3339 false now
        ⟨.memory entries, ttl⟩)
      (IdempotencyStore.prune rfc3339 false now
        ⟨.sqlite (image (.ofEntry rfc3339) entries), ttl⟩) := by
  have hKept :
      Data.retain
          (fun row : IdempotencyRow =>
            !decide
              (row.createdAt < rfc3339.print (now - ttl)))
          (image (.ofEntry rfc3339) entries) =
        image (.ofEntry rfc3339)
          (Data.retain
            (fun entry : IdempotencyEntry =>
              decide (now - ttl ≤ entry.createdAt))
            entries) := by
    refine image_retain _ entries ?_
    intro entry hEntry
    have hText :
        rfc3339.print entry.2.createdAt <
            rfc3339.print (now - ttl) ↔
          entry.2.createdAt < now - ttl :=
      rfc3339.print_lt_iff _ _ (hDated entry hEntry) hValid
    rw [← decide_not, decide_eq_decide, ← not_lt]
    exact not_congr hText
  simp only [IdempotencyStore.prune, hKept, length_image,
    Bool.false_eq_true, if_false]
  exact ⟨rfl,
    fun past => ⟨_, hDated.retain _, rfl, rfl⟩⟩

end Calls

/- Any regular call, on a map and the table of its entries. -/
theorem perform_agrees
    {rfc3339 : Rfc3339}
    {ttl : Duration}
    {entries :
      AList fun _ : IdempotencyKey => IdempotencyEntry}
    {call : IdempotencyCall}
    (hDated : Dated rfc3339 entries)
    (hRegular : call.Regular rfc3339 ttl) :
    SameCall rfc3339 ttl
      (call.perform rfc3339 ⟨.memory entries, ttl⟩)
      (call.perform rfc3339
        ⟨.sqlite (image (.ofEntry rfc3339) entries), ttl⟩) := by
  rcases hRegular with ⟨hFault, hDate⟩
  cases call with
  | lookup key digest now fault =>
      cases hFault
      exact ⟨congrArg CallOutcome.looked
          (lookup_agrees hDated),
        fun past => written_same hDated⟩
  | reserve key digest now lease token fault =>
      cases hFault
      exact (reserve_agrees hDated hDate).map .reserved
  | release key token fault =>
      cases hFault
      exact (release_agrees hDated).map .released
  | store key digest response now token fault =>
      cases hFault
      exact (store_agrees hDated hDate).map .stored
  | prune now fault =>
      cases hFault
      exact (prune_agrees hDated hDate).map .pruned

end Model

end IcpHandler

------------------------------------------------------------
-- Every Sequence of Calls
------------------------------------------------------------

namespace IcpHandler

namespace Model

open Data

/- Regular calls keep the table the image of the map. -/
theorem written_bisimulation
    (rfc3339 : Rfc3339)
    (ttl : Duration) :
    Bisimulation
      (fun store call =>
        IdempotencyCall.perform rfc3339 store call)
      (fun store call =>
        IdempotencyCall.perform rfc3339 store call)
      (fun _ call => call.Regular rfc3339 ttl)
      (Written rfc3339 ttl) where
  outcome := by
    rintro past memory sqlite call
      ⟨entries, hDated, rfl, rfl⟩ hRegular
    exact (perform_agrees hDated hRegular).outcome
  step := by
    rintro past memory sqlite call
      ⟨entries, hDated, rfl, rfl⟩ hRegular
    exact (perform_agrees hDated hRegular).written _

/-
  Two fresh stores with the same time to live give the same
  outcome at every call of every sequence.
-/
theorem idempotency_backends_agree
    (rfc3339 : Rfc3339)
    (ttl : Duration)
    (calls : List IdempotencyCall)
    (hRegular : ∀ call ∈ calls, call.Regular rfc3339 ttl) :
    (runIdempotency rfc3339 calls ⟨.memory ∅, ttl⟩).1 =
      (runIdempotency rfc3339 calls ⟨.sqlite ∅, ttl⟩).1 := by
  rw [runIdempotency_eq_transcript,
    runIdempotency_eq_transcript]
  have hFresh :
      Written rfc3339 ttl [] ⟨.memory ∅, ttl⟩
        ⟨.sqlite ∅, ttl⟩ :=
    ⟨∅, fun _ hNone => (nomatch hNone), rfl, rfl⟩
  refine (written_bisimulation rfc3339 ttl).transcript_eq
    hFresh (admits_of_forall ?_)
  intro entry hEntry
  refine hRegular entry.1 ?_
  have hCall := List.mem_map_of_mem (f := Prod.fst) hEntry
  rwa [transcript_calls] at hCall

/-
  A claim, a duplicate while it runs, its completion, a replay
  a day later and a sweep the day after.
-/
theorem idempotency_backends_agree_sample :
    let calls : List IdempotencyCall :=
      [.reserve ("acme", "k1") "d1" (Duration.seconds 0)
          (Duration.seconds 120) "t1" false,
        .reserve ("acme", "k1") "d1" (Duration.seconds 60)
          (Duration.seconds 120) "t2" false,
        .store ("acme", "k1") "d1" ⟨200, "{}"⟩
          (Duration.seconds 60) "t1" false,
        .lookup ("acme", "k1") "d1"
          (Duration.seconds 86460) false,
        .release ("acme", "k1") "t1" false,
        .prune (Duration.seconds 172800 + Duration.hours 24)
          false]
    (runIdempotency concreteRfc3339 calls
        ⟨.memory ∅, defaultTtl⟩).1 =
      (runIdempotency concreteRfc3339 calls
        ⟨.sqlite ∅, defaultTtl⟩).1 := by
  refine idempotency_backends_agree concreteRfc3339
    defaultTtl _ ?_
  have hStart : concreteRfc3339.Valid (Duration.seconds 0) := by
    unfold concreteRfc3339
    decide
  have hMinute :
      concreteRfc3339.Valid (Duration.seconds 60) := by
    unfold concreteRfc3339
    decide
  have hCutoff :
      concreteRfc3339.Valid (Duration.seconds 172800 +
        Duration.hours 24 - defaultTtl) := by
    unfold concreteRfc3339
    decide
  simp only [List.forall_mem_cons]
  refine ⟨⟨rfl, hStart⟩, ⟨rfl, hMinute⟩, ⟨rfl, hMinute⟩,
    ⟨rfl, trivial⟩, ⟨rfl, trivial⟩, ⟨rfl, hCutoff⟩, ?_⟩
  intro call hNone
  cases hNone

end Model

end IcpHandler
