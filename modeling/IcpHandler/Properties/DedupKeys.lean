import IcpHandler.Model.Concrete
import IcpHandler.Service.Idempotent

/-
  When two requests are protected by one key. The derived keys
  join two free texts by a colon and share their space with
  the keys that clients choose, so different requests can meet
  on one key.

  Main declarations:
    * `colonJoin_eq_iff`
    * `SameOrigin`, `Clash`
    * `keys_separate_iff`
    * `derived_keys_collide`
-/

------------------------------------------------------------
-- Texts Joined by a Colon
------------------------------------------------------------

namespace IcpHandler

namespace Service

open Model

/- One text continues another past a colon. -/
def Extends (longer shorter rest : String) : Prop :=
  longer = shorter ++ ":" ++ rest

private theorem toList_colonJoin (left right : String) :
    (left ++ ":" ++ right).toList =
      left.toList ++ ':' :: right.toList := by
  simp

private theorem eq_colonJoin_iff
    (whole left right : String) :
    whole = left ++ ":" ++ right ↔
      whole.toList = left.toList ++ ':' :: right.toList := by
  rw [← toList_colonJoin, String.toList_inj]

private theorem extends_of_split
    {left right left' right' : String}
    {middle : List Char}
    (hLeft : left'.toList = left.toList ++ middle)
    (hRight :
      ':' :: right.toList = middle ++ ':' :: right'.toList) :
    (left = left' ∧ right = right') ∨
      ∃ rest, Extends left' left rest ∧
        Extends right rest right' := by
  cases middle with
  | nil =>
      left
      rw [List.append_nil] at hLeft
      rw [List.nil_append] at hRight
      exact ⟨String.toList_inj.mp hLeft.symm,
        String.toList_inj.mp (List.cons.inj hRight).2⟩
  | cons c middle =>
      right
      rw [List.cons_append] at hRight
      obtain ⟨rfl, hRest⟩ := List.cons.inj hRight
      refine ⟨String.ofList middle, ?_, ?_⟩
      · rw [Extends, eq_colonJoin_iff]
        simpa using hLeft
      · rw [Extends, eq_colonJoin_iff]
        simpa using hRest

/-
  Two joined texts are equal when the parts are, or when one
  left part reaches over a colon into the other right part.
-/
theorem colonJoin_eq_iff
    (left right left' right' : String) :
    left ++ ":" ++ right = left' ++ ":" ++ right' ↔
      (left = left' ∧ right = right') ∨
      (∃ rest, Extends left' left rest ∧
        Extends right rest right') ∨
      ∃ rest, Extends left left' rest ∧
        Extends right' rest right := by
  constructor
  · intro hJoin
    rw [eq_colonJoin_iff, toList_colonJoin,
      List.append_eq_append_iff] at hJoin
    rcases hJoin with
      ⟨middle, hLeft, hRight⟩ | ⟨middle, hLeft, hRight⟩
    · rcases extends_of_split hLeft hRight with hSame | hOver
      · exact .inl hSame
      · exact .inr (.inl hOver)
    · rcases extends_of_split hLeft hRight with hSame | hOver
      · exact .inl ⟨hSame.1.symm, hSame.2.symm⟩
      · exact .inr (.inr hOver)
  · rintro (⟨rfl, rfl⟩ | ⟨rest, rfl, rfl⟩ | ⟨rest, rfl, rfl⟩)
    · rfl
    · simp only [String.append_assoc]
    · simp only [String.append_assoc]

theorem derivedKey_eq_iff
    (agent intentId agent' intentId' : String) :
    derivedKey agent intentId = derivedKey agent' intentId' ↔
      agent ++ ":" ++ intentId = agent' ++ ":" ++ intentId' := by
  unfold derivedKey
  simp only [String.append_assoc]
  rw [← String.toList_inj, ← String.toList_inj]
  simp

end Service

end IcpHandler

------------------------------------------------------------
-- Requests with One Key
------------------------------------------------------------

namespace IcpHandler

namespace Service

open Model

/- A request as its client sends it. -/
structure KeyedRequest where
  input : IntentInput
  explicitKey : Option String

def KeyedRequest.key (request : KeyedRequest) :
    Option String :=
  effectiveKey request.input request.explicitKey

/-
  Both gave the same explicit key, or both gave none and carry
  the same intent id of the same agent.
-/
def SameOrigin (first second : KeyedRequest) : Prop :=
  match givenKey first.explicitKey,
      givenKey second.explicitKey with
  | some key, some key' => key = key'
  | none, none =>
      first.input.agent.raw = second.input.agent.raw ∧
        givenIntentId first.input = givenIntentId second.input
  | _, _ => False

/-
  One agent id extends the other past a colon, and the intent
  id of the other makes up for it.
-/
def Overlap
    (agent intentId agent' intentId' : String) : Prop :=
  ∃ rest, Extends agent' agent rest ∧
    Extends intentId rest intentId'

/-
  The ways in which two requests of different origin meet on a
  key: an explicit key that reads as a derived one, or two
  derived keys whose agent and intent ids overlap.
-/
def Clash (first second : KeyedRequest) : Prop :=
  match givenKey first.explicitKey,
      givenKey second.explicitKey with
  | some _, some _ => False
  | some key, none =>
      ∃ id, givenIntentId second.input = some id ∧
        key = derivedKey second.input.agent.raw id
  | none, some key =>
      ∃ id, givenIntentId first.input = some id ∧
        key = derivedKey first.input.agent.raw id
  | none, none =>
      ∃ id id', givenIntentId first.input = some id ∧
        givenIntentId second.input = some id' ∧
        (Overlap first.input.agent.raw id
            second.input.agent.raw id' ∨
          Overlap second.input.agent.raw id'
            first.input.agent.raw id)

/- A text does not extend itself. -/
theorem not_extends_self (text rest : String) :
    ¬ Extends text text rest := by
  intro hExtends
  rw [Extends, eq_colonJoin_iff] at hExtends
  have hLength := congrArg List.length hExtends
  simp at hLength

/- Two overlapping intents share a key and nothing else. -/
theorem derivedKey_separates_iff
    (agent intentId agent' intentId' : String) :
    (derivedKey agent intentId = derivedKey agent' intentId' →
        agent = agent' ∧ intentId = intentId') ↔
      ¬ (Overlap agent intentId agent' intentId' ∨
        Overlap agent' intentId' agent intentId) := by
  rw [derivedKey_eq_iff, colonJoin_eq_iff]
  constructor
  · rintro hSame (⟨rest, hAgent, hId⟩ | ⟨rest, hAgent, hId⟩)
    · obtain ⟨rfl, -⟩ :=
        hSame (.inr (.inl ⟨rest, hAgent, hId⟩))
      exact not_extends_self _ _ hAgent
    · obtain ⟨rfl, -⟩ :=
        hSame (.inr (.inr ⟨rest, hAgent, hId⟩))
      exact not_extends_self _ _ hAgent
  · rintro hApart (hSame | hOver | hOver)
    · exact hSame
    · exact absurd (.inl hOver) hApart
    · exact absurd (.inr hOver) hApart

/-
  Two requests use one key only if they are of one origin,
  exactly when they do not clash.
-/
theorem keys_separate_iff (first second : KeyedRequest) :
    ((∃ key, first.key = some key ∧ second.key = some key) →
        SameOrigin first second) ↔
      ¬ Clash first second := by
  unfold KeyedRequest.key effectiveKey SameOrigin Clash
  cases givenKey first.explicitKey with
  | some key =>
      cases givenKey second.explicitKey with
      | some key' => simp [eq_comm]
      | none =>
          cases givenIntentId second.input with
          | none => simp
          | some id => simp [eq_comm]
  | none =>
      cases givenKey second.explicitKey with
      | some key =>
          cases givenIntentId first.input with
          | none => simp
          | some id => simp [eq_comm]
      | none =>
          cases givenIntentId first.input with
          | none => simp
          | some id =>
              cases givenIntentId second.input with
              | none => simp
              | some id' =>
                  have hDerived :=
                    derivedKey_separates_iff
                      first.input.agent.raw id
                      second.input.agent.raw id'
                  simpa [eq_comm] using hDerived

/- A search under an agent and an intent id of one's choice. -/
private def searchAs
    (agentId intentId : String)
    (explicitKey : Option String) : KeyedRequest where
  input :=
    { sampleInput .search [] none with
      envelope :=
        { intent := "intent.search"
          intentId := some intentId
          agentId := agentId }
      agent := ⟨agentId⟩ }
  explicitKey := explicitKey

/- The agents `did:web:a` and `did:web:a:b` meet on a key. -/
theorem derived_keys_collide :
    ¬ ∀ first second : KeyedRequest,
      (∃ key, first.key = some key ∧ second.key = some key) →
        SameOrigin first second := by
  intro hSeparate
  have hOrigin :=
    hSeparate (searchAs "did:web:a" "b:c" none)
      (searchAs "did:web:a:b" "c" none)
      ⟨"intent:did:web:a:b:c", by decide,
        by decide⟩
  have hAgents : "did:web:a" = "did:web:a:b" := hOrigin.1
  revert hAgents
  decide

end Service

end IcpHandler
