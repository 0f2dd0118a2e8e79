import IcpHandler.Model.Concrete
import IcpHandler.Protocol.Announcements
import IcpHandler.Protocol.Runs

/-
  Whose event it is. The filter of the event streams goes by
  the rows that are stored when it looks, and the operation by
  the rows it has seen. The two agree as long as no other
  tenant's transaction is put in the place of one that the
  operation has seen, and its own insertions land.

  Main declarations:
    * `ownerIn`
    * `insertedTxn`, `LeavesOwners`
    * `OwnersKept`
    * `event_belongs_iff`
-/

------------------------------------------------------------
-- Owners
------------------------------------------------------------

namespace IcpHandler

namespace Protocol

open Model Service Concurrency

/- The owner of a row, by the stores of a world. -/
def ownerIn (w : World) : Subject → Option String
  | .txn id => (w.transactions.get id).map Transaction.tenantId
  | .sub id =>
      (w.subscriptions.get id).map Subscription.tenantId
  | .quote id => (w.peerQuotes.get id).map PeerQuote.tenantId

section Stored

variable {w : World}
variable {id : String}

@[simp] theorem ownerIn_txn :
    ownerIn w (.txn id) =
      (w.transactions.get id).map Transaction.tenantId :=
  rfl

@[simp] theorem ownerIn_sub :
    ownerIn w (.sub id) =
      (w.subscriptions.get id).map Subscription.tenantId :=
  rfl

@[simp] theorem ownerIn_quote :
    ownerIn w (.quote id) =
      (w.peerQuotes.get id).map PeerQuote.tenantId :=
  rfl

end Stored

/- The filter asks for the owner of the row of the event. -/
theorem eventBelongsToTenant_iff
    {w : World}
    {event : Event}
    {tenantId : String} :
    eventBelongsToTenant w event tenantId = true ↔
      ∃ subject, subjectOf event = some subject ∧
        ownerIn w subject = some tenantId := by
  unfold eventBelongsToTenant subjectOf
  cases event.transactionId with
  | some id => simp [Option.any_eq_true]
  | none =>
      dsimp only
      cases payloadText event "subscription_id" with
      | some id => simp [Option.any_eq_true]
      | none =>
          dsimp only
          cases payloadText event "peer_quote_id" with
          | some id => simp [Option.any_eq_true]
          | none => simp

/- The transaction that an occurrence inserts. -/
def insertedTxn (o : Happening) : Option Transaction :=
  match o.effect with
  | .txns (.insert row) => some row
  | .insertCharge row _ => some row
  | _ => none

/-
  An insertion leaves the transactions that the thread has
  seen to the tenants it has seen them with, and lands where
  it is the thread's own.
-/
def LeavesOwners
    (thread : Nat)
    (older : Past)
    (o : Happening) : Prop :=
  ∀ row ∈ insertedTxn o,
    (o.thread = thread →
      ownerIn o.after (.txn row.id) = some row.tenantId) ∧
    ∀ move ∈ own thread older,
      ∀ tenantId ∈ shownTenants (.txn row.id) move,
        tenantId = row.tenantId

instance
    (thread : Nat)
    (older : Past)
    (o : Happening) :
    Decidable (LeavesOwners thread older o) := by
  unfold LeavesOwners
  infer_instance

section Owners

variable {svc : IcpService}
variable {ops : Nat → Op}
variable {w : World}
variable {h : History Eff.Res World}
variable {o : Happening}
variable {thread : Nat}
variable {subject : Subject}
variable {tenantId : String}

/- What a thread has seen of owners is still so. -/
def OwnersKept
    (thread : Nat)
    (h : History Eff.Res World) : Prop :=
  ∀ subject tenantId,
    Owns tenantId subject (own thread h.past) →
      ownerIn h.world subject = some tenantId

theorem insertedTxn_of_effect
    {row : Transaction}
    (hEffect :
      o.effect = .txns (.insert row) ∨
        ∃ bills, o.effect = .insertCharge row bills) :
    insertedTxn o = some row := by
  unfold insertedTxn
  rcases hEffect with hEffect | ⟨bills, hEffect⟩
  · rw [hEffect]
  · rw [hEffect]

/- What was seen before the occurrence outlives it. -/
theorem owner_kept
    (hLawful : LawfulRun svc ops w h)
    (hNone : w.issued = [])
    (hExec : Executes svc.deps.rfc3339 o)
    (hBefore : o.before = h.world)
    (hRule :
      Rule svc (ops o.thread) (own o.thread h.past) o.effect)
    (hLeaves : LeavesOwners thread h.past o)
    (hOwns : Owns tenantId subject (own thread h.past))
    (hOwner : ownerIn h.world subject = some tenantId) :
    ownerIn o.after subject = some tenantId := by
  rw [← hBefore] at hOwner
  cases subject with
  | txn id =>
      rw [ownerIn_txn] at hOwner ⊢
      cases hExec.txnChange id with
      | kept hKept => rwa [hKept]
      | inserted row hEffect hId hAfter =>
          subst hId
          obtain ⟨move, hMem, hShows⟩ := hOwns
          have hSame :=
            (hLeaves row (insertedTxn_of_effect hEffect)).2 move
              hMem tenantId hShows
          rw [hAfter, hSame]
          rfl
      | patched patch row _ hRow hAfter =>
          rw [hRow] at hOwner
          rw [hAfter, Option.map_some, TxnPatch.apply_tenantId]
          exact hOwner
  | sub id =>
      rw [ownerIn_sub] at hOwner ⊢
      cases hExec.subChange id with
      | kept hKept => rwa [hKept]
      | inserted row hEffect hId hAfter =>
          subst hId
          rw [hEffect] at hRule
          obtain ⟨old, hOld, -⟩ :=
            Option.map_eq_some_iff.mp hOwner
          rw [hBefore] at hOld
          exact (hLawful.not_inserted hNone hRule hOld).elim
      | patched patch row _ hRow hAfter =>
          rw [hRow] at hOwner
          rw [hAfter, Option.map_some, SubPatch.apply_tenantId]
          exact hOwner
  | quote id =>
      rw [ownerIn_quote] at hOwner ⊢
      cases hExec.quoteChange id with
      | kept hKept => rwa [hKept]
      | inserted row hEffect hId hAfter =>
          subst hId
          rw [hEffect] at hRule
          obtain ⟨old, hOld, -⟩ :=
            Option.map_eq_some_iff.mp hOwner
          rw [hBefore] at hOld
          exact (hLawful.quote_not_inserted hNone hRule
            hOld).elim
      | patched patch row _ hRow hAfter =>
          rw [hRow] at hOwner
          rw [hAfter, Option.map_some,
            QuotePatch.apply_tenantId]
          exact hOwner

/- What an occurrence shows of owners is so. -/
theorem owner_shown
    (hExec : Executes svc.deps.rfc3339 o)
    (hLeaves : LeavesOwners thread h.past o)
    (hThread : o.thread = thread)
    (hShows : tenantId ∈ shownTenants subject o.move) :
    ownerIn o.after subject = some tenantId := by
  have hInserted :
      ∀ row id, insertedTxn o = some row →
        tenantId ∈
            (if row.id = id then [row.tenantId] else []) →
          ownerIn o.after (.txn id) = some tenantId := by
    intro row id hRow hIn
    split at hIn
    · rename_i hId
      rw [← hId, List.mem_singleton.mp hIn]
      exact (hLeaves row hRow).1 hThread
    · cases hIn
  unfold shownTenants at hShows
  split at hShows
  · rename_i id row _ hMove
    refine hInserted row id (insertedTxn_of_effect (.inl ?_))
      hShows
    exact congrArg Move.effect hMove
  · rename_i id row bills _ hMove
    refine hInserted row id
      (insertedTxn_of_effect (.inr ⟨bills, ?_⟩)) hShows
    exact congrArg Move.effect hMove
  · rename_i id key row hMove
    split at hShows
    · rename_i hKey
      rw [List.mem_singleton.mp hShows, ← hKey]
      have hEffect : o.effect = .txns (.get key) :=
        congrArg Move.effect hMove
      have hQuiet : o.effect.touchesTxns = false := by
        rw [hEffect]
        rfl
      rw [ownerIn_txn, hExec.framed.transactions hQuiet,
        hExec.readTxn hMove]
      rfl
    · cases hShows
  · rename_i id now due hMove
    simp only [List.mem_map, List.mem_filter,
      decide_eq_true_eq] at hShows
    obtain ⟨row, ⟨hRow, rfl⟩, rfl⟩ := hShows
    have hEffect : o.effect = .txns (.listDue now) :=
      congrArg Move.effect hMove
    have hQuiet : o.effect.touchesTxns = false := by
      rw [hEffect]
      rfl
    rw [ownerIn_txn, hExec.framed.transactions hQuiet,
      ((hExec.listTxns hMove).1 row hRow).1]
    rfl
  · rename_i id now due hMove
    simp only [List.mem_map, List.mem_filter,
      decide_eq_true_eq] at hShows
    obtain ⟨row, ⟨hRow, rfl⟩, rfl⟩ := hShows
    have hEffect : o.effect = .subs (.listDue now) :=
      congrArg Move.effect hMove
    have hQuiet : o.effect.touchesSubs = false := by
      rw [hEffect]
      rfl
    rw [ownerIn_sub, hExec.framed.subscriptions hQuiet,
      (hExec.listSubs hMove row hRow).1]
    rfl
  · rename_i id now due hMove
    simp only [List.mem_map, List.mem_filter,
      decide_eq_true_eq] at hShows
    obtain ⟨row, ⟨hRow, rfl⟩, rfl⟩ := hShows
    have hEffect : o.effect = .quotes (.listDue now) :=
      congrArg Move.effect hMove
    have hQuiet : o.effect.touchesQuotes = false := by
      rw [hEffect]
      rfl
    rw [ownerIn_quote, hExec.framed.peerQuotes hQuiet,
      (hExec.listQuotes hMove row hRow).1]
    rfl
  · cases hShows

/- By induction on the run. -/
theorem ownersKept_of_conforms
    (hLawful : LawfulRun svc ops w h)
    (hNone : w.issued = [])
    (hLeaves : Conforms (LeavesOwners thread) h.past) :
    OwnersKept thread h := by
  refine Lawful.induct hLawful hLeaves ?_ ?_
  · rintro subject tenantId ⟨move, hMem, -⟩
    cases hMem
  · intro h o hBefore hKept hAllows hRule hLeaves subject
      tenantId hOwns
    have hExec := executes_of_allows hAllows
    have hOlder :
        Owns tenantId subject (own thread h.past) →
          ownerIn o.after subject = some tenantId :=
      fun hOwns =>
        owner_kept hBefore hNone hExec hAllows.before_eq hRule
          hLeaves hOwns (hKept subject tenantId hOwns)
    rw [History.push_world]
    rw [History.push_past, own_cons] at hOwns
    split at hOwns
    · rename_i hThread
      rcases hOwns.of_cons with hShows | hSeen
      · exact owner_shown hExec hLeaves hThread hShows
      · exact hOlder hSeen
    · exact hOlder hOwns

/- The row that a key is answered with has that key. -/
theorem answersAs_eq
    {seen : Subject}
    (hExec : Executes svc.deps.rfc3339 o)
    (hAnswers : AnswersAs seen subject o.move) :
    subject = seen := by
  unfold AnswersAs at hAnswers
  split at hAnswers
  · rename_i key id asked row hMove
    obtain ⟨rfl, rfl⟩ := hAnswers
    have hKey : row.id = asked :=
      Data.KeyedStore.key_of_get (hExec.readTxn hMove)
    rw [hKey]
  · rename_i key id asked patch row hMove
    obtain ⟨rfl, rfl⟩ := hAnswers
    obtain ⟨-, -, -, hAfter⟩ := hExec.updatedTxn hMove
    have hKey : row.id = asked :=
      Data.KeyedStore.key_of_get hAfter
    rw [hKey]
  · exact hAnswers.elim

/- What an event is about has the owner that was seen. -/
theorem Located.owns
    (hLawful : LawfulRun svc ops w h)
    (hLocated : Located tenantId subject (own thread h.past)) :
    Owns tenantId subject (own thread h.past) := by
  obtain ⟨seen, hOwns, hSubject⟩ := hLocated
  have hSame : subject = seen := by
    rcases hSubject with rfl | ⟨move, hMem, hAnswers⟩
    · rfl
    · obtain ⟨o, hPast, -, rfl⟩ := mem_own_iff.mp hMem
      exact answersAs_eq (hLawful.executes hPast) hAnswers
  rwa [hSame]

/- What is meant for two tenants is meant for one. -/
theorem MeantFor.unique
    {op : Op}
    {older : Moves}
    {first second : String}
    (hOwner :
      ∀ subject tenantId, Owns tenantId subject older →
        ownerIn h.world subject = some tenantId)
    (hFirst : MeantFor op older first)
    (hSecond : MeantFor op older second) :
    first = second := by
  have hRow :
      ∀ {first second : String},
        (∃ subject, actedOn older = some subject ∧
          Owns first subject older) →
        (∃ subject, actedOn older = some subject ∧
          Owns second subject older) →
        first = second := by
    rintro first second ⟨subject, hActed, hFirst⟩
      ⟨other, hOther, hSecond⟩
    rw [hActed] at hOther
    cases hOther
    have hBoth :=
      (hOwner subject first hFirst).symm.trans
        (hOwner subject second hSecond)
    exact Option.some.inj hBoth
  cases op with
  | intent input => exact Eq.trans hFirst (Eq.symm hSecond)
  | tickSubscriptions now => exact hRow hFirst hSecond
  | tickExpiries now => exact hRow hFirst hSecond

end Owners

end Protocol

end IcpHandler

------------------------------------------------------------
-- Events
------------------------------------------------------------

namespace IcpHandler

namespace Protocol

open Model Service Concurrency

/- An event belongs to whom it is meant for, and to no other. -/
def BelongsAsMeant
    (ops : Nat → Op)
    (w : World)
    (older : Past)
    (o : Happening) : Prop :=
  ∀ event, o.effect = .emit event → ∀ tenantId,
    eventBelongsToTenant w event tenantId = true ↔
      MeantFor (ops o.thread) (own o.thread older) tenantId

/-
  In every run in which the insertions leave the owners that
  the emitting operation has seen, its events belong to the
  tenants they are meant for: right after they have been put
  on the bus, and ever after.
-/
theorem event_belongs_iff
    (svc : IcpService)
    (ops : Nat → Op)
    (w : World)
    (hNone : w.issued = [])
    (pool : Pool Eff.Res World OpResult)
    (hReaches : Reaches svc ops w pool)
    (recent older : Past)
    (o : Happening)
    (hPast : pool.history.past = recent ++ o :: older)
    (hLeaves :
      Conforms (LeavesOwners o.thread) pool.history.past) :
    BelongsAsMeant ops pool.history.world older o := by
  intro event hEmit tenantId
  have hLawful := hReaches.lawful
  obtain ⟨schedule, hRun⟩ := hReaches
  -- What the operation says of its event when it emits it.
  have hTraced :
      ∀ thread, ((ops thread).prog svc).Traced
        (AnnounceRule (ops thread)) (fun _ _ => True) [] :=
    fun thread => announce_traced svc (ops thread)
  have hAnnounced := (Pool.run_lawful .start hTraced hRun).1
  obtain ⟨-, -, -, -, hRule⟩ := hAnnounced.cut hPast
  rw [hEmit] at hRule
  obtain ⟨meant, subject, hMeant, hSubject, hLocated⟩ := hRule
  -- What it had seen then is still so.
  have hKept := ownersKept_of_conforms hLawful hNone hLeaves
  have hOwn :
      own o.thread pool.history.past =
        (own o.thread recent ++ [o.move]) ++
          own o.thread older := by
    rw [hPast, own_append, own_cons_self, List.append_assoc,
      List.singleton_append]
  have hOwner :
      ∀ subject tenantId,
        Owns tenantId subject (own o.thread older) →
          ownerIn pool.history.world subject =
            some tenantId := by
    intro subject tenantId hOwns
    refine hKept subject tenantId ?_
    rw [hOwn]
    exact hOwns.append _
  have hStored :
      ownerIn pool.history.world subject = some meant := by
    refine hKept subject meant (Located.owns hLawful ?_)
    rw [hOwn]
    exact hLocated.append _
  rw [eventBelongsToTenant_iff]
  constructor
  · rintro ⟨other, hOther, hBelongs⟩
    rw [hSubject] at hOther
    cases hOther
    rw [hStored] at hBelongs
    cases hBelongs
    exact hMeant
  · intro hFor
    rw [hFor.unique hOwner hMeant]
    exact ⟨subject, hSubject, hStored⟩

/- A search under an id, beside a rival's search under "X". -/
private def searchOps (transactionId : String) : Nat → Op
  | 0 =>
      .intent (sampleInput .search [] (some transactionId))
  | _ =>
      .intent
        { sampleInput .search [] (some "X") with
          tenant := ⟨"rival"⟩ }

/- The rival stores its row before the event is emitted. -/
private def searchSchedule : List (Nat × Choice) :=
  [(0, {}), (0, {}), (0, {}), (0, {}), (0, { token := "a" }),
    (0, { token := "b" }), (0, {}), (1, {}), (1, {}), (1, {}),
    (0, {})]

private def searched
    (transactionId : String) :
    Option (Pool Eff.Res World OpResult) :=
  runOf concreteService (searchOps transactionId)
    (.fresh (.memory ∅) []) searchSchedule

/- The event that was emitted last. -/
private def lastEvent (o : Happening) : Option Event :=
  match o.effect with
  | .emit event => some event
  | _ => none

private theorem lastEvent_eq
    {o : Happening}
    {event : Event}
    (hLast : lastEvent o = some event) :
    o.effect = .emit event := by
  unfold lastEvent at hLast
  split at hLast
  · rename_i emitted hEffect
    rw [hEffect, Option.some.inj hLast]
  · cases hLast

/- The event of one tenant can end up with another. -/
theorem event_reaches_rival :
    ¬ ∀ svc ops ledger subscribers pool,
      Reaches svc ops (.fresh ledger subscribers) pool →
      ∀ o older, pool.history.past = o :: older →
        BelongsAsMeant ops pool.history.world older o := by
  intro hAll
  have hRun :
      ((searched "X").any fun pool =>
        pool.history.past.head?.any fun o =>
          o.thread == 0 &&
            (lastEvent o).any fun event =>
              eventBelongsToTenant pool.history.world event
                "rival") = true := by
    decide
  obtain ⟨pool, hPool, hChecks⟩ :=
    (Option.any_eq_true _ _).mp hRun
  obtain ⟨o, hHead, hLast⟩ := (Option.any_eq_true _ _).mp hChecks
  rw [Bool.and_eq_true, beq_iff_eq] at hLast
  obtain ⟨hThread, hEvent⟩ := hLast
  obtain ⟨event, hEmit, hRival⟩ :=
    (Option.any_eq_true _ _).mp hEvent
  obtain ⟨older, hPast⟩ := List.head?_eq_some_iff.mp hHead
  have hMeant :=
    (hAll concreteService _ _ _ pool ⟨searchSchedule, hPool⟩ o
      older hPast event (lastEvent_eq hEmit) "rival").mp hRival
  rw [hThread] at hMeant
  have hSame : "rival" = "acme" := hMeant
  exact absurd hSame (by decide)

theorem event_belongs_iff_sample :
    ∃ pool o older event,
      searched "Y" = some pool ∧
      pool.history.past = o :: older ∧
      o.effect = .emit event ∧
      ∀ tenantId,
        eventBelongsToTenant pool.history.world event
            tenantId = true ↔ tenantId = "acme" := by
  have hRun :
      ((searched "Y").any fun pool =>
        pool.history.past.head?.any fun o =>
          o.thread == 0 && (lastEvent o).isSome &&
            decide (Conforms (LeavesOwners 0)
              pool.history.past)) = true := by
    decide
  obtain ⟨pool, hPool, hChecks⟩ :=
    (Option.any_eq_true _ _).mp hRun
  obtain ⟨o, hHead, hLast⟩ := (Option.any_eq_true _ _).mp hChecks
  simp only [Bool.and_eq_true, beq_iff_eq,
    decide_eq_true_eq] at hLast
  obtain ⟨⟨hThread, hSome⟩, hLeaves⟩ := hLast
  obtain ⟨event, hEvent⟩ := Option.isSome_iff_exists.mp hSome
  obtain ⟨older, hPast⟩ := List.head?_eq_some_iff.mp hHead
  have hEmit := lastEvent_eq hEvent
  refine ⟨pool, o, older, event, hPool, hPast, hEmit, ?_⟩
  intro tenantId
  have hBelongs :=
    event_belongs_iff concreteService (searchOps "Y") _ rfl pool
      ⟨searchSchedule, hPool⟩ [] older o hPast
      (by rw [hThread]; exact hLeaves) event hEmit tenantId
  rw [hThread] at hBelongs
  exact hBelongs

end Protocol

end IcpHandler
