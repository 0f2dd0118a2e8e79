import IcpHandler.Concurrency.TwoRuns
import IcpHandler.Model.Concrete
import IcpHandler.Properties.EventIsolation

/-
  Foreign ids look like missing ids. An intent that names the
  row of another tenant goes in step with the same intent in a
  world without that row: it is refused in the same words, and
  nothing is written in either world.

  Main declarations:
    * `namedRow`, `World.without`
    * `Hidden`
    * `Refuses`
    * `foreign_looks_missing`
-/

------------------------------------------------------------
-- Named Rows
------------------------------------------------------------

namespace IcpHandler

namespace Model

open Data Protocol

/- The world without a row. -/
def World.without (w : World) : Subject → World
  | .txn id =>
      { w with
        transactions := w.transactions.retain (·.id != id) }
  | .sub id =>
      { w with
        subscriptions := w.subscriptions.retain (·.id != id) }
  | .quote id =>
      { w with
        peerQuotes := w.peerQuotes.retain (·.id != id) }

end Model

namespace Protocol

open Model Service Concurrency

/- The row that an intent names, if it is to exist already. -/
def namedRow
    (svc : IcpService)
    (input : IntentInput)
    (intent : Intent) : Option Subject :=
  let params := input.envelope.params
  match intent with
  | .authorize =>
      (svc.deps.authorizeParams params).toOption.map
        fun p => .txn p.transactionId
  | .buy | .pay =>
      (svc.deps.buyParams params).toOption.map
        fun p => .txn p.transactionId
  | .track =>
      (paramsTransactionId input <|>
        input.envelope.transactionId).map .txn
  | .return | .refundRequest =>
      (input.envelope.transactionId <|>
        paramsTransactionId input).map .txn
  | .negotiate =>
      (svc.deps.negotiateParams params).toOption.map
        fun p => .txn p.transactionId
  | .confirmReceipt =>
      (svc.deps.confirmReceiptParams params).toOption.map
        fun p => .txn p.transactionId
  | .renew =>
      (svc.deps.renewParams params).toOption.map
        fun p => .sub p.subscriptionId
  | .pause | .cancelSubscription =>
      (svc.deps.subscriptionRefParams params).toOption.map
        fun p => .sub p.subscriptionId
  | .a2aPay =>
      (svc.deps.a2aPayParams params).toOption.bind
        fun p => p.peerQuoteId.map .quote
  | _ => none

/-
  The row is another tenant's in the first world, and there is
  none in the second. The mandates and the locks are the same.
-/
structure Hidden
    (tenantId : String)
    (subject : Subject)
    (w w' : World) : Prop where
  foreign :
    ∃ owner, ownerIn w subject = some owner ∧ owner ≠ tenantId
  absent : ownerIn w' subject = none
  ledger : w'.ledger = w.ledger
  locks : w'.locks = w.locks

/- A lock changes no row. -/
theorem Hidden.lockedBy
    {tenantId : String}
    {subject : Subject}
    {w w' : World}
    (hHidden : Hidden tenantId subject w w')
    (key : String)
    (thread : Nat) :
    Hidden tenantId subject
      { w with locks := (key, thread) :: w.locks }
      { w' with locks := (key, thread) :: w'.locks } := by
  obtain ⟨hForeign, hAbsent, hLedger, hLocks⟩ := hHidden
  refine ⟨?_, ?_, hLedger, ?_⟩
  · cases subject <;> exact hForeign
  · cases subject <;> exact hAbsent
  · dsimp only
    rw [hLocks]

/- Taking the row away hides it. -/
theorem hidden_without
    {tenantId owner : String}
    {subject : Subject}
    {w : World}
    (hOwner : ownerIn w subject = some owner)
    (hForeign : owner ≠ tenantId) :
    Hidden tenantId subject w (w.without subject) := by
  refine ⟨⟨owner, hOwner, hForeign⟩, ?_, ?_, ?_⟩
  · cases subject with
    | txn id =>
        rw [ownerIn_txn, Option.map_eq_none_iff]
        refine (Data.KeyedStore.get_retain _ _ id).trans ?_
        rw [Option.filter_eq_none_iff]
        intro row hRow
        have hId : row.id = id := Data.KeyedStore.key_of_get hRow
        simp [hId]
    | sub id =>
        rw [ownerIn_sub, Option.map_eq_none_iff]
        refine (Data.KeyedStore.get_retain _ _ id).trans ?_
        rw [Option.filter_eq_none_iff]
        intro row hRow
        have hId : row.id = id := Data.KeyedStore.key_of_get hRow
        simp [hId]
    | quote id =>
        rw [ownerIn_quote, Option.map_eq_none_iff]
        refine (Data.KeyedStore.get_retain _ _ id).trans ?_
        rw [Option.filter_eq_none_iff]
        intro row hRow
        have hId : row.id = id := Data.KeyedStore.key_of_get hRow
        simp [hId]
  · cases subject <;> rfl
  · cases subject <;> rfl

end Protocol

end IcpHandler

------------------------------------------------------------
-- Refusals
------------------------------------------------------------

namespace IcpHandler

namespace Protocol

open Model Service Concurrency

/- The effect looks at the clock, a mandate, or an issuer. -/
def Looks : Eff → Prop
  | .now | .tryUsage _ | .resolve _ => True
  | _ => False

/- The first run is in one world, the second in the other. -/
def At (w w' : World) : World → World → Prop :=
  fun one other => one = w ∧ other = w'

/-
  In both worlds the block stops with the same error, and
  leaves the world as it was.
-/
def Refuses
    {α : Type}
    (rfc3339 : Rfc3339)
    (thread : Nat)
    (w w' : World)
    (body : Svc α) : Prop :=
  Prog.InStep (machine rfc3339) thread (At w w') body.run
    (fun result one other =>
      (∃ halt, result = .error halt) ∧ At w w' one other)

section Refuses

variable {α β : Type}
variable {rfc3339 : Rfc3339}
variable {thread : Nat}
variable {tenantId : String}
variable {subject : Subject}
variable {w w' : World}

/- Looking is the same in both worlds. -/
theorem Hidden.looks
    (hHidden : Hidden tenantId subject w w')
    (choice : Choice)
    (one other : World)
    (effect : Eff)
    (hLooks : Looks effect)
    (hAt : At w w' one other) :
    Option.Rel
      (fun first second =>
        first.1 = second.1 ∧ At w w' first.2 second.2)
      ((machine rfc3339).exec thread choice one effect)
      ((machine rfc3339).exec thread choice other effect) := by
  obtain ⟨rfl, rfl⟩ := hAt
  cases effect with
  | now => exact .some ⟨rfl, rfl, rfl⟩
  | tryUsage jti =>
      refine .some ⟨?_, rfl, rfl⟩
      dsimp only
      rw [hHidden.ledger]
  | resolve did => exact .some ⟨rfl, rfl, rfl⟩
  | _ => exact hLooks.elim

namespace Refuses

theorem bind
    {body : Svc α}
    {next : α → Svc β}
    (hBody : Refuses rfc3339 thread w w' body) :
    Refuses rfc3339 thread w w' (body >>= next) := by
  rw [Refuses, Svc.run_bind_eq]
  refine Prog.InStep.bind hBody fun result => ?_
  rintro choices h h' ⟨⟨halt, rfl⟩, hAt⟩
  exact .some ⟨rfl, rfl, ⟨halt, rfl⟩, hAt⟩

/- After a block that only looks. -/
theorem after
    {body : Svc α}
    {next : α → Svc β}
    (hHidden : Hidden tenantId subject w w')
    (hBody : Svc.Only Looks body)
    (hNext :
      ∀ value, Refuses rfc3339 thread w w' (next value)) :
    Refuses rfc3339 thread w w' (body >>= next) := by
  rw [Refuses, Svc.run_bind_eq]
  refine Prog.InStep.bind
    (Prog.InStep.of_kind (hBody []) hHidden.looks)
    fun result => ?_
  cases result with
  | ok value => exact hNext value
  | error halt =>
      exact .ret fun _ _ hAt => ⟨⟨halt, rfl⟩, hAt⟩

/- A lock that is taken is given back. -/
theorem withLock
    {key : String}
    {body : Svc α}
    (hLocks : w'.locks = w.locks)
    (hBody :
      Refuses rfc3339 thread
        { w with locks := (key, thread) :: w.locks }
        { w' with locks := (key, thread) :: w'.locks } body) :
    Refuses rfc3339 thread w w' (Svc.withLock key body) := by
  unfold Refuses Svc.withLock
  rw [ExceptT.run_mk]
  have hLock :
      Prog.InStep (machine rfc3339) thread (At w w')
        (Prog.perform (.lock key))
        (fun _ =>
          At { w with locks := (key, thread) :: w.locks }
            { w' with
              locks := (key, thread) :: w'.locks }) := by
    refine .perform ?_
    rintro choice one other ⟨rfl, rfl⟩
    unfold machine execEff
    simp only [hLocks]
    split
    · exact .none
    · exact .some ⟨trivial, rfl, rfl⟩
  have hUnlock :
      ∀ result : Except Halt α,
        Prog.InStep (machine rfc3339) thread
          (fun one other =>
            (∃ halt, result = .error halt) ∧
              At { w with locks := (key, thread) :: w.locks }
                { w' with
                  locks := (key, thread) :: w'.locks }
                one other)
          (Prog.perform (.unlock key))
          (fun _ one other =>
            (∃ halt, result = .error halt) ∧
              At w w' one other) := by
    intro result
    refine .perform ?_
    rintro choice one other ⟨hResult, rfl, rfl⟩
    refine .some ⟨rfl, hResult, ?_, ?_⟩
    · simp
    · simp
  refine .bind hLock fun _ => ?_
  refine .bind hBody fun result => ?_
  refine .bind (hUnlock result) fun _ => ?_
  exact .ret fun _ _ hPost => hPost

/-
  A read that answers each world in its own way, to a block
  that then stops in both.
-/
theorem read
    {effect : Eff}
    {next : effect.Res → Svc α}
    (error : ApiError)
    (hRead :
      ∀ choice, ∃ found found',
        execEff rfc3339 thread choice w effect =
          some (found, w) ∧
        execEff rfc3339 thread choice w' effect =
          some (found', w') ∧
        next found = Svc.fail error ∧
        next found' = Svc.fail error) :
    Refuses rfc3339 thread w w' (Svc.act effect >>= next) := by
  change Prog.InStep (machine rfc3339) thread (At w w')
    (Prog.step effect fun answer => (next answer).run) _
  refine .step ?_
  rintro choice one other ⟨rfl, rfl⟩
  obtain ⟨found, found', hOne, hOther, hFound, hFound'⟩ :=
    hRead choice
  simp only [machine, hOne, hOther]
  refine .some ⟨?_, ?_⟩
  · rw [hFound, hFound']
  · rw [hFound]
    exact .ret fun _ _ hAt => ⟨⟨.error error, rfl⟩, hAt⟩

/- The owner check refuses what is another's. -/
theorem checked_fails
    {V : Type}
    {ownerOf : V → String}
    {row : V}
    {error : ApiError}
    (hForeign : ownerOf row ≠ tenantId) :
    (do
      let found ← Svc.orFail error (some row)
      Svc.ensure (ownerOf found == tenantId) error
      pure found : Svc V) = Svc.fail error := by
  have hOther : (ownerOf row == tenantId) = false :=
    beq_eq_false_iff_ne.mpr hForeign
  change Svc.ensure (ownerOf row == tenantId) error >>= _ = _
  rw [hOther]
  rfl

/- Another tenant's transaction is not found, like no one's. -/
theorem transactionForInput
    {id : String}
    {input : IntentInput}
    (hHidden :
      Hidden input.tenant.tenantId (.txn id) w w') :
    Refuses rfc3339 thread w w'
      (Service.transactionForInput id input) := by
  obtain ⟨⟨owner, hOwner, hForeign⟩, hAbsent, -, -⟩ := hHidden
  obtain ⟨row, hRow, rfl⟩ := Option.map_eq_some_iff.mp hOwner
  have hNone : w'.transactions.get id = none :=
    Option.map_eq_none_iff.mp hAbsent
  refine read (.resourceNotFound ("transaction " ++ id))
    fun choice => ⟨_, _, rfl, rfl, ?_, ?_⟩
  · dsimp only
    rw [hRow]
    cases choice.fault with
    | true => rfl
    | false => exact checked_fails hForeign
  · dsimp only
    rw [hNone, ite_self]
    rfl

theorem subscriptionForInput
    {id : String}
    {input : IntentInput}
    (hHidden :
      Hidden input.tenant.tenantId (.sub id) w w') :
    Refuses rfc3339 thread w w'
      (Service.subscriptionForInput id input) := by
  obtain ⟨⟨owner, hOwner, hForeign⟩, hAbsent, -, -⟩ := hHidden
  obtain ⟨row, hRow, rfl⟩ := Option.map_eq_some_iff.mp hOwner
  have hNone : w'.subscriptions.get id = none :=
    Option.map_eq_none_iff.mp hAbsent
  refine read (.resourceNotFound ("subscription " ++ id))
    fun choice => ⟨_, _, rfl, rfl, ?_, ?_⟩
  · dsimp only
    rw [hRow]
    cases choice.fault with
    | true => rfl
    | false => exact checked_fails hForeign
  · dsimp only
    rw [hNone, ite_self]
    rfl

theorem peerQuoteForInput
    {id : String}
    {input : IntentInput}
    (hHidden :
      Hidden input.tenant.tenantId (.quote id) w w') :
    Refuses rfc3339 thread w w'
      (Service.peerQuoteForInput id input) := by
  obtain ⟨⟨owner, hOwner, hForeign⟩, hAbsent, -, -⟩ := hHidden
  obtain ⟨row, hRow, rfl⟩ := Option.map_eq_some_iff.mp hOwner
  have hNone : w'.peerQuotes.get id = none :=
    Option.map_eq_none_iff.mp hAbsent
  refine read (.resourceNotFound ("peer_quote " ++ id))
    fun choice => ⟨_, _, rfl, rfl, ?_, ?_⟩
  · dsimp only
    rw [hRow]
    cases choice.fault with
    | true => rfl
    | false => exact checked_fails hForeign
  · dsimp only
    rw [hNone, ite_self]
    rfl

/- Parameters that are known to be read. -/
theorem decoded
    {ε : Type}
    {toError : ε → ApiError}
    {result : Except ε α}
    {value : α}
    {next : α → Svc β}
    (hResult : result = .ok value)
    (hNext : Refuses rfc3339 thread w w' (next value)) :
    Refuses rfc3339 thread w w'
      (Svc.ofExcept toError result >>= next) := by
  rw [hResult]
  exact hNext

theorem given
    {error : ApiError}
    {found : Option α}
    {value : α}
    {next : α → Svc β}
    (hFound : found = some value)
    (hNext : Refuses rfc3339 thread w w' (next value)) :
    Refuses rfc3339 thread w w'
      (Svc.orFail error found >>= next) := by
  rw [hFound]
  exact hNext

/- A row that is looked up under a lock. -/
theorem lockedTxn
    {id key : String}
    {input : IntentInput}
    {next : Transaction → Svc α}
    (hHidden :
      Hidden input.tenant.tenantId (.txn id) w w') :
    Refuses rfc3339 thread w w'
      (Svc.withLock key
        (Service.transactionForInput id input >>= next)) :=
  withLock hHidden.locks
    (transactionForInput (hHidden.lockedBy key thread)).bind

theorem lockedSub
    {id key : String}
    {input : IntentInput}
    {next : Subscription → Svc α}
    (hHidden :
      Hidden input.tenant.tenantId (.sub id) w w') :
    Refuses rfc3339 thread w w'
      (Svc.withLock key
        (Service.subscriptionForInput id input >>= next)) :=
  withLock hHidden.locks
    (subscriptionForInput (hHidden.lockedBy key thread)).bind

end Refuses

end Refuses

end Protocol

end IcpHandler

------------------------------------------------------------
-- Intents on Named Rows
------------------------------------------------------------

namespace IcpHandler

namespace Protocol

open Model Service Concurrency

/- What the parameters name, they have been read for. -/
theorem decoded_of_named
    {ε α : Type}
    {result : Except ε α}
    {name : α → Subject}
    {subject : Subject}
    (hNamed : result.toOption.map name = some subject) :
    ∃ value, result = .ok value ∧ subject = name value := by
  cases result with
  | ok value =>
      exact ⟨value, rfl, (Option.some.inj hNamed).symm⟩
  | error e => cases hNamed

section Named

variable {svc : IcpService}
variable {rfc3339 : Rfc3339}
variable {input : IntentInput}
variable {mandate : Option MandateEvaluation}
variable {thread : Nat}
variable {subject : Subject}
variable {w w' : World}

theorem refuses_doReturn
    (hHidden : Hidden input.tenant.tenantId subject w w')
    (hNamed :
      (input.envelope.transactionId <|>
        paramsTransactionId input).map .txn = some subject) :
    Refuses rfc3339 thread w w' (doReturn input) := by
  obtain ⟨id, hId, rfl⟩ := Option.map_eq_some_iff.mp hNamed
  exact .given hId (.lockedTxn hHidden)

theorem refuses_doTrack
    (hHidden : Hidden input.tenant.tenantId subject w w')
    (hNamed :
      (paramsTransactionId input <|>
        input.envelope.transactionId).map .txn =
          some subject) :
    Refuses rfc3339 thread w w' (doTrack input) := by
  obtain ⟨id, hId, rfl⟩ := Option.map_eq_some_iff.mp hNamed
  exact .given hId (Refuses.transactionForInput hHidden).bind

theorem refuses_doBuy
    (hHidden : Hidden input.tenant.tenantId subject w w')
    (hNamed :
      ((svc.deps.buyParams input.envelope.params).toOption.map
        fun p => .txn p.transactionId) = some subject) :
    Refuses rfc3339 thread w w' (doBuy svc input mandate) := by
  obtain ⟨params, hParams, rfl⟩ := decoded_of_named hNamed
  refine .decoded hParams ?_
  refine .after hHidden (Svc.Only.ofExcept _ _) fun _ => ?_
  exact .lockedTxn hHidden

theorem refuses_doNegotiate
    (hHidden : Hidden input.tenant.tenantId subject w w')
    (hNamed :
      ((svc.deps.negotiateParams
        input.envelope.params).toOption.map
          fun p => .txn p.transactionId) = some subject) :
    Refuses rfc3339 thread w w' (doNegotiate svc input) := by
  obtain ⟨params, hParams, rfl⟩ := decoded_of_named hNamed
  refine .decoded hParams ?_
  refine .after hHidden (Svc.Only.ensure _ _) fun _ => ?_
  refine .after hHidden (Svc.Only.ensure _ _) fun _ => ?_
  exact .lockedTxn hHidden

theorem refuses_doRenew
    (hHidden : Hidden input.tenant.tenantId subject w w')
    (hNamed :
      ((svc.deps.renewParams
        input.envelope.params).toOption.map
          fun p => .sub p.subscriptionId) = some subject) :
    Refuses rfc3339 thread w w'
      (doRenew svc input mandate) := by
  obtain ⟨params, hParams, rfl⟩ := decoded_of_named hNamed
  refine .decoded hParams ?_
  refine .after hHidden (Svc.Only.ofExcept _ _) fun _ => ?_
  exact .lockedSub hHidden

/- A payment looks at the clock first, under the lock. -/
theorem refuses_doA2aPay
    (hHidden : Hidden input.tenant.tenantId subject w w')
    (hNamed :
      ((svc.deps.a2aPayParams
        input.envelope.params).toOption.bind
          fun p => p.peerQuoteId.map .quote) = some subject) :
    Refuses rfc3339 thread w w'
      (doA2aPay svc input mandate) := by
  obtain ⟨params, hOption, hQuote⟩ :=
    Option.bind_eq_some_iff.mp hNamed
  obtain ⟨quoteId, hId, rfl⟩ := Option.map_eq_some_iff.mp hQuote
  obtain ⟨value, hParams, rfl⟩ :
      ∃ value, svc.deps.a2aPayParams input.envelope.params =
        .ok value ∧ params = value := by
    cases hResult :
        svc.deps.a2aPayParams input.envelope.params with
    | ok value =>
        rw [hResult] at hOption
        exact ⟨value, rfl, (Option.some.inj hOption).symm⟩
    | error e =>
        rw [hResult] at hOption
        cases hOption
  refine .decoded hParams ?_
  refine .after hHidden (Svc.Only.ensure _ _) fun _ => ?_
  have hPayment :
      Svc.Only Looks (ensureA2aPayment svc params) := by
    unfold ensureA2aPayment
    dsimp only
    split
    · exact Svc.Only.ofExcept _ _
    · exact Svc.Only.ensure _ _
  refine .after hHidden hPayment fun _ => ?_
  rw [hId]
  refine .withLock hHidden.locks ?_
  have hLocked := hHidden.lockedBy (quoteLock quoteId) thread
  have hNow : Svc.Only Looks (Svc.act .now) :=
    Svc.Only.act trivial
  refine .after hLocked hNow fun now => ?_
  rw [hId]
  exact (Refuses.peerQuoteForInput hLocked).bind.bind

theorem refuses_dispatch
    {intent : Intent}
    (hHidden : Hidden input.tenant.tenantId subject w w')
    (hNamed : namedRow svc input intent = some subject) :
    Refuses rfc3339 thread w w'
      (dispatch svc intent input mandate) := by
  cases intent with
  | authorize =>
      obtain ⟨params, hParams, rfl⟩ := decoded_of_named hNamed
      exact .decoded hParams (.lockedTxn hHidden)
  | buy => exact refuses_doBuy hHidden hNamed
  | pay => exact refuses_doBuy hHidden hNamed
  | track => exact refuses_doTrack hHidden hNamed
  | «return» => exact refuses_doReturn hHidden hNamed
  | refundRequest => exact refuses_doReturn hHidden hNamed
  | negotiate => exact refuses_doNegotiate hHidden hNamed
  | confirmReceipt =>
      obtain ⟨params, hParams, rfl⟩ := decoded_of_named hNamed
      exact .decoded hParams (.lockedTxn hHidden)
  | renew => exact refuses_doRenew hHidden hNamed
  | pause =>
      obtain ⟨params, hParams, rfl⟩ := decoded_of_named hNamed
      exact .decoded hParams (.lockedSub hHidden)
  | cancelSubscription =>
      obtain ⟨params, hParams, rfl⟩ := decoded_of_named hNamed
      exact .decoded hParams (.lockedSub hHidden)
  | a2aPay => exact refuses_doA2aPay hHidden hNamed
  | _ => cases hNamed

theorem refuses_handleIntent
    {intent : Intent}
    (hHidden : Hidden input.tenant.tenantId subject w w')
    (hIntent :
      Intent.parse input.envelope.intent = .ok intent)
    (hNamed : namedRow svc input intent = some subject) :
    Refuses rfc3339 thread w w' (handleIntent svc input) := by
  refine .after hHidden (Svc.Only.ensure _ _) fun _ => ?_
  refine .decoded hIntent ?_
  have hNow : Looks .now := trivial
  refine .after hHidden
    (only_mandateFor hNow (fun _ => trivial)
      (fun _ => trivial) intent) fun mandate => ?_
  refine .after hHidden (only_ensureSubject mandate)
    fun _ => ?_
  exact (refuses_dispatch hHidden hNamed).bind

/- An intent that runs alone in a world. -/
def intentAlone
    (svc : IcpService)
    (input : IntentInput)
    (thread : Nat)
    (choices : List Choice)
    (w : World) :
    Option (Except Halt IntentResponseBody ×
      History Eff.Res World × List Choice) :=
  (handleIntent svc input).run.eval (machine svc.deps.rfc3339)
    thread choices (.start w)

/-
  An intent that names the row of another tenant ends as it
  does where there is no such row: with the same error, after
  the same choices. It leaves either world as it found it.
-/
theorem foreign_looks_missing
    (svc : IcpService)
    (input : IntentInput)
    (intent : Intent)
    (hIntent :
      Intent.parse input.envelope.intent = .ok intent)
    (subject : Subject)
    (hNamed : namedRow svc input intent = some subject)
    (w : World)
    (owner : String)
    (hOwner : ownerIn w subject = some owner)
    (hForeign : owner ≠ input.tenant.tenantId)
    (thread : Nat)
    (choices : List Choice) :
    (intentAlone svc input thread choices w).map
          (fun one => (one.1, one.2.2)) =
        (intentAlone svc input thread choices
          (w.without subject)).map
            (fun other => (other.1, other.2.2)) ∧
      (∀ one,
        intentAlone svc input thread choices w = some one →
          (∃ halt, one.1 = .error halt) ∧ one.2.1.world = w) ∧
      ∀ other,
        intentAlone svc input thread choices
            (w.without subject) = some other →
          other.2.1.world = w.without subject := by
  have hRefuses :
      Refuses svc.deps.rfc3339 thread w (w.without subject)
        (handleIntent svc input) :=
    refuses_handleIntent (hidden_without hOwner hForeign)
      hIntent hNamed
  unfold intentAlone
  rcases Prog.rel_cases
      (hRefuses choices (.start w)
        (.start (w.without subject)) ⟨rfl, rfl⟩) with
    ⟨hOne, hOther⟩ |
      ⟨one, other, hOne, hOther, hValue, hChoices, hHalt, hAt⟩
  · rw [hOne, hOther]
    refine ⟨rfl, ?_, ?_⟩
    · exact fun _ hRun => nomatch hRun
    · exact fun _ hRun => nomatch hRun
  · rw [hOne, hOther]
    refine ⟨?_, ?_, ?_⟩
    · rw [Option.map_some, Option.map_some, hValue, hChoices]
    · intro last hRun
      cases hRun
      exact ⟨hHalt, hAt.1⟩
    · intro last hRun
      cases hRun
      exact hAt.2

/- An authorization of a transaction that is the rival's. -/
private def foreignAuthorize : IntentInput :=
  sampleInput .authorize [("transaction_id", .str "X")] none

private def rivalWorld : World :=
  { World.fresh (.memory ∅) [] with
    transactions :=
      Data.KeyedStore.empty.insert
        { id := "X"
          state := .quoted
          agentId := "bot"
          tenantId := "rival"
          mandateJti := none
          currency := "USD"
          jurisdiction := none
          buyer := {}
          shipTo := none
          billTo := none
          lineItems := []
          totals := {}
          orderId := none
          quoteExpiresAt := none
          createdAt := 0
          updatedAt := 0
          externalRefs := ∅ } }

theorem foreign_looks_missing_sample :
    ∃ one other,
      intentAlone concreteService foreignAuthorize 0
          (sampleChoices 0) rivalWorld = some one ∧
      intentAlone concreteService foreignAuthorize 0
          (sampleChoices 0) (rivalWorld.without (.txn "X")) =
        some other ∧
      one.1 = other.1 ∧
      one.2.1.world = rivalWorld := by
  have hRuns :
      (intentAlone concreteService foreignAuthorize 0
          (sampleChoices 0) rivalWorld).isSome ∧
        (intentAlone concreteService foreignAuthorize 0
          (sampleChoices 0)
            (rivalWorld.without (.txn "X"))).isSome := by
    decide
  obtain ⟨hOne, hOther⟩ := hRuns
  obtain ⟨one, hOne⟩ := Option.isSome_iff_exists.mp hOne
  obtain ⟨other, hOther⟩ := Option.isSome_iff_exists.mp hOther
  have hBoth :=
    foreign_looks_missing concreteService foreignAuthorize
      .authorize (by decide) (.txn "X")
      (by decide) rivalWorld "rival"
      (by decide) (by decide) 0 (sampleChoices 0)
  refine ⟨one, other, hOne, hOther, ?_, (hBoth.2.1 one hOne).2⟩
  have hSame := hBoth.1
  rw [hOne, hOther, Option.map_some, Option.map_some] at hSame
  exact (Prod.mk.inj (Option.some.inj hSame)).1

end Named

end Protocol

end IcpHandler
