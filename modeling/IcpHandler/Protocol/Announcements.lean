import IcpHandler.Protocol.Payments
import IcpHandler.Protocol.PlainBlocks
import IcpHandler.Service.EventStream

/-
  What the events of the handler are about. Every event is put
  on the bus after the operation has seen, or stored, the row
  that the event names, and that row was shown to belong to
  the tenant the event is meant for.

  Main declarations:
    * `Subject`, `subjectOf`
    * `shownTenants`, `Owns`
    * `MeantFor`, `Located`
    * `AnnounceRule`
    * `announce_traced`
-/

------------------------------------------------------------
-- The Rule
------------------------------------------------------------

namespace IcpHandler

namespace Protocol

open Model Service Concurrency

/- The row that an event is about. -/
inductive Subject where
  | txn (id : String)
  | sub (id : String)
  | quote (id : String)
  deriving DecidableEq

/- The row by which the filter finds the owner of an event. -/
def subjectOf (event : Event) : Option Subject :=
  match event.transactionId with
  | some id => some (.txn id)
  | none =>
      match payloadText event "subscription_id" with
      | some id => some (.sub id)
      | none =>
          (payloadText event "peer_quote_id").map .quote

/- The tenants that a move shows a row to belong to. -/
def shownTenants :
    Subject → Move Eff.Res → List String
  | .txn id, ⟨.txns (.insert row), _⟩ =>
      if row.id = id then [row.tenantId] else []
  | .txn id, ⟨.insertCharge row _, _⟩ =>
      if row.id = id then [row.tenantId] else []
  | .txn id, ⟨.txns (.get key), some row⟩ =>
      if key = id then [row.tenantId] else []
  | .txn id, ⟨.txns (.listDue _), due⟩ =>
      ((due : List Transaction).filter (·.id = id)).map
        Transaction.tenantId
  | .sub id, ⟨.subs (.listDue _), due⟩ =>
      ((due : List Subscription).filter (·.id = id)).map
        Subscription.tenantId
  | .quote id, ⟨.quotes (.listDue _), due⟩ =>
      ((due : List PeerQuote).filter (·.id = id)).map
        PeerQuote.tenantId
  | _, _ => []

/- The operation has seen that the row is the tenant's. -/
def Owns
    (tenantId : String)
    (subject : Subject)
    (past : Moves) : Prop :=
  ∃ move ∈ past, tenantId ∈ shownTenants subject move

/- The row that was answered under the key has this id. -/
def AnswersAs :
    Subject → Subject → Move Eff.Res → Prop
  | .txn key, .txn id, ⟨.txns (.get asked), some row⟩ =>
      asked = key ∧ row.id = id
  | .txn key, .txn id, ⟨.txns (.update asked _), some row⟩ =>
      asked = key ∧ row.id = id
  | _, _, _ => False

/- The row is one that was seen to be the tenant's. -/
def Located
    (tenantId : String)
    (subject : Subject)
    (past : Moves) : Prop :=
  ∃ seen, Owns tenantId seen past ∧
    (subject = seen ∨
      ∃ move ∈ past, AnswersAs seen subject move)

/- The row that the operation has written last. -/
def actedOn : Moves → Option Subject
  | [] => none
  | ⟨.txns (.update id _), _⟩ :: _ => some (.txn id)
  | ⟨.subs (.update id _), _⟩ :: _ => some (.sub id)
  | ⟨.quotes (.update id _), _⟩ :: _ => some (.quote id)
  | _ :: past => actedOn past

/-
  The tenant an event is meant for: that of the intent, or
  that of the row that a tick has listed and acted on.
-/
def MeantFor
    (op : Op)
    (past : Moves)
    (tenantId : String) : Prop :=
  match op with
  | .intent input => tenantId = input.tenant.tenantId
  | _ =>
      ∃ subject, actedOn past = some subject ∧
        Owns tenantId subject past

/- What an event is about was seen to be the tenant's. -/
def AnnounceRule
    (op : Op)
    (past : Moves) : Eff → Prop
  | .emit event =>
      ∃ tenantId subject, MeantFor op past tenantId ∧
        subjectOf event = some subject ∧
        Located tenantId subject past
  | _ => True

/- The effect puts nothing on the bus. -/
def Silent (effect : Eff) : Prop :=
  effect.announces = false

theorem Plain.silent
    {effect : Eff}
    (hPlain : Plain effect) :
    Silent effect :=
  (plain_iff.mp hPlain).1

theorem announceRule_of_silent
    {op : Op}
    (past : Moves)
    (effect : Eff)
    (hSilent : Silent effect) :
    AnnounceRule op past effect := by
  cases effect with
  | emit event => cases hSilent
  | _ => trivial

section Owns

variable {tenantId : String}
variable {subject : Subject}
variable {past : Moves}

theorem Owns.append
    (hOwns : Owns tenantId subject past)
    (recent : Moves) :
    Owns tenantId subject (recent ++ past) := by
  obtain ⟨move, hMem, hShows⟩ := hOwns
  exact ⟨move, List.mem_append_right _ hMem, hShows⟩

theorem Owns.cons
    (hOwns : Owns tenantId subject past)
    (move : Move Eff.Res) :
    Owns tenantId subject (move :: past) :=
  hOwns.append [move]

theorem Owns.here
    {move : Move Eff.Res}
    (hShows : tenantId ∈ shownTenants subject move) :
    Owns tenantId subject (move :: past) :=
  ⟨move, List.mem_cons_self, hShows⟩

/- What was seen before, and what the last move shows. -/
theorem Owns.of_cons
    {move : Move Eff.Res}
    (hOwns : Owns tenantId subject (move :: past)) :
    tenantId ∈ shownTenants subject move ∨
      Owns tenantId subject past := by
  obtain ⟨shown, hMem, hShows⟩ := hOwns
  rcases List.mem_cons.mp hMem with rfl | hMem
  · exact .inl hShows
  · exact .inr ⟨shown, hMem, hShows⟩

theorem Owns.located
    (hOwns : Owns tenantId subject past) :
    Located tenantId subject past :=
  ⟨subject, hOwns, .inl rfl⟩

theorem Located.append
    (hLocated : Located tenantId subject past)
    (recent : Moves) :
    Located tenantId subject (recent ++ past) := by
  obtain ⟨seen, hSeen, hSubject⟩ := hLocated
  refine ⟨seen, hSeen.append recent, ?_⟩
  rcases hSubject with rfl | ⟨move, hMem, hAnswers⟩
  · exact .inl rfl
  · exact .inr ⟨move, List.mem_append_right _ hMem, hAnswers⟩

/- A quiet effect writes no row. -/
theorem actedOn_append
    {recent : Moves}
    (hQuiet : ∀ move ∈ recent, move.effect.isQuiet = true) :
    actedOn (recent ++ past) = actedOn past := by
  induction recent with
  | nil => rfl
  | cons move recent ih =>
      have hRest : actedOn (recent ++ past) = actedOn past :=
        ih fun other hOther =>
          hQuiet other (List.mem_cons_of_mem _ hOther)
      have hMove := hQuiet move List.mem_cons_self
      rw [List.cons_append, ← hRest]
      rcases move with ⟨effect, answer⟩
      cases effect with
      | txns op =>
          cases op with
          | update id patch => cases hMove
          | _ => rfl
      | subs op =>
          cases op with
          | update id patch => cases hMove
          | _ => rfl
      | quotes op =>
          cases op with
          | update id patch => cases hMove
          | _ => rfl
      | _ => rfl

end Owns

end Protocol

end IcpHandler

------------------------------------------------------------
-- Locating Blocks
------------------------------------------------------------

namespace IcpHandler

namespace Protocol

open Model Service Concurrency

section Locating

variable {α : Type}
variable {svc : IcpService}
variable {input : IntentInput}
variable {seen : Option String}
variable {key : String}

/-
  The block announces nothing, and its transaction is one of
  the caller's. It may go by a transaction that was seen to be
  the caller's before.
-/
def Locates
    (input : IntentInput)
    (seen : Option String)
    (body : Svc Outcome) : Prop :=
  ∀ past,
    (∀ key, seen = some key →
      Owns input.tenant.tenantId (.txn key) past) →
    body.Meets (fun _ effect => Silent effect)
      (fun outcome later =>
        Located input.tenant.tenantId
          (.txn outcome.transaction.id) later)
      (fun _ _ => True) past

/- A transaction that belongs to the caller. -/
def MakesOwn
    (input : IntentInput)
    (body : Svc Transaction) : Prop :=
  ∀ past,
    body.Meets (fun _ effect => Silent effect)
      (fun txn _ => txn.tenantId = input.tenant.tenantId)
      (fun _ _ => True) past

namespace Locates

theorem returns
    {outcome : Outcome}
    (hId : outcome.transaction.id = key) :
    Locates input (some key) (pure outcome) := by
  intro past hSeen
  rw [Svc.meets_pure, hId]
  exact (hSeen key rfl).located

theorem fail (error : ApiError) :
    Locates input seen (Svc.fail error) :=
  fun _ _ => trivial

theorem bind
    {body : Svc α}
    {next : α → Svc Outcome}
    (hBody : Svc.Only Plain body)
    (hNext : ∀ value, Locates input seen (next value)) :
    Locates input seen (body >>= next) := by
  intro past hSeen
  refine hBody.andThen (fun _ _ hKind => hKind.silent)
    (fun _ _ => trivial) fun value recent => ?_
  exact hNext value _ fun key hKey =>
    (hSeen key hKey).append recent

/- A read that finds the caller's transaction. -/
theorem lookup
    {next : Transaction → Svc Outcome}
    (hNext :
      ∀ txn, txn.tenantId = input.tenant.tenantId →
        ∀ past,
          (next txn).Meets (fun _ effect => Silent effect)
            (fun outcome later =>
              Located input.tenant.tenantId
                (.txn outcome.transaction.id) later)
            (fun _ _ => True)
            (⟨.txns (.get key), some txn⟩ :: past)) :
    Locates input none
      (transactionForInput key input >>= next) := by
  intro past _
  simp only [transactionForInput, Svc.meets_bind,
    Svc.meets_orFail, Svc.meets_ensure, Svc.meets_pure,
    beq_iff_eq]
  refine ⟨rfl, fun found => ⟨?_, fun _ => trivial⟩⟩
  rintro txn rfl
  exact ⟨fun hTenant => hNext txn hTenant past,
    fun _ => trivial⟩

/- What is done with the caller's transaction by its id. -/
theorem locked
    {lock : String}
    {next : Transaction → Svc Outcome}
    (hNext : ∀ txn, Locates input (some key) (next txn)) :
    Locates input none
      (Svc.withLock lock
        (transactionForInput key input >>= next)) := by
  intro past hSeen
  refine Svc.meets_withLock.mpr ⟨rfl, ?_⟩
  refine Svc.Meets.mono (lookup (fun txn hTenant past => ?_)
      (⟨.lock lock, ()⟩ :: past) (fun _ hKey => by cases hKey))
    (fun outcome later hLocated =>
      ⟨rfl, hLocated.append [⟨.unlock lock, ()⟩]⟩)
    (fun _ _ _ => ⟨rfl, trivial⟩)
  refine hNext txn _ fun asked hAsked => ?_
  cases hAsked
  refine .here ?_
  unfold shownTenants
  simp [hTenant]

/- The last step of many intents: patch the row, return it. -/
theorem lastUpdate
    {patch : TxnPatch}
    {error : ApiError}
    {order : Option OrderSummary} :
    Locates input (some key)
      (do
        let updated ← Svc.act (.txns (.update key patch))
        let txn ← Svc.orFail error updated
        pure { transaction := txn, order := order }) := by
  intro past hSeen
  rw [Svc.meets_bind]
  refine Svc.meets_act.mpr ⟨rfl, fun found => ?_⟩
  rw [Svc.meets_bind, Svc.meets_orFail]
  refine ⟨fun txn hFound => ?_, fun _ => trivial⟩
  cases hFound
  exact ⟨.txn key, (hSeen key rfl).cons _, .inr
    ⟨_, List.mem_cons_self, rfl, rfl⟩⟩

/- A transaction that is stored for the caller. -/
theorem stored
    {txn : Transaction}
    {next : Unit → Svc Outcome}
    (hOwn : txn.tenantId = input.tenant.tenantId)
    (hNext : Locates input (some txn.id) (next ())) :
    Locates input none
      (Svc.act (.txns (.insert txn)) >>= next) := by
  intro past _
  rw [Svc.meets_bind]
  refine Svc.meets_act.mpr ⟨rfl, fun _ => ?_⟩
  refine hNext _ fun key hKey => ?_
  cases hKey
  refine .here ?_
  unfold shownTenants
  simp [hOwn]

theorem made
    {body : Svc Transaction}
    {next : Transaction → Svc Outcome}
    (hBody : MakesOwn input body)
    (hNext :
      ∀ txn, txn.tenantId = input.tenant.tenantId →
        Locates input none (next txn)) :
    Locates input none (body >>= next) := by
  intro past _
  rw [Svc.meets_bind]
  refine Svc.Meets.mono (hBody past) ?_ (fun _ _ _ => trivial)
  exact fun txn later hOwn =>
    hNext txn hOwn later (fun _ hKey => by cases hKey)

end Locates

theorem makesOwn_freshTransaction
    (state : TransactionState) :
    MakesOwn input (freshTransaction input state) := by
  intro past
  unfold freshTransaction
  split
  · rw [Svc.meets_bind, Svc.meets_pure, Svc.meets_bind]
    refine Svc.meets_act.mpr ⟨rfl, fun createdAt => ?_⟩
    rw [Svc.meets_bind]
    exact Svc.meets_act.mpr ⟨rfl, fun updatedAt => rfl⟩
  · rw [Svc.meets_bind]
    refine Svc.meets_act.mpr ⟨rfl, fun token => ?_⟩
    rw [Svc.meets_bind, Svc.meets_pure, Svc.meets_bind]
    refine Svc.meets_act.mpr ⟨rfl, fun createdAt => ?_⟩
    rw [Svc.meets_bind]
    exact Svc.meets_act.mpr ⟨rfl, fun updatedAt => rfl⟩

theorem makesOwn_subscriptionPseudoTxn
    (sub : Subscription)
    (state : TransactionState) :
    MakesOwn input (subscriptionPseudoTxn input sub state) := by
  intro past
  rw [subscriptionPseudoTxn, Svc.meets_bind]
  refine Svc.meets_act.mpr ⟨rfl, fun now => ?_⟩
  rw [Svc.meets_bind]
  exact Svc.meets_act.mpr ⟨rfl, fun token => rfl⟩

/- A charge is stored for the tenant it is made for. -/
theorem meets_charge
    {buyer : Buyer}
    {shipTo : Option Address}
    {items : List RequestItem}
    {currency : String}
    {bills : Billing}
    (past : Moves) :
    (runSubscriptionCharge svc input buyer shipTo items currency
      bills).Meets (fun _ effect => Silent effect)
      (fun charge later =>
        Owns input.tenant.tenantId (.txn charge.1.id) later ∧
          past <:+ later)
      (fun _ later => past <:+ later) past := by
  rw [runSubscriptionCharge, Svc.meets_bind, Svc.meets_ofExcept]
  refine ⟨fun priced _ => ?_, fun _ _ => List.suffix_rfl⟩
  rw [Svc.meets_bind]
  refine Svc.meets_act.mpr ⟨rfl, fun now => ?_⟩
  rw [Svc.meets_bind]
  refine Svc.meets_act.mpr ⟨rfl, fun token => ?_⟩
  have hAfter :
      ∀ recent : Moves,
        past <:+ recent ++ ⟨.uuid, token⟩ :: ⟨.now, now⟩ :: past :=
    fun recent =>
      ((List.suffix_cons _ past).trans
        (List.suffix_cons _ _)).trans (List.suffix_append _ _)
  dsimp only
  rw [Svc.meets_bind]
  refine Svc.Meets.mono
    (Svc.Meets.of_kind
      (hushed_persistOrderForTransaction _ _)
      fun _ _ hKind => hKind.plain.silent) ?_ ?_
  · rintro summary later ⟨-, recent, rfl, -⟩
    rw [Svc.meets_bind]
    refine Svc.meets_act.mpr ⟨rfl, fun _ => ⟨.here ?_, ?_⟩⟩
    · unfold shownTenants
      simp
    · exact (hAfter recent).trans (List.suffix_cons _ _)
  · rintro halt later ⟨-, recent, rfl, -⟩
    exact hAfter recent

theorem Locates.charge
    {buyer : Buyer}
    {shipTo : Option Address}
    {items : List RequestItem}
    {currency : String}
    {bills : Billing}
    {next : Transaction × Option OrderSummary → Svc Outcome}
    (hNext :
      ∀ charge, Locates input (some charge.1.id)
        (next charge)) :
    Locates input none
      (runSubscriptionCharge svc input buyer shipTo items
        currency bills >>= next) := by
  intro past _
  rw [Svc.meets_bind]
  refine Svc.Meets.mono (meets_charge past) ?_
    (fun _ _ _ => trivial)
  rintro charge later ⟨hOwns, -⟩
  refine hNext charge later fun key hKey => ?_
  cases hKey
  exact hOwns

end Locating

end Protocol

end IcpHandler

------------------------------------------------------------
-- Intents
------------------------------------------------------------

namespace IcpHandler

namespace Protocol

open Model Service Concurrency

section Intents

variable {svc : IcpService}
variable {input : IntentInput}
variable {mandate : Option MandateEvaluation}

theorem locates_advisory
    (state : TransactionState) :
    Locates input none
      (do
        let txn ← freshTransaction input state
        Svc.act (.txns (.insert txn))
        pure { transaction := txn }) :=
  .made (makesOwn_freshTransaction state) fun _ hOwn =>
    .stored hOwn (.returns rfl)

theorem locates_doQuote :
    Locates input none (doQuote svc input) := by
  refine .bind (Svc.Only.ofExcept _ _) fun params => ?_
  refine .bind (Svc.Only.ensure _ _) fun _ => ?_
  refine .bind (Svc.Only.ofExcept _ _) fun priced => ?_
  refine .bind (hushed_quoteTotals _ _ _).plain fun totals => ?_
  refine .made (makesOwn_freshTransaction _) fun txn hOwn => ?_
  refine .bind (Svc.Only.act rfl) fun now => ?_
  exact .stored hOwn (.returns rfl)

theorem locates_doAuthorize :
    Locates input none (doAuthorize svc input) := by
  refine .bind (Svc.Only.ofExcept _ _) fun params => ?_
  refine .locked fun txn => ?_
  refine .bind (Svc.Only.ensure _ _) fun _ => ?_
  refine .bind (Svc.Only.ensure _ _) fun _ => ?_
  refine .bind (Svc.Only.act rfl) fun now => ?_
  refine .bind (plain_ensureQuoteOpen _ _) fun _ => ?_
  refine .bind (Svc.Only.act rfl) fun now => ?_
  exact .lastUpdate

theorem locates_doBuy :
    Locates input none (doBuy svc input mandate) := by
  refine .bind (Svc.Only.ofExcept _ _) fun params => ?_
  refine .bind (Svc.Only.ofExcept _ _) fun _ => ?_
  refine .locked fun txn => ?_
  refine .bind (Svc.Only.ensure _ _) fun _ => ?_
  refine .bind (plain_ensureBuyable _) fun _ => ?_
  refine .bind (hushed_reserve _ _ _ _).plain fun _ => ?_
  refine .bind (hushed_persistOrderForTransaction _).plain
    fun order => ?_
  refine .bind (Svc.Only.act rfl) fun now => ?_
  exact .lastUpdate

/- A track only reads: the row it returns is the one found. -/
theorem locates_doTrack :
    Locates input none (doTrack input) := by
  refine .bind (Svc.Only.orFail _ _) fun txnId => ?_
  refine .lookup fun txn hTenant past => ?_
  refine ⟨.txn txnId, .here ?_,
    .inr ⟨_, List.mem_cons_self, rfl, rfl⟩⟩
  unfold shownTenants
  simp [hTenant]

theorem locates_doReturn :
    Locates input none (doReturn input) := by
  refine .bind (Svc.Only.orFail _ _) fun txnId => ?_
  refine .locked fun txn => ?_
  refine .bind (Svc.Only.act rfl) fun now => ?_
  exact .lastUpdate

theorem locates_doNegotiate :
    Locates input none (doNegotiate svc input) := by
  refine .bind (Svc.Only.ofExcept _ _) fun params => ?_
  refine .bind (Svc.Only.ensure _ _) fun _ => ?_
  refine .bind (Svc.Only.ensure _ _) fun _ => ?_
  refine .locked fun txn => ?_
  refine .bind (Svc.Only.ensure _ _) fun _ => ?_
  refine .bind (hushed_negotiatedTotal _ _).plain fun total => ?_
  refine .bind (Svc.Only.act rfl) fun now => ?_
  exact .lastUpdate

theorem locates_doConfirmReceipt :
    Locates input none (doConfirmReceipt svc input) := by
  refine .bind (Svc.Only.ofExcept _ _) fun params => ?_
  refine .locked fun txn => ?_
  refine .bind (Svc.Only.ensure _ _) fun _ => ?_
  refine .bind (Svc.Only.ensure _ _) fun _ => ?_
  refine .bind (Svc.Only.act rfl) fun now => ?_
  exact .lastUpdate

theorem locates_doSubscribe :
    Locates input none (doSubscribe svc input mandate) := by
  refine .bind (Svc.Only.ofExcept _ _) fun params => ?_
  refine .bind (Svc.Only.ensure _ _) fun _ => ?_
  refine .bind (Svc.Only.ofExcept _ _) fun _ => ?_
  refine .bind (Svc.Only.act rfl) fun now => ?_
  refine .bind (Svc.Only.ofExcept _ _) fun priced => ?_
  refine .bind (hushed_reserve _ _ _ _).plain fun _ => ?_
  refine .bind (Svc.Only.act rfl) fun token => ?_
  dsimp only
  split
  · refine .bind (Svc.Only.ensure _ _) fun _ => ?_
    refine .bind (Svc.Only.orFail _ _) fun trialEnd => ?_
    refine .bind (Svc.Only.act rfl) fun _ => ?_
    refine .made (makesOwn_subscriptionPseudoTxn _ _)
      fun txn hOwn => ?_
    exact .stored hOwn (.returns rfl)
  · refine .charge fun charge => ?_
    refine .bind (Svc.Only.act rfl) fun _ => ?_
    exact .returns rfl

/- Subscriptions are found silently, under their lock. -/
theorem locates_lockedSub
    {lock subId : String}
    {next : Subscription → Svc Outcome}
    (hNext : ∀ sub, Locates input none (next sub)) :
    Locates input none
      (Svc.withLock lock
        (subscriptionForInput subId input >>= next)) := by
  intro past hSeen
  refine Svc.meets_withLock.mpr ⟨rfl, ?_⟩
  refine Svc.Meets.mono
    (Locates.bind (hushed_subscriptionForInput subId).plain hNext
      (⟨.lock lock, ()⟩ :: past) (fun _ hKey => by cases hKey))
    (fun outcome later hLocated =>
      ⟨rfl, hLocated.append [⟨.unlock lock, ()⟩]⟩)
    (fun _ _ _ => ⟨rfl, trivial⟩)

theorem locates_doRenew :
    Locates input none (doRenew svc input mandate) := by
  refine .bind (Svc.Only.ofExcept _ _) fun params => ?_
  refine .bind (Svc.Only.ofExcept _ _) fun _ => ?_
  refine locates_lockedSub fun sub => ?_
  refine .bind (hushed_ensureRenewable _).plain fun _ => ?_
  refine .bind (Svc.Only.act rfl) fun now => ?_
  refine .bind (Svc.Only.ofExcept _ _) fun priced => ?_
  refine .bind (hushed_reserve _ _ _ _).plain fun _ => ?_
  refine .charge fun charge => ?_
  refine .bind (Svc.Only.act rfl) fun found => ?_
  refine .bind (Svc.Only.orPanic _ _) fun updated => ?_
  exact .returns rfl

/- The placeholder of a pause or a cancellation. -/
theorem locates_subMarker
    {subId message : String}
    {patch : SubPatch} :
    Locates input none
      (do
        let found ← Svc.act (.subs (.update subId patch))
        let updated ← Svc.orPanic message found
        let txn ← subscriptionPseudoTxn input updated .canceled
        Svc.act (.txns (.insert txn))
        pure
          { transaction := txn
            subscription := some updated }) := by
  refine .bind (Svc.Only.act rfl) fun found => ?_
  refine .bind (Svc.Only.orPanic _ _) fun updated => ?_
  refine .made (makesOwn_subscriptionPseudoTxn _ _)
    fun txn hOwn => ?_
  exact .stored hOwn (.returns rfl)

theorem locates_doPause :
    Locates input none (doPause svc input) := by
  refine .bind (Svc.Only.ofExcept _ _) fun params => ?_
  refine locates_lockedSub fun sub => ?_
  refine .bind (Svc.Only.ensure _ _) fun _ => ?_
  refine .bind (Svc.Only.act rfl) fun now => ?_
  exact locates_subMarker

theorem locates_doCancelSubscription :
    Locates input none (doCancelSubscription svc input) := by
  refine .bind (Svc.Only.ofExcept _ _) fun params => ?_
  refine locates_lockedSub fun sub => ?_
  refine .bind (Svc.Only.ensure _ _) fun _ => ?_
  refine .bind (Svc.Only.act rfl) fun now => ?_
  exact locates_subMarker

theorem locates_doA2aQuote :
    Locates input none (doA2aQuote svc input mandate) := by
  refine .bind (Svc.Only.ofExcept _ _) fun params => ?_
  refine .bind (Svc.Only.ensure _ _) fun _ => ?_
  refine .bind (Svc.Only.act rfl) fun now => ?_
  refine .bind (hushed_priceHint _).plain fun hinted => ?_
  refine .bind (Svc.Only.act rfl) fun token => ?_
  refine .bind (Svc.Only.act rfl) fun _ => ?_
  refine .bind (Svc.Only.act rfl) fun txnToken => ?_
  exact .stored rfl (.returns rfl)

theorem locates_payTerms (params : A2aPayParams) :
    Locates input none (payTerms input mandate params) := by
  refine .bind (Svc.Only.act rfl) fun now => ?_
  split
  · refine .bind (plain_quoteTerms _ _) fun terms => ?_
    refine .bind (hushed_reserve _ _ _ _).plain fun _ => ?_
    refine .bind (Svc.Only.act rfl) fun token => ?_
    refine .stored rfl ?_
    split
    · exact .bind (Svc.Only.act rfl) fun _ => .returns rfl
    · exact .bind (Svc.Only.pure _) fun _ => .returns rfl
  · refine .bind (hushed_directTerms _).plain fun terms => ?_
    refine .bind (hushed_reserve _ _ _ _).plain fun _ => ?_
    refine .bind (Svc.Only.act rfl) fun token => ?_
    refine .stored rfl ?_
    split
    · exact .bind (Svc.Only.act rfl) fun _ => .returns rfl
    · exact .bind (Svc.Only.pure _) fun _ => .returns rfl

theorem locates_doA2aPay :
    Locates input none (doA2aPay svc input mandate) := by
  refine .bind (Svc.Only.ofExcept _ _) fun params => ?_
  refine .bind (Svc.Only.ensure _ _) fun _ => ?_
  refine .bind (hushed_ensureA2aPayment _).plain fun _ => ?_
  split
  · intro past hSeen
    refine Svc.meets_withLock.mpr ⟨rfl, ?_⟩
    exact Svc.Meets.mono
      (locates_payTerms params _ (fun _ hKey => by cases hKey))
      (fun outcome later hLocated =>
        ⟨rfl, hLocated.append [_]⟩)
      (fun _ _ _ => ⟨rfl, trivial⟩)
  · exact locates_payTerms params

theorem locates_dispatch (intent : Intent) :
    Locates input none (dispatch svc intent input mandate) := by
  cases intent with
  | search => exact locates_advisory _
  | describe => exact locates_advisory _
  | quote => exact locates_doQuote
  | negotiate => exact locates_doNegotiate
  | authorize => exact locates_doAuthorize
  | buy => exact locates_doBuy
  | pay => exact locates_doBuy
  | subscribe => exact locates_doSubscribe
  | renew => exact locates_doRenew
  | pause => exact locates_doPause
  | cancelSubscription => exact locates_doCancelSubscription
  | track => exact locates_doTrack
  | confirmReceipt => exact locates_doConfirmReceipt
  | «return» => exact locates_doReturn
  | refundRequest => exact locates_doReturn
  | a2aPay => exact locates_doA2aPay
  | a2aQuote => exact locates_doA2aQuote

end Intents

end Protocol

end IcpHandler

------------------------------------------------------------
-- The Event of an Intent
------------------------------------------------------------

namespace IcpHandler

namespace Protocol

open Model Service Concurrency

section Emission

variable {svc : IcpService}
variable {op : Op}
variable {input : IntentInput}
variable {mandate : Option MandateEvaluation}
variable {intent : Intent}
variable {past : Moves}

/- A plain block before the next one. -/
theorem announces_after
    {α β : Type}
    {body : Svc α}
    {next : α → Svc β}
    (hBody : Svc.Only Plain body)
    (hNext :
      ∀ value recent,
        (next value).Meets (AnnounceRule op)
          (fun _ _ => True) (fun _ _ => True)
          (recent ++ past)) :
    (body >>= next).Meets (AnnounceRule op)
      (fun _ _ => True) (fun _ _ => True) past :=
  hBody.andThen
    (fun moves effect hPlain =>
      announceRule_of_silent moves effect hPlain.silent)
    (fun _ _ => trivial) hNext

/- The event of an intent names a transaction of the caller. -/
theorem announces_announce
    {outcome : Outcome}
    {body : IntentResponseBody}
    (hLocated :
      Located input.tenant.tenantId
        (.txn outcome.transaction.id) past) :
    (announce svc intent input outcome body).Meets
      (AnnounceRule (.intent input))
      (fun _ _ => True) (fun _ _ => True) past := by
  have hEmit :
      ∀ (event : Event) (recent : Moves),
        event.transactionId = some outcome.transaction.id →
          (Svc.act (.emit event)).Meets
            (AnnounceRule (.intent input))
            (fun _ _ => True) (fun _ _ => True)
            (recent ++ past) := by
    intro event recent hId
    refine Svc.meets_act.mpr ⟨⟨input.tenant.tenantId,
      .txn outcome.transaction.id, rfl, ?_,
      hLocated.append recent⟩, fun _ => trivial⟩
    simp only [subjectOf, hId]
  unfold announce
  refine announces_after (Svc.Only.act rfl) fun token drawn => ?_
  refine announces_after (Svc.Only.act rfl)
    fun occurredAt told => ?_
  rw [← List.append_assoc]
  dsimp only
  split
  · refine announces_after (hushed_enqueueWebhook _ _).plain
      fun _ sent => ?_
    rw [← List.append_assoc]
    exact hEmit _ _ rfl
  · exact hEmit _ _ rfl

theorem announces_respond
    {outcome : Outcome}
    (hLocated :
      Located input.tenant.tenantId
        (.txn outcome.transaction.id) past) :
    (respond svc intent input mandate outcome).Meets
      (AnnounceRule (.intent input))
      (fun _ _ => True) (fun _ _ => True) past := by
  unfold respond
  refine announces_after (Svc.Only.act rfl)
    fun issuedAt told => ?_
  refine announces_after hushed_intentIdFor.plain
    fun intentId named => ?_
  dsimp only
  refine announces_after (hushed_receiptFor _).plain
    fun receipt signed => ?_
  rw [Svc.meets_bind]
  refine Svc.Meets.mono (announces_announce ?_)
    (fun _ _ _ => trivial) (fun _ _ _ => trivial)
  exact ((hLocated.append told).append named).append signed

theorem announces_handleIntent :
    (handleIntent svc input).Meets
      (AnnounceRule (.intent input))
      (fun _ _ => True) (fun _ _ => True) past := by
  rw [handleIntent, Svc.meets_bind, Svc.meets_ensure]
  refine ⟨fun _ => ?_, fun _ => trivial⟩
  rw [Svc.meets_bind, Svc.meets_ofExcept]
  refine ⟨fun intent _ => ?_, fun _ _ => trivial⟩
  have hMandate : Svc.Only Plain (mandateFor svc input intent) :=
    have hRead : Plain .now := rfl
    only_mandateFor hRead (fun _ => rfl) (fun _ => rfl) intent
  refine announces_after hMandate fun mandate _ => ?_
  refine announces_after (only_ensureSubject mandate)
    fun _ _ => ?_
  rw [Svc.meets_bind]
  refine Svc.Meets.mono
    (Svc.Meets.of_kind
      (locates_dispatch intent _ fun _ hKey => by cases hKey)
      announceRule_of_silent) ?_ (fun _ _ _ => trivial)
  rintro outcome later ⟨hLocated, -⟩
  exact announces_respond hLocated

end Emission

end Protocol

end IcpHandler

------------------------------------------------------------
-- The Events of a Tick
------------------------------------------------------------

namespace IcpHandler

namespace Protocol

open Model Service Concurrency

section Ticks

variable {svc : IcpService}
variable {op : Op}
variable {now : DateTime}
variable {past : Moves}

/-
  The end of a step of a tick: webhooks, then the event. It is
  meant for the owner of the row that was written last.
-/
theorem announces_event
    (named : Subject)
    {subject : Subject}
    {event : Event}
    {tenantId webhookTenant : String}
    (hTick : ∀ input, op ≠ .intent input)
    (hActed : actedOn past = some subject)
    (hOwns : Owns tenantId subject past)
    (hNamed : subjectOf event = some named)
    (hLocated : Owns tenantId named past) :
    (do
      enqueueWebhook svc event webhookTenant
      Svc.act (.emit event) : Svc Unit).Meets (AnnounceRule op)
      (fun _ later => past <:+ later)
      (fun _ _ => True) past := by
  rw [Svc.meets_bind]
  refine Svc.Meets.mono
    (Svc.Meets.of_kind (meets_webhookRule event webhookTenant)
      fun moves effect hKind =>
        announceRule_of_silent moves effect hKind.2) ?_
    (fun _ _ _ => trivial)
  rintro _ later ⟨-, recent, rfl, hRecent⟩
  have hMeant : MeantFor op (recent ++ past) tenantId := by
    have hRow :
        actedOn (recent ++ past) = some subject ∧
          Owns tenantId subject (recent ++ past) := by
      refine ⟨?_, hOwns.append recent⟩
      rw [actedOn_append fun move hMove =>
        (isIdle_iff.mp (hRecent move hMove).1).1]
      exact hActed
    cases op with
    | intent input => exact absurd rfl (hTick input)
    | tickSubscriptions now => exact ⟨subject, hRow⟩
    | tickExpiries now => exact ⟨subject, hRow⟩
  refine Svc.meets_act.mpr ⟨⟨tenantId, named, hMeant, hNamed,
    (hLocated.append recent).located⟩, fun _ => ?_⟩
  exact (List.suffix_append _ _).trans (List.suffix_cons _ _)

theorem announces_recordRenewed
    {sub : Subscription}
    {charge : Transaction × Option OrderSummary}
    (hSub : Owns sub.tenantId (.sub sub.id) past)
    (hCharge : Owns sub.tenantId (.txn charge.1.id) past) :
    (recordRenewed svc sub charge now).Meets
      (AnnounceRule (.tickSubscriptions now))
      (fun _ later => past <:+ later)
      (fun _ _ => True) past := by
  rw [recordRenewed, Svc.meets_bind]
  refine Svc.meets_act.mpr ⟨trivial, fun found => ?_⟩
  rw [Svc.meets_bind]
  refine Svc.meets_act.mpr ⟨trivial, fun token => ?_⟩
  refine Svc.Meets.mono
    (announces_event (.txn charge.1.id)
      (fun _ hOp => by cases hOp) rfl ((hSub.cons _).cons _) rfl
      ((hCharge.cons _).cons _)) ?_ (fun _ _ _ => trivial)
  exact fun _ later hLater =>
    ((List.suffix_cons _ past).trans
      (List.suffix_cons _ _)).trans hLater

theorem announces_recordFailed
    {sub : Subscription}
    {err : ApiError}
    (hSub : Owns sub.tenantId (.sub sub.id) past) :
    (recordFailed svc sub err now).Meets
      (AnnounceRule (.tickSubscriptions now))
      (fun _ later => past <:+ later)
      (fun _ _ => True) past := by
  rw [recordFailed, Svc.meets_bind]
  refine Svc.meets_act.mpr ⟨trivial, fun found => ?_⟩
  dsimp only
  split
  · rename_i updated _
    rw [Svc.meets_bind]
    refine Svc.meets_act.mpr ⟨trivial, fun token => ?_⟩
    rw [← bind_assoc, Svc.meets_bind]
    refine Svc.Meets.mono
      (announces_event (.sub sub.id)
        (fun _ hOp => by cases hOp) rfl ((hSub.cons _).cons _)
        rfl ((hSub.cons _).cons _)) ?_ (fun _ _ _ => trivial)
    exact fun _ later hLater =>
      ((List.suffix_cons _ past).trans
        (List.suffix_cons _ _)).trans hLater
  · exact List.suffix_cons _ past

/- The charge of a listed subscription is for its tenant. -/
theorem announces_schedulerCharge
    {sub : Subscription} :
    (Svc.attempt (schedulerCharge svc sub)).Meets
      (AnnounceRule op)
      (fun result later => past <:+ later ∧
        ∀ charge, result = .ok charge →
          Owns sub.tenantId (.txn charge.1.id) later)
      (fun _ _ => True) past := by
  rw [Svc.meets_attempt, schedulerCharge, Svc.meets_bind]
  refine Svc.meets_act.mpr ⟨trivial, fun token => ?_⟩
  have hDrawn : past <:+ (⟨.uuid, token⟩ :: past : Moves) :=
    List.suffix_cons _ past
  dsimp only
  rw [Svc.meets_bind, Svc.meets_ensure]
  refine ⟨fun _ => ?_, fun _ => ⟨hDrawn, fun _ hOk => ?_⟩⟩
  · refine Svc.Meets.mono
      (Svc.Meets.of_kind (meets_charge _)
        announceRule_of_silent) ?_ ?_
    · rintro charge later ⟨⟨hOwns, hLater⟩, -⟩
      refine ⟨hDrawn.trans hLater, fun other hOther => ?_⟩
      cases hOther
      exact hOwns
    · rintro halt later ⟨hLater, -⟩
      cases halt with
      | error err =>
          exact ⟨hDrawn.trans hLater, fun _ hOk => by cases hOk⟩
      | panicked message => exact trivial
  · cases hOk

/- Every row that is still due was listed. -/
theorem announces_renewEach
    {due : List Subscription}
    {report : SchedulerTickReport}
    (hDue :
      ∀ sub ∈ due, Owns sub.tenantId (.sub sub.id) past) :
    (renewEach svc now due report).Meets
      (AnnounceRule (.tickSubscriptions now))
      (fun _ _ => True) (fun _ _ => True) past := by
  induction due generalizing past report with
  | nil => exact trivial
  | cons sub due ih =>
      have hKeeps :
          ∀ later : Moves, past <:+ later →
            ∀ other ∈ sub :: due,
              Owns other.tenantId (.sub other.id) later := by
        rintro later ⟨recent, rfl⟩ other hOther
        exact (hDue other hOther).append recent
      have hRest :
          ∀ later : Moves, past <:+ later →
            ∀ other ∈ due,
              Owns other.tenantId (.sub other.id) later :=
        fun later hLater other hOther =>
          hKeeps later hLater other
            (List.mem_cons_of_mem _ hOther)
      rw [renewEach, Svc.meets_bind]
      refine Svc.Meets.mono announces_schedulerCharge ?_
        (fun _ _ _ => trivial)
      rintro result charged ⟨hCharged, hOwns⟩
      have hSub :=
        hKeeps charged hCharged sub List.mem_cons_self
      cases result with
      | ok charge =>
          dsimp only
          rw [Svc.meets_bind]
          refine Svc.Meets.mono
            (announces_recordRenewed hSub (hOwns charge rfl))
            ?_ (fun _ _ _ => trivial)
          exact fun _ later hLater =>
            ih (hRest later (hCharged.trans hLater))
      | error err =>
          dsimp only
          rw [Svc.meets_bind]
          refine Svc.Meets.mono (announces_recordFailed hSub) ?_
            (fun _ _ _ => trivial)
          exact fun _ later hLater =>
            ih (hRest later (hCharged.trans hLater))

theorem announces_tickSubscriptions :
    (tickSubscriptions svc now).Meets
      (AnnounceRule (.tickSubscriptions now))
      (fun _ _ => True) (fun _ _ => True) past := by
  rw [tickSubscriptions, Svc.meets_bind]
  refine Svc.meets_act.mpr ⟨trivial, fun due => ?_⟩
  rw [Svc.meets_bind]
  refine Svc.meets_act.mpr ⟨trivial, fun scanned => ?_⟩
  refine announces_renewEach fun sub hSub => ?_
  refine (Owns.here ?_).cons _
  unfold shownTenants
  simp only [List.mem_map, List.mem_filter]
  exact ⟨sub, ⟨hSub, by simp⟩, rfl⟩

/- The loop over the listed transactions, by induction. -/
theorem announces_expireTransactions
    {due : List Transaction}
    (hDue :
      ∀ txn ∈ due, Owns txn.tenantId (.txn txn.id) past) :
    (expireTransactions svc now due).Meets
      (AnnounceRule (.tickExpiries now))
      (fun _ _ => True) (fun _ _ => True) past := by
  induction due generalizing past with
  | nil => exact trivial
  | cons txn due ih =>
      have hTxn := hDue txn List.mem_cons_self
      rw [expireTransactions, Svc.meets_bind, expireTransaction,
        Svc.meets_bind]
      refine Svc.meets_act.mpr ⟨trivial, fun found => ?_⟩
      rw [Svc.meets_bind]
      refine Svc.meets_act.mpr ⟨trivial, fun token => ?_⟩
      refine Svc.Meets.mono
        (announces_event (.txn txn.id)
          (fun _ hOp => by cases hOp) rfl
          ((hTxn.cons _).cons _) rfl ((hTxn.cons _).cons _)) ?_
        (fun _ _ _ => trivial)
      rintro _ later ⟨recent, rfl⟩
      exact ih fun other hOther =>
        (((hDue other (List.mem_cons_of_mem _ hOther)).cons
          _).cons _).append recent

theorem announces_expirePeerQuotes
    {due : List PeerQuote}
    (hDue :
      ∀ quote ∈ due,
        Owns quote.tenantId (.quote quote.id) past) :
    (expirePeerQuotes svc now due).Meets
      (AnnounceRule (.tickExpiries now))
      (fun _ _ => True) (fun _ _ => True) past := by
  induction due generalizing past with
  | nil => exact trivial
  | cons quote due ih =>
      have hQuote := hDue quote List.mem_cons_self
      rw [expirePeerQuotes, Svc.meets_bind, expirePeerQuote,
        Svc.meets_bind]
      refine Svc.meets_act.mpr ⟨trivial, fun found => ?_⟩
      rw [Svc.meets_bind]
      refine Svc.meets_act.mpr ⟨trivial, fun token => ?_⟩
      refine Svc.Meets.mono
        (announces_event (.quote quote.id)
          (fun _ hOp => by cases hOp) rfl
          ((hQuote.cons _).cons _) rfl
          ((hQuote.cons _).cons _)) ?_
        (fun _ _ _ => trivial)
      rintro _ later ⟨recent, rfl⟩
      exact ih fun other hOther =>
        (((hDue other (List.mem_cons_of_mem _ hOther)).cons
          _).cons _).append recent

theorem announces_tickExpiries :
    (tickExpiries svc now).Meets
      (AnnounceRule (.tickExpiries now))
      (fun _ _ => True) (fun _ _ => True) past := by
  rw [tickExpiries, Svc.meets_bind]
  refine Svc.meets_act.mpr ⟨trivial, fun dueTxns => ?_⟩
  rw [Svc.meets_bind]
  refine Svc.Meets.mono
    (announces_expireTransactions fun txn hTxn => .here ?_) ?_
    (fun _ _ _ => trivial)
  · unfold shownTenants
    simp only [List.mem_map, List.mem_filter]
    exact ⟨txn, ⟨hTxn, by simp⟩, rfl⟩
  · intro _ swept _
    rw [Svc.meets_bind]
    refine Svc.meets_act.mpr ⟨trivial, fun dueQuotes => ?_⟩
    rw [Svc.meets_bind]
    refine Svc.Meets.mono
      (announces_expirePeerQuotes
        fun quote hQuote => .here ?_)
      (fun _ _ _ => trivial) (fun _ _ _ => trivial)
    unfold shownTenants
    simp only [List.mem_map, List.mem_filter]
    exact ⟨quote, ⟨hQuote, by simp⟩, rfl⟩

/- Every operation follows the rule. -/
theorem announce_traced
    (svc : IcpService)
    (op : Op) :
    (op.prog svc).Traced (AnnounceRule op)
      (fun _ _ => True) [] := by
  cases op with
  | intent input =>
      rw [Op.prog, Prog.Traced.bind_iff]
      exact Prog.Traced.mono announces_handleIntent
        (fun _ _ _ => trivial)
  | tickSubscriptions now =>
      rw [Op.prog, Prog.Traced.bind_iff]
      exact Prog.Traced.mono announces_tickSubscriptions
        (fun _ _ _ => trivial)
  | tickExpiries now =>
      rw [Op.prog, Prog.Traced.bind_iff]
      exact Prog.Traced.mono announces_tickExpiries
        (fun _ _ _ => trivial)

end Ticks

end Protocol

end IcpHandler
