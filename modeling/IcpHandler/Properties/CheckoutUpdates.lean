import IcpHandler.Model.Concrete
import IcpHandler.Protocol.TransactionTurns
import IcpHandler.Service.Compat

/-
  Updates of a checkout session. They are meant to be made any
  number of times, each merged into what the session has. The
  first one moves the session on, so that the next is refused,
  and a buyer or an address is replaced as a whole.

  Main declarations:
    * `CheckoutUpdate`, `CheckoutUpdate.merge`
    * `BuyerCovers`, `AddressCovers`
    * `Updatable`, `Calm`, `does_update`
    * `runUpdates`, `update_turn`
    * `UpdatesFit`
    * `updates_merge_iff`
    * `second_update_refused`
-/

------------------------------------------------------------
-- Merging
------------------------------------------------------------

namespace IcpHandler

namespace Protocol

open Model Service Concurrency

/- An update of a session, under one of the two protocols. -/
inductive CheckoutUpdate where
  | acp (body : UpdateSessionBody)
  | ucp (body : UpdateCheckoutBody)

/- The details of a session that an update is about. -/
structure CheckoutDetails where
  buyer : Buyer
  shipTo : Option Address

def detailsOf (session : Transaction) : CheckoutDetails :=
  ⟨session.buyer, session.shipTo⟩

/- What is supplied, and what was there where nothing is. -/
def mergedBuyer (b : CompatBuyer) (old : Buyer) : Buyer :=
  { firstName := b.firstName.or old.firstName
    lastName := b.lastName.or old.lastName
    email := b.email.or old.email
    phoneNumber := b.phoneNumber.or old.phoneNumber
    principalDid := old.principalDid }

def mergedAddress
    (a : CompatAddress)
    (old : Address) : Address :=
  { name := a.name.or old.name
    lineOne := a.lineOne.or old.lineOne
    lineTwo := a.lineTwo.or old.lineTwo
    city := a.city.or old.city
    state := a.state.or old.state
    postalCode := a.postalCode.or old.postalCode
    country := a.country.or old.country
    phoneNumber := old.phoneNumber
    email := old.email }

/- Every field the old value has is supplied anew. -/
structure BuyerCovers (b : CompatBuyer) (old : Buyer) : Prop where
  firstName : b.firstName = none → old.firstName = none
  lastName : b.lastName = none → old.lastName = none
  email : b.email = none → old.email = none
  phoneNumber : b.phoneNumber = none → old.phoneNumber = none
  principalDid : old.principalDid = none

structure AddressCovers
    (a : CompatAddress)
    (old : Address) : Prop where
  name : a.name = none → old.name = none
  lineOne : a.lineOne = none → old.lineOne = none
  lineTwo : a.lineTwo = none → old.lineTwo = none
  city : a.city = none → old.city = none
  state : a.state = none → old.state = none
  postalCode : a.postalCode = none → old.postalCode = none
  country : a.country = none → old.country = none
  phoneNumber : old.phoneNumber = none
  email : old.email = none

private theorem eq_or_iff
    {new old : Option String} :
    new = new.or old ↔ (new = none → old = none) := by
  cases new with
  | none =>
      rw [Option.none_or]
      exact ⟨fun hSame _ => hSame.symm, fun hNone =>
        (hNone rfl).symm⟩
  | some value =>
      rw [Option.some_or]
      exact ⟨fun _ hNone => (nomatch hNone), fun _ => rfl⟩

/- Replacing is merging just if every field is covered. -/
theorem toIcp_eq_mergedBuyer_iff
    {b : CompatBuyer}
    {old : Buyer} :
    b.toIcp = mergedBuyer b old ↔ BuyerCovers b old := by
  unfold CompatBuyer.toIcp mergedBuyer
  rw [Buyer.mk.injEq, eq_or_iff, eq_or_iff, eq_or_iff,
    eq_or_iff]
  constructor
  · rintro ⟨hFirst, hLast, hEmail, hPhone, hDid⟩
    exact ⟨hFirst, hLast, hEmail, hPhone, hDid.symm⟩
  · intro hCovers
    exact ⟨hCovers.firstName, hCovers.lastName, hCovers.email,
      hCovers.phoneNumber, hCovers.principalDid.symm⟩

theorem toIcp_eq_mergedAddress_iff
    {a : CompatAddress}
    {old : Address} :
    a.toIcp = mergedAddress a old ↔ AddressCovers a old := by
  unfold CompatAddress.toIcp mergedAddress
  rw [Address.mk.injEq, eq_or_iff, eq_or_iff, eq_or_iff,
    eq_or_iff, eq_or_iff, eq_or_iff, eq_or_iff]
  constructor
  · rintro ⟨hName, hOne, hTwo, hCity, hState, hCode, hCountry,
      hPhone, hEmail⟩
    exact ⟨hName, hOne, hTwo, hCity, hState, hCode, hCountry,
      hPhone.symm, hEmail.symm⟩
  · intro hCovers
    exact ⟨hCovers.name, hCovers.lineOne, hCovers.lineTwo,
      hCovers.city, hCovers.state, hCovers.postalCode,
      hCovers.country, hCovers.phoneNumber.symm,
      hCovers.email.symm⟩

namespace CheckoutUpdate

def buyer : CheckoutUpdate → Option CompatBuyer
  | .acp body => body.buyer
  | .ucp body => body.buyer

def address : CheckoutUpdate → Option CompatAddress
  | .acp body => body.fulfillmentAddress
  | .ucp body =>
      body.fulfillment.bind FulfillmentInput.address

/- What the session should have after the update. -/
def merge
    (details : CheckoutDetails)
    (u : CheckoutUpdate) : CheckoutDetails where
  buyer :=
    match u.buyer with
    | some b => mergedBuyer b details.buyer
    | none => details.buyer
  shipTo :=
    match u.address with
    | some a =>
        some (mergedAddress a (details.shipTo.getD {}))
    | none => details.shipTo

/- The program of the update. -/
def prog
    (svc : IcpService)
    (ctx : CompatContext)
    (id : String) :
    CheckoutUpdate → Prog DedupEff.Res ExecutionResult
  | .acp body => updateSession svc ctx id body
  | .ucp body => updateCheckout svc ctx id body

/- The parameters of the authorization that it makes. -/
def params
    (id : String)
    (u : CheckoutUpdate) : AuthorizeParams :=
  { transactionId := id
    buyer := u.buyer.map CompatBuyer.toIcp
    shipTo := u.address.map CompatAddress.toIcp }

/- What the authorization makes of the session. -/
def patch
    (id : String)
    (u : CheckoutUpdate)
    (now : DateTime) : TxnPatch :=
  .authorize (u.params id).buyer (u.params id).shipTo none now

def input
    (ctx : CompatContext)
    (id : String)
    (u : CheckoutUpdate) : IntentInput :=
  forCompat ctx
    (compatEnvelope ctx .authorize
      (updateParams id (u.params id).buyer (u.params id).shipTo))

/- The update takes nothing from the details. -/
structure Covers
    (u : CheckoutUpdate)
    (details : CheckoutDetails) : Prop where
  buyer : ∀ b, u.buyer = some b → BuyerCovers b details.buyer
  address :
    ∀ a, u.address = some a →
      AddressCovers a (details.shipTo.getD {})

theorem prog_eq
    (svc : IcpService)
    (ctx : CompatContext)
    (id : String)
    (u : CheckoutUpdate) :
    u.prog svc ctx id =
      handleIntentIdempotent svc (u.input ctx id) none := by
  cases u with
  | acp body => rfl
  | ucp body => rfl

/- The authorization merges just if nothing is taken away. -/
theorem detailsOf_patch_iff
    {u : CheckoutUpdate}
    {id : String}
    {now : DateTime}
    {session : Transaction} :
    detailsOf ((u.patch id now).apply session) =
        u.merge (detailsOf session) ↔
      u.Covers (detailsOf session) := by
  have hBuyer :
      ((u.buyer.map CompatBuyer.toIcp).getD session.buyer =
          match u.buyer with
          | some b => mergedBuyer b session.buyer
          | none => session.buyer) ↔
        ∀ b, u.buyer = some b →
          BuyerCovers b session.buyer := by
    cases u.buyer with
    | none => simp
    | some b =>
        rw [Option.map_some, Option.getD_some]
        refine toIcp_eq_mergedBuyer_iff.trans ?_
        simp
  have hAddress :
      ((u.address.map CompatAddress.toIcp <|> session.shipTo) =
          match u.address with
          | some a =>
              some (mergedAddress a (session.shipTo.getD {}))
          | none => session.shipTo) ↔
        ∀ a, u.address = some a →
          AddressCovers a (session.shipTo.getD {}) := by
    cases u.address with
    | none => simp
    | some a =>
        change some a.toIcp = some _ ↔ _
        rw [Option.some.injEq]
        refine toIcp_eq_mergedAddress_iff.trans ?_
        simp
  change CheckoutDetails.mk _ _ = CheckoutDetails.mk _ _ ↔ _
  rw [CheckoutDetails.mk.injEq]
  constructor
  · rintro ⟨hSameBuyer, hSameAddress⟩
    exact ⟨hBuyer.mp hSameBuyer, hAddress.mp hSameAddress⟩
  · intro hCovers
    exact ⟨hBuyer.mpr hCovers.buyer,
      hAddress.mpr hCovers.address⟩

end CheckoutUpdate

end Protocol

end IcpHandler

------------------------------------------------------------
-- One Update
------------------------------------------------------------

namespace IcpHandler

namespace Protocol

open Model Service Concurrency

/- The checks of an authorization, but for the deadline. -/
structure Updatable (session : Transaction) : Prop where
  quoted : session.state = .quoted
  unlinked :
    session.externalRefs.lookup "subscription_id" = none

/-
  Nothing goes wrong outside: the request is admitted, the
  stores work, the signer signs, and the quote of the session
  has not run out.
-/
structure Calm
    (session : Transaction)
    (c : DedupChoice) : Prop where
  admitted : c.rate = .ok true
  stored : c.fault = false
  signed : ∀ error, c.signature ≠ .error error
  unexpired : session.quoteLapsed c.clock = false

/-
  The other packages: parameters are read as they were
  written, and every response has a canonical form.
-/
structure ReadsUpdates (deps : Deps) : Prop where
  params :
    ∀ id buyer shipTo,
      deps.authorizeParams (updateParams id buyer shipTo) =
        .ok
          { transactionId := id
            buyer
            shipTo
            billTo := none }
  bodies : ∀ body error, deps.jcsBody body ≠ .error error

section Updates

variable {svc : IcpService} {ctx : CompatContext}
variable {fits : Choice → Prop}
variable {thread : Nat} {id : String} {h : Log}
variable {session : Transaction} {u : CheckoutUpdate}

/- A session of the tenant is found where the store works. -/
theorem does_ownTransaction
    {rfc3339 : Rfc3339}
    {input : IntentInput}
    (hRow : rowOf id h = some session)
    (hOwner : session.tenantId = input.tenant.tenantId)
    (hStored : ∀ choice, fits choice → choice.fault = false)
    {Q : Transaction → Log → Prop}
    {X : Halt → Log → Prop}
    (hNext :
      ∀ later, rowOf id later = some session →
        Q session later) :
    (transactionForInput id input).Does rfc3339 fits thread Q
      X h := by
  rw [transactionForInput, Svc.does_bind, Svc.does_act]
  intro found after hMakes
  have hRead :
      rowOf id (h.push
        ⟨thread, .txns (.get id), found, h.world, after⟩) =
        some session :=
    ((txnView rfc3339 fits id).keeps hMakes rfl).trans hRow
  obtain ⟨-, choice, hFits, hExec⟩ := hMakes
  unfold machine execEff at hExec
  simp only [Option.map_eq_some_iff] at hExec
  obtain ⟨⟨answer, store⟩, hStore, hResult⟩ := hExec
  rw [hStored choice hFits] at hStore
  cases hStore
  cases hResult
  have hFound :
      h.world.transactions.get id = some session := hRow
  rw [Svc.does_bind, Svc.does_orFail]
  refine ⟨fun txn hTxn => ?_, fun hNone => ?_⟩
  · have hSame : session = txn :=
      Option.some.inj (hFound.symm.trans hTxn)
    subst hSame
    rw [Svc.does_bind, Svc.does_ensure, beq_iff_eq]
    refine ⟨fun _ => hNext _ hRead, fun hOther => ?_⟩
    rw [hOwner, beq_self_eq_true] at hOther
    cases hOther
  · cases hFound.symm.trans hNone

/- And it is written where the store works. -/
theorem does_patchOwn
    {rfc3339 : Rfc3339}
    {patch : TxnPatch}
    (hRow : rowOf id h = some session)
    (hStored : ∀ choice, fits choice → choice.fault = false)
    {Q : Option Transaction → Log → Prop}
    {X : Halt → Log → Prop}
    (hNext :
      ∀ later, rowOf id later = some (patch.apply session) →
        Q (some (patch.apply session)) later) :
    (Svc.act (.txns (.update id patch))).Does rfc3339 fits
      thread Q X h := by
  rw [Svc.does_act]
  rintro found after ⟨-, choice, hFits, hExec⟩
  have hFound :
      h.world.transactions.get id = some session := hRow
  unfold machine execEff at hExec
  simp only [Option.map_eq_some_iff] at hExec
  obtain ⟨⟨answer, store⟩, hStore, hResult⟩ := hExec
  rw [hStored choice hFits] at hStore
  cases hStore
  cases hResult
  rw [hFound, Option.map_some]
  refine hNext _ ?_
  have hWritten :
      (h.world.transactions.update id patch).get id =
        (h.world.transactions.get id).map patch.apply :=
    (Data.KeyedStore.get_update _ _ _ _).trans (if_pos rfl)
  rw [hFound] at hWritten
  exact hWritten

/-
  The authorization that an update makes: it changes the
  session where the checks pass, and nothing where they fail.
-/
theorem does_authorizeOwn
    {input : IntentInput}
    {params : AuthorizeParams}
    (hParams :
      svc.deps.authorizeParams input.envelope.params =
        .ok params)
    (hId : params.transactionId = id)
    (hRow : rowOf id h = some session)
    (hOwner : session.tenantId = input.tenant.tenantId)
    (hStored : ∀ choice, fits choice → choice.fault = false)
    (hUnexpired :
      ∀ choice, fits choice →
        session.quoteLapsed choice.clock = false) :
    (doAuthorize svc input).Does svc.deps.rfc3339 fits thread
      (fun _ later =>
        Updatable session ∧
          ∃ now, rowOf id later =
            some ((TxnPatch.authorize params.buyer params.shipTo
              params.billTo now).apply session))
      (fun _ later =>
        ¬ Updatable session ∧ rowOf id later = some session)
      h := by
  subst hId
  rw [doAuthorize, Svc.does_bind, Svc.does_ofExcept]
  refine ⟨fun found hFound => ?_, fun e hError => ?_⟩
  · rw [hParams] at hFound
    cases hFound
    dsimp only
    refine (txnView svc.deps.rfc3339 fits _).does_locked
      (Q := fun _ after =>
        Updatable session ∧
          ∃ now, after =
            some ((TxnPatch.authorize params.buyer params.shipTo
              params.billTo now).apply session))
      (X := fun _ after =>
        ¬ Updatable session ∧ after = some session)
      ⟨rfl, rfl⟩ hRow fun locked hLocked => ?_
    rw [Svc.does_bind]
    refine does_ownTransaction hLocked hOwner hStored
      fun read hRead => ?_
    rw [ensureNotSubscriptionLinked, Svc.does_bind,
      Svc.does_ensure]
    refine ⟨fun hUnlinked => ?_, fun hLinked => ⟨?_, hRead⟩⟩
    · rw [Svc.does_bind, Svc.does_ensure, beq_iff_eq]
      refine ⟨fun hQuoted => ?_, fun hOther => ⟨?_, hRead⟩⟩
      · have hUpdatable : Updatable session :=
          ⟨hQuoted, Option.isNone_iff_eq_none.mp hUnlinked⟩
        rw [Svc.does_bind]
        refine does_now hRead fun choice told hFits hTold => ?_
        rw [ensureQuoteOpen, hUnexpired choice hFits,
          if_neg Bool.false_ne_true, Svc.does_bind,
          Svc.does_pure, Svc.does_bind]
        refine does_now hTold fun choice again _ hAgain => ?_
        rw [Svc.does_bind]
        refine does_patchOwn hAgain hStored
          fun written hWritten => ?_
        exact ⟨hUpdatable, choice.clock, hWritten⟩
      · intro hUpdatable
        rw [hUpdatable.quoted] at hOther
        cases hOther
    · intro hUpdatable
      rw [hUpdatable.unlinked] at hLinked
      cases hLinked
  · rw [hParams] at hError
    cases hError

/- A caller that skips the check brings no mandate. -/
theorem mandateFor_skipped
    {input : IntentInput}
    (hSkip : input.skipMandateCheck = true)
    (intent : Intent) :
    mandateFor svc input intent = pure none := by
  unfold mandateFor
  rw [hSkip]
  split
  · rename_i hNo
    cases hNo
  · rfl

/- The whole update, where the responses can be signed. -/
theorem does_update
    (hReads : ReadsUpdates svc.deps)
    (hRow : rowOf id h = some session)
    (hOwner : session.tenantId = ctx.tenant.tenantId)
    (hStored : ∀ choice, fits choice → choice.fault = false)
    (hSigned :
      ∀ choice, fits choice →
        ∀ error, choice.signature ≠ .error error)
    (hUnexpired :
      ∀ choice, fits choice →
        session.quoteLapsed choice.clock = false) :
    (handleIntent svc (u.input ctx id)).Does svc.deps.rfc3339
      fits thread
      (fun _ later =>
        Updatable session ∧
          ∃ now, rowOf id later =
            some ((u.patch id now).apply session))
      (fun _ later =>
        ¬ Updatable session ∧ rowOf id later = some session)
      h := by
  have hSome : ¬ Unsigned svc fits := by
    rintro (⟨body, error, hBody⟩ | ⟨choice, error, hFits, hSign⟩)
    · exact hReads.bodies body error hBody
    · exact hSigned choice hFits error hSign
  have hIntent :
      Intent.parse (u.input ctx id).envelope.intent =
        .ok .authorize :=
    Intent.parse_wireName .authorize
  have hNoMandate :
      mandateFor svc (u.input ctx id) .authorize = pure none :=
    mandateFor_skipped rfl .authorize
  rw [handleIntent, Svc.does_bind, Svc.does_ensure]
  refine ⟨fun _ => ?_, fun hOther => ?_⟩
  swap
  · -- the envelope names the agent of the context
    cases (beq_self_eq_true ctx.agent.raw).symm.trans hOther
  rw [hIntent, Svc.does_bind, Svc.does_ofExcept]
  refine ⟨fun intent hOk => ?_, fun _ hNo => by cases hNo⟩
  cases hOk
  rw [hNoMandate, Svc.does_bind, Svc.does_pure, ensureSubject,
    Svc.does_bind, Svc.does_pure, Svc.does_bind, dispatch]
  refine (does_authorizeOwn (hReads.params id _ _) rfl hRow
    hOwner hStored hUnexpired).mono ?_ fun _ _ hNo => hNo
  rintro outcome carried ⟨hUpdatable, now, hCarried⟩
  refine (does_respond (txnView svc.deps.rfc3339 fits id)
    (fun _ hIdle => aside_of_idle hIdle) hCarried).mono ?_ ?_
  · exact fun _ _ hLast => ⟨hUpdatable, now, hLast⟩
  · exact fun _ _ hPost => absurd hPost.2.1 hSome

end Updates

end Protocol

end IcpHandler

------------------------------------------------------------
-- Updates in Turn
------------------------------------------------------------

namespace IcpHandler

namespace Protocol

open Model Service Concurrency

/- The stores and the cache, with all that has happened. -/
abbrev DedupLog := History DedupEff.Res DedupWorld

/- The request was answered, and not with an error. -/
def answered : ExecutionResult → Bool
  | .ok _ => true
  | .error _ => false

/- The session, as it is stored. -/
def sessionOf
    (id : String)
    (h : DedupLog) : Option Transaction :=
  h.world.base.transactions.get id

/- The updates one after the other, with what each came to. -/
def runUpdates
    (svc : IcpService)
    (ctx : CompatContext)
    (id : String)
    (choices : Nat → List DedupChoice) :
    List CheckoutUpdate → Nat → DedupLog →
      Option (List ExecutionResult × DedupLog)
  | [], _, h => some ([], h)
  | u :: updates, thread, h => do
      let (result, later, _) ←
        (u.prog svc ctx id).eval
          (dedupMachine svc.deps.rfc3339) thread
          (choices thread) h
      let (results, last) ←
        runUpdates svc ctx id choices updates (thread + 1) later
      pure (result :: results, last)

section Turns

variable {svc : IcpService} {ctx : CompatContext}
variable {thread : Nat} {id : String}
variable {session : Transaction} {u : CheckoutUpdate}

/- An admitted request without a key runs its intent. -/
theorem ensures_admitted
    {rfc3339 : Rfc3339}
    {fits : DedupChoice → Prop}
    {input : IntentInput}
    {h : DedupLog}
    {Q : ExecutionResult → DedupWorld → Prop}
    (hChecked : input.skipRateLimit = false)
    (hKey : effectiveKey input none = none)
    (hAdmitted : ∀ c, fits c → c.rate = .ok true)
    (hRuns :
      ∀ h' : DedupLog, h'.world = h.world →
        (runInner (handleIntent svc input)).Ensures
          (dedupMachine rfc3339) fits thread
          (fun result later =>
            Q (result.map fun body => ⟨body, false⟩)
              later.world) h') :
    (handleIntentIdempotent svc input none).Ensures
      (dedupMachine rfc3339) fits thread
      (fun result later => Q result later.world) h := by
  unfold handleIntentIdempotent
  rw [hChecked, if_neg Bool.false_ne_true]
  refine Prog.Ensures.bind_iff.mpr ?_
  rintro decision after ⟨-, choice, hFits, hExec⟩
  simp only [dedupMachine, execDedup, hAdmitted choice hFits,
    Except.mapError, Option.some.injEq, Prod.mk.injEq] at hExec
  obtain ⟨hOk, hWorld⟩ := hExec
  cases hOk
  change (executeAdmitted svc input none).Ensures _ _ _ _ _
  unfold executeAdmitted
  rw [hKey]
  exact Prog.Ensures.bind_iff.mpr (hRuns _ hWorld.symm)

/- An intent ensures in its place what it ensures alone. -/
theorem ensures_runInner
    {α : Type}
    {rfc3339 : Rfc3339}
    {fits : Choice → Prop}
    {fits' : DedupChoice → Prop}
    {body : Svc α}
    {h : DedupLog}
    {Q : α → World → Prop}
    {X : Halt → World → Prop}
    (hInside : ∀ c, fits' c → fits c.toChoice)
    (hDoes :
      body.Does rfc3339 fits thread
        (fun value later => Q value later.world)
        (fun halt later => X halt later.world)
        (.start h.world.base)) :
    (runInner body).Ensures (dedupMachine rfc3339) fits' thread
      (fun result later =>
        match result with
        | .ok value => Q value later.world.base
        | .error halt => X halt later.world.base) h := by
  let ends : Except Halt α → World → Prop := fun result w =>
    match result with
    | .ok value => Q value w
    | .error halt => X halt w
  have hAlone :
      body.run.Ensures (machine rfc3339) fits thread
        (fun result later => ends result later.world)
        (.start h.world.base) := by
    refine Prog.Ensures.mono hDoes fun result later hPost => ?_
    cases result with
    | ok value => exact hPost
    | error halt => exact hPost
  have hPlaced :
      ∀ choice w effect
          (answer : (DedupEff.inner effect).Res) after,
        fits' choice →
          (dedupMachine rfc3339).exec thread choice w
              (.inner effect) = some (answer, after) →
            ∃ inner, fits inner ∧
              (machine rfc3339).exec thread inner w.base
                  effect =
                some (innerAnswer effect answer,
                  after.base) := by
    intro choice w effect answer after hFits hExec
    refine ⟨choice.toChoice, hInside choice hFits, ?_⟩
    simp only [dedupMachine, execDedup,
      Option.map_eq_some_iff] at hExec
    obtain ⟨⟨found, base⟩, hBase, hResult⟩ := hExec
    cases hResult
    exact hBase
  exact Prog.Ensures.via (Q := ends) DedupWorld.base hPlaced
    hAlone rfl

/- One update of a session that is stored. -/
theorem update_turn
    {h later : DedupLog}
    {choices rest : List DedupChoice}
    {result : ExecutionResult}
    (hReads : ReadsUpdates svc.deps)
    (hRow : sessionOf id h = some session)
    (hOwner : session.tenantId = ctx.tenant.tenantId)
    (hCalm : ∀ c ∈ choices, Calm session c)
    (hEval :
      (u.prog svc ctx id).eval (dedupMachine svc.deps.rfc3339)
        thread choices h = some (result, later, rest)) :
    (answered result = true ∧ Updatable session ∧
        ∃ now, sessionOf id later =
          some ((u.patch id now).apply session)) ∨
      (answered result = false ∧ ¬ Updatable session) := by
  let ends : ExecutionResult → DedupWorld → Prop :=
    fun result w =>
      (answered result = true ∧ Updatable session ∧
          ∃ now, w.base.transactions.get id =
            some ((u.patch id now).apply session)) ∨
        (answered result = false ∧ ¬ Updatable session)
  have hEnsures :
      (u.prog svc ctx id).Ensures
        (dedupMachine svc.deps.rfc3339) (· ∈ choices) thread
        (fun result later => ends result later.world) h := by
    rw [CheckoutUpdate.prog_eq]
    refine ensures_admitted (Q := ends) rfl rfl
      (fun c hMem => (hCalm c hMem).admitted) ?_
    intro h' hWorld
    let fits : Choice → Prop := fun choice =>
      ∃ c ∈ choices, c.toChoice = choice
    have hInside : ∀ c ∈ choices, fits c.toChoice :=
      fun c hMem => ⟨c, hMem, rfl⟩
    have hBase : rowOf id (.start h'.world.base) = some session := by
      rw [hWorld]
      exact hRow
    have hStored :
        ∀ choice, fits choice → choice.fault = false := by
      rintro _ ⟨c, hMem, rfl⟩
      exact (hCalm c hMem).stored
    have hSigned :
        ∀ choice, fits choice →
          ∀ error, choice.signature ≠ .error error := by
      rintro _ ⟨c, hMem, rfl⟩
      exact (hCalm c hMem).signed
    have hUnexpired :
        ∀ choice, fits choice →
          session.quoteLapsed choice.clock = false := by
      rintro _ ⟨c, hMem, rfl⟩
      exact (hCalm c hMem).unexpired
    refine (ensures_runInner
      (Q := fun _ w =>
        Updatable session ∧
          ∃ now, w.transactions.get id =
            some ((u.patch id now).apply session))
      (X := fun _ w =>
        ¬ Updatable session ∧
          w.transactions.get id = some session)
      hInside (does_update hReads hBase hOwner hStored hSigned
        hUnexpired)).mono fun result last hPost => ?_
    cases result with
    | ok body => exact .inl ⟨rfl, hPost⟩
    | error halt => exact .inr ⟨rfl, hPost.1⟩
  exact hEnsures.eval (fun _ hMem => hMem) hEval

/- The first of some updates, and the others. -/
theorem runUpdates_cons
    {choices : Nat → List DedupChoice}
    {updates : List CheckoutUpdate}
    {h last : DedupLog}
    {results : List ExecutionResult}
    (hRun :
      runUpdates svc ctx id choices (u :: updates) thread h =
        some (results, last)) :
    ∃ result later rest others,
      (u.prog svc ctx id).eval (dedupMachine svc.deps.rfc3339)
          thread (choices thread) h =
        some (result, later, rest) ∧
      runUpdates svc ctx id choices updates (thread + 1) later =
        some (others, last) ∧
      results = result :: others := by
  rw [runUpdates] at hRun
  obtain ⟨⟨result, later, rest⟩, hFirst, hOthers⟩ :=
    Option.bind_eq_some_iff.mp hRun
  obtain ⟨⟨others, final⟩, hRest, hAll⟩ :=
    Option.bind_eq_some_iff.mp hOthers
  cases hAll
  exact ⟨result, later, rest, others, hFirst, hRest, rfl⟩

/- An update that is answered leaves nothing to update. -/
theorem not_updatable_patch
    (now : DateTime) :
    ¬ Updatable ((u.patch id now).apply session) :=
  fun hUpdatable => nomatch hUpdatable.quoted

end Turns

/-
  There is at most one update, and it is of a session that
  can be updated, from which it takes nothing.
-/
def UpdatesFit
    (session : Transaction) : List CheckoutUpdate → Prop
  | [] => True
  | [u] => Updatable session ∧ u.Covers (detailsOf session)
  | _ => False

/-
  Updates of a session, one after the other, are all answered
  and merged into its details just if there is at most one,
  which the session admits and which takes nothing from it.
-/
theorem updates_merge_iff
    (svc : IcpService)
    (ctx : CompatContext)
    (id : String)
    (updates : List CheckoutUpdate)
    (choices : Nat → List DedupChoice)
    (w : DedupWorld)
    (session : Transaction)
    (results : List ExecutionResult)
    (last : DedupLog)
    (hReads : ReadsUpdates svc.deps)
    (hRow : w.base.transactions.get id = some session)
    (hOwner : session.tenantId = ctx.tenant.tenantId)
    (hCalm : ∀ k, ∀ c ∈ choices k, Calm session c)
    (hRun :
      runUpdates svc ctx id choices updates 0 (.start w) =
        some (results, last)) :
    ((∀ result ∈ results, answered result = true) ∧
        (sessionOf id last).map detailsOf =
          some (updates.foldl CheckoutUpdate.merge
            (detailsOf session))) ↔
      UpdatesFit session updates := by
  have hStart : sessionOf id (.start w) = some session := hRow
  match updates with
  | [] =>
      cases hRun
      rw [hStart]
      exact ⟨fun _ => trivial, fun _ =>
        ⟨fun _ hNo => (nomatch hNo), rfl⟩⟩
  | [u] =>
      obtain ⟨result, later, rest, others, hFirst, hRest, rfl⟩ :=
        runUpdates_cons hRun
      cases hRest
      rw [List.forall_mem_singleton, List.foldl_cons,
        List.foldl_nil, UpdatesFit]
      rcases update_turn hReads hStart hOwner (hCalm 0) hFirst
        with ⟨hOk, hUpdatable, now, hStored⟩ | ⟨hNo, hNot⟩
      · rw [hStored, Option.map_some, Option.some.injEq,
          CheckoutUpdate.detailsOf_patch_iff]
        constructor
        · exact fun hBoth => ⟨hUpdatable, hBoth.2⟩
        · exact fun hFits => ⟨hOk, hFits.2⟩
      · constructor
        · intro hBoth
          rw [hNo] at hBoth
          cases hBoth.1
        · exact fun hFits => absurd hFits.1 hNot
  | u :: next :: updates =>
      refine ⟨fun hBoth => ?_, fun hNo => hNo.elim⟩
      obtain ⟨result, later, rest, others, hFirst, hMore, rfl⟩ :=
        runUpdates_cons hRun
      obtain ⟨second, later', rest', others', hSecond, -, rfl⟩ :=
        runUpdates_cons hMore
      have hAnswered := List.forall_mem_cons.mp hBoth.1
      rcases update_turn hReads hStart hOwner (hCalm 0) hFirst
        with ⟨-, -, now, hStored⟩ | ⟨hNo, -⟩
      · have hNot : ¬ Updatable ((u.patch id now).apply session) :=
          not_updatable_patch now
        have hTwice : answered second = true :=
          (List.forall_mem_cons.mp hAnswered.2).1
        have hCalmer :
            ∀ c ∈ choices 1,
              Calm ((u.patch id now).apply session) c :=
          fun c hMem =>
            { hCalm 1 c hMem with
              unexpired := (hCalm 1 c hMem).unexpired }
        rcases update_turn hReads hStored hOwner hCalmer hSecond
          with ⟨-, hUpdatable, -⟩ | ⟨hNo, -⟩
        · exact hNot hUpdatable
        · rw [hNo] at hTwice
          cases hTwice
      · have hOnce := hAnswered.1
        rw [hNo] at hOnce
        cases hOnce

/- The sample handler, which also reads all of an update. -/
private def updateService : IcpService :=
  { concreteService with
    deps :=
      { concreteDeps with
        authorizeParams := fun params =>
          match AuthorizeParams.ofJson? params with
          | some found => .ok found
          | none => .error "missing field `transaction_id`" } }

private theorem updateService_reads :
    ReadsUpdates updateService.deps where
  params := by
    intro id buyer shipTo
    change (match AuthorizeParams.ofJson? _ with
      | some found => Except.ok found
      | none => .error _) = _
    rw [ofJson?_updateParams]
  bodies := by
    intro body error hBody
    cases hBody

private def shopContext : CompatContext where
  tenant := ⟨"acme"⟩
  agent := ⟨"did:stateset:agent:acp-acme"⟩
  requestId := "r1"
  traceId := none

/- A session that was just created, without details. -/
private def newSession : Transaction where
  id := "S"
  state := .quoted
  agentId := "did:stateset:agent:acp-acme"
  tenantId := "acme"
  mandateJti := none
  currency := "USD"
  jurisdiction := none
  buyer := {}
  shipTo := none
  billTo := none
  lineItems := []
  totals := { total := some (.new 2175 "USD") }
  orderId := none
  quoteExpiresAt := some (Duration.seconds 60)
  createdAt := 0
  updatedAt := 0
  externalRefs := ∅

private def sessionWorld : DedupWorld :=
  let w := World.fresh (.memory ∅) []
  ⟨{ w with transactions := w.transactions.insert newSession },
    ⟨.memory ∅, defaultTtl⟩⟩

private def calmChoices (thread : Nat) : List DedupChoice :=
  (sampleChoices thread).map fun choice =>
    { toChoice := choice }

private theorem calmChoices_calm
    (thread : Nat) :
    ∀ c ∈ calmChoices thread, Calm newSession c := by
  intro c hMem
  obtain ⟨choice, hChoice, rfl⟩ := List.mem_map.mp hMem
  obtain ⟨letter, -, rfl⟩ := List.mem_map.mp hChoice
  exact
    { admitted := rfl
      stored := rfl
      signed := fun _ hNo => by cases hNo
      unexpired :=
        (by decide : newSession.quoteLapsed 0 = false) }

private def emailUpdate : CheckoutUpdate :=
  .acp { buyer := some { email := some "a@shop.example" } }

private def cityUpdate : CheckoutUpdate :=
  .acp { fulfillmentAddress := some { city := some "Oslo" } }

theorem updates_merge_iff_sample :
    ∃ (results : List ExecutionResult) (last : DedupLog),
      runUpdates updateService shopContext "S" calmChoices
          [emailUpdate] 0 (.start sessionWorld) =
        some (results, last) ∧
      (∀ result ∈ results, answered result = true) ∧
      (sessionOf "S" last).map detailsOf =
        some (emailUpdate.merge (detailsOf newSession)) := by
  have hRuns :
      (runUpdates updateService shopContext "S" calmChoices
        [emailUpdate] 0 (.start sessionWorld)).isSome =
          true := by
    decide
  obtain ⟨⟨results, last⟩, hRun⟩ :=
    Option.isSome_iff_exists.mp hRuns
  have hFits : UpdatesFit newSession [emailUpdate] := by
    refine ⟨⟨rfl, rfl⟩, ?_, ?_⟩
    · rintro b hBuyer
      cases hBuyer
      exact ⟨fun _ => rfl, fun _ => rfl, fun _ => rfl,
        fun _ => rfl, rfl⟩
    · rintro a hAddress
      cases hAddress
  have hBoth :=
    (updates_merge_iff updateService shopContext "S"
      [emailUpdate] calmChoices sessionWorld newSession results
      last updateService_reads
      (Data.KeyedStore.get_insert_self _ newSession) rfl
      calmChoices_calm hRun).mpr hFits
  exact ⟨results, last, hRun, hBoth.1, hBoth.2⟩

/-
  A buyer's mail, and then an address: the session is open,
  and the second update is refused.
-/
theorem second_update_refused :
    acpStatus newSession.state = "not_ready_for_payment" ∧
      ∃ (results : List ExecutionResult) (last : DedupLog),
        runUpdates updateService shopContext "S" calmChoices
            [emailUpdate, cityUpdate] 0 (.start sessionWorld) =
          some (results, last) ∧
        results.map answered = [true, false] ∧
        (sessionOf "S" last).map
            (fun session => acpStatus session.state) =
          some "ready_for_payment" ∧
        (sessionOf "S" last).map Transaction.shipTo =
          some none := by
  refine ⟨rfl, ?_⟩
  have hRuns :
      ((runUpdates updateService shopContext "S" calmChoices
        [emailUpdate, cityUpdate] 0
        (.start sessionWorld)).any fun run =>
          run.1.map answered == [true, false] &&
          (sessionOf "S" run.2).map
              (fun session => acpStatus session.state) ==
            some "ready_for_payment" &&
          (sessionOf "S" run.2).map Transaction.shipTo ==
            some none) = true := by
    decide
  obtain ⟨⟨results, last⟩, hRun, hChecks⟩ :=
    (Option.any_eq_true _ _).mp hRuns
  simp only [Bool.and_eq_true, beq_iff_eq] at hChecks
  exact ⟨results, last, hRun, hChecks.1.1, hChecks.1.2,
    hChecks.2⟩

end Protocol

end IcpHandler
