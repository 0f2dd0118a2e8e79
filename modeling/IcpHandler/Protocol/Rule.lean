import IcpHandler.Model.Steps
import IcpHandler.Protocol.Meets
import IcpHandler.Service.Dispatch

/-
  The protocol of the service: after which moves of its own an
  operation may perform an effect on a store. Every law about
  interleavings rests on this rule, and not on the bodies of
  the operations.

  Main declarations:
    * `Since`, `ReadUnder`, `Fresh`
    * `pendingCharge`
    * `Rule`
-/

------------------------------------------------------------
-- What a Thread Has Seen
------------------------------------------------------------

namespace IcpHandler

namespace Protocol

open Model Service Concurrency

/- The move was made, and no loud effect followed it. -/
def Since
    (loud : Eff → Bool)
    (move : Move Eff.Res)
    (past : Moves) : Prop :=
  ∃ recent older, past = recent ++ move :: older ∧
    ∀ later ∈ recent, loud later.effect = false

/- The lock was taken, and no lock was given back. -/
structure Held
    (key : String)
    (past : Moves) : Prop where
  taken : (⟨.lock key, ()⟩ : Move Eff.Res) ∈ past
  kept :
    ∀ other, (⟨.unlock other, ()⟩ : Move Eff.Res) ∉ past

/-
  The read was made under the lock, the lock is still held,
  and no loud effect followed.
-/
def ReadUnder
    (loud : Eff → Bool)
    (key : String)
    (read : Move Eff.Res)
    (past : Moves) : Prop :=
  ∃ recent older, past = recent ++ read :: older ∧
    Held key older ∧
    ∀ later ∈ recent,
      loud later.effect = false ∧
        later.effect.isLocking = false

/- The id was made from a token drawn since. -/
def Fresh
    (loud : Eff → Bool)
    (stem id : String)
    (past : Moves) : Prop :=
  ∃ token, id = stem ++ token ∧ Since loud ⟨.uuid, token⟩ past

section Seen

variable {loud : Eff → Bool}
variable {key stem id : String}
variable {move read : Move Eff.Res}
variable {past : Moves}

theorem Since.here : Since loud move (move :: past) :=
  ⟨[], past, rfl, by simp⟩

theorem Since.append
    (hSince : Since loud move past)
    (recent : Moves)
    (hQuiet : ∀ later ∈ recent, loud later.effect = false) :
    Since loud move (recent ++ past) := by
  rcases hSince with ⟨middle, older, rfl, hMiddle⟩
  refine ⟨recent ++ middle, older, by simp, ?_⟩
  intro later hLater
  rcases List.mem_append.mp hLater with hLater | hLater
  · exact hQuiet later hLater
  · exact hMiddle later hLater

theorem Since.cons
    {later : Move Eff.Res}
    (hSince : Since loud move past)
    (hQuiet : loud later.effect = false) :
    Since loud move (later :: past) :=
  hSince.append [later] (by simpa using hQuiet)

theorem Since.mem
    (hSince : Since loud move past) :
    move ∈ past := by
  rcases hSince with ⟨recent, older, rfl, _⟩
  simp

theorem ReadUnder.here
    (hHeld : Held key past) :
    ReadUnder loud key read (read :: past) :=
  ⟨[], past, rfl, hHeld, by simp⟩

theorem ReadUnder.append
    (hRead : ReadUnder loud key read past)
    (recent : Moves)
    (hQuiet :
      ∀ later ∈ recent,
        loud later.effect = false ∧
          later.effect.isLocking = false) :
    ReadUnder loud key read (recent ++ past) := by
  rcases hRead with ⟨middle, older, rfl, hHeld, hMiddle⟩
  refine ⟨recent ++ middle, older, by simp, hHeld, ?_⟩
  intro later hLater
  rcases List.mem_append.mp hLater with hLater | hLater
  · exact hQuiet later hLater
  · exact hMiddle later hLater

theorem ReadUnder.cons
    {later : Move Eff.Res}
    (hRead : ReadUnder loud key read past)
    (hQuiet :
      loud later.effect = false ∧
        later.effect.isLocking = false) :
    ReadUnder loud key read (later :: past) :=
  hRead.append [later] (by simpa using hQuiet)

theorem ReadUnder.since
    (hRead : ReadUnder loud key read past) :
    Since loud read past := by
  rcases hRead with ⟨recent, older, rfl, _, hQuiet⟩
  exact ⟨recent, older, rfl, fun later hLater =>
    (hQuiet later hLater).1⟩

theorem Fresh.cons
    {later : Move Eff.Res}
    (hFresh : Fresh loud stem id past)
    (hQuiet : loud later.effect = false) :
    Fresh loud stem id (later :: past) := by
  rcases hFresh with ⟨token, hId, hSince⟩
  exact ⟨token, hId, hSince.cons hQuiet⟩

theorem Fresh.append
    (hFresh : Fresh loud stem id past)
    (recent : Moves)
    (hQuiet : ∀ later ∈ recent, loud later.effect = false) :
    Fresh loud stem id (recent ++ past) := by
  rcases hFresh with ⟨token, hId, hSince⟩
  exact ⟨token, hId, hSince.append recent hQuiet⟩

end Seen

/- A transaction read under its lock, and not written since. -/
def SeenTxn
    (id : String)
    (txn : Transaction)
    (past : Moves) : Prop :=
  ReadUnder Eff.touchesTxns (txnLock id)
    ⟨.txns (.get id), some txn⟩ past

/- A subscription read under its lock. -/
def SeenSub
    (id : String)
    (sub : Subscription)
    (past : Moves) : Prop :=
  ReadUnder Eff.touchesSubs (subLock id)
    ⟨.subs (.get id), some sub⟩ past

/- A peer quote read under its lock. -/
def SeenQuote
    (id : String)
    (quote : PeerQuote)
    (past : Moves) : Prop :=
  ReadUnder Eff.touchesQuotes (quoteLock id)
    ⟨.quotes (.get id), some quote⟩ past

/- A subscription some listing of the pass has named. -/
def ListedSub
    (sub : Subscription)
    (past : Moves) : Prop :=
  ∃ now due, sub ∈ due ∧
    (⟨.subs (.listDue now), due⟩ : Move Eff.Res) ∈ past

/-
  The billing of a charge whose subscription row has not been
  written since.
-/
def pendingCharge : Moves → Option Billing
  | [] => none
  | ⟨.insertCharge _ bills, _⟩ :: _ => some bills
  | ⟨.subs (.insert _), _⟩ :: _ => none
  | ⟨.subs (.update _ _), _⟩ :: _ => none
  | _ :: past => pendingCharge past

/- Moves that neither charge nor write a row keep it. -/
theorem pendingCharge_cons
    {move : Move Eff.Res}
    {past : Moves}
    (hQuiet : move.effect.touchesSubs = false)
    (hNoCharge :
      ∀ txn bills, move.effect ≠ .insertCharge txn bills) :
    pendingCharge (move :: past) = pendingCharge past := by
  rcases move with ⟨effect, answer⟩
  cases effect with
  | insertCharge txn bills =>
      exact absurd rfl (hNoCharge txn bills)
  | subs op =>
      cases op with
      | insert sub => cases hQuiet
      | update id patch => cases hQuiet
      | _ => rfl
  | _ => rfl

theorem pendingCharge_append
    {past : Moves}
    (recent : Moves)
    (hQuiet :
      ∀ move ∈ recent, move.effect.touchesSubs = false ∧
        move.effect.touchesTxns = false) :
    pendingCharge (recent ++ past) = pendingCharge past := by
  induction recent with
  | nil => rfl
  | cons move recent ih =>
      have hMove := hQuiet move List.mem_cons_self
      rw [List.cons_append, pendingCharge_cons hMove.1, ih]
      · exact fun other hOther =>
          hQuiet other (List.mem_cons_of_mem _ hOther)
      · intro txn bills hCharge
        rw [hCharge] at hMove
        cases hMove.2

end Protocol

end IcpHandler

------------------------------------------------------------
-- The Rule
------------------------------------------------------------

namespace IcpHandler

namespace Protocol

open Model Service Concurrency

/- The intents that store a transaction nobody looked up. -/
def isAdvisory : Intent → Bool
  | .search | .describe | .quote => true
  | _ => false

/-
  A new transaction belongs to the caller. Its id is drawn
  fresh, or it is the one the client has named.
-/
structure MayInsertTxn
    (input : IntentInput)
    (past : Moves)
    (txn : Transaction) : Prop where
  owner : txn.tenantId = input.tenant.tenantId
  id :
    Fresh Eff.touchesTxns "txn_" txn.id past ∨
      (input.envelope.transactionId = some txn.id ∧
        txn.state.isOpen = true ∧
        ∃ intent,
          Intent.parse input.envelope.intent = .ok intent ∧
            isAdvisory intent = true)

/- What a buy has done for the transaction it completes. -/
structure Paid
    (input : IntentInput)
    (past : Moves)
    (txn : Transaction)
    (orderId : Option String) : Prop where
  state : txn.state = .quoted ∨ txn.state = .authorized
  spent :
    ∀ jti tenantId amount now limits answer,
      (⟨.recordSpend jti tenantId amount now limits, answer⟩ :
        Move Eff.Res) ∈ past →
      amount = totalAmountMinor txn.totals
  presented :
    input.mandateJws.isSome → input.skipMandateCheck = false →
      0 < totalAmountMinor txn.totals →
      ∃ jti now limits,
        (⟨.recordSpend jti input.tenant.tenantId
            (totalAmountMinor txn.totals) now limits,
          .ok ()⟩ : Move Eff.Res) ∈ past
  ordered :
    ∀ id, orderId = some id →
      ∃ buyer currency items order,
        (⟨.createOrder buyer currency items
            (txn.totals.total.getD (.new 0 txn.currency)),
          .ok order⟩ : Move Eff.Res) ∈ past ∧
        order.id = id
  created :
    ∀ buyer currency items total order,
      (⟨.createOrder buyer currency items total, .ok order⟩ :
        Move Eff.Res) ∈ past →
      total = txn.totals.total.getD (.new 0 txn.currency) ∧
        orderId = some order.id

/- An intent that has read the caller's own transaction. -/
def OnTxn
    (op : Op)
    (past : Moves)
    (id : String)
    (P : IntentInput → Transaction → Prop) : Prop :=
  ∃ input txn, op = .intent input ∧
    txn.tenantId = input.tenant.tenantId ∧
    SeenTxn id txn past ∧ P input txn

/-
  The transaction is the next one of the pass: it was listed,
  and the pass has only expired the ones before it.
-/
def NextToExpire
    (now : DateTime)
    (past : Moves)
    (id : String) : Prop :=
  ∃ recent older passed txn rest,
    past = recent ++
      ⟨.txns (.listDue now), passed ++ txn :: rest⟩ :: older ∧
    txn.id = id ∧
    ∀ move ∈ recent, move.effect.touchesTxns = true →
      ∃ earlier ∈ passed,
        move.effect = .txns (.update earlier.id (.expire now))

def MayPatchTxn
    (op : Op)
    (past : Moves)
    (id : String) : TxnPatch → Prop
  | .expireIfOpen _ =>
      ∃ key, OnTxn op past key fun _ txn => txn.id = id
  | .expire now =>
      op = .tickExpiries now ∧ NextToExpire now past id
  | .authorize _ _ _ _ =>
      OnTxn op past id fun _ txn => txn.state = .quoted
  | .complete orderId _ =>
      OnTxn op past id fun input txn =>
        Paid input past txn orderId
  | .reverse _ => OnTxn op past id fun _ _ => True
  | .renegotiate _ _ _ _ _ =>
      OnTxn op past id fun _ txn => txn.state = .quoted
  | .confirmReceipt _ _ _ _ =>
      OnTxn op past id fun _ txn =>
        receiptConfirmable txn.state = true

/- What a charge is for, from what the operation has seen. -/
def MayBill
    (op : Op)
    (past : Moves)
    (tenantId : String)
    (bills : Billing) : Prop :=
  match op with
  | .intent input =>
      tenantId = input.tenant.tenantId ∧
        (Fresh Eff.touchesSubs "sub_" bills.subscriptionId
            past ∨
          ∃ sub, SeenSub bills.subscriptionId sub past ∧
            bills.periodStart = sub.currentPeriodEnd ∧
            sub.status ≠ .canceled ∧ sub.status ≠ .paused)
  | .tickSubscriptions _ =>
      ∃ sub, ListedSub sub past ∧ tenantId = sub.tenantId ∧
        bills = ⟨sub.id, sub.currentPeriodEnd⟩
  | .tickExpiries _ => False

structure MayCharge
    (op : Op)
    (past : Moves)
    (txn : Transaction)
    (bills : Billing) : Prop where
  id : Fresh Eff.touchesTxns "txn_" txn.id past
  state : txn.state = .completed
  settled : pendingCharge past = none
  bills : MayBill op past txn.tenantId bills

/-
  A new subscription belongs to the caller and is stored with
  the first charge, if there was one, on its account.
-/
structure MayInsertSub
    (input : IntentInput)
    (past : Moves)
    (sub : Subscription) : Prop where
  owner : sub.tenantId = input.tenant.tenantId
  id : Fresh Eff.touchesSubs "sub_" sub.id past
  charged :
    (pendingCharge past = none ∧ sub.chargesCompleted = 0 ∧
        sub.status = .trialing) ∨
      (pendingCharge past =
          some ⟨sub.id, sub.currentPeriodStart⟩ ∧
        sub.chargesCompleted = 1 ∧ sub.status = .active ∧
        sub.currentPeriodStart < sub.currentPeriodEnd)

/- An intent that has read the caller's own subscription. -/
def OnSub
    (op : Op)
    (past : Moves)
    (id : String)
    (P : IntentInput → Subscription → Prop) : Prop :=
  ∃ input sub, op = .intent input ∧
    sub.tenantId = input.tenant.tenantId ∧
    SeenSub id sub past ∧ P input sub

/- A scheduler pass that has listed the subscription. -/
def OnListed
    (op : Op)
    (past : Moves)
    (id : String)
    (P : Subscription → Prop) : Prop :=
  ∃ now sub, op = .tickSubscriptions now ∧
    ListedSub sub past ∧ sub.id = id ∧ P sub

def MayPatchSub
    (svc : IcpService)
    (op : Op)
    (past : Moves)
    (id : String) : SubPatch → Prop
  | .renew periodStart periodEnd _ _ _ _ =>
      OnSub op past id fun _ sub =>
        sub.status ≠ .canceled ∧ sub.status ≠ .paused ∧
          pendingCharge past = some ⟨id, periodStart⟩ ∧
          periodStart = sub.currentPeriodEnd ∧
          periodEnd =
            periodAdvance svc.deps.calendar periodStart
              sub.cadence
  | .pause _ =>
      OnSub op past id fun _ sub =>
        sub.status ≠ .canceled ∧ pendingCharge past = none
  | .cancel _ =>
      OnSub op past id fun _ sub =>
        sub.status ≠ .canceled ∧ pendingCharge past = none
  | .autoRenew periodStart periodEnd charges _ _ =>
      OnListed op past id fun sub =>
        pendingCharge past = some ⟨id, periodStart⟩ ∧
          periodStart = sub.currentPeriodEnd ∧
          periodEnd =
            periodAdvance svc.deps.calendar periodStart
              sub.cadence ∧
          charges = Saturating.satAdd32 sub.chargesCompleted 1
  | .chargeFailed _ _ _ _ =>
      OnListed op past id fun _ => pendingCharge past = none

/- A new peer quote belongs to the caller. -/
structure MayInsertQuote
    (input : IntentInput)
    (past : Moves)
    (quote : PeerQuote) : Prop where
  owner : quote.tenantId = input.tenant.tenantId
  id : Fresh Eff.touchesQuotes "pq_" quote.id past

/- An intent that has read the caller's own peer quote. -/
def OnQuote
    (op : Op)
    (past : Moves)
    (id : String)
    (P : IntentInput → PeerQuote → Prop) : Prop :=
  ∃ input quote, op = .intent input ∧
    quote.tenantId = input.tenant.tenantId ∧
    SeenQuote id quote past ∧ P input quote

def MayPatchQuote
    (op : Op)
    (past : Moves)
    (id : String) : QuotePatch → Prop
  | .expire now =>
      OnQuote op past id
          (fun _ quote => quote.expiresAt ≤ now) ∨
        ∃ due quote, op = .tickExpiries now ∧ quote ∈ due ∧
          quote.id = id ∧
          (⟨.quotes (.listDue now), due⟩ : Move Eff.Res) ∈
            past
  | .accept _ now =>
      ∃ key, OnQuote op past key fun _ quote =>
        quote.id = id ∧ quote.status = .quoted ∧
          now < quote.expiresAt

/-
  What an operation may do after its own moves. Locks are
  taken one at a time, and given back by their holder.
-/
def Rule
    (svc : IcpService)
    (op : Op)
    (past : Moves) : Eff → Prop
  | .lock _ => ∀ move ∈ past, move.effect.isLocking = false
  | .unlock key => Held key past
  | .txns (.insert txn) =>
      ∃ input, op = .intent input ∧ MayInsertTxn input past txn
  | .txns (.update id patch) => MayPatchTxn op past id patch
  | .insertCharge txn bills => MayCharge op past txn bills
  | .subs (.insert sub) =>
      ∃ input, op = .intent input ∧ MayInsertSub input past sub
  | .subs (.update id patch) => MayPatchSub svc op past id patch
  | .quotes (.insert quote) =>
      ∃ input, op = .intent input ∧
        MayInsertQuote input past quote
  | .quotes (.update id patch) => MayPatchQuote op past id patch
  | .recordSpend _ tenantId amount _ _ =>
      0 < amount ∧
        ∃ input, op = .intent input ∧
          tenantId = input.tenant.tenantId
  | _ => True

/- Idle effects are always allowed. -/
theorem rule_of_isIdle
    {svc : IcpService}
    {op : Op}
    {past : Moves}
    {effect : Eff}
    (hIdle : effect.isIdle = true) :
    Rule svc op past effect := by
  cases effect with
  | txns op =>
      cases op with
      | insert txn => cases hIdle
      | update id patch => cases hIdle
      | _ => trivial
  | subs op =>
      cases op with
      | insert sub => cases hIdle
      | update id patch => cases hIdle
      | _ => trivial
  | quotes op =>
      cases op with
      | insert quote => cases hIdle
      | update id patch => cases hIdle
      | _ => trivial
  | lock key => cases hIdle
  | unlock key => cases hIdle
  | insertCharge txn bills => cases hIdle
  | recordSpend jti tenantId amount now limits => cases hIdle
  | _ => trivial

end Protocol

end IcpHandler
