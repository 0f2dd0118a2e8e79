import IcpHandler.Model.Concrete
import IcpHandler.Protocol.Payments
import IcpHandler.Protocol.TransactionTurns

/-
  A quote whose deadline has passed. An authorization and a
  purchase look at the deadline before they do anything else,
  a counter-offer never does.

  Main declarations:
    * `Closed`, `Sealed`
    * `does_ensureQuoteOpen`
    * `does_lapsedAuthorize`, `does_lapsedBuy`
    * `does_sweep`
    * `HandlesQuote`, `OffersOnQuoted`
    * `expired_quotes_final`
-/

------------------------------------------------------------
-- Lapsed Quotes
------------------------------------------------------------

namespace IcpHandler

namespace Protocol

open Model Service Concurrency

/- The row is as it was, or it was closed for its deadline. -/
def Closed (before after : Option Transaction) : Prop :=
  after = before ∨
    ∃ now, after = before.map (TxnPatch.expireIfOpen now).apply

/-
  The deadline has passed, and nothing but the sweep or a
  refusal has happened since.
-/
structure Lapsed
    (now : DateTime)
    (txn : Transaction) : Prop where
  deadline : txn.quoteLapsed now = true
  state : txn.state.isOpen = true ∨ txn.state = .expired

/- What stays of an expired quote, and where it can go. -/
structure Sealed (txn next : Transaction) : Prop where
  total : next.totals = txn.totals
  lines : next.lineItems = txn.lineItems
  deadline : next.quoteExpiresAt = txn.quoteExpiresAt
  state : next.state = txn.state ∨ next.state = .expired

theorem Sealed.refl (txn : Transaction) : Sealed txn txn :=
  ⟨rfl, rfl, rfl, .inl rfl⟩

theorem Sealed.trans
    {txn next last : Transaction}
    (hFirst : Sealed txn next)
    (hSecond : Sealed next last) :
    Sealed txn last where
  total := hSecond.total.trans hFirst.total
  lines := hSecond.lines.trans hFirst.lines
  deadline := hSecond.deadline.trans hFirst.deadline
  state := by
    rcases hSecond.state with hSame | hExpired
    · rw [hSame]
      exact hFirst.state
    · exact .inr hExpired

theorem sealed_expire
    (txn : Transaction)
    (now : DateTime) :
    Sealed txn ((TxnPatch.expire now).apply txn) :=
  ⟨rfl, rfl, rfl, .inr rfl⟩

theorem sealed_expireIfOpen
    (txn : Transaction)
    (now : DateTime) :
    Sealed txn ((TxnPatch.expireIfOpen now).apply txn) := by
  rw [TxnPatch.apply]
  split
  · exact ⟨rfl, rfl, rfl, .inr rfl⟩
  · exact .refl txn

theorem Sealed.lapsed
    {now : DateTime}
    {txn next : Transaction}
    (hSealed : Sealed txn next)
    (hLapsed : Lapsed now txn) :
    Lapsed now next where
  deadline := by
    rw [Transaction.quoteLapsed, hSealed.deadline]
    exact hLapsed.deadline
  state := by
    rcases hSealed.state with hSame | hExpired
    · rw [hSame]
      exact hLapsed.state
    · exact .inr hExpired

/- A deadline that has passed stays passed. -/
theorem Lapsed.later
    {now later : DateTime}
    {txn : Transaction}
    (hLapsed : Lapsed now txn)
    (hLe : now ≤ later) :
    txn.quoteLapsed later = true := by
  have hDeadline := hLapsed.deadline
  rw [Transaction.quoteLapsed, Option.any_eq_true] at hDeadline ⊢
  obtain ⟨expiresAt, hSome, hPassed⟩ := hDeadline
  refine ⟨expiresAt, hSome, ?_⟩
  exact decide_eq_true
    (le_trans (of_decide_eq_true hPassed) hLe)

theorem Closed.sealed
    {txn : Transaction}
    {after : Option Transaction}
    (hClosed : Closed (some txn) after) :
    ∃ next, after = some next ∧ Sealed txn next := by
  rcases hClosed with hSame | ⟨now, hPatched⟩
  · exact ⟨txn, hSame, .refl txn⟩
  · exact ⟨_, hPatched, sealed_expireIfOpen txn now⟩

end Protocol

end IcpHandler

------------------------------------------------------------
-- Refusals
------------------------------------------------------------

namespace IcpHandler

namespace Protocol

open Model Service Concurrency

section Refusals

variable {svc : IcpService} {fits : Choice → Prop}
variable {thread : Nat} {id : String} {h : Log}
variable {now : DateTime} {txn : Transaction}
variable {input : IntentInput}
variable {mandate : Option MandateEvaluation}

/- Nothing comes past the check of a deadline. -/
theorem does_ensureQuoteOpen
    {rfc3339 : Rfc3339}
    (hRow : rowOf id h = some txn)
    (hId : txn.id = id)
    (hLapsed : txn.quoteLapsed now = true)
    {Q : Unit → Log → Prop} :
    (ensureQuoteOpen txn now).Does rfc3339 fits thread Q
      (fun _ later => Closed (some txn) (rowOf id later)) h := by
  rw [ensureQuoteOpen, if_pos hLapsed, Svc.does_bind,
    expireOpenQuote]
  split
  · subst hId
    rw [Svc.does_bind]
    refine does_updateTxn hRow ?_
    intro found later hPatched
    rw [Svc.does_pure, Svc.does_fail]
    rcases hPatched with ⟨hAfter, -⟩ | ⟨hAfter, -⟩
    · exact .inr ⟨now, hAfter⟩
    · exact .inl hAfter
  · rw [Svc.does_pure, Svc.does_fail]
    exact .inl hRow

/- An authorization of a lapsed quote is refused. -/
theorem does_lapsedAuthorize
    (hRow : rowOf id h = some txn)
    (hLapsed : Lapsed now txn)
    (hClock : ∀ choice, fits choice → now ≤ choice.clock)
    (hNamed :
      ∀ params,
        svc.deps.authorizeParams input.envelope.params =
            .ok params →
          params.transactionId = id)
    {Q : Outcome → Log → Prop} :
    (doAuthorize svc input).Does svc.deps.rfc3339 fits thread Q
      (fun _ later => Closed (some txn) (rowOf id later)) h := by
  refine Svc.Does.mono (Q := fun _ _ => False) ?_
    (fun _ _ hNo => hNo.elim) (fun _ _ hClosed => hClosed)
  rw [doAuthorize, Svc.does_bind, Svc.does_ofExcept]
  refine ⟨fun params hParams => ?_, fun _ _ => .inl hRow⟩
  have hId := hNamed params hParams
  subst hId
  dsimp only
  refine (txnView svc.deps.rfc3339 fits _).does_locked
    (Q := fun _ _ => False)
    (X := fun _ after => Closed (some txn) after) ⟨rfl, rfl⟩
    hRow fun locked hLocked => ?_
  rw [Svc.does_bind]
  refine does_transactionForInput hLocked
    (fun _ _ hSame => .inl hSame) ?_
  intro found read hFound _ hRead
  cases hFound
  rw [ensureNotSubscriptionLinked, Svc.does_bind,
    Svc.does_ensure]
  refine ⟨fun _ => ?_, fun _ => .inl hRead⟩
  rw [Svc.does_bind, Svc.does_ensure]
  refine ⟨fun _ => ?_, fun _ => .inl hRead⟩
  rw [Svc.does_bind]
  refine does_now hRead fun choice told hFits hTold => ?_
  rw [Svc.does_bind]
  exact does_ensureQuoteOpen hTold
    (Data.KeyedStore.key_of_get hRow)
    (hLapsed.later (hClock choice hFits))

/- And so is a purchase. -/
theorem does_lapsedBuy
    (hRow : rowOf id h = some txn)
    (hLapsed : Lapsed now txn)
    (hClock : ∀ choice, fits choice → now ≤ choice.clock)
    (hNamed :
      ∀ params,
        svc.deps.buyParams input.envelope.params = .ok params →
          params.transactionId = id)
    {Q : Outcome → Log → Prop} :
    (doBuy svc input mandate).Does svc.deps.rfc3339 fits thread
      Q (fun _ later => Closed (some txn) (rowOf id later))
      h := by
  refine Svc.Does.mono (Q := fun _ _ => False) ?_
    (fun _ _ hNo => hNo.elim) (fun _ _ hClosed => hClosed)
  rw [doBuy, Svc.does_bind, Svc.does_ofExcept]
  refine ⟨fun params hParams => ?_, fun _ _ => .inl hRow⟩
  have hId := hNamed params hParams
  subst hId
  rw [Svc.does_bind, Svc.does_ofExcept]
  refine ⟨fun _ _ => ?_, fun _ _ => .inl hRow⟩
  dsimp only
  refine (txnView svc.deps.rfc3339 fits _).does_locked
    (Q := fun _ _ => False)
    (X := fun _ after => Closed (some txn) after) ⟨rfl, rfl⟩
    hRow fun locked hLocked => ?_
  rw [Svc.does_bind]
  refine does_transactionForInput hLocked
    (fun _ _ hSame => .inl hSame) ?_
  intro found read hFound _ hRead
  cases hFound
  rw [ensureNotSubscriptionLinked, Svc.does_bind,
    Svc.does_ensure]
  refine ⟨fun _ => ?_, fun _ => .inl hRead⟩
  rw [Svc.does_bind]
  unfold ensureBuyable
  split
  · rw [Svc.does_bind]
    refine does_now hRead fun choice told hFits hTold => ?_
    exact does_ensureQuoteOpen hTold
      (Data.KeyedStore.key_of_get hRow)
      (hLapsed.later (hClock choice hFits))
  · rename_i hAuthorized
    rcases hLapsed.state with hOpen | hExpired
    · rw [hAuthorized] at hOpen
      cases hOpen
    · rw [hAuthorized] at hExpired
      cases hExpired
  · exact .inl hRead

/- The sweep over due transactions may expire the row. -/
theorem does_sweep (hRow : rowOf id h = some txn) :
    (tickExpiries svc now).Does svc.deps.rfc3339 fits thread
      (fun _ later =>
        ∃ next, rowOf id later = some next ∧ Sealed txn next)
      (fun _ later =>
        ∃ next, rowOf id later = some next ∧ Sealed txn next)
      h := by
  refine (Svc.Does.of_meets (fun _ => True)
    (fun later =>
      ∃ next, rowOf id later = some next ∧ Sealed txn next)
    sweeps_tickExpiries (fun _ _ _ => trivial) ?_
    ⟨txn, hRow, .refl txn⟩).mono (fun _ _ hPost => hPost.1)
    (fun _ _ hPost => hPost.1)
  rintro earlier o ⟨next, hNext, hSealed⟩ hMakes hKind
  have hKept :
      Aside id o.effect →
        ∃ next, rowOf id (earlier.push o) = some next ∧
          Sealed txn next := by
    intro hAside
    have hSame :=
      (txnView svc.deps.rfc3339 fits id).keeps hMakes hAside
    exact ⟨next, hSame.trans hNext, hSealed⟩
  rcases hKind with hQuiet | ⟨key, hEffect⟩ | ⟨key, hEffect⟩
  · exact hKept (aside_of_quiet hQuiet)
  · by_cases hId : key = id
    · subst hId
      have hBefore : o.before.transactions.get key = some next := by
        rw [hMakes.1]
        exact hNext
      cases (executes_of_makes hMakes).txnChange key with
      | kept hSame =>
          exact ⟨next, hSame.trans hBefore, hSealed⟩
      | inserted row hInsert =>
          rw [hEffect] at hInsert
          rcases hInsert with hNo | ⟨bills, hNo⟩
          · cases hNo
          · cases hNo
      | patched patch row hMove hRow hAfter =>
          have hPatch :
              Eff.txns (.update key patch) =
                .txns (.update key (.expire now)) :=
            (congrArg Move.effect hMove).symm.trans hEffect
          cases hPatch
          rw [hBefore] at hRow
          cases hRow
          exact ⟨_, hAfter, hSealed.trans (sealed_expire _ _)⟩
    · refine hKept ?_
      rw [hEffect]
      exact aside_update hId _
  · refine hKept ?_
    rw [hEffect]
    rfl

end Refusals

end Protocol

end IcpHandler

------------------------------------------------------------
-- Runs on an Expired Quote
------------------------------------------------------------

namespace IcpHandler

namespace Protocol

open Model Service Concurrency

/- The intent is about the transaction. -/
def Addresses
    (svc : IcpService)
    (id : String)
    (input : IntentInput) : Intent → Prop
  | .authorize =>
      ∀ params,
        svc.deps.authorizeParams input.envelope.params =
            .ok params →
          params.transactionId = id
  | .buy | .pay =>
      ∀ params,
        svc.deps.buyParams input.envelope.params = .ok params →
          params.transactionId = id
  | .negotiate =>
      ∀ params,
        svc.deps.negotiateParams input.envelope.params =
            .ok params →
          params.transactionId = id
  | _ => False

/- One of the intents on it, or a sweep from then on. -/
def HandlesQuote
    (svc : IcpService)
    (id : String)
    (now : DateTime) : Op → Prop
  | .intent input =>
      ∃ intent, Intent.parse input.envelope.intent = .ok intent ∧
        Addresses svc id input intent
  | .tickExpiries time => now ≤ time
  | .tickSubscriptions _ => False

/- A counter-offer that can be taken finds the quote open. -/
def OffersOnQuoted
    (svc : IcpService)
    (id : String)
    (op : Op)
    (before : Log) : Prop :=
  ∃ input params txn,
    op = .intent input ∧
      Intent.parse input.envelope.intent = .ok .negotiate ∧
      svc.deps.negotiateParams input.envelope.params =
        .ok params ∧
      rowOf id before = some txn ∧
      Acceptable svc input params txn

section Runs

variable {svc : IcpService} {id : String} {now : DateTime}

/- The whole intent on a lapsed quote fails. -/
theorem does_lapsedIntent
    {fits : Choice → Prop}
    {thread : Nat}
    {h : Log}
    {txn : Transaction}
    {input : IntentInput}
    (hRow : rowOf id h = some txn)
    (hLapsed : Lapsed now txn)
    (hClock : ∀ choice, fits choice → now ≤ choice.clock)
    (hHandles : HandlesQuote svc id now (.intent input))
    (hNoOffer : ¬ OffersOnQuoted svc id (.intent input) h) :
    (handleIntent svc input).Does svc.deps.rfc3339 fits thread
      (fun _ _ => False)
      (fun _ later => Closed (some txn) (rowOf id later)) h := by
  refine does_handleIntent (txnView svc.deps.rfc3339 fits id)
    (fun _ hIdle => aside_of_idle hIdle) hRow
    (fun _ _ hSame => .inl hSame) ?_
  intro intent mandate ready hIntent _ hReady
  obtain ⟨named, hNamed, hAddresses⟩ := hHandles
  rw [hIntent] at hNamed
  cases hNamed
  cases intent with
  | authorize =>
      exact does_lapsedAuthorize hReady hLapsed hClock hAddresses
  | buy => exact does_lapsedBuy hReady hLapsed hClock hAddresses
  | pay => exact does_lapsedBuy hReady hLapsed hClock hAddresses
  | negotiate =>
      refine (does_doNegotiate hReady).mono ?_
        fun _ _ hSame => .inl hSame
      intro outcome later hDone
      cases hDone with
      | other params hParams hOther =>
          exact absurd (hAddresses params hParams) hOther
      | own params hParams found time hFound hAcceptable =>
          refine absurd ?_ hNoOffer
          exact ⟨input, params, found, rfl, hIntent, hParams,
            hRow.trans hFound, hAcceptable⟩
  | _ => cases hAddresses

/- One turn on a lapsed quote. -/
theorem lapsed_turn
    {op : Op}
    {thread : Nat}
    {choices rest : List Choice}
    {before after : Log}
    {result : OpResult}
    {txn : Transaction}
    (hHandles : HandlesQuote svc id now op)
    (hClock : ∀ choice ∈ choices, now ≤ choice.clock)
    (hNoOffer : ¬ OffersOnQuoted svc id op before)
    (hRow : rowOf id before = some txn)
    (hLapsed : Lapsed now txn)
    (hEval :
      (op.prog svc).eval (machine svc.deps.rfc3339) thread
        choices before = some (result, after, rest)) :
    (∀ input, op = .intent input → succeeded result = false) ∧
      ∃ next, rowOf id after = some next ∧ Sealed txn next := by
  have hAll : ∀ choice ∈ choices, choice ∈ choices :=
    fun _ hMem => hMem
  refine Prog.Ensures.eval
    (Q := fun result after =>
      (∀ input, op = .intent input →
        succeeded result = false) ∧
      ∃ next, rowOf id after = some next ∧ Sealed txn next)
    ?_ hAll hEval
  cases op with
  | intent input =>
      refine Prog.Ensures.bind_iff.mpr ?_
      refine Prog.Ensures.mono
        (does_lapsedIntent hRow hLapsed hClock hHandles hNoOffer)
        fun answer last hPost => ?_
      cases answer with
      | ok body => exact hPost.elim
      | error halt => exact ⟨fun _ _ => rfl, hPost.sealed⟩
  | tickExpiries time =>
      refine Prog.Ensures.bind_iff.mpr ?_
      refine Prog.Ensures.mono (does_sweep hRow)
        fun answer last hPost => ?_
      cases answer with
      | ok report => exact ⟨(fun _ hNo => nomatch hNo), hPost⟩
      | error halt => exact ⟨(fun _ hNo => nomatch hNo), hPost⟩
  | tickSubscriptions time => cases hHandles

/- The row of the run is what is left of the quote. -/
theorem lapsed_run
    {ops : Nat → Op}
    {choices : Nat → List Choice}
    {w : World}
    {quote : Transaction}
    {n : Nat}
    {h : Log}
    (hStored : w.transactions.get id = some quote)
    (hLapsed : Lapsed now quote)
    (hHandles : ∀ k, HandlesQuote svc id now (ops k))
    (hClock : ∀ k, ∀ choice ∈ choices k, now ≤ choice.clock)
    (hNoOffer :
      ∀ k < n, ∀ before,
        runInTurn svc ops choices w k = some before →
          ¬ OffersOnQuoted svc id (ops k) before)
    (hTurns : runInTurn svc ops choices w n = some h) :
    ∃ row, rowOf id h = some row ∧ Sealed quote row := by
  refine turns_induct
    (P := fun h => ∃ row, rowOf id h = some row ∧
      Sealed quote row) hTurns ⟨quote, hStored, .refl quote⟩ ?_
  rintro k before result after rest hLess hBefore hEval
    ⟨row, hRow, hSealed⟩
  obtain ⟨-, next, hNext, hTurn⟩ :=
    lapsed_turn (hHandles k) (hClock k)
      (hNoOffer k hLess before hBefore) hRow
      (hSealed.lapsed hLapsed) hEval
  exact ⟨next, hNext, hSealed.trans hTurn⟩

/-
  On an expired quote every intent fails and every step leaves
  total, lines and deadline alone and goes nowhere but to
  expired, as long as no counter-offer finds it open.
-/
theorem expired_quotes_final
    (svc : IcpService)
    (ops : Nat → Op)
    (choices : Nat → List Choice)
    (w : World)
    (id : String)
    (now : DateTime)
    (quote : Transaction)
    (hStored : w.transactions.get id = some quote)
    (hOpen : quote.state.isOpen = true)
    (hDeadline : quote.quoteLapsed now = true)
    (hHandles : ∀ k, HandlesQuote svc id now (ops k))
    (hClock : ∀ k, ∀ choice ∈ choices k, now ≤ choice.clock)
    (n : Nat)
    (hNoOffer :
      ∀ k < n, ∀ before,
        runInTurn svc ops choices w k = some before →
          ¬ OffersOnQuoted svc id (ops k) before) :
    ∀ k < n, ∀ before result after rest,
      runInTurn svc ops choices w k = some before →
      ((ops k).prog svc).eval (machine svc.deps.rfc3339) k
          (choices k) before = some (result, after, rest) →
      (∀ input, ops k = .intent input →
        succeeded result = false) ∧
      ∃ row next,
        before.world.transactions.get id = some row ∧
          after.world.transactions.get id = some next ∧
          Sealed row next := by
  intro k hLess before result after rest hBefore hEval
  have hLapsed : Lapsed now quote := ⟨hDeadline, .inl hOpen⟩
  obtain ⟨row, hRow, hSealed⟩ :=
    lapsed_run hStored hLapsed hHandles hClock
      (fun j hEarlier => hNoOffer j (by omega)) hBefore
  obtain ⟨hFails, next, hNext, hTurn⟩ :=
    lapsed_turn (hHandles k) (hClock k)
      (hNoOffer k hLess before hBefore) hRow
      (hSealed.lapsed hLapsed) hEval
  exact ⟨hFails, row, next, hRow, hNext, hTurn⟩

end Runs

/- A quote that has just reached its deadline. -/
private def lapsedQuote : Transaction where
  id := "X"
  state := .quoted
  agentId := "bot"
  tenantId := "acme"
  mandateJti := none
  currency := "USD"
  jurisdiction := none
  buyer := {}
  shipTo := none
  billTo := none
  lineItems := []
  totals := { total := some (.new 2175 "USD") }
  orderId := none
  quoteExpiresAt := some 0
  createdAt := 0
  updatedAt := 0
  externalRefs := ∅

private def lapsedWorld : World :=
  let w := World.fresh (.memory ∅) []
  { w with transactions := w.transactions.insert lapsedQuote }

private theorem lapsedQuote_stored :
    lapsedWorld.transactions.get "X" = some lapsedQuote :=
  Data.KeyedStore.get_insert_self _ lapsedQuote

private theorem sampleChoices_clock (k : Nat) :
    ∀ choice ∈ sampleChoices k, 0 ≤ choice.clock := by
  intro choice hMem
  obtain ⟨letter, -, rfl⟩ := List.mem_map.mp hMem
  exact le_refl 0

/- A counter-offer is taken after the deadline. -/
private def lateOffer : Nat → Op :=
  fun _ => .intent (sampleOffer "X" 1 "USD")

theorem late_offer_taken :
    ¬ ∀ svc ops choices w id now quote,
      w.transactions.get id = some quote →
      quote.state.isOpen = true →
      quote.quoteLapsed now = true →
      (∀ k, HandlesQuote svc id now (ops k)) →
      (∀ k, ∀ choice ∈ choices k, now ≤ choice.clock) →
      ∀ n, ∀ k < n, ∀ before result after rest,
        runInTurn svc ops choices w k = some before →
        ((ops k).prog svc).eval (machine svc.deps.rfc3339) k
            (choices k) before = some (result, after, rest) →
        (∀ input, ops k = .intent input →
          succeeded result = false) ∧
        ∃ row next,
          before.world.transactions.get id = some row ∧
            after.world.transactions.get id = some next ∧
            Sealed row next := by
  intro hAll
  have hRun :
      (((lateOffer 0).prog offerService).eval
        (machine offerService.deps.rfc3339) 0 (sampleChoices 0)
        (.start lapsedWorld)).any
          (fun ended => succeeded ended.1) = true := by
    decide
  obtain ⟨⟨result, after, rest⟩, hEval, hTaken⟩ :=
    (Option.any_eq_true _ _).mp hRun
  have hHandles :
      ∀ k, HandlesQuote offerService "X" 0 (lateOffer k) := by
    refine fun k => ⟨.negotiate, by decide, ?_⟩
    intro params hParams
    cases hParams
    rfl
  obtain ⟨hFails, -⟩ :=
    hAll offerService lateOffer sampleChoices lapsedWorld "X" 0
      lapsedQuote lapsedQuote_stored rfl (by decide)
      hHandles sampleChoices_clock 1 0 Nat.zero_lt_one
      (.start lapsedWorld) result after rest rfl hEval
  rw [hFails _ rfl] at hTaken
  cases hTaken

/- An expired quote is refused to a buyer and swept. -/
private def lateBuy : Nat → Op
  | 0 => .intent (sampleBuy "X")
  | _ => .tickExpiries (Duration.minutes 1)

theorem expired_quotes_final_sample :
    ∃ result after rest row next,
      ((lateBuy 0).prog offerService).eval
          (machine offerService.deps.rfc3339) 0 (sampleChoices 0)
          (.start lapsedWorld) = some (result, after, rest) ∧
        succeeded result = false ∧
        lapsedWorld.transactions.get "X" = some row ∧
        after.world.transactions.get "X" = some next ∧
        Sealed row next := by
  have hRun :
      (((lateBuy 0).prog offerService).eval
        (machine offerService.deps.rfc3339) 0 (sampleChoices 0)
        (.start lapsedWorld)).isSome = true := by
    decide
  obtain ⟨⟨result, after, rest⟩, hEval⟩ :=
    Option.isSome_iff_exists.mp hRun
  have hHandles :
      ∀ k, HandlesQuote offerService "X" 0 (lateBuy k) := by
    intro k
    match k with
    | 0 =>
        refine ⟨.buy, by decide, ?_⟩
        intro params hParams
        cases hParams
        rfl
    | _ + 1 =>
        have hLe : (0 : DateTime) ≤ Duration.minutes 1 := by
          decide
        exact hLe
  obtain ⟨hFails, row, next, hRow, hNext, hSealed⟩ :=
    expired_quotes_final offerService lateBuy sampleChoices
      lapsedWorld "X" 0 lapsedQuote lapsedQuote_stored rfl
      (by decide) hHandles sampleChoices_clock 1
      (by
        rintro k hLess before - ⟨input, params, txn, hOp, hParse,
          -⟩
        have hZero : k = 0 := by omega
        subst hZero
        cases hOp
        revert hParse
        decide)
      0 Nat.zero_lt_one (.start lapsedWorld) result after rest
      rfl hEval
  exact ⟨result, after, rest, row, next, hEval, hFails _ rfl,
    hRow, hNext, hSealed⟩

end Protocol

end IcpHandler
