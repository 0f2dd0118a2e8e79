import Mathlib.Data.List.Range
import IcpHandler.Model.Concrete
import IcpHandler.Properties.ExactPricing
import IcpHandler.Protocol.TransactionTurns

/-
  The history of counter-offers on a quoted transaction. Every
  offer that is answered adds one entry, under the number of
  entries before it, and the entries form a chain from the
  quoted total to the present one.

  Main declarations:
    * `historyKey`, `historyKey_injective`
    * `FreshlyQuoted`, `does_doQuote`
    * `Chained`, `Chained.offer`
    * `negotiation_history_chained`
-/

------------------------------------------------------------
-- Keys and Entries
------------------------------------------------------------

namespace IcpHandler

namespace Protocol

open Model Service Concurrency

/- The key of the entry with the given number. -/
def historyKey (n : Nat) : String :=
  "negotiation_" ++ Text.zeroPadded 3 n

/- The keys a counter-offer counts. -/
def isHistoryKey (key : String) : Bool :=
  Text.startsWith "negotiation_" key

theorem historyKey_injective : Function.Injective historyKey :=
  fun _ _ hSame =>
    Text.zeroPadded_injective 3
      ((String.append_right_inj _).mp hSame)

theorem isHistoryKey_historyKey (n : Nat) :
    isHistoryKey (historyKey n) = true := by
  rw [isHistoryKey, historyKey, Text.startsWith,
    String.toList_append, List.isPrefixOf_iff_prefix]
  exact List.prefix_append _ _

/- The entry of an offer, up to what is not an amount. -/
def IsEntry
    (svc : IcpService)
    (fromMinor toMinor : Int64)
    (text : String) : Prop :=
  ∃ rest, text =
    svc.deps.jsonToString
      (.obj (("from_minor", .ofI64 fromMinor) ::
        ("to_minor", .ofI64 toMinor) :: rest))

/-
  The external references hold `n` entries and no others under
  their prefix, and the amounts lead from the first to the
  present total.
-/
structure Chained
    (svc : IcpService)
    (row : Transaction)
    (n : Nat)
    (amounts : Nat → Int64) : Prop where
  keys :
    (row.externalRefs.keys.filter isHistoryKey).Perm
      ((List.range n).map historyKey)
  entries :
    ∀ i < n, ∃ text,
      row.externalRefs.lookup (historyKey i) = some text ∧
        IsEntry svc (amounts i) (amounts (i + 1)) text
  present :
    row.totals.total.map Money.amountMinor = some (amounts n)

section Chains

variable {svc : IcpService} {row : Transaction}
variable {n : Nat} {amounts : Nat → Int64}

/- There are `n` entries. -/
theorem Chained.length
    (hChained : Chained svc row n amounts) :
    (row.externalRefs.keys.filter isHistoryKey).length = n := by
  rw [hChained.keys.length_eq, List.length_map,
    List.length_range]

/- The next key is not in use. -/
theorem Chained.nextKey_free
    (hChained : Chained svc row n amounts) :
    historyKey n ∉ row.externalRefs.keys := by
  intro hMem
  have hFiltered :
      historyKey n ∈ row.externalRefs.keys.filter isHistoryKey :=
    List.mem_filter.mpr ⟨hMem, isHistoryKey_historyKey n⟩
  obtain ⟨i, hLess, hKey⟩ :=
    List.mem_map.mp (hChained.keys.mem_iff.mp hFiltered)
  rw [historyKey_injective hKey, List.mem_range] at hLess
  exact Nat.lt_irrefl n hLess

/- An offer is entered under the number of entries so far. -/
theorem offered_refs
    (svc : IcpService)
    (input : IntentInput)
    (params : NegotiateParams)
    (row : Transaction)
    (now : DateTime) :
    ((offerPatch svc input params row now).apply
        row).externalRefs =
      row.externalRefs.insert
        (historyKey
          (row.externalRefs.keys.filter isHistoryKey).length)
        (negotiationEntry svc input params
          (offeredMinor svc params (totalAmountMinor row.totals))
          row.currency now
          (row.totals.total.getD (.new
            (totalAmountMinor row.totals)
            row.currency)).amountMinor) :=
  rfl

/- One more offer adds one more entry to the chain. -/
theorem Chained.offer
    (hChained : Chained svc row n amounts)
    (input : IntentInput)
    (params : NegotiateParams)
    (now : DateTime) :
    Chained svc
      ((offerPatch svc input params row now).apply row) (n + 1)
      (Function.update amounts (n + 1)
        (offeredMinor svc params
          (totalAmountMinor row.totals))) := by
  have hFree := hChained.nextKey_free
  have hBefore :
      ∀ i ≤ n, Function.update amounts (n + 1)
          (offeredMinor svc params
            (totalAmountMinor row.totals)) i = amounts i :=
    fun i hLe => Function.update_of_ne (by omega) _ _
  have hPrior :
      (row.totals.total.getD (.new (totalAmountMinor row.totals)
        row.currency)).amountMinor = amounts n := by
    obtain ⟨money, hMoney, hAmount⟩ :=
      Option.map_eq_some_iff.mp hChained.present
    rw [hMoney, Option.getD_some, hAmount]
  have hRefs := offered_refs svc input params row now
  rw [hChained.length, hPrior] at hRefs
  constructor
  · rw [hRefs, AList.keys_insert, List.erase_of_not_mem hFree,
      List.filter_cons_of_pos (isHistoryKey_historyKey n),
      List.range_succ, List.map_append]
    exact (hChained.keys.cons _).trans
      (List.perm_append_singleton _ _).symm
  · intro i hLess
    rw [hRefs]
    by_cases hLast : i = n
    · subst hLast
      refine ⟨_, AList.lookup_insert _, ?_⟩
      rw [hBefore i (Nat.le_refl i), Function.update_self]
      exact ⟨_, rfl⟩
    · obtain ⟨text, hText, hEntry⟩ :=
        hChained.entries i (by omega)
      have hOther : historyKey i ≠ historyKey n :=
        fun hSame => hLast (historyKey_injective hSame)
      refine ⟨text, ?_, ?_⟩
      · rw [AList.lookup_insert_ne hOther, hText]
      · rw [hBefore i (by omega), hBefore (i + 1) (by omega)]
        exact hEntry
  · rw [Function.update_self]
    rfl

end Chains

end Protocol

end IcpHandler

------------------------------------------------------------
-- Fresh Quotes
------------------------------------------------------------

namespace IcpHandler

namespace Protocol

open Model Service Concurrency

/- A transaction as a quote stores it. -/
structure FreshlyQuoted (txn : Transaction) : Prop where
  quoted : txn.state = .quoted
  unannotated : txn.externalRefs = ∅
  priced : txn.totals.total.isSome

section Quotes

variable {svc : IcpService} {input : IntentInput}
variable {rfc3339 : Rfc3339} {fits : Choice → Prop}
variable {thread : Nat} {h : Log}

theorem does_freshTransaction
    {state : TransactionState}
    {Q : Transaction → Log → Prop}
    {X : Halt → Log → Prop}
    (hNext :
      ∀ txn later, txn.state = state → txn.externalRefs = ∅ →
        Q txn later) :
    (freshTransaction input state).Does rfc3339 fits thread Q X
      h := by
  unfold freshTransaction
  split
  · rw [Svc.does_bind, Svc.does_pure, Svc.does_bind,
      Svc.does_act]
    intro createdAt after _
    rw [Svc.does_bind, Svc.does_act]
    intro updatedAt after _
    exact hNext _ _ rfl rfl
  · rw [Svc.does_bind, Svc.does_act]
    intro token after _
    rw [Svc.does_bind, Svc.does_pure, Svc.does_bind,
      Svc.does_act]
    intro createdAt after _
    rw [Svc.does_bind, Svc.does_act]
    intro updatedAt after _
    exact hNext _ _ rfl rfl

/- Promotions leave a total that is there. -/
theorem does_quoteTotals
    {params : QuoteParams}
    {totals : Totals}
    {currency : String}
    (hTotal : totals.total.isSome)
    {Q : Totals → Log → Prop}
    {X : Halt → Log → Prop}
    (hNext : ∀ totals later, totals.total.isSome → Q totals later) :
    (quoteTotals svc params totals currency).Does rfc3339 fits
      thread Q X h := by
  unfold quoteTotals
  split
  · rw [Svc.does_bind, Svc.does_act]
    intro discount after _
    split
    · exact hNext _ _ rfl
    · exact hNext _ _ hTotal
  · exact hNext _ _ hTotal

/- Every quote that succeeds is freshly quoted. -/
theorem does_doQuote :
    (doQuote svc input).Does rfc3339 fits thread
      (fun outcome _ => FreshlyQuoted outcome.transaction)
      (fun _ _ => True) h := by
  rw [doQuote, Svc.does_bind, Svc.does_ofExcept]
  refine ⟨fun params _ => ?_, fun _ _ => trivial⟩
  rw [Svc.does_bind, Svc.does_ensure]
  refine ⟨fun _ => ?_, fun _ => trivial⟩
  dsimp only
  rw [Svc.does_bind, Svc.does_ofExcept]
  refine ⟨fun priced hPriced => ?_, fun _ _ => trivial⟩
  have hTotal : priced.2.total.isSome := by
    obtain ⟨subtotal, tax, total, hExact, -⟩ :=
      pricedExactly_of_ok hPriced
    rw [hExact.totals_eq]
    rfl
  rw [Svc.does_bind]
  refine does_quoteTotals hTotal fun totals later hLater => ?_
  rw [Svc.does_bind]
  refine does_freshTransaction fun txn later hState hRefs => ?_
  rw [Svc.does_bind, Svc.does_act]
  intro now after _
  rw [Svc.does_bind, Svc.does_act]
  intro stored after _
  exact ⟨hState, hRefs, hLater⟩

end Quotes

end Protocol

end IcpHandler

------------------------------------------------------------
-- Runs of Counter-Offers
------------------------------------------------------------

namespace IcpHandler

namespace Protocol

open Model Service Concurrency

/- A counter-offer on the transaction. -/
def OffersOn
    (svc : IcpService)
    (id : String) : Op → Prop
  | .intent input =>
      Intent.parse input.envelope.intent = .ok .negotiate ∧
        ∀ params,
          svc.deps.negotiateParams input.envelope.params =
              .ok params →
            params.transactionId = id
  | _ => False

/- How many of the first operations have succeeded. -/
def successes
    (svc : IcpService)
    (ops : Nat → Op)
    (choices : Nat → List Choice)
    (w : World)
    (count : Nat) : Nat :=
  (List.range count).countP fun k =>
    (turnResult svc ops choices w k).any succeeded

section Offers

variable {svc : IcpService} {op : Op}
variable {thread : Nat} {id : String}
variable {choices rest : List Choice}
variable {h later : Log} {result : OpResult}

/- The whole intent, where every receipt can be signed. -/
theorem does_offer
    {fits : Choice → Prop}
    {input : IntentInput}
    {before : Option Transaction}
    (hOffers : OffersOn svc id (.intent input))
    (hSigned : ¬ Unsigned svc fits)
    (hRow : rowOf id h = before) :
    (handleIntent svc input).Does svc.deps.rfc3339 fits thread
      (fun _ later =>
        ∃ input params txn now, before = some txn ∧
          rowOf id later =
            some ((offerPatch svc input params txn now).apply
              txn))
      (fun _ later => rowOf id later = before) h := by
  let view := txnView svc.deps.rfc3339 fits id
  refine does_handleIntent view
    (fun _ hIdle => aside_of_idle hIdle) hRow
    (fun _ _ hSame => hSame) ?_
  intro intent mandate ready hIntent _ hReady
  obtain ⟨hNegotiate, hNamed⟩ := hOffers
  rw [hNegotiate] at hIntent
  cases hIntent
  refine (does_doNegotiate hReady).mono ?_ fun _ _ hSame => hSame
  intro outcome offered hDone
  cases hDone with
  | other params hParams hOther hSame =>
      exact absurd (hNamed params hParams) hOther
  | own params hParams txn now hBefore hAccepted hAfter =>
      refine (does_respond view
        (fun _ hIdle => aside_of_idle hIdle) hAfter).mono ?_ ?_
      · exact fun _ last hLast =>
          ⟨input, params, txn, now, hBefore, hLast⟩
      · exact fun _ _ hPost => absurd hPost.2.1 hSigned

/- An offer is answered and carried out, or neither. -/
theorem offer_turn
    (hOffers : OffersOn svc id op)
    (hSigned : ¬ Unsigned svc (· ∈ choices))
    (hEval :
      (op.prog svc).eval (machine svc.deps.rfc3339) thread
        choices h = some (result, later, rest)) :
    (succeeded result = true ∧
      ∃ input params txn now,
        rowOf id h = some txn ∧
          rowOf id later =
            some ((offerPatch svc input params txn now).apply
              txn)) ∨
      (succeeded result = false ∧
        rowOf id later = rowOf id h) := by
  cases op with
  | tickSubscriptions now => cases hOffers
  | tickExpiries now => cases hOffers
  | intent input =>
      have hAll : ∀ choice ∈ choices, choice ∈ choices :=
        fun _ hMem => hMem
      have hRow : rowOf id h = rowOf id h := rfl
      refine Prog.Ensures.eval
        (Q := fun result later =>
          (succeeded result = true ∧
            ∃ input params txn now,
              rowOf id h = some txn ∧
                rowOf id later =
                  some ((offerPatch svc input params txn
                    now).apply txn)) ∨
            (succeeded result = false ∧
              rowOf id later = rowOf id h)) ?_ hAll hEval
      refine Prog.Ensures.bind_iff.mpr ?_
      refine Prog.Ensures.mono
        (does_offer hOffers hSigned hRow) fun answer last hPost => ?_
      cases answer with
      | ok body =>
          exact .inl ⟨rfl, hPost⟩
      | error halt => exact .inr ⟨rfl, hPost⟩

end Offers

/- A fresh quote has an empty history. -/
theorem FreshlyQuoted.chained
    {svc : IcpService}
    {quote : Transaction}
    (hFresh : FreshlyQuoted quote) :
    Chained svc quote 0 fun _ => totalAmountMinor quote.totals where
  keys := by
    rw [hFresh.unannotated]
    exact List.Perm.refl _
  entries := fun i hLess => absurd hLess (Nat.not_lt_zero i)
  present := by
    obtain ⟨money, hMoney⟩ :=
      Option.isSome_iff_exists.mp hFresh.priced
    rw [totalAmountMinor, hMoney]
    rfl

/-
  In a sequential run of counter-offers on a fresh quote, the
  history is a chain of as many entries as there were answers,
  from the quoted total to the present one.
-/
theorem negotiation_history_chained
    (svc : IcpService)
    (ops : Nat → Op)
    (choices : Nat → List Choice)
    (w : World)
    (id : String)
    (quote : Transaction)
    (hFresh : FreshlyQuoted quote)
    (hStored : w.transactions.get id = some quote)
    (hOffers : ∀ k, OffersOn svc id (ops k))
    (hSigned : ∀ k, ¬ Unsigned svc (· ∈ choices k))
    (count : Nat)
    (h : Log)
    (hTurns : runInTurn svc ops choices w count = some h) :
    ∃ row amounts,
      h.world.transactions.get id = some row ∧
        amounts 0 = totalAmountMinor quote.totals ∧
        Chained svc row (successes svc ops choices w count)
          amounts := by
  induction count generalizing h with
  | zero =>
      cases hTurns
      exact ⟨quote, _, hStored, rfl, hFresh.chained⟩
  | succ count ih =>
      obtain ⟨before, result, rest, hBefore, hEval, hResult⟩ :=
        runInTurn_succ hTurns
      obtain ⟨row, amounts, hRow, hFirst, hChained⟩ :=
        ih before hBefore
      have hCount :
          successes svc ops choices w (count + 1) =
            successes svc ops choices w count +
              if succeeded result then 1 else 0 := by
        rw [successes, List.range_succ, List.countP_append,
          List.countP_singleton, hResult, Option.any_some]
        rfl
      rcases offer_turn (hOffers count) (hSigned count) hEval with
        ⟨hOk, input, params, txn, now, hTxn, hAfter⟩ |
        ⟨hNo, hSame⟩
      · have hTxnRow : row = txn :=
          Option.some.inj (hRow.symm.trans hTxn)
        subst hTxnRow
        rw [hOk, if_pos rfl] at hCount
        rw [hCount]
        refine ⟨_, _, hAfter, ?_,
          hChained.offer input params now⟩
        rw [Function.update_of_ne (Nat.succ_ne_zero _).symm]
        exact hFirst
      · rw [hNo, if_neg Bool.false_ne_true] at hCount
        rw [hCount]
        exact ⟨row, amounts, hSame.trans hRow, hFirst, hChained⟩

/- A quote of two units, as it is stored. -/
private def offeredQuote : Transaction where
  id := "X"
  state := .quoted
  agentId := "bot"
  tenantId := "acme"
  mandateJti := none
  currency := "USD"
  jurisdiction := none
  buyer := {}
  shipTo := none
  billTo := none
  lineItems := []
  totals := { total := some (.new 2175 "USD") }
  orderId := none
  quoteExpiresAt := some (Duration.minutes 15)
  createdAt := 0
  updatedAt := 0
  externalRefs := ∅

private def offeredWorld : World :=
  let w := World.fresh (.memory ∅) []
  { w with transactions := w.transactions.insert offeredQuote }

/- Two offers that are taken, and one below zero. -/
private def offers : Nat → Op
  | 0 => .intent (sampleOffer "X" 2000 "USD")
  | 1 => .intent (sampleOffer "X" (-1) "USD")
  | _ => .intent (sampleOffer "X" 1900 "USD")

private theorem offers_on (k : Nat) :
    OffersOn offerService "X" (offers k) := by
  match k with
  | 0 =>
      refine ⟨by decide, fun params hParams => ?_⟩
      cases hParams
      rfl
  | 1 =>
      refine ⟨by decide, fun params hParams => ?_⟩
      cases hParams
      rfl
  | _ + 2 =>
      refine ⟨by decide, fun params hParams => ?_⟩
      cases hParams
      rfl

private theorem sampleChoices_signed (k : Nat) :
    ¬ Unsigned offerService (· ∈ sampleChoices k) := by
  rintro (⟨body, error, hBody⟩ |
    ⟨choice, error, hMem, hSignature⟩)
  · cases hBody
  · obtain ⟨letter, -, rfl⟩ := List.mem_map.mp hMem
    cases hSignature

theorem negotiation_history_chained_sample :
    ∃ h row amounts,
      runInTurn offerService offers sampleChoices offeredWorld
          3 = some h ∧
        h.world.transactions.get "X" = some row ∧
        amounts 0 = 2175 ∧
        Chained offerService row 2 amounts := by
  have hRun :
      (runInTurn offerService offers sampleChoices offeredWorld
        3).isSome = true := by
    decide
  obtain ⟨h, hTurns⟩ := Option.isSome_iff_exists.mp hRun
  have hTwo :
      successes offerService offers sampleChoices offeredWorld
        3 = 2 := by
    decide
  obtain ⟨row, amounts, hRow, hFirst, hChained⟩ :=
    negotiation_history_chained offerService offers sampleChoices
      offeredWorld "X" offeredQuote ⟨rfl, rfl, rfl⟩
      (Data.KeyedStore.get_insert_self _ offeredQuote)
      offers_on sampleChoices_signed 3 h hTurns
  rw [hTwo] at hChained
  exact ⟨h, row, amounts, hTurns, hRow, hFirst, hChained⟩

end Protocol

end IcpHandler
