import IcpHandler.Model.Concrete
import IcpHandler.Properties.ExactPricing
import IcpHandler.Protocol.Origins

/-
  Whether the totals of a stored transaction add up. They do
  when the row is stored, whichever intent stores it. Later
  only a counter-offer changes them, and it sets the total and
  nothing else.

  Main declarations:
    * `DiscountFits`, `AddsUp`
    * `lastOffer`, `Accounted`
    * `totals_accounted`
-/

------------------------------------------------------------
-- Totals that Add Up
------------------------------------------------------------

namespace IcpHandler

namespace Protocol

open Model Service Concurrency Saturating

/- An amount that may be left out. -/
def amountOf (money : Option Money) : Int :=
  (money.map fun m => m.amountMinor.toInt).getD 0

/- The discount lies between zero and the subtotal. -/
def DiscountFits (totals : Totals) : Prop :=
  0 ≤ amountOf totals.discount ∧
    amountOf totals.discount ≤ amountOf totals.subtotal

/- The identity over exact integers, up to saturation. -/
def AddsUp (totals : Totals) : Prop :=
  amountOf totals.total =
    cap (amountOf totals.subtotal - amountOf totals.discount +
      amountOf totals.shipping + amountOf totals.tax)

instance (totals : Totals) : Decidable (AddsUp totals) :=
  inferInstanceAs (Decidable (_ = _))

section Origins

variable {items : List RequestItem} {currency : String}
variable {fieldPrefix : String} {lines : List LineItem}
variable {totals : Totals}

@[simp] theorem amountOf_none : amountOf none = 0 := rfl

@[simp] theorem amountOf_new (amountMinor : Int64) :
    amountOf (some (.new amountMinor currency)) =
      amountMinor.toInt :=
  rfl

theorem discountFits_of_none
    (hNone : totals.discount = none)
    (hNonneg : 0 ≤ amountOf totals.subtotal) :
    DiscountFits totals := by
  rw [DiscountFits, hNone]
  exact ⟨Int.le_refl 0, hNonneg⟩

theorem accounted_of_priced
    (hPriced :
      priceRequestItems items currency fieldPrefix =
        .ok (lines, totals)) :
    DiscountFits totals ∧ AddsUp totals := by
  obtain ⟨subtotal, tax, total, hExact, hNonneg⟩ :=
    pricedExactly_of_ok hPriced
  have hTotals := hExact.totals_eq
  constructor
  · refine discountFits_of_none ?_ ?_
    · rw [hTotals]
    · rw [hTotals]
      exact hNonneg
  · rw [hTotals, AddsUp]
    simp only [amountOf_new, amountOf_none]
    rw [hExact.total_eq]
    congr 1
    omega

theorem accounted_of_discounted
    (hPriced :
      priceRequestItems items currency fieldPrefix =
        .ok (lines, totals))
    (discountMinor : Int64) :
    DiscountFits
        (applyDiscountToTotals totals discountMinor currency) ∧
      AddsUp
        (applyDiscountToTotals totals discountMinor
          currency) := by
  obtain ⟨subtotal, tax, total, hExact, hNonneg⟩ :=
    pricedExactly_of_ok hPriced
  obtain ⟨discount, tax, total, hDiscounted⟩ :=
    discounted_of_priced hExact hNonneg discountMinor
  have hTotals := hExact.totals_eq
  rw [hDiscounted.after_eq, hTotals]
  constructor
  · exact ⟨hDiscounted.discount_nonneg,
      hDiscounted.discount_le⟩
  · rw [AddsUp]
    simp only [amountOf_new, amountOf_none]
    rw [hDiscounted.total_eq]
    congr 1
    omega

/- What is stored adds up, wherever it comes from. -/
theorem Origin.accounted
    {svc : IcpService} {op : Op}
    {past : Moves} {effect : Eff}
    {row : Transaction}
    (hOrigin : Origin svc op past effect row) :
    DiscountFits row.totals ∧ AddsUp row.totals := by
  cases hOrigin with
  | blank hFree hTotals hLines =>
      rw [hTotals]
      constructor
      · exact discountFits_of_none rfl (Int.le_refl 0)
      · decide
  | priced items fieldPrefix totals hFor hPriced hTotals =>
      rcases hTotals with hTotals | ⟨discountMinor, hTotals⟩
      · rw [hTotals]
        exact accounted_of_priced hPriced
      · rw [hTotals]
        exact accounted_of_discounted hPriced discountMinor
  | paid money hFree hPositive hCurrency hTotals hLines =>
      have hNonneg : 0 ≤ money.amountMinor.toInt :=
        Int.le_of_lt (Int64.lt_iff_toInt_lt.mp hPositive)
      rw [hTotals]
      constructor
      · exact discountFits_of_none rfl hNonneg
      · have hSame :
            amountOf (some money) = money.amountMinor.toInt :=
          rfl
        rw [AddsUp]
        simp only [hSame, amountOf_none, sub_zero, add_zero,
          cap_toInt]

end Origins

end Protocol

end IcpHandler

------------------------------------------------------------
-- The Offer a Total Stands At
------------------------------------------------------------

namespace IcpHandler

namespace Protocol

open Model Service Concurrency Saturating

/- The total an answered counter-offer has set. -/
def offerOn (id : String) (o : Happening) : Option Money :=
  match o.move with
  | ⟨.txns (.update key (.renegotiate _ offered currency _ _)),
      some _⟩ =>
      if key = id then some (.new offered currency) else none
  | _ => none

/- The counter-offer that was answered last. -/
def lastOffer (id : String) (past : Past) : Option Money :=
  past.findSome? (offerOn id)

/- The occurrence has put the row into the store. -/
def Lands
    (id : String)
    (o : Happening)
    (row : Transaction) : Prop :=
  StoredBy o row ∧ row.id = id ∧
    o.after.transactions.get id = some row

/-
  What a row's totals are, by the totals it was stored with
  and what has happened since.
-/
structure Accounted
    (id : String)
    (stored row : Transaction)
    (since : Past) : Prop where
  discount : DiscountFits row.totals
  quoted : AddsUp stored.totals
  unoffered : lastOffer id since = none → AddsUp row.totals
  totals :
    row.totals =
      { stored.totals with
        total := (lastOffer id since).or stored.totals.total }

/- The row was stored last by a storing that adds up. -/
def Standing
    (id : String)
    (past : Past)
    (row : Transaction) : Prop :=
  ∃ since o older stored,
    past = since ++ o :: older ∧
      Lands id o stored ∧
      (∀ later ∈ since, ∀ other, ¬ Lands id later other) ∧
      Accounted id stored row since

section Offers

variable {rfc3339 : Rfc3339}
variable {id : String} {o : Happening}
variable {stored row after : Transaction}
variable {since past : Past}

/- An answered offer sets the total of the row it found. -/
theorem offered_row
    (hExec : Executes rfc3339 o)
    {money : Money}
    (hOffer : offerOn id o = some money) :
    ∃ row after,
      o.before.transactions.get id = some row ∧
        o.after.transactions.get id = some after ∧
        after.totals =
          { row.totals with total := some money } := by
  unfold offerOn at hOffer
  split at hOffer
  · rename_i key original offered currency entry now updated
      hMove
    split at hOffer
    · rename_i hKey
      subst hKey
      cases hOffer
      obtain ⟨row, hRow, hPatched, hAfter⟩ :=
        hExec.updatedTxn hMove
      refine ⟨row, updated, hRow, hAfter, ?_⟩
      rw [hPatched]
      rfl
    · cases hOffer
  · cases hOffer

/- Every other update leaves the totals alone. -/
theorem totals_of_not_reprices
    {patch : TxnPatch}
    (hNot : reprices patch = false) :
    (patch.apply row).totals = row.totals := by
  cases patch with
  | expireIfOpen now =>
      simp only [TxnPatch.apply]
      split
      · rfl
      · rfl
  | renegotiate original offered currency entry now =>
      cases hNot
  | _ => rfl

/- An occurrence that is no offer keeps the row's totals. -/
theorem unoffered_row
    (hExec : Executes rfc3339 o)
    (hOffer : offerOn id o = none)
    (hLands : ∀ other, ¬ Lands id o other)
    (hAfter : o.after.transactions.get id = some after) :
    ∃ row, o.before.transactions.get id = some row ∧
      after.totals = row.totals := by
  cases hExec.txnChange id with
  | kept hKept =>
      rw [hKept] at hAfter
      exact ⟨after, hAfter, rfl⟩
  | inserted row hEffect hId hStored =>
      exact absurd ⟨hEffect, hId, hStored⟩ (hLands row)
  | patched patch row hMove hBefore hPatched =>
      rw [hPatched] at hAfter
      cases hAfter
      refine ⟨row, hBefore, ?_⟩
      refine totals_of_not_reprices ?_
      cases patch with
      | renegotiate original offered currency entry now =>
          simp [offerOn, hMove] at hOffer
      | _ => rfl

/- A row that has just been stored. -/
theorem Standing.here
    {older : Past}
    (hLands : Lands id o stored)
    (hAccounted :
      DiscountFits stored.totals ∧ AddsUp stored.totals) :
    Standing id (o :: older) stored := by
  refine ⟨[], o, older, stored, rfl, hLands, by simp, ?_⟩
  exact
    { discount := hAccounted.1
      quoted := hAccounted.2
      unoffered := fun _ => hAccounted.2
      totals := rfl }

theorem lastOffer_cons :
    lastOffer id (o :: since) =
      (offerOn id o).or (lastOffer id since) := by
  rw [lastOffer, List.findSome?_cons]
  cases offerOn id o with
  | none => rfl
  | some money => rfl

/- What happens to the totals after the row was stored. -/
theorem Standing.push
    (hStanding : Standing id past row)
    (hLands : ∀ other, ¬ Lands id o other)
    (hTotals :
      after.totals =
        { row.totals with
          total := (offerOn id o).or row.totals.total }) :
    Standing id (o :: past) after := by
  obtain ⟨since, first, older, stored, rfl, hFirst, hNone,
    hAccounted⟩ := hStanding
  refine ⟨o :: since, first, older, stored, rfl, hFirst, ?_, ?_⟩
  · intro later hLater
    rcases List.mem_cons.mp hLater with rfl | hLater
    · exact hLands
    · exact hNone later hLater
  · have hBefore := hAccounted.totals
    have hAfter :
        after.totals =
          { stored.totals with
            total :=
              (lastOffer id (o :: since)).or
                stored.totals.total } := by
      rw [hTotals, hBefore, lastOffer_cons, Option.or_assoc]
    refine
      { discount := ?_
        quoted := hAccounted.quoted
        unoffered := ?_
        totals := hAfter }
    · have hDiscount := hAccounted.discount
      rw [DiscountFits] at hDiscount ⊢
      rw [hTotals]
      exact hDiscount
    · intro hUnoffered
      rw [hUnoffered, Option.none_or] at hAfter
      rw [hAfter]
      exact hAccounted.quoted

end Offers

end Protocol

end IcpHandler

------------------------------------------------------------
-- Runs
------------------------------------------------------------

namespace IcpHandler

namespace Protocol

open Model Service Concurrency Saturating

section Runs

variable {svc : IcpService} {ops : Nat → Op}

/- By induction on the run: every stored row stands. -/
theorem standing_of_lawful
    {w : World}
    {h : History Eff.Res World}
    (hLawful :
      Lawful (machine svc.deps.rfc3339)
        (fun thread => OriginRule svc (ops thread)) w h)
    (hNone : ∀ id, w.transactions.get id = none)
    (id : String)
    (row : Transaction)
    (hStored : h.world.transactions.get id = some row) :
    Standing id h.past row := by
  induction hLawful generalizing row with
  | start =>
      rw [History.start_world, hNone] at hStored
      cases hStored
  | @push h o hBefore hAllows hRule ih =>
      have hExec := executes_of_allows hAllows
      have hWorld := hAllows.before_eq
      rw [History.push_world] at hStored
      rw [History.push_past]
      by_cases hLands : ∃ stored, Lands id o stored
      · obtain ⟨stored, hLands⟩ := hLands
        have hSame : row = stored :=
          Option.some.inj (hStored.symm.trans hLands.2.2)
        subst hSame
        exact .here hLands
          (origin_of_stored hRule hLands.1).accounted
      · push Not at hLands
        cases hOffer : offerOn id o with
        | some money =>
            obtain ⟨before, after, hRow, hAfter, hTotals⟩ :=
              offered_row hExec hOffer
            rw [hStored] at hAfter
            cases hAfter
            rw [hWorld] at hRow
            refine (ih before hRow).push hLands ?_
            rw [hTotals, hOffer]
            rfl
        | none =>
            obtain ⟨before, hRow, hTotals⟩ :=
              unoffered_row hExec hOffer hLands hStored
            rw [hWorld] at hRow
            refine (ih before hRow).push hLands ?_
            rw [hTotals, hOffer]
            rfl

end Runs

/-
  In every run every stored transaction has a discount that
  fits. Its totals add up unless a counter-offer was answered
  since the row was stored, and then the last one has set the
  total and nothing else.
-/
theorem totals_accounted
    (svc : IcpService)
    (ops : Nat → Op)
    (ledger : MandateLedger)
    (subscribers : List WebhookSubscriber)
    (pool : Pool Eff.Res World OpResult)
    (hReaches :
      Reaches svc ops (.fresh ledger subscribers) pool)
    (id : String)
    (row : Transaction)
    (hStored :
      pool.history.world.transactions.get id = some row) :
    ∃ since o older stored,
      pool.history.past = since ++ o :: older ∧
        Lands id o stored ∧
        (∀ later ∈ since, ∀ other, ¬ Lands id later other) ∧
        Accounted id stored row since :=
  standing_of_lawful hReaches.originated (fun _ => rfl) id row
    hStored

/- A quote under the id "X", and an offer on it. -/
private def bargain : Nat → Op
  | 0 => .intent (sampleQuote "X" 2)
  | _ => .intent (sampleOffer "X" 2000 "USD")

/- The offer follows the quote. -/
private def bargainSchedule : List (Nat × Choice) :=
  ((sampleChoices 0).take 15).map (Prod.mk 0) ++
    ((sampleChoices 1).take 16).map (Prod.mk 1)

private def bargained :
    Option (Pool Eff.Res World OpResult) :=
  runOf offerService bargain (.fresh (.memory ∅) [])
    bargainSchedule

private theorem bargained_row :
    ∃ pool row,
      Reaches offerService bargain (.fresh (.memory ∅) [])
          pool ∧
        pool.history.world.transactions.get "X" = some row ∧
        row.totals.total.isSome = true ∧ ¬ AddsUp row.totals := by
  have hRun :
      (bargained.any fun pool =>
        (pool.history.world.transactions.get "X").any fun row =>
          row.totals.total.isSome &&
            !decide (AddsUp row.totals)) = true := by
    decide
  obtain ⟨pool, hPool, hRow⟩ := (Option.any_eq_true _ _).mp hRun
  obtain ⟨row, hStored, hTotals⟩ :=
    (Option.any_eq_true _ _).mp hRow
  simp only [Bool.and_eq_true, Bool.not_eq_true',
    decide_eq_false_iff_not] at hTotals
  exact ⟨pool, row, ⟨bargainSchedule, hPool⟩, hStored,
    hTotals.1, hTotals.2⟩

/- After an offer the parts no longer come to the total. -/
theorem bargained_total_off :
    ¬ ∀ svc ops ledger subscribers pool,
      Reaches svc ops (.fresh ledger subscribers) pool →
      ∀ id row,
        pool.history.world.transactions.get id = some row →
        row.totals.total.isSome = true →
        AddsUp row.totals ∧ DiscountFits row.totals := by
  intro hAll
  obtain ⟨pool, row, hReaches, hStored, hTotal, hOff⟩ :=
    bargained_row
  exact hOff (hAll _ _ _ _ pool hReaches "X" row hStored
    hTotal).1

theorem totals_accounted_sample :
    ∃ (pool : Pool Eff.Res World OpResult)
        (row : Transaction) (since : Past) (o : Happening)
        (older : Past) (stored : Transaction),
      pool.history.world.transactions.get "X" = some row ∧
        pool.history.past = since ++ o :: older ∧
        Lands "X" o stored ∧ Accounted "X" stored row since := by
  obtain ⟨pool, row, hReaches, hStored, -, -⟩ := bargained_row
  obtain ⟨since, o, older, stored, hPast, hLands, -,
    hAccounted⟩ :=
    totals_accounted offerService bargain (.memory ∅) [] pool
      hReaches "X" row hStored
  exact ⟨pool, row, since, o, older, stored, hStored, hPast,
    hLands, hAccounted⟩

end Protocol

end IcpHandler
