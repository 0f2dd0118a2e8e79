import IcpHandler.Service.ReceiptList

/-
  What a page of receipts shows: the newest of those that
  belong to the tenant among the receipts that were looked at.
  These are the most recent of all tenants, so that others'
  receipts can hide the tenant's own.

  Main declarations:
    * `ReceiptBackend.records`, `ReceiptBackend.size`
    * `Scanned`, `listRecent_scanned`
    * `showsTo`
    * `pages_show_newest_scanned`
    * `foreign_receipts_hide_own`
-/

------------------------------------------------------------
-- What Is Looked At
------------------------------------------------------------

namespace IcpHandler

namespace Service

open Model Data

variable (parseClaims : String → Option ReceiptClaims)

/- The receipts of the store that can be read. -/
def ReceiptBackend.records :
    ReceiptBackend → List StoredReceipt
  | .memory receipts _ => receipts
  | .sqlite rows _ => rows.filterMap (ReceiptRow.read parseClaims)

/- The number of receipts, read or not. -/
def ReceiptBackend.size : ReceiptBackend → Nat
  | .memory receipts _ => receipts.length
  | .sqlite rows _ => rows.length

/-
  The receipts are the most recent of the store: by the time
  of signing in memory, and on SQLite what can be read of the
  rows that were created last.
-/
def Scanned
    (limit : Nat)
    (backend : ReceiptBackend)
    (scanned : List StoredReceipt) : Prop :=
  match backend with
  | .memory receipts _ =>
      IsNewest signedAt limit receipts scanned
  | .sqlite rows _ =>
      ∃ page : List ReceiptRow,
        IsNewest ReceiptRow.createdAt limit rows page ∧
          scanned.Perm
            (page.filterMap (ReceiptRow.read parseClaims))

variable {parseClaims}

theorem ReceiptRow.read_jti
    {row : ReceiptRow}
    {receipt : StoredReceipt}
    (hRead : ReceiptRow.read parseClaims row = some receipt) :
    receipt.jti = row.jti := by
  unfold ReceiptRow.read at hRead
  obtain ⟨claims, _, rfl⟩ := Option.map_eq_some_iff.mp hRead
  rfl

/- The receipts that are read have a `jti` each. -/
theorem read_jtis_sublist (rows : List ReceiptRow) :
    ((rows.filterMap (ReceiptRow.read parseClaims)).map
        StoredReceipt.jti).Sublist
      (rows.map ReceiptRow.jti) := by
  induction rows with
  | nil => exact List.Sublist.refl []
  | cons row rows ih =>
      cases hRead : ReceiptRow.read parseClaims row with
      | none =>
          rw [List.filterMap_cons_none hRead, List.map_cons]
          exact ih.cons _
      | some receipt =>
          rw [List.filterMap_cons_some hRead, List.map_cons,
            List.map_cons, ReceiptRow.read_jti hRead]
          exact ih.cons_cons _

theorem read_nodup
    {rows : List ReceiptRow}
    (hNodup : (rows.map ReceiptRow.jti).Nodup) :
    (rows.filterMap (ReceiptRow.read parseClaims)).Nodup :=
  List.Nodup.of_map _ (hNodup.sublist (read_jtis_sublist rows))

section Listing

variable (orders : ReceiptOrders)
variable (backend : ReceiptBackend)
variable (limit : Nat)

/- What is gathered are receipts of the store. -/
theorem gatherRecent_subset :
    gatherRecent parseClaims orders backend limit ⊆
      backend.records parseClaims := by
  unfold gatherRecent ReceiptBackend.records
  cases backend with
  | memory receipts hNodup =>
      exact (orders.visit_perm receipts).subset
  | sqlite rows hNodup =>
      refine List.filterMap_subset _ ?_
      intro row hRow
      exact (orders.arrange_perm rows).subset
        (List.mem_of_mem_take hRow)

theorem gatherRecent_nodup :
    (gatherRecent parseClaims orders backend limit).Nodup := by
  unfold gatherRecent
  cases backend with
  | memory receipts hNodup =>
      exact (orders.visit_perm receipts).nodup_iff.mpr
        (List.Nodup.of_map _ hNodup)
  | sqlite rows hNodup =>
      apply read_nodup
      have hArranged := (orders.arrange_perm rows).map
        ReceiptRow.jti
      exact (hArranged.nodup_iff.mpr hNodup).sublist
        ((List.take_sublist _ _).map _)

/- All is gathered of a store that is not too large. -/
theorem gatherRecent_whole
    (hSize : backend.size ≤ limit) :
    (gatherRecent parseClaims orders backend limit).Perm
      (backend.records parseClaims) := by
  unfold gatherRecent ReceiptBackend.records
  cases backend with
  | memory receipts hNodup => exact orders.visit_perm receipts
  | sqlite rows hNodup =>
      have hPerm := orders.arrange_perm rows
      have hLength : rows.length ≤ limit := hSize
      dsimp only
      rw [List.take_of_length_le]
      · exact hPerm.filterMap _
      · rw [hPerm.length_eq]
        exact hLength

theorem listRecent_isNewest :
    IsNewest signedAt limit
      (gatherRecent parseClaims orders backend limit)
      (listRecent parseClaims orders backend limit) :=
  isNewest_newestOf (List.Perm.refl _)
    (gatherRecent_nodup orders backend limit)

theorem listRecent_scanned :
    Scanned parseClaims limit backend
      (listRecent parseClaims orders backend limit) := by
  unfold Scanned listRecent gatherRecent
  cases backend with
  | memory receipts hNodup =>
      exact isNewest_newestOf (orders.visit_perm receipts)
        (List.Nodup.of_map _ hNodup)
  | sqlite rows hNodup =>
      refine ⟨(orders.arrange rows).take limit, ?_, ?_⟩
      · exact isNewest_take (orders.arrange_perm rows)
          (List.Nodup.of_map _ hNodup) (orders.descends rows)
      · -- No more rows were read than may be listed.
        apply newestOf_perm
        exact (List.length_filterMap_le _ _).trans
          (List.length_take_le _ _)

/- A store that is not too large is listed as a whole. -/
theorem listRecent_whole
    (hSize : backend.size ≤ limit) :
    (listRecent parseClaims orders backend limit).Perm
      (backend.records parseClaims) := by
  have hGathered :
      (gatherRecent parseClaims orders backend limit).Perm
        (backend.records parseClaims) :=
    gatherRecent_whole orders backend limit hSize
  refine (newestOf_perm ?_).trans hGathered
  rw [hGathered.length_eq]
  unfold ReceiptBackend.records
  cases backend with
  | memory receipts hNodup => exact hSize
  | sqlite rows hNodup =>
      exact (List.length_filterMap_le _ _).trans hSize

end Listing

end Service

end IcpHandler

------------------------------------------------------------
-- What Is Shown
------------------------------------------------------------

namespace IcpHandler

namespace Service

open Model Data

/- The receipt is the tenant's and passes the filter. -/
def showsTo
    (getTransaction : String → Option Transaction)
    (tenantId : String)
    (q : ListReceiptsQuery)
    (receipt : StoredReceipt) : Bool :=
  ownsReceipt getTransaction tenantId receipt && q.wants receipt

/-
  A page shows the newest of the tenant's receipts among those
  that were looked at. These are the newest of all just if as
  many of them were looked at as may be shown, and none that
  was not is newer than one that is shown.
-/
theorem pages_show_newest_scanned
    (parseClaims : String → Option ReceiptClaims)
    (orders : ReceiptOrders)
    (backend : ReceiptBackend)
    (getTransaction : String → Option Transaction)
    (tenantId : String)
    (q : ListReceiptsQuery) :
    let page := listReceipts parseClaims orders backend
      getTransaction tenantId q
    let shows := showsTo getTransaction tenantId q
    let records := backend.records parseClaims
    page.count = page.data.length ∧
      ∃ scanned : List StoredReceipt,
        Scanned parseClaims (scanLimit q.pageLimit) backend
            scanned ∧
          IsNewest signedAt q.pageLimit (scanned.filter shows)
            page.data ∧
          (IsNewest signedAt q.pageLimit (records.filter shows)
              page.data ↔
            min q.pageLimit (scanned.filter shows).length =
                min q.pageLimit (records.filter shows).length ∧
              ∀ shown ∈ page.data,
                ∀ missed ∈ records.filter shows,
                  missed ∉ scanned →
                    signedAt missed ≤ signedAt shown) ∧
          (backend.size ≤ scanLimit q.pageLimit →
            IsNewest signedAt q.pageLimit
              (records.filter shows) page.data) := by
  intro page shows records
  refine ⟨rfl, ?_⟩
  let scanned := listRecent parseClaims orders backend
    (scanLimit q.pageLimit)
  have hScanned :
      IsNewest signedAt (scanLimit q.pageLimit)
        (gatherRecent parseClaims orders backend
          (scanLimit q.pageLimit)) scanned :=
    listRecent_isNewest orders backend (scanLimit q.pageLimit)
  have hSubset : scanned ⊆ records := fun receipt hIn =>
    gatherRecent_subset orders backend _ (hScanned.subset hIn)
  have hData :
      page.data = (scanned.filter shows).take q.pageLimit := by
    have hFilter :
        (scanned.filter q.wants).filter
            (ownsReceipt getTransaction tenantId) =
          scanned.filter shows :=
      List.filter_filter
    rw [← hFilter]
    rfl
  have hPage :
      IsNewest signedAt q.pageLimit (scanned.filter shows)
        page.data := by
    rw [hData]
    exact isNewest_take (List.Perm.refl _)
      (hScanned.nodup.filter _) (hScanned.sorted.filter _)
  have hWiden :=
    hPage.widen_iff (List.filter_subset shows hSubset)
  refine ⟨scanned, listRecent_scanned orders backend _, hPage,
    ?_, ?_⟩
  · rw [hWiden]
    -- What is shown to the tenant was scanned or left out.
    have hAside :
        ∀ missed ∈ records.filter shows,
          (missed ∉ scanned.filter shows ↔
            missed ∉ scanned) := by
      intro missed hMissed
      have hShows := (List.mem_filter.mp hMissed).2
      rw [List.mem_filter, not_and]
      constructor
      · exact fun hOut hIn => hOut hIn hShows
      · exact fun hOut hIn => absurd hIn hOut
    constructor
    · rintro ⟨hLength, hNewer⟩
      refine ⟨hLength, ?_⟩
      intro shown hShown missed hMissed hOut
      exact hNewer shown hShown missed hMissed
        ((hAside missed hMissed).mpr hOut)
    · rintro ⟨hLength, hNewer⟩
      refine ⟨hLength, ?_⟩
      intro shown hShown missed hMissed hOut
      exact hNewer shown hShown missed hMissed
        ((hAside missed hMissed).mp hOut)
  · intro hSize
    have hWhole :
        (scanned.filter shows).Perm (records.filter shows) :=
      (listRecent_whole orders backend _ hSize).filter shows
    refine hWiden.mpr ⟨by rw [hWhole.length_eq], ?_⟩
    intro shown hShown missed hMissed hOut
    exact absurd (hWhole.mem_iff.mpr hMissed) hOut

/- Rows in the order of the map, and sorted as on a page. -/
private def storedOrders : ReceiptOrders where
  visit receipts := receipts
  visit_perm := List.Perm.refl
  arrange rows := newestOf ReceiptRow.createdAt rows.length rows
  arrange_perm rows := newestOf_perm (Nat.le_refl rows.length)
  descends _ := newestOf_sorted

/- A purchase whose id is the tenant's. -/
private def purchaseOf (tenantId : String) : Transaction where
  id := tenantId
  state := .completed
  agentId := "agent"
  tenantId
  mandateJti := none
  currency := "usd"
  jurisdiction := none
  buyer := default
  shipTo := none
  billTo := none
  lineItems := []
  totals := default
  orderId := none
  quoteExpiresAt := none
  createdAt := 0
  updatedAt := 0
  externalRefs := default

private def receiptOf
    (jti tenantId : String)
    (iat : Int) : StoredReceipt where
  jti
  kid := "key"
  jws := "header.payload.signature"
  bodyDigest := "digest"
  claims :=
    { iss := "issuer"
      aud := "agent"
      iat
      jti
      icp :=
        { version := "1"
          intent := "intent.buy"
          transactionId := tenantId
          orderId := none
          mandateJti := none
          bodyDigest := "digest"
          bodyCanonicalization := "jcs" } }

/- One receipt of a tenant, and three newer ones of another. -/
private def crowdedStore : ReceiptBackend :=
  .memory
    [receiptOf "r1" "small" 1, receiptOf "r2" "busy" 2,
      receiptOf "r3" "busy" 3, receiptOf "r4" "busy" 4]
    (by decide)

/- The tenant asks for one receipt, and is shown none. -/
theorem foreign_receipts_hide_own :
    let q : ListReceiptsQuery :=
      { intent := none, limit := some 1 }
    let purchases := fun id => some (purchaseOf id)
    let page := listReceipts (fun _ => none) storedOrders
      crowdedStore purchases "small" q
    page.data = [] ∧
      ¬ IsNewest signedAt 1
        ((crowdedStore.records fun _ => none).filter
          (showsTo purchases "small" q)) page.data := by
  intro q purchases page
  have hEmpty : page.data = [] := by
    apply List.eq_nil_of_length_eq_zero
    decide
  refine ⟨hEmpty, fun hNewest => ?_⟩
  have hLength := hNewest.length
  rw [hEmpty] at hLength
  revert hLength
  decide

end Service

end IcpHandler
