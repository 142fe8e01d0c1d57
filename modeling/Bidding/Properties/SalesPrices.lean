import Bidding.Collections.GroupSums
import Bidding.Properties.ReportGroups

/-!
# Sales Prices of the Summary-1 Report

The observer awards a closed lot to its best, second or third bidder. The report looks up the
amount of that bidder in the entry of the item, multiplies it by the quantity, and the page adds
the products up. Put together, the page shows the value of the awarded lots: each at the amount
of the bidder to whom it was awarded, times its quantity.

## Key Results

- **`setSalesPrice_entry`**: the price of an entry, in terms of the rows of its item.
- **`getReportsTotal_eq`**: the loop of the page.
- **`finalTotalSalesPrice_eq`**: the total of the page, in terms of the rows of the query.
-/

namespace Bidding.Model.Reports

open Bidding.Collections ReportDao ReportController

/-! ## Awards -/

/-- The number of the bidder to whom a lot is awarded. -/
def awarded : Option BidStatus → Option ℕ
  | some .h1 => some 0
  | some .h2 => some 1
  | some .h3 => some 2
  | _ => none

/-- What a lot brings: the amount of the row of the bidder to whom it is awarded, times the
    quantity. -/
def saleValue (g : List ItemRow) : ℚ :=
  match g.head? with
  | none => 0
  | some first =>
    match (awarded first.item.isProcessed).bind fun n => g[n]?.bind (·.bidAmount) with
    | none => 0
    | some amount => first.item.quantity * amount

/-- The amount of a row of an item, zero if there is none. -/
def amountAt (n : ℕ) (g : List ItemRow) : ℚ := (g[n]?.bind (·.bidAmount)).getD 0

/-- The quantity of the item of some rows. -/
def quantityOf (g : List ItemRow) : ℤ := (g.head?.map fun first => first.item.quantity).getD 0

/-- An entry with its prices, in terms of the rows `g` of its item. -/
structure Priced (g : List ItemRow) (bids : Bids) : Prop where
  measured : bids.bidItem.Measured
  quantity : bids.bidItem.quantity = quantityOf g
  amount1 : bids.bidAmount.getD 0 = amountAt 0 g
  amount2 : bids.bidAmount2.getD 0 = amountAt 1 g
  amount3 : bids.bidAmount3.getD 0 = amountAt 2 g
  sale : bids.totalSalesPrice.getD 0 = saleValue g

/-- An item that is awarded sells at the amount of the bidder with that rank. -/
theorem saleValue_cons {b : ItemRow} {g : List ItemRow} {n : ℕ}
    (h : awarded b.item.isProcessed = some n) :
    saleValue (b :: g) =
      match (b :: g)[n]?.bind (·.bidAmount) with
      | none => 0
      | some amount => b.item.quantity * amount := by
  simp only [saleValue, List.head?_cons, h, Option.bind_some]

theorem saleValue_of_not_awarded {b : ItemRow} {g : List ItemRow}
    (h : awarded b.item.isProcessed = none) : saleValue (b :: g) = 0 := by
  simp only [saleValue, List.head?_cons, h, Option.bind_none]

/-- The price that an award sets, if the bidder has an amount. -/
theorem getD_totalSalesPrice_award {b : Bids} (hprice : b.totalSalesPrice = none) (quantity : ℤ)
    (amount : Option ℚ) :
    (award b quantity amount).totalSalesPrice.getD 0 =
      match amount with
      | none => 0
      | some amount => quantity * amount := by
  cases amount with
  | none => simp [award, hprice]
  | some amount => rfl

/-- An award sets the price to what the lot brings. -/
theorem getD_totalSalesPrice_awarded {b : ItemRow} (g : List ItemRow) {n : ℕ} (bids : Bids)
    (h : awarded b.item.isProcessed = some n) (hprice : bids.totalSalesPrice = none) :
    (award bids b.item.quantity ((b :: g)[n]?.bind (·.bidAmount))).totalSalesPrice.getD 0 =
      saleValue (b :: g) := by
  rw [getD_totalSalesPrice_award hprice, saleValue_cons h]

/-- The price of an entry is set from the row of the bidder to whom the item is awarded. -/
theorem setSalesPrice_entry {b : ItemRow} (g : List ItemRow) (hmeasured : b.item.Measured) :
    ∃ bids, setSalesPrice (entryAs b.item (b :: g)) = .ok bids ∧ Priced (b :: g) bids := by
  have hquantity : (entryAs b.item (b :: g)).bidItem.getTotalQuantity = .ok b.item.quantity :=
    hmeasured.getTotalQuantity
  have hunsold (hnone : awarded b.item.isProcessed = none) :
      (entryAs b.item (b :: g)).totalSalesPrice.getD 0 = saleValue (b :: g) :=
    (saleValue_of_not_awarded hnone).symm
  have hsold (n : ℕ) (hn : awarded b.item.isProcessed = some n) :=
    getD_totalSalesPrice_awarded g (entryAs b.item (b :: g)) hn rfl
  unfold setSalesPrice
  cases hstatus : b.item.isProcessed with
  | none =>
    -- without a decision the quantity is not even computed
    have hitem : (entryAs b.item (b :: g)).bidItem.isProcessed = none := hstatus
    simp only [hitem]
    exact ⟨_, rfl, hmeasured, rfl, rfl, rfl, rfl, hunsold (by rw [hstatus]; rfl)⟩
  | some status =>
    have hitem : (entryAs b.item (b :: g)).bidItem.isProcessed = some status := hstatus
    simp only [hitem, hquantity, bind, Except.bind]
    cases status with
    -- the three awards differ in the rank of the bidder only
    | h1 => exact ⟨_, rfl, hmeasured, rfl, rfl, rfl, rfl, hsold 0 (by rw [hstatus]; rfl)⟩
    | h2 => exact ⟨_, rfl, hmeasured, rfl, rfl, rfl, rfl, hsold 1 (by rw [hstatus]; rfl)⟩
    | h3 => exact ⟨_, rfl, hmeasured, rfl, rfl, rfl, rfl, hsold 2 (by rw [hstatus]; rfl)⟩
    | rejected => exact ⟨_, rfl, hmeasured, rfl, rfl, rfl, rfl, hunsold (by rw [hstatus]; rfl)⟩
    | hold => exact ⟨_, rfl, hmeasured, rfl, rfl, rfl, rfl, hunsold (by rw [hstatus]; rfl)⟩

/-! ## The report -/

/-- The rows of an item whose lots all have a quantity. -/
def MeasuredRows (g : List ItemRow) : Prop := ∃ b g', g = b :: g' ∧ b.item.Measured

/-- The prices are set entry by entry. -/
theorem getBidsSalesPrice_eq {gs : List (List ItemRow)} (h : ∀ g ∈ gs, MeasuredRows g) :
    ∃ bidsList, getBidsSalesPrice (gs.filterMap itemEntry) = .ok bidsList ∧
      List.Forall₂ Priced gs bidsList := by
  unfold getBidsSalesPrice
  induction gs with
  | nil => exact ⟨[], rfl, .nil⟩
  | cons g gs ih =>
    -- no group is empty, so each has an entry
    obtain ⟨b, g', rfl, hmeasured⟩ := h g List.mem_cons_self
    obtain ⟨bidsList, hlist, hpriced⟩ := ih fun g hg => h g (List.mem_cons_of_mem _ hg)
    obtain ⟨bids, hbids, hfirst⟩ := setSalesPrice_entry g' hmeasured
    refine ⟨bids :: bidsList, ?_, .cons hfirst hpriced⟩
    have hentry : itemEntry (b :: g') = some (entryAs b.item (b :: g')) := rfl
    rw [List.filterMap_cons_some hentry, List.mapM_cons, hbids, hlist]
    rfl

/-- The totals of the items with the rows `gs`. -/
def totalOf (gs : List (List ItemRow)) : ReportsTotal where
  totalQuantity := (gs.map quantityOf).sum
  totalBidAmount1 := (gs.map (amountAt 0)).sum
  totalBidAmount2 := (gs.map (amountAt 1)).sum
  totalBidAmount3 := (gs.map (amountAt 2)).sum
  finalTotalSalesPrice := (gs.map saleValue).sum

/-- The loop of the page adds up the columns. -/
theorem getReportsTotal_eq {gs : List (List ItemRow)} {bidsList : List Bids}
    (h : List.Forall₂ Priced gs bidsList) : getReportsTotal bidsList = .ok (totalOf gs) := by
  -- the loop adds to any totals, not only to zero
  have hloop (total : ReportsTotal) : bidsList.foldlM addBids total = .ok {
      totalQuantity := total.totalQuantity + (gs.map quantityOf).sum
      totalBidAmount1 := total.totalBidAmount1 + (gs.map (amountAt 0)).sum
      totalBidAmount2 := total.totalBidAmount2 + (gs.map (amountAt 1)).sum
      totalBidAmount3 := total.totalBidAmount3 + (gs.map (amountAt 2)).sum
      finalTotalSalesPrice := total.finalTotalSalesPrice + (gs.map saleValue).sum } := by
    induction h generalizing total with
    | nil => simp [pure, Except.pure]
    | cons hfirst _ ih =>
      rw [List.foldlM_cons, addBids, hfirst.measured.getTotalQuantity]
      refine (ih _).trans ?_
      simp only [List.map_cons, List.sum_cons, hfirst.quantity, hfirst.amount1, hfirst.amount2,
        hfirst.amount3, hfirst.sale, add_assoc]
  refine (hloop _).trans ?_
  simp only [zero_add]
  rfl

/-- The rows of the items that the report lists: all items but the active one, and without the
    last of them if there are rows of the active one. -/
def reported (activeId : ℤ) (rows : List ItemRow) : List (List ItemRow) :=
  let gs := groups (fun row => row.item.id) (others activeId rows)
  if ∀ row ∈ rows, row.item.id ≠ activeId then gs else gs.dropLast

theorem dropLast_filterMap {α β : Type} {f : α → Option β} {l : List α}
    (h : ∀ a ∈ l, f a ≠ none) : (l.filterMap f).dropLast = l.dropLast.filterMap f := by
  obtain rfl | ⟨l, a, rfl⟩ := l.eq_nil_or_concat
  · rfl
  · obtain ⟨b, hb⟩ := Option.ne_none_iff_exists'.mp (h a (by simp))
    simp [hb]

section Report

variable {getBidItem : ℤ → Option ReportItem} {activeId : ℤ} {rows g : List ItemRow}

theorem itemEntry_ne_none (hg : g ∈ groups (fun row => row.item.id) rows) :
    itemEntry g ≠ none := by
  obtain ⟨b, g', rfl, -⟩ := exists_cons_of_mem_groups hg
  exact Option.some_ne_none _

/-- The entries are those of the reported items. -/
theorem processSummary1ReportList_reported (hfound : ∀ row ∈ rows, row.Found getBidItem)
    (hrows : Contiguous (fun row => row.item.id) rows) :
    processSummary1ReportList getBidItem activeId (rows.map ItemRow.toRow) [] =
      .ok ((reported activeId rows).filterMap itemEntry) := by
  rw [processSummary1ReportList_eq [] hfound hrows, List.nil_append]
  unfold reported itemEntries
  split
  · rfl
  · rw [dropLast_filterMap fun g hg => itemEntry_ne_none hg]

/-- A reported group has a first row, which is one of the rows. -/
theorem exists_cons_of_mem_reported (hg : g ∈ reported activeId rows) :
    ∃ b g', g = b :: g' ∧ b ∈ rows := by
  have hmem : g ∈ groups (fun row => row.item.id) (others activeId rows) := by
    unfold reported at hg
    split at hg
    · exact hg
    · exact List.mem_of_mem_dropLast hg
  obtain ⟨b, g', hcons, hb⟩ := exists_cons_of_mem_groups hmem
  exact ⟨b, g', hcons, List.mem_of_mem_filter hb⟩

/-- The page adds up the reported items: their quantities, the amounts of their first three
    bidders, and the amount of the bidder to whom the lot was awarded times the quantity. The
    active item does not count, and with rows of the active item the last item does not count
    either. -/
theorem finalTotalSalesPrice_eq (hfound : ∀ row ∈ rows, row.Found getBidItem)
    (hrows : Contiguous (fun row => row.item.id) rows)
    (hmeasured : ∀ row ∈ rows, row.item.Measured) :
    (getReportSummary1 getBidItem activeId (rows.map ItemRow.toRow) >>= getReportsTotal) =
      .ok (totalOf (reported activeId rows)) := by
  have hgroups : ∀ g ∈ reported activeId rows, MeasuredRows g := by
    intro g hg
    obtain ⟨b, g', rfl, hb⟩ := exists_cons_of_mem_reported hg
    exact ⟨b, g', rfl, hmeasured b hb⟩
  -- the page reads the columns of the entries that the service has priced
  obtain ⟨bidsList, hprices, hpriced⟩ := getBidsSalesPrice_eq hgroups
  have hreport : getReportSummary1 getBidItem activeId (rows.map ItemRow.toRow) =
      .ok bidsList := by
    unfold getReportSummary1
    rw [processSummary1ReportList_reported hfound hrows]
    exact hprices
  rw [hreport]
  exact getReportsTotal_eq hpriced

end Report

/-- An item of one lot that was awarded to the second bidder. -/
def secondBest (id quantity : ℤ) : ReportItem where
  toBidItem := { BidItem.new with bidItemId := some id, isProcessed := some .h2 }
  id := id
  id_eq := rfl
  itemLots := [⟨none, none, none, none, none, some quantity, none, none, none, none, none⟩]

/-- Two items with two bidders each, and a bid on the active item. -/
def threeItems : List ItemRow :=
  [bidRow (secondBest 1 3) "A" 20, bidRow (secondBest 1 3) "B" 10, bidRow (secondBest 2 5) "A" 8,
    bidRow (secondBest 2 5) "B" 7, bidRow (lotlessItem 3) "C" 5]

/-- While the third item is on sale, the second one is missing from the total. -/
theorem finalTotalSalesPrice_threeItems :
    (getReportSummary1 (fun _ => none) 3 (threeItems.map ItemRow.toRow) >>= getReportsTotal) =
        .ok ⟨3, 20, 10, 0, 30⟩ ∧
      (getReportSummary1 (fun _ => none) 4 (threeItems.map ItemRow.toRow) >>= getReportsTotal) =
        .ok ⟨8, 33, 17, 0, 65⟩ := by
  have htotal : ∀ activeId, (getReportSummary1 (fun _ => none) activeId
      (threeItems.map ItemRow.toRow) >>= getReportsTotal) =
        .ok (totalOf (reported activeId threeItems)) :=
    fun _ => finalTotalSalesPrice_eq (by decide +kernel) (by decide +kernel) (by decide +kernel)
  rw [htotal, htotal]
  exact ⟨congrArg Except.ok (by decide +kernel), congrArg Except.ok (by decide +kernel)⟩

end Bidding.Model.Reports
