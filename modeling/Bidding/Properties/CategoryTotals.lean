import Bidding.Properties.Summary2

/-!
# Totals of the Items of a Category

The record of a category in the Summary-2 report, in terms of the items of the four lists: how
many there are, their quantities, and the prices of the sold ones.

## Key Results

- **`getReportSummary2_eq`**: the four passes give every category the totals of its items.
-/

namespace Bidding.Model.Reports.ReportSummary2Dao

open Bidding.Collections

/-! ## The totals of the items -/

/-- The items of a category. -/
def itemsIn (k : ℤ) (items : List ReportItem) : List ReportItem :=
  items.filter (fun item => item.categoryId = some k)

/-- The sold ones of some items. -/
def soldItems (items : List ReportItem) : List ReportItem :=
  items.filter (fun item => item.Sold)

/-- The quantity of some items. -/
def totalQuantity (items : List ReportItem) : ℤ := (items.map ReportItem.quantity).sum

/-- The price of some items. -/
def totalPrice (items : List ReportItem) : ℚ := (items.map ReportItem.price).sum

/-- The price for one unit of some items, unset if the price or the quantity is zero. -/
def averagePrice (items : List ReportItem) : Option ℚ :=
  if totalPrice items ≠ 0 ∧ totalQuantity items ≠ 0 then
    some (totalPrice items / totalQuantity items) else none

/-- A total of some items, unset if there are none. -/
def ofItems {α : Type} (items : List ReportItem) (total : α) : Option α :=
  if items = [] then none else some total

/-- The record of a category `k` whose items in the four lists are `forSale`, `closed`, `bidded`
    and `unBidded`: there is one if there is an item in the first, third or fourth list or a sold
    one in the second. -/
def categoryTotals (k : ℤ) (forSale closed bidded unBidded : List ReportItem) :
    Option ReportSummary2 :=
  if forSale = [] ∧ soldItems closed = [] ∧ bidded = [] ∧ unBidded = [] then none
  else some {
    categoryId := some k
    categoryName :=
      ((unBidded.getLast?.or bidded.getLast?).or forSale.head?).bind ReportItem.categoryName
    totalLotsForSale := ofItems forSale forSale.length
    totalLotsquantityForSale := ofItems forSale (totalQuantity forSale)
    totalActualSoldLots := ofItems (soldItems closed) (soldItems closed).length
    totalActualSoldQunatity := ofItems (soldItems closed) (totalQuantity (soldItems closed))
    totalActualSoldAmount := ofItems (soldItems closed) (totalPrice (soldItems closed))
    avergeAmount := averagePrice (soldItems closed)
    totalUnsoldBiddedLots := ofItems bidded bidded.length
    totalUnsoldBiddedQuantity := ofItems bidded (totalQuantity bidded)
    totalUnsoldUnBiddedLots := ofItems unBidded unBidded.length
    totalUnsoldUnBiddedQuantity := ofItems unBidded (totalQuantity unBidded) }

section Items

variable {k : ℤ} {items forSale closed bidded unBidded : List ReportItem}

theorem quantities_map_lot : quantities (items.map ReportItem.lot) = totalQuantity items := by
  unfold quantities totalQuantity
  rw [List.map_map]
  rfl

/-- The sales that are read are those of the sold items. -/
theorem sales_map_sale : sales (items.map ReportItem.sale) =
    (soldItems items).map (fun item => (item.quantity, item.price)) := by
  unfold sales soldItems
  induction items with
  | nil => rfl
  | cons item items ih =>
    -- an item that is not sold is no sale
    by_cases hsold : item.Sold <;> simp [ReportItem.sale, hsold, ih]

theorem soldQuantity_sales :
    soldQuantity (sales (items.map ReportItem.sale)) = totalQuantity (soldItems items) := by
  rw [sales_map_sale, soldQuantity, List.map_map]
  rfl

theorem soldAmount_sales :
    soldAmount (sales (items.map ReportItem.sale)) = totalPrice (soldItems items) := by
  rw [sales_map_sale, soldAmount, List.map_map]
  rfl

theorem averageOf_sales :
    averageOf (sales (items.map ReportItem.sale)) = averagePrice (soldItems items) := by
  rw [averageOf, soldQuantity_sales, soldAmount_sales]
  rfl

/-- The lots of a category are read from its items. -/
theorem lotsIn_map_lot (h : ∀ item ∈ items, item.Listed) :
    lotsIn k (items.map ReportItem.lot) = (itemsIn k items).map ReportItem.lot := by
  unfold lotsIn itemsIn
  rw [List.filter_map]
  apply congrArg
  apply List.filter_congr
  intro item hitem
  exact decide_eq_decide.mpr (getD_categoryId_eq_iff (h item hitem).category)

/-- The closed lots of a category are read from its items. -/
theorem closedIn_map_sale (h : ∀ item ∈ items, item.Settled) :
    closedIn k (items.map ReportItem.sale) = (itemsIn k items).map ReportItem.sale := by
  unfold closedIn itemsIn
  rw [List.filter_map]
  apply congrArg
  apply List.filter_congr
  intro item hitem
  exact decide_eq_decide.mpr (getD_categoryId_eq_iff (h item hitem).category)

/-- The totals of what is read are those of the items. -/
theorem totalsOf_map : totalsOf k (forSale.map ReportItem.lot) (closed.map ReportItem.sale)
      (bidded.map ReportItem.lot) (unBidded.map ReportItem.lot) =
    categoryTotals k forSale closed bidded unBidded := by
  have hsales : sales (closed.map ReportItem.sale) = [] ↔ soldItems closed = [] := by
    rw [sales_map_sale, List.map_eq_nil_iff]
  have hlength : (sales (closed.map ReportItem.sale)).length = (soldItems closed).length := by
    rw [sales_map_sale, List.length_map]
  -- the name is the one that was written last, or the first one of the lots for sale
  have hname : (((unBidded.map ReportItem.lot).getLast?.or (bidded.map ReportItem.lot).getLast?).or
        (forSale.map ReportItem.lot).head?).bind LotRow.categoryName =
      ((unBidded.getLast?.or bidded.getLast?).or forSale.head?).bind ReportItem.categoryName := by
    rw [List.getLast?_map, List.getLast?_map, List.head?_map]
    cases unBidded.getLast? <;> cases bidded.getLast? <;> cases forSale.head? <;> rfl
  unfold totalsOf categoryTotals
  rw [hname]
  simp only [hsales, hlength, soldQuantity_sales, soldAmount_sales, averageOf_sales, lotsOf,
    quantityOf, quantities_map_lot, List.map_eq_nil_iff, List.length_map, ofItems]

theorem itemsIn_ne_nil_iff : itemsIn k items ≠ [] ↔ ∃ item ∈ items, item.categoryId = some k := by
  rw [itemsIn, ne_eq, List.filter_eq_nil_iff]
  simp

theorem soldItems_itemsIn_ne_nil_iff :
    soldItems (itemsIn k items) ≠ [] ↔
      ∃ item ∈ items, item.categoryId = some k ∧ item.Sold := by
  rw [soldItems, itemsIn, ne_eq, List.filter_eq_nil_iff]
  simp

/-- A record is made for a category with a lot or a sale. -/
theorem categoryTotals_ne_none_iff :
    categoryTotals k forSale closed bidded unBidded ≠ none ↔
      forSale ≠ [] ∨ soldItems closed ≠ [] ∨ bidded ≠ [] ∨ unBidded ≠ [] := by
  unfold categoryTotals
  split
  · rename_i hnone
    simp [hnone]
  · rename_i hsome
    apply iff_of_true (by simp)
    by_contra hcontra
    apply hsome
    simpa only [not_or, not_not] using hcontra

end Items

/-- Some items that a pass can count: each can be read, and those of a category stand together. -/
structure Rows (Readable : ReportItem → Prop) (items : List ReportItem) : Prop where
  readable : ∀ item ∈ items, Readable item
  contiguous : Contiguous ReportItem.categoryId items

section Page

variable {totalSale actualSold unsoldBidded unsoldUnBidded : List ReportItem}

/-- The map of the records, in terms of the items. -/
theorem getReportSummary2_ok (hforSale : Rows ReportItem.Listed totalSale)
    (hclosed : Rows ReportItem.Settled actualSold)
    (hbidded : Rows ReportItem.Listed unsoldBidded)
    (hunBidded : Rows ReportItem.Listed unsoldUnBidded) :
    getReportSummary2 totalSale actualSold unsoldBidded unsoldUnBidded =
      .ok (fun k => categoryTotals k (itemsIn k totalSale) (itemsIn k actualSold)
        (itemsIn k unsoldBidded) (itemsIn k unsoldUnBidded)) := by
  -- the ids that are read are contiguous if those of the items are
  have hlots : ∀ {items : List ReportItem}, Rows ReportItem.Listed items →
      Contiguous LotRow.categoryId (items.map ReportItem.lot) := fun h =>
    contiguous_read (fun _ => rfl) (fun item hitem => (h.readable item hitem).category) h.contiguous
  have hsales : Contiguous SaleRow.categoryId (actualSold.map ReportItem.sale) :=
    contiguous_read (fun _ => rfl) (fun item hitem => (hclosed.readable item hitem).category)
      hclosed.contiguous
  rw [getReportSummary2_read (mapM_lotRow hforSale.readable) (mapM_saleRow hclosed.readable)
    (mapM_lotRow hbidded.readable) (mapM_lotRow hunBidded.readable) (hlots hforSale) hsales
    (hlots hbidded) (hlots hunBidded)]
  apply congrArg Except.ok
  funext k
  rw [lotsIn_map_lot hforSale.readable, closedIn_map_sale hclosed.readable,
    lotsIn_map_lot hbidded.readable, lotsIn_map_lot hunBidded.readable, totalsOf_map]

/-- The four passes give each category the totals of its items, and there is a record for exactly
    the categories of the first, third and fourth list and those with a sold item. -/
theorem getReportSummary2_eq (hforSale : Rows ReportItem.Listed totalSale)
    (hclosed : Rows ReportItem.Settled actualSold)
    (hbidded : Rows ReportItem.Listed unsoldBidded)
    (hunBidded : Rows ReportItem.Listed unsoldUnBidded) :
    ∃ reportSummary2Map,
      getReportSummary2 totalSale actualSold unsoldBidded unsoldUnBidded =
        .ok reportSummary2Map ∧
      (∀ k, reportSummary2Map k = categoryTotals k (itemsIn k totalSale) (itemsIn k actualSold)
        (itemsIn k unsoldBidded) (itemsIn k unsoldUnBidded)) ∧
      ∀ k, reportSummary2Map k ≠ none ↔ (∃ item ∈ totalSale, item.categoryId = some k) ∨
        (∃ item ∈ actualSold, item.categoryId = some k ∧ item.Sold) ∨
        (∃ item ∈ unsoldBidded, item.categoryId = some k) ∨
        ∃ item ∈ unsoldUnBidded, item.categoryId = some k := by
  refine ⟨_, getReportSummary2_ok hforSale hclosed hbidded hunBidded, fun _ => rfl, fun k => ?_⟩
  rw [categoryTotals_ne_none_iff, itemsIn_ne_nil_iff, itemsIn_ne_nil_iff, itemsIn_ne_nil_iff,
    soldItems_itemsIn_ne_nil_iff]

end Page

/-- An item of a category with one lot of a quantity. -/
def categoryItem (id categoryId quantity : ℤ) (isProcessed : Option BidStatus)
    (currentMarketPrice : ℚ) : ReportItem where
  toBidItem := { BidItem.new with
    bidItemId := some id
    category := some ⟨some categoryId, some "Steel"⟩
    isProcessed := isProcessed
    currentMarketPrice := some currentMarketPrice }
  id := id
  id_eq := rfl
  itemLots := [{
    lotId := some id
    bidItemId := some id
    name := none
    lengthRange := none
    actualLengh := none
    quantity := some quantity
    unit := none
    currency := none
    remark := none
    zone := none
    lotNo := none }]

/-- Two lots of one category, of which one is sold, and an unsold one of another category. -/
def threeLots : List ReportItem :=
  [categoryItem 1 1 4 (some .h1) 10, categoryItem 2 1 2 (some .hold) 7, categoryItem 3 2 5 none 3]

theorem rows_threeLots : Rows ReportItem.Listed threeLots ∧ Rows ReportItem.Settled threeLots :=
  ⟨⟨by decide +kernel, by decide +kernel⟩, ⟨by decide +kernel, by decide +kernel⟩⟩

theorem rows_unbidded : Rows ReportItem.Listed [categoryItem 3 2 5 none 3] :=
  ⟨by decide +kernel, by decide +kernel⟩

theorem rows_nil : Rows ReportItem.Listed [] := ⟨by decide, by decide⟩

/-- In the first category one lot of quantity `4` is sold for `10`. -/
theorem getReportSummary2_threeLots :
    ∃ reportSummary2Map,
      getReportSummary2 threeLots threeLots [] [categoryItem 3 2 5 none 3] =
        .ok reportSummary2Map ∧
      reportSummary2Map 1 = some { ReportSummary2.new with
        categoryId := some 1
        categoryName := some "Steel"
        totalLotsForSale := some 2
        totalLotsquantityForSale := some 6
        totalActualSoldLots := some 1
        totalActualSoldQunatity := some 4
        totalActualSoldAmount := some 10
        avergeAmount := some (10 / 4) } := by
  obtain ⟨map, hmap, htotals, -⟩ :=
    getReportSummary2_eq rows_threeLots.1 rows_threeLots.2 rows_nil rows_unbidded
  use map, hmap
  rw [htotals]
  decide +kernel

end Bidding.Model.Reports.ReportSummary2Dao
