import Bidding.Collections.GroupSums
import Bidding.Properties.CategoryTotals

/-!
# Do the Totals of the Summary-2 Page Add Up?

The page lists the records of the categories in the order of a hash map and adds them up once
more. The totals of the lots for sale and of the sold lots are those of the items of the queries,
whatever the order is. What the page calls the lots without bids are the unsold lots with bids.

## Key Results

- **`sum_column`**: a column of the page, added up over the categories.
- **`grandTotals_eq`**: the totals of the page, in terms of the items of the queries.
-/

namespace Bidding.Model.Reports.ReportSummary2Dao

open Bidding.Collections ReportController

/-- A list of the values of a map, as `HashMap.values` gives it: every value once, in some
    order. -/
def Values (reportSummary2Map : Summary2Map) (l : List ReportSummary2) : Prop :=
  ∃ keys : List ℤ, keys.Nodup ∧ (∀ k, k ∈ keys ↔ reportSummary2Map k ≠ none) ∧
    l = keys.filterMap reportSummary2Map

/-! ## The loop -/

/-- The loop adds up each column. -/
theorem foldl_addReportSummary2 (l : List ReportSummary2) (total : TotalReportSummary2) :
    l.foldl addReportSummary2 total = {
      grandTotalLotsForSale := total.grandTotalLotsForSale +
        (l.map fun r => r.totalLotsForSale.getD 0).sum
      grandTotalLotsquantityForSale := total.grandTotalLotsquantityForSale +
        (l.map fun r => r.totalLotsquantityForSale.getD 0).sum
      grandTotalActualSoldLots := total.grandTotalActualSoldLots +
        (l.map fun r => r.totalActualSoldLots.getD 0).sum
      grandTotalActualSoldQunatity := total.grandTotalActualSoldQunatity +
        (l.map fun r => r.totalActualSoldQunatity.getD 0).sum
      grandTotalActualSoldAmount := total.grandTotalActualSoldAmount +
        (l.map fun r => r.totalActualSoldAmount.getD 0).sum
      avergeTotalAmount := total.avergeTotalAmount + (l.map fun r => r.avergeAmount.getD 0).sum
      grandTUnsoldUnBiddedLots := total.grandTUnsoldUnBiddedLots +
        (l.map fun r => r.totalUnsoldBiddedLots.getD 0).sum
      grandTotalUnsoldUnBiddedQuantity := total.grandTotalUnsoldUnBiddedQuantity +
        (l.map fun r => r.totalUnsoldBiddedQuantity.getD 0).sum } := by
  induction l generalizing total with
  | nil => simp
  | cons r l ih =>
    rw [List.foldl_cons, ih]
    simp only [addReportSummary2, List.map_cons, List.sum_cons, add_assoc]

/-! ## Sums over the categories -/

section Columns

variable {totalSale actualSold unsoldBidded unsoldUnBidded items : List ReportItem}
  {keys : List ℤ}

/-- The records of the categories. -/
abbrev records (totalSale actualSold unsoldBidded unsoldUnBidded : List ReportItem) :
    Summary2Map :=
  fun k => categoryTotals k (itemsIn k totalSale) (itemsIn k actualSold)
    (itemsIn k unsoldBidded) (itemsIn k unsoldUnBidded)

/-- All items belong to categories of the list. -/
def InKeys (keys : List ℤ) (items : List ReportItem) : Prop :=
  ∀ item ∈ items, ∃ k ∈ keys, item.categoryId = some k

/-- The sum over the categories is that over the items. -/
theorem sum_itemsIn {M : Type} [AddCommMonoid M] (f : ReportItem → M) (hnodup : keys.Nodup)
    (h : InKeys keys items) :
    (keys.map fun k => ((itemsIn k items).map f).sum).sum = (items.map f).sum := by
  -- every item is in one group
  have hkeys : ∀ item ∈ items, item.categoryId ∈ keys.map some := by
    intro item hitem
    obtain ⟨k, hk, hid⟩ := h item hitem
    rw [hid]
    exact List.mem_map_of_mem hk
  have hsum := sum_groups ReportItem.categoryId f
    (hnodup.map (Option.some_injective ℤ)) hkeys
  rwa [List.map_map] at hsum

theorem sum_length_itemsIn (hnodup : keys.Nodup) (h : InKeys keys items) :
    (keys.map fun k => ((itemsIn k items).length : ℤ)).sum = items.length := by
  simpa using sum_itemsIn (fun _ => (1 : ℤ)) hnodup h

/-- The sold items of a category are the items of the category among the sold ones. -/
theorem soldItems_itemsIn (k : ℤ) : soldItems (itemsIn k items) = itemsIn k (soldItems items) := by
  unfold soldItems itemsIn
  rw [List.filter_filter, List.filter_filter]
  apply List.filter_congr
  intro item _
  exact Bool.and_comm _ _

/-- A total of no items counts as zero. -/
theorem getD_ofItems {M : Type} [Zero M] {total : M} (h : items = [] → total = 0) :
    (ofItems items total).getD 0 = total := by
  unfold ofItems
  split
  · rename_i hnil
    exact (h hnil).symm
  · rfl

/-- Every item that counts belongs to a record. -/
structure Covers (keys : List ℤ) (totalSale actualSold unsoldBidded : List ReportItem) :
    Prop where
  nodup : keys.Nodup
  forSale : InKeys keys totalSale
  sold : InKeys keys (soldItems actualSold)
  bidded : InKeys keys unsoldBidded

/-- The categories of the page are those of the items. -/
theorem covers_of_values (hforSale : ∀ item ∈ totalSale, item.Listed)
    (hclosed : ∀ item ∈ actualSold, item.Settled) (hbidded : ∀ item ∈ unsoldBidded, item.Listed)
    (hnodup : keys.Nodup)
    (hkeys : ∀ k, k ∈ keys ↔ records totalSale actualSold unsoldBidded unsoldUnBidded k ≠ none) :
    Covers keys totalSale actualSold unsoldBidded := by
  -- a category with a record is one of the page
  have hmem {k : ℤ} (h : itemsIn k totalSale ≠ [] ∨ soldItems (itemsIn k actualSold) ≠ [] ∨
      itemsIn k unsoldBidded ≠ [] ∨ itemsIn k unsoldUnBidded ≠ []) : k ∈ keys :=
    (hkeys k).mpr (categoryTotals_ne_none_iff.mpr h)
  refine ⟨hnodup, fun item hitem => ?_, fun item hitem => ?_, fun item hitem => ?_⟩
  · obtain ⟨k, hk⟩ := Option.ne_none_iff_exists'.mp (hforSale item hitem).category
    exact ⟨k, hmem (.inl (itemsIn_ne_nil_iff.mpr ⟨item, hitem, hk⟩)), hk⟩
  · obtain ⟨hitem, hsold⟩ := List.mem_filter.mp hitem
    obtain ⟨k, hk⟩ := Option.ne_none_iff_exists'.mp (hclosed item hitem).category
    exact ⟨k, hmem (.inr (.inl (soldItems_itemsIn_ne_nil_iff.mpr
      ⟨item, hitem, hk, of_decide_eq_true hsold⟩))), hk⟩
  · obtain ⟨k, hk⟩ := Option.ne_none_iff_exists'.mp (hbidded item hitem).category
    exact ⟨k, hmem (.inr (.inr (.inl (itemsIn_ne_nil_iff.mpr ⟨item, hitem, hk⟩)))), hk⟩

/-- A column of the page: the value `v` that it has for the items of one category, added up over
    the categories. A category without a record counts as zero. -/
theorem sum_column {M : Type} [AddCommMonoid M] {f : ReportSummary2 → M}
    {v : List ReportItem → List ReportItem → List ReportItem → M} {t : M}
    (hempty : v [] [] [] = 0)
    (hsome : ∀ k r, records totalSale actualSold unsoldBidded unsoldUnBidded k = some r →
      f r = v (itemsIn k totalSale) (soldItems (itemsIn k actualSold)) (itemsIn k unsoldBidded))
    (hsum : (keys.map fun k => v (itemsIn k totalSale) (soldItems (itemsIn k actualSold))
      (itemsIn k unsoldBidded)).sum = t) :
    ((keys.filterMap (records totalSale actualSold unsoldBidded unsoldUnBidded)).map f).sum =
      t := by
  rw [← hsum, sum_map_filterMap]
  apply congrArg List.sum
  apply List.map_congr_left
  intro k _
  cases hrecord : records totalSale actualSold unsoldBidded unsoldUnBidded k with
  | some r => exact hsome k r hrecord
  -- a category without a record has no items
  | none =>
    have hnone := mt categoryTotals_ne_none_iff.mpr (not_not.mpr hrecord)
    simp only [not_or, not_not] at hnone
    obtain ⟨hforSale, hsold, hbidded, -⟩ := hnone
    rw [hforSale, hsold, hbidded, hempty]
    rfl

/-- The fields of a record. -/
theorem eq_of_records {k : ℤ} {r : ReportSummary2}
    (h : records totalSale actualSold unsoldBidded unsoldUnBidded k = some r) :
    r.totalLotsForSale = ofItems (itemsIn k totalSale) ((itemsIn k totalSale).length : ℤ) ∧
    r.totalLotsquantityForSale =
      ofItems (itemsIn k totalSale) (totalQuantity (itemsIn k totalSale)) ∧
    r.totalActualSoldLots = ofItems (soldItems (itemsIn k actualSold))
      ((soldItems (itemsIn k actualSold)).length : ℤ) ∧
    r.totalActualSoldQunatity = ofItems (soldItems (itemsIn k actualSold))
      (totalQuantity (soldItems (itemsIn k actualSold))) ∧
    r.totalActualSoldAmount = ofItems (soldItems (itemsIn k actualSold))
      (totalPrice (soldItems (itemsIn k actualSold))) ∧
    r.avergeAmount = averagePrice (soldItems (itemsIn k actualSold)) ∧
    r.totalUnsoldBiddedLots =
      ofItems (itemsIn k unsoldBidded) ((itemsIn k unsoldBidded).length : ℤ) ∧
    r.totalUnsoldBiddedQuantity =
      ofItems (itemsIn k unsoldBidded) (totalQuantity (itemsIn k unsoldBidded)) := by
  unfold records categoryTotals at h
  split at h
  · cases h
  · obtain rfl := Option.some.inj h
    exact ⟨rfl, rfl, rfl, rfl, rfl, rfl, rfl, rfl⟩

/-- A category without a sale has no average. -/
theorem sum_averages (hnodup : keys.Nodup) (hsold : InKeys keys (soldItems actualSold)) :
    (keys.map fun k => (averagePrice (soldItems (itemsIn k actualSold))).getD 0).sum =
      ∑ k ∈ (actualSold.filterMap ReportItem.categoryId).toFinset,
        (averagePrice (soldItems (itemsIn k actualSold))).getD 0 := by
  rw [← List.sum_toFinset _ hnodup]
  apply Finset.sum_congr_of_eq_on_inter
  · -- a category of the page without closed items
    intro k _ hk
    have hnone : itemsIn k actualSold = [] := by
      by_contra hne
      obtain ⟨item, hitem, hid⟩ := itemsIn_ne_nil_iff.mp hne
      exact hk (List.mem_toFinset.mpr (List.mem_filterMap.mpr ⟨item, hitem, hid⟩))
    rw [hnone]
    rfl
  · -- a category with closed items that is not on the page has sold none of them
    intro k _ hk
    have hnone : soldItems (itemsIn k actualSold) = [] := by
      by_contra hne
      obtain ⟨item, hitem, hid, hitemSold⟩ := soldItems_itemsIn_ne_nil_iff.mp hne
      obtain ⟨k', hk', hid'⟩ := hsold item
        (List.mem_filter.mpr ⟨hitem, decide_eq_true hitemSold⟩)
      obtain rfl := Option.some.inj (hid.symm.trans hid')
      exact hk (List.mem_toFinset.mpr hk')
    rw [hnone]
    rfl
  · exact fun _ _ _ => rfl

/-! ## The page -/

/-- **The totals of the page are those of the items of the queries**, in whatever order the map
    lists the categories. The totals of the lots without bids are those of the unsold lots with
    bids, and the average is the sum of the averages of the categories. -/
theorem grandTotals_eq (hforSale : Rows ReportItem.Listed totalSale)
    (hclosed : Rows ReportItem.Settled actualSold)
    (hbidded : Rows ReportItem.Listed unsoldBidded)
    (hunBidded : Rows ReportItem.Listed unsoldUnBidded) :
    ∃ reportSummary2Map,
      getReportSummary2 totalSale actualSold unsoldBidded unsoldUnBidded =
        .ok reportSummary2Map ∧
      ∀ l, Values reportSummary2Map l → getReportsSummary2Total l = {
        grandTotalLotsForSale := totalSale.length
        grandTotalLotsquantityForSale := totalQuantity totalSale
        grandTotalActualSoldLots := (soldItems actualSold).length
        grandTotalActualSoldQunatity := totalQuantity (soldItems actualSold)
        grandTotalActualSoldAmount := totalPrice (soldItems actualSold)
        avergeTotalAmount := ∑ k ∈ (actualSold.filterMap ReportItem.categoryId).toFinset,
          (averagePrice (soldItems (itemsIn k actualSold))).getD 0
        grandTUnsoldUnBiddedLots := unsoldBidded.length
        grandTotalUnsoldUnBiddedQuantity := totalQuantity unsoldBidded } := by
  refine ⟨_, getReportSummary2_ok hforSale hclosed hbidded hunBidded, ?_⟩
  rintro l ⟨keys, hnodup, hkeys, rfl⟩
  have hcovers := covers_of_values hforSale.readable hclosed.readable hbidded.readable hnodup hkeys
  unfold getReportsSummary2Total
  rw [foldl_addReportSummary2]
  simp only [zero_add]
  -- one goal for each column
  congr 1
  · apply sum_column (v := fun g _ _ => (g.length : ℤ)) rfl _
      (sum_length_itemsIn hnodup hcovers.forSale)
    intro k r hr
    rw [(eq_of_records hr).1, getD_ofItems fun h => by rw [h]; rfl]
  · apply sum_column (v := fun g _ _ => totalQuantity g) rfl _
      (sum_itemsIn _ hnodup hcovers.forSale)
    intro k r hr
    rw [(eq_of_records hr).2.1, getD_ofItems fun h => by rw [h]; rfl]
  · apply sum_column (v := fun _ l _ => (l.length : ℤ)) rfl
    · intro k r hr
      rw [(eq_of_records hr).2.2.1, getD_ofItems fun h => by rw [h]; rfl]
    · simp only [soldItems_itemsIn]
      exact sum_length_itemsIn hnodup hcovers.sold
  · apply sum_column (v := fun _ l _ => totalQuantity l) rfl
    · intro k r hr
      rw [(eq_of_records hr).2.2.2.1, getD_ofItems fun h => by rw [h]; rfl]
    · simp only [soldItems_itemsIn]
      exact sum_itemsIn _ hnodup hcovers.sold
  · apply sum_column (v := fun _ l _ => totalPrice l) rfl
    · intro k r hr
      rw [(eq_of_records hr).2.2.2.2.1, getD_ofItems fun h => by rw [h]; rfl]
    · simp only [soldItems_itemsIn]
      exact sum_itemsIn _ hnodup hcovers.sold
  · -- the averages of the categories are added up, too
    apply sum_column (v := fun _ l _ => (averagePrice l).getD 0) rfl _
      (sum_averages hnodup hcovers.sold)
    intro k r hr
    rw [(eq_of_records hr).2.2.2.2.2.1]
  · -- the source adds up the lots with bids here, and in the next column their quantities
    apply sum_column (v := fun _ _ b => (b.length : ℤ)) rfl _
      (sum_length_itemsIn hnodup hcovers.bidded)
    intro k r hr
    rw [(eq_of_records hr).2.2.2.2.2.2.1, getD_ofItems fun h => by rw [h]; rfl]
  · apply sum_column (v := fun _ _ b => totalQuantity b) rfl _
      (sum_itemsIn _ hnodup hcovers.bidded)
    intro k r hr
    rw [(eq_of_records hr).2.2.2.2.2.2.2, getD_ofItems fun h => by rw [h]; rfl]

end Columns

/-- The totals of three lots, one of them sold for `10`; the lot without bids is not counted. -/
theorem grandTotals_threeLots :
    ∃ reportSummary2Map,
      getReportSummary2 threeLots threeLots [] [categoryItem 3 2 5 none 3] =
        .ok reportSummary2Map ∧
      ∀ l, Values reportSummary2Map l →
        (getReportsSummary2Total l).grandTotalLotsquantityForSale = 11 ∧
          (getReportsSummary2Total l).grandTotalActualSoldAmount = 10 ∧
          (getReportsSummary2Total l).grandTUnsoldUnBiddedLots = 0 := by
  obtain ⟨map, hmap, htotals⟩ :=
    grandTotals_eq rows_threeLots.1 rows_threeLots.2 rows_nil rows_unbidded
  refine ⟨map, hmap, fun l hl => ?_⟩
  rw [htotals l hl]
  exact ⟨by decide, by decide +kernel, rfl⟩

end Bidding.Model.Reports.ReportSummary2Dao
