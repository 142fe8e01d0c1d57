import Bidding.Collections.ControlBreak
import Bidding.Model.Reports

/-!
# What the Reports Read of an Item

The quantity, the category and the price of an item, in terms of the item itself, and what the
passes of the reports read of it. A result about a report is stated with the former, and proved
with the latter.

## Key Results

- **`ReportItem.Measured.getTotalQuantity`**: the quantity is the sum over the lots.
- **`mapM_lotRow`**, **`mapM_saleRow`**: what the passes of the Summary-2 report read.
-/

namespace Bidding.Model.Reports

open Bidding.Collections

/-- A list that is read row by row without an exception. -/
theorem mapM_eq_ok {α β ε : Type} {f : α → Except ε β} {g : α → β} {l : List α}
    (h : ∀ a ∈ l, f a = .ok (g a)) : l.mapM f = .ok (l.map g) := by
  induction l with
  | nil => rfl
  | cons a l ih =>
    rw [List.mapM_cons, h a List.mem_cons_self, ih fun b hb => h b (List.mem_cons_of_mem a hb)]
    rfl

namespace ReportItem

/-! ## Quantities -/

/-- The quantity of an item all of whose lots have one. -/
def quantity (item : ReportItem) : ℤ := (item.itemLots.filterMap ItemLot.quantity).sum

/-- All lots of the item have a quantity. -/
def Measured (item : ReportItem) : Prop := ∀ lot ∈ item.itemLots, lot.quantity ≠ none

instance (item : ReportItem) : Decidable item.Measured :=
  inferInstanceAs (Decidable (∀ _ ∈ _, _))

/-- The loop over the lots adds up their quantities. -/
theorem Measured.getTotalQuantity {item : ReportItem} (h : item.Measured) :
    item.getTotalQuantity = .ok item.quantity := by
  unfold Measured at h
  unfold ReportItem.getTotalQuantity quantity
  rw [← zero_add (List.sum _)]
  -- the running total is arbitrary
  generalize (0 : ℤ) = total
  generalize item.itemLots = lots at h
  induction lots generalizing total with
  | nil => simp [pure, Except.pure]
  | cons lot lots ih =>
    obtain ⟨quantity, hquantity⟩ := Option.ne_none_iff_exists'.mp (h lot List.mem_cons_self)
    rw [List.foldlM_cons, hquantity]
    refine (ih _ (fun l hl => h l (List.mem_cons_of_mem lot hl))).trans ?_
    rw [List.filterMap_cons_some hquantity, List.sum_cons, add_assoc]

/-! ## Categories and sales -/

/-- The id of the category. -/
def categoryId (item : ReportItem) : Option ℤ := item.category.bind Category.categoryId

/-- The name of the category. -/
def categoryName (item : ReportItem) : Option String := item.category.bind Category.categoryName

/-- The observer has awarded the item to one of the three best bidders. -/
def Sold (item : ReportItem) : Prop :=
  item.isProcessed = some .h1 ∨ item.isProcessed = some .h2 ∨ item.isProcessed = some .h3

instance (item : ReportItem) : Decidable item.Sold := inferInstanceAs (Decidable (_ ∨ _ ∨ _))

/-- The item can be counted: it has a category, and its lots have quantities. -/
structure Listed (item : ReportItem) : Prop where
  category : item.categoryId ≠ none
  measured : item.Measured

/-- The item can be counted among the closed ones: it has a category, and if it is sold also
    quantities and a price. -/
structure Settled (item : ReportItem) : Prop where
  category : item.categoryId ≠ none
  measured : item.Sold → item.Measured
  price : item.Sold → item.currentMarketPrice ≠ none

instance (item : ReportItem) : Decidable item.Listed :=
  decidable_of_iff (item.categoryId ≠ none ∧ item.Measured)
    ⟨fun h => ⟨h.1, h.2⟩, fun h => ⟨h.category, h.measured⟩⟩

instance (item : ReportItem) : Decidable item.Settled :=
  decidable_of_iff (item.categoryId ≠ none ∧ (item.Sold → item.Measured) ∧
      (item.Sold → item.currentMarketPrice ≠ none))
    ⟨fun h => ⟨h.1, h.2.1, h.2.2⟩, fun h => ⟨h.category, h.measured, h.price⟩⟩

/-- The price of a sold item. -/
def price (item : ReportItem) : ℚ := item.currentMarketPrice.getD 0

/-! ## The readers -/

/-- What a pass over all lots reads. -/
def lot (item : ReportItem) : LotRow :=
  ⟨item.categoryId.getD 0, item.categoryName, item.quantity⟩

/-- What the pass over the closed lots reads. -/
def sale (item : ReportItem) : SaleRow :=
  ⟨item.categoryId.getD 0, if item.Sold then some (item.quantity, item.price) else none⟩

/-- The category that a pass reads. -/
theorem categoryOf_eq {item : ReportItem} (h : item.categoryId ≠ none) :
    categoryOf item = .ok (item.categoryId.getD 0, item.categoryName) := by
  obtain ⟨k, hk⟩ := Option.ne_none_iff_exists'.mp h
  obtain ⟨category, hcategory, hid⟩ := Option.bind_eq_some_iff.mp hk
  unfold categoryOf
  rw [hcategory]
  simp [categoryId, categoryName, hcategory, hid]

theorem Listed.lotRow {item : ReportItem} (h : item.Listed) : lotRow item = .ok item.lot := by
  unfold Reports.lotRow
  rw [categoryOf_eq h.category]
  show (item.getTotalQuantity >>= _) = _
  rw [h.measured.getTotalQuantity]
  rfl

theorem isSold_iff (item : ReportItem) : isSold item.isProcessed = true ↔ item.Sold := by
  unfold isSold Sold
  simp [or_assoc]

/-- A closed item is read, its quantity and price only if it is sold. -/
theorem Settled.saleRow {item : ReportItem} (h : item.Settled) :
    saleRow item = .ok item.sale := by
  unfold Reports.saleRow sale
  rw [categoryOf_eq h.category]
  by_cases hsold : item.Sold
  · obtain ⟨price, hprice⟩ := Option.ne_none_iff_exists'.mp (h.price hsold)
    simp [bind, Except.bind, (isSold_iff item).mpr hsold, hsold,
      (h.measured hsold).getTotalQuantity, hprice, ReportItem.price]
  · -- an item that is not sold is read without its quantity
    have hnot : isSold item.isProcessed = false := by
      rw [← Bool.not_eq_true, isSold_iff]
      exact hsold
    simp [bind, Except.bind, hnot, hsold]

end ReportItem

section Readers

variable {items : List ReportItem}

theorem mapM_lotRow (h : ∀ item ∈ items, item.Listed) :
    items.mapM lotRow = .ok (items.map ReportItem.lot) :=
  mapM_eq_ok fun item hitem => (h item hitem).lotRow

theorem mapM_saleRow (h : ∀ item ∈ items, item.Settled) :
    items.mapM saleRow = .ok (items.map ReportItem.sale) :=
  mapM_eq_ok fun item hitem => (h item hitem).saleRow

theorem getD_categoryId_eq_iff {item : ReportItem} (h : item.categoryId ≠ none) {k : ℤ} :
    item.categoryId.getD 0 = k ↔ item.categoryId = some k := by
  obtain ⟨k', hk'⟩ := Option.ne_none_iff_exists'.mp h
  rw [hk']
  simp

/-- The rows of the items of a category stand together as the items do. -/
theorem contiguous_read {α : Type} {row : ReportItem → α} {key : α → ℤ}
    (hkey : ∀ item, key (row item) = item.categoryId.getD 0)
    (h : ∀ item ∈ items, item.categoryId ≠ none)
    (hitems : Contiguous ReportItem.categoryId items) : Contiguous key (items.map row) := by
  apply contiguous_map.mpr
  apply hitems.congr
  intro item hitem item' hitem'
  obtain ⟨k, hk⟩ := Option.ne_none_iff_exists'.mp (h item' hitem')
  rw [hkey, hkey, hk, Option.getD_some, getD_categoryId_eq_iff (h item hitem)]

end Readers

end Bidding.Model.Reports
