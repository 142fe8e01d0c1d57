import Bidding.Collections.Grid
import Bidding.Model.WonList

/-!
# The Table of the Won Bids

The table is meant to show the sheet, cell by cell. The writer makes nine cells for each item, but
those of a missing text are blank, and the reader has no case for a blank cell: nothing is added
for it, and all later cells move forward by one place.

## Key Results

- **`rowOf_itemRow`**: the row of an item, one lemma for all that the proofs use of it.
- **`exportWonList_reproduces_iff`**: the table shows the sheet exactly if no text is missing.
- **`missing_remark_moves_cells`**: an item without a remark.
-/

namespace Bidding.Model.WonList

open Bidding.Collections Reports WriteExcelFile ExcelToPdf
open FileUpload (Cell)

/-! ## The values of the sheet -/

/-- What a cell of the sheet shows: a text or a number, and nothing where it is blank. -/
def valueOf : Cell → Option Text
  | .text s => some (.str s)
  | .number q => some (.double q)
  | _ => none

/-- The table has a place for each cell with a value, and no other. -/
theorem tableCell_eq : tableCell = valueOf := by
  funext cell
  cases cell <;> rfl

/-! ## The row of an item -/

/-- An item that can be exported: it has a category, and a first lot with an id. -/
structure Exportable (item : ReportItem) : Prop where
  category : ∃ category, item.category = some category
  lot : ∃ itemLot rest lotId, item.itemLots = itemLot :: rest ∧ itemLot.lotId = some lotId

/-- The texts of an item that the writer takes as they are. -/
def texts (item : ReportItem) : List (Option String) :=
  let itemLot := item.itemLots.head?
  [item.category.bind Category.categoryName, itemLot.bind ItemLot.name,
    itemLot.bind ItemLot.remark, itemLot.bind ItemLot.lengthRange,
    itemLot.bind ItemLot.actualLengh]

/-- What the row of an item is like: as many cells as the table has columns, a text in the last
    one, and a blank cell for each text that is missing. -/
structure RowOf (item : ReportItem) (row : List Cell) : Prop where
  length : row.length = columns
  last : ∀ cell, row.getLast? = some cell → (valueOf cell).isSome
  shown : (∀ cell ∈ row, (valueOf cell).isSome) ↔ none ∉ texts item

theorem isSome_setCellValue (text : Option String) :
    (valueOf (setCellValue text)).isSome ↔ text ≠ none := by
  cases text <;> simp [setCellValue, valueOf]

/-- The cells of an item with a category and a lot. -/
theorem itemRow_eq {item : ReportItem} {category : Category} {itemLot : ItemLot}
    {rest : List ItemLot} {lotId : ℤ} (hcategory : item.category = some category)
    (hlots : item.itemLots = itemLot :: rest) (hid : itemLot.lotId = some lotId) (serNo : ℕ) :
    itemRow serNo item = .ok [.number serNo, .text "Desc", .number lotId,
      setCellValue category.categoryName, setCellValue itemLot.name, setCellValue itemLot.remark,
      setCellValue itemLot.lengthRange, setCellValue itemLot.actualLengh,
      .text (quantityText itemLot)] := by
  have hfirst : firstLot item = .ok itemLot := by
    unfold firstLot
    rw [hlots]
  have hcell : lotIdCell itemLot = .ok (.number lotId) := by
    unfold lotIdCell
    rw [hid]
  have hname : categoryNameOf item = .ok category.categoryName := by
    unfold categoryNameOf
    rw [hcategory]
  simp [itemRow, hfirst, hcell, hname, bind, Except.bind]

/-- Every exportable item has a row. -/
theorem rowOf_itemRow {item : ReportItem} (h : Exportable item) (serNo : ℕ) :
    ∃ row, itemRow serNo item = .ok row ∧ RowOf item row := by
  obtain ⟨category, hcategory⟩ := h.category
  obtain ⟨itemLot, rest, lotId, hlots, hid⟩ := h.lot
  apply Exists.intro _
  apply And.intro (itemRow_eq hcategory hlots hid serNo)
  -- the other cells are numbers, or texts that are never null
  have htexts : none ∉ texts item ↔ ∀ text ∈ texts item, text ≠ none :=
    ⟨fun hnone text htext heq => hnone (heq ▸ htext), fun hall hnone => hall none hnone rfl⟩
  constructor
  · rfl
  · intro cell hlast
    cases hlast
    rfl
  · rw [htexts]
    simp only [texts, hcategory, hlots, List.head?_cons, Option.bind_some, List.forall_mem_cons,
      isSome_setCellValue]
    simp [valueOf]

/-- The rows of the items, by the loop. -/
theorem forall₂_itemRows {wonlist : List ReportItem} (h : ∀ item ∈ wonlist, Exportable item)
    (serNo : ℕ) : ∃ rows, itemRows serNo wonlist = .ok rows ∧ List.Forall₂ RowOf wonlist rows := by
  induction wonlist generalizing serNo with
  | nil => exact ⟨[], rfl, .nil⟩
  | cons item wonlist ih =>
    obtain ⟨row, hrow, hrowOf⟩ := rowOf_itemRow (h item List.mem_cons_self) serNo
    obtain ⟨rows, hrows, hall⟩ :=
      ih (fun item hitem => h item (List.mem_cons_of_mem _ hitem)) (serNo + 1)
    apply Exists.intro (row :: rows)
    apply And.intro _ (.cons hrowOf hall)
    simp only [itemRows, hrow, hrows]
    rfl

/-- Every row is the row of an item. -/
theorem exists_rowOf {wonlist : List ReportItem} {rows : List (List Cell)}
    (h : List.Forall₂ RowOf wonlist rows) {row : List Cell} (hrow : row ∈ rows) :
    ∃ item, RowOf item row := by
  induction h with
  | nil => cases hrow
  | cons hrowOf _ ih =>
    cases hrow with
    | head => exact ⟨_, hrowOf⟩
    | tail _ hrow => exact ih hrow

/-- All cells of the rows are shown if no text of an item is missing. -/
theorem shown_rows_iff {wonlist : List ReportItem} {rows : List (List Cell)}
    (h : List.Forall₂ RowOf wonlist rows) :
    (∀ row ∈ rows, ∀ cell ∈ row, (valueOf cell).isSome) ↔
      ∀ item ∈ wonlist, none ∉ texts item := by
  induction h with
  | nil => simp
  | cons hrowOf _ ih => rw [List.forall_mem_cons, List.forall_mem_cons, hrowOf.shown, ih]

/-! ## The sheet and the table -/

/-- The first row, with the headers. -/
theorem header_cells :
    (headers.map Cell.text).length = columns ∧
      ∀ cell ∈ headers.map Cell.text, (valueOf cell).isSome := by
  apply And.intro rfl
  intro cell hcell
  obtain ⟨s, -, rfl⟩ := List.mem_map.mp hcell
  rfl

/-- The sheet and the table that is made from it. -/
theorem exportWonList_eq {wonList : List ReportItem} {rows : List (List Cell)}
    (h : itemRows 1 wonList = .ok rows) :
    exportWonList wonList = .ok (⟨.hssf, "wonlist", headers.map Cell.text :: rows⟩,
      ⟨"******* WON BIDS *******",
        (headers.map Cell.text :: rows).flatten.filterMap valueOf⟩) := by
  have hformat : formatOf "excel.xls" = .ok .hssf := by decide
  unfold exportWonList writeWonListToExcelFile
  rw [hformat, h, List.filterMap_flatten, ← tableCell_eq]
  rfl

/-- The table of every won list is made, and it shows the sheet, place by place, exactly if no
    text of an item is missing. -/
theorem exportWonList_reproduces_iff {wonList : List ReportItem}
    (h : ∀ item ∈ wonList, Exportable item) :
    ∃ workbook table, exportWonList wonList = .ok (workbook, table) ∧
      (Reproduces valueOf (.str "") columns workbook.sheet table.cells ↔
        ∀ item ∈ wonList, none ∉ texts item) := by
  obtain ⟨rows, hrows, hall⟩ := forall₂_itemRows h 1
  obtain ⟨hwidth, hheader⟩ := header_cells
  have hlength : ∀ row ∈ headers.map Cell.text :: rows, row.length = columns := by
    rw [List.forall_mem_cons]
    apply And.intro hwidth
    intro row hrow
    obtain ⟨item, hrowOf⟩ := exists_rowOf hall hrow
    exact hrowOf.length
  -- the quantity in the last column is always shown, so a gap moves a cell that is there
  have hlast : ∀ row ∈ headers.map Cell.text :: rows, ∀ cell, row.getLast? = some cell →
      (valueOf cell).isSome := by
    rw [List.forall_mem_cons]
    apply And.intro (fun cell hcell => hheader cell (List.mem_of_getLast? hcell))
    intro row hrow
    obtain ⟨item, hrowOf⟩ := exists_rowOf hall hrow
    exact hrowOf.last
  apply Exists.intro _
  apply Exists.intro _
  apply And.intro (exportWonList_eq hrows)
  show Reproduces valueOf (.str "") columns _ _ ↔ _
  rw [reproduces_filterMap_iff (.str "") (by decide) hlength hlast, List.forall_mem_cons,
    shown_rows_iff hall]
  exact and_iff_right hheader

/-- A lot with a given remark. -/
def wonLot (remark : Option String) : ItemLot where
  lotId := some 7
  bidItemId := some 3
  name := some "Coil"
  lengthRange := some "2-4"
  actualLengh := some "3"
  quantity := some 4
  unit := some "MT"
  currency := none
  remark := remark
  zone := none
  lotNo := none

/-- An item whose lot has a given remark. -/
def wonItem (remark : Option String) : ReportItem where
  toBidItem := { BidItem.new with
    bidItemId := some 3
    category := some ⟨some 2, some "Steel"⟩ }
  id := 3
  id_eq := rfl
  itemLots := [wonLot remark]

theorem exportable_wonItem (remark : Option String) :
    ∀ item ∈ [wonItem remark], Exportable item := by
  intro item hitem
  rw [List.mem_singleton.mp hitem]
  exact ⟨⟨_, rfl⟩, wonLot remark, [], 7, rfl, rfl⟩

/-- With a remark, the table shows the sheet. -/
theorem complete_item_reproduced :
    ∃ workbook table, exportWonList [wonItem (some "good")] = .ok (workbook, table) ∧
      Reproduces valueOf (.str "") columns workbook.sheet table.cells ∧
      cellAt workbook.sheet 1 2 = some (.number 7) ∧
      table.cells.drop columns = [.double 1, .str "Desc", .double 7, .str "Steel", .str "Coil",
        .str "good", .str "2-4", .str "3", .str "4MT"] := by
  obtain ⟨workbook, table, hexport, hiff⟩ :=
    exportWonList_reproduces_iff (exportable_wonItem (some "good"))
  have hwritten := exportWonList_eq (show itemRows 1 [wonItem (some "good")] = .ok _ from rfl)
  cases hexport.symm.trans hwritten
  exact ⟨_, _, hexport, hiff.mpr (by decide), rfl, by decide⟩

/-- Without a remark, the length range stands in the column of the remark, and the place of the
    quantity is empty. -/
theorem missing_remark_moves_cells :
    ∃ workbook table, exportWonList [wonItem none] = .ok (workbook, table) ∧
      cellAt workbook.sheet 1 5 = some .blank ∧
      table.cells[columns * 1 + 5]? = some (.str "2-4") ∧
      cellAt workbook.sheet 1 8 = some (.text (quantityText (wonLot none))) ∧
      table.cells[columns * 1 + 8]? = none ∧
      ¬ Reproduces valueOf (.str "") columns workbook.sheet table.cells := by
  apply Exists.intro _
  apply Exists.intro _
  apply And.intro (exportWonList_eq rfl)
  apply And.intro rfl
  apply And.intro rfl
  apply And.intro rfl
  apply And.intro rfl
  -- the sheet has the quantity in the last place, and the table has nothing there
  intro hshows
  have hlast := hshows 1 8 (.text (quantityText (wonLot none))) (by decide) rfl
  cases hlast

end Bidding.Model.WonList
