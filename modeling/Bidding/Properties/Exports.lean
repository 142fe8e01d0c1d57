import Bidding.Collections.Grid
import Bidding.Semantics.ExportRows

/-!
# Values below Their Headers

An item without lots has three cells less than there are columns before its zone, so that its
quantity stands below the header of the remark. In the table of the PDF the cells of a lot begin
in the first column, and what follows is shifted.

## Key Results

- **`Excel.addBids_eq`**, **`Pdf.addBids_eq`**: the cells that the loops of the two views write.
- **`Excel.reads_sheetRows_iff`**, **`Pdf.reads_tableCells_iff`**: when their rows are right.
- **`underHeaders_iff`**: when the two exports keep all values below their headers.
-/

namespace Bidding.Model.Reports

open Bidding.Collections

/-! ## What the views need of their list -/

/-- A bid that can be written: its item has a category with a name, and its lots have quantities
    and remarks. -/
structure Exportable (bids : Bids) : Prop where
  category : bids.bidItem.categoryName ≠ none
  quantity : bids.bidItem.Measured
  remark : ∀ itemLot ∈ bids.bidItem.itemLots, itemLot.remark ≠ none

instance (bids : Bids) : Decidable (Exportable bids) :=
  decidable_of_iff (bids.bidItem.categoryName ≠ none ∧ bids.bidItem.Measured ∧
      ∀ itemLot ∈ bids.bidItem.itemLots, itemLot.remark ≠ none)
    ⟨fun h => ⟨h.1, h.2.1, h.2.2⟩, fun h => ⟨h.category, h.quantity, h.remark⟩⟩

/-- The name of the category can be read. -/
theorem Exportable.categoryNameOf_eq {bids : Bids} (h : Exportable bids) :
    categoryNameOf bids.bidItem = .ok bids.bidItem.categoryName := by
  have hcategory := h.category
  unfold ReportItem.categoryName at *
  unfold categoryNameOf
  cases hsome : bids.bidItem.category with
  | none =>
    rw [hsome] at hcategory
    exact absurd rfl hcategory
  | some category => rfl

/-- The remark of a single lot is there. -/
theorem Exportable.checkRemark {bids : Bids} (h : Exportable bids) :
    PDfObserverSummary1ReportView.checkRemark bids.bidItem = .ok () := by
  have hremark := h.remark
  unfold PDfObserverSummary1ReportView.checkRemark
  split
  · rename_i itemLot heq
    rw [heq] at hremark
    exact if_neg (hremark itemLot List.mem_cons_self)
  · rfl

theorem mem_of_mem_severalLots {item : ReportItem} {lot : ItemLot}
    (h : lot ∈ severalLots item) : lot ∈ item.itemLots := by
  unfold severalLots at h
  split at h
  · exact h
  · cases h

/-- The rows of an item come first. -/
theorem reportRows_cons (serNo : ℕ) (bids : Bids) (bidsList : List Bids) :
    reportRows serNo (bids :: bidsList) = itemValues serNo bids ::
      ((severalLots bids.bidItem).map (lotValues bids.bidItem) ++
        reportRows (serNo + 1) bidsList) := by
  unfold severalLots
  rw [reportRows, List.cons_append]
  split <;> rfl

/-! ## The sheet -/

namespace Excel

open ExcelObserverSummary1ReportView

/-- Rows one below the other, each with its first column. -/
def placeRows : ℕ → List (ℕ × List String) → List PlacedCell
  | _, [] => []
  | n, row :: rows => addCells row.1 n row.2 ++ placeRows (n + 1) rows

/-- Rows below others start where those end. -/
theorem placeRows_append (n : ℕ) (rows rows' : List (ℕ × List String)) :
    placeRows n (rows ++ rows') = placeRows n rows ++ placeRows (n + rows.length) rows' := by
  induction rows generalizing n with
  | nil => rfl
  | cons row rows ih =>
    rw [List.cons_append, placeRows, placeRows, ih, List.append_assoc, List.length_cons,
      Nat.add_right_comm n 1, Nat.add_assoc n]

/-- The text in a column of a row. -/
def rowText (row : ℕ × List String) (c : ℕ) : String :=
  if row.1 ≤ c then row.2[c - row.1]?.getD "" else ""

/-- The text in a place of rows one below the other. -/
def rowsText (rows : List (ℕ × List String)) (r c : ℕ) : String :=
  (rows[r]?.map (fun row => rowText row c)).getD ""

/-- A cell of a row, by its column. -/
theorem find?_addCells (colNum rowNum row column : ℕ) (cells : List String) :
    (addCells colNum rowNum cells).find? (fun p => p.row = row ∧ p.column = column) =
      if rowNum = row ∧ colNum ≤ column
        then cells[column - colNum]?.map (fun text => ⟨column, row, text⟩) else none := by
  unfold addCells
  rw [List.find?_map]
  by_cases hrow : rowNum = row
  · subst hrow
    have hpred : ((fun p : PlacedCell => decide (p.row = rowNum ∧ p.column = column)) ∘
        fun p : String × ℕ => (⟨p.2, rowNum, p.1⟩ : PlacedCell)) =
        fun p => decide (p.2 = column) := by
      funext p
      simp
    rw [hpred, find?_zipIdx]
    by_cases hcolumn : colNum ≤ column
    · rw [if_pos hcolumn, if_pos ⟨rfl, hcolumn⟩, Option.map_map]
      rfl
    · rw [if_neg hcolumn, if_neg (fun h => hcolumn h.2)]
      rfl
  · -- a cell of another row is not found
    rw [if_neg (fun h => hrow h.1), List.find?_eq_none.mpr]
    · rfl
    · intro p _
      simp [hrow]

/-- There is no cell above the first row. -/
theorem find?_placeRows_of_lt {n row : ℕ} (h : row < n) (column : ℕ)
    (rows : List (ℕ × List String)) :
    (placeRows n rows).find? (fun p => p.row = row ∧ p.column = column) = none := by
  induction rows generalizing n with
  | nil => rfl
  | cons first rows ih =>
    rw [placeRows, List.find?_append, find?_addCells, if_neg (fun hrow => by omega),
      ih (by omega)]
    rfl

/-- The text of a cell is that of its row. -/
theorem textAt_placeRows (n r column : ℕ) (rows : List (ℕ × List String)) :
    textAt (placeRows n rows) (n + r) column = rowsText rows r column := by
  induction rows generalizing n r with
  | nil => simp [placeRows, textAt, rowsText]
  | cons first rows ih =>
    unfold textAt
    rw [placeRows, List.find?_append, find?_addCells]
    cases r with
    -- the first row is found before all others
    | zero =>
      rw [find?_placeRows_of_lt (by omega), Option.or_none]
      show _ = rowText first column
      unfold rowText
      by_cases hcolumn : first.1 ≤ column
      · rw [if_pos ⟨rfl, hcolumn⟩, if_pos hcolumn, Option.map_map]
        exact congrArg (fun text => Option.getD text "") Option.map_id'
      · rw [if_neg (fun h => hcolumn h.2), if_neg hcolumn]
        rfl
    -- its cells are in another row
    | succ r =>
      rw [if_neg (fun hrow => by omega), Option.none_or]
      have hrest := ih (n + 1) r
      rw [Nat.add_right_comm, Nat.add_assoc] at hrest
      exact hrest

theorem rowsText_append (rows rows' : List (ℕ × List String)) (r : ℕ) :
    rowsText (rows ++ rows') (rows.length + r) = rowsText rows' r := by
  funext c
  unfold rowsText
  rw [List.getElem?_append_right (Nat.le_add_right _ _), Nat.add_sub_cancel_left]

/-- The rows of the sheet below its headers. -/
def sheetRows : ℕ → List Bids → List (ℕ × List String)
  | _, [] => []
  | serNo, bids :: bidsList =>
    (0, itemCells label serNo bids bids.bidItem.categoryName bids.bidItem.quantity) ::
      (severalLots bids.bidItem).map (fun lot => (2, lotCells label bids.bidItem.categoryName lot))
      ++ sheetRows (serNo + 1) bidsList

/-- The lots of an item take one row each, from the third column on. -/
theorem lotRows_eq (categoryName : Option String) (rowNum : ℕ) (itemLots : List ItemLot) :
    lotRows categoryName rowNum itemLots =
      placeRows (rowNum + 1) (itemLots.map (fun lot => (2, lotCells label categoryName lot))) := by
  induction itemLots generalizing rowNum with
  | nil => rfl
  | cons itemLot itemLots ih =>
    rw [lotRows, ih, List.map_cons, placeRows]

/-- The loop over the list writes these rows. -/
theorem addBids_eq {bidsList : List Bids} (h : ∀ bids ∈ bidsList, Exportable bids)
    (rowNum serNo : ℕ) :
    addBids rowNum serNo bidsList = .ok (placeRows rowNum (sheetRows serNo bidsList)) := by
  induction bidsList generalizing rowNum serNo with
  | nil => rfl
  | cons bids bidsList ih =>
    have hbids := h bids List.mem_cons_self
    have hrest := ih (fun b hb => h b (List.mem_cons_of_mem bids hb))
      (rowNum + (severalLots bids.bidItem).length + 1) (serNo + 1)
    -- the loop goes on below the rows of the lots
    have hnext : rowNum + (severalLots bids.bidItem).length + 1 =
        rowNum + ((severalLots bids.bidItem).length + 1) := Nat.add_assoc _ _ _
    rw [sheetRows, placeRows_append, placeRows, ← lotRows_eq, List.length_cons, List.length_map,
      addBids, hbids.categoryNameOf_eq, hbids.quantity.getTotalQuantity, ← hnext]
    show (addBids _ _ bidsList >>= _) = _
    rw [hrest]
    rfl

/-- The rows of the lots show their values. -/
theorem reads_lotRows (item : ReportItem) {lots : List ItemLot}
    (h : ∀ lot ∈ lots, lot.quantity ≠ none) (more : List (ℕ × List String)) :
    Reads (lots.map (lotValues item))
      (rowsText (lots.map (fun lot => (2, lotCells label item.categoryName lot)) ++ more)) := by
  induction lots with
  | nil => exact Reads.nil _
  | cons lot lots ih =>
    rw [List.map_cons, reads_cons]
    constructor
    · exact lotCells_read readsAs_label (h lot List.mem_cons_self)
    · exact ih (fun lot hlot => h lot (List.mem_cons_of_mem _ hlot))

/-- The rows show their values exactly if all items have lots. -/
theorem reads_sheetRows_iff {bidsList : List Bids} (h : ∀ bids ∈ bidsList, Exportable bids)
    (serNo : ℕ) :
    Reads (reportRows serNo bidsList) (rowsText (sheetRows serNo bidsList)) ↔
      ∀ bids ∈ bidsList, bids.bidItem.itemLots ≠ [] := by
  induction bidsList generalizing serNo with
  | nil => exact iff_of_true (Reads.nil _) (by simp)
  | cons bids bidsList ih =>
    have hquantity := (h bids List.mem_cons_self).quantity
    have hitem := itemCells_read_iff readsAs_label serNo bids []
    have hlots := reads_lotRows bids.bidItem
      (fun lot hlot => hquantity lot (mem_of_mem_severalLots hlot))
      (sheetRows (serNo + 1) bidsList)
    have hrest := ih (fun b hb => h b (List.mem_cons_of_mem bids hb)) (serNo + 1)
    rw [List.append_nil] at hitem
    rw [reportRows_cons, reads_cons, reads_append, List.forall_mem_cons, sheetRows,
      List.length_map]
    apply and_congr hitem
    -- the rows of the lots are always right
    apply (and_iff_right hlots).trans
    refine Iff.trans (Iff.of_eq ?_) hrest
    apply congrArg (Reads _)
    funext r
    have happend := rowsText_append ((severalLots bids.bidItem).map
      (fun lot => (2, lotCells label bids.bidItem.categoryName lot)))
      (sheetRows (serNo + 1) bidsList) r
    rw [List.length_map] at happend
    exact happend

/-- The headers stand in the first row. -/
theorem columnOf_sheet (rows : List (ℕ × List String)) (field : Field) :
    columnOf (placeRows 0 ((0, excelHeaders) :: rows)) field = some field.ctorIdx := by
  have hheaders : columnOf (addCells 0 0 excelHeaders) field = some field.ctorIdx := by
    cases field <;> decide +kernel
  exact columnOf_append hheaders _

end Excel

/-! ## The table -/

namespace Pdf

open PDfObserverSummary1ReportView

/-- The text in a place of a table with 19 columns that is filled row by row. -/
def tableText (cells : List String) (r c : ℕ) : String := cells[19 * r + c]?.getD ""

/-- The cells of a table fill its rows from the left, nineteen in each. -/
theorem textAt_places (cells : List String) (r : ℕ) {c : ℕ} (hc : c < 19) :
    textAt (places cells) r c = tableText cells r c := by
  -- row and column are the quotient and the remainder by nineteen
  have hpred : ((fun p : PlacedCell => decide (p.row = r ∧ p.column = c)) ∘
      fun p : String × ℕ => (⟨p.2 % 19, p.2 / 19, p.1⟩ : PlacedCell)) =
      fun p => decide (p.2 = 19 * r + c) := by
    funext p
    apply decide_eq_decide.mpr
    show p.2 / 19 = r ∧ p.2 % 19 = c ↔ _
    omega
  unfold textAt places tableText
  rw [List.find?_map, hpred, find?_zipIdx, if_pos (Nat.zero_le _), Nat.sub_zero, Option.map_map,
    Option.map_map]
  exact congrArg (fun text => Option.getD text "") Option.map_id'

theorem tableText_zero (cells : List String) :
    tableText cells 0 = fun c => cells[c]?.getD "" := by
  funext c
  unfold tableText
  rw [Nat.mul_zero, Nat.zero_add]

/-- After a full row, the next cells begin a row. -/
theorem tableText_append {row : List String} (hrow : row.length = 19) (cells : List String)
    (r : ℕ) : tableText (row ++ cells) (r + 1) = tableText cells r := by
  funext c
  unfold tableText
  rw [List.getElem?_append_right (by omega), hrow]
  congr 2
  omega

/-- An item with a lot fills a row. -/
theorem length_itemCells (render : Option String → String) (serNo : ℕ) {bids : Bids}
    (hlots : bids.bidItem.itemLots ≠ []) (categoryName : Option String) (totalQuantity : ℤ) :
    (itemCells render serNo bids categoryName totalQuantity).length = 19 := by
  unfold itemCells
  rcases hcases : bids.bidItem.itemLots with _ | ⟨lot, _ | ⟨lot', lots⟩⟩
  · -- an item without lots has fewer cells
    exact absurd hcases hlots
  · rfl
  · rfl

/-- The cells of the list. -/
def tableCells : ℕ → List Bids → List String
  | _, [] => []
  | serNo, bids :: bidsList =>
    itemCells getCell serNo bids bids.bidItem.categoryName bids.bidItem.quantity ++
      ((severalLots bids.bidItem).flatMap (lotCells getCell bids.bidItem.categoryName) ++
        tableCells (serNo + 1) bidsList)

/-- The loop over the list adds these cells. -/
theorem addBids_eq {bidsList : List Bids} (h : ∀ bids ∈ bidsList, Exportable bids) (serNo : ℕ) :
    addBids serNo bidsList = .ok (tableCells serNo bidsList) := by
  induction bidsList generalizing serNo with
  | nil => rfl
  | cons bids bidsList ih =>
    have hbids := h bids List.mem_cons_self
    have hrest := ih (fun b hb => h b (List.mem_cons_of_mem bids hb)) (serNo + 1)
    rw [addBids, hbids.categoryNameOf_eq, hbids.checkRemark, hbids.quantity.getTotalQuantity,
      tableCells, ← List.append_assoc]
    show (if bids.bidItem.categoryName = none then _ else (addBids _ bidsList >>= _)) = _
    rw [if_neg hbids.category, hrest]
    rfl

/-- The rows show their values exactly if all items have one lot. -/
theorem reads_tableCells_iff {bidsList : List Bids} (h : ∀ bids ∈ bidsList, Exportable bids)
    (serNo : ℕ) :
    Reads (reportRows serNo bidsList) (tableText (tableCells serNo bidsList)) ↔
      ∀ bids ∈ bidsList, bids.bidItem.itemLots.length = 1 := by
  induction bidsList generalizing serNo with
  | nil => exact iff_of_true (Reads.nil _) (by simp)
  | cons bids bidsList ih =>
    have hquantity := (h bids List.mem_cons_self).quantity
    have hitem := itemCells_read_iff readsAs_getCell serNo bids
      ((severalLots bids.bidItem).flatMap (lotCells getCell bids.bidItem.categoryName) ++
        tableCells (serNo + 1) bidsList)
    rw [reportRows_cons, reads_cons, tableText_zero, tableCells, hitem, List.forall_mem_cons]
    rcases hcases : bids.bidItem.itemLots with _ | ⟨lot, lots⟩
    · -- without a lot the cells of the item do not fill the row
      exact iff_of_false (fun hreads => hreads.1 rfl) (fun hone => absurd hone.1 (by simp))
    · have hrow := length_itemCells getCell serNo (hcases.trans_ne (List.cons_ne_nil lot lots))
        bids.bidItem.categoryName bids.bidItem.quantity
      simp only [tableText_append hrow]
      rw [and_iff_right (List.cons_ne_nil lot lots)]
      unfold severalLots
      rw [hcases]
      cases lots with
      | nil =>
        -- the row is full, and the next one begins
        rw [if_neg (by simp), and_iff_right (show [lot].length = 1 from rfl)]
        exact ih (fun b hb => h b (List.mem_cons_of_mem bids hb)) (serNo + 1)
      | cons lot' lots =>
        -- the number of the lot is in the first column
        apply iff_of_false
        · rw [if_pos (by simp)]
          intro hreads
          have hlot : lot.quantity ≠ none := hquantity lot (hcases ▸ List.mem_cons_self)
          have hshown := (reads_cons.mp hreads).1
          rw [List.flatMap_cons, List.append_assoc, tableText_zero] at hshown
          exact lotCells_not_read readsAs_getCell hlot _ hshown
        · intro hone
          exact absurd hone.1 (by simp)

theorem headers_eq : pdfHeaders.map (fun header => getCell (some header)) = pdfHeaders := by
  decide +kernel

/-- The headers fill the first row. -/
theorem columnOf_table (cells : List String) (field : Field) :
    columnOf (places (pdfHeaders ++ cells)) field = some field.ctorIdx := by
  have hheaders : columnOf (places pdfHeaders) field = some field.ctorIdx := by
    cases field <;> decide +kernel
  unfold places
  rw [List.zipIdx_append, List.map_append]
  exact columnOf_append hheaders _

end Pdf

/-! ## Both exports -/

/-- The sheet shows all values below their headers exactly if every item has a lot, and the table
    exactly if every item has one lot. -/
theorem underHeaders_iff {bidsList : List Bids} (h : ∀ bids ∈ bidsList, Exportable bids) :
    (∃ sheet, ExcelObserverSummary1ReportView.buildExcelDocument bidsList = .ok sheet ∧
      (UnderHeaders bidsList sheet ↔ ∀ bids ∈ bidsList, bids.bidItem.itemLots ≠ [])) ∧
    ∃ table, PDfObserverSummary1ReportView.buildPdfDocument bidsList = .ok table ∧
      (UnderHeaders bidsList (PDfObserverSummary1ReportView.places table) ↔
        ∀ bids ∈ bidsList, bids.bidItem.itemLots.length = 1) := by
  constructor
  · refine ⟨Excel.placeRows 0 ((0, excelHeaders) :: Excel.sheetRows 1 bidsList), ?_, ?_⟩
    · unfold ExcelObserverSummary1ReportView.buildExcelDocument
      rw [Excel.addBids_eq h]
      rfl
    · rw [underHeaders_iff_reads (Excel.columnOf_sheet _) (fun r field => ?_),
        Excel.reads_sheetRows_iff h]
      rw [← Nat.zero_add (r + 1), Excel.textAt_placeRows]
      rfl
  · refine ⟨pdfHeaders ++ Pdf.tableCells 1 bidsList, ?_, ?_⟩
    · unfold PDfObserverSummary1ReportView.buildPdfDocument
      rw [Pdf.addBids_eq h, Pdf.headers_eq]
      rfl
    · rw [underHeaders_iff_reads (Pdf.columnOf_table _) (fun r field => ?_),
        Pdf.reads_tableCells_iff h]
      rw [Pdf.textAt_places _ _ (ctorIdx_lt field), Pdf.tableText_append rfl]

/-- A lot with a quantity and a remark. -/
def plainLot (lotId : ℤ) : ItemLot where
  lotId := some lotId
  bidItemId := some 1
  name := some "Coil"
  lengthRange := none
  actualLengh := none
  quantity := some 4
  unit := some "MT"
  currency := none
  remark := some "good"
  zone := none
  lotNo := none

/-- An item on which nobody has bid, with given lots. -/
def exportedBids (itemLots : List ItemLot) : Bids where
  bidId := none
  bidItem := {
    toBidItem := { BidItem.new with
      bidItemId := some 1
      category := some ⟨some 2, some "Steel"⟩ }
    id := 1
    id_eq := rfl
    itemLots := itemLots }
  bidderName := none
  currency := none
  bidTime := none
  bidStatus := none
  comments := none
  bidAmount := none
  bidAmount2 := none
  bidAmount3 := none
  bidderName2 := none
  bidderName3 := none
  salesPrice := none
  totalSalesPrice := none

theorem exists_of_map_ok {α β : Type} {x : Except Exn α} {f : α → β} {b : β}
    (h : x.toOption.map f = some b) : ∃ a, x = .ok a ∧ f a = b := by
  cases x with
  | error e => cases h
  | ok a => exact ⟨a, rfl, Option.some.inj h⟩

/-- The texts below the headers of some fields. -/
def textsBelow (row : ℕ) (fields : List Field) (cells : List PlacedCell) :
    List (Option String) :=
  fields.map (fun field => (columnOf cells field).map (textAt cells row))

/-- With one lot, both exports have its number, its remark and its quantity below their headers. -/
theorem underHeaders_singleLot :
    ∃ sheet table,
      ExcelObserverSummary1ReportView.buildExcelDocument [exportedBids [plainLot 1]] =
        .ok sheet ∧
      PDfObserverSummary1ReportView.buildPdfDocument [exportedBids [plainLot 1]] = .ok table ∧
      UnderHeaders [exportedBids [plainLot 1]] sheet ∧
      UnderHeaders [exportedBids [plainLot 1]] (PDfObserverSummary1ReportView.places table) ∧
      textsBelow 1 [.lotNo, .remark, .quantity] sheet = [some "1", some "good", some "4 MT"] ∧
      textsBelow 1 [.lotNo, .remark, .quantity] (PDfObserverSummary1ReportView.places table) =
        [some "1", some "good", some "4 MT"] := by
  have hall : ∀ bids ∈ [exportedBids [plainLot 1]], Exportable bids := by decide
  obtain ⟨⟨sheet, hsheet, hiff⟩, table, htable, hiff'⟩ := underHeaders_iff hall
  obtain ⟨sheet', hsheet', htexts⟩ := exists_of_map_ok
    (x := ExcelObserverSummary1ReportView.buildExcelDocument [exportedBids [plainLot 1]])
    (f := textsBelow 1 [.lotNo, .remark, .quantity])
    (b := [some "1", some "good", some "4 MT"]) (by decide +kernel)
  obtain ⟨table', htable', htexts'⟩ := exists_of_map_ok
    (x := PDfObserverSummary1ReportView.buildPdfDocument [exportedBids [plainLot 1]])
    (f := fun table => textsBelow 1 [.lotNo, .remark, .quantity]
      (PDfObserverSummary1ReportView.places table))
    (b := [some "1", some "good", some "4 MT"]) (by decide +kernel)
  cases hsheet.symm.trans hsheet'
  cases htable.symm.trans htable'
  exact ⟨sheet, table, hsheet, htable, hiff.mpr (by decide), hiff'.mpr (by decide), htexts,
    htexts'⟩

/-- One wrong text is enough. -/
theorem not_underHeaders {bidsList : List Bids} {cells : List PlacedCell}
    {values : List (Field × Option String)} {text : String} (r : ℕ)
    (value : Field × Option String) (hrow : (reportRows 1 bidsList)[r]? = some values)
    (hvalue : value ∈ values)
    (htext : (columnOf cells value.1).map (textAt cells (r + 1)) = some text)
    (hreads : ¬ ReadsAs value.2 text) : ¬ UnderHeaders bidsList cells := by
  intro hunder
  obtain ⟨column, hcolumn, hshown⟩ := hunder r values hrow value hvalue
  rw [hcolumn] at htext
  cases htext
  exact hreads hshown

/-- The quantity of an item without lots stands below the header of the remark, in the sheet and
    in the table; the numbers of two lots stand in one row of the table, below the headers of the
    serial number and of the actual length. -/
theorem values_under_other_headers :
    (∃ sheet, ExcelObserverSummary1ReportView.buildExcelDocument [exportedBids []] = .ok sheet ∧
      textsBelow 1 [.remark] sheet = [some "0 null"] ∧
      ¬ UnderHeaders [exportedBids []] sheet) ∧
    (∃ table, PDfObserverSummary1ReportView.buildPdfDocument [exportedBids []] = .ok table ∧
      textsBelow 1 [.remark] (PDfObserverSummary1ReportView.places table) = [some "0 null"] ∧
      ¬ UnderHeaders [exportedBids []] (PDfObserverSummary1ReportView.places table)) ∧
    ∃ table, PDfObserverSummary1ReportView.buildPdfDocument
        [exportedBids [plainLot 1, plainLot 2]] = .ok table ∧
      textsBelow 2 [.lotNo, .serNo, .actualLength]
        (PDfObserverSummary1ReportView.places table) = [some "Coil", some "1", some "2"] ∧
      ¬ UnderHeaders [exportedBids [plainLot 1, plainLot 2]]
        (PDfObserverSummary1ReportView.places table) := by
  -- an item without lots has no remark
  have hquantity : ¬ ReadsAs none "0 null" := by decide +kernel
  have hnumber : ¬ ReadsAs (some "1") "Coil" := by decide +kernel
  refine ⟨?_, ?_, ?_⟩
  · obtain ⟨sheet, hsheet, htexts⟩ := exists_of_map_ok
      (x := ExcelObserverSummary1ReportView.buildExcelDocument [exportedBids []])
      (f := textsBelow 1 [.remark]) (b := [some "0 null"]) (by decide +kernel)
    exact ⟨sheet, hsheet, htexts, not_underHeaders 0 (.remark, none) rfl (by decide +kernel)
      (List.head_eq_of_cons_eq htexts) hquantity⟩
  · obtain ⟨table, htable, htexts⟩ := exists_of_map_ok
      (x := PDfObserverSummary1ReportView.buildPdfDocument [exportedBids []])
      (f := fun table => textsBelow 1 [.remark] (PDfObserverSummary1ReportView.places table))
      (b := [some "0 null"]) (by decide +kernel)
    exact ⟨table, htable, htexts, not_underHeaders 0 (.remark, none) rfl (by decide +kernel)
      (List.head_eq_of_cons_eq htexts) hquantity⟩
  · obtain ⟨table, htable, htexts⟩ := exists_of_map_ok
      (x := PDfObserverSummary1ReportView.buildPdfDocument
        [exportedBids [plainLot 1, plainLot 2]])
      (f := fun table => textsBelow 2 [.lotNo, .serNo, .actualLength]
        (PDfObserverSummary1ReportView.places table))
      (b := [some "Coil", some "1", some "2"]) (by decide +kernel)
    exact ⟨table, htable, htexts, not_underHeaders 1 (.lotNo, some "1") rfl (by decide +kernel)
      (List.head_eq_of_cons_eq htexts) hnumber⟩

end Bidding.Model.Reports
