import Bidding.Model.Reports

/-!
# The Exports of the Summary-1 Report

`ExcelObserverSummary1ReportView` and `PDfObserverSummary1ReportView` write the list of the report
into a sheet and into a table with 19 columns. Both write the values of an item one after the
other, and after an item with several lots the values of each lot. The sheet gives each lot a row
of its own, from the third column on; the table is filled row by row with all cells.

## Modelling choices

- A `null` text is an empty label in the sheet. In the table, `getCell` makes an empty cell of
  it, and of the text `null`.
- Fonts, widths and alignments are left out.
-/

namespace Bidding.Model.Reports

/-! ## Headers -/

/-- The texts of the first row of the sheet. -/
def excelHeaders : List String :=
  ["Sr. No.", "Description ", "Lot No ", "Category ", "Market Name ", "Remark", "Length Range",
    "Actual Length(Approx)", "Quantity", "Zone", "H1 Company Name", "H1 Bid Price",
    "H2 Company Name", "H2 Bid Price", "H3 Company Name", "H3 Bid Price", "Lot's Status",
    "Sales Price ", "Total Sales(Qty X SalesPrice)"]

/-- The same for the table. -/
def pdfHeaders : List String :=
  ["Sr. No.", "Description", "Lot No", "Category", "Market Name", "Remark", "Length Range",
    "Actual Length(Approx)", "Quantity", "Zone", "H1 Company Name", "H1 Bid Price",
    "H2 Company Name", "H2 Bid Price", "H3 Company Name", "H3 Bid Price", "Lot's Status",
    "Sales Price", "Total Sales(Qty X SalesPrice)"]

/-! ## Cells of an item and of a lot -/

/-- The text of `null` in a concatenation. -/
def orNull (s : Option String) : String := s.getD "null"

/-- `d + ""` for a `Double` -/
def doubleText (d : Option ℚ) : String := orNull (d.map (fun q => (Text.double q).render))

/-- The text of a price that is left empty where there is none. -/
def priceText (d : Option ℚ) : String := (d.map (fun q => (Text.double q).render)).getD ""

/-- The texts of `BiddingConstants` -/
def statusText : BidStatus → String
  | .h1 => "H1"
  | .h2 => "H2"
  | .h3 => "H3"
  | .hold => "HOLD"
  | .rejected => "Rejected"

section Cells

-- how a view makes the text of a cell of a `String`
variable (render : Option String → String)

/-- The three cells that an item has from its lot: with several lots they are empty, and without
    lots they are not written. -/
def lotColumns (itemLots : List ItemLot) : List String :=
  match itemLots with
  -- the columns to the right move to the left by three
  | [] => []
  | [itemLot] =>
    [render itemLot.remark, render (some (orNull itemLot.lengthRange)),
      render (some (orNull itemLot.actualLengh))]
  | _ => [render (some ""), render (some ""), render (some "")]

/-- The cells of an item, in the order in which they are written. -/
def itemCells (serNo : ℕ) (bids : Bids) (categoryName : Option String) (totalQuantity : ℤ) :
    List String :=
  [render (some (toString serNo)), render (some "Desc"), render (some (toString bids.itemId)),
    render categoryName, render bids.bidItem.name] ++
  lotColumns render bids.bidItem.itemLots ++
  [render (some (toString totalQuantity ++ " " ++ orNull bids.bidItem.getUnit)),
    render bids.bidItem.zone, render bids.bidderName, render (some (doubleText bids.bidAmount)),
    render bids.bidderName2, render (some (priceText bids.bidAmount2)),
    render bids.bidderName3, render (some (priceText bids.bidAmount3)),
    render (bids.bidItem.isProcessed.map statusText), render (some (priceText bids.salesPrice)),
    render (some (priceText bids.totalSalesPrice))]

/-- The cells of one of several lots. -/
def lotCells (categoryName : Option String) (itemLot : ItemLot) : List String :=
  [render (some (orNull (itemLot.lotId.map toString))), render categoryName, render itemLot.name,
    render itemLot.remark, render itemLot.lengthRange, render itemLot.actualLengh,
    render (some (orNull (itemLot.quantity.map toString) ++ " " ++ orNull itemLot.unit))]

end Cells

/-- `getItemLots()` where it has more than one element: the lots that get cells of their own. -/
def severalLots (bidItem : ReportItem) : List ItemLot :=
  if 1 < bidItem.itemLots.length then bidItem.itemLots else []

/-- `getCategory().getCategoryName()` -/
def categoryNameOf (bidItem : ReportItem) : Except Exn (Option String) :=
  match bidItem.category with
  | none => .error .nullPointer
  | some category => .ok category.categoryName

/-! ## The sheet -/

/-- A cell of the sheet at its place. -/
structure PlacedCell where
  column : ℕ
  row : ℕ
  text : String
  deriving DecidableEq

/-- `sheet.addCell(new Label(colNum++, rowNum, ...))` for cells one after the other. -/
def addCells (colNum rowNum : ℕ) (cells : List String) : List PlacedCell :=
  (cells.zipIdx colNum).map (fun p => ⟨p.2, rowNum, p.1⟩)

namespace ExcelObserverSummary1ReportView

/-- The text of a label. -/
def label (s : Option String) : String := s.getD ""

/-- The rows of the lots of an item, after the row `rowNum`. -/
def lotRows (categoryName : Option String) : ℕ → List ItemLot → List PlacedCell
  | _, [] => []
  | rowNum, itemLot :: itemLots =>
    -- the lots of an item stand below it, from the third column on
    addCells 2 (rowNum + 1) (lotCells label categoryName itemLot) ++
      lotRows categoryName (rowNum + 1) itemLots

/-- The loop over the list. -/
def addBids : ℕ → ℕ → List Bids → Except Exn (List PlacedCell)
  | _, _, [] => .ok []
  | rowNum, serNo, bids :: bidsList => do
    let categoryName ← categoryNameOf bids.bidItem
    let totalQuantity ← bids.bidItem.getTotalQuantity
    let itemLots := severalLots bids.bidItem
    let rest ← addBids (rowNum + itemLots.length + 1) (serNo + 1) bidsList
    .ok (addCells 0 rowNum (itemCells label serNo bids categoryName totalQuantity) ++
      lotRows categoryName rowNum itemLots ++ rest)

/-- `buildExcelDocument` -/
def buildExcelDocument (bidsList : List Bids) : Except Exn (List PlacedCell) := do
  let body ← addBids 1 1 bidsList
  .ok (addCells 0 0 excelHeaders ++ body)

end ExcelObserverSummary1ReportView

/-! ## The table -/

namespace PDfObserverSummary1ReportView

/-- The content of `getCell` -/
def getCell (content : Option String) : String :=
  match content with
  | none => ""
  | some s => if s.toLower = "null" then "" else s

/-- `getRemark().toString()` of the only lot of an item. -/
def checkRemark (bidItem : ReportItem) : Except Exn Unit :=
  match bidItem.itemLots with
  | [itemLot] => if itemLot.remark = none then .error .nullPointer else .ok ()
  | _ => .ok ()

/-- The cells that the loop adds to the table. -/
def addBids : ℕ → List Bids → Except Exn (List String)
  | _, [] => .ok []
  | serNo, bids :: bidsList => do
    let categoryName ← categoryNameOf bids.bidItem
    -- `getCategoryName().toString()`
    if categoryName = none then .error .nullPointer else
      checkRemark bids.bidItem
      let totalQuantity ← bids.bidItem.getTotalQuantity
      let rest ← addBids (serNo + 1) bidsList
      -- a table has no rows to begin: the cells of the lots run on after those of the item
      .ok (itemCells getCell serNo bids categoryName totalQuantity ++
        (severalLots bids.bidItem).flatMap (lotCells getCell categoryName) ++ rest)

/-- The cells of the table of `buildPdfDocument`, in the order in which they are added. -/
def buildPdfDocument (bidsList : List Bids) : Except Exn (List String) := do
  let body ← addBids 1 bidsList
  .ok (pdfHeaders.map (fun header => getCell (some header)) ++ body)

/-- Where the cells of the table are: it has 19 columns and is filled row by row. -/
def places (cells : List String) : List PlacedCell :=
  cells.zipIdx.map (fun p => ⟨p.2 % 19, p.2 / 19, p.1⟩)

end PDfObserverSummary1ReportView

end Bidding.Model.Reports
