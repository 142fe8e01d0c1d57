import Bidding.Model.FileUpload
import Bidding.Model.ReportViews

/-!
# The Report of the Won Bids

`/bidderReport` exports the items that a bidder has won: `WriteExcelFile.writeWonListToExcelFile`
writes them into a sheet of the file `excel.xls`, and `ExcelToPdf.excelToPdfwriter` reads that file
and adds the cells of the sheet to a table with nine columns.

## Modelling choices

- `setCellValue` with a `null` text makes a blank cell, which the iterator over the cells of a row
  returns as well.
- A table is its title, which fills one row, and the cells below it in the order in which they are
  added.
- The file is the workbook that was written; one of the newer format cannot be read as a
  `HSSFWorkbook`.
- Numbers are exact. Widths and colours are left out.
-/

namespace Bidding.Model.WonList

open Reports
open FileUpload (Cell)

/-- An exception with a text of its own, or one of the run. -/
inductive Failure where
  | exception (message : String)
  | thrown (e : Exn)
  deriving DecidableEq

/-- `XSSFWorkbook` and `HSSFWorkbook` -/
inductive Format where
  | xssf
  | hssf
  deriving DecidableEq

/-- A workbook with one sheet. -/
structure Workbook where
  format : Format
  sheetName : String
  sheet : List (List Cell)
  deriving DecidableEq

/-! ## The sheet -/

namespace WriteExcelFile

/-- `excel.endsWith(ending)` -/
def endsWith (excel ending : String) : Bool := ending.toList.isSuffixOf excel.toList

/-- The workbook for a file name. -/
def formatOf (excel : String) : Except Failure Format :=
  -- `endsWith` without the dot
  if endsWith excel "xlsx" then .ok .xssf
  else if endsWith excel "xls" then .ok .hssf
  else .error (.exception "Invalid file name, should be xls or xlsx")

/-- The texts of the first row. -/
def headers : List String :=
  ["Sr. No.", "Description", "Lot No", "Category Name", "Material Name", "Remark",
    "Length Range", "Actual Length(Approx)", "Quantity"]

/-- `setCellValue` with a text -/
def setCellValue : Option String → Cell
  | none => .blank
  | some s => .text s

/-- `getItemLots().get(0)` -/
def firstLot (biditem : ReportItem) : Except Exn ItemLot :=
  match biditem.itemLots with
  -- `IndexOutOfBoundsException`
  | [] => .error .runtime
  | itemLot :: _ => .ok itemLot

/-- `setCellValue(getLotId())`, which unboxes the id. -/
def lotIdCell (itemLot : ItemLot) : Except Exn Cell :=
  match itemLot.lotId with
  | none => .error .nullPointer
  | some lotId => .ok (.number lotId)

/-- `getQuantity() + getUnit()`, a concatenation -/
def quantityText (itemLot : ItemLot) : String :=
  orNull (itemLot.quantity.map (fun n => toString n)) ++ orNull itemLot.unit

/-- The row of an item. -/
def itemRow (serNo : ℕ) (biditem : ReportItem) : Except Exn (List Cell) := do
  let itemLot ← firstLot biditem
  let lotId ← lotIdCell itemLot
  let categoryName ← categoryNameOf biditem
  .ok [.number serNo, .text "Desc", lotId, setCellValue categoryName, setCellValue itemLot.name,
    setCellValue itemLot.remark, setCellValue itemLot.lengthRange,
    setCellValue itemLot.actualLengh, .text (quantityText itemLot)]

/-- The loop over the won items. -/
def itemRows (serNo : ℕ) : List ReportItem → Except Exn (List (List Cell))
  | [] => .ok []
  | biditem :: wonlist => do
    let row ← itemRow serNo biditem
    let rows ← itemRows (serNo + 1) wonlist
    .ok (row :: rows)

/-- `writeWonListToExcelFile`: the content of `excel.xls` -/
def writeWonListToExcelFile (excel : String) (wonlist : List ReportItem) :
    Except Failure Workbook := do
  let format ← formatOf excel
  let rows ← (itemRows 1 wonlist).mapError Failure.thrown
  .ok ⟨format, "wonlist", headers.map Cell.text :: rows⟩

end WriteExcelFile

/-! ## The table -/

/-- A `PdfPTable`: its title and its cells. -/
structure PdfPTable where
  title : String
  cells : List Text
  deriving DecidableEq

namespace ExcelToPdf

/-- `new PdfPTable(9)` -/
def columns : ℕ := 9

/-- What the `switch` on the type of a cell adds to the table: it has a case for texts and one
    for numbers. -/
def tableCell : Cell → Option Text
  | .text s => some (.str s)
  | .number q => some (.double q)
  -- no case for it: no cell is added, and the next ones take its place
  | .blank => none
  | .other => none

/-- `excelToPdfwriter` on the content of `excel.xls` -/
def excelToPdfwriter (workbook : Workbook) : Except Failure PdfPTable :=
  match workbook.format with
  -- the file is opened as an `HSSFWorkbook` in any case
  | .xssf => .error (.thrown .illegalArgument)
  | .hssf =>
    .ok ⟨"******* WON BIDS *******", workbook.sheet.flatMap (fun row => row.filterMap tableCell)⟩

end ExcelToPdf

/-- The export of `/bidderReport`: the sheet, and the table made of it. -/
def exportWonList (wonList : List ReportItem) : Except Failure (Workbook × PdfPTable) := do
  let workbook ← WriteExcelFile.writeWonListToExcelFile "excel.xls" wonList
  let table ← ExcelToPdf.excelToPdfwriter workbook
  .ok (workbook, table)

end Bidding.Model.WonList
