import Mathlib.Data.List.Basic
import Bidding.Model.FileUpload

/-!
# What a Row of a Sheet Says

The item and the lot of a row in terms of its cells: which column has which value. The columns
are numbered from the left, beginning with 0; the second and the third one are not read. A cell
that is blank counts as an empty text and as the number 0.

## Key Results

- **`getStringCellValue_eq_ok_iff`**, **`getNumericCellValue_eq_ok_iff`**: a cell.
- **`itemOf_readRow`**, **`exists_readRow`**: a row is read exactly if its columns are filled, and
  the item and the lot are those of its cells.
-/

namespace Bidding.Model.FileUpload

/-! ## Cells -/

/-- The text in a column. -/
def textIn (row : SheetRow) (column : ℕ) : Option String :=
  match row[column]?.join with
  | some (.text s) => some s
  | some .blank => some ""
  | _ => none

/-- The number in a column. -/
def numberIn (row : SheetRow) (column : ℕ) : Option ℚ :=
  match row[column]?.join with
  | some (.number q) => some q
  | some .blank => some 0
  | _ => none

theorem getStringCellValue_eq_ok_iff {row : SheetRow} {column : ℕ} {s : String} :
    getStringCellValue row column = .ok s ↔ textIn row column = some s := by
  unfold getStringCellValue textIn
  rcases row[column]?.join with _ | (_ | _ | _ | _) <;> simp

theorem getNumericCellValue_eq_ok_iff {row : SheetRow} {column : ℕ} {q : ℚ} :
    getNumericCellValue row column = .ok q ↔ numberIn row column = some q := by
  unfold getNumericCellValue numberIn
  rcases row[column]?.join with _ | (_ | _ | _ | _) <;> simp

/-! ## Rows -/

/-- A row with a text or a number in each column where the upload needs one. -/
structure Filled (row : SheetRow) : Prop where
  texts : ∀ column ∈ [4, 5, 6, 7, 9, 14, 15, 16], textIn row column ≠ none
  numbers : ∀ column ∈ [0, 3, 8, 10, 11, 12, 13], numberIn row column ≠ none

instance (row : SheetRow) : Decidable (Filled row) :=
  decidable_of_iff ((∀ column ∈ [4, 5, 6, 7, 9, 14, 15, 16], textIn row column ≠ none) ∧
      ∀ column ∈ [0, 3, 8, 10, 11, 12, 13], numberIn row column ≠ none)
    ⟨fun h => ⟨h.1, h.2⟩, fun h => ⟨h.texts, h.numbers⟩⟩

/-- An item is the one of a row, uploaded at given moments. -/
structure ItemOf (moments : Moments) (row : SheetRow) (item : BidItemEntity) : Prop where
  serialNumber : (numberIn row 0).map Text.double = some item.serialNumber
  name : textIn row 4 = some item.name
  nocolum : textIn row 6 = some item.nocolum
  currentMarketPrice : numberIn row 10 = some item.currentMarketPrice
  minBidPrice : numberIn row 11 = some item.minBidPrice
  minBidIncrement : numberIn row 12 = some item.minBidIncrement
  timeExtn : (numberIn row 13).map doubleToInt = some item.timeExtn
  currency : textIn row 14 = some item.currency
  location : textIn row 15 = some item.location
  city : textIn row 16 = some item.city
  lastUpdateTime : item.lastUpdateTime = moments.lastUpdateTime
  createdTime : item.createdTime = moments.createdTime
  -- the same for all rows
  statusCode : item.statusCode = "Start"
  categoryId : item.categoryId = 2
  marketId : item.marketId = 1
  autobidid : item.autobidid = 0
  initialStartTime : item.initialStartTime = 3

/-- A lot is the one of a row. -/
structure LotOf (row : SheetRow) (lot : ItemLotEntity) : Prop where
  lotno : (numberIn row 3).map doubleToInt = some lot.lotno
  name : textIn row 4 = some lot.name
  remark : textIn row 5 = some lot.remark
  lengthRange : textIn row 7 = some lot.lengthRange
  quantity : (numberIn row 8).map doubleToInt = some lot.quantity
  zone : textIn row 9 = some lot.zone
  currency : textIn row 14 = some lot.currency

theorem bind_eq_ok_iff {α β ε : Type} {x : Except ε α} {f : α → Except ε β} {b : β} :
    (x >>= f) = .ok b ↔ ∃ a, x = .ok a ∧ f a = .ok b := by
  cases x with
  | error e => exact iff_of_false (fun h => by cases h) (fun ⟨a, ha, _⟩ => by cases ha)
  | ok a => exact ⟨fun h => ⟨a, rfl, h⟩, fun ⟨a', ha, h⟩ => by cases ha; exact h⟩

/-- What is read of a row is what its cells say. -/
theorem itemOf_readRow {moments : Moments} {row : SheetRow}
    {draft : BidItemEntity × ItemLotEntity} (h : readRow moments (some row) = .ok draft) :
    Filled row ∧ ItemOf moments row draft.1 ∧ LotOf row draft.2 := by
  simp only [readRow, bind_eq_ok_iff, getStringCellValue_eq_ok_iff,
    getNumericCellValue_eq_ok_iff] at h
  -- one fact for each cell, in the order in which the code reads them
  obtain ⟨name, hname, location, hlocation, city, hcity, minBidPrice, hprice, minBidIncrement,
    hincrement, timeExtn, hextn, currency, hcurrency, serialNumber, hserial, currentMarketPrice,
    hmarket, nocolum, hnocolum, lengthRange, hrange, quantity, hquantity, remark, hremark, zone,
    hzone, lotno, hlotno, hdraft⟩ := h
  cases hdraft
  refine ⟨⟨?_, ?_⟩, ?_, ?_⟩
  · simp [hname, hremark, hnocolum, hrange, hzone, hcurrency, hlocation, hcity]
  · simp [hserial, hlotno, hquantity, hmarket, hprice, hincrement, hextn]
  · exact ⟨congrArg _ hserial, hname, hnocolum, hmarket, hprice, hincrement, congrArg _ hextn,
      hcurrency, hlocation, hcity, rfl, rfl, rfl, rfl, rfl, rfl, rfl⟩
  · exact ⟨congrArg _ hlotno, hname, hremark, hrange, congrArg _ hquantity, hzone, hcurrency⟩

/-- Every row whose columns are filled is read. -/
theorem exists_readRow {row : SheetRow} (h : Filled row) (moments : Moments) :
    ∃ draft, readRow moments (some row) = .ok draft := by
  have htext : ∀ column ∈ [4, 5, 6, 7, 9, 14, 15, 16],
      ∃ s, getStringCellValue row column = .ok s := by
    intro column hcolumn
    obtain ⟨s, hs⟩ := Option.ne_none_iff_exists'.mp (h.texts column hcolumn)
    exact ⟨s, getStringCellValue_eq_ok_iff.mpr hs⟩
  have hnumber : ∀ column ∈ [0, 3, 8, 10, 11, 12, 13],
      ∃ q, getNumericCellValue row column = .ok q := by
    intro column hcolumn
    obtain ⟨q, hq⟩ := Option.ne_none_iff_exists'.mp (h.numbers column hcolumn)
    exact ⟨q, getNumericCellValue_eq_ok_iff.mpr hq⟩
  -- one cell for each column
  simp only [List.forall_mem_cons] at htext hnumber
  obtain ⟨⟨name, hname⟩, ⟨remark, hremark⟩, ⟨nocolum, hnocolum⟩, ⟨lengthRange, hrange⟩,
    ⟨zone, hzone⟩, ⟨currency, hcurrency⟩, ⟨location, hlocation⟩, ⟨city, hcity⟩, -⟩ := htext
  obtain ⟨⟨serialNumber, hserial⟩, ⟨lotno, hlotno⟩, ⟨quantity, hquantity⟩,
    ⟨currentMarketPrice, hmarket⟩, ⟨minBidPrice, hprice⟩, ⟨minBidIncrement, hincrement⟩,
    ⟨timeExtn, hextn⟩, -⟩ := hnumber
  simp only [readRow, hname, hremark, hnocolum, hrange, hzone, hcurrency, hlocation, hcity,
    hserial, hlotno, hquantity, hmarket, hprice, hincrement, hextn]
  exact ⟨_, rfl⟩

end Bidding.Model.FileUpload
