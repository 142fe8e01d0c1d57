import Mathlib.Data.List.Basic
import Bidding.Model.ReportViews
import Bidding.Semantics.ReportRows

/-!
# What the Exports Should Show

The report has a row for every item, and after an item with several lots a row for each of them.
`itemValues` and `lotValues` say which value a row has in which field, in terms of the bids, the
item and its lots. An export is right if the text in that row, in the column with the header of
the field, is the one of the value.

The views do not address a column by its header: the column of a text depends on how many cells
have been written before it in its row.

## Key Results

- **`itemCells_read_iff`**: the row of an item is right exactly if the item has lots.
- **`lotCells_read`**, **`lotCells_not_read`**: the row of a lot is right from the third column on,
  and never from the first column on.
-/

namespace Bidding.Model.Reports

/-! ## The values of the report -/

/-- The fields of the report, in the order of their columns. -/
inductive Field where
  | serNo
  | description
  | lotNo
  | category
  | marketName
  | remark
  | lengthRange
  | actualLength
  | quantity
  | zone
  | h1CompanyName
  | h1BidPrice
  | h2CompanyName
  | h2BidPrice
  | h3CompanyName
  | h3BidPrice
  | lotsStatus
  | salesPrice
  | totalSales
  deriving DecidableEq, Repr

/-- The header of a field. -/
def Field.header : Field → String
  | .serNo => "Sr. No."
  | .description => "Description"
  | .lotNo => "Lot No"
  | .category => "Category"
  | .marketName => "Market Name"
  | .remark => "Remark"
  | .lengthRange => "Length Range"
  | .actualLength => "Actual Length(Approx)"
  | .quantity => "Quantity"
  | .zone => "Zone"
  | .h1CompanyName => "H1 Company Name"
  | .h1BidPrice => "H1 Bid Price"
  | .h2CompanyName => "H2 Company Name"
  | .h2BidPrice => "H2 Bid Price"
  | .h3CompanyName => "H3 Company Name"
  | .h3BidPrice => "H3 Bid Price"
  | .lotsStatus => "Lot's Status"
  | .salesPrice => "Sales Price"
  | .totalSales => "Total Sales(Qty X SalesPrice)"

/-- The status that an item shows. -/
def statusName : BidStatus → String
  | .h1 => "H1"
  | .h2 => "H2"
  | .h3 => "H3"
  | .hold => "HOLD"
  | .rejected => "Rejected"

/-- A price, as a text. -/
def amountText (amount : ℚ) : String := (Text.double amount).render

/-- A quantity with its unit. -/
def measureText (quantity : ℤ) (unit : Option String) : String :=
  toString quantity ++ " " ++ unit.getD "null"

/-- The lot of an item that has one lot only. -/
def onlyLot (item : ReportItem) : Option ItemLot :=
  if item.itemLots.length = 1 then item.itemLots.head? else none

/-- The values in the row of an item; `none` where there is no value. -/
def itemValues (serNo : ℕ) (bids : Bids) : List (Field × Option String) :=
  let item := bids.bidItem
  [(.serNo, some (toString serNo)),
    (.description, some "Desc"),
    (.lotNo, some (toString item.id)),
    (.category, item.categoryName),
    (.marketName, item.name),
    (.remark, (onlyLot item).bind ItemLot.remark),
    (.lengthRange, (onlyLot item).bind ItemLot.lengthRange),
    (.actualLength, (onlyLot item).bind ItemLot.actualLengh),
    (.quantity, some (measureText item.quantity (item.itemLots.head?.bind ItemLot.unit))),
    (.zone, item.zone),
    (.h1CompanyName, bids.bidderName),
    (.h1BidPrice, bids.bidAmount.map amountText),
    (.h2CompanyName, bids.bidderName2),
    (.h2BidPrice, bids.bidAmount2.map amountText),
    (.h3CompanyName, bids.bidderName3),
    (.h3BidPrice, bids.bidAmount3.map amountText),
    (.lotsStatus, item.isProcessed.map statusName),
    (.salesPrice, bids.salesPrice.map amountText),
    (.totalSales, bids.totalSalesPrice.map amountText)]

/-- The values in the row of a lot. -/
def lotValues (item : ReportItem) (lot : ItemLot) : List (Field × Option String) :=
  [(.lotNo, lot.lotId.map toString),
    (.category, item.categoryName),
    (.marketName, lot.name),
    (.remark, lot.remark),
    (.lengthRange, lot.lengthRange),
    (.actualLength, lot.actualLengh),
    (.quantity, lot.quantity.map (fun quantity => measureText quantity lot.unit))]

/-- The rows of the report below its headers: one for every item, and after an item with several
    lots one for each of them. -/
def reportRows : ℕ → List Bids → List (List (Field × Option String))
  | _, [] => []
  | serNo, bids :: bidsList =>
    itemValues serNo bids ::
      (if 1 < bids.bidItem.itemLots.length
        then bids.bidItem.itemLots.map (lotValues bids.bidItem) else []) ++
      reportRows (serNo + 1) bidsList

/-! ## What an export shows -/

/-- The text in a place, empty where nothing has been written. -/
def textAt (cells : List PlacedCell) (row column : ℕ) : String :=
  ((cells.find? (fun p => p.row = row ∧ p.column = column)).map PlacedCell.text).getD ""

/-- The column that has the header of a field in the first row; a blank may follow the header. -/
def columnOf (cells : List PlacedCell) (field : Field) : Option ℕ :=
  (cells.find? (fun p => p.row = 0 ∧
    (p.text = field.header ∨ p.text = field.header ++ " "))).map PlacedCell.column

/-- A text shows a value. Where there is none, it is empty or `null`, and a value that reads `null`
    may be left out like a missing one. -/
def ReadsAs (value : Option String) (text : String) : Prop :=
  text = value.getD "null" ∨ text = "" ∧ (value.getD "null").toLower = "null"

instance (value : Option String) (text : String) : Decidable (ReadsAs value text) :=
  inferInstanceAs (Decidable (_ ∨ _ ∧ _))

/-- Every row of the report shows its values, each in the column with the header of its field. -/
def UnderHeaders (bidsList : List Bids) (cells : List PlacedCell) : Prop :=
  ∀ r values, (reportRows 1 bidsList)[r]? = some values → ∀ value ∈ values,
    ∃ column, columnOf cells value.1 = some column ∧
      ReadsAs value.2 (textAt cells (r + 1) column)

/-! ## Texts -/

theorem null_toLower : "null".toLower = "null" := by decide +kernel

theorem readsAs_some (s : String) : ReadsAs (some s) s := Or.inl rfl

theorem readsAs_none_empty : ReadsAs none "" := Or.inr ⟨rfl, null_toLower⟩

/-- Only the text of a value in a concatenation matters. -/
theorem readsAs_orNull {value : Option String} {text : String} :
    ReadsAs (some (orNull value)) text ↔ ReadsAs value text := Iff.rfl

theorem ReadsAs.eq_empty {text : String} (h : ReadsAs (some "") text) : text = "" := by
  rcases h with h | ⟨h, -⟩
  · exact h
  · exact h

/-- A text that reads `null` has no blank. -/
theorem blank_notMem_of_toLower {s : String} (h : s.toLower = "null") : ' ' ∉ s.toList := by
  intro hblank
  have hmem : ' '.toLower ∈ s.toLower.toList := by
    unfold String.toLower
    rw [String.toList_map]
    exact List.mem_map_of_mem hblank
  rw [h] at hmem
  exact absurd hmem (by decide)

/-- A text has blanks exactly if the value that it shows has. -/
theorem ReadsAs.blank_iff {value : Option String} {text : String} (h : ReadsAs value text) :
    ' ' ∈ text.toList ↔ ' ' ∈ (value.getD "null").toList := by
  rcases h with h | ⟨h, hnull⟩
  · rw [h]
  · rw [h]
    exact iff_of_false (by simp) (blank_notMem_of_toLower hnull)

theorem blank_mem_measureText (quantity : ℤ) (unit : Option String) :
    ' ' ∈ (measureText quantity unit).toList := by
  unfold measureText
  simp

/-- The number of a lot has no blank. -/
theorem blank_notMem_toString (n : ℤ) : ' ' ∉ (toString n).toList := by
  have hdigits : ∀ m : ℕ, ' ' ∉ m.repr.toList := by
    intro m hblank
    rw [Nat.toList_repr] at hblank
    exact absurd (Nat.isDigit_of_mem_toDigits (by decide) (by decide) hblank) (by decide)
  cases n with
  | ofNat m => exact hdigits m
  | negSucc m =>
    show ' ' ∉ ("-" ++ (m + 1).repr).toList
    rw [String.toList_append, List.mem_append]
    -- neither the sign nor a digit is a blank
    rintro (hsign | hblank)
    · exact absurd hsign (by decide)
    · exact hdigits (m + 1) hblank

/-- Both views write a text so that it can be read. -/
theorem readsAs_label (value : Option String) :
    ReadsAs value (ExcelObserverSummary1ReportView.label value) := by
  cases value with
  | none => exact readsAs_none_empty
  | some s => exact readsAs_some s

/-- The cell of the table shows its value, a text that reads `null` being left out. -/
theorem readsAs_getCell (value : Option String) :
    ReadsAs value (PDfObserverSummary1ReportView.getCell value) := by
  cases value with
  | none => exact readsAs_none_empty
  | some s =>
    unfold PDfObserverSummary1ReportView.getCell
    by_cases hnull : s.toLower = "null"
    · exact Or.inr ⟨if_pos hnull, hnull⟩
    · exact Or.inl (if_neg hnull)

/-! ## Rows -/

/-- A row with given texts shows its values. -/
def RowReads (values : List (Field × Option String)) (texts : ℕ → String) : Prop :=
  ∀ value ∈ values, ReadsAs value.2 (texts value.1.ctorIdx)

/-- The rows of a table with given texts show their values. -/
def Reads (rows : List (List (Field × Option String))) (texts : ℕ → ℕ → String) : Prop :=
  ∀ r values, rows[r]? = some values → RowReads values (texts r)

/-- Rows below each other. -/
theorem reads_cons {values : List (Field × Option String)}
    {rows : List (List (Field × Option String))} {texts : ℕ → ℕ → String} :
    Reads (values :: rows) texts ↔
      RowReads values (texts 0) ∧ Reads rows (fun r => texts (r + 1)) := by
  constructor
  · intro h
    exact ⟨h 0 values rfl, fun r values hvalues => h (r + 1) values hvalues⟩
  · rintro ⟨hfirst, hrest⟩ r values hvalues
    cases r with
    | zero =>
      cases hvalues
      exact hfirst
    | succ r => exact hrest r values hvalues

/-- Blocks of rows below each other. -/
theorem reads_append {rows rows' : List (List (Field × Option String))}
    {texts : ℕ → ℕ → String} :
    Reads (rows ++ rows') texts ↔
      Reads rows texts ∧ Reads rows' (fun r => texts (rows.length + r)) := by
  induction rows generalizing texts with
  | nil => simp [Reads]
  | cons values rows ih =>
    have hshift : (fun r => texts (rows.length + r + 1)) =
        fun r => texts ((values :: rows).length + r) := by
      funext r
      rw [List.length_cons, Nat.add_right_comm]
    rw [List.cons_append, reads_cons, ih, hshift, ← and_assoc, ← reads_cons]

theorem Reads.nil (texts : ℕ → ℕ → String) : Reads [] texts := by
  intro r values hvalues
  cases hvalues

theorem ctorIdx_lt (field : Field) : field.ctorIdx < 19 := by
  cases field <;> decide

/-- With the headers in their places, the fields have the columns in their order. -/
theorem underHeaders_iff_reads {bidsList : List Bids} {cells : List PlacedCell}
    {texts : ℕ → ℕ → String} (hheaders : ∀ field, columnOf cells field = some field.ctorIdx)
    (htexts : ∀ r, ∀ field : Field, textAt cells (r + 1) field.ctorIdx = texts r field.ctorIdx) :
    UnderHeaders bidsList cells ↔ Reads (reportRows 1 bidsList) texts := by
  unfold UnderHeaders Reads RowReads
  simp only [hheaders, Option.some.injEq, exists_eq_left', htexts]

/-- The column of a header does not depend on the cells below. -/
theorem columnOf_append {cells : List PlacedCell} {field : Field} {column : ℕ}
    (h : columnOf cells field = some column) (more : List PlacedCell) :
    columnOf (cells ++ more) field = some column := by
  unfold columnOf at h ⊢
  obtain ⟨p, hfind, rfl⟩ := Option.map_eq_some_iff.mp h
  rw [List.find?_append, hfind]
  rfl

section Cells

-- how a view makes the text of a cell of a `String`
variable {render : Option String → String} (hrender : ∀ value, ReadsAs value (render value))

include hrender

/-- A price that is left empty where there is none. -/
theorem readsAs_priceText (amount : Option ℚ) :
    ReadsAs (amount.map amountText) (render (some (priceText amount))) := by
  cases amount with
  | none =>
    have hempty : render (some (priceText none)) = "" := (hrender (some "")).eq_empty
    rw [hempty]
    exact readsAs_none_empty
  | some amount => exact hrender (some (amountText amount))

/-- The status is shown by its name. -/
theorem readsAs_statusText (status : Option BidStatus) :
    ReadsAs (status.map statusName) (render (status.map statusText)) := by
  have hsame : statusText = statusName := by
    funext status
    cases status <;> rfl
  rw [hsame]
  exact hrender _

/-- The three cells of an item with lots. -/
theorem lotColumns_read {item : ReportItem} (hlots : item.itemLots ≠ []) :
    ∃ remark lengthRange actualLength,
      lotColumns render item.itemLots = [remark, lengthRange, actualLength] ∧
      ReadsAs ((onlyLot item).bind ItemLot.remark) remark ∧
      ReadsAs ((onlyLot item).bind ItemLot.lengthRange) lengthRange ∧
      ReadsAs ((onlyLot item).bind ItemLot.actualLengh) actualLength := by
  unfold onlyLot
  rcases hcases : item.itemLots with _ | ⟨lot, _ | ⟨lot', lots⟩⟩
  · exact absurd hcases hlots
  · exact ⟨_, _, _, rfl, hrender lot.remark, readsAs_orNull.mp (hrender _),
      readsAs_orNull.mp (hrender _)⟩
  · -- several lots: the cells of the item are left empty
    have hempty : render (some "") = "" := (hrender (some "")).eq_empty
    refine ⟨_, _, _, rfl, ?_⟩
    rw [hempty, if_neg (by simp)]
    exact ⟨readsAs_none_empty, readsAs_none_empty, readsAs_none_empty⟩

/-- The row of an item shows its values exactly if the item has lots. Other cells may follow. -/
theorem itemCells_read_iff (serNo : ℕ) (bids : Bids) (more : List String) :
    RowReads (itemValues serNo bids) (fun c => (itemCells render serNo bids
        bids.bidItem.categoryName bids.bidItem.quantity ++ more)[c]?.getD "") ↔
      bids.bidItem.itemLots ≠ [] := by
  constructor
  · -- without lots, the quantity stands below the header of the remark
    intro hreads hnil
    have hquantity : (itemCells render serNo bids bids.bidItem.categoryName
        bids.bidItem.quantity ++ more)[5]? =
        some (render (some (measureText bids.bidItem.quantity bids.bidItem.getUnit))) := by
      unfold itemCells
      rw [hnil]
      rfl
    have htext : ReadsAs none ((itemCells render serNo bids bids.bidItem.categoryName
        bids.bidItem.quantity ++ more)[5]?.getD "") :=
      hreads (.remark, none) (by simp [itemValues, onlyLot, hnil])
    rw [hquantity, Option.getD_some] at htext
    have hblank := (hrender (some (measureText bids.bidItem.quantity
      bids.bidItem.getUnit))).blank_iff.mpr (blank_mem_measureText _ _)
    exact absurd (htext.blank_iff.mp hblank) (by decide)
  · intro hlots
    -- with the three cells of the lots every later value is in its column
    obtain ⟨remark, lengthRange, actualLength, hcolumns, hremark, hrange, hlength⟩ :=
      lotColumns_read hrender hlots
    unfold RowReads itemCells itemValues
    rw [hcolumns]
    simp only [List.forall_mem_cons]
    refine ⟨hrender _, hrender _, hrender _, hrender _, hrender _, hremark, hrange, hlength,
      hrender _, hrender _, hrender _, readsAs_orNull.mp (hrender _), hrender _,
      readsAs_priceText hrender _, hrender _, readsAs_priceText hrender _,
      readsAs_statusText hrender _, readsAs_priceText hrender _, readsAs_priceText hrender _, ?_⟩
    intro value hvalue
    cases hvalue

/-- From the third column on, the row of a lot shows its values. -/
theorem lotCells_read {item : ReportItem} {lot : ItemLot} (hquantity : lot.quantity ≠ none) :
    RowReads (lotValues item lot)
      (fun c => if 2 ≤ c then (lotCells render item.categoryName lot)[c - 2]?.getD "" else "") := by
  obtain ⟨quantity, hsome⟩ := Option.ne_none_iff_exists'.mp hquantity
  unfold RowReads lotCells lotValues
  rw [hsome]
  simp only [List.forall_mem_cons]
  refine ⟨readsAs_orNull.mp (hrender _), hrender _, hrender _, hrender _, hrender _, hrender _,
    hrender (some (measureText quantity lot.unit)), ?_⟩
  intro value hvalue
  cases hvalue

/-- From the first column on, it does not: the number would be the name, the name the length
    range, and that the quantity, which has a blank. -/
theorem lotCells_not_read {item : ReportItem} {lot : ItemLot} (hquantity : lot.quantity ≠ none)
    (more : List String) :
    ¬ RowReads (lotValues item lot)
      (fun c => (lotCells render item.categoryName lot ++ more)[c]?.getD "") := by
  intro hreads
  obtain ⟨quantity, hsome⟩ := Option.ne_none_iff_exists'.mp hquantity
  have hnumber : ReadsAs (lot.lotId.map toString) (render lot.name) :=
    hreads (.lotNo, lot.lotId.map toString) (by simp [lotValues])
  have hname : ReadsAs lot.name (render lot.lengthRange) :=
    hreads (.marketName, lot.name) (by simp [lotValues])
  have hrange : ReadsAs lot.lengthRange (render (some (measureText quantity lot.unit))) := by
    have hshown := hreads (.lengthRange, lot.lengthRange) (by simp [lotValues])
    unfold lotCells at hshown
    rw [hsome] at hshown
    exact hshown
  -- a blank is followed through the cells, from the quantity to the number
  have hblank : ' ' ∈ ((lot.lotId.map toString).getD "null").toList := by
    rw [← hnumber.blank_iff, (hrender lot.name).blank_iff, ← hname.blank_iff,
      (hrender lot.lengthRange).blank_iff, ← hrange.blank_iff,
      (hrender (some (measureText quantity lot.unit))).blank_iff]
    exact blank_mem_measureText quantity lot.unit
  cases hid : lot.lotId with
  | none =>
    rw [hid] at hblank
    exact absurd hblank (by decide)
  | some id =>
    rw [hid] at hblank
    exact blank_notMem_toString id hblank

end Cells

end Bidding.Model.Reports
