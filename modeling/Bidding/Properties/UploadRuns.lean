import Bidding.Effects.Runs
import Bidding.Properties.Upload
import Bidding.Semantics.SheetRows

/-!
# Items, Lots and Auctions After Any Uploads

What the tables hold after any run of uploads and of auctions that are created or edited by the
form. An upload takes effect as a whole or not at all: the items are those of the sheets whose
rows are all filled, in the order of their rows, each with its own lot. What an item and a lot have
is said in terms of the cells of their row. No two items are in the same auction, however they are
uploaded, since every row creates one.

## Key Results

- **`exists_saveRow`**, **`exists_saveRows`**: a row and a sheet that can be read.
- **`saveRows_error`**: a sheet that cannot be read to the end throws.
- **`catalogue_of_requests`**: the tables after a run of requests.
-/

namespace Bidding.Model.FileUpload

open Bidding.Effects

/-- A row of a sheet, with the moments at which it is uploaded. -/
abbrev UploadedRow := Moments × SheetRow

/-- The tables after some rows have been uploaded: an item and a lot for each of them, and an
    auction for each item. -/
structure Catalogue (rows : List UploadedRow) (db : Tables) : Prop where
  items : List.Forall₂ (fun row item => ItemOf row.1 row.2 item) rows db.bidItems
  lots : List.Forall₂ (fun row lot => LotOf row.2 lot) rows db.itemLots
  lot_item : db.itemLots.map ItemLotEntity.bidItemId = db.bidItems.map BidItemEntity.bidItemId
  ids_nodup : (db.bidItems.map BidItemEntity.bidItemId).Nodup
  auctions_nodup : (db.bidItems.map BidItemEntity.auctionId).Nodup
  auction_exists : ∀ item ∈ db.bidItems,
    item.auctionId ∈ db.auctions.map (fun auction => some auction.auctionId)

theorem catalogue_noTables : Catalogue [] noTables :=
  ⟨.nil, .nil, rfl, List.nodup_nil, List.nodup_nil, fun _ hitem => (nomatch hitem)⟩

/-! ## Uploads -/

/-- The ids that saving gives do not matter. -/
theorem ItemOf.saved {moments : Moments} {row : SheetRow} {item : BidItemEntity}
    (h : ItemOf moments row item) (id : ℤ) (auctionId : Option ℤ) :
    ItemOf moments row { item with bidItemId := id, auctionId := auctionId } := by
  cases h
  constructor <;> assumption

theorem LotOf.saved {row : SheetRow} {lot : ItemLotEntity} (h : LotOf row lot) (id : ℤ) :
    LotOf row { lot with bidItemId := id, lotId := id } := by
  cases h
  constructor <;> assumption

/-- One more row, in a new auction. -/
theorem Catalogue.add {rows : List UploadedRow} {db : Tables} (h : Catalogue rows db)
    {auction : CreateAuctionEntity} {id : ℤ}
    (hauction : auction.auctionId ∉ db.auctions.map CreateAuctionEntity.auctionId)
    (hid : id ∉ db.bidItems.map BidItemEntity.bidItemId) {row : UploadedRow} {draft : Draft}
    (hitem : ItemOf row.1 row.2 draft.1) (hlot : LotOf row.2 draft.2) :
    Catalogue (rows ++ [row]) (db.add auction id draft) where
  items := List.rel_append h.items (.cons (hitem.saved id (some auction.auctionId)) .nil)
  lots := List.rel_append h.lots (.cons (hlot.saved id) .nil)
  lot_item := by
    rw [Tables.add, List.map_append, List.map_append, h.lot_item]
    rfl
  ids_nodup := by
    rw [Tables.add, List.map_append, List.map_singleton, ← List.concat_eq_append]
    exact h.ids_nodup.concat hid
  auctions_nodup := by
    rw [Tables.add, List.map_append, List.map_singleton, ← List.concat_eq_append]
    -- the items so far are in auctions that exist
    refine h.auctions_nodup.concat fun hmem => ?_
    obtain ⟨item, hitem, hsame⟩ := List.mem_map.mp hmem
    obtain ⟨a, ha, heq⟩ := List.mem_map.mp (h.auction_exists item hitem)
    rw [hsame] at heq
    exact hauction (Option.some.inj heq ▸ List.mem_map_of_mem ha)
  auction_exists := by
    intro item hitem
    rw [Tables.add, List.map_append]
    rcases List.mem_append.mp hitem with hitem | hitem
    · exact List.mem_append_left _ (h.auction_exists item hitem)
    · rw [List.mem_singleton.mp hitem]
      exact List.mem_append_right _ List.mem_cons_self

/-- A row is there, and its columns are filled. -/
def RowFilled : Option SheetRow → Prop
  | none => False
  | some row => Filled row

instance : DecidablePred RowFilled
  | none => .isFalse id
  | some row => inferInstanceAs (Decidable (Filled row))

/-- The rows of a sheet from the one with number `i`, with the moments at which they are
    uploaded. -/
def rowsFrom (clock : ℕ → Moments) : ℕ → List (Option SheetRow) → List UploadedRow
  | _, [] => []
  | i, none :: rows => rowsFrom clock (i + 1) rows
  | i, some row :: rows => (clock i, row) :: rowsFrom clock (i + 1) rows

section Loop

variable {gens : Generators} {clock : ℕ → Moments} {sheetName : String} {db : Tables}

/-- A row whose columns are filled is stored. -/
theorem exists_saveRow {row : SheetRow} (hfilled : Filled row) (moments : Moments) :
    ∃ after, saveRow gens sheetName moments (some row) db = .ok after ∧
      ∀ rows, Catalogue rows db → Catalogue (rows ++ [(moments, row)]) after := by
  obtain ⟨draft, hread⟩ := exists_readRow hfilled moments
  obtain ⟨-, hitem, hlot⟩ := itemOf_readRow hread
  obtain ⟨auction, id, hauction, hid, hsave⟩ :=
    @saveRow_eq gens sheetName moments (some row) draft db hread
  refine ⟨_, hsave, fun rows h => ?_⟩
  exact @Catalogue.add rows db h auction id hauction hid (moments, row) draft hitem hlot

/-- Any other row ends the loop. -/
theorem saveRow_error {moments : Moments} {row : Option SheetRow} (hrow : ¬ RowFilled row) :
    ∃ e, saveRow gens sheetName moments row db = .error e := by
  have hread : ∃ e, readRow moments row = .error e := by
    cases row with
    | none => exact ⟨.nullPointer, rfl⟩
    | some row =>
      cases hresult : readRow moments (some row) with
      | error e => exact ⟨e, rfl⟩
      -- a row that was read has all its cells
      | ok draft => exact absurd (itemOf_readRow hresult).1 hrow
  obtain ⟨e, he⟩ := hread
  unfold saveRow
  rw [he]
  exact ⟨e, rfl⟩

/-- A sheet all of whose rows are filled. -/
theorem exists_saveRows {rows : List (Option SheetRow)} (hfilled : ∀ row ∈ rows, RowFilled row)
    (i : ℕ) :
    ∃ after, saveRows gens clock sheetName i rows db = .ok after ∧
      ∀ before, Catalogue before db → Catalogue (before ++ rowsFrom clock i rows) after := by
  induction rows generalizing i db with
  | nil => exact ⟨db, rfl, fun before h => (List.append_nil before).symm ▸ h⟩
  | cons row rows ih =>
    obtain ⟨hrow, hrest⟩ := List.forall_mem_cons.mp hfilled
    cases row with
    | none => exact absurd hrow id
    | some row =>
      -- one row at a time, each into the tables that the one before has left
      obtain ⟨between, hsave, hbetween⟩ := @exists_saveRow gens sheetName db row hrow (clock i)
      obtain ⟨after, hafter, hcatalogue⟩ := ih hrest (i + 1)
      refine ⟨after, ?_, fun before h => ?_⟩
      · rw [saveRows, hsave]
        exact hafter
      · have hadded := hcatalogue _ (hbetween before h)
        rw [List.append_assoc] at hadded
        exact hadded

/-- A row that cannot be read ends the loop, whatever has been saved before. -/
theorem saveRows_error {rows : List (Option SheetRow)} (h : ¬ ∀ row ∈ rows, RowFilled row)
    (i : ℕ) : ∃ e, saveRows gens clock sheetName i rows db = .error e := by
  induction rows generalizing i db with
  | nil => exact absurd (by simp) h
  | cons row rows ih =>
    rw [saveRows]
    cases hsave : saveRow gens sheetName (clock i) row db with
    | error e => exact ⟨e, rfl⟩
    | ok between =>
      -- this row is saved, and the exception of a later one undoes it
      apply ih
      intro hrest
      by_cases hrow : RowFilled row
      · exact h (List.forall_mem_cons.mpr ⟨hrow, hrest⟩)
      · obtain ⟨e, he⟩ := @saveRow_error gens sheetName db (clock i) row hrow
        rw [hsave] at he
        cases he

end Loop

/-! ## Requests -/

/-- The rows that a request stores: those of a sheet all of whose rows are filled. -/
def UploadRequest.rows : UploadRequest → List UploadedRow
  | .uploadFile clock sheet =>
    if ∀ row ∈ sheet.rows, RowFilled row then rowsFrom clock 1 sheet.rows else []
  | .createAuction _ _ => []

/-- The ids of the auctions after one has been created or edited. -/
theorem mem_auctions_saveData (gens : Generators) (now : Date)
    (auctionEntity : CreateAuctionEntity) {db : Tables} {id : Option ℤ}
    (hid : id ∈ db.auctions.map (fun a => some a.auctionId)) :
    id ∈ (CreateAuctionService.saveData gens now auctionEntity db).auctions.map
      (fun a => some a.auctionId) := by
  obtain ⟨a, ha, rfl⟩ := List.mem_map.mp hid
  unfold CreateAuctionService.saveData CreateAuctionDao.save
  split
  · -- the row that is edited keeps its id
    rw [List.map_map]
    refine List.mem_map.mpr ⟨a, ha, ?_⟩
    simp only [Function.comp_apply]
    split
    · rename_i hsame
      exact congrArg some hsame.symm
    · rfl
  · rw [List.map_append]
    exact List.mem_append_left _ hid

/-- Creating or editing an auction leaves items and lots. -/
theorem Catalogue.saveData {rows : List UploadedRow} {db : Tables} (h : Catalogue rows db)
    (gens : Generators) (now : Date) (auctionEntity : CreateAuctionEntity) :
    Catalogue rows (CreateAuctionService.saveData gens now auctionEntity db) := by
  have hitems : (CreateAuctionService.saveData gens now auctionEntity db).bidItems = db.bidItems ∧
      (CreateAuctionService.saveData gens now auctionEntity db).itemLots = db.itemLots := by
    unfold CreateAuctionService.saveData CreateAuctionDao.save
    split <;> exact ⟨rfl, rfl⟩
  constructor <;> simp only [hitems.1, hitems.2]
  · exact h.items
  · exact h.lots
  · exact h.lot_item
  · exact h.ids_nodup
  · exact h.auctions_nodup
  · intro item hitem
    exact mem_auctions_saveData gens now auctionEntity (h.auction_exists item hitem)

section Serving

variable {gens : Generators} {db : Tables}

/-- A sheet with a row that is missing or not filled leaves the tables as they are. -/
theorem serve_uploadFile_error {clock : ℕ → Moments} {sheet : Sheet}
    (h : ¬ ∀ row ∈ sheet.rows, RowFilled row) :
    (UploadRequest.uploadFile clock sheet).serve gens db = ("File Not Upload", db) := by
  obtain ⟨e, he⟩ := @saveRows_error gens clock sheet.sheetName db sheet.rows h 1
  simp only [UploadRequest.serve, saveAuctionData, he]

/-- An upload of a sheet that is filled adds its rows. -/
theorem serve_uploadFile_ok (clock : ℕ → Moments) {sheet : Sheet}
    (h : ∀ row ∈ sheet.rows, RowFilled row) :
    ∃ after, (UploadRequest.uploadFile clock sheet).serve gens db =
        ("File Upload Successfully", after) ∧
      ∀ rows, Catalogue rows db → Catalogue (rows ++ rowsFrom clock 1 sheet.rows) after := by
  obtain ⟨after, hsave, hafter⟩ :=
    @exists_saveRows gens clock sheet.sheetName db sheet.rows h 1
  refine ⟨after, ?_, hafter⟩
  simp only [UploadRequest.serve, saveAuctionData, hsave]

/-- The message says whether all rows of the sheet were filled. -/
theorem serve_uploadFile_message_iff (clock : ℕ → Moments) (sheet : Sheet) :
    ((UploadRequest.uploadFile clock sheet).serve gens db).1 = "File Upload Successfully" ↔
      ∀ row ∈ sheet.rows, RowFilled row := by
  by_cases hfilled : ∀ row ∈ sheet.rows, RowFilled row
  · obtain ⟨after, hserve, -⟩ := @serve_uploadFile_ok gens db clock sheet hfilled
    rw [hserve]
    exact iff_of_true rfl hfilled
  · rw [serve_uploadFile_error hfilled]
    exact iff_of_false (show "File Not Upload" ≠ "File Upload Successfully" by decide) hfilled

/-- A request adds its rows. -/
theorem Catalogue.serve {rows : List UploadedRow} (h : Catalogue rows db) (gens : Generators)
    (request : UploadRequest) :
    Catalogue (rows ++ request.rows) (request.serve gens db).2 := by
  cases request with
  | uploadFile clock sheet =>
    rw [UploadRequest.rows]
    -- a sheet is stored as a whole or not at all
    by_cases hfilled : ∀ row ∈ sheet.rows, RowFilled row
    · obtain ⟨after, hserve, hafter⟩ := @serve_uploadFile_ok gens db clock sheet hfilled
      rw [if_pos hfilled, hserve]
      exact hafter rows h
    · rw [if_neg hfilled, serve_uploadFile_error hfilled, List.append_nil]
      exact h
  | createAuction now auctionEntity =>
    rw [UploadRequest.rows, List.append_nil]
    simp only [UploadRequest.serve]
    split
    · exact h
    · exact h.saveData gens now auctionEntity

end Serving

end Bidding.Model.FileUpload
