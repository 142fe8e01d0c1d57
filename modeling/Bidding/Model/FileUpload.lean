import Bidding.Model.Types

/-!
# The Upload of a Sheet

`FileUploadServiceImp.saveAuctionData` reads the rows of a spreadsheet and stores, for each row,
an auction (`CreateAuctionDaoImp.save`), an item and its lot
(`FileUploadDaoImp.saveAuctionDataDao`). Auctions are also created and edited by a form.

## Modelling choices

- A cell has a text or a number, or it is blank. Reading a cell that is missing is a null
  dereference, and reading one of another kind a runtime exception.
- The ids are generated by the database: a new id is one that is not in use. The lot has no
  generator of its own, it gets the id of the item.
- The method is a transaction: after an exception the tables are as before, so that it returns
  the new tables or an exception.
- Attributes that are set to `null`, or not set, are left out.
-/

namespace Bidding.Model.FileUpload

/-! ## Sheets -/

/-- A cell of a sheet; `other` is a boolean or an error. -/
inductive Cell where
  | text (s : String)
  | number (q : ℚ)
  | blank
  | other
  deriving DecidableEq

/-- A row of a sheet: its cells by column, from column `0`. -/
abbrev SheetRow := List (Option Cell)

/-- A sheet: its name and the rows below the first one, which has the headers. -/
structure Sheet where
  sheetName : String
  rows : List (Option SheetRow)

/-- `row.getCell(column).getStringCellValue()` -/
def getStringCellValue (row : SheetRow) (column : ℕ) : Except Exn String :=
  match row[column]?.join with
  | none => .error .nullPointer
  | some (.text s) => .ok s
  | some .blank => .ok ""
  | some (.number _) => .error .runtime
  | some .other => .error .runtime

/-- `row.getCell(column).getNumericCellValue()` -/
def getNumericCellValue (row : SheetRow) (column : ℕ) : Except Exn ℚ :=
  match row[column]?.join with
  | none => .error .nullPointer
  | some (.number q) => .ok q
  | some .blank => .ok 0
  | some (.text _) => .error .runtime
  | some .other => .error .runtime

/-! ## Entities and tables -/

/-- `CreateAuctionEntity` -/
structure CreateAuctionEntity where
  auctionId : ℤ
  name : String
  isApproved : String
  status : String
  createdTime : Date
  deriving DecidableEq

/-- `BidItemEntity` -/
structure BidItemEntity where
  bidItemId : ℤ
  auctionId : Option ℤ
  name : String
  location : String
  city : String
  minBidPrice : ℚ
  minBidIncrement : ℚ
  timeExtn : ℤ
  statusCode : String
  categoryId : ℤ
  marketId : ℤ
  currency : String
  lastUpdateTime : Date
  createdTime : Date
  autobidid : ℤ
  serialNumber : Text
  currentMarketPrice : ℚ
  initialStartTime : ℤ
  nocolum : String
  deriving DecidableEq

/-- `ItemLotEntity` -/
structure ItemLotEntity where
  lotId : ℤ
  bidItemId : ℤ
  name : String
  lengthRange : String
  quantity : ℤ
  currency : String
  remark : String
  zone : String
  lotno : ℤ
  deriving DecidableEq

/-- The tables `auction`, `biditem` and `itemlot`. -/
structure Tables where
  auctions : List CreateAuctionEntity
  bidItems : List BidItemEntity
  itemLots : List ItemLotEntity
  deriving DecidableEq

/-- The generators of ids: each gives one that is not in use, for an item also not as the id of
    a lot. -/
structure Generators where
  nextAuctionId : Tables → ℤ
  nextBidItemId : Tables → ℤ
  auctionId_fresh : ∀ db, nextAuctionId db ∉ db.auctions.map CreateAuctionEntity.auctionId
  bidItemId_fresh : ∀ db, nextBidItemId db ∉ db.bidItems.map BidItemEntity.bidItemId
  lotId_fresh : ∀ db, nextBidItemId db ∉ db.itemLots.map ItemLotEntity.lotId

/-- What the clock shows in one turn of the loop. -/
structure Moments where
  lastUpdateTime : Date
  createdTime : Date
  auctionTime : Date

/-! ## Saving -/

section Saving

variable (gens : Generators)

/-- `CreateAuctionDaoImp.save`, with the id as text if the entity is new. -/
def CreateAuctionDao.save (auctionEntity : CreateAuctionEntity) (db : Tables) :
    Option Text × Tables :=
  if auctionEntity.auctionId ≠ 0 then
    -- an `update` answers no id
    (none, { db with auctions := db.auctions.map (fun a =>
      if a.auctionId = auctionEntity.auctionId then auctionEntity else a) })
  else
    let id := gens.nextAuctionId db
    (some (.long id),
      { db with auctions := db.auctions ++ [{ auctionEntity with auctionId := id }] })

/-- `saveAuctionDataDao`: the lot gets the id of the item. -/
def FileUploadDao.saveAuctionDataDao (itemLotEntity : ItemLotEntity)
    (bidItemEntity : BidItemEntity) (db : Tables) : Tables :=
  let id := gens.nextBidItemId db
  { db with
    bidItems := db.bidItems ++ [{ bidItemEntity with bidItemId := id }]
    itemLots := db.itemLots ++ [{ itemLotEntity with bidItemId := id, lotId := id }] }

/-- The item and the lot of a row before they are saved. -/
def readRow (moments : Moments) (row : Option SheetRow) :
    Except Exn (BidItemEntity × ItemLotEntity) :=
  match row with
  | none => .error .nullPointer
  | some row => do
    -- the cells in the order in which they are read, which decides on the exception
    let name ← getStringCellValue row 4
    let location ← getStringCellValue row 15
    let city ← getStringCellValue row 16
    let minBidPrice ← getNumericCellValue row 11
    let minBidIncrement ← getNumericCellValue row 12
    let timeExtn ← getNumericCellValue row 13
    let currency ← getStringCellValue row 14
    let serialNumber ← getNumericCellValue row 0
    let currentMarketPrice ← getNumericCellValue row 10
    let nocolum ← getStringCellValue row 6
    let lengthRange ← getStringCellValue row 7
    let quantity ← getNumericCellValue row 8
    let remark ← getStringCellValue row 5
    let zone ← getStringCellValue row 9
    let lotno ← getNumericCellValue row 3
    .ok ({
      bidItemId := 0
      auctionId := none
      name := name
      location := location
      city := city
      minBidPrice := minBidPrice
      minBidIncrement := minBidIncrement
      -- numbers are doubles, cast to `int` for these columns
      timeExtn := doubleToInt timeExtn
      statusCode := "Start"
      -- category and market are fixed in the code
      categoryId := 2
      marketId := 1
      currency := currency
      lastUpdateTime := moments.lastUpdateTime
      createdTime := moments.createdTime
      autobidid := 0
      serialNumber := .double serialNumber
      currentMarketPrice := currentMarketPrice
      initialStartTime := 3
      nocolum := nocolum }, {
      lotId := 0
      bidItemId := 0
      name := name
      lengthRange := lengthRange
      quantity := doubleToInt quantity
      currency := currency
      remark := remark
      zone := zone
      lotno := doubleToInt lotno })

/-- The auction that a turn of the loop creates. -/
def newAuction (sheetName : String) (moments : Moments) : CreateAuctionEntity where
  auctionId := 0
  name := sheetName
  isApproved := "0"
  status := "Start"
  createdTime := moments.auctionTime

/-- One turn of the loop of `saveAuctionData`. -/
def saveRow (sheetName : String) (moments : Moments) (row : Option SheetRow) (db : Tables) :
    Except Exn Tables := do
  let (bidItemEntity, itemLotEntity) ← readRow moments row
  -- inside of the loop: each row gets an auction of its own
  let (auctionId, db) := CreateAuctionDao.save gens (newAuction sheetName moments) db
  match auctionId with
  | none => .ok db
  | some auctionId => do
    let id ← Text.parseLong (some auctionId)
    .ok (FileUploadDao.saveAuctionDataDao gens itemLotEntity
      { bidItemEntity with auctionId := some id } db)

/-- The loop over the rows from the one with number `i`. -/
def saveRows (clock : ℕ → Moments) (sheetName : String) :
    ℕ → List (Option SheetRow) → Tables → Except Exn Tables
  | _, [], db => .ok db
  | i, row :: rows, db => do
    let db ← saveRow gens sheetName (clock i) row db
    saveRows clock sheetName (i + 1) rows db

/-- `saveAuctionData` -/
def saveAuctionData (clock : ℕ → Moments) (sheet : Sheet) (db : Tables) : Except Exn Tables :=
  saveRows gens clock sheet.sheetName 1 sheet.rows db

/-- `CreateAuctionServiceImp.saveData`, at the time `now` -/
def CreateAuctionService.saveData (now : Date) (auctionEntity : CreateAuctionEntity)
    (db : Tables) : Tables :=
  (CreateAuctionDao.save gens { auctionEntity with createdTime := now } db).2

end Saving

/-! ## Requests -/

/-- The requests of the administrator that write the tables. -/
inductive UploadRequest where
  /-- `/admin/uploadFile` -/
  | uploadFile (clock : ℕ → Moments) (sheet : Sheet)
  /-- `/admin/createAuction`; with an id it is the form of an auction that is edited -/
  | createAuction (now : Date) (auctionEntity : CreateAuctionEntity)

/-- Serve a request: the message of its page, and the tables. What an upload throws is caught by
    the handler, after its transaction has been undone. An auction that is edited and does not
    exist is found out by the database. -/
def UploadRequest.serve (gens : Generators) (db : Tables) : UploadRequest → String × Tables
  | .uploadFile clock sheet =>
    match saveAuctionData gens clock sheet db with
    | .ok after => ("File Upload Successfully", after)
    -- one bad row undoes the whole sheet
    | .error _ => ("File Not Upload", db)
  | .createAuction now auctionEntity =>
    if auctionEntity.auctionId ≠ 0 ∧
        auctionEntity.auctionId ∉ db.auctions.map CreateAuctionEntity.auctionId then
      ("Not Submitted", db)
    else
      ("Submitted Successfully", CreateAuctionService.saveData gens now auctionEntity db)

end Bidding.Model.FileUpload
