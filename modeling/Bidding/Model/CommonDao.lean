import Mathlib.Logic.Function.Basic
import Bidding.Collections.Sort
import Bidding.Model.Types

/-!
# Data Access

`BidItem`'s bidder list and the queries and updates of `CommonDaoImpl`, as functions on
the tables.

## Modelling choices

- A loaded `BidItem` is a managed object: what a method changes in its columns is in the
  row when the method's transaction commits. Methods that change a row return the new
  tables.
- An update whose `where` clause matches no row changes nothing.
- Every `new Date()` inside a method is one of the times `times 0, times 1, …` that the
  caller passes in.
-/

namespace Bidding.Model

open Bidding.Collections

/-! ## Bidders of an item -/

/-- `BidderAmountComparator.compare` -/
def compareBidders (o1 o2 : Bidder) : ℤ :=
  if o2.currentBidAmount ≠ o1.currentBidAmount then
    -- the difference is cast to `int`: less than one is no difference
    doubleToInt (o2.currentBidAmount - o1.currentBidAmount)
  else
    -- and here the low 32 bits of the milliseconds count
    toInt32 (o1.biddingTime - o2.biddingTime)

/-- `addBidder` on the list: a bidder of the same name is replaced in its place. -/
def putBidder (l : List Bidder) (bidder : Bidder) : List Bidder :=
  match l.findIdx? (fun b => b.bidderName = bidder.bidderName) with
  -- `Bidder.equals` compares the names
  | some i => l.set i bidder
  | none => l ++ [bidder]

namespace BidItem

/-- `BidItem.addBidder` -/
def addBidder (item : BidItem) (bidder : Bidder) : BidItem :=
  { item with currentBiddersList := putBidder item.currentBiddersList bidder }

/-- The effect of `BidItem.getCurrentBidderList`, which sorts the list in its place. -/
def sortBidders (item : BidItem) : BidItem :=
  { item with currentBiddersList := sort compareBidders item.currentBiddersList }

end BidItem

namespace CommonDao

/-! ## Resolution of the stored auto-bids -/

/-- The comparator of `getBidItem`. It compares two boxed amounts by reference, and the
    boxes of two rows are never the same object, so the branch on the bid time is never
    taken; on one and the same row both branches answer `0`. -/
def compareAutoBids (o1 o2 : AutoBids) : ℤ :=
  doubleToInt (o2.bidAmount - o1.bidAmount)

/-- `a + b` on boxed numbers. -/
def unboxAdd : Option ℚ → Option ℚ → Except Exn ℚ
  | some a, some b => .ok (a + b)
  | _, _ => .error .nullPointer

/-- The bidder of one auto-bid. -/
def autoBidder (a : AutoBids) (amount : ℚ) (max : Option ℚ) (time : Date) : Bidder where
  bidderName := some a.bidderName
  currentBidAmount := amount
  isAutoBid := true
  biddingTime := time
  autoBidMaxAnount := max

/-- The auto-bid that is recorded as the leading one. -/
def recordAutoBid (item : BidItem) (a : AutoBids) : BidItem :=
  { item with
    autoBidFlag := true
    amountAutoBid := some a.bidAmount
    currentAutoBidId := some a.autoBidId
    autoBidderName := some a.bidderName }

/-- The loop over the auto-bids after the first. -/
def addOthers (times : ℕ → Date) : ℕ → List AutoBids → BidItem → BidItem
  | _, [], item => item
  | i, a :: rest, item =>
    addOthers times (i + 1) rest (item.addBidder (autoBidder a a.bidAmount none (times i)))

/-- The opening price of two auto-bids in competition. -/
def openingPrice (item : BidItem) (a0 a1 : AutoBids) : Except Exn ℚ :=
  -- at a tie the price is the common maximum
  if a1.bidAmount = a0.bidAmount then .ok a0.bidAmount
  else unboxAdd (some a1.bidAmount) item.minBidIncrement

/-- The part of `getBidItem` that resolves the active auto-bids of a loaded item. -/
def resolveAutoBids (times : ℕ → Date) (item : BidItem) (autoBids : List AutoBids) :
    Except Exn BidItem :=
  match autoBids with
  | [] =>
    -- without auto-bids the lot opens at the minimum price
    if item.currentMarketPrice = none ∨ item.currentMarketPrice = some 0 then
      .ok { item with currentMarketPrice := item.minBidPrice }
    else
      .ok item
  | [a] => do
    -- the price is not compared with the maximum of the auto-bid
    let price ← unboxAdd item.minBidPrice item.minBidIncrement
    let item := { recordAutoBid item a with currentMarketPrice := some price }
    .ok (item.addBidder (autoBidder a price (some a.bidAmount) (times 0)))
  | _ :: _ :: _ =>
    match sort compareAutoBids autoBids with
    | a0 :: a1 :: rest => do
      let price ← openingPrice item a0 a1
      let item := { recordAutoBid item a0 with currentMarketPrice := some price }
      let item := item.addBidder (autoBidder a0 price (some a0.bidAmount) (times 0))
      .ok (addOthers times 1 (a1 :: rest) item)
    -- the sort has as many rows as the list
    | _ => .ok item

/-- `saveAutoBidResultToBids`: the row to be saved, if any. Each call of
    `getCurrentBidderList` on the way sorts the item's list. -/
def saveAutoBidResultToBids (item : BidItem) (now : Date) : BidItem × List Bid :=
  let item := item.sortBidders.sortBidders.sortBidders
  match item.currentBiddersList with
  | [] => (item, [])
  | first :: _ =>
    (item, [{
      bidItemId := item.bidItemId
      auctionId := item.auctionId
      -- the price of the item, not the amount of the first bidder
      bidAmount := item.currentMarketPrice
      comments := "Auto Bid First Winner"
      bidType := 2
      bidTime := now
      bidderName := first.bidderName
      status := "SUCCESS"
      currency := "INR" }])

/-- The auto-bids that `getBidItem` queries. -/
def activeAutoBids (db : Db) (bidItemId : ℤ) : List AutoBids :=
  db.autoBids.filter (fun a => a.bidItemId = bidItemId && a.bidStatus = "A")

/-- Number of `new Date()` in `getBidItem`: one for each bidder and one for the saved bid. -/
def clockReads (db : Db) (bidItemId : ℤ) : ℕ :=
  match activeAutoBids db bidItemId with
  | [] => 0
  | _ :: rest => rest.length + 2

/-- Write the columns of a managed item to its row. -/
def flush (db : Db) (bidItemId : ℤ) (item : BidItem) : Db :=
  { db with bidItems := Function.update db.bidItems bidItemId (some item.persistent) }

/-- `CommonDaoImpl.getBidItem`. An unknown id is a null dereference. -/
def getBidItem (times : ℕ → Date) (db : Db) (bidItemId : ℤ) : Except Exn (BidItem × Db) :=
  match db.bidItems bidItemId with
  | none => .error .nullPointer
  | some row => do
    let autoBids := activeAutoBids db bidItemId
    -- the id is the primary key of the row
    let loaded := { row.persistent with bidItemId := some bidItemId }
    let item ← resolveAutoBids times loaded autoBids
    -- the item is managed, so that its columns are written with the commit
    let (item, saved) := saveAutoBidResultToBids item (times autoBids.length)
    .ok (item, flush { db with bids := db.bids ++ saved } bidItemId item)

/-- `CommonDaoImpl.updateBidItem`. A `null` item, one without id or one without a row is a
    null dereference. -/
def updateBidItem (db : Db) (bidItem : Option BidItem) : Except Exn Db :=
  match bidItem with
  | none => .error .nullPointer
  | some item =>
    match item.bidItemId with
    | none => .error .nullPointer
    | some id =>
      match db.bidItems id with
      | none => .error .nullPointer
      | some dbBidItem =>
        -- only these columns are taken from the cached item
        .ok { db with bidItems := Function.update db.bidItems id (some { dbBidItem with
          bidStartTime := item.bidStartTime
          bidEndTime := item.bidEndTime
          lastUpDateTime := item.lastUpDateTime
          currentMarketPrice := item.currentMarketPrice
          statusCode := some "END" }) }

/-! ## Auctions -/

/-- An update of the row of one auction. -/
def updateAuction (db : Db) (auctionId : ℤ) (f : Auction → Auction) : Db :=
  { db with auctions := Function.update db.auctions auctionId ((db.auctions auctionId).map f) }

/-- `CommonDaoImpl.getActualAuctionStartTime` -/
def getActualAuctionStartTime (db : Db) (auctionId : ℤ) : Option Date :=
  (db.auctions auctionId).bind Auction.auctionStartTime

/-- `CommonDaoImpl.setActualAuctionStartTime` -/
def setActualAuctionStartTime (db : Db) (auctionId : ℤ) (actualAuctionStartTime now : Date) :
    Db :=
  updateAuction db auctionId (fun auction => { auction with
    status := .running
    auctionStartTime := some actualAuctionStartTime
    lastUpdateTime := now })

/-- `CommonDaoImpl.setAuctionEndTime` -/
def setAuctionEndTime (db : Db) (auctionId : ℤ) (auctionEndTime now : Date) : Db :=
  updateAuction db auctionId (fun auction => { auction with
    auctionEndTime := some auctionEndTime
    status := .ended
    lastUpdateTime := now })

/-- The day of a date, which is what `Query.setDate` sends. -/
def dayOf (d : Date) : Date := d / 86400000 * 86400000

/-- `CommonDaoImpl.closeAuction` -/
def closeAuction (db : Db) (auctionId : ℤ) (auctionEndTime now : Date) : Db :=
  updateAuction db auctionId (fun auction => { auction with
    auctionEndTime := some (dayOf auctionEndTime)
    lastUpdateTime := dayOf now
    status := .closed })

/-- `CommonDaoImpl.isValidAuction`. An unknown id is a null dereference. -/
def isValidAuction (db : Db) (auctionId : ℤ) : Except Exn Bool :=
  match db.auctions auctionId with
  | none => .error .nullPointer
  | some auction => .ok (auction.status = .start && auction.isApproved = "1")

/-- `CommonDaoImpl.getCurrentBidSequence` -/
def getCurrentBidSequence (db : Db) (auctionId : ℤ) : List BidSequence :=
  db.bidSequence.filter (fun s => s.auctionId = auctionId)

/-- `CommonDaoImpl.getCategoryList` of a user -/
def getCategoryList (db : Db) (userName : String) (auctionId : ℤ) : List BidderCategory :=
  db.bidderCategories.filter (fun c => c.username = userName && c.auctionId = auctionId)

/-- `CommonDaoImpl.getMaxBidId` -/
def getMaxBidId (db : Db) : ℤ := db.maxBidId.getD 1000

/-- `CommonDaoImpl.getMaxAutoBidId` -/
def getMaxAutoBidId (db : Db) : ℤ := db.maxAutoBidId.getD 1000

end CommonDao

/-- `CreateAuctionDaoImp.save`, in the columns of an auction that are read when it is started. With
    an id the row is overwritten, and an exception leaves a table without such a row as it was.
    Without an id there is a new row `newId`, with the defaults of the table in the columns that
    the entity does not have. -/
def CreateAuctionDao.save (db : Db) (newId : ℤ) (defaults : Auction) (auctionId : ℤ)
    (status : AuctionStatus) (isApproved : String) : Db :=
  if auctionId ≠ 0 then
    CommonDao.updateAuction db auctionId (fun auction => { auction with
      status := status
      isApproved := isApproved })
  else
    { db with auctions := Function.update db.auctions newId (some { defaults with
      status := status
      isApproved := isApproved }) }

end Bidding.Model
