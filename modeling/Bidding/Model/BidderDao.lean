import Bidding.Model.CommonDao

/-!
# Data Access of Bidders and Observers

The methods of `BidderDaoImpl` on the auto-bids and on the closed market, and the observer's
decision on a closed item (`ObserverDaoImpl.getH1Approved`), as functions on the tables.

## Modelling choices

- `bidItem.getAutoBids()` are the rows of the item at the start of the call. What a method
  changes is in the tables when it returns; a method that throws leaves them as they were.
- The rows of a table stand in the order of their creation. A new row of `autobids` gets an id
  above all ids in use.
- How the JDK folds the case of a character is the parameter `fold`. Queries compare texts
  exactly.
- An item that is listed twice is one object in the session; here each of its listings has
  the number of its own row of the sequence.
- The mail to an approved bidder is left out; its exceptions are caught.
-/

namespace Bidding.Model

open Bidding.Collections

namespace BidderDao

/-- `getBidItem`: the item of a row; the id is the row's primary key. -/
def getBidItem (db : Db) (bidItemId : ℤ) : Option BidItem :=
  (db.bidItems bidItemId).map
    (fun row => { row.persistent with bidItemId := some bidItemId })

/-! ## Auto-bids -/

/-- `String.equalsIgnoreCase` -/
def equalsIgnoreCase (fold : Char → Char) (a b : String) : Bool :=
  a.toList.map fold = b.toList.map fold

/-- The id that the database gives to a new row of `autobids`. -/
def nextAutoBidId (db : Db) : ℤ :=
  -- rows are never deleted, so a new id is above all of them
  (db.autoBids.map AutoBids.autoBidId).foldl max 0 + 1

/-- `initializeAutoBid`. A missing item is a null dereference; a row without an auction is
    refused by its table. -/
def initializeAutoBid (now : Date) (db : Db) (userName : String) (bidItemId : ℤ)
    (bidAmount : ℚ) (auctionId : Option ℤ) : Except Exn AutoBids :=
  match db.bidItems bidItemId, auctionId.bind db.auctions with
  -- the item is dereferenced first
  | none, _ => .error .nullPointer
  -- the column of the auction is not nullable
  | some _, none => .error .runtime
  | some _, some _ => .ok {
      autoBidId := nextAutoBidId db
      bidItemId := bidItemId
      bidAmount := bidAmount
      bidTime := now
      bidStatus := "A"
      bidderName := userName }

/-- `setBidStatus("I")` on the rows that are selected. -/
def deactivate (selected : AutoBids → Bool) (autoBids : List AutoBids) : List AutoBids :=
  autoBids.map (fun a => if selected a then { a with bidStatus := "I" } else a)

/-- `saveAutoBid`: the names are compared without regard to case. -/
def saveAutoBid (fold : Char → Char) (now : Date) (db : Db) (userName : String)
    (bidItemId : ℤ) (bidAmount : ℚ) (auctionId : ℤ) : Except Exn Db := do
  let autoBid ← initializeAutoBid now db userName bidItemId bidAmount (some auctionId)
  .ok { db with
    autoBids := deactivate
      (fun a => a.bidItemId = bidItemId && equalsIgnoreCase fold a.bidderName userName)
      db.autoBids ++ [autoBid]
    bidItems := Function.update db.bidItems bidItemId ((db.bidItems bidItemId).map
      (fun item => { item with currentAutoBidId := some autoBid.autoBidId })) }

/-- `deleteAutoBid`: the row is found by its id alone. -/
def deleteAutoBid (db : Db) (autoBidId : ℤ) : Db :=
  { db with autoBids := deactivate (fun a => a.autoBidId = autoBidId) db.autoBids }

/-- `saveAutoBidOrBidsAfterDoBid`. A row of `bids` needs an id that nobody sets, so saving one
    (type `1`) throws. For an auto-bid the names are compared exactly. -/
def saveAutoBidOrBidsAfterDoBid (now : Date) (db : Db) (userName : String) (bidItemId : ℤ)
    (bidAmount : ℚ) (bidType : ℤ) : Except Exn Db :=
  if bidType = 1 then .error .runtime
  else do
    -- the auction of the item, not that of the request
    let auctionId := (db.bidItems bidItemId).bind BidItem.auctionId
    let autoBid ← initializeAutoBid now db userName bidItemId bidAmount auctionId
    .ok { db with
      autoBids := deactivate
        (fun a => a.bidItemId = bidItemId && a.bidderName = userName) db.autoBids ++ [autoBid] }

/-! ## The closed market -/

/-- `CommonVO`, as the closed market reads it. -/
structure CommonVO where
  userName : String
  auctionId : ℤ
  sequenceId : ℤ
  firstResult : ℕ
  maxResult : ℕ

/-- The category of an item, as the queries compare it. -/
def categoryIdOf (item : BidItem) : Option ℤ := item.category.bind Category.categoryId

/-- The condition that the lists of a bidder impose: a row of `biddercategory` for the user,
    the auction and the item's category. -/
def isMapped (userName : String) (auctionId : ℤ) (item : BidItem) (c : BidderCategory) : Bool :=
  c.username = userName && c.auctionId = auctionId && categoryIdOf item = some c.categoryId

/-- The rows of the query of the closed market for one row of the sequence: one for each
    mapping of the user to the item's category. -/
def closedRows (db : Db) (vo : CommonVO) (bidSeq : BidSequence) : List (BidItem × BidSequence) :=
  match getBidItem db bidSeq.bidItemId with
  | none => []
  | some bidItem =>
    -- a mapping that is stored twice lists the item twice
    (db.bidderCategories.filter (isMapped vo.userName vo.auctionId bidItem)).map
      (fun _ => (bidItem, bidSeq))

/-- `order by bidSeq.sequenceId` -/
def compareSequence (o1 o2 : BidSequence) : ℤ := o1.sequenceId - o2.sequenceId

/-- The query of the closed market, with its page. -/
def closedQuery (db : Db) (vo : CommonVO) : List (BidItem × BidSequence) :=
  let sequence := db.bidSequence.filter (fun s => s.auctionId = vo.auctionId &&
    -- with the number `0` the condition on the numbers is left out of the query
    (vo.sequenceId = 0 || s.sequenceId < vo.sequenceId))
  let rows := (sort compareSequence sequence).flatMap (closedRows db vo)
  (rows.drop vo.firstResult).take vo.maxResult

/-- What the loop of the closed market stores in an item. -/
def markWon (userName : String) (item : BidItem) (bidSeq : BidSequence) : BidItem :=
  { item with
    seqId := bidSeq.sequenceId
    -- the name in the item's row is that of the last decision, a rejection included
    status := if item.bidderName = some userName then some "Won" else item.status }

/-- `getBidItemsForCategoryForClosedMarketForBidder` -/
def getBidItemsForCategoryForClosedMarketForBidder (db : Db) (vo : CommonVO) : List BidItem :=
  (closedQuery db vo).map (fun row => markWon vo.userName row.1 row.2)

/-- `getWonBids` -/
def getWonBids (db : Db) (bidderName : String) : List BidItem :=
  -- one entry for each approval, whatever was decided after it
  (db.closedBids.filter (fun c => c.bidderName = some bidderName)).filterMap
    (fun c => getBidItem db c.bidItemId)

end BidderDao

namespace ObserverDao

/-- `ObserverVO`, as the decision reads it. -/
structure ObserverVO where
  bidItemId : ℤ
  bidAmount : Option ℚ
  bidderName : Option String
  bidStatus : BidStatus
  deriving DecidableEq

/-- The row of `closedbids` of a decision; a rejection has none. -/
def closeBids (vo : ObserverVO) (userName : String) : List CloseBids :=
  if vo.bidStatus = .rejected then []
  else [⟨vo.bidItemId, vo.bidStatus, vo.bidAmount, vo.bidderName, userName⟩]

/-- `getH1Approved`, with all saves succeeding. A missing item is a null dereference. -/
def getH1Approved (db : Db) (vo : ObserverVO) (userName : String) : Except Exn Db :=
  match db.bidItems vo.bidItemId with
  | none => .error .nullPointer
  | some bidItem => .ok { db with
      bidItems := Function.update db.bidItems vo.bidItemId (some { bidItem with
        isProcessed := some vo.bidStatus
        -- the name is set for every decision, a rejection included
        bidderName := vo.bidderName })
      closedBids := db.closedBids ++ closeBids vo userName }

end ObserverDao

end Bidding.Model
