import Bidding.Model.BidItemsCacheService

/-!
# Requests

The web requests that reach the cache, the service or the tables: the administrator's
`initcache` and `closeAuction`, the observer's `doExtendBidding`, the bidder's `doBid` and
page views; and the notification by which the engine publishes a bid.

## Modelling choices

- A text parameter of a request is an `Arg`: missing or empty, not parsable, or a value.
- The views that a request renders and the queries made only for them are left out; what a
  page view does to the cache and the service is kept. For the page `/active` the list of
  items is modelled as well (`activeItems`).
-/

namespace Bidding.Model

open Bidding.Effects Bidding.Effects.Action

/-- A text parameter of a request. -/
inductive Arg (α : Type) where
  /-- missing or empty -/
  | blank
  /-- a text that does not parse -/
  | malformed
  | value (a : α)
  deriving DecidableEq

/-! ## Administrator -/

namespace AdminController

/-- `Calendar.add(Calendar.MINUTE, n)` -/
def addMinutes (d : Date) (n : ℤ) : Date := d + n * 60000

/-- `Long.parseLong(auctionIdStr)`, `null` for an empty text. -/
def parseAuctionId : Arg ℤ → Act (Option ℤ)
  | .blank => pure none
  | .malformed => Action.throw .numberFormat
  | .value id => pure (some id)

/-- The start time that `initcache` computes from its two optional parameters. -/
def startTimeOf (auctionStart : Arg Date) (auctionTimeExt : Arg ℤ) : Act Date :=
  match auctionStart, auctionTimeExt with
  | .value d, _ => pure d
  -- the `ParseException` is caught, and thrown again as a `RuntimeException`
  | .malformed, _ => Action.throw .runtime
  | .blank, .value time => do
    let cal ← now
    -- three minutes are added to the extension
    pure (addMinutes cal (toInt32 (time + 3)))
  | .blank, .malformed => do
    let _ ← now
    Action.throw .numberFormat
  | .blank, .blank => do
    let cal ← now
    pure (addMinutes cal 3)

/-- The part of `initcache` that runs for a valid auction. -/
def startAuction (auctionId : ℤ) (auctionStart : Arg Date) (auctionTimeExt : Arg ℤ) :
    Act Unit := do
  perform .stopAuction .ok
  -- the old auction is gone from the cache before the parameters are parsed
  RedisCacheService.flushDB
  RedisCacheService.setAuctionId auctionId
  perform .restart .ok
  Field.setAuctionId auctionId
  let startTime ← startTimeOf auctionStart auctionTimeExt
  Field.setAuctionStartTime startTime
  -- the row of the auction is running from here on
  Dao.setActualAuctionStartTime auctionId startTime
  BidItemsCacheService.initCache

/-- `initcache` -/
def initcache (auctionStart : Arg Date) (auctionIdStr : Arg ℤ) (auctionTimeExt : Arg ℤ) :
    Act Unit := do
  match ← parseAuctionId auctionIdStr with
  | none => pure ()
  | some auctionId => do
    let valid ← Dao.isValidAuction auctionId
    -- an auction that is running or closed is not started again
    if valid then startAuction auctionId auctionStart auctionTimeExt else pure ()

/-- `closeAuction` -/
def closeAuction (auctionId : ℤ) : Act Unit := do
  Dao.closeAuction auctionId
  perform .stopAuction .ok
  -- a timer of the auction is not cancelled
  RedisCacheService.flushDB

end AdminController

/-! ## Observer -/

namespace ObserverController

/-- `doExtendBidding` -/
def doExtendBidding (bidItemId extendTime : ℤ) : Act Unit := do
  let bidItem ← RedisCacheService.getBidItem bidItemId
  let cal ← now
  match bidItem with
  | none => Action.throw .nullPointer
  | some bidItem => do
    let timeLeft ← BidItemsCacheService.getTimeLeft bidItem
    -- the end is counted from now, with the time left cast to `int`
    let bidEndTime := addSeconds cal (toInt32 (toInt32 timeLeft + extendTime))
    match bidItem.timeExtAfterBid with
    | none => Action.throw .nullPointer
    | some timeExtAfterBid => do
      -- so that the countdown takes the end time, and not the extension after a bid
      let lastUpDateTime := addSeconds bidEndTime (toInt32 (-(timeExtAfterBid + 10)))
      let _ ← RedisCacheService.setBidEndTime bidItemId bidEndTime
      let _ ← RedisCacheService.setBidItemLastUpdateTime bidItemId lastUpDateTime

end ObserverController

/-! ## Bidder -/

/-- The parameters of a bid request, with the user's name. -/
structure BidRequest where
  bidItemId : ℤ
  bidType : ℤ
  bidAmount : ℚ
  userName : String
  comments : String
  deriving DecidableEq

namespace BidderController

/-- The bid that `BidderServiceImpl.doBid` makes of a request and the item it found. -/
def bidCall (bidItemId : ℤ) (request : BidRequest) (bidItem : BidItem) : BidCall where
  bidderName := request.userName
  auctionId := bidItem.auctionId
  bidItemId := bidItemId
  bidAmount := request.bidAmount
  currency := bidItem.currency
  statusCode := bidItem.statusCode
  bidType := request.bidType
  comments := request.comments
  autoBidAmount := if request.bidType = 2 then request.bidAmount else 0

/-- `BidderServiceImpl.doBid` -/
def serviceDoBid (bidItemId : ℤ) (request : BidRequest) : Act Unit := transactional (do
  match ← BidItemsCacheService.getBidItemManaged bidItemId with
  | none => Action.throw .nullPointer
  -- the engine gets every bid; the item's times are not looked at
  | some bidItem => perform (.engineBid (bidCall bidItemId request bidItem)) .ok)

/-- A request's call of `BidItemsCacheService.getBidItem` in a transaction of its own. -/
def proxyGetBidItem (bidItemId : ℤ) : Act (Option BidItem) :=
  transactional (BidItemsCacheService.getBidItemManaged bidItemId)

/-- The answer to an auto-bid, for which `doBid` fetches the item once more. -/
def autoBidAnswer (bidItemId : ℤ) : Act Unit := do
  match ← proxyGetBidItem bidItemId with
  | none => Action.throw .nullPointer
  | some _ => pure ()

/-- `doBid`: the service gets the low 32 bits of the id. -/
def doBid (request : BidRequest) : Act Unit := do
  serviceDoBid (toInt32 request.bidItemId) request
  -- here the id is not narrowed
  if request.bidType = 2 then autoBidAnswer request.bidItemId else pure ()

/-- `commonService.getCategoryList(name)`, as far as the cache is concerned. -/
def getCategoryList : Act Unit := do
  match ← RedisCacheService.getAuctionId with
  | none => pure ()
  | some id => do
    let _ ← ofExcept (Text.parseLong (some id))

/-- The auction and the place in the sequence of the active item. -/
def activeItemDetails : Act Unit := do
  let activeBidItemId ← RedisCacheService.getActiveBidItemId
  match ← RedisCacheService.getBidItemSequenceDetails activeBidItemId with
  | none => Action.throw .nullPointer
  | some details => do
    let _ ← ofExcept (Text.parseLong (details .auctionId))
    let _ ← ofExcept (Text.parseLong (details .sequenceId))

/-- The active item, fetched for a page. -/
def activeBidItem : Act (Option BidItem) := do
  let activeBidItemId ← RedisCacheService.getActiveBidItemId
  proxyGetBidItem activeBidItemId

/-- The page `/marketlist`. -/
def marketList : Act Unit := do
  getCategoryList
  match ← RedisCacheService.isEndSequence with
  | .null => getCategoryList
  | .isTrue => pure ()
  | .isFalse => do
    activeItemDetails
    match ← activeBidItem with
    | none => Action.throw .nullPointer
    | some bidItem => do
      -- once for the attribute of the page, and once for the countdowns
      let _ ← BidItemsCacheService.getTimeLeft bidItem
      let _ ← BidItemsCacheService.getTimeLeft bidItem

/-- The page `/active`. -/
def activeMarket : Act Unit := do
  getCategoryList
  match ← RedisCacheService.isEndSequence with
  | .isFalse => do
    let _ ← activeBidItem
  | _ => pure ()

/-- `commonService.getCategoryList(name)`: the user's rows in the auction of the cache. -/
def bidderCategoryList (name : String) : Act (List BidderCategory) := do
  match ← RedisCacheService.getAuctionId with
  | none => pure []
  | some id => do
    let auctionId ← ofExcept (Text.parseLong (some id))
    Dao.getCategoryList name auctionId

/-- `checkBidderAllowedforThisCategory`. The id is dereferenced once for each row. -/
def checkBidderAllowedforThisCategory (categoryList : List BidderCategory)
    (activeBidItemCategoryid : Option ℤ) : Act Bool :=
  ofExcept (match activeBidItemCategoryid with
    | some id => .ok (categoryList.any (fun cat => id = cat.categoryId))
    | none => if categoryList = [] then .ok false else .error .nullPointer)

/-- `activeBidItem.getCategory().getCategoryId()` -/
def getCategoryId (bidItem : BidItem) : Act (Option ℤ) :=
  ofExcept (match bidItem.category with
    | some c => .ok c.categoryId
    | none => .error .nullPointer)

/-- Whether the page `/active` shows the item on sale. Without a filter, or with the filter
    `0`, the user's categories decide; otherwise the filter alone. -/
def isShown (categoryList : List BidderCategory) (categoryId : ℤ) (activeBidItem : BidItem) :
    Act Bool := do
  let activeBidItemCategoryid ← getCategoryId activeBidItem
  -- a filter is not compared with the user's categories
  if categoryId = 0 then
    checkBidderAllowedforThisCategory categoryList activeBidItemCategoryid
  else do
    let id ← BidItemsCacheService.unbox activeBidItemCategoryid
    pure (decide (categoryId = id))

/-- The item as it is shown: without a price, with the minimum one. -/
def withPrice (bidItem : BidItem) : BidItem :=
  { bidItem with currentMarketPrice := bidItem.currentMarketPrice.or bidItem.minBidPrice }

/-- `bidItemsList` of the page `/active`. -/
def activeItems (name : String) (category : Option ℤ) : Act (List BidItem) := do
  let categoryList ← bidderCategoryList name
  match ← RedisCacheService.isEndSequence with
  | .isFalse => do
    match ← activeBidItem with
    | none => pure []
    | some bidItem => do
      let shown ← isShown categoryList (category.getD 0) bidItem
      pure (if shown then [withPrice bidItem] else [])
  -- before the first lot and after the last one nothing is shown
  | _ => pure []

/-- The page `/closed`. -/
def closedMarket : Act Unit := do
  getCategoryList
  match ← RedisCacheService.isEndSequence with
  | .null => pure ()
  | .isFalse => activeItemDetails
  | .isTrue => getCategoryList

end BidderController

/-! ## The observer's pages -/

namespace ObserverController

open BidderController

/-- The page `/marketlist`, which takes the auction from the cache itself while no item is
    active. -/
def marketList : Act Unit := do
  getCategoryList
  match ← RedisCacheService.isEndSequence with
  | .null => do
    match ← RedisCacheService.getAuctionId with
    | none => pure ()
    | some _ => do
      let id ← RedisCacheService.getAuctionId
      let _ ← ofExcept (Text.parseLong id)
  | .isTrue => pure ()
  | .isFalse => do
    activeItemDetails
    match ← activeBidItem with
    | none => Action.throw .nullPointer
    | some bidItem => do
      let _ ← BidItemsCacheService.getTimeLeft bidItem

/-- The page `/active`, which fetches the active item whether the sequence has ended or not. -/
def activeMarket : Act Unit := do
  getCategoryList
  let _ ← activeBidItem

/-- The page `/closed`. -/
def closedMarket : Act Unit := do
  match ← RedisCacheService.isEndSequence with
  | .null => getCategoryList
  | .isFalse => do
    activeItemDetails
    getCategoryList
  | .isTrue => do
    match ← RedisCacheService.getAuctionId with
    | none => pure ()
    | some id => do
      let _ ← ofExcept (Text.parseLong (some id))
      getCategoryList

end ObserverController

/-! ## Published bids -/

namespace BidObserver

/-- `update`, with the item and the amount of the published bid: the price is set in the item
    that was fetched, and the item is stored. Exceptions are swallowed; the browsers of the
    bidders, which are told last, are left out. -/
def update (bidItemId : ℤ) (bidAmount : ℚ) : Act Unit := do
  let _ ← attempt (do
    match ← BidItemsCacheService.getBidItem bidItemId with
    -- a bid on an item that is not to be found is dropped
    | none => Action.throw .nullPointer
    | some bidItem =>
      BidItemsCacheService.setBidItem { bidItem with currentMarketPrice := some bidAmount })
  pure ()

end BidObserver

end Bidding.Model
