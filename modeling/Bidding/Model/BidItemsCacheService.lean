import Bidding.Model.RedisCacheService

/-!
# `BidItemsCacheService` and its Timer Task

Loading an auction into the cache (`initCache`), handing the sale over from item to item
(`setNextBidItem`), lazily filling the cache on a miss (`getBidItem`), and the body of the
timer task of `BidItemScheduler`.

## Modelling choices

- Debug output is left out, except where it calls a method that reads the cache or the
  clock: those calls are kept.
- The timer task calls the service object itself, not its transactional proxy; a request
  goes through the proxy. `getBidItem` therefore has two forms.
-/

namespace Bidding.Model.BidItemsCacheService

open Bidding.Effects Bidding.Effects.Action

/-- A `long` taken from a `Long`. -/
def unbox (n : Option ℤ) : Act ℤ :=
  ofExcept (match n with
    | some n => .ok n
    | none => .error .nullPointer)

/-- `BidItem.getTimeLeft`, which reads the clock when the item has an end time. -/
def getTimeLeft (item : BidItem) : Act ℤ :=
  match item.bidEndTime with
  | none => pure item.timeLeft
  | some _ =>
    match item.lastUpDateTime with
    -- the last update is only looked at if there is an end time
    | none => Action.throw .nullPointer
    | some _ => do
      let t ← now
      ofExcept (item.timeLeftAt t)

/-! ## Filling the cache on a miss -/

/-- `initializeBidItem`: the times, the status and the place in the sequence of an item that
    goes on sale now. -/
def initializeBidItem (bidItem : BidItem) : Act BidItem := do
  let cal ← now
  let id ← unbox bidItem.bidItemId
  match ← RedisCacheService.getBidItemSequenceDetails id with
  -- the map is `null` if the cache failed; a missing field fails in the parse
  | none => Action.throw .nullPointer
  | some bidItemDetails => do
    let bidSpan ← ofExcept (Text.parseLong (bidItemDetails .bidSpan))
    let seqId ← ofExcept (Text.parseLong (bidItemDetails .sequenceId))
    pure { bidItem with
      lastUpDateTime := some cal
      bidStartTime := some cal
      -- `Calendar.add` takes an `int`
      bidEndTime := some (addSeconds cal (toInt32 bidSpan))
      statusCode := some "ACTIVE"
      bidSpan := bidSpan
      seqId := seqId }

/-- `setBidItem`; the debug output reads the item back. -/
def setBidItem (bidItem : BidItem) : Act Unit := do
  let id ← unbox bidItem.bidItemId
  RedisCacheService.setBidItem id bidItem
  let _ ← RedisCacheService.getBidItem id

/-- The part of `getBidItem` that runs on a cache miss. -/
def loadBidItem (bidItemId : ℤ) : Act BidItem := do
  let bidItem ← Dao.getBidItem bidItemId
  let bidItem ← initializeBidItem bidItem
  setBidItem bidItem
  pure bidItem

/-- `getBidItem`, called on the object itself. -/
def getBidItem (bidItemId : ℤ) : Act (Option BidItem) := do
  match ← RedisCacheService.getBidItem bidItemId with
  | some bidItem => pure (some bidItem)
  | none =>
    -- `0` stands for no item, and is not looked up in the database
    if bidItemId = 0 then pure none
    else do
      let bidItem ← loadBidItem bidItemId
      pure (some bidItem)

/-- `getBidItem`, called through the transactional proxy inside the transaction of a request:
    the loaded item is still managed, so its columns reach its row with the commit. -/
def getBidItemManaged (bidItemId : ℤ) : Act (Option BidItem) := do
  match ← RedisCacheService.getBidItem bidItemId with
  | some bidItem => pure (some bidItem)
  | none =>
    if bidItemId = 0 then pure none
    else do
      let bidItem ← loadBidItem bidItemId
      Dao.flush bidItem
      pure (some bidItem)

/-! ## The scheduler's step -/

/-- `cleanBidItem` -/
def cleanBidItem (bidItemId : ℤ) : Act Unit := do
  RedisCacheService.setExpiredBidItem bidItemId
  -- the item is read back with the status and the end time that were just written
  let bidItem ← RedisCacheService.getBidItem bidItemId
  Dao.updateBidItem bidItem

/-- The branch of `setNextBidItem` at the end of the sequence. -/
def endOfSequence : Act ℤ := do
  let auctionId ← Field.getAuctionId
  let d ← now
  Dao.setAuctionEndTime auctionId d
  let activeBidItemId ← RedisCacheService.getActiveBidItemId
  cleanBidItem activeBidItemId
  -- the timer is cancelled by the `0`
  pure 0

/-- The branch of `setNextBidItem` at the start of the sequence. -/
def startOfSequence : Act ℤ := do
  -- the flag is cleared before anything can fail, so the start is not tried again
  Field.setStartFlag false
  RedisCacheService.setActiveBidItemId
  let activeBidItemId ← RedisCacheService.getActiveBidItemId
  match ← getBidItem activeBidItemId with
  | some bidItem => pure bidItem.bidSpan
  -- an empty queue: the span of `null` is asked for
  | none => Action.throw .nullPointer

/-- Closing the active item and opening the next one. -/
def handOver (activeBidItemId : ℤ) : Act ℤ := do
  -- the next item becomes active before the present one is closed
  RedisCacheService.setActiveBidItemId
  cleanBidItem activeBidItemId
  let nextBidItemId ← RedisCacheService.getActiveBidItemId
  match ← getBidItem nextBidItemId with
  | some bidItem => pure bidItem.bidSpan
  -- at the end of the queue the id is `0`, and the timer is cancelled
  | none => pure 0

/-- The branch of `setNextBidItem` inside the sequence. The time left is computed for the
    test, for the debug output and for the result. -/
def nextOfSequence : Act ℤ := do
  let activeBidItemId ← RedisCacheService.getActiveBidItemId
  match ← RedisCacheService.getBidItem activeBidItemId with
  -- an active item that the cache does not have cancels the timer
  | none => pure 0
  | some bidItem => do
    let timeLeft ← getTimeLeft bidItem
    if timeLeft > 0 then do
      let _ ← getTimeLeft bidItem
      getTimeLeft bidItem
    else
      handOver activeBidItemId

/-- `setNextBidItem` -/
def setNextBidItem : Act ℤ := do
  let endSequence ← RedisCacheService.isEndSequence
  if endSequence = .isTrue then
    endOfSequence
  else do
    let startFlag ← Field.getStartFlag
    if startFlag then startOfSequence else nextOfSequence

/-- What the timer task does after a tick. -/
inductive TaskOutcome where
  /-- sleep for so many seconds, then fire again -/
  | sleep (seconds : ℤ)
  /-- `timer.cancel()` -/
  | cancel
  deriving DecidableEq, Repr

/-- `TimerTask.run` of `BidItemScheduler`: a span of `0` cancels the timer, and so does any
    exception, that of `Thread.sleep` for a negative time included. -/
def timerTask : Act TaskOutcome := do
  match ← attempt setNextBidItem with
  -- the `catch` logs, and calls `timer.cancel()` as well
  | .error _ => pure .cancel
  | .ok span => pure (if span ≤ 0 then .cancel else .sleep span)

/-! ## Loading an auction -/

/-- `CommonDaoImpl.getCategoryList`, which also stores the categories in the cache. -/
def getCategoryList : Act (List Category) := do
  let categoryList ← Dao.queryCategories
  RedisCacheService.setCategories categoryList
  pure categoryList

/-- The part of `initCache` that stores the categories and the id counters. -/
def loadDetails : Act Unit := do
  -- the data-access object has stored the categories already
  let categories ← getCategoryList
  RedisCacheService.setCategories categories
  let maxBidId ← Dao.getMaxBidId
  RedisCacheService.setBidIdKey maxBidId
  let maxAutoBidId ← Dao.getMaxAutoBidId
  RedisCacheService.setAutoBidIdKey maxAutoBidId

/-- The `try` block of `initCache`. `Timer.schedule` refuses a `null` date. -/
def loadSequence (startTime : Option Date) (bidSequenceList : List BidSequence) : Act Unit := do
  RedisCacheService.flushDB
  RedisCacheService.setBidSequenceList bidSequenceList
  match bidSequenceList with
  -- without lots no timer is started, and the cache stays empty
  | [] => pure ()
  | _ :: _ => do
    loadDetails
    match startTime with
    | some d => Action.perform (.startTimer d) .ok
    | none => Action.throw .nullPointer

/-- The start time that `initCache` takes: the service's field, or else the row's. -/
def chooseStartTime (auctionId : ℤ) : Act (Option Date) := do
  match ← Field.getAuctionStartTime with
  | some d => pure (some d)
  | none => Dao.getActualAuctionStartTime auctionId

/-- `initCache` -/
def initCache : Act Unit := do
  let _ ← now
  Field.setStartFlag true
  let auctionId ← Field.getAuctionId
  let startTime ← chooseStartTime auctionId
  let bidSequenceList ← Dao.getCurrentBidSequence auctionId
  -- exceptions are printed and swallowed
  let _ ← attempt (loadSequence startTime bidSequenceList)
  pure ()

end Bidding.Model.BidItemsCacheService
