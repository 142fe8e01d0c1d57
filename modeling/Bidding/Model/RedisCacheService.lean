import Bidding.Model.System

/-!
# `RedisCacheService`

The methods of the cache service, one definition a method. Every method opens its own
connection and swallows its own exceptions; what it returns then is the default that its
variable had (`guarded`).

## Modelling choices

- `setBidItem` writes its fields in order (`bidItemCells`); a `null` where Java dereferences
  it stops the writing there.
- `getBidItem` fills a fresh item field by field (`bidItemReaders`) and hands out what it has
  when reading a field throws.
-/

namespace Bidding.Model.RedisCacheService

open Bidding.Effects Bidding.Effects.Action

/-! ## Commands with their answers -/

/-- `jedis.get` -/
def get (k : Key) : Act (Option Text) := redis (.get k)

/-- `jedis.set` -/
def set (k : Key) (v : Text) : Act Unit := redis (.set k v)

/-- `jedis.sadd` -/
def sadd (k : Key) (v : Text) : Act Unit := redis (.sadd k v)

/-- `jedis.sismember` -/
def sismember (k : Key) (v : Text) : Act Bool := redis (.sismember k v)

/-- `jedis.smembers` -/
def smembers (k : Key) : Act (List Text) := redis (.smembers k)

/-- `jedis.hget` -/
def hget (k : Key) (f : Attr) : Act (Option Text) := redis (.hget k f)

/-- `jedis.hgetAll` -/
def hgetAll (k : Key) : Act (Attr → Option Text) := redis (.hgetAll k)

/-- `jedis.hset` -/
def hset (k : Key) (f : Attr) (v : Text) : Act Unit := redis (.hset k f v)

/-- `jedis.hsetnx` -/
def hsetnx (k : Key) (f : Attr) (v : Text) : Act Unit := redis (.hsetnx k f v)

/-- `jedis.lpush` -/
def lpush (k : Key) (v : Text) : Act Unit := redis (.lpush k v)

/-- `jedis.rpop` -/
def rpop (k : Key) : Act (Option Text) := redis (.rpop k)

/-- `jedis.zadd` -/
def zadd (k : Key) (score : ℤ) (member : Text) : Act Unit := redis (.zadd k score member)

/-- `jedis.zcard` -/
def zcard (k : Key) : Act ℕ := redis (.zcard k)

/-- `jedis.zrangeByScore` -/
def zrangeByScore (k : Key) (lo hi : ℤ) : Act (List Text) := redis (.zrangeByScore k lo hi)

/-- A text argument of a command; the client refuses `null`. -/
def notNull (s : Option String) : Act Text :=
  ofExcept (match s with
    | some s => .ok (.str s)
    | none => .error .jedis)

/-! ## The whole cache -/

/-- `flushDB` -/
def flushDB : Act Unit := guarded () (redis .flushAll)

/-- `setAuctionId` -/
def setAuctionId (auctionId : ℤ) : Act Unit := guarded () (do
  set .auctionId (.long auctionId)
  let _ ← get .auctionId)

/-- `getAuctionId` -/
def getAuctionId : Act (Option Text) := guarded none (get .auctionId)

/-- `setBidIdKey` -/
def setBidIdKey (maxBidId : ℤ) : Act Unit := guarded () (set .bidId (.long maxBidId))

/-- `setAutoBidIdKey` -/
def setAutoBidIdKey (maxAutoBidId : ℤ) : Act Unit :=
  guarded () (set .autoBidId (.long maxAutoBidId))

/-! ## Categories -/

/-- `String.valueOf(Long)` -/
def valueOf : Option ℤ → Text
  | some n => .long n
  | none => .str "null"

/-- One turn of the loop of `setCategories`. -/
def setCategoryEntry (c : Category) : Act Unit := do
  sadd .categories (valueOf c.categoryId)
  -- the id is in the set already when a missing name throws
  let name ← notNull c.categoryName
  hset (.category (valueOf c.categoryId)) .categoryName name
  hset (.category (valueOf c.categoryId)) .categoryId (valueOf c.categoryId)

/-- `setCategories` -/
def setCategories (categories : List Category) : Act Unit :=
  guarded () (forEach categories setCategoryEntry)

/-- `setCategory` -/
def setCategory (bidItemId : ℤ) : Option Category → Act Unit
  | none => pure ()
  | some c => guarded () (sadd (.categoryItems c.categoryId) (.long bidItemId))

/-- `getCategory`. An exception after the connection leaves a category that is filled as
    far as the code came. -/
def getCategory (categoryId : Text) : Act (Option Category) := guarded none (do
  match ← attempt (hget (.category categoryId) .categoryName) with
  -- the category was made before the first field was read
  | .error _ => pure (some ⟨none, none⟩)
  | .ok name =>
    match ← attempt (do
        let id ← hget (.category categoryId) .categoryId
        ofExcept (Text.parseLong id)) with
    | .error _ => pure (some ⟨none, name.map Text.render⟩)
    | .ok id => pure (some ⟨some id, name.map Text.render⟩))

/-- The loop of `getCategories`; the categories that were fetched so far when one throws. -/
def collectCategories : List Text → List Category → Act (List Category)
  | [], categoryList => pure categoryList
  | c :: categories, categoryList => do
    match ← attempt (do
        let name ← hget (.category c) .categoryName
        let id ← hget (.category c) .categoryId
        let id ← ofExcept (Text.parseLong id)
        pure (⟨some id, name.map Text.render⟩ : Category)) with
    | .ok category => collectCategories categories (categoryList ++ [category])
    | .error _ => pure categoryList

/-- `getCategories` -/
def getCategories : Act (List Category) := guarded [] (do
  let categories ← smembers .categories
  collectCategories categories [])

/-- `setBidderCategories` -/
def setBidderCategories (categories : List Category) : Act Unit :=
  guarded () (forEach categories (fun c => do
    let name ← notNull c.categoryName
    sadd (.bidCategory c.categoryId) name))

/-! ## Bidders -/

/-- `setBidder` -/
def setBidder (bidItemId : ℤ) (bidder : Bidder) : Act Unit := guarded () (do
  let name ← notNull bidder.bidderName
  sadd (.bidders bidItemId) name
  -- a bidder that the cache has keeps the amount it was stored with
  hsetnx (.bidder bidItemId name) .bidderName name
  hsetnx (.bidder bidItemId name) .autoBid (.bool bidder.isAutoBid)
  hsetnx (.bidder bidItemId name) .bidAmount (.double bidder.currentBidAmount))

/-- `setBidders`, which sorts the item's list. -/
def setBidders (bidItemId : ℤ) (bidItem : BidItem) : Act Unit :=
  forEach bidItem.sortBidders.currentBiddersList (setBidder bidItemId)

/-- `Boolean.parseBoolean` -/
def parseBoolean (s : Option Text) : Bool := s = some (.bool true)

/-- The amount in `getBidder`: the field is read once for the check and once more for the
    value. -/
def getBidAmount (bidItemId : ℤ) (bidderName : Text) : Act ℚ := do
  match ← hget (.bidder bidItemId bidderName) .bidAmount with
  | none => pure 0
  | some _ => do
    let s ← hget (.bidder bidItemId bidderName) .bidAmount
    ofExcept (Text.parseDouble s)

/-- `getBidder`: `null` without a connection; an exception later leaves a bidder that is
    filled as far as the code came. -/
def getBidder (bidItemId : ℤ) (bidderName : Text) : Act (Option Bidder) := guarded none (do
  let time ← now
  let fresh : Bidder := ⟨none, 0, false, time, none⟩
  match ← attempt (hget (.bidder bidItemId bidderName) .bidderName) with
  | .error _ => pure (some fresh)
  | .ok name =>
    let named := { fresh with bidderName := name.map Text.render }
    match ← attempt (hget (.bidder bidItemId bidderName) .autoBid) with
    | .error _ => pure (some named)
    | .ok auto =>
      let flagged := { named with isAutoBid := parseBoolean auto }
      match ← attempt (getBidAmount bidItemId bidderName) with
      | .error _ => pure (some flagged)
      | .ok amount => pure (some { flagged with currentBidAmount := amount }))

/-- The loop of `getBidders`. A bidder that could not be fetched, which is `null`, would be put into
    the list by the source and is left out here; the methods on the cache do not look at it. -/
def addCachedBidders (bidItemId : ℤ) : List Text → BidItem → Act BidItem
  | [], item => pure item
  | name :: names, item => do
    match ← getBidder bidItemId name with
    -- in the order of the server, not of the ranking
    | some bidder => addCachedBidders bidItemId names (item.addBidder bidder)
    | none => addCachedBidders bidItemId names item

/-- `getBidders` -/
def getBidders (bidItemId : ℤ) (item : BidItem) : Act BidItem := guarded item (do
  let bidders ← smembers (.bidders bidItemId)
  addCachedBidders bidItemId bidders item)

/-! ## Items -/

/-- `bidItemExists`, which leaves its connection open. -/
def bidItemExists (bidItemId : ℤ) : Act Bool :=
  unclosed false (sismember .bidItems (.long bidItemId))

/-- `(s == null) ? "" : s` -/
def orEmpty (s : Option String) : Text := .str (s.getD "")

/-- `(d == null) ? dflt : String.valueOf(d)` on a price. -/
def priceOr (dflt : Text) : Option ℚ → Text
  | some q => .double q
  | none => dflt

/-- `(n == null) ? dflt : String.valueOf(n)` on a number. -/
def longOr (dflt : Text) : Option ℤ → Text
  | some n => .long n
  | none => dflt

/-- `(d != null) ? sdf.format(d) : ""` -/
def dateOrEmpty : Option Date → Text
  | some d => Text.format d
  | none => .str ""

/-- The fields that `setBidItem` writes, in order, with their values. -/
def bidItemCells (item : BidItem) : List (Attr × Except Exn Text) :=
  [ (.bidItemId, .ok (valueOf item.bidItemId)),
    (.name, .ok (orEmpty item.name)),
    (.location, .ok (orEmpty item.location)),
    (.city, .ok (orEmpty item.city)),
    (.zone, .ok (orEmpty item.zone)),
    (.minBidPrice, .ok (priceOr (.long 0) item.minBidPrice)),
    (.minBidIncrement, .ok (priceOr (.long 0) item.minBidIncrement)),
    -- the start time is the one date that is formatted without a check for null
    (.bidStartTime, match item.bidStartTime with
      | some d => .ok (Text.format d)
      | none => .error .nullPointer),
    (.bidEndTime, .ok (dateOrEmpty item.bidEndTime)),
    (.initialStartTime, .ok (valueOf item.initialStartTime)),
    (.timeExtAfterBid, .ok (longOr (.long 0) item.timeExtAfterBid)),
    (.statusCode, .ok (orEmpty item.statusCode)),
    (.lastUpDateTime, .ok (dateOrEmpty item.lastUpDateTime)),
    (.createdTime, .ok (dateOrEmpty item.createdTime)),
    (.currentMarketPrice, .ok (priceOr (.str "") item.currentMarketPrice)),
    (.isAutoBid, .ok (.bool item.autoBidFlag)),
    (.autobidid, .ok (longOr (.str "") item.autobidid)),
    (.autoBidAmount, .ok (priceOr (.str "") item.amountAutoBid)),
    (.currency, .ok (orEmpty item.currency)),
    (.categoryId, .ok (match item.category with
      | some c => valueOf c.categoryId
      | none => .str "")),
    (.auctionId, .ok (valueOf item.auctionId)),
    (.autoBidderName, .ok (orEmpty item.autoBidderName)),
    (.currentAutoBidId, .ok (longOr (.str "") item.currentAutoBidId)),
    (.bidSpan, .ok (.long item.bidSpan)),
    (.seqId, .ok (.long item.seqId)) ]

/-- Write one field of an item, unless it is there already. -/
def writeCell (bidItemId : ℤ) (cell : Attr × Except Exn Text) : Act Unit := do
  let text ← ofExcept cell.2
  -- a field of an item is written once
  hsetnx (.bidItem bidItemId) cell.1 text

/-- `setBidItem` for an item with an id. -/
def setBidItem (bidItemId : ℤ) (bidItem : BidItem) : Act Unit := guarded () (do
  -- the item counts as cached before its fields are written
  sadd .bidItems (.long bidItemId)
  forEach (bidItemCells bidItem) (writeCell bidItemId)
  setBidders bidItemId bidItem
  setCategory bidItemId bidItem.category)

/-- `setBidItemList`, for items with their ids. -/
def setBidItemList (bidItems : List (ℤ × BidItem)) : Act Unit :=
  forEach bidItems (fun item => setBidItem item.1 item.2)

/-- How one field of a cached item is read: the text that was found gives a change of the
    item, or an exception. -/
structure Reader where
  attr : Attr
  read : Option Text → Act (BidItem → BidItem)

/-- A field that is parsed and stored. -/
def parsed {α : Type} (attr : Attr) (parse : Option Text → Except Exn α)
    (store : α → BidItem → BidItem) : Reader where
  attr := attr
  read s := ofExcept ((parse s).map store)

/-- `(s == null || s.equals("null") || s.length() == 0) ? dflt : parse(s)` -/
def unlessBlank {α : Type} (dflt : α) (parse : Option Text → Except Exn α) (s : Option Text) :
    Except Exn α :=
  if Text.isBlank s then .ok dflt else parse s

/-- A number that defaults to `0`. -/
def parseLongOrZero : Option Text → Except Exn ℤ := unlessBlank 0 Text.parseLong

/-- A price that defaults to `0.0`. -/
def parsePriceOrZero : Option Text → Except Exn ℚ := unlessBlank 0 Text.parseDouble

/-- A date that defaults to `null`. -/
def parseDateOrNull : Option Text → Except Exn (Option Date) :=
  unlessBlank none (fun s => (Text.parseDate s).map some)

/-- The check of the start time, which does not look for the text `null`. -/
def parseStartTime (s : Option Text) : Except Exn (Option Date) :=
  if s = none ∨ s = some (.str "") then .ok none else (Text.parseDate s).map some

/-- A text that is taken as it is. -/
def asString (s : Option Text) : Except Exn (Option String) := .ok (s.map Text.render)

/-- The category is fetched by the id that was found. -/
def categoryReader : Reader where
  attr := .categoryId
  read
    | none => pure (BidItem.setCategory none)
    | some s => do
      let c ← getCategory s
      pure (BidItem.setCategory c)

/-- The fields that `getBidItem` reads, in order. -/
def bidItemReaders : List Reader :=
  [ parsed .bidItemId parseLongOrZero (fun n => BidItem.setBidItemId (some n)),
    parsed .name asString BidItem.setName,
    parsed .location asString BidItem.setLocation,
    parsed .city asString BidItem.setCity,
    parsed .zone asString BidItem.setZone,
    parsed .minBidPrice parsePriceOrZero (fun q => BidItem.setMinBidPrice (some q)),
    parsed .minBidIncrement parsePriceOrZero (fun q => BidItem.setMinBidIncrement (some q)),
    parsed .bidStartTime parseStartTime BidItem.setBidStartTime,
    parsed .bidEndTime parseDateOrNull BidItem.setBidEndTime,
    parsed .initialStartTime parseLongOrZero (fun n => BidItem.setInitialStartTime (some n)),
    parsed .timeExtAfterBid parseLongOrZero (fun n => BidItem.setTimeExtAfterBid (some n)),
    parsed .statusCode asString BidItem.setStatusCode,
    -- the winner is read and not used
    parsed .winnerId asString (fun _ item => item),
    parsed .lastUpDateTime parseDateOrNull BidItem.setLastUpDateTime,
    parsed .createdTime parseDateOrNull BidItem.setCreatedTime,
    parsed .currentMarketPrice parsePriceOrZero (fun q => BidItem.setCurrentMarketPrice (some q)),
    -- any text that is not blank counts as true
    parsed .isAutoBid (fun s => .ok (!Text.isBlank s)) BidItem.setAutoBidFlag,
    parsed .autobidid parseLongOrZero (fun n => BidItem.setAutobidid (some n)),
    parsed .autoBidAmount parsePriceOrZero (fun q => BidItem.setAmountAutoBid (some q)),
    parsed .currency asString BidItem.setCurrency,
    categoryReader,
    parsed .auctionId parseLongOrZero (fun n => BidItem.setAuctionId (some n)),
    parsed .autoBidderName asString BidItem.setAutoBidderName,
    parsed .currentAutoBidId parseLongOrZero (fun n => BidItem.setCurrentAutoBidId (some n)),
    parsed .bidSpan parseLongOrZero BidItem.setBidSpan,
    parsed .seqId parseLongOrZero BidItem.setSeqId ]

/-- Read one field of an item. -/
def readField (bidItemId : ℤ) (r : Reader) : Act (BidItem → BidItem) := do
  let s ← hget (.bidItem bidItemId) r.attr
  r.read s

/-- Fill an item field by field and then its bidders; the item as filled so far when a
    field throws. -/
def fillBidItem (bidItemId : ℤ) : List Reader → BidItem → Act BidItem
  -- the bidders are fetched by the id that was read, not by the one that was asked for
  | [], item => getBidders (item.bidItemId.getD 0) item
  | r :: rs, item => do
    match ← attempt (readField bidItemId r) with
    | .ok store => fillBidItem bidItemId rs (store item)
    -- the `catch` is around all fields: the rest stay at their defaults
    | .error _ => pure item

/-- `getBidItem`: `null` when the cache does not have the item, and the empty item when
    there is no connection. -/
def getBidItem (bidItemId : ℤ) : Act (Option BidItem) := guarded (some BidItem.new) (do
  if ← bidItemExists bidItemId then
    let item ← fillBidItem bidItemId bidItemReaders BidItem.new
    pure (some item)
  else
    pure none)

/-- The id that a text of the cache stands for. -/
def idOf : Text → ℤ
  | .long id => id
  | _ => 0

/-- The loop of `getBidItems`. -/
def collectBidItems : List Text → Act (List (Option BidItem))
  | [] => pure []
  | id :: ids => do
    let item ← getBidItem (idOf id)
    let items ← collectBidItems ids
    pure (item :: items)

/-- `getBidItems` of a category: `null` without an answer. The key is the one under which
    `setCategory` keeps a hash, so that a server with one value per key would answer a type error,
    and `null` would be returned; no method of the application calls it. -/
def getBidItemsOf (categoryId : Text) : Act (Option (List (Option BidItem))) := guarded none (do
  let bidItemIds ← smembers (.category categoryId)
  let bidItems ← collectBidItems bidItemIds
  pure (some bidItems))

/-- `getBidItems` -/
def getBidItems : Act (List (Option BidItem)) := guarded [] (do
  let bidItemIds ← smembers .bidItems
  collectBidItems bidItemIds)

/-- `getBidEndTime` and `getBidItemLastUpdateTime`: one date of an item. -/
def getDate (attr : Attr) (bidItemId : ℤ) : Act (Option Date) := guarded none (do
  let s ← hget (.bidItem bidItemId) attr
  ofExcept (parseDateOrNull s))

/-- `getBidEndTime` -/
def getBidEndTime (bidItemId : ℤ) : Act (Option Date) := getDate .bidEndTime bidItemId

/-- `getBidItemLastUpdateTime` -/
def getBidItemLastUpdateTime (bidItemId : ℤ) : Act (Option Date) :=
  getDate .lastUpDateTime bidItemId

/-- `setBidEndTime` and `setBidItemLastUpdateTime`: set one date of an item that the cache
    has. -/
def setDate (attr : Attr) (bidItemId : ℤ) (d : Date) : Act Bool := guarded true (do
  if ← sismember .bidItems (.long bidItemId) then
    -- here the field is overwritten
    hset (.bidItem bidItemId) attr (Text.format d)
    pure true
  else
    pure false)

/-- `setBidEndTime` -/
def setBidEndTime (bidItemId : ℤ) (bidEndTime : Date) : Act Bool :=
  setDate .bidEndTime bidItemId bidEndTime

/-- `setBidItemLastUpdateTime` -/
def setBidItemLastUpdateTime (bidItemId : ℤ) (lastUpdateTime : Date) : Act Bool :=
  setDate .lastUpDateTime bidItemId lastUpdateTime

/-- `setExpiredBidItem` -/
def setExpiredBidItem (bidItemId : ℤ) : Act Unit := guarded () (do
  sadd .expiredBidItems (.long bidItemId)
  hset (.bidItem bidItemId) .statusCode (.str "CLOSED")
  -- the end time becomes the time of the close
  let d ← now
  hset (.bidItem bidItemId) .bidEndTime (Text.format d))

/-! ## The sequence -/

/-- One turn of the first loop of `setBidSequenceList`. -/
def setBidSequence (s : BidSequence) : Act Unit := do
  zadd .bidItemIdSequence s.sequenceId (.long s.bidItemId)
  -- written again for every row, so an empty sequence leaves it unset
  set .auctionId (.long s.auctionId)
  hset (.bidSequence s.bidItemId) .bidItemId (.long s.bidItemId)
  hset (.bidSequence s.bidItemId) .sequenceId (.long s.sequenceId)
  hset (.bidSequence s.bidItemId) .auctionId (.long s.auctionId)
  hset (.bidSequence s.bidItemId) .bidSpan (.long s.bidspan)

/-- `setBidSequenceList`: the queue is filled from the sorted set, whose scores are cut off
    at its cardinality. -/
def setBidSequenceList (bidSequenceList : List BidSequence) : Act Unit := guarded () (do
  forEach bidSequenceList setBidSequence
  let card ← zcard .bidItemIdSequence
  -- scores are numbers of the sequence: one above the count is not reached
  let bidItemList ← zrangeByScore .bidItemIdSequence 0 card
  forEach bidItemList (lpush .bidItemSequenceIds))

/-- `getBidItemSpan` -/
def getBidItemSpan (bidItemId : ℤ) : Act ℤ := guarded 0 (do
  let s ← hget (.bidSequence bidItemId) .bidSpan
  ofExcept (Text.parseLong s))

/-- `getBidItemSequenceDetails`: `null` on a failure. -/
def getBidItemSequenceDetails (bidItemId : ℤ) : Act (Option (Attr → Option Text)) :=
  guarded none (do
    let details ← hgetAll (.bidSequence bidItemId)
    pure (some details))

/-- `setActiveBidItemId` -/
def setActiveBidItemId : Act Unit := guarded () (do
  let bidItemId ← rpop .bidItemSequenceIds
  -- two commands: what was popped is lost if the second one fails
  set .activeBidItemId (bidItemId.getD (.long 0)))

/-- `getActiveBidItemId` -/
def getActiveBidItemId : Act ℤ := guarded 0 (do
  match ← get .activeBidItemId with
  | none => pure 0
  | some id => ofExcept (Text.parseLong (some id)))

/-- The result of `isEndSequence`; its callers compare the text `TRUE` or `FALSE`, or check
    for `null`. -/
inductive EndSequence where
  | null
  | isTrue
  | isFalse
  deriving DecidableEq, Repr

/-- `isEndSequence`: of its four ways out only the last two close the connection. -/
def isEndSequence : Act EndSequence := do
  match ← attempt connect with
  | .error _ => do
    close none
    pure .isFalse
  | .ok jedis =>
    match ← attempt (get .activeBidItemId) with
    | .error _ => do
      close (some jedis)
      pure .isFalse
    -- no lot has been active yet
    | .ok none => pure .null
    | .ok (some id) =>
      -- the queue was empty when the next lot was popped
      if id = .long 0 then
        pure .isTrue
      else do
        close (some jedis)
        pure .isFalse

end Bidding.Model.RedisCacheService
