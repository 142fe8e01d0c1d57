import Mathlib.Algebra.Order.Ring.Unbundled.Rat
import Bidding.Model.BidderDao
import Bidding.Model.Controllers

/-!
# The Lists of the Market

The pages that list the upcoming and the closed items, for a bidder and for an observer: the
queries of `BidderDaoImpl` and `ObserverDaoImpl` behind them, the arithmetic of
`NavigationInfo`, and the handlers `/marketlist` and `/closed` with the countdowns.

## Modelling choices

- A query joins the sequence of the auction, in its order, with the items, the user's
  mappings and, for the upcoming items, the auto-bids: an item without auto-bids gives one row
  as well. `setFirstResult` and `setMaxResults` drop and take rows.
- The items of a query are managed objects, one for each id: what the loop over the rows
  stores in a mapped attribute is in the row of the item when the transaction commits.
- A category filter of `0`, or none, is no filter.
- The attributes of the page that are not the list, the countdown or the navigation, and the
  user's activity, are left out. A page that returns early has no list.
-/

namespace Bidding.Model

open Bidding.Effects Bidding.Effects.Action Bidding.Collections

/-! ## Queries on the upcoming items -/

namespace BidderDao

/-- Whether an item passes the filter by category. -/
def inCategory (categoryId : Option ℤ) (item : BidItem) : Bool :=
  categoryId.all (fun c => categoryIdOf item = some c)

/-- `bidItem.getAutoBids()` -/
def getAutoBids (db : Db) (bidItemId : ℤ) : List AutoBids :=
  db.autoBids.filter (fun a => a.bidItemId = bidItemId)

/-- `left outer join bidItem.autoBids` -/
def joinAutoBids (db : Db) (bidItemId : ℤ) : List (Option AutoBids) :=
  match getAutoBids db bidItemId with
  -- an outer join: an item without auto-bids has one row
  | [] => [none]
  | autoBids => autoBids.map some

/-- The rows of the query of the upcoming items for one row of the sequence: one for each
    mapping of the user to the item's category and each auto-bid. -/
def marketRows (db : Db) (vo : CommonVO) (categoryId : Option ℤ) (bidSeq : BidSequence) :
    List (BidItem × BidSequence) :=
  match getBidItem db bidSeq.bidItemId with
  | none => []
  | some bidItem =>
    if inCategory categoryId bidItem then
      -- the auto-bids are joined and not selected, so they only multiply the rows
      (joinAutoBids db bidSeq.bidItemId).flatMap (fun _ =>
        (db.bidderCategories.filter (isMapped vo.userName vo.auctionId bidItem)).map
          (fun _ => (bidItem, bidSeq)))
    else []

/-- The query of the upcoming items, without its page. -/
def marketQuery (db : Db) (vo : CommonVO) (categoryId : Option ℤ) :
    List (BidItem × BidSequence) :=
  let sequence := db.bidSequence.filter (fun s => s.auctionId = vo.auctionId &&
    -- strictly after the active lot, or all lots before the start
    (vo.sequenceId = 0 || vo.sequenceId < s.sequenceId))
  (sort compareSequence sequence).flatMap (marketRows db vo categoryId)

/-- `findBidItemsCountForMarketListForBidder` and the same `ForCategory` -/
def findBidItemsCountForMarketListForBidder (db : Db) (vo : CommonVO) (categoryId : Option ℤ) :
    ℤ :=
  (marketQuery db vo categoryId).length

/-- The user's own auto-bid on an item, the first one that is active. -/
def ownAutoBid (db : Db) (userName : String) (bidItemId : ℤ) : Option AutoBids :=
  (getAutoBids db bidItemId).find? (fun a =>
    a.bidderName = userName && (a.bidStatus = "A" || a.bidStatus = "a"))

/-- What the loop over the rows stores in an item. -/
def listed (db : Db) (userName : String) (row : BidItem × BidSequence) : BidItem :=
  let item := { row.1 with
    seqId := row.2.sequenceId
    bidSpan := row.2.bidspan }
  match ownAutoBid db userName row.2.bidItemId with
  | none => item
  -- the columns of a managed item: the flush at the end writes `currentAutoBidId`
  | some autoBid =>
    { item with
      autoBidFlag := true
      amountAutoBid := some autoBid.bidAmount
      currentAutoBidId := some autoBid.autoBidId }

/-- One turn of the loop: an item that is in the list already is the same object. -/
def listRow (db : Db) (userName : String) (bidItemsList : List BidItem)
    (row : BidItem × BidSequence) : List BidItem :=
  let item := listed db userName row
  if bidItemsList.any (fun i => i.bidItemId = item.bidItemId) then
    bidItemsList.map (fun i => if i.bidItemId = item.bidItemId then item else i)
  else
    bidItemsList ++ [item]

/-- `getBidItemsForCategoryForMarketListForBidder`, with or without a category. -/
def getBidItemsForCategoryForMarketListForBidder (db : Db) (vo : CommonVO)
    (categoryId : Option ℤ) : List BidItem :=
  -- the page is cut from the rows, before the rows of one item are joined
  let rows := ((marketQuery db vo categoryId).drop vo.firstResult).take vo.maxResult
  rows.foldl (listRow db vo.userName) []

/-! ## Queries on the closed items -/

/-- The query of the closed items with a category: the rows of `closedRows` whose item has
    it. -/
def closedQueryIn (db : Db) (vo : CommonVO) (categoryId : Option ℤ) :
    List (BidItem × BidSequence) :=
  let sequence := db.bidSequence.filter (fun s => s.auctionId = vo.auctionId &&
    (vo.sequenceId = 0 || s.sequenceId < vo.sequenceId))
  let rows := (sort compareSequence sequence).flatMap (closedRows db vo)
  rows.filter (fun row => inCategory categoryId row.1)

/-- `findBidItemsCountForClosedListForBidder` and the same `ForCategory` -/
def findBidItemsCountForClosedListForBidder (db : Db) (vo : CommonVO) (categoryId : Option ℤ) :
    ℤ :=
  (closedQueryIn db vo categoryId).length

/-- `getBidItemsForCategoryForClosedMarketForBidder`, with or without a category. -/
def getBidItemsForCategoryForClosedMarket (db : Db) (vo : CommonVO) (categoryId : Option ℤ) :
    List BidItem :=
  (((closedQueryIn db vo categoryId).drop vo.firstResult).take vo.maxResult).map
    (fun row => markWon vo.userName row.1 row.2)

end BidderDao

/-! ## The observer's closed items -/

namespace ObserverDao

open BidderDao

/-- A group of the observer's query: the highest bid of a bidder on an item, or an item
    without bids. -/
structure BidderRow where
  bidItem : BidItem
  sequenceId : ℤ
  bidderName : Option String
  bidAmount : Option ℚ
  deriving DecidableEq

/-- `MAX(bids1.bidAmount)` of a bidder on an item. -/
def maxAmount (bids : List Bid) : Option ℚ :=
  (bids.filterMap Bid.bidAmount).max?

/-- `MAX(bids1.bidAmount) DESC`; groups without an amount come last. -/
def compareAmounts (o1 o2 : BidderRow) : ℤ :=
  match o1.bidAmount, o2.bidAmount with
  | some a, some b => if a < b then 1 else if b < a then -1 else 0
  -- `NULL` is the lowest value in a descending order
  | none, some _ => 1
  | some _, none => -1
  | none, none => 0

/-- The groups of one item: one for each bidder, the highest amount first. -/
def bidderRows (db : Db) (bidItem : BidItem) (bidSeq : BidSequence) : List BidderRow :=
  let bids := db.bids.filter (fun b => b.bidItemId = some bidSeq.bidItemId)
  match bids with
  -- the outer join of an item without bids
  | [] => [⟨bidItem, bidSeq.sequenceId, none, none⟩]
  | _ :: _ =>
    sort compareAmounts ((bids.map Bid.bidderName).dedup.map (fun name =>
      ⟨bidItem, bidSeq.sequenceId, name,
        maxAmount (bids.filter (fun b => b.bidderName = name))⟩))

/-- The rows of the observer's query for one row of the sequence. -/
def observerRows (db : Db) (vo : CommonVO) (categoryId : Option ℤ) (bidSeq : BidSequence) :
    List BidderRow :=
  match getBidItem db bidSeq.bidItemId with
  | none => []
  | some bidItem =>
    if inCategory categoryId bidItem &&
        -- grouped, so that a second mapping adds no row
        db.bidderCategories.any (isMapped vo.userName vo.auctionId bidItem) then
      bidderRows db bidItem bidSeq
    else []

/-- An entry of the observer's list: an item with its three best bidders. -/
structure ClosedEntry where
  bidItem : BidItem
  best : List (Option String × Option ℚ)
  deriving DecidableEq

/-- The entry that the first row of an item begins. -/
def ClosedEntry.ofRow (row : BidderRow) : ClosedEntry where
  bidItem := { row.bidItem with seqId := row.sequenceId }
  best := [(row.bidderName, row.bidAmount)]

/-- Another bidder of the item; only the first three are kept. -/
def ClosedEntry.addRow (entry : ClosedEntry) (row : BidderRow) : ClosedEntry :=
  if entry.best.length < 3 then
    { entry with best := entry.best ++ [(row.bidderName, row.bidAmount)] }
  else entry

/-- The loop of `getBidsListForClosedMarket`, with the entry that is being filled. -/
def fillEntries : ClosedEntry → List BidderRow → List ClosedEntry
  | entry, [] => [entry]
  | entry, row :: rows =>
    if entry.bidItem.bidItemId = row.bidItem.bidItemId then
      fillEntries (entry.addRow row) rows
    else
      entry :: fillEntries (ClosedEntry.ofRow row) rows

/-- `getBidsListForClosedMarket`: consecutive rows of one item are one entry. -/
def getBidsListForClosedMarket : List BidderRow → List ClosedEntry
  | [] => []
  | row :: rows => fillEntries (ClosedEntry.ofRow row) rows

/-- `getBidItemsForCategoryForClosedMarketForObserver`, with or without a category: the page is
    a range of the numbers of the sequence. -/
def getBidItemsForCategoryForClosedMarketForObserver (db : Db) (vo : CommonVO)
    (categoryId : Option ℤ) : List ClosedEntry :=
  if categoryId ≠ none ∧ vo.sequenceId ≤ 0 then []
  else
    let firstResult : ℤ := vo.firstResult
    let last : ℤ := vo.firstResult + vo.maxResult
    -- the page ends before the active lot
    let lastResult := if last ≥ vo.sequenceId then vo.sequenceId - 1 else last
    let sequence := db.bidSequence.filter (fun s => s.auctionId = vo.auctionId &&
      firstResult + 1 ≤ s.sequenceId && s.sequenceId ≤ lastResult)
    getBidsListForClosedMarket ((sort compareSequence sequence).flatMap
      (observerRows db vo categoryId))

end ObserverDao

/-! ## Navigation -/

/-- `NavigationInfo`, with its page size of `10`. -/
structure NavigationInfo where
  rowCount : ℤ
  currentPage : ℤ
  deriving DecidableEq

namespace NavigationInfo

/-- `getPageSize` -/
def pageSize : ℕ := 10

/-- `new NavigationInfo()` -/
def new : NavigationInfo := ⟨0, 1⟩

/-- `getPageCount` -/
def getPageCount (info : NavigationInfo) : ℤ := (info.rowCount + 9) / 10

/-- `setCurrentPage` -/
def setCurrentPage (info : NavigationInfo) (currentPage : ℤ) : NavigationInfo :=
  let page :=
    if currentPage ≤ 0 then 1
    else if currentPage > info.getPageCount then info.getPageCount
    else currentPage
  -- without rows the last page is `0`
  { info with currentPage := if page ≤ 0 then 1 else page }

/-- `curPage` of the handlers. -/
def curPage (info : NavigationInfo) : ℕ := (info.currentPage - 1).toNat

/-- `setRowCount` -/
def setRowCount (info : NavigationInfo) (rowCount : ℤ) : NavigationInfo :=
  { info with rowCount := rowCount }

/-- `curPage * pageSize` of the handlers, a product of `int`s. -/
def firstResult (info : NavigationInfo) : ℤ := toInt32 (info.curPage * pageSize)

end NavigationInfo

/-- The navigation of a request with a number of rows and the text parameter `page`. -/
def navigate (rowCount : ℤ) (page : Arg ℤ) : Act NavigationInfo :=
  match page with
  | .blank => pure ((⟨rowCount, 1⟩ : NavigationInfo).setCurrentPage 1)
  | .malformed => Action.throw .numberFormat
  | .value n => pure ((⟨rowCount, 1⟩ : NavigationInfo).setCurrentPage n)

/-! ## Handlers -/

/-- What a handler puts into its page: the list, if it does not return early, the seconds of
    the countdown and the navigation. -/
structure ListPage (α : Type) where
  list : Option (List α)
  refreshTime : ℤ
  navigationInfo : NavigationInfo
  deriving DecidableEq

/-- The page of a handler that returns early. -/
def ListPage.early {α : Type} : ListPage α := ⟨none, -1, NavigationInfo.new⟩

/-- The filter by category of a request. -/
def categoryFilter (category : Option ℤ) : Option ℤ :=
  category.filter (fun c => c ≠ 0)

namespace BidderController

/-- The auction and the number of the active item, as the handlers read them. -/
def activeItemPlace : Act (ℤ × ℤ) := do
  let activeBidItemId ← RedisCacheService.getActiveBidItemId
  match ← RedisCacheService.getBidItemSequenceDetails activeBidItemId with
  | none => Action.throw .nullPointer
  | some details => do
    let auctionId ← ofExcept (Text.parseLong (details .auctionId))
    let seqId ← ofExcept (Text.parseLong (details .sequenceId))
    pure (auctionId, seqId)

/-- The service call for a list of upcoming items: at its end the items are written. -/
def marketListService (vo : BidderDao.CommonVO) (categoryId : Option ℤ) : Act (List BidItem) := do
  let db : Db ← dao .begin
  let bidItemsList := BidderDao.getBidItemsForCategoryForMarketListForBidder db vo categoryId
  -- the items are managed: what the loop has set in their columns is written
  forEach bidItemsList Dao.flush
  pure bidItemsList

/-- The part of `/marketlist` that counts the rows and fetches those of the page. -/
def marketPage (name : String) (auctionId sequenceId : ℤ) (categoryId : Option ℤ)
    (page : Arg ℤ) : Act (NavigationInfo × List BidItem) := do
  let db : Db ← dao .begin
  let count := BidderDao.findBidItemsCountForMarketListForBidder db
    ⟨name, auctionId, sequenceId, 0, 0⟩ categoryId
  let navigationInfo ← navigate count page
  let bidItemsList ← marketListService
    ⟨name, auctionId, sequenceId, navigationInfo.curPage * NavigationInfo.pageSize,
      NavigationInfo.pageSize⟩ categoryId
  pure (navigationInfo, bidItemsList)

/-- The loop that sets the countdown and the price of the listed items. -/
def countdown : ℤ → List BidItem → List BidItem
  | _, [] => []
  | refreshTime, bidItem :: rest =>
    { withPrice bidItem with timeLeft := refreshTime } ::
      countdown (refreshTime + bidItem.bidSpan) rest

/-- The page with the countdowns: later pages start at an estimate. -/
def withCountdown (navigationInfo : NavigationInfo) (refreshTime : ℤ)
    (bidItemsList : List BidItem) : ListPage BidItem :=
  let refreshTime :=
    match bidItemsList with
    | [] => refreshTime
    | first :: _ =>
      if 0 < navigationInfo.curPage then
        -- as if every row before had the span of the first item of this page
        refreshTime + (navigationInfo.curPage * NavigationInfo.pageSize) * first.bidSpan
      else refreshTime
  ⟨some (countdown refreshTime bidItemsList), refreshTime, navigationInfo⟩

/-- The seconds from the clock to the start of the auction, if the start is known. -/
def secondsToStart (auctionId : ℤ) : Act (Option ℤ) := do
  match ← BidItemsCacheService.chooseStartTime auctionId with
  | none => pure none
  | some date => do
    let currDate ← now
    pure (some (toSeconds (date - currDate)))

/-- `bidItemsList` of the page `/marketlist`. -/
def marketItems (name : String) (category : Option ℤ) (page : Arg ℤ) : Act (ListPage BidItem) := do
  let _ ← bidderCategoryList name
  match ← RedisCacheService.isEndSequence with
  | .null => do
    match ← RedisCacheService.getAuctionId with
    | none => pure .early
    | some id => do
      let auctionId ← ofExcept (Text.parseLong (some id))
      let (navigationInfo, bidItemsList) ←
        marketPage name auctionId 0 (categoryFilter category) page
      -- an early return leaves out the list and the navigation
      if bidItemsList = [] then pure .early
      else do
        match ← secondsToStart auctionId with
        | none => pure .early
        | some refreshTime =>
          -- the start is due, but no lot is active yet
          if refreshTime ≤ 0 then pure .early
          else pure (withCountdown navigationInfo refreshTime bidItemsList)
  | .isFalse => do
    let (auctionId, seqId) ← activeItemPlace
    let (navigationInfo, bidItemsList) ←
      marketPage name auctionId seqId (categoryFilter category) page
    match ← activeBidItem with
    | none => Action.throw .nullPointer
    | some bidItem => do
      let _ ← BidItemsCacheService.getTimeLeft bidItem
      let refreshTime ← BidItemsCacheService.getTimeLeft bidItem
      pure (withCountdown navigationInfo refreshTime bidItemsList)
  | .isTrue => pure ⟨some [], -1, NavigationInfo.new⟩

/-- The part of `/closed` that counts the rows and fetches those of the page. -/
def closedPage (name : String) (auctionId sequenceId : ℤ) (categoryId : Option ℤ)
    (page : Arg ℤ) : Act (ListPage BidItem) := do
  let db : Db ← dao .begin
  let count := BidderDao.findBidItemsCountForClosedListForBidder db
    ⟨name, auctionId, sequenceId, 0, 0⟩ categoryId
  let navigationInfo ← navigate count page
  let db : Db ← dao .begin
  let bidItemsList := BidderDao.getBidItemsForCategoryForClosedMarket db
    ⟨name, auctionId, sequenceId, navigationInfo.curPage * NavigationInfo.pageSize,
      NavigationInfo.pageSize⟩ categoryId
  pure ⟨some bidItemsList, -1, navigationInfo⟩

/-- `bidItemsList` of the page `/closed`. -/
def closedItems (name : String) (category : Option ℤ) (page : Arg ℤ) : Act (ListPage BidItem) := do
  let _ ← bidderCategoryList name
  match ← RedisCacheService.isEndSequence with
  | .null => pure ⟨some [], -1, NavigationInfo.new⟩
  | .isFalse => do
    let (auctionId, seqId) ← activeItemPlace
    closedPage name auctionId seqId (categoryFilter category) page
  | .isTrue => do
    match ← RedisCacheService.getAuctionId with
    | none => pure .early
    | some id => do
      let auctionId ← ofExcept (Text.parseLong (some id))
      -- after the end the number `0` lists all lots
      closedPage name auctionId 0 (categoryFilter category) page

end BidderController

namespace ObserverController

open BidderController

/-- `bidItemsList` of the observer's page `/marketlist`: a start that is due is shown, and the
    time left is read once. -/
def marketItems (name : String) (category : Option ℤ) (page : Arg ℤ) : Act (ListPage BidItem) := do
  let _ ← bidderCategoryList name
  match ← RedisCacheService.isEndSequence with
  | .null => do
    match ← RedisCacheService.getAuctionId with
    | none => pure .early
    | some _ => do
      let id ← RedisCacheService.getAuctionId
      let auctionId ← ofExcept (Text.parseLong id)
      let (navigationInfo, bidItemsList) ←
        marketPage name auctionId 0 (categoryFilter category) page
      if bidItemsList = [] then pure .early
      else do
        match ← secondsToStart auctionId with
        | none => pure .early
        | some refreshTime =>
          -- unlike the bidder's page, which returns at `0` as well
          if refreshTime < 0 then pure .early
          else pure (withCountdown navigationInfo refreshTime bidItemsList)
  | .isFalse => do
    let (auctionId, seqId) ← activeItemPlace
    let (navigationInfo, bidItemsList) ←
      marketPage name auctionId seqId (categoryFilter category) page
    match ← activeBidItem with
    | none => Action.throw .nullPointer
    | some bidItem => do
      let refreshTime ← BidItemsCacheService.getTimeLeft bidItem
      pure (withCountdown navigationInfo refreshTime bidItemsList)
  | .isTrue => pure ⟨some [], -1, NavigationInfo.new⟩

/-- The part of `/closed` after the auction and the number of the active item are known. The
    number of rows is taken from that number; once the sequence has ended, it is the number of
    the user's items, in any category, and the number after it stands for the end. -/
def closedPage (name : String) (auctionId seqId : ℤ) (categoryId : Option ℤ) (page : Arg ℤ) :
    Act (ListPage ObserverDao.ClosedEntry) := do
  let db : Db ← dao .begin
  let count :=
    if seqId - 1 < 0 then
      BidderDao.findBidItemsCountForClosedListForBidder db ⟨name, auctionId, seqId, 0, 0⟩ none
    -- the lots before the active one, whether the observer may see them or not
    else seqId - 1
  let sequenceId := if seqId = 0 ∧ count ≠ 0 then count + 1 else seqId
  let navigationInfo ← navigate count page
  let db : Db ← dao .begin
  let bidsList := ObserverDao.getBidItemsForCategoryForClosedMarketForObserver db
    ⟨name, auctionId, sequenceId, navigationInfo.curPage * NavigationInfo.pageSize,
      NavigationInfo.pageSize⟩ categoryId
  pure ⟨some bidsList, -1, navigationInfo⟩

/-- `bidsList` of the observer's page `/closed`. -/
def closedItems (name : String) (category : Option ℤ) (page : Arg ℤ) :
    Act (ListPage ObserverDao.ClosedEntry) := do
  match ← RedisCacheService.isEndSequence with
  | .null => do
    let _ ← bidderCategoryList name
    pure ⟨some [], -1, NavigationInfo.new⟩
  | .isFalse => do
    let (auctionId, seqId) ← activeItemPlace
    let result ← closedPage name auctionId seqId (categoryFilter category) page
    let _ ← bidderCategoryList name
    pure result
  | .isTrue => do
    match ← RedisCacheService.getAuctionId with
    | none => pure .early
    | some id => do
      let auctionId ← ofExcept (Text.parseLong (some id))
      let result ← closedPage name auctionId 0 (categoryFilter category) page
      let _ ← bidderCategoryList name
      pure result

end ObserverController

end Bidding.Model
