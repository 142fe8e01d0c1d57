import Bidding.Properties.Entitlement
import Bidding.Sale.Start
import Bidding.Semantics.MarketRows

/-!
# Runs of the List Pages

What the handlers of the lists of upcoming and closed items answer, in each phase of an
auction, page by page and over all pages.

## Key Results

- **`run_marketPage`**: the rows that a page of the upcoming items shows.
- **`run_marketItems_onSale`**, **`run_marketItems_notStarted`**: the page while an item is on
  sale and before the start.
-/

namespace Bidding.Model

open Bidding.Effects Bidding.Effects.Action Bidding.Collections
open RedisCacheService BidItemsCacheService BidderDao

/-! ## Phases of an auction -/

/-- Where an auction stands. -/
inductive Phase where
  | notStarted
  | onSale (bidItemId seqId : ℤ)
  | ended

/-- The item on sale, with its place in the sequence of the auction. -/
structure OnSaleAt (r : Redis) (auctionId bidItemId seqId : ℤ) : Prop where
  active : r.strings .activeBidItemId = some (.long bidItemId)
  ne_zero : bidItemId ≠ 0
  cached : Cached r bidItemId
  auctionId : r.hashes (.bidSequence bidItemId) .auctionId = some (.long auctionId)
  sequenceId : r.hashes (.bidSequence bidItemId) .sequenceId = some (.long seqId)

/-- The cache belongs to the auction, and the auction stands there. -/
structure Stands (r : Redis) (auctionId : ℤ) (phase : Phase) : Prop where
  auction : r.strings .auctionId = some (.long auctionId)
  phase : match phase with
    | .notStarted => r.strings .activeBidItemId = none
    | .onSale bidItemId seqId => OnSaleAt r auctionId bidItemId seqId
    | .ended => r.strings .activeBidItemId = some (.long 0)

/-- The number that the queries take as their bound. -/
def Phase.sequenceId : Phase → ℤ
  | .onSale _ seqId => seqId
  | .notStarted | .ended => 0

/-- The lots with these numbers are still to come. -/
def Phase.upcoming : Phase → ℤ → Bool
  | .notStarted, _ => true
  | .onSale _ seqId, number => seqId < number
  | .ended, _ => false

namespace Stands

variable {r : Redis} {auctionId bidItemId seqId : ℤ}

theorem endSequence_notStarted (h : Stands r auctionId .notStarted) : endSequence r = .null := by
  unfold endSequence
  rw [h.phase]

theorem endSequence_onSale (h : Stands r auctionId (.onSale bidItemId seqId)) :
    endSequence r = .isFalse := by
  unfold endSequence
  rw [h.phase.active]
  exact if_neg (fun heq => h.phase.ne_zero (Text.long.inj heq))

/-- At the end the active id is `0`. -/
theorem endSequence_ended (h : Stands r auctionId .ended) : endSequence r = .isTrue := by
  unfold endSequence
  rw [h.phase]
  exact if_pos rfl

theorem activeId_onSale (h : Stands r auctionId (.onSale bidItemId seqId)) :
    activeId r = bidItemId := by
  unfold activeId
  rw [h.phase.active]

end Stands

/-- The phase of a sale. -/
def phaseOf (s : Sale BidSequence) : Phase :=
  if s.started then
    match s.current with
    | some lot => .onSale lot.bidItemId lot.sequenceId
    | none => .ended
  else .notStarted

/-- A world that stands for a sale stands in the phase of the sale. -/
theorem Refines.stands {s : Sale BidSequence} {w : World} {auctionId : ℤ} (h : Refines s w)
    (hne : ∀ lot ∈ s.lots, lot.bidItemId ≠ 0)
    (hauction : w.redis.strings .auctionId = some (.long auctionId))
    (hlots : ∀ lot ∈ s.lots,
      w.redis.hashes (.bidSequence lot.bidItemId) .auctionId = some (.long auctionId)) :
    Stands w.redis auctionId (phaseOf s) := by
  refine ⟨hauction, ?_⟩
  have hactive := h.active
  unfold phaseOf
  -- the phase is read off the active id
  by_cases hstarted : s.started = true
  · rw [if_pos hstarted] at hactive ⊢
    cases hcurrent : s.current with
    | none =>
      rw [hcurrent] at hactive
      exact hactive
    | some lot =>
      rw [hcurrent] at hactive
      have hopened := Sale.mem_opened_of_current hcurrent
      have hlot : lot ∈ s.lots := List.mem_append_left _ hopened
      exact ⟨hactive, hne lot hlot, h.opened lot hopened, hlots lot hlot,
        (h.data.inSequence lot hlot).sequenceId⟩
  · rw [if_neg hstarted] at hactive ⊢
    exact hactive

section Reads

variable (env : Env) {w : World} {auctionId : ℤ} {phase : Phase}

theorem Stands.run_bidderCategoryList (h : Stands w.redis auctionId phase) (name : String) :
    run (handle env) (BidderController.bidderCategoryList name) w =
      (.ok (CommonDao.getCategoryList w.db name auctionId), w) := by
  rw [Model.run_bidderCategoryList, cachedCategoryList, h.auction]
  rfl

/-- The place of the item on sale is that of its details in the sequence. -/
theorem Stands.run_activeItemPlace {bidItemId seqId : ℤ}
    (h : Stands w.redis auctionId (.onSale bidItemId seqId)) :
    run (handle env) BidderController.activeItemPlace w = (.ok (auctionId, seqId), w) := by
  unfold BidderController.activeItemPlace
  rw [run_bind_ok (run_getActiveBidItemId env w), h.activeId_onSale,
    run_bind_ok (run_getBidItemSequenceDetails env w bidItemId)]
  simp only [run_bind, run_ofExcept, h.phase.auctionId, h.phase.sequenceId, Text.parseLong]
  rfl

/-- Fetching the item on sale, whatever the tables are. -/
theorem Stands.run_activeBidItem {bidItemId seqId : ℤ}
    (h : Stands w.redis auctionId (.onSale bidItemId seqId)) (db : Db) :
    ∃ item bidders, item = { cachedItem w.redis bidItemId with currentBiddersList := bidders } ∧
      run (handle env) BidderController.activeBidItem { w with db } =
        (.ok (some item), { w with db, reads := checkReading w bidItemId }) := by
  let w₁ : World := { w with db }
  obtain ⟨bidders, hget⟩ := run_getBidItem_of_readable env w₁ bidItemId h.phase.cached.member
    h.phase.cached.readable
  have hid : (cachedItem w₁.redis bidItemId).bidItemId = some bidItemId :=
    cachedItem_bidItemId h.phase.cached.bidItemId
  rw [hid] at hget
  have hactive : activeId w₁.redis = bidItemId := h.activeId_onSale
  -- the item is in the cache, so that the transaction loads nothing
  have hmanaged : run (handle env) (getBidItemManaged bidItemId) w₁ = _ := run_bind_ok hget
  refine ⟨_, bidders, rfl, ?_⟩
  show run (handle env) BidderController.activeBidItem w₁ = _
  rw [Model.run_activeBidItem, hactive, BidderController.proxyGetBidItem, run_transactional,
    hmanaged]
  rfl

/-- The seconds from the clock to the start of the auction. -/
def startSeconds (env : Env) (w : World) (auctionId : ℤ) : Option ℤ :=
  (w.auctionStartTime.or (CommonDao.getActualAuctionStartTime w.db auctionId)).map
    (fun date => toSeconds (date - env.clock w.reads))

theorem run_chooseStartTime (w : World) (auctionId : ℤ) :
    run (handle env) (chooseStartTime auctionId) w =
      (.ok (w.auctionStartTime.or (CommonDao.getActualAuctionStartTime w.db auctionId)), w) := by
  unfold chooseStartTime
  rw [run_bind_ok (run_getAuctionStartTime env w)]
  cases w.auctionStartTime <;> rfl

/-- The seconds to the start are those to the start time that is chosen. -/
theorem run_secondsToStart (w : World) (auctionId : ℤ) :
    ∃ n, run (handle env) (BidderController.secondsToStart auctionId) w =
      (.ok (startSeconds env w auctionId), { w with reads := w.reads + n }) := by
  unfold BidderController.secondsToStart startSeconds
  rw [run_bind_ok (run_chooseStartTime env w auctionId)]
  cases w.auctionStartTime.or (CommonDao.getActualAuctionStartTime w.db auctionId) with
  | none => exact ⟨0, rfl⟩
  | some date => exact ⟨1, rfl⟩

end Reads

/-! ## Navigation -/

section Navigation

variable {rowCount : ℤ}

@[simp] theorem rowCount_setCurrentPage (info : NavigationInfo) (n : ℤ) :
    (info.setCurrentPage n).rowCount = info.rowCount := rfl

/-- Number of pages for a number of rows. -/
def pagesFor (rows : ℕ) : ℕ := (rows + 9) / 10

theorem le_pagesFor (rows : ℕ) : rows ≤ pagesFor rows * NavigationInfo.pageSize := by
  unfold pagesFor NavigationInfo.pageSize
  omega

theorem getPageCount_toNat (rows : ℕ) (n : ℤ) :
    ((⟨rows, n⟩ : NavigationInfo).getPageCount).toNat = pagesFor rows := by
  unfold NavigationInfo.getPageCount pagesFor
  dsimp only
  omega

/-- A page that exists is the current one. -/
theorem curPage_setCurrentPage {rows k : ℕ} (h : k < pagesFor rows) :
    ((⟨rows, 1⟩ : NavigationInfo).setCurrentPage (k + 1)).curPage = k := by
  unfold NavigationInfo.setCurrentPage NavigationInfo.curPage NavigationInfo.getPageCount
  unfold pagesFor at h
  dsimp only
  rw [if_neg (by omega), if_neg (by omega), if_neg (by omega)]
  omega

end Navigation

/-! ## Pages of upcoming items -/

/-- The tables when the listed items have been written. -/
def flushAll (db : Db) (items : List BidItem) : Db :=
  items.foldl (fun db item =>
    match item.bidItemId with
    | some id => CommonDao.flush db id item
    | none => db) db

/-- Writing items back leaves the auctions alone. -/
theorem flushAll_auctions (db : Db) (items : List BidItem) :
    (flushAll db items).auctions = db.auctions := by
  unfold flushAll
  induction items generalizing db with
  | nil => rfl
  | cons item items ih =>
    rw [List.foldl_cons, ih]
    split <;> rfl

section Market

variable (env : Env) (w : World) (name : String) (auctionId sequenceId : ℤ)
  (categoryId : Option ℤ)

theorem run_flush_one (item : BidItem) :
    run (handle env) (Dao.flush item) w = (.ok (), { w with db := flushAll w.db [item] }) := by
  show (_, (handleDao env (.flush item) w).2) = _
  unfold handleDao flushAll
  simp only [List.foldl_cons, List.foldl_nil]
  cases item.bidItemId <;> rfl

theorem run_forEach_flush (items : List BidItem) :
    run (handle env) (forEach items Dao.flush) w =
      (.ok (), { w with db := flushAll w.db items }) := by
  rw [run_forEach (fun item _ w => run_flush_one env w item) w]
  congr 1
  induction items generalizing w with
  | nil => rfl
  | cons item items ih => exact ih _

/-- The service lists the items and writes them back. -/
theorem run_marketListService (vo : CommonVO) :
    run (handle env) (BidderController.marketListService vo categoryId) w =
      let items := getBidItemsForCategoryForMarketListForBidder w.db vo categoryId
      (.ok items, { w with db := flushAll w.db items }) := by
  unfold BidderController.marketListService
  refine (run_bind_ok (run_begin env w)).trans ?_
  exact run_bind_ok (run_forEach_flush env w _)

/-- The items that the `k`-th page shows. -/
def pageItems (db : Db) (name : String) (auctionId sequenceId : ℤ) (categoryId : Option ℤ)
    (k : ℕ) : List BidItem :=
  (page NavigationInfo.pageSize k (marketQuery db ⟨name, auctionId, sequenceId, 0, 0⟩
    categoryId)).foldl (listRow db name) []

/-- The navigation of a request for the page `n`. -/
def navigation (rows : ℕ) (n : ℤ) : NavigationInfo :=
  (⟨rows, 1⟩ : NavigationInfo).setCurrentPage n

/-- The rows of a page are counted and fetched. -/
theorem run_marketPage (n : ℤ) :
    run (handle env) (BidderController.marketPage name auctionId sequenceId categoryId (.value n))
        w =
      let nav := navigation (marketQuery w.db ⟨name, auctionId, sequenceId, 0, 0⟩
        categoryId).length n
      let items := pageItems w.db name auctionId sequenceId categoryId nav.curPage
      (.ok (nav, items), { w with db := flushAll w.db items }) := by
  unfold BidderController.marketPage
  refine (run_bind_ok (run_begin env w)).trans ?_
  exact run_bind_ok (run_marketListService env w categoryId _)

end Market

section Pages

variable (env : Env) {w : World} {auctionId : ℤ} {phase : Phase} (name : String)
  (category : Option ℤ)

/-- Who looks at the list of upcoming items. -/
inductive Viewer where
  | bidder
  | observer
  deriving DecidableEq

namespace Viewer

/-- The handler of the viewer. -/
def marketItems : Viewer → String → Option ℤ → Arg ℤ → Act (ListPage BidItem)
  | bidder => BidderController.marketItems
  | observer => ObserverController.marketItems

/-- Whether the list is shown that many seconds before the start. -/
def shows : Viewer → ℤ → Bool
  | bidder, t => 0 < t
  | observer, t => 0 ≤ t

/-- The clock reading that gives the time left of the item on sale. -/
def reading (w : World) (bidItemId : ℤ) : Viewer → ℕ
  | bidder => checkReading w bidItemId + 1
  | observer => checkReading w bidItemId

/-- Where the countdown of the list starts, if there is a list: at the seconds to the start or
    at the time left of the item on sale. -/
def startsAt (viewer : Viewer) (env : Env) (w : World) (auctionId : ℤ) : Phase → Option ℤ
  | .notStarted => (startSeconds env w auctionId).filter viewer.shows
  | .onSale bidItemId _ =>
    ((cachedItem w.redis bidItemId).timeLeftAt (env.clock (viewer.reading w bidItemId))).toOption
  | .ended => none

end Viewer

/-- The upcoming rows of the user in a phase of the auction. -/
def upcomingRows (db : Db) (name : String) (auctionId : ℤ) (category : Option ℤ) (phase : Phase) :
    List (BidItem × BidSequence) :=
  marketQuery db ⟨name, auctionId, phase.sequenceId, 0, 0⟩ (categoryFilter category)

/-- The rows of a page of the upcoming items. -/
def upcomingPage (db : Db) (name : String) (auctionId : ℤ) (category : Option ℤ) (phase : Phase)
    (n : ℤ) : NavigationInfo × List BidItem :=
  let nav := navigation (upcomingRows db name auctionId category phase).length n
  (nav, pageItems db name auctionId phase.sequenceId (categoryFilter category) nav.curPage)

/-- What the handlers answer before the start. -/
def answerBeforeStart (viewer : Viewer) (seconds : Option ℤ) (nav : NavigationInfo)
    (items : List BidItem) : ListPage BidItem :=
  if items = [] then .early
  else
    match seconds with
    | none => .early
    | some t => if viewer.shows t then BidderController.withCountdown nav t items else .early

/-- Writing the listed items does not move the start. -/
theorem run_secondsToStart_flushAll (items : List BidItem) :
    ∃ t, run (handle env) (BidderController.secondsToStart auctionId)
      { w with db := flushAll w.db items } = (.ok (startSeconds env w auctionId), t) := by
  obtain ⟨m, hstart⟩ := run_secondsToStart env { w with db := flushAll w.db items } auctionId
  have hsame : CommonDao.getActualAuctionStartTime (flushAll w.db items) auctionId =
      CommonDao.getActualAuctionStartTime w.db auctionId := by
    unfold CommonDao.getActualAuctionStartTime
    rw [flushAll_auctions]
  unfold startSeconds at hstart
  rw [hsame] at hstart
  exact ⟨_, hstart⟩

theorem run_upcomingPage (phase : Phase) (n : ℤ) :
    run (handle env) (BidderController.marketPage name auctionId phase.sequenceId
      (categoryFilter category) (.value n)) w =
      let shown := upcomingPage w.db name auctionId category phase n
      (.ok shown, { w with db := flushAll w.db shown.2 }) :=
  run_marketPage env w name auctionId phase.sequenceId (categoryFilter category) n

/-- The end of both handlers before the start; they differ in when a start counts as past. -/
theorem run_answerBeforeStart (viewer : Viewer) (past : ℤ → Prop) [DecidablePred past]
    (hpast : ∀ t, past t ↔ viewer.shows t = false) (nav : NavigationInfo) (items : List BidItem) :
    (run (handle env) (if items = [] then pure .early
      else do
        match ← BidderController.secondsToStart auctionId with
        | none => pure .early
        | some refreshTime =>
          if past refreshTime then pure .early
          else pure (BidderController.withCountdown nav refreshTime items))
      { w with db := flushAll w.db items }).1 =
      .ok (answerBeforeStart viewer (startSeconds env w auctionId) nav items) := by
  obtain ⟨_, hstart⟩ := @run_secondsToStart_flushAll env w auctionId items
  unfold answerBeforeStart
  by_cases hnil : items = []
  · rw [if_pos hnil, if_pos hnil]
    rfl
  · rw [if_neg hnil, if_neg hnil, run_bind_ok hstart]
    cases startSeconds env w auctionId with
    | none => rfl
    | some t =>
      -- a start that is past shows no list
      by_cases ht : past t
      · simp [ht, (hpast t).mp ht]
      · have hshows : viewer.shows t = true := by
          simpa using mt (hpast t).mpr ht
        simp [ht, hshows]

/-- The market list before the first tick. -/
theorem run_marketItems_notStarted (h : Stands w.redis auctionId .notStarted) (viewer : Viewer)
    (n : ℤ) :
    (run (handle env) (viewer.marketItems name category (.value n)) w).1 =
      let shown := upcomingPage w.db name auctionId category .notStarted n
      .ok (answerBeforeStart viewer (startSeconds env w auctionId) shown.1 shown.2) := by
  have hpage : run (handle env) (BidderController.marketPage name auctionId 0
      (categoryFilter category) (.value n)) w = _ :=
    run_upcomingPage env name category .notStarted n
  have hid := run_parseId env w auctionId
  have hauction := run_getAuctionId env w
  rw [h.auction] at hauction
  generalize upcomingPage w.db name auctionId category .notStarted n = shown at hpage ⊢
  obtain ⟨nav, items⟩ := shown
  cases viewer with
  | bidder =>
    show (run (handle env) (BidderController.marketItems name category (.value n)) w).1 = _
    unfold BidderController.marketItems
    rw [run_bind_ok (h.run_bidderCategoryList env name), run_bind_ok (run_isEndSequence env w),
      h.endSequence_notStarted]
    dsimp only
    rw [run_bind_ok hauction]
    dsimp only
    rw [run_bind_ok hid, run_bind_ok hpage]
    exact run_answerBeforeStart env .bidder (· ≤ 0) (by simp [Viewer.shows]) nav items
  | observer =>
    show (run (handle env) (ObserverController.marketItems name category (.value n)) w).1 = _
    unfold ObserverController.marketItems
    rw [run_bind_ok (h.run_bidderCategoryList env name), run_bind_ok (run_isEndSequence env w),
      h.endSequence_notStarted]
    dsimp only
    rw [run_bind_ok hauction]
    dsimp only
    -- the observer's page fetches the id of the auction a second time
    rw [run_bind_ok hauction, run_bind_ok hid, run_bind_ok hpage]
    exact run_answerBeforeStart env .observer (· < 0) (by simp [Viewer.shows]) nav items

/-- The market list while an item is on sale. -/
theorem run_marketItems_onSale {bidItemId seqId : ℤ}
    (h : Stands w.redis auctionId (.onSale bidItemId seqId)) (viewer : Viewer) (n : ℤ) :
    ∃ t, viewer.startsAt env w auctionId (.onSale bidItemId seqId) = some t ∧
      (run (handle env) (viewer.marketItems name category (.value n)) w).1 =
        let shown := upcomingPage w.db name auctionId category (.onSale bidItemId seqId) n
        .ok (BidderController.withCountdown shown.1 t shown.2) := by
  obtain ⟨E, U, X, htimes⟩ := h.phase.cached.times
  obtain ⟨hend, hupdate, hext⟩ := htimes.cachedItem_eq
  have hpage : run (handle env) (BidderController.marketPage name auctionId seqId
      (categoryFilter category) (.value n)) w = _ :=
    run_upcomingPage env name category (.onSale bidItemId seqId) n
  generalize upcomingPage w.db name auctionId category (.onSale bidItemId seqId) n = shown
    at hpage ⊢
  obtain ⟨nav, items⟩ := shown
  obtain ⟨item, bidders, heq, hitem⟩ := h.run_activeBidItem env (flushAll w.db items)
  -- the time left depends on the clock only, not on the bidders
  have htimeLeft : ∀ v : World, run (handle env) (getTimeLeft item) v =
      (.ok (countdown E U X (toSeconds (env.clock v.reads))),
        { v with reads := v.reads + 1 }) := by
    intro v
    subst heq
    exact run_getTimeLeft env v hend hupdate hext
  -- both handlers take the same steps up to the countdown of the item on sale
  refine ⟨countdown E U X (toSeconds (env.clock (viewer.reading w bidItemId))), ?_, ?_⟩
  · simp only [Viewer.startsAt, BidItem.timeLeftAt, hend, hupdate, hext, toSeconds_ofSecond]
    unfold countdown
    split <;> rfl
  cases viewer with
  | bidder =>
    show (run (handle env) (BidderController.marketItems name category (.value n)) w).1 = _
    unfold BidderController.marketItems
    rw [run_bind_ok (h.run_bidderCategoryList env name), run_bind_ok (run_isEndSequence env w),
      h.endSequence_onSale]
    dsimp only
    rw [run_bind_ok (h.run_activeItemPlace env)]
    dsimp only
    rw [run_bind_ok hpage]
    dsimp only
    rw [run_bind_ok hitem]
    dsimp only
    -- the bidder's page computes the time left twice, the observer's once
    rw [run_bind_ok (htimeLeft _), run_bind_ok (htimeLeft _)]
    rfl
  | observer =>
    show (run (handle env) (ObserverController.marketItems name category (.value n)) w).1 = _
    unfold ObserverController.marketItems
    rw [run_bind_ok (h.run_bidderCategoryList env name), run_bind_ok (run_isEndSequence env w),
      h.endSequence_onSale]
    dsimp only
    rw [run_bind_ok (h.run_activeItemPlace env)]
    dsimp only
    rw [run_bind_ok hpage]
    dsimp only
    rw [run_bind_ok hitem]
    dsimp only
    rw [run_bind_ok (htimeLeft _)]
    rfl

/-- The market list at the end is empty. -/
theorem run_marketItems_ended (h : Stands w.redis auctionId .ended) (viewer : Viewer) (n : ℤ) :
    (run (handle env) (viewer.marketItems name category (.value n)) w).1 =
      .ok ⟨some [], -1, NavigationInfo.new⟩ := by
  cases viewer with
  | bidder =>
    show (run (handle env) (BidderController.marketItems name category (.value n)) w).1 = _
    unfold BidderController.marketItems
    rw [run_bind_ok (h.run_bidderCategoryList env name), run_bind_ok (run_isEndSequence env w),
      h.endSequence_ended]
    rfl
  | observer =>
    show (run (handle env) (ObserverController.marketItems name category (.value n)) w).1 = _
    unfold ObserverController.marketItems
    rw [run_bind_ok (h.run_bidderCategoryList env name), run_bind_ok (run_isEndSequence env w),
      h.endSequence_ended]
    rfl

end Pages

/-! ## What is shown, over all pages -/

section Shown

variable {α : Type}

/-- The list of a page; a request that fails shows nothing. -/
def shownOn (env : Env) (w : World) (request : Arg ℤ → Act (ListPage α)) (n : ℤ) : List α :=
  match (run (handle env) (request (.value n)) w).1 with
  | .ok page => page.list.getD []
  | .error _ => []

/-- The number of pages, as the first page has it. -/
def pageCount (env : Env) (w : World) (request : Arg ℤ → Act (ListPage α)) : ℕ :=
  match (run (handle env) (request (.value 1)) w).1 with
  | .ok page => page.navigationInfo.getPageCount.toNat
  | .error _ => 0

/-- The lists of all pages, one after the other. -/
def shownOnPages (env : Env) (w : World) (request : Arg ℤ → Act (ListPage α)) : List α :=
  (List.range (pageCount env w request)).flatMap (fun k : ℕ => shownOn env w request ((k : ℤ) + 1))

end Shown

section MarketShown

variable {env : Env} {w : World} {auctionId : ℤ} {phase : Phase} {name : String}
  {category : Option ℤ} {viewer : Viewer}

theorem navigation_curPage_lt {rows : ℕ} (h : 0 < rows) (n : ℤ) :
    (navigation rows n).curPage < pagesFor rows := by
  unfold navigation NavigationInfo.setCurrentPage NavigationInfo.curPage
    NavigationInfo.getPageCount pagesFor
  dsimp only
  split_ifs <;> omega

/-- A row that is listed leaves an entry. -/
theorem listRow_ne_nil (items : List BidItem) (row : BidItem × BidSequence) :
    listRow w.db name items row ≠ [] := by
  unfold listRow
  dsimp only
  split
  · rename_i hany
    rw [Ne, List.map_eq_nil_iff]
    rintro rfl
    simp at hany
  · simp

/-- A page of a list that has rows is not empty. -/
theorem pageItems_ne_nil {sequenceId : ℤ} {categoryId : Option ℤ} {k : ℕ}
    (h : k < pagesFor (marketQuery w.db ⟨name, auctionId, sequenceId, 0, 0⟩ categoryId).length) :
    pageItems w.db name auctionId sequenceId categoryId k ≠ [] := by
  unfold pageItems
  generalize marketQuery w.db ⟨name, auctionId, sequenceId, 0, 0⟩ categoryId = rows at h ⊢
  -- a page that is counted has a row
  have hrows : page NavigationInfo.pageSize k rows ≠ [] := by
    apply List.ne_nil_of_length_pos
    simp only [page, NavigationInfo.pageSize, List.length_take, List.length_drop]
    unfold pagesFor at h
    omega
  -- the last row of the page is in the list
  rw [← List.dropLast_append_getLast hrows, List.foldl_append]
  exact listRow_ne_nil _ _

theorem upcomingPage_eq_nil {n : ℤ}
    (h : (upcomingPage w.db name auctionId category phase n).2 = []) :
    upcomingRows w.db name auctionId category phase = [] := by
  apply Classical.byContradiction
  intro hrows
  exact pageItems_ne_nil (navigation_curPage_lt (List.length_pos_iff.mpr hrows) n) h

/-- An answer with the list of a page and as many pages as the rows fill, or an answer
    without a list. -/
def Lists (rows : ℕ) (shown : NavigationInfo × List BidItem) (answer : ListPage BidItem) :
    Option ℤ → Prop
  | none => answer.list.getD [] = [] ∧ answer.navigationInfo.getPageCount.toNat = 0
  | some t =>
    answer.list.getD [] = (BidderController.withCountdown shown.1 t shown.2).list.getD [] ∧
      answer.navigationInfo.getPageCount.toNat = pagesFor rows

theorem lists_withCountdown (phase : Phase) (t n : ℤ) :
    let shown := upcomingPage w.db name auctionId category phase n
    Lists (upcomingRows w.db name auctionId category phase).length shown
      (BidderController.withCountdown shown.1 t shown.2) (some t) :=
  ⟨rfl, getPageCount_toNat _ _⟩

/-- What both handlers answer: a list if there is something to count down to. -/
theorem run_marketItems (h : Stands w.redis auctionId phase) (n : ℤ) :
    ∃ answer, (run (handle env) (viewer.marketItems name category (.value n)) w).1 = .ok answer ∧
      Lists (upcomingRows w.db name auctionId category phase).length
        (upcomingPage w.db name auctionId category phase n) answer
        (viewer.startsAt env w auctionId phase) := by
  cases phase with
  | notStarted =>
    refine ⟨_, run_marketItems_notStarted env name category h viewer n, ?_⟩
    unfold answerBeforeStart Viewer.startsAt
    by_cases hnil : (upcomingPage w.db name auctionId category .notStarted n).2 = []
    · -- without rows there is no list, whatever the countdown
      rw [if_pos hnil, upcomingPage_eq_nil hnil]
      cases (startSeconds env w auctionId).filter viewer.shows with
      | none => exact ⟨rfl, rfl⟩
      | some t => exact ⟨by rw [hnil]; rfl, rfl⟩
    · rw [if_neg hnil]
      cases startSeconds env w auctionId with
      | none => exact ⟨rfl, rfl⟩
      | some t =>
        rw [Option.filter_some]
        by_cases ht : viewer.shows t = true
        · simp only [ht, if_true]
          exact lists_withCountdown .notStarted t n
        · simp only [ht]
          exact ⟨rfl, rfl⟩
  -- the countdown is there, and so is the list
  | onSale bidItemId seqId =>
    obtain ⟨t, hstart, hrun⟩ := run_marketItems_onSale env name category h viewer n
    rw [hstart]
    exact ⟨_, hrun, lists_withCountdown _ t n⟩
  | ended => exact ⟨_, run_marketItems_ended env name category h viewer n, rfl, rfl⟩

/-- What a page shows, if there is a list. -/
theorem shownOn_marketItems (h : Stands w.redis auctionId phase) (n : ℤ) :
    shownOn env w (viewer.marketItems name category) n =
      match viewer.startsAt env w auctionId phase with
      | none => []
      | some t =>
        let shown := upcomingPage w.db name auctionId category phase n
        (BidderController.withCountdown shown.1 t shown.2).list.getD [] := by
  obtain ⟨answer, hrun, hlists⟩ := @run_marketItems env w auctionId phase name category viewer h n
  unfold shownOn
  rw [hrun]
  cases hstart : viewer.startsAt env w auctionId phase with
  | none | some t =>
    rw [hstart] at hlists
    exact hlists.1

/-- How many pages the handler says there are. -/
theorem pageCount_marketItems (h : Stands w.redis auctionId phase) :
    pageCount env w (viewer.marketItems name category) =
      match viewer.startsAt env w auctionId phase with
      | none => 0
      | some _ => pagesFor (upcomingRows w.db name auctionId category phase).length := by
  obtain ⟨answer, hrun, hlists⟩ := @run_marketItems env w auctionId phase name category viewer h 1
  unfold pageCount
  rw [hrun]
  cases hstart : viewer.startsAt env w auctionId phase with
  | none | some t =>
    rw [hstart] at hlists
    exact hlists.2

/-- The item and the number of a listed item. -/
def place (item : BidItem) : Option ℤ × ℤ := (item.bidItemId, item.seqId)

/-- The item and the number of a row. -/
def rowPlace (row : BidItem × BidSequence) : Option ℤ × ℤ :=
  (some row.2.bidItemId, row.2.sequenceId)

/-- Counting down does not move the items. -/
theorem map_place_countdown (t : ℤ) (items : List BidItem) :
    (BidderController.countdown t items).map place = items.map place := by
  induction items generalizing t with
  | nil => rfl
  | cons item items ih =>
    simp only [BidderController.countdown, List.map_cons, ih]
    congr 1

theorem fromTables_upcomingRows (hd : DistinctLots w.db auctionId) :
    FromTables w.db (upcomingRows w.db name auctionId category phase) where
  item _ hrow := (mem_marketQuery.mp hrow).2.2.1
  same _ hrow _ hrow' := marketQuery_eq_of_item hd hrow hrow'

/-- The items of a page are its rows, each once. -/
theorem pageItems_eq (hd : DistinctLots w.db auctionId) (k : ℕ) :
    pageItems w.db name auctionId phase.sequenceId (categoryFilter category) k =
      (page NavigationInfo.pageSize k
        (upcomingRows w.db name auctionId category phase)).eraseDups.map (listed w.db name) := by
  apply foldl_listRow
  exact (fromTables_upcomingRows hd).of_subset (page_sublist _ _ _).subset

theorem map_place_listed {rows : List (BidItem × BidSequence)} (h : FromTables w.db rows) :
    (rows.map (listed w.db name)).map place = rows.map rowPlace := by
  rw [List.map_map]
  apply List.map_congr_left
  intro row hrow
  simp only [Function.comp_apply, place, rowPlace, listed_bidItemId (h.item row hrow),
    listed_seqId]

/-- The rows of all pages, each shown once on its page. -/
def pagedRows (rows : List (BidItem × BidSequence)) : List (BidItem × BidSequence) :=
  (List.range (pagesFor rows.length)).flatMap
    (fun k => (page NavigationInfo.pageSize k rows).eraseDups)

theorem mem_pagedRows {rows : List (BidItem × BidSequence)} {row : BidItem × BidSequence} :
    row ∈ pagedRows rows ↔ row ∈ rows :=
  mem_flatMap_eraseDups (le_pagesFor _)

/-- Over all pages: the rows of each page, each once. -/
theorem map_place_shownOnPages (h : Stands w.redis auctionId phase)
    (hd : DistinctLots w.db auctionId) :
    (shownOnPages env w (viewer.marketItems name category)).map place =
      match viewer.startsAt env w auctionId phase with
      | none => []
      | some _ => (pagedRows (upcomingRows w.db name auctionId category phase)).map rowPlace := by
  unfold shownOnPages pagedRows
  rw [pageCount_marketItems h]
  simp only [shownOn_marketItems h]
  cases viewer.startsAt env w auctionId phase with
  | none => rfl
  | some t =>
    dsimp only
    rw [List.map_flatMap, List.map_flatMap]
    apply List.flatMap_congr
    intro k hk
    -- page `k` of the request is page `k` of the rows, each row once
    have hpage : (upcomingPage w.db name auctionId category phase ((k : ℤ) + 1)).2 =
        (page NavigationInfo.pageSize k
          (upcomingRows w.db name auctionId category phase)).eraseDups.map (listed w.db name) := by
      unfold upcomingPage navigation
      dsimp only
      rw [curPage_setCurrentPage (List.mem_range.mp hk), pageItems_eq hd]
    unfold BidderController.withCountdown
    rw [hpage, Option.getD_some, map_place_countdown]
    apply map_place_listed
    apply (fromTables_upcomingRows hd).of_subset
    intro row hrow
    exact (page_sublist _ _ _).subset (List.mem_eraseDups.mp hrow)

end MarketShown

/-! ## Pages of closed items -/

section Closed

variable {env : Env} {w : World} {auctionId : ℤ} {phase : Phase} {name : String}
  {category : Option ℤ}

/-- The closed rows of the user in a phase of the auction. -/
def closedRowsOf (db : Db) (name : String) (auctionId : ℤ) (category : Option ℤ) :
    Phase → List (BidItem × BidSequence)
  | .notStarted => []
  | .onSale _ seqId => closedQueryIn db ⟨name, auctionId, seqId, 0, 0⟩ (categoryFilter category)
  | .ended => closedQueryIn db ⟨name, auctionId, 0, 0, 0⟩ (categoryFilter category)

/-- The page `n` of closed rows. -/
def closedAnswer (name : String) (rows : List (BidItem × BidSequence)) (n : ℤ) :
    ListPage BidItem :=
  let nav := navigation rows.length n
  ⟨some ((page NavigationInfo.pageSize nav.curPage rows).map
    (fun row => markWon name row.1 row.2)), -1, nav⟩

theorem run_navigate (w : World) (rowCount n : ℤ) :
    run (handle env) (navigate rowCount (.value n)) w =
      (.ok ((⟨rowCount, 1⟩ : NavigationInfo).setCurrentPage n), w) := rfl

/-- A page of closed items. -/
theorem run_closedPage (w : World) (name : String) (auctionId sequenceId : ℤ)
    (categoryId : Option ℤ) (n : ℤ) :
    run (handle env) (BidderController.closedPage name auctionId sequenceId categoryId (.value n))
      w = (.ok (closedAnswer name
        (closedQueryIn w.db ⟨name, auctionId, sequenceId, 0, 0⟩ categoryId) n), w) := by
  unfold BidderController.closedPage
  refine (run_bind_ok (run_begin env w)).trans ?_
  refine (run_bind_ok (run_navigate w _ n)).trans ?_
  exact run_bind_ok (run_begin env w)

/-- The page `n` in a phase. -/
def closedAnswerIn (db : Db) (name : String) (auctionId : ℤ) (category : Option ℤ) (n : ℤ) :
    Phase → ListPage BidItem
  | .notStarted => ⟨some [], -1, NavigationInfo.new⟩
  | phase => closedAnswer name (closedRowsOf db name auctionId category phase) n

/-- The closed list in each phase. -/
theorem run_closedItems (h : Stands w.redis auctionId phase) (n : ℤ) :
    (run (handle env) (BidderController.closedItems name category (.value n)) w).1 =
      .ok (closedAnswerIn w.db name auctionId category n phase) := by
  unfold BidderController.closedItems
  rw [run_bind_ok (h.run_bidderCategoryList env name), run_bind_ok (run_isEndSequence env w)]
  cases phase with
  | notStarted =>
    rw [h.endSequence_notStarted]
    rfl
  | onSale bidItemId seqId =>
    rw [h.endSequence_onSale]
    dsimp only
    rw [run_bind_ok (h.run_activeItemPlace env)]
    dsimp only
    rw [run_closedPage]
    rfl
  -- at the end the whole sequence is closed, and the auction is found by its id
  | ended =>
    rw [h.endSequence_ended]
    dsimp only
    rw [run_bind_ok (run_getAuctionId env w), h.auction]
    dsimp only
    rw [run_bind_ok (run_parseId env w auctionId), run_closedPage]
    rfl

/-- All pages of closed rows together. -/
theorem flatMap_closedAnswer (rows : List (BidItem × BidSequence)) :
    (List.range (closedAnswer name rows 1).navigationInfo.getPageCount.toNat).flatMap
        (fun k : ℕ => (closedAnswer name rows ((k : ℤ) + 1)).list.getD []) =
      rows.map (fun row => markWon name row.1 row.2) := by
  have hcount : (closedAnswer name rows 1).navigationInfo.getPageCount.toNat =
      pagesFor rows.length := getPageCount_toNat _ _
  have hpages := flatMap_page_of_le (le_pagesFor rows.length)
  rw [hcount, ← congrArg (List.map (fun row => markWon name row.1 row.2)) hpages,
    List.map_flatMap]
  apply List.flatMap_congr
  intro k hk
  dsimp only [closedAnswer, navigation, Option.getD_some]
  rw [curPage_setCurrentPage (List.mem_range.mp hk)]

/-- The pages of closed items show the closed rows. -/
theorem shownOnPages_closedItems (h : Stands w.redis auctionId phase) :
    shownOnPages env w (BidderController.closedItems name category) =
      (closedRowsOf w.db name auctionId category phase).map
        (fun row => markWon name row.1 row.2) := by
  unfold shownOnPages pageCount shownOn
  simp only [run_closedItems h]
  cases phase with
  | notStarted => rfl
  | onSale | ended => exact flatMap_closedAnswer _

end Closed

/-! ## Small halls -/

/-- Tables whose items are of category `5`, to which `bidder1` is mapped in auction `1`. -/
def copperDb (sequence : List BidSequence) (autoBids : List AutoBids) : Db :=
  { Db.empty with
    bidItems := fun _ => some { BidItem.new with
      timeExtAfterBid := some 20
      category := some ⟨some 5, some "Copper"⟩ }
    bidSequence := sequence
    autoBids := autoBids
    categories := [⟨some 5, some "Copper"⟩]
    bidderCategories := [⟨1, 5, "bidder1"⟩] }

/-- Auction `1` is loaded and starts in a minute. -/
def copperHall (sequence : List BidSequence) (autoBids : List AutoBids) : World :=
  { World.initial (copperDb sequence autoBids) with
    redis := { KeyValue.Store.empty with
      strings := Function.update (fun _ => none) .auctionId (some (.long 1)) }
    auctionStartTime := some 60000 }

theorem stands_copperHall (sequence : List BidSequence) (autoBids : List AutoBids) :
    Stands (copperHall sequence autoBids).redis 1 .notStarted := ⟨rfl, rfl⟩

/-- Two lots, the first of which is of a category to which `bidder1` is not mapped. -/
def hiddenDb : Db :=
  { copperDb [⟨1, 11, 1, 60⟩, ⟨1, 12, 2, 30⟩] [] with
    bidItems := fun id => some { BidItem.new with
      category := some ⟨some (if id = 11 then 6 else 5), none⟩ } }

/-- Auction `1` of these tables has ended. -/
def endedHall (db : Db) : World :=
  { World.initial db with
    redis := { KeyValue.Store.empty with
      strings := Function.update (Function.update (fun _ => none) .auctionId (some (.long 1)))
        .activeBidItemId (some (.long 0)) } }

theorem stands_endedHall (db : Db) : Stands (endedHall db).redis 1 .ended := ⟨rfl, rfl⟩

/-- Auction `1` after its first lot has been opened. -/
def openedHall (sequence : List BidSequence) : World :=
  (run (handle (Env.still 1000)) timerTask (Scheduler.start (Env.still 1000)
    { World.initial (copperDb sequence []) with auctionId := 1 }).world).2

/-- A hall in which the first item has been put on sale. -/
theorem stands_openedHall {sequence : List BidSequence}
    (hsale : Saleable (copperDb sequence [])
      (CommonDao.getCurrentBidSequence (copperDb sequence []) 1))
    (hauction : (openedHall sequence).redis.strings .auctionId = some (.long 1))
    (hlots : ∀ lot ∈ CommonDao.getCurrentBidSequence (copperDb sequence []) 1,
      (openedHall sequence).redis.hashes (.bidSequence lot.bidItemId) .auctionId =
        some (.long 1)) :
    Stands (openedHall sequence).redis 1
      (phaseOf (Sale.start (reached
        (CommonDao.getCurrentBidSequence (copperDb sequence []) 1))).advance) := by
  have hrefines : Refines _ (openedHall sequence) := (refines_initCache (Env.still 1000)
    { World.initial (copperDb sequence []) with auctionId := 1 } hsale).first_tick
      (Env.still 1000) hsale.wellFormed rfl
  have hmem : ∀ lot ∈ (Sale.start (reached (CommonDao.getCurrentBidSequence
      (copperDb sequence []) 1))).advance.lots,
      lot ∈ CommonDao.getCurrentBidSequence (copperDb sequence []) 1 := by
    intro lot hlot
    rw [Sale.advance_lots] at hlot
    exact mem_of_mem_reached hlot
  apply hrefines.stands
  · intro lot hlot
    have hpos := hsale.pos lot (hmem lot hlot)
    omega
  · exact hauction
  · intro lot hlot
    exact hlots lot (hmem lot hlot)

end Bidding.Model
