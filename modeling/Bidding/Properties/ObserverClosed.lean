import Bidding.Semantics.MarketPages

/-!
# The Observer's Closed Items

The pages of `/closed` of an observer are ranges of the numbers of the sequence. While an item
is on sale the ranges go up to its number. After the end they go up to the number of lots in the
observer's categories, which is the last number of the sequence only if the observer sees all
lots.

## Key Results

- **`map_id_entries`**: the query and its loop give one entry for each lot of the range.
- **`listsClosed_iff`**: when the pages list the closed lots.
-/

namespace Bidding.Model

open Bidding.Effects Bidding.Effects.Action Bidding.Collections BidderDao ObserverDao

/-! ## The query and its loop -/

/-- The item of an entry. -/
def ObserverDao.ClosedEntry.id (entry : ClosedEntry) : Option ℤ := entry.bidItem.bidItemId

section Entries

variable {db : Db} {vo : CommonVO} {categoryId : Option ℤ}

theorem ObserverDao.ClosedEntry.id_addRow (entry : ClosedEntry) (row : BidderRow) :
    (entry.addRow row).id = entry.id := by
  unfold ClosedEntry.addRow
  split <;> rfl

/-- The loop drops a row that has the item of the row before it. -/
theorem map_id_fillEntries (entry : ClosedEntry) (rows : List BidderRow) :
    (fillEntries entry rows).map ClosedEntry.id =
      (rows.map (fun row => row.bidItem.bidItemId)).destutter' (· ≠ ·) entry.id := by
  induction rows generalizing entry with
  | nil => rfl
  | cons row rows ih =>
    rw [fillEntries, List.map_cons, List.destutter'_cons]
    -- the loop only compares with the entry it is filling, as `destutter'` does
    by_cases hsame : entry.id = row.bidItem.bidItemId
    · have hitem : entry.bidItem.bidItemId = row.bidItem.bidItemId := hsame
      rw [if_pos hitem, if_neg (not_not.mpr hsame), ih, ClosedEntry.id_addRow]
    · have hitem : entry.bidItem.bidItemId ≠ row.bidItem.bidItemId := hsame
      rw [if_neg hitem, if_pos hsame, List.map_cons, ih]
      rfl

theorem map_id_getBidsListForClosedMarket (rows : List BidderRow) :
    (getBidsListForClosedMarket rows).map ClosedEntry.id =
      (rows.map (fun row => row.bidItem.bidItemId)).destutter (· ≠ ·) := by
  cases rows with
  | nil => rfl
  | cons row rows => exact map_id_fillEntries _ rows

/-- A lot without bids has a row as well: the join with the bids is an outer one. -/
theorem bidderRows_ne_nil (bidItem : BidItem) (bidSeq : BidSequence) :
    bidderRows db bidItem bidSeq ≠ [] := by
  unfold bidderRows
  dsimp only
  split
  · simp
  · rename_i b bs hbids
    -- with bids there is one row for each bidder, so one for the bidder of the first bid
    have hname : b.bidderName ∈ ((db.bids.filter (fun b => b.bidItemId =
        some bidSeq.bidItemId)).map Bid.bidderName).dedup := by
      rw [hbids]
      exact List.mem_dedup.mpr List.mem_cons_self
    apply List.ne_nil_of_mem
    apply (sort_perm compareAmounts _).mem_iff.mpr
    exact List.mem_map_of_mem hname

/-- The rows of an item carry that item. -/
theorem bidItem_of_mem_bidderRows {bidItem : BidItem} {bidSeq : BidSequence} {row : BidderRow}
    (h : row ∈ bidderRows db bidItem bidSeq) : row.bidItem = bidItem := by
  unfold bidderRows at h
  dsimp only at h
  split at h
  · rw [List.mem_singleton.mp h]
  · obtain ⟨_, -, rfl⟩ := List.mem_map.mp ((sort_perm compareAmounts _).mem_iff.mp h)
    rfl

/-- The rows of a lot are rows of its item. -/
theorem bidItemId_of_mem_observerRows {s : BidSequence} {row : BidderRow}
    (h : row ∈ observerRows db vo categoryId s) :
    row.bidItem.bidItemId = some s.bidItemId := by
  unfold observerRows at h
  cases hitem : getBidItem db s.bidItemId with
  | none =>
    rw [hitem] at h
    cases h
  | some bidItem =>
    rw [hitem] at h
    dsimp only at h
    split at h
    · rw [bidItem_of_mem_bidderRows h]
      exact bidItemId_of_getBidItem hitem
    · cases h

/-- A lot has rows if the observer may see it. -/
theorem observerRows_isEmpty (s : BidSequence) :
    (!(observerRows db vo categoryId s).isEmpty) =
      mayShow db vo.userName vo.auctionId categoryId s := by
  unfold observerRows mayShow
  cases getBidItem db s.bidItemId with
  | none => rfl
  | some bidItem =>
    dsimp only
    split
    · rename_i hshow
      rw [hshow]
      simpa using bidderRows_ne_nil bidItem s
    · rename_i hshow
      simpa using hshow

/-- One entry for each lot that the observer may see. -/
theorem map_id_entries {lots : List BidSequence}
    (hitems : (lots.map BidSequence.bidItemId).Nodup) :
    (getBidsListForClosedMarket (lots.flatMap (observerRows db vo categoryId))).map
        ClosedEntry.id =
      (lots.filter (mayShow db vo.userName vo.auctionId categoryId)).map
        (fun s => some s.bidItemId) := by
  rw [map_id_getBidsListForClosedMarket, List.map_flatMap]
  -- the rows of a lot are next to each other, and no other lot has its item
  have hkeys : (lots.map (fun s => some s.bidItemId)).Nodup := by
    have hsome := hitems.map (Option.some_injective ℤ)
    rwa [List.map_map] at hsome
  rw [destutter_flatMap _ hkeys]
  · congr 1
    apply List.filter_congr
    intro s _
    rw [← observerRows_isEmpty]
    simp
  · intro s _ b hb
    obtain ⟨row, hrow, rfl⟩ := List.mem_map.mp hb
    exact bidItemId_of_mem_observerRows hrow

end Entries

/-! ## Pages -/

section Pages

variable {env : Env} {w : World} {name : String} {auctionId : ℤ} {category : Option ℤ}
  {phase : Phase}

/-- The number up to which the pages go: that of the item on sale, or the number of rows of the
    observer in all categories. -/
def lastClosed (db : Db) (name : String) (auctionId : ℤ) : Phase → ℕ
  | .notStarted => 0
  | .onSale _ seqId => (seqId - 1).toNat
  | .ended => (closedQueryIn db ⟨name, auctionId, 0, 0, 0⟩ none).length

/-- The lots with the numbers from `lo` to `hi`. -/
def lotsBetween (db : Db) (auctionId lo hi : ℤ) : List BidSequence :=
  sort compareSequence ((CommonDao.getCurrentBidSequence db auctionId).filter (fun s =>
    lo ≤ s.sequenceId && s.sequenceId ≤ hi))

/-- The lots of a range of numbers. -/
theorem mem_lotsBetween {db : Db} {lo hi : ℤ} {s : BidSequence} :
    s ∈ lotsBetween db auctionId lo hi ↔
      s ∈ CommonDao.getCurrentBidSequence db auctionId ∧ lo ≤ s.sequenceId ∧
        s.sequenceId ≤ hi := by
  unfold lotsBetween
  rw [(sort_perm compareSequence _).mem_iff]
  simp

theorem nodup_lotsBetween {db : Db} (hd : DistinctLots db auctionId) (lo hi : ℤ) :
    ((lotsBetween db auctionId lo hi).map BidSequence.bidItemId).Nodup := by
  apply (((sort_perm compareSequence _).map BidSequence.bidItemId).nodup_iff).mpr
  exact hd.items.sublist (List.filter_sublist.map BidSequence.bidItemId)

/-- The entries of the page `k`, when the pages go up to `last`. -/
def closedEntries (db : Db) (name : String) (auctionId : ℤ) (categoryId : Option ℤ)
    (last k : ℕ) : List ClosedEntry :=
  getBidItemsForCategoryForClosedMarketForObserver db
    ⟨name, auctionId, last + 1, k * NavigationInfo.pageSize, NavigationInfo.pageSize⟩ categoryId

/-- The items of a page are those of its range that the observer may see. -/
theorem map_id_closedEntries {db : Db} (hd : DistinctLots db auctionId) {categoryId : Option ℤ}
    {last k : ℕ} :
    (closedEntries db name auctionId categoryId last k).map ClosedEntry.id =
      ((lotsBetween db auctionId (10 * k + 1) (min (10 * k + 10) last)).filter
        (mayShow db name auctionId categoryId)).map (fun s => some s.bidItemId) := by
  have hlast : (if (10 * k + 10 : ℤ) ≥ last + 1 then (last + 1 - 1 : ℤ) else 10 * k + 10) =
      min (10 * (k : ℤ) + 10) (last : ℤ) := by
    split <;> omega
  -- the range that the query computes from the window of the page is `10k + 1 .. 10k + 10`
  have hrange : sort compareSequence (db.bidSequence.filter (fun s => s.auctionId = auctionId &&
      ((k * NavigationInfo.pageSize : ℕ) : ℤ) + 1 ≤ s.sequenceId && s.sequenceId ≤
        (if ((k * NavigationInfo.pageSize : ℕ) : ℤ) + (NavigationInfo.pageSize : ℕ) ≥ last + 1
          then (last + 1 - 1 : ℤ)
          else ((k * NavigationInfo.pageSize : ℕ) : ℤ) + (NavigationInfo.pageSize : ℕ)))) =
      lotsBetween db auctionId (10 * k + 1) (min (10 * k + 10) last) := by
    have hfirst : ((k * NavigationInfo.pageSize : ℕ) : ℤ) = 10 * k := by
      unfold NavigationInfo.pageSize
      omega
    have hsize : ((NavigationInfo.pageSize : ℕ) : ℤ) = 10 := rfl
    unfold lotsBetween CommonDao.getCurrentBidSequence
    rw [hfirst, hsize, hlast, List.filter_filter]
    congr 1
    apply List.filter_congr
    intro s _
    rw [Bool.and_assoc, Bool.and_comm]
  unfold closedEntries getBidItemsForCategoryForClosedMarketForObserver
  rw [if_neg (by dsimp only; omega)]
  dsimp only
  rw [hrange]
  exact map_id_entries (nodup_lotsBetween hd _ _)

/-- The page `n`, when the pages go up to `last` and the query has the bound `sequenceId`. -/
def closedRange (db : Db) (name : String) (auctionId sequenceId : ℤ) (categoryId : Option ℤ)
    (last : ℕ) (n : ℤ) : ListPage ClosedEntry :=
  let nav := navigation last n
  ⟨some (getBidItemsForCategoryForClosedMarketForObserver db
    ⟨name, auctionId, sequenceId, nav.curPage * NavigationInfo.pageSize,
      NavigationInfo.pageSize⟩ categoryId), -1, nav⟩

/-- What a page asks for, from the count of closed lots and the bound of the numbers. -/
theorem run_closedPage_observer (w : World) (name : String) (auctionId seqId : ℤ)
    (categoryId : Option ℤ) (n : ℤ) {last : ℕ} {sequenceId : ℤ}
    (hcount : (if seqId - 1 < 0 then findBidItemsCountForClosedListForBidder w.db
      ⟨name, auctionId, seqId, 0, 0⟩ none else seqId - 1) = last)
    (hbound : (if seqId = 0 ∧ (last : ℤ) ≠ 0 then (last : ℤ) + 1 else seqId) = sequenceId) :
    run (handle env) (ObserverController.closedPage name auctionId seqId categoryId (.value n)) w =
      (.ok (closedRange w.db name auctionId sequenceId categoryId last n), w) := by
  unfold ObserverController.closedPage
  refine (run_bind_ok (run_begin env w)).trans ?_
  dsimp only
  rw [hcount, hbound]
  refine (run_bind_ok (run_navigate w _ n)).trans ?_
  exact run_bind_ok (run_begin env w)

/-- What the page `n` shows in a phase. After the end, and with lots in the observer's
    categories, the bound of the query is the number after the last one. -/
def observerAnswer (db : Db) (name : String) (auctionId : ℤ) (categoryId : Option ℤ) (n : ℤ) :
    Phase → ListPage ClosedEntry
  | .notStarted => ⟨some [], -1, NavigationInfo.new⟩
  | .onSale bidItemId seqId =>
    closedRange db name auctionId seqId categoryId
      (lastClosed db name auctionId (.onSale bidItemId seqId)) n
  | .ended =>
    let last := lastClosed db name auctionId .ended
    closedRange db name auctionId (if last = 0 then 0 else last + 1) categoryId last n

/-- The observer's answer in each phase of the sale. -/
theorem run_closedItems_observer (h : Stands w.redis auctionId phase)
    (hpos : ∀ bidItemId seqId, phase = .onSale bidItemId seqId → 1 ≤ seqId) (n : ℤ) :
    (run (handle env) (ObserverController.closedItems name category (.value n)) w).1 =
      .ok (observerAnswer w.db name auctionId (categoryFilter category) n phase) := by
  unfold ObserverController.closedItems
  rw [run_bind_ok (RedisCacheService.run_isEndSequence env w)]
  cases phase with
  | notStarted =>
    rw [h.endSequence_notStarted]
    dsimp only
    rw [run_bind_ok (h.run_bidderCategoryList env name)]
    rfl
  | onSale bidItemId seqId =>
    -- the number of the active lot is also the count of the closed ones, plus one
    have hseqId := hpos bidItemId seqId rfl
    have hrun := @run_closedPage_observer env w name auctionId seqId (categoryFilter category) n
      (seqId - 1).toNat seqId (by rw [if_neg (by omega)]; omega) (by rw [if_neg (by omega)])
    rw [h.endSequence_onSale]
    dsimp only
    rw [run_bind_ok (h.run_activeItemPlace env)]
    dsimp only
    rw [run_bind_ok hrun, run_bind_ok (h.run_bidderCategoryList env name)]
    rfl
  | ended =>
    -- after the end there is no active lot, so the lots of the observer are counted
    have hid := run_parseId env w auctionId
    have hrun := @run_closedPage_observer env w name auctionId 0 (categoryFilter category) n
      (lastClosed w.db name auctionId .ended)
      (if lastClosed w.db name auctionId .ended = 0 then 0
        else lastClosed w.db name auctionId .ended + 1)
      (by rw [if_pos (by omega)]; rfl) (by
        by_cases hlast : lastClosed w.db name auctionId .ended = 0 <;> simp [hlast])
    rw [h.endSequence_ended]
    dsimp only
    rw [run_bind_ok (RedisCacheService.run_getAuctionId env w), h.auction]
    dsimp only
    rw [run_bind_ok hid, run_bind_ok hrun, run_bind_ok (h.run_bidderCategoryList env name)]
    rfl

/-- The pages together: the entries of the ranges up to the last number. -/
theorem shownOnPages_observer (h : Stands w.redis auctionId phase)
    (hpos : ∀ bidItemId seqId, phase = .onSale bidItemId seqId → 1 ≤ seqId) :
    shownOnPages env w (ObserverController.closedItems name category) =
      (List.range (pagesFor (lastClosed w.db name auctionId phase))).flatMap
        (closedEntries w.db name auctionId (categoryFilter category)
          (lastClosed w.db name auctionId phase)) := by
  unfold shownOnPages pageCount shownOn
  simp only [run_closedItems_observer h hpos]
  -- a page that exists asks for the numbers of its own window
  have hrange : ∀ (last : ℕ) (sequenceId : ℤ), (last ≠ 0 → sequenceId = last + 1) →
      (List.range (closedRange w.db name auctionId sequenceId (categoryFilter category) last
          1).navigationInfo.getPageCount.toNat).flatMap
        (fun k : ℕ => (closedRange w.db name auctionId sequenceId (categoryFilter category) last
          ((k : ℤ) + 1)).list.getD []) =
      (List.range (pagesFor last)).flatMap
        (closedEntries w.db name auctionId (categoryFilter category) last) := by
    intro last sequenceId hsequenceId
    have hcount : (closedRange w.db name auctionId sequenceId (categoryFilter category) last
        1).navigationInfo.getPageCount.toNat = pagesFor last := getPageCount_toNat _ _
    rw [hcount]
    apply List.flatMap_congr
    intro k hk
    have hk' : k < pagesFor last := List.mem_range.mp hk
    -- with nothing closed there is no page, so the bound is not used
    have hlast : last ≠ 0 := by
      unfold pagesFor at hk'
      omega
    dsimp only [closedRange, navigation, Option.getD_some]
    rw [curPage_setCurrentPage hk', hsequenceId hlast]
    rfl
  cases phase with
  | notStarted =>
    simp [observerAnswer, lastClosed, pagesFor, NavigationInfo.new, NavigationInfo.getPageCount]
  | onSale bidItemId seqId =>
    have hseqId := hpos bidItemId seqId rfl
    apply hrange
    intro _
    show seqId = (((seqId - 1).toNat : ℕ) : ℤ) + 1
    omega
  | ended =>
    apply hrange
    intro hlast
    exact if_neg hlast

end Pages

/-! ## The closed lots -/

/-- The lots with these numbers are closed. -/
def Phase.closed : Phase → ℤ → Bool
  | .notStarted, _ => false
  | .onSale _ seqId, number => number < seqId
  | .ended, _ => true

/-- The closed lots that the observer may see. -/
def closedLots (db : Db) (name : String) (auctionId : ℤ) (category : Option ℤ) (phase : Phase) :
    List BidSequence :=
  (CommonDao.getCurrentBidSequence db auctionId).filter (fun s =>
    phase.closed s.sequenceId && mayShow db name auctionId (categoryFilter category) s)

/-- The list has the items of these lots and no others, each once. -/
structure ListsClosed (lots : List BidSequence) (shown : List ClosedEntry) : Prop where
  complete : ∀ id, some id ∈ shown.map ClosedEntry.id ↔ ∃ s ∈ lots, s.bidItemId = id
  once : (shown.map ClosedEntry.id).Nodup

section Closed

variable {db : Db} {name : String} {auctionId : ℤ} {categoryId : Option ℤ} {last : ℕ}

/-- The ranges up to the last number have every number up to it. -/
theorem mem_ids_ranges (hd : DistinctLots db auctionId)
    (hnumbers : ∀ lot ∈ CommonDao.getCurrentBidSequence db auctionId, 1 ≤ lot.sequenceId)
    {id : ℤ} :
    some id ∈ ((List.range (pagesFor last)).flatMap
        (closedEntries db name auctionId categoryId last)).map ClosedEntry.id ↔
      ∃ s ∈ CommonDao.getCurrentBidSequence db auctionId, s.sequenceId ≤ last ∧
        mayShow db name auctionId categoryId s = true ∧ s.bidItemId = id := by
  rw [List.map_flatMap]
  simp only [map_id_closedEntries hd, List.mem_flatMap, List.mem_range, List.mem_map,
    List.mem_filter, mem_lotsBetween, Option.some.injEq]
  constructor
  · rintro ⟨k, -, s, ⟨⟨hs, -, hhi⟩, hshow⟩, hid⟩
    exact ⟨s, hs, by omega, hshow, hid⟩
  · rintro ⟨s, hs, hle, hshow, hid⟩
    -- the page of the number
    have hone := hnumbers s hs
    refine ⟨((s.sequenceId - 1) / 10).toNat, ?_, s, ⟨⟨hs, ?_, ?_⟩, hshow⟩, hid⟩
    · unfold pagesFor
      omega
    · omega
    · omega

/-- The ranges have no item twice. -/
theorem nodup_ids_ranges (hd : DistinctLots db auctionId) :
    (((List.range (pagesFor last)).flatMap
      (closedEntries db name auctionId categoryId last)).map ClosedEntry.id).Nodup := by
  rw [List.map_flatMap]
  simp only [map_id_closedEntries hd]
  apply List.nodup_flatMap.mpr
  constructor
  · intro k _
    have hsub := List.filter_sublist (l := lotsBetween db auctionId (10 * k + 1)
      (min (10 * k + 10) last)) (p := mayShow db name auctionId categoryId)
    have hitems := (nodup_lotsBetween hd _ _).sublist (hsub.map BidSequence.bidItemId)
    have hsome := hitems.map (Option.some_injective ℤ)
    rwa [List.map_map] at hsome
  · apply List.nodup_range.imp_of_mem
    intro k k' _ _ hne x hx hx'
    obtain ⟨s, hs, rfl⟩ := List.mem_map.mp hx
    obtain ⟨s', hs', heq⟩ := List.mem_map.mp hx'
    obtain ⟨hs, hlo, hhi⟩ := mem_lotsBetween.mp (List.mem_filter.mp hs).1
    obtain ⟨hs', hlo', hhi'⟩ := mem_lotsBetween.mp (List.mem_filter.mp hs').1
    -- an item of two pages would have its number in two ranges
    rw [hd.eq_of_item hs' hs (Option.some.inj heq)] at hlo' hhi'
    omega

/-- The ranges list the closed lots exactly if the lots that the observer may see are closed up
    to the last number and not after it. -/
theorem listsClosed_ranges_iff (hd : DistinctLots db auctionId)
    (hnumbers : ∀ lot ∈ CommonDao.getCurrentBidSequence db auctionId, 1 ≤ lot.sequenceId)
    (category : Option ℤ) (phase : Phase) :
    ListsClosed (closedLots db name auctionId category phase)
        ((List.range (pagesFor last)).flatMap
          (closedEntries db name auctionId (categoryFilter category) last)) ↔
      ∀ s ∈ CommonDao.getCurrentBidSequence db auctionId,
        mayShow db name auctionId (categoryFilter category) s = true →
          (s.sequenceId ≤ last ↔ phase.closed s.sequenceId = true) := by
  have hclosed : ∀ id, (∃ s ∈ closedLots db name auctionId category phase, s.bidItemId = id) ↔
      ∃ s ∈ CommonDao.getCurrentBidSequence db auctionId, phase.closed s.sequenceId = true ∧
        mayShow db name auctionId (categoryFilter category) s = true ∧ s.bidItemId = id := by
    intro id
    simp only [closedLots, List.mem_filter, Bool.and_eq_true, and_assoc]
  constructor
  -- the ids listed are the ids of lots, and distinct lots have distinct ids
  · intro hlists s hs hshow
    have hmem := hlists.complete s.bidItemId
    rw [mem_ids_ranges hd hnumbers, hclosed] at hmem
    constructor
    · intro hle
      obtain ⟨s', hs', hclosed', -, hid⟩ := hmem.mp ⟨s, hs, hle, hshow, rfl⟩
      rwa [← hd.eq_of_item hs' hs hid]
    · intro hclosed'
      obtain ⟨s', hs', hle, -, hid⟩ := hmem.mpr ⟨s, hs, hclosed', hshow, rfl⟩
      rwa [← hd.eq_of_item hs' hs hid]
  · intro hall
    refine ⟨?_, nodup_ids_ranges hd⟩
    intro id
    rw [mem_ids_ranges hd hnumbers, hclosed]
    apply exists_congr
    intro s
    apply and_congr_right
    intro hs
    constructor
    · rintro ⟨hle, hshow, hid⟩
      exact ⟨(hall s hs hshow).mp hle, hshow, hid⟩
    · rintro ⟨hclosed', hshow, hid⟩
      exact ⟨(hall s hs hshow).mpr hclosed', hshow, hid⟩

end Closed

/-- **The observer's pages list the closed lots of the observer's categories, each once,
    exactly if, after the end, no such lot has a number above the number of the observer's
    lots.** -/
theorem listsClosed_iff (env : Env) (w : World) (name : String) (category : Option ℤ)
    {auctionId : ℤ} {phase : Phase} (h : Stands w.redis auctionId phase)
    (hd : DistinctLots w.db auctionId)
    (hnumbers : ∀ lot ∈ CommonDao.getCurrentBidSequence w.db auctionId, 1 ≤ lot.sequenceId)
    (hpos : ∀ bidItemId seqId, phase = .onSale bidItemId seqId → 1 ≤ seqId) :
    ListsClosed (closedLots w.db name auctionId category phase)
        (shownOnPages env w (ObserverController.closedItems name category)) ↔
      (phase = .ended → ∀ lot ∈ CommonDao.getCurrentBidSequence w.db auctionId,
        mayShow w.db name auctionId (categoryFilter category) lot = true →
          lot.sequenceId ≤ (closedQueryIn w.db ⟨name, auctionId, 0, 0, 0⟩ none).length) := by
  rw [shownOnPages_observer h hpos, listsClosed_ranges_iff hd hnumbers]
  cases phase with
  | notStarted =>
    simp only [lastClosed, Phase.closed, reduceCtorEq, false_implies, iff_true]
    intro s hs _
    have hone := hnumbers s hs
    simp only [iff_false]
    omega
  | onSale bidItemId seqId =>
    have hseqId := hpos bidItemId seqId rfl
    simp only [lastClosed, Phase.closed, reduceCtorEq, false_implies, iff_true,
      decide_eq_true_eq]
    intro s _ _
    omega
  | ended =>
    simp only [lastClosed, Phase.closed, iff_true, forall_true_left]

/-- Both lots of the category are listed after the end. -/
theorem listsClosed_endedHall :
    let w := endedHall (copperDb [⟨1, 11, 1, 60⟩, ⟨1, 12, 2, 60⟩] [])
    ListsClosed (closedLots w.db "bidder1" 1 (some 5) .ended)
      (shownOnPages (Env.still 0) w (ObserverController.closedItems "bidder1" (some 5))) :=
  (listsClosed_iff (Env.still 0) _ "bidder1" (some 5) (stands_endedHall _)
    ⟨by decide +kernel, by decide +kernel⟩ (by decide +kernel) (fun _ _ h => by cases h)).mpr
      (fun _ => by decide +kernel)

/-- After the end the lot of number `2`, the only one that `bidder1` may see, is on no page. -/
theorem hiddenDb_not_listsClosed :
    Stands (endedHall hiddenDb).redis 1 .ended ∧
      Consecutive (CommonDao.getCurrentBidSequence hiddenDb 1) ∧
      closedLots hiddenDb "bidder1" 1 none .ended = [⟨1, 12, 2, 30⟩] ∧
      shownOnPages (Env.still 0) (endedHall hiddenDb)
        (ObserverController.closedItems "bidder1" none) = [] ∧
      ¬ ListsClosed (closedLots hiddenDb "bidder1" 1 none .ended)
        (shownOnPages (Env.still 0) (endedHall hiddenDb)
          (ObserverController.closedItems "bidder1" none)) := by
  have hclosed : closedLots hiddenDb "bidder1" 1 none .ended = [⟨1, 12, 2, 30⟩] := by
    decide +kernel
  have hshown : shownOnPages (Env.still 0) (endedHall hiddenDb)
      (ObserverController.closedItems "bidder1" none) = [] := by decide +kernel
  refine ⟨stands_endedHall _, by decide +kernel, hclosed, hshown, ?_⟩
  -- the count is one, so the only page ends at number `1`
  intro h
  rw [hclosed, hshown] at h
  have hlisted := (h.complete 12).mpr ⟨_, List.mem_cons_self, rfl⟩
  cases hlisted

end Bidding.Model
