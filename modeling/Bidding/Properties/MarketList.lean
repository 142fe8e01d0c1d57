import Bidding.Semantics.MarketPages

/-!
# The List of Upcoming Items

What a bidder sees on the pages of `/marketlist`, and what looking at them does to the tables.

The query of the list joins the auto-bids, so that an item has as many rows as it has
auto-bids. Counting the rows, cutting them into pages and showing each item of a page once do
not fit together: an item whose rows go across the end of a page is on both pages. The loop
over the rows also stores the id of the user's own auto-bid in the item, in an attribute that
has a column.

## Key Results

- **`showsOnce_iff`**: when the pages show every upcoming item once.
- **`unwritten_iff`**: when looking at a page leaves the rows of the items as they were.
-/

namespace Bidding.Model

open Bidding.Effects Bidding.Effects.Action Bidding.Collections BidderDao

/-! ## Every item once -/

/-- The upcoming lots that the user may see. -/
def upcomingLots (db : Db) (name : String) (auctionId : ℤ) (category : Option ℤ) (phase : Phase) :
    List BidSequence :=
  (CommonDao.getCurrentBidSequence db auctionId).filter (fun s =>
    phase.upcoming s.sequenceId && mayShow db name auctionId (categoryFilter category) s)

/-- Every lot is listed once, and the list is in the order of the sequence. -/
structure ShowsOnce (lots : List BidSequence) (shown : List BidItem) : Prop where
  once : ∀ s ∈ lots, (shown.map BidItem.bidItemId).count (some s.bidItemId) = 1
  ascending : (shown.map BidItem.seqId).Pairwise (· < ·)

/-- No page ends between two rows of one item; before the start, the start is also still to
    come. -/
def Paged (env : Env) (w : World) (name : String) (auctionId : ℤ) (category : Option ℤ)
    (phase : Phase) : Prop :=
  let rows := upcomingRows w.db name auctionId category phase
  match phase with
  | .notStarted => rows ≠ [] →
      (∃ t, startSeconds env w auctionId = some t ∧ 0 < t) ∧ Unbroken NavigationInfo.pageSize rows
  | .onSale _ _ => Unbroken NavigationInfo.pageSize rows
  | .ended => True

section Once

variable {env : Env} {w : World} {name : String} {auctionId : ℤ} {category : Option ℤ}
  {phase : Phase}

/-- An upcoming lot has a row. -/
theorem exists_row_of_mem_upcomingLots {s : BidSequence}
    (h : s ∈ upcomingLots w.db name auctionId category phase) :
    ∃ row ∈ upcomingRows w.db name auctionId category phase, row.2 = s := by
  simp only [upcomingLots, List.mem_filter, Bool.and_eq_true] at h
  obtain ⟨hs, hupcoming, hshow⟩ := h
  obtain ⟨item, hitem⟩ := getBidItem_of_mayShow hshow
  refine ⟨(item, s), mem_marketQuery.mpr ⟨hs, ?_, hitem, hshow⟩, rfl⟩
  cases phase with
  | notStarted => exact .inl rfl
  | onSale bidItemId seqId => exact .inr (of_decide_eq_true hupcoming)
  | ended => cases hupcoming

/-- A list with the places of the paged rows shows every lot once exactly if no page ends
    between two rows of one item. -/
theorem showsOnce_pagedRows (hd : DistinctLots w.db auctionId) {shown : List BidItem}
    (hshown : shown.map place =
      (pagedRows (upcomingRows w.db name auctionId category phase)).map rowPlace) :
    ShowsOnce (upcomingLots w.db name auctionId category phase) shown ↔
      Unbroken NavigationInfo.pageSize (upcomingRows w.db name auctionId category phase) := by
  have hord : Ordered number (upcomingRows w.db name auctionId category phase) :=
    ordered_marketQuery hd
  have hpages := pairwise_pages_iff (by decide : 0 < NavigationInfo.pageSize) hord
    (le_pagesFor _)
  -- an item's place is its id with its number, and both come from the rows of the pages
  have hids : shown.map BidItem.bidItemId =
      (pagedRows (upcomingRows w.db name auctionId category phase)).map
        (fun row => some row.2.bidItemId) := by
    have hfst := congrArg (List.map Prod.fst) hshown
    rwa [List.map_map, List.map_map] at hfst
  have hnumbers : shown.map BidItem.seqId =
      (pagedRows (upcomingRows w.db name auctionId category phase)).map number := by
    have hsnd := congrArg (List.map Prod.snd) hshown
    rwa [List.map_map, List.map_map] at hsnd
  have hascending : (shown.map BidItem.seqId).Pairwise (· < ·) ↔
      Unbroken NavigationInfo.pageSize (upcomingRows w.db name auctionId category phase) := by
    rw [hnumbers, List.pairwise_map]
    exact hpages
  constructor
  · intro h
    exact hascending.mp h.ascending
  · intro hunbroken
    refine ⟨?_, hascending.mpr hunbroken⟩
    intro s hs
    obtain ⟨row, hrow, rfl⟩ := exists_row_of_mem_upcomingLots hs
    rw [hids]
    apply List.count_eq_one_of_mem
    · -- two entries of one item are the same row, which is listed once
      apply List.pairwise_map.mpr
      apply (hpages.mpr hunbroken).imp_of_mem
      intro x y hx hy hlt heq
      have hsame := marketQuery_eq_of_item hd (mem_pagedRows.mp hx) (mem_pagedRows.mp hy)
        (Option.some.inj heq)
      rw [hsame] at hlt
      omega
    · apply List.mem_map_of_mem
      exact mem_pagedRows.mpr hrow

/-- An empty list shows every lot once exactly if there is none. -/
theorem showsOnce_nil_iff : ShowsOnce (upcomingLots w.db name auctionId category phase) [] ↔
    upcomingLots w.db name auctionId category phase = [] := by
  constructor
  · intro h
    apply List.eq_nil_iff_forall_not_mem.mpr
    intro s hs
    exact absurd (h.once s hs) (by simp)
  · intro h
    rw [h]
    exact ⟨by simp, by simp⟩

/-- Before the start every row is one of an upcoming lot. -/
theorem upcomingLots_notStarted_eq_nil_iff :
    upcomingLots w.db name auctionId category .notStarted = [] ↔
      upcomingRows w.db name auctionId category .notStarted = [] := by
  constructor
  · intro h
    apply List.eq_nil_iff_forall_not_mem.mpr
    intro row hrow
    obtain ⟨hs, -, -, hshow⟩ := mem_marketQuery.mp hrow
    have hlot : row.2 ∈ upcomingLots w.db name auctionId category .notStarted := by
      simp only [upcomingLots, List.mem_filter, Phase.upcoming, Bool.true_and]
      exact ⟨hs, hshow⟩
    rw [h] at hlot
    cases hlot
  · -- an upcoming lot has a row
    intro h
    apply List.eq_nil_iff_forall_not_mem.mpr
    intro s hs
    obtain ⟨row, hrow, -⟩ := exists_row_of_mem_upcomingLots hs
    rw [h] at hrow
    cases hrow

/-- Before the start, the pages also need a start that is still to come. -/
theorem showsOnce_notStarted_iff (h : Stands w.redis auctionId .notStarted)
    (hd : DistinctLots w.db auctionId) :
    ShowsOnce (upcomingLots w.db name auctionId category .notStarted)
        (shownOnPages env w (BidderController.marketItems name category)) ↔
      Paged env w name auctionId category .notStarted := by
  have hplaces := @map_place_shownOnPages env w auctionId .notStarted name category .bidder h hd
  dsimp only [Viewer.startsAt] at hplaces
  cases hstart : (startSeconds env w auctionId).filter (Viewer.shows .bidder) with
  | none =>
    -- the start has passed, and the pages are empty
    rw [hstart] at hplaces
    have hnone : shownOnPages env w (BidderController.marketItems name category) = [] :=
      List.map_eq_nil_iff.mp hplaces
    rw [hnone, showsOnce_nil_iff, upcomingLots_notStarted_eq_nil_iff]
    constructor
    · intro hrows hne
      exact absurd hrows hne
    · intro hpaged
      by_contra hrows
      obtain ⟨⟨t, ht, hpos⟩, -⟩ := hpaged hrows
      rw [ht, Option.filter_some] at hstart
      simp [Viewer.shows, hpos] at hstart
  | some t =>
    rw [hstart] at hplaces
    have hpos : startSeconds env w auctionId = some t ∧ 0 < t := by
      simpa [Viewer.shows] using Option.filter_eq_some_iff.mp hstart
    refine (showsOnce_pagedRows hd hplaces).trans ?_
    constructor
    · intro hunbroken _
      exact ⟨⟨t, hpos⟩, hunbroken⟩
    · intro hpaged
      by_cases hrows : upcomingRows w.db name auctionId category .notStarted = []
      · rw [hrows]
        intro k x y hx
        cases hx
      · exact (hpaged hrows).2

/-- **The pages of upcoming items show every lot once, in the order of the sequence, exactly if
    no page ends between two rows of one item and, before the start, the start is still to
    come.** -/
theorem showsOnce_iff (env : Env) (w : World) (name : String) (category : Option ℤ)
    {auctionId : ℤ} {phase : Phase} (h : Stands w.redis auctionId phase)
    (hd : DistinctLots w.db auctionId) :
    ShowsOnce (upcomingLots w.db name auctionId category phase)
        (shownOnPages env w (BidderController.marketItems name category)) ↔
      Paged env w name auctionId category phase := by
  have hplaces := @map_place_shownOnPages env w auctionId phase name category .bidder h hd
  cases phase with
  | onSale bidItemId seqId =>
    obtain ⟨t, hstart, -⟩ := run_marketItems_onSale env name category h .bidder 1
    rw [hstart] at hplaces
    exact showsOnce_pagedRows hd hplaces
  -- at the end nothing is upcoming
  | ended =>
    have hnone : shownOnPages env w (BidderController.marketItems name category) = [] :=
      List.map_eq_nil_iff.mp hplaces
    rw [hnone, showsOnce_nil_iff]
    simp [upcomingLots, Phase.upcoming, Paged]
  | notStarted => exact showsOnce_notStarted_iff h hd

end Once

/-- Two lots with five auto-bids each fill the first page, and a third lot with two auto-bids is
    on the second. -/
theorem showsOnce_copperHall :
    let w := copperHall [⟨1, 12, 2, 60⟩, ⟨1, 13, 3, 60⟩, ⟨1, 11, 1, 60⟩]
      ((List.range 12).map (fun i =>
        ⟨i, if i < 10 then 11 + i % 2 else 13, 100, 0, "A", "bidder2"⟩))
    let request := BidderController.marketItems "bidder1" none
    ShowsOnce (upcomingLots w.db "bidder1" 1 none .notStarted)
        (shownOnPages (Env.still 0) w request) ∧
      (shownOn (Env.still 0) w request 1).map BidItem.bidItemId = [some 11, some 12] ∧
      (shownOn (Env.still 0) w request 2).map BidItem.bidItemId = [some 13] := by
  refine ⟨?_, by decide +kernel, by decide +kernel⟩
  refine (showsOnce_iff (Env.still 0) _ "bidder1" none (stands_copperHall _ _)
    ⟨by decide +kernel, by decide +kernel⟩).mpr ?_
  intro _
  refine ⟨⟨60, by decide +kernel, by decide⟩, ?_⟩
  -- the first page ends after the last row of lot `12`, and there is no third page
  refine (unbroken_iff _ _).mpr ⟨?_, ?_⟩
  · rintro x y hx hy rfl
    have hnumbers : (upcomingRows (copperHall [⟨1, 12, 2, 60⟩, ⟨1, 13, 3, 60⟩, ⟨1, 11, 1, 60⟩]
        ((List.range 12).map (fun i =>
          ⟨i, if i < 10 then 11 + i % 2 else 13, 100, 0, "A", "bidder2"⟩))).db "bidder1" 1 none
        .notStarted).map (fun row => row.2.sequenceId) = [1, 1, 1, 1, 1, 2, 2, 2, 2, 2, 3, 3] := by
      decide +kernel
    have hlast := congrArg (·[9]?) hnumbers
    have hnext := congrArg (·[10]?) hnumbers
    simp only [List.getElem?_map] at hlast hnext
    rw [show NavigationInfo.pageSize - 1 = 9 from rfl] at hx
    rw [show NavigationInfo.pageSize = 10 from rfl] at hy
    rw [hx] at hlast
    rw [hy] at hnext
    exact absurd (hlast.symm.trans hnext) (by decide)
  · -- two rows are left after the first page, so no later page ends before another row
    intro k x y _ hy
    have hlen := (List.getElem?_eq_some_iff.mp hy).1
    have htwo : ((upcomingRows (copperHall [⟨1, 12, 2, 60⟩, ⟨1, 13, 3, 60⟩, ⟨1, 11, 1, 60⟩]
        ((List.range 12).map (fun i =>
          ⟨i, if i < 10 then 11 + i % 2 else 13, 100, 0, "A", "bidder2"⟩))).db "bidder1" 1 none
        .notStarted).drop NavigationInfo.pageSize).length = 2 := by decide +kernel
    rw [htwo] at hlen
    unfold NavigationInfo.pageSize at hlen
    omega

/-- With an eleventh auto-bid the second lot is on both pages. -/
theorem copperHall_not_showsOnce :
    let w := copperHall [⟨1, 12, 2, 60⟩, ⟨1, 11, 1, 60⟩]
      ((List.range 11).map (fun i => ⟨i, 11 + i % 2, 100, 0, "A", "bidder2"⟩))
    let shown := shownOnPages (Env.still 0) w (BidderController.marketItems "bidder1" none)
    Stands w.redis 1 .notStarted ∧ DistinctLots w.db 1 ∧
      shown.map BidItem.bidItemId = [some 11, some 12, some 12] ∧
      ¬ ShowsOnce (upcomingLots w.db "bidder1" 1 none .notStarted) shown := by
  have hshown : (shownOnPages (Env.still 0) (copperHall [⟨1, 12, 2, 60⟩, ⟨1, 11, 1, 60⟩]
      ((List.range 11).map (fun i => ⟨i, 11 + i % 2, 100, 0, "A", "bidder2"⟩)))
      (BidderController.marketItems "bidder1" none)).map BidItem.bidItemId =
        [some 11, some 12, some 12] := by decide +kernel
  refine ⟨stands_copperHall _ _, ⟨by decide +kernel, by decide +kernel⟩, hshown, ?_⟩
  intro h
  have hcount := h.once ⟨1, 12, 2, 60⟩ (by decide +kernel)
  rw [hshown] at hcount
  exact absurd hcount (by decide)

/-! ## What a view writes -/

section Written

variable {db : Db} {name : String}

/-- Every listed item comes from a row. -/
theorem mem_foldl_listRow {rows : List (BidItem × BidSequence)} {items : List BidItem}
    {item : BidItem} (h : item ∈ rows.foldl (listRow db name) items) :
    item ∈ items ∨ ∃ row ∈ rows, item = listed db name row := by
  induction rows generalizing items with
  | nil => exact .inl h
  | cons row rows ih =>
    rcases ih h with hitem | ⟨row', hrow', rfl⟩
    · unfold listRow at hitem
      dsimp only at hitem
      -- an item of the same id is replaced in its place, a new one is appended
      split at hitem
      · obtain ⟨old, hold, rfl⟩ := List.mem_map.mp hitem
        split
        · exact .inr ⟨row, List.mem_cons_self, rfl⟩
        · exact .inl hold
      · rcases List.mem_append.mp hitem with hitem | hitem
        · exact .inl hitem
        · exact .inr ⟨row, List.mem_cons_self, List.mem_singleton.mp hitem⟩
    · exact .inr ⟨row', List.mem_cons_of_mem row hrow', rfl⟩

/-- The loop keeps the ids in the list, and adds the id of the row. -/
theorem mem_ids_listRow {items : List BidItem} {row : BidItem × BidSequence} {id : Option ℤ} :
    id ∈ (listRow db name items row).map BidItem.bidItemId ↔
      id ∈ items.map BidItem.bidItemId ∨ id = (listed db name row).bidItemId := by
  unfold listRow
  dsimp only
  split
  · rename_i hany
    simp only [List.any_eq_true, decide_eq_true_eq] at hany
    -- the replacement has the id of the item it replaces
    have hmap : (items.map (fun i => if i.bidItemId = (listed db name row).bidItemId then
        listed db name row else i)).map BidItem.bidItemId = items.map BidItem.bidItemId := by
      rw [List.map_map]
      apply List.map_congr_left
      intro i _
      simp only [Function.comp_apply]
      split
      · rename_i heq
        exact heq.symm
      · rfl
    rw [hmap]
    constructor
    · exact .inl
    · rintro (h | rfl)
      · exact h
      · obtain ⟨i, hi, heq⟩ := hany
        exact List.mem_map.mpr ⟨i, hi, heq⟩
  · simp

/-- The ids of the list are those it began with and those of the rows. -/
theorem mem_ids_foldl_listRow {rows : List (BidItem × BidSequence)} {items : List BidItem}
    {id : Option ℤ} :
    id ∈ (rows.foldl (listRow db name) items).map BidItem.bidItemId ↔
      id ∈ items.map BidItem.bidItemId ∨ ∃ row ∈ rows, id = (listed db name row).bidItemId := by
  induction rows generalizing items with
  | nil => simp
  | cons row rows ih =>
    rw [List.foldl_cons, ih, mem_ids_listRow]
    simp [or_assoc]

/-- Writing items that agree on the columns of each row. -/
theorem getBidItem_flushAll {items : List BidItem} {columns : ℤ → BidItem}
    (h : ∀ item ∈ items, ∃ id, item.bidItemId = some id ∧
      { item.persistent with bidItemId := some id } = columns id) (db : Db) (id : ℤ) :
    getBidItem (flushAll db items) id =
      if some id ∈ items.map BidItem.bidItemId then some (columns id) else getBidItem db id := by
  unfold flushAll
  induction items generalizing db with
  | nil => simp
  | cons item items ih =>
    obtain ⟨own, hown, hcolumns⟩ := h item List.mem_cons_self
    rw [List.foldl_cons, ih (fun item hitem => h item (List.mem_cons_of_mem _ hitem))]
    simp only [hown, List.map_cons, List.mem_cons, Option.some.injEq]
    -- the last write of an id counts, but all of them write the same columns
    by_cases hrest : some id ∈ items.map BidItem.bidItemId
    · simp [hrest]
    · by_cases hid : id = own
      · subst hid
        simp only [hrest, or_false, if_true, if_false]
        simp only [getBidItem, CommonDao.flush, Function.update_self, ← hcolumns]
        rfl
      · simp [hrest, hid, getBidItem, CommonDao.flush]

/-- What a view leaves in the columns of an item: the id of the viewer's own auto-bid. -/
def markedBy (db : Db) (name : String) (id : ℤ) (item : BidItem) : BidItem :=
  match ownAutoBid db name id with
  | none => item
  | some autoBid => { item with currentAutoBidId := some autoBid.autoBidId }

/-- An item is left as it is if it has the id of the viewer's auto-bid already. -/
theorem markedBy_eq_self_iff {id : ℤ} {item : BidItem} :
    markedBy db name id item = item ↔
      ∀ autoBid, ownAutoBid db name id = some autoBid →
        item.currentAutoBidId = some autoBid.autoBidId := by
  unfold markedBy
  cases ownAutoBid db name id with
  | none => simp
  | some autoBid =>
    simp only [Option.some.injEq, forall_eq']
    constructor
    · intro h
      rw [← h]
    · intro h
      rw [← h]

/-- The columns of a listed item. -/
theorem persistent_listed {row : BidItem × BidSequence}
    (hitem : getBidItem db row.2.bidItemId = some row.1) :
    { (listed db name row).persistent with bidItemId := some row.2.bidItemId } =
      markedBy db name row.2.bidItemId row.1 := by
  unfold getBidItem at hitem
  obtain ⟨stored, -, hrow⟩ := Option.map_eq_some_iff.mp hitem
  unfold listed markedBy
  rw [← hrow]
  cases ownAutoBid db name row.2.bidItemId <;> rfl

/-- The rows of the page that the service call shows. -/
def viewedRows (db : Db) (vo : CommonVO) (categoryId : Option ℤ) : List (BidItem × BidSequence) :=
  ((marketQuery db vo categoryId).drop vo.firstResult).take vo.maxResult

theorem getBidItem_of_mem_viewedRows {vo : CommonVO} {categoryId : Option ℤ}
    {row : BidItem × BidSequence} (h : row ∈ viewedRows db vo categoryId) :
    getBidItem db row.2.bidItemId = some row.1 :=
  (mem_marketQuery.mp (List.mem_of_mem_drop (List.mem_of_mem_take h))).2.2.1

/-- A view marks the items of its rows, and leaves the others. -/
theorem getBidItem_viewed (db : Db) (vo : CommonVO) (categoryId : Option ℤ) (id : ℤ) :
    getBidItem (flushAll db (getBidItemsForCategoryForMarketListForBidder db vo categoryId)) id =
      if ∃ row ∈ viewedRows db vo categoryId, row.2.bidItemId = id then
        (getBidItem db id).map (markedBy db vo.userName id)
      else getBidItem db id := by
  -- what the flush writes depends on the id only, so the order of the items is irrelevant
  let columns : ℤ → BidItem := fun id =>
    markedBy db vo.userName id ((getBidItem db id).getD BidItem.new)
  have hitems : ∀ item ∈ getBidItemsForCategoryForMarketListForBidder db vo categoryId,
      ∃ id, item.bidItemId = some id ∧
        { item.persistent with bidItemId := some id } = columns id := by
    intro item hitem
    rcases mem_foldl_listRow hitem with hnone | ⟨row, hrow, rfl⟩
    · cases hnone
    · have hstored := getBidItem_of_mem_viewedRows hrow
      refine ⟨row.2.bidItemId, listed_bidItemId hstored, ?_⟩
      simp only [columns, hstored, Option.getD_some]
      exact persistent_listed hstored
  have hids : some id ∈ (getBidItemsForCategoryForMarketListForBidder db vo categoryId).map
      BidItem.bidItemId ↔ ∃ row ∈ viewedRows db vo categoryId, row.2.bidItemId = id := by
    refine mem_ids_foldl_listRow.trans ?_
    simp only [List.map_nil, List.not_mem_nil, false_or]
    apply exists_congr
    intro row
    apply and_congr_right
    intro hrow
    rw [listed_bidItemId (getBidItem_of_mem_viewedRows hrow), Option.some.injEq, eq_comm]
  rw [getBidItem_flushAll hitems]
  simp only [hids]
  split
  · rename_i hview
    obtain ⟨row, hrow, rfl⟩ := hview
    simp only [columns, getBidItem_of_mem_viewedRows hrow, Option.getD_some, Option.map_some]
  · rfl

/-- **Looking at a page of the upcoming items leaves the columns of every item exactly if the
    column `autoBidId` of each item of the page, on which the viewer has an active auto-bid, has
    the id of that auto-bid already.** -/
theorem unwritten_iff (env : Env) (w : World) (vo : CommonVO) (categoryId : Option ℤ) :
    (∀ id, getBidItem (run (handle env) (BidderController.marketListService vo categoryId) w).2.db
        id = getBidItem w.db id) ↔
      ∀ row ∈ viewedRows w.db vo categoryId, ∀ autoBid,
        ownAutoBid w.db vo.userName row.2.bidItemId = some autoBid →
          row.1.currentAutoBidId = some autoBid.autoBidId := by
  rw [run_marketListService]
  simp only [getBidItem_viewed]
  constructor
  · -- the items of the rows are the only ones that a view writes
    intro h row hrow
    have hrow' := h row.2.bidItemId
    rw [if_pos ⟨row, hrow, rfl⟩, getBidItem_of_mem_viewedRows hrow, Option.map_some,
      Option.some.injEq] at hrow'
    exact markedBy_eq_self_iff.mp hrow'
  · intro h id
    split
    · rename_i hview
      obtain ⟨row, hrow, rfl⟩ := hview
      rw [getBidItem_of_mem_viewedRows hrow, Option.map_some,
        markedBy_eq_self_iff.mpr (h row hrow)]
    · rfl

/-- `bidder1` looks at the list, and the item, on which nobody has the highest auto-bid, has
    the id of the auto-bid of `bidder1`. -/
theorem copperHall_written :
    let w := copperHall [⟨1, 11, 1, 60⟩] [⟨7, 11, 100, 0, "A", "bidder1"⟩]
    let t := (run (handle (Env.still 0)) (BidderController.marketListService
      ⟨"bidder1", 1, 0, 0, 10⟩ none) w).2
    (getBidItem w.db 11).map BidItem.currentAutoBidId = some none ∧
      (getBidItem t.db 11).map BidItem.currentAutoBidId = some (some 7) := by
  decide +kernel

end Written

end Bidding.Model
