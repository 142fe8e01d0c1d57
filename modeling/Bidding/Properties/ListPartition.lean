import Bidding.Semantics.MarketPages

/-!
# The Three Lists of a Bidder

A lot of the sequence is upcoming, on sale or closed, and a bidder who is mapped to every
category of the auction finds it on the page of that name and on no other. The lists of
upcoming and of closed items take the number of the item on sale as their bound, and the number
`0` as no bound at all: with a lot of number `0` on sale both lists show the whole sequence.

## Key Results

- **`partition_iff`**: every lot is in one of the three lists exactly if the number of the item
  on sale is not `0`.
-/

namespace Bidding.Model

open Bidding.Effects Bidding.Effects.Action Bidding.Collections BidderDao
open BidderController hiding getCategoryList

/-- The lists of a bidder. -/
inductive Tab where
  | market
  | active
  | closed
  deriving DecidableEq

/-- The items on all pages of a list. -/
def Tab.ids (env : Env) (w : World) (name : String) (category : Option ℤ) : Tab → List (Option ℤ)
  | market => (shownOnPages env w (marketItems name category)).map BidItem.bidItemId
  | active =>
    match (run (handle env) (activeItems name category) w).1 with
    | .ok items => items.map BidItem.bidItemId
    | .error _ => []
  | closed => (shownOnPages env w (closedItems name category)).map BidItem.bidItemId

/-- The lots of a list, by the bounds that its query takes. -/
def Tab.Holds (lot : BidSequence) : Tab → Phase → Prop
  | market, .notStarted => True
  | market, .onSale _ seqId => seqId = 0 ∨ seqId < lot.sequenceId
  | market, .ended => False
  | active, .onSale bidItemId _ => lot.bidItemId = bidItemId
  | active, _ => False
  | closed, .notStarted => False
  | closed, .onSale _ seqId => seqId = 0 ∨ lot.sequenceId < seqId
  | closed, .ended => True

/-- The user is mapped to every category of the auction, which stands in the phase: its start
    is still to come, or the cached item on sale is one of its lots. -/
structure Attends (env : Env) (w : World) (name : String) (auctionId : ℤ) (phase : Phase) :
    Prop where
  stands : Stands w.redis auctionId phase
  distinct : DistinctLots w.db auctionId
  mapped : ∀ lot ∈ CommonDao.getCurrentBidSequence w.db auctionId,
    mayShow w.db name auctionId none lot = true
  start : phase = .notStarted → ∃ t, startSeconds env w auctionId = some t ∧ 0 < t
  lot : ∀ bidItemId seqId, phase = .onSale bidItemId seqId →
    ∃ lot ∈ CommonDao.getCurrentBidSequence w.db auctionId,
      lot.bidItemId = bidItemId ∧ lot.sequenceId = seqId
  category : ∀ bidItemId seqId, phase = .onSale bidItemId seqId →
    categoryIdOf (RedisCacheService.cachedItem w.redis bidItemId) =
      (getBidItem w.db bidItemId).bind categoryIdOf

section Lists

variable {env : Env} {w : World} {name : String} {auctionId : ℤ} {phase : Phase}
  {category : Option ℤ}

/-- The category `0` is no filter. -/
theorem categoryFilter_eq_none (h : category.getD 0 = 0) : categoryFilter category = none := by
  unfold categoryFilter
  cases category with
  | none => rfl
  | some c =>
    have hc : c = 0 := h
    simp [Option.filter_some, hc]

/-- A lot is in the list of upcoming items if its number is above the bound. -/
theorem mem_ids_market (h : Attends env w name auctionId phase) (hcategory : category.getD 0 = 0)
    {lot : BidSequence} (hlot : lot ∈ CommonDao.getCurrentBidSequence w.db auctionId) :
    some lot.bidItemId ∈ Tab.ids env w name category .market ↔ Tab.market.Holds lot phase := by
  have hplaces := @map_place_shownOnPages env w auctionId phase name category .bidder h.stands
    h.distinct
  have hids : Tab.ids env w name category .market =
      ((shownOnPages env w (marketItems name category)).map place).map Prod.fst := by
    rw [List.map_map]
    rfl
  -- the pages show the rows of the query, so it is enough to find the lot among the rows
  have hrow : some lot.bidItemId ∈
      ((pagedRows (upcomingRows w.db name auctionId category phase)).map rowPlace).map Prod.fst ↔
        phase.sequenceId = 0 ∨ phase.sequenceId < lot.sequenceId := by
    rw [List.map_map]
    simp only [List.mem_map, mem_pagedRows, Function.comp_apply, rowPlace, Option.some.injEq]
    constructor
    · rintro ⟨row, hrow, hsame⟩
      obtain ⟨hs, hbound, -⟩ := mem_marketQuery.mp hrow
      rw [h.distinct.eq_of_item hs hlot hsame] at hbound
      exact hbound
    · intro hbound
      obtain ⟨item, hitem⟩ := getBidItem_of_mayShow (h.mapped lot hlot)
      refine ⟨(item, lot), mem_marketQuery.mpr ⟨hlot, hbound, hitem, ?_⟩, rfl⟩
      rw [categoryFilter_eq_none hcategory]
      exact h.mapped lot hlot
  rw [hids]
  cases phase with
  -- before the start the list is shown only if the start is still to come
  | notStarted =>
    obtain ⟨t, hstart, hpos⟩ := h.start rfl
    have hshows : Viewer.startsAt .bidder env w auctionId .notStarted = some t := by
      simp [Viewer.startsAt, hstart, Option.filter_some, Viewer.shows, hpos]
    rw [hshows] at hplaces
    refine (iff_of_eq (congrArg (some lot.bidItemId ∈ List.map Prod.fst ·) hplaces)).trans ?_
    exact hrow.trans (by simp [Phase.sequenceId, Tab.Holds])
  | onSale bidItemId seqId =>
    obtain ⟨t, hstart, -⟩ := run_marketItems_onSale env name category h.stands .bidder 1
    rw [hstart] at hplaces
    refine (iff_of_eq (congrArg (some lot.bidItemId ∈ List.map Prod.fst ·) hplaces)).trans ?_
    exact hrow
  | ended =>
    refine (iff_of_eq (congrArg (some lot.bidItemId ∈ List.map Prod.fst ·) hplaces)).trans ?_
    simp [Viewer.startsAt, Tab.Holds]

/-- A lot is in the list of closed items if its number is below the bound. -/
theorem mem_ids_closed (h : Attends env w name auctionId phase) (hcategory : category.getD 0 = 0)
    {lot : BidSequence} (hlot : lot ∈ CommonDao.getCurrentBidSequence w.db auctionId) :
    some lot.bidItemId ∈ Tab.ids env w name category .closed ↔ Tab.closed.Holds lot phase := by
  -- the bound `0` stands for no bound
  have hrow : ∀ seqId, some lot.bidItemId ∈ ((closedQueryIn w.db ⟨name, auctionId, seqId, 0, 0⟩
      (categoryFilter category)).map (fun row => markWon name row.1 row.2)).map
        BidItem.bidItemId ↔ seqId = 0 ∨ lot.sequenceId < seqId := by
    intro seqId
    rw [List.map_map]
    simp only [List.mem_map, Function.comp_apply]
    constructor
    · rintro ⟨row, hrow, hsame⟩
      obtain ⟨hs, hbound, hitem, -⟩ := mem_closedQueryIn.mp hrow
      have hid : row.2.bidItemId = lot.bidItemId :=
        Option.some.inj ((bidItemId_of_getBidItem hitem).symm.trans hsame)
      rw [h.distinct.eq_of_item hs hlot hid] at hbound
      exact hbound
    · intro hbound
      obtain ⟨item, hitem⟩ := getBidItem_of_mayShow (h.mapped lot hlot)
      refine ⟨(item, lot), mem_closedQueryIn.mpr ⟨hlot, hbound, hitem, ?_⟩, ?_⟩
      · rw [categoryFilter_eq_none hcategory]
        exact h.mapped lot hlot
      · exact (bidItemId_of_getBidItem hitem :)
  show some lot.bidItemId ∈ (shownOnPages env w (closedItems name category)).map _ ↔ _
  rw [shownOnPages_closedItems h.stands]
  cases phase with
  | notStarted => simp [closedRowsOf, Tab.Holds]
  | onSale bidItemId seqId => exact hrow seqId
  | ended => exact (hrow 0).trans (by simp [Tab.Holds])

/-- Without a filter the page `/active` shows an item of one of the user's categories. -/
theorem run_isShown_of_mem {categoryList : List BidderCategory} {item : BidItem}
    {c : BidderCategory} (hc : c ∈ categoryList) (hitem : categoryIdOf item = some c.categoryId)
    (w : World) : (run (handle env) (isShown categoryList 0 item) w).1 = .ok true := by
  obtain ⟨cat, hcat, hid⟩ := Option.bind_eq_some_iff.mp hitem
  unfold isShown getCategoryId checkBidderAllowedforThisCategory
  simp only [run_bind, run_ofExcept, hcat, hid, if_true]
  simp only [Except.ok.injEq, List.any_eq_true, decide_eq_true_eq]
  exact ⟨c, hc, rfl⟩

/-- The category of the item on sale is one to which the user is mapped. -/
theorem Attends.onSale_mapped {bidItemId seqId : ℤ}
    (h : Attends env w name auctionId (.onSale bidItemId seqId)) :
    ∃ c ∈ CommonDao.getCategoryList w.db name auctionId,
      categoryIdOf (RedisCacheService.cachedItem w.redis bidItemId) = some c.categoryId := by
  obtain ⟨sold, hsold, rfl, -⟩ := h.lot bidItemId seqId rfl
  have hmapped := h.mapped sold hsold
  obtain ⟨stored, hstored⟩ := getBidItem_of_mayShow hmapped
  unfold mayShow at hmapped
  rw [hstored] at hmapped
  obtain ⟨-, hany⟩ := Bool.and_eq_true_iff.mp hmapped
  obtain ⟨c, hc, hisMapped⟩ := List.any_eq_true.mp hany
  simp only [isMapped, Bool.and_eq_true, decide_eq_true_eq] at hisMapped
  refine ⟨c, List.mem_filter.mpr ⟨hc, by simp [hisMapped.1]⟩, ?_⟩
  rw [h.category sold.bidItemId seqId rfl, hstored]
  exact hisMapped.2

/-- The item on sale is the one in the list of active items. -/
theorem mem_ids_active (h : Attends env w name auctionId phase) (hcategory : category.getD 0 = 0)
    {lot : BidSequence} :
    some lot.bidItemId ∈ Tab.ids env w name category .active ↔ Tab.active.Holds lot phase := by
  have hmem : some lot.bidItemId ∈ Tab.ids env w name category .active ↔
      ∃ item, Offers env w name (.active category) item ∧ item.bidItemId = some lot.bidItemId := by
    show some lot.bidItemId ∈ (match (run (handle env) (activeItems name category) w).1 with
      | .ok items => items.map BidItem.bidItemId
      | .error _ => []) ↔ ∃ item, (∃ items, (run (handle env) (activeItems name category) w).1 =
        .ok items ∧ item ∈ items) ∧ _
    cases (run (handle env) (activeItems name category) w).1 <;> simp
  rw [hmem]
  simp only [offers_active_iff]
  cases phase with
  | notStarted => simp [h.stands.endSequence_notStarted, Tab.Holds]
  | ended => simp [h.stands.endSequence_ended, Tab.Holds]
  | onSale bidItemId seqId =>
    obtain ⟨item, bidders, heq, hitem⟩ := h.stands.run_activeBidItem env w.db
    have hid : item.bidItemId = some bidItemId := by
      rw [heq]
      exact RedisCacheService.cachedItem_bidItemId h.stands.phase.cached.bidItemId
    rw [run_activeBidItem] at hitem
    constructor
    -- the page offers only the item on sale, whatever categories the bidder has
    · rintro ⟨_, ⟨categoryList, onSale, t, -, -, hrun, -, rfl⟩, hsame⟩
      rw [hitem] at hrun
      cases hrun
      exact Option.some.inj (hsame.symm.trans hid)
    · intro hsame
      -- the item is shown because its category is among the bidder's own
      obtain ⟨c, hown, hmapped⟩ := h.onSale_mapped
      have hcategoryId : categoryIdOf item = some c.categoryId := by
        rw [heq]
        exact hmapped
      have hlist : cachedCategoryList w name =
          .ok (CommonDao.getCategoryList w.db name auctionId) := by
        unfold cachedCategoryList
        rw [h.stands.auction]
        rfl
      rw [hcategory]
      exact ⟨withPrice item, ⟨_, item, _, hlist, h.stands.endSequence_onSale, hitem,
        run_isShown_of_mem hown hcategoryId _, rfl⟩, hid.trans (congrArg some hsame.symm)⟩

/-- Each list has the lots that belong to it. -/
theorem mem_ids_iff (h : Attends env w name auctionId phase) (hcategory : category.getD 0 = 0)
    {lot : BidSequence} (hlot : lot ∈ CommonDao.getCurrentBidSequence w.db auctionId) (tab : Tab) :
    some lot.bidItemId ∈ tab.ids env w name category ↔ tab.Holds lot phase := by
  cases tab with
  | market => exact mem_ids_market h hcategory hlot
  | active => exact mem_ids_active h hcategory
  | closed => exact mem_ids_closed h hcategory hlot

/-- Before the start and after the end the lists are all and nothing. -/
theorem existsUnique_holds_idle (lot : BidSequence) (hidle : phase = .notStarted ∨ phase = .ended) :
    ∃! tab : Tab, tab.Holds lot phase := by
  rcases hidle with rfl | rfl
  · refine ⟨.market, trivial, ?_⟩
    intro tab htab
    cases tab <;> first | rfl | exact htab.elim
  · refine ⟨.closed, trivial, ?_⟩
    intro tab htab
    cases tab <;> first | rfl | exact htab.elim

/-- While an item is on sale its number separates the lists. -/
theorem existsUnique_holds_onSale {lot : BidSequence} {bidItemId seqId : ℤ} (hne : seqId ≠ 0)
    (hsame : lot.bidItemId = bidItemId ↔ lot.sequenceId = seqId) :
    ∃! tab : Tab, tab.Holds lot (.onSale bidItemId seqId) := by
  have hholds : ∀ tab : Tab, tab.Holds lot (.onSale bidItemId seqId) ↔
      match tab with
      | .market => seqId < lot.sequenceId
      | .active => lot.sequenceId = seqId
      | .closed => lot.sequenceId < seqId := by
    intro tab
    cases tab with
    | market => exact or_iff_right hne
    | active => exact hsame
    | closed => exact or_iff_right hne
  simp only [hholds]
  -- below, at or above the number of the item on sale
  rcases lt_trichotomy lot.sequenceId seqId with hlt | heq | hgt
  · refine ⟨.closed, hlt, ?_⟩
    intro tab htab
    cases tab <;> first | rfl | (dsimp only at htab; omega)
  · refine ⟨.active, heq, ?_⟩
    intro tab htab
    cases tab <;> first | rfl | (dsimp only at htab; omega)
  · refine ⟨.market, hgt, ?_⟩
    intro tab htab
    cases tab <;> first | rfl | (dsimp only at htab; omega)

end Lists

/-- **A bidder who is mapped to every category finds every lot in one of the three lists,
    exactly if the number of the item on sale is not `0`.** -/
theorem partition_iff (env : Env) (w : World) (name : String) {auctionId : ℤ} {phase : Phase}
    {category : Option ℤ} (h : Attends env w name auctionId phase)
    (hcategory : category.getD 0 = 0) :
    (∀ lot ∈ CommonDao.getCurrentBidSequence w.db auctionId,
      ∃! tab : Tab, some lot.bidItemId ∈ tab.ids env w name category) ↔
        ∀ bidItemId seqId, phase = .onSale bidItemId seqId → seqId ≠ 0 := by
  have hholds : ∀ lot ∈ CommonDao.getCurrentBidSequence w.db auctionId,
      (∃! tab : Tab, some lot.bidItemId ∈ tab.ids env w name category) ↔
        ∃! tab : Tab, tab.Holds lot phase :=
    fun lot hlot => existsUnique_congr (mem_ids_iff h hcategory hlot)
  constructor
  · rintro hall bidItemId seqId rfl rfl
    -- the item on sale itself is in all three lists
    obtain ⟨lot, hlot, -⟩ := h.lot bidItemId 0 rfl
    have hunique : Tab.market = Tab.closed :=
      ((hholds lot hlot).mp (hall lot hlot)).unique (.inl rfl) (.inl rfl)
    cases hunique
  · intro hseqId lot hlot
    rw [hholds lot hlot]
    cases phase with
    | notStarted => exact existsUnique_holds_idle lot (.inl rfl)
    | ended => exact existsUnique_holds_idle lot (.inr rfl)
    | onSale bidItemId seqId =>
      obtain ⟨sold, hsold, hsoldId, hsoldSeq⟩ := h.lot bidItemId seqId rfl
      apply existsUnique_holds_onSale (hseqId bidItemId seqId rfl)
      constructor
      · intro heq
        rw [h.distinct.eq_of_item hlot hsold (heq.trans hsoldId.symm), hsoldSeq]
      · intro heq
        rw [h.distinct.eq_of_number hlot hsold (heq.trans hsoldSeq.symm), hsoldId]

/-- Two lots of category `5`, the first of which is on sale. -/
theorem attends_openedHall {first second : ℤ}
    (hfirst : first = 0 ∧ second = 1 ∨ first = 1 ∧ second = 2) :
    Attends (Env.still 1000) (openedHall [⟨1, 11, first, 60⟩, ⟨1, 12, second, 60⟩]) "bidder1" 1
      (.onSale 11 first) where
  stands := by
    rcases hfirst with ⟨rfl, rfl⟩ | ⟨rfl, rfl⟩
    · exact stands_openedHall
        ⟨by decide, by decide, by decide, by decide,
          fun _ _ => CommonDao.loadable_of_no_autoBids rfl rfl⟩ (by decide +kernel)
        (by decide +kernel)
    · exact stands_openedHall
        ⟨by decide, by decide, by decide, by decide,
          fun _ _ => CommonDao.loadable_of_no_autoBids rfl rfl⟩ (by decide +kernel)
        (by decide +kernel)
  distinct := by
    rcases hfirst with ⟨rfl, rfl⟩ | ⟨rfl, rfl⟩ <;> exact ⟨by decide +kernel, by decide +kernel⟩
  mapped := by
    rcases hfirst with ⟨rfl, rfl⟩ | ⟨rfl, rfl⟩ <;> decide +kernel
  start := by
    rintro ⟨⟩
  lot := by
    rintro _ _ ⟨⟩
    rcases hfirst with ⟨rfl, rfl⟩ | ⟨rfl, rfl⟩ <;> decide +kernel
  category := by
    rintro _ _ ⟨⟩
    rcases hfirst with ⟨rfl, rfl⟩ | ⟨rfl, rfl⟩ <;> decide +kernel

theorem partition_openedHall :
    Attends (Env.still 1000) (openedHall [⟨1, 11, 1, 60⟩, ⟨1, 12, 2, 60⟩]) "bidder1" 1
        (.onSale 11 1) ∧
      ∀ lot ∈ CommonDao.getCurrentBidSequence
          (openedHall [⟨1, 11, 1, 60⟩, ⟨1, 12, 2, 60⟩]).db 1,
        ∃! tab : Tab, some lot.bidItemId ∈ tab.ids (Env.still 1000)
          (openedHall [⟨1, 11, 1, 60⟩, ⟨1, 12, 2, 60⟩]) "bidder1" none := by
  have hattends := attends_openedHall (.inr ⟨rfl, rfl⟩)
  refine ⟨hattends, (partition_iff (Env.still 1000) _ "bidder1" hattends rfl).mpr ?_⟩
  rintro _ _ ⟨⟩
  decide

/-- With the lot of number `0` on sale, both lots are upcoming and closed. -/
theorem openedHall_not_partition :
    let w := openedHall [⟨1, 11, 0, 60⟩, ⟨1, 12, 1, 60⟩]
    Attends (Env.still 1000) w "bidder1" 1 (.onSale 11 0) ∧
      Tab.ids (Env.still 1000) w "bidder1" none .market = [some 11, some 12] ∧
      Tab.ids (Env.still 1000) w "bidder1" none .active = [some 11] ∧
      Tab.ids (Env.still 1000) w "bidder1" none .closed = [some 11, some 12] ∧
      ¬ ∃! tab : Tab, some 11 ∈ tab.ids (Env.still 1000) w "bidder1" none := by
  have hmarket : Tab.ids (Env.still 1000) (openedHall [⟨1, 11, 0, 60⟩, ⟨1, 12, 1, 60⟩]) "bidder1"
      none .market = [some 11, some 12] := by decide +kernel
  have hclosed : Tab.ids (Env.still 1000) (openedHall [⟨1, 11, 0, 60⟩, ⟨1, 12, 1, 60⟩]) "bidder1"
      none .closed = [some 11, some 12] := by decide +kernel
  refine ⟨attends_openedHall (.inl ⟨rfl, rfl⟩), hmarket, by decide +kernel, hclosed, ?_⟩
  intro h
  -- the item would have one list, but it is in two
  have hsame : Tab.market = Tab.closed := h.unique (hmarket ▸ List.mem_cons_self)
    (hclosed ▸ List.mem_cons_self)
  cases hsame

end Bidding.Model
