import Bidding.Model.BidderDao
import Bidding.Sale.Requests

/-!
# Category Entitlement

The lists of the market and of the closed items show a bidder only items of categories to
which the bidder is mapped in the current auction. The page `/active` and the request
`doBid` are held to the same condition here, from any world.

## Key Results

- **`offers_active_iff`**, **`offers_doBid_iff`**: which items the two requests get through to.
- **`enforced_iff`**: a request keeps to the user's categories exactly if the filter it
  carries, or the item it bids on, does so already.
-/

namespace Bidding.Model

open Bidding.Effects Bidding.Effects.Action BidItemsCacheService RedisCacheService
open BidderController hiding getCategoryList

/-! ## The condition and the requests -/

/-- The condition that the lists impose: the user has a row for the item's category in the
    auction of the cache. -/
def Entitled (w : World) (userName : String) (item : BidItem) : Prop :=
  ∃ auctionId, w.redis.strings .auctionId = some (.long auctionId) ∧
    ∃ c ∈ w.db.bidderCategories, BidderDao.isMapped userName auctionId item c = true

/-- The service hands out the item for the id. -/
def Found (env : Env) (w : World) (id : ℤ) (item : BidItem) : Prop :=
  (run (handle env) (proxyGetBidItem id) w).1 = .ok (some item)

/-- A request of a bidder, with its parameters. -/
inductive BidderRequest where
  | active (category : Option ℤ)
  | doBid (bidItemId bidType : ℤ) (bidAmount : ℚ) (comments : String)

/-- The request of the user gets through to the item: the page has it in its list, or a bid on
    it reaches the engine. -/
def Offers (env : Env) (w : World) (userName : String) : BidderRequest → BidItem → Prop
  | .active category, item =>
    ∃ items, (run (handle env) (activeItems userName category) w).1 = .ok items ∧ item ∈ items
  | .doBid bidItemId bidType bidAmount comments, item =>
    Found env w (toInt32 bidItemId) item ∧
      ∃ bid, bid.bidItemId = toInt32 bidItemId ∧ Cmd.engineBid bid ∈
        trace (handle env) (doBid ⟨bidItemId, bidType, bidAmount, userName, comments⟩) w

/-- The request gets through to items only to which the user is entitled. -/
def Enforced (env : Env) (w : World) (userName : String) (request : BidderRequest) : Prop :=
  ∀ item, Offers env w userName request item → Entitled w userName item

/-! ## The page -/

section Page

variable (env : Env) (w : World) (userName : String)

/-- The rows of the user in the auction of the cache. -/
def cachedCategoryList : Except Exn (List BidderCategory) :=
  match w.redis.strings .auctionId with
  | none => .ok []
  | some id => (Text.parseLong (some id)).map (CommonDao.getCategoryList w.db userName)

/-- The categories of the loaded auction are read. -/
theorem run_bidderCategoryList :
    run (handle env) (bidderCategoryList userName) w = (cachedCategoryList w userName, w) := by
  unfold bidderCategoryList cachedCategoryList
  rw [run_bind_ok (run_getAuctionId env w)]
  cases w.redis.strings .auctionId with
  | none => rfl
  | some id =>
    simp only [run_bind, run_ofExcept]
    cases Text.parseLong (some id) <;> rfl

/-- Being entitled is having a row for the category among those rows. -/
theorem entitled_iff {item : BidItem} :
    Entitled w userName item ↔ ∃ categoryList, cachedCategoryList w userName = .ok categoryList ∧
      ∃ c ∈ categoryList, BidderDao.categoryIdOf item = some c.categoryId := by
  unfold Entitled cachedCategoryList
  cases w.redis.strings .auctionId with
  | none => simp
  | some t =>
    cases t with
    | long auctionId =>
      simp [Text.parseLong, Except.map, CommonDao.getCategoryList, BidderDao.isMapped, and_assoc]
    | _ => simp [Text.parseLong, Except.map]

/-- The price is not the category. -/
theorem entitled_withPrice {item : BidItem} :
    Entitled w userName (withPrice item) ↔ Entitled w userName item := Iff.rfl

variable {env w}

/-- Without a filter the page shows an item of one of the user's categories. -/
theorem run_isShown_zero {categoryList : List BidderCategory} {item : BidItem}
    (h : (run (handle env) (isShown categoryList 0 item) w).1 = .ok true) :
    ∃ c ∈ categoryList, BidderDao.categoryIdOf item = some c.categoryId := by
  unfold isShown getCategoryId checkBidderAllowedforThisCategory at h
  cases hcategory : item.category with
  | none => simp [run_bind, hcategory] at h
  | some category =>
    simp only [run_bind, run_ofExcept, hcategory, if_true] at h
    -- a category without an id is an exception if the user has any category
    cases hid : category.categoryId with
    | none =>
      simp only [hid] at h
      split at h <;> cases h
    | some id =>
      simp only [hid, Except.ok.injEq, List.any_eq_true, decide_eq_true_eq] at h
      obtain ⟨c, hc, rfl⟩ := h
      refine ⟨c, hc, ?_⟩
      simp only [BidderDao.categoryIdOf, hcategory, Option.bind_some, hid]

/-- With a filter the page shows an item of the filter's category. -/
theorem run_isShown_filter {categoryList : List BidderCategory} {categoryId : ℤ} {item : BidItem}
    (hfilter : categoryId ≠ 0) :
    (run (handle env) (isShown categoryList categoryId item) w).1 = .ok true ↔
      BidderDao.categoryIdOf item = some categoryId := by
  unfold isShown getCategoryId BidderDao.categoryIdOf
  cases item.category with
  | none => simp [run_bind]
  | some category =>
    simp only [run_bind, run_ofExcept, if_neg hfilter, Option.bind_some, unbox]
    cases category.categoryId with
    | none => simp
    | some id => simp [eq_comm]

/-- Fetching the item on sale is fetching the item of the active id. -/
theorem run_activeBidItem :
    run (handle env) activeBidItem w =
      run (handle env) (proxyGetBidItem (activeId w.redis)) w :=
  run_bind_ok (run_getActiveBidItemId env w)

/-- The page has the item on sale in its list if it shows it. -/
theorem offers_active_iff {category : Option ℤ} {item : BidItem} :
    Offers env w userName (.active category) item ↔
      ∃ categoryList onSale t, cachedCategoryList w userName = .ok categoryList ∧
        endSequence w.redis = .isFalse ∧
        run (handle env) (proxyGetBidItem (activeId w.redis)) w = (.ok (some onSale), t) ∧
        (run (handle env) (isShown categoryList (category.getD 0) onSale) t).1 = .ok true ∧
        item = withPrice onSale := by
  have hlist := run_bidderCategoryList env w userName
  show (∃ items, (run (handle env) (activeItems userName category) w).1 = .ok items ∧
    item ∈ items) ↔ _
  unfold activeItems
  -- each step of the page that does not get through to an item is a case without a list
  cases hcategories : cachedCategoryList w userName with
  | error e =>
    rw [hcategories] at hlist
    rw [run_bind_error hlist]
    simp
  | ok categoryList =>
    rw [hcategories] at hlist
    rw [run_bind_ok hlist, run_bind_ok (run_isEndSequence env w)]
    cases hend : endSequence w.redis with
    | null => simp
    | isTrue => simp
    | isFalse =>
      simp only [run_bind, run_activeBidItem]
      rcases run (handle env) (proxyGetBidItem (activeId w.redis)) w with ⟨e | onSale, t⟩
      · simp
      cases onSale with
      | none => simp
      | some onSale =>
        simp only [run_bind]
        rcases hshown : run (handle env) (isShown categoryList (category.getD 0) onSale) t with
          ⟨e | shown, t'⟩
        · simp [hshown]
        · cases shown <;> simp [hshown]

end Page

/-! ## The bid -/

section Bid

variable {env : Env} {w : World}

/-- Any cache key, any call of the data-access object, any field; but no bid. -/
def noBid : Footprint where
  keys _ := True
  dao _ := True
  fields _ := True

/-- Fetching an item sends no bid. -/
theorem within_getBidItemManaged (id : ℤ) : Within noBid (getBidItemManaged id) := by
  apply issues_bind (within_getBidItem id)
  intro item
  cases item with
  | some item => exact issues_pure _
  | none =>
    dsimp only
    split
    · exact issues_pure _
    · apply issues_bind (within_loadBidItem trivial (fun _ _ _ => trivial))
      intro item
      exact issues_bind (within_dao trivial) (fun _ => issues_pure _)

/-- A transaction adds calls on the tables only. -/
theorem within_transactional {α : Type} {fp : Footprint} {body : Act α} (hdao : ∀ c, fp.dao c)
    (hbody : Within fp body) : Within fp (transactional body) := by
  apply issues_bind (within_dao (hdao _))
  intro saved
  apply issues_bind (issues_attempt hbody)
  intro outcome
  cases outcome with
  | ok a => exact issues_pure _
  | error e => exact issues_bind (within_dao (hdao _)) (fun _ => issues_throw _)

theorem within_autoBidAnswer (id : ℤ) : Within noBid (autoBidAnswer id) := by
  apply issues_bind (within_transactional (fun _ => trivial) (within_getBidItemManaged id))
  intro item
  cases item with
  | none => exact issues_throw _
  | some item => exact issues_pure _

/-- A transaction issues no bid of its own. -/
theorem mem_trace_transactional {α : Type} {body : Act α} {bid : BidCall} :
    Cmd.engineBid bid ∈ trace (handle env) (transactional body) w ↔
      Cmd.engineBid bid ∈ trace (handle env) body w := by
  have hbegin := run_begin env w
  -- a call on the tables is no bid
  have hdao : ∀ (c : DaoCall) (t : World),
      Cmd.engineBid bid ∉ trace (handle env) (dao c) t := by
    intro c t hmem
    exact nomatch mem_trace_perform.mp hmem
  unfold transactional
  constructor
  · intro hmem
    rcases mem_trace_bind.mp hmem with hmem | ⟨saved, t, hrun, hmem⟩
    · exact absurd hmem (hdao _ _)
    obtain ⟨rfl, rfl⟩ : w.db = saved ∧ w = t := by
      cases hbegin.symm.trans hrun
      exact ⟨rfl, rfl⟩
    rcases mem_trace_bind.mp hmem with hmem | ⟨outcome, t', -, hmem⟩
    · exact mem_trace_attempt.mp hmem
    · -- after the body there are only the commit and the rollback
      cases outcome with
      | ok a => cases hmem
      | error e =>
        rcases mem_trace_bind.mp hmem with hmem | ⟨_, _, _, hmem⟩
        · exact absurd hmem (hdao _ _)
        · cases hmem
  · intro hmem
    apply mem_trace_bind.mpr
    refine .inr ⟨_, _, hbegin, ?_⟩
    exact mem_trace_bind.mpr (.inl (mem_trace_attempt.mpr hmem))

/-- A transaction hands out what its body does. -/
theorem found_iff {id : ℤ} {item : BidItem} :
    Found env w id item ↔
      ∃ t, run (handle env) (getBidItemManaged id) w = (.ok (some item), t) := by
  unfold Found proxyGetBidItem
  rw [run_transactional]
  rcases run (handle env) (getBidItemManaged id) w with ⟨e | found, t⟩
  · simp
  · simp

/-- An item of the cache is found. -/
theorem found_of_mem {id : ℤ} (h : .long id ∈ w.redis.sets .bidItems) :
    ∃ item, Found env w id item := by
  obtain ⟨item, n, hget⟩ := run_getBidItem_present env w h
  exact ⟨item, found_iff.mpr ⟨_, run_bind_ok hget⟩⟩

/-- The bid that reaches the engine is the one on the item that was found. -/
theorem mem_trace_doBid {request : BidRequest} {bid : BidCall} :
    Cmd.engineBid bid ∈ trace (handle env) (doBid request) w ↔
      ∃ item, Found env w (toInt32 request.bidItemId) item ∧
        bid = bidCall (toInt32 request.bidItemId) request item := by
  unfold doBid
  constructor
  · intro hmem
    rcases mem_trace_bind.mp hmem with hmem | ⟨_, t, -, hmem⟩
    · rcases mem_trace_bind.mp (mem_trace_transactional.mp hmem) with hmem | ⟨found, t, hrun, hmem⟩
      · -- the fetch sends no bid
        exact absurd hmem ((within_getBidItemManaged _).not_mem_trace id w)
      · cases found with
        | none => cases hmem
        | some item =>
          refine ⟨item, found_iff.mpr ⟨t, hrun⟩, ?_⟩
          cases mem_trace_perform.mp hmem
          rfl
    · -- the answer to an auto-bid fetches the item again
      split at hmem
      · exact absurd hmem ((within_autoBidAnswer _).not_mem_trace id t)
      · cases hmem
  · intro hbid
    rcases hbid with ⟨item, hfound, rfl⟩
    obtain ⟨t, hrun⟩ := found_iff.mp hfound
    apply mem_trace_bind.mpr
    refine .inl (mem_trace_transactional.mpr (mem_trace_bind.mpr (.inr ⟨_, t, hrun, ?_⟩)))
    exact mem_trace_perform.mpr rfl

/-- A bid gets through to every item that is found. -/
theorem offers_doBid_iff {userName : String} {bidItemId bidType : ℤ} {bidAmount : ℚ}
    {comments : String} {item : BidItem} :
    Offers env w userName (.doBid bidItemId bidType bidAmount comments) item ↔
      Found env w (toInt32 bidItemId) item := by
  constructor
  · intro h
    exact h.1
  · intro hfound
    refine ⟨hfound, _, ?_, mem_trace_doBid.mpr ⟨item, hfound, rfl⟩⟩
    rfl

end Bid

/-! ## Both requests -/

/-- The request keeps to the user's categories by itself: a filter that names the category of
    the item on sale, or an id that finds an item, names one to which the user is entitled. -/
def OwnCategory (env : Env) (w : World) (userName : String) : BidderRequest → Prop
  | .active category => ∀ item, endSequence w.redis = .isFalse →
      Found env w (activeId w.redis) item → category.getD 0 ≠ 0 →
      BidderDao.categoryIdOf item = some (category.getD 0) →
      (∃ categoryList, cachedCategoryList w userName = .ok categoryList) →
      Entitled w userName item
  | .doBid bidItemId _ _ _ => ∀ item, Found env w (toInt32 bidItemId) item →
      Entitled w userName item

/-- **A request of a bidder keeps to the user's categories exactly if its parameters do: the
    page `/active` checks them only without a filter, and `doBid` not at all.** -/
theorem enforced_iff (env : Env) (w : World) (userName : String) (request : BidderRequest) :
    Enforced env w userName request ↔ OwnCategory env w userName request := by
  unfold Enforced
  cases request with
  -- nothing is checked, so the request offers the item that it names
  | doBid bidItemId bidType bidAmount comments =>
    simp only [offers_doBid_iff]
    exact Iff.rfl
  | active category =>
    simp only [offers_active_iff]
    constructor
    · -- with a filter the page takes the category from the request
      intro h item hend hfound hfilter hcategory hlist
      obtain ⟨categoryList, hlist⟩ := hlist
      obtain ⟨t, hrun⟩ : ∃ t, run (handle env) (proxyGetBidItem (activeId w.redis)) w =
          (.ok (some item), t) := ⟨_, Prod.ext hfound rfl⟩
      apply (entitled_withPrice w userName).mp
      exact h _ ⟨categoryList, item, t, hlist, hend, hrun,
        (run_isShown_filter hfilter).mpr hcategory, rfl⟩
    · intro h item hoffers
      rcases hoffers with ⟨categoryList, onSale, t, hlist, hend, hrun, hshown, rfl⟩
      apply (entitled_withPrice w userName).mpr
      by_cases hfilter : category.getD 0 = 0
      · -- the page itself has looked for the row
        rw [hfilter] at hshown
        exact (entitled_iff w userName).mpr ⟨categoryList, hlist, run_isShown_zero hshown⟩
      · have hfound : Found env w (activeId w.redis) onSale := congrArg Prod.fst hrun
        exact h onSale hend hfound hfilter ((run_isShown_filter hfilter).mp hshown)
          ⟨categoryList, hlist⟩

/-- An auction of one item of category `5`, loaded and on sale, to which nobody is mapped. -/
def unmapped : World :=
  (run (handle (Env.steady 1000)) (do initCache; timerTask : Act TaskOutcome)
    { World.initial { Db.empty with
        bidItems := fun _ => some { BidItem.new with
          timeExtAfterBid := some 20
          category := some ⟨some 5, some "Copper"⟩ }
        bidSequence := [⟨1, 11, 1, 60⟩]
        categories := [⟨some 5, some "Copper"⟩] } with auctionId := 1 }).2

/-- The number of items that the page shows; none if it throws. -/
def shownItems (env : Env) (w : World) (userName : String) (category : Option ℤ) : ℕ :=
  match (run (handle env) (activeItems userName category) w).1 with
  | .ok items => items.length
  | .error _ => 0

/-- A page that shows something offers an item. -/
theorem offers_of_shownItems {env : Env} {w : World} {userName : String} {category : Option ℤ}
    (h : 0 < shownItems env w userName category) :
    ∃ item, Offers env w userName (.active category) item := by
  unfold shownItems at h
  cases hrun : (run (handle env) (activeItems userName category) w).1 with
  | error e => simp [hrun] at h
  | ok items =>
    rw [hrun] at h
    obtain ⟨item, hitem⟩ := List.exists_mem_of_length_pos h
    exact ⟨item, items, hrun, hitem⟩

/-- The page without a filter shows nothing to a bidder who is mapped to no category; with the
    category of the item on sale as the filter it shows the item, and a bid on it goes through. -/
theorem unmapped_not_enforced :
    shownItems (Env.steady 1000) unmapped "bidder1" none = 0 ∧
      ¬ Enforced (Env.steady 1000) unmapped "bidder1" (.active (some 5)) ∧
      ¬ Enforced (Env.steady 1000) unmapped "bidder1" (.doBid 11 1 100 "") := by
  -- without a mapping the bidder is entitled to nothing
  have hnot : ∀ item, ¬ Entitled unmapped "bidder1" item := by
    intro item hentitled
    obtain ⟨_, -, c, hc, -⟩ := hentitled
    have hnone : unmapped.db.bidderCategories.length = 0 := by decide +kernel
    rw [List.eq_nil_of_length_eq_zero hnone] at hc
    cases hc
  refine ⟨by decide +kernel, fun henforced => ?_, fun henforced => ?_⟩
  · have hshown : 0 < shownItems (Env.steady 1000) unmapped "bidder1" (some 5) := by
      decide +kernel
    obtain ⟨item, hoffers⟩ := offers_of_shownItems hshown
    exact hnot item (henforced item hoffers)
  · obtain ⟨item, hfound⟩ : ∃ item, Found (Env.steady 1000) unmapped 11 item :=
      found_of_mem (by decide +kernel)
    exact hnot item (henforced item (offers_doBid_iff.mpr hfound))

end Bidding.Model
