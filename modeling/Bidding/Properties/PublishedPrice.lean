import Bidding.Effects.Runs
import Bidding.Semantics.CompleteItems

/-!
# Published Prices

`BidObserver.update` sets the price of a published bid in a copy of the item and stores the
copy with `setBidItem`. Fields that the cache has are not overwritten, so a cached item keeps
the price it was stored with.

## Key Results

- **`sameItem_publish`**: notifications for a cached item change nothing but the sets of items
  of a category.
- **`published_iff`**: published prices reach the cache exactly if the last one is the price
  that the cache has had all along.
-/

namespace Bidding.Model

open Bidding.Effects Bidding.Effects.Action Bidding.KeyValue Bidding.Collections
open RedisCacheService

/-! ## Notifications -/

section Notifications

variable {env : Env} {w : World} {id : ℤ}

/-- The worlds after a sequence of notifications for an item. -/
def publish (env : Env) (id : ℤ) (w : World) (amounts : List ℚ) : World :=
  amounts.foldl (fun w bidAmount => (run (handle env) (BidObserver.update id bidAmount) w).2) w

/-- Nor does a sequence of them. -/
theorem sameItem_publish (h : Complete w.redis id) (env : Env) (amounts : List ℚ) :
    SameItems w.redis (publish env id w amounts).redis := by
  -- the item stays complete, so the step applies to every notification
  apply run_inv (I := fun t : World => SameItems w.redis t.redis) _ (SameItems.refl _)
  intro t bidAmount hsame
  exact hsame.trans (sameItem_update (h.of_sameItems hsame) env bidAmount)

end Notifications

/-! ## Published prices -/

/-- Items that differ at most in the price, and in the times at which their bidders were read. -/
structure SameButPrice (item item' : BidItem) : Prop where
  attributes : { item' with
    currentMarketPrice := item.currentMarketPrice
    currentBiddersList := item.currentBiddersList } = item
  bidders : item'.currentBiddersList.map Bidder.entry = item.currentBiddersList.map Bidder.entry

/-- After the notifications the service answers the last amount as the price, and all else as
    before. -/
def Published (env : Env) (w : World) (id : ℤ) (amounts : List ℚ) : Prop :=
  ∃ item t item' t',
    run (handle env) (BidItemsCacheService.getBidItem id) w = (.ok (some item), t) ∧
    run (handle env) (BidItemsCacheService.getBidItem id) (publish env id w amounts) =
      (.ok (some item'), t') ∧
    item'.currentMarketPrice = amounts.getLast? ∧ SameButPrice item item'

/-- The price that the cache has for an item. -/
def cachedPrice (r : Redis) (id : ℤ) : ℚ :=
  valueOr 0 (parsePriceOrZero (r.hashes (.bidItem id) .currentMarketPrice))

/-- **Published prices reach the cache exactly if the last one is the price that the cache has
    had all along.** -/
theorem published_iff (env : Env) (w : World) (id : ℤ) (amounts : List ℚ)
    (h : Complete w.redis id) :
    Published env w id amounts ↔ amounts.getLast? = some (cachedPrice w.redis id) := by
  -- a field that the cache has is not overwritten, so that the item is read back as before
  have hsame := sameItem_publish h env amounts
  have h' := h.of_sameItems hsame
  have hbefore := h.run_getBidItem env
  have hafter := h'.run_getBidItem env
  have hitem := cachedItem_of_sameItems hsame id
  constructor
  · intro hpublished
    obtain ⟨item, t, item', t', -, hrun, hprice, -⟩ := hpublished
    obtain ⟨rfl, -⟩ : _ = item' ∧ _ = t' := by simpa using hafter.symm.trans hrun
    rw [← hprice]
    exact congrArg BidItem.currentMarketPrice hitem
  · intro hprice
    refine ⟨_, _, _, _, hbefore, hafter, ?_, ?_, ?_⟩
    · rw [hprice]
      exact congrArg BidItem.currentMarketPrice hitem
    · simp only [readBack, hitem]
    · rw [h'.entries_readBack, h.entries_readBack, (hsame (.bidders id) (by simp)).sets]
      apply List.map_congr_left
      intro t _
      simp only [cachedBidder, (hsame (.bidder id t) (by simp)).hashes]

/-- An item with a price and one bidder. -/
def pricedItem : BidItem :=
  { BidItem.new with
    bidItemId := some 11
    bidStartTime := some 0
    currentMarketPrice := some 100
    currentBiddersList := [⟨some "bidder1", 100, true, 0, none⟩] }

/-- The world after the item was stored in an empty cache. -/
def pricedWorld : World :=
  (run (handle (Env.still 0)) (RedisCacheService.setBidItem 11 pricedItem) (World.initial .empty)).2

/-- The cache has the priced item whole. -/
theorem complete_pricedWorld : Complete pricedWorld.redis 11 := by
  have hstart : pricedItem.bidStartTime = some 0 := rfl
  obtain ⟨r, n, hrun, hstored, hbidders⟩ :=
    run_setBidItem_bidders (Env.still 0) (World.initial .empty) 11 hstart
  have hredis : pricedWorld.redis = r := congrArg (fun out => out.2.redis) hrun
  rw [hredis]
  exact complete_of_stored hstored hbidders ⟨fun _ => rfl, rfl, fun _ _ => rfl⟩ rfl hstart

/-- A published price that the cache has already. -/
theorem published_pricedWorld : Published (Env.still 0) pricedWorld 11 [120, 100] :=
  (published_iff (Env.still 0) pricedWorld 11 [120, 100] complete_pricedWorld).mpr
    (by decide +kernel)

/-- A published price of `120` leaves the price at `100`. -/
theorem pricedWorld_not_published : ¬ Published (Env.still 0) pricedWorld 11 [120] := by
  intro hpublished
  obtain ⟨_, _, item', t', -, hrun, hprice, -⟩ := hpublished
  have hsame := sameItem_publish complete_pricedWorld (Env.still 0) [120]
  have hafter := (complete_pricedWorld.of_sameItems hsame).run_getBidItem (Env.still 0)
  obtain ⟨rfl, -⟩ : _ = item' ∧ _ = t' := by simpa using hafter.symm.trans hrun
  have hcached : some (cachedPrice pricedWorld.redis 11) = [(120 : ℚ)].getLast? := by
    rw [← hprice]
    exact (congrArg BidItem.currentMarketPrice (cachedItem_of_sameItems hsame 11)).symm
  exact absurd hcached (by decide +kernel)

end Bidding.Model
