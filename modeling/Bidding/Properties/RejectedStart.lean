import Bidding.Properties.RunningAuction

/-!
# A Rejected Start Request

`initcache` parses the start time last: the engine has been stopped and restarted, the cache
has been emptied and given the new auction id, and the service has the new auction id when a
text that does not parse ends the request with an exception.

## Key Results

- **`untouched_iff`**: a rejected request leaves everything as it was exactly if everything
  was already as a request for this auction leaves it.
-/

namespace Bidding.Model

open Bidding.Effects Bidding.Effects.Action Bidding.KeyValue
open AdminController

/-- The cache, the fields of the service, the engine and the rows of the auctions are as
    they were. -/
structure Untouched (w w' : World) : Prop where
  redis : w'.redis = w.redis
  auctionId : w'.auctionId = w.auctionId
  auctionStartTime : w'.auctionStartTime = w.auctionStartTime
  auctioneer : w'.auctioneer = w.auctioneer
  auctions : w'.db.auctions = w.db.auctions

/-- The engine is on and the cache and the service hold the id of the auction, and nothing
    else. -/
structure Blank (auctionId : ℤ) (w : World) : Prop where
  redis : w.redis = (Store.empty : Redis).set .auctionId (.long auctionId)
  auctionId : w.auctionId = auctionId
  auctioneer : w.auctioneer = true

section Rejected

variable (env : Env) {w : World} {auctionId : ℤ} {auctionStart : Arg Date}
  {auctionTimeExt : Arg ℤ}

/-- Where a request without a start time stops. -/
theorem run_initcache_rejected (hvalid : Startable w.db auctionId)
    (htime : ¬ StartTimeGiven auctionStart auctionTimeExt) :
    ∃ e n, run (handle env) (initcache auctionStart (.value auctionId) auctionTimeExt) w =
      (.error e, { emptied auctionId w with reads := w.reads + n }) := by
  obtain ⟨e, n, he⟩ := run_startTimeOf_error env (emptied auctionId w) htime
  have hdao := run_isValidAuction_dao env w auctionId
  rw [hvalid] at hdao
  refine ⟨e, n, ?_⟩
  show run (handle env) (do
    let valid ← Dao.isValidAuction auctionId
    if valid then startAuction auctionId auctionStart auctionTimeExt else pure () : Act Unit) w = _
  -- the cache is emptied before the start time is parsed
  rw [run_bind_ok hdao, if_pos rfl, run_startAuction]
  exact run_bind_error he

/-- Emptying the cache changes nothing if there was nothing in it. -/
theorem untouched_emptied (n : ℕ) :
    Untouched w { emptied auctionId w with reads := w.reads + n } ↔ Blank auctionId w := by
  constructor
  · intro h
    exact ⟨h.redis.symm, h.auctionId.symm, h.auctioneer.symm⟩
  · intro h
    exact ⟨h.redis.symm, h.auctionId.symm, rfl, h.auctioneer.symm, rfl⟩

/-- **A request that ends with an exception because a text does not parse changes nothing
    exactly if the engine was on and the cache and the service held the id of the requested
    auction and nothing else.** -/
theorem untouched_iff (hvalid : Startable w.db auctionId)
    (htime : ¬ StartTimeGiven auctionStart auctionTimeExt) :
    (∃ e, (run (handle env) (initcache auctionStart (.value auctionId) auctionTimeExt) w).1 =
        .error e) ∧
      (Untouched w
          (run (handle env) (initcache auctionStart (.value auctionId) auctionTimeExt) w).2 ↔
        Blank auctionId w) := by
  obtain ⟨e, n, hrun⟩ := run_initcache_rejected env hvalid htime
  rw [hrun]
  exact ⟨⟨e, rfl⟩, untouched_emptied n⟩

end Rejected

/-- Auction `1` is loaded. -/
def oneLoaded : World :=
  serveRequest (Env.still 0) (World.initial twoAuctions)
    (.initcache (.value 0) (.value 1) .blank)

/-- A second request that cannot be parsed changes nothing any more. -/
theorem untouched_second_request :
    let w := serveRequest (Env.still 0) (World.initial twoAuctions)
      (.initcache .malformed (.value 2) .blank)
    Untouched w (run (handle (Env.still 0)) (initcache .blank (.value 2) .malformed) w).2 :=
  (untouched_iff (Env.still 0) (by unfold Startable; decide +kernel)
    (fun h : StartTimeGiven .blank .malformed => h)).2.mpr ⟨rfl, rfl, rfl⟩

/-- A request for auction `2` with a malformed start time ends with an exception, and auction
    `1` has lost its place in the cache and its queue. -/
theorem oneLoaded_not_untouched :
    let out := run (handle (Env.still 0)) (initcache .malformed (.value 2) .blank) oneLoaded
    Startable oneLoaded.db 2 ∧ out.1 = .error .runtime ∧
      oneLoaded.redis.strings .auctionId = some (.long 1) ∧
      out.2.redis.strings .auctionId = some (.long 2) ∧ ¬ Untouched oneLoaded out.2 := by
  have hbefore : oneLoaded.redis.strings .auctionId = some (.long 1) := by decide +kernel
  have hafter : (run (handle (Env.still 0)) (initcache .malformed (.value 2) .blank)
      oneLoaded).2.redis.strings .auctionId = some (.long 2) := by decide +kernel
  refine ⟨by unfold Startable; decide +kernel, by decide +kernel, hbefore, hafter, ?_⟩
  -- the id of the auction in the cache has changed
  intro h
  rw [h.redis, hbefore] at hafter
  exact absurd hafter (by decide)

end Bidding.Model
