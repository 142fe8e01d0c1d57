import Bidding.Semantics.Loading

/-!
# Runs of the Administrator's Requests

What `initcache` and `closeAuction` do to the tables, the cache and the timers.

## Key Results

- **`run_initcache_cases`**: a request to start an auction is refused and changes nothing,
  fails after the cache was emptied, or loads the auction.
- **`run_closeAuction`**: a request to close an auction.
-/

namespace Bidding.Model.AdminController

open Bidding.Effects Bidding.Effects.Action Bidding.KeyValue
open RedisCacheService BidItemsCacheService

/-- A request of the administrator. -/
inductive Request where
  | initcache (auctionStart : Arg Date) (auctionIdStr : Arg ℤ) (auctionTimeExt : Arg ℤ)
  | closeAuction (auctionId : ℤ)

/-- The method that serves a request. -/
def Request.serve : Request → Act Unit
  | .initcache auctionStart auctionIdStr auctionTimeExt =>
    AdminController.initcache auctionStart auctionIdStr auctionTimeExt
  | .closeAuction auctionId => AdminController.closeAuction auctionId

/-- The world after a request. -/
def serveRequest (env : Env) (w : World) (request : Request) : World :=
  (run (handle env) request.serve w).2

/-- The auction that a request asks for is approved and waits for its start. -/
def Startable (db : Db) (auctionId : ℤ) : Prop :=
  CommonDao.isValidAuction db auctionId = .ok true

/-- The parameters of a request determine a start time. -/
def StartTimeGiven : Arg Date → Arg ℤ → Prop
  | .value _, _ => True
  | .malformed, _ => False
  | .blank, .malformed => False
  | .blank, _ => True

variable (env : Env) (w : World)

/-- A start time that is given, or left to the clock, is found. -/
theorem run_startTimeOf_ok {auctionStart : Arg Date} {auctionTimeExt : Arg ℤ}
    (h : StartTimeGiven auctionStart auctionTimeExt) :
    ∃ d n, run (handle env) (AdminController.startTimeOf auctionStart auctionTimeExt) w =
      (.ok d, { w with reads := w.reads + n }) := by
  match auctionStart, auctionTimeExt, h with
  | .value d, _, _ => exact ⟨d, 0, rfl⟩
  | .blank, .value time, _ => exact ⟨_, 1, rfl⟩
  | .blank, .blank, _ => exact ⟨_, 1, rfl⟩

/-- A start time that cannot be parsed is an exception. -/
theorem run_startTimeOf_error {auctionStart : Arg Date} {auctionTimeExt : Arg ℤ}
    (h : ¬ StartTimeGiven auctionStart auctionTimeExt) :
    ∃ e n, run (handle env) (AdminController.startTimeOf auctionStart auctionTimeExt) w =
      (.error e, { w with reads := w.reads + n }) := by
  match auctionStart, auctionTimeExt, h with
  | .value d, _, h => exact absurd trivial h
  | .malformed, _, _ => exact ⟨_, 0, rfl⟩
  | .blank, .value time, h => exact absurd trivial h
  | .blank, .malformed, _ => exact ⟨_, 1, rfl⟩
  | .blank, .blank, h => exact absurd trivial h

/-- The world in which `startAuction` computes the start time. -/
def emptied (auctionId : ℤ) (w : World) : World :=
  { w with
    auctioneer := true
    redis := (Store.empty : Redis).set .auctionId (.long auctionId)
    auctionId := auctionId }

/-- The start of an auction goes on from the emptied cache. -/
theorem run_startAuction (auctionId : ℤ) (auctionStart : Arg Date) (auctionTimeExt : Arg ℤ) :
    run (handle env) (startAuction auctionId auctionStart auctionTimeExt) w =
      run (handle env) (do
        let startTime ← AdminController.startTimeOf auctionStart auctionTimeExt
        Field.setAuctionStartTime startTime
        Dao.setActualAuctionStartTime auctionId startTime
        BidItemsCacheService.initCache : Act Unit) (emptied auctionId w) := by
  rfl

/-- What a request to start an auction can do. -/
inductive Initcache (env : Env) (w : World) (auctionStart : Arg Date) (auctionTimeExt : Arg ℤ) :
    Arg ℤ → World → Prop
  /-- the id is missing or malformed, or the auction cannot be started -/
  | refused {auctionIdStr : Arg ℤ}
      (h : ∀ id, auctionIdStr = .value id → ¬ Startable w.db id) :
      Initcache env w auctionStart auctionTimeExt auctionIdStr w
  /-- there is no start time -/
  | failed {id : ℤ} {n : ℕ} (hvalid : Startable w.db id)
      (htime : ¬ StartTimeGiven auctionStart auctionTimeExt) :
      Initcache env w auctionStart auctionTimeExt (.value id)
        { emptied id w with reads := w.reads + n }
  /-- the auction is loaded -/
  | loaded {id : ℤ} {r : Redis} {n : ℕ} {startTime now : Date} (hvalid : Startable w.db id)
      (htime : StartTimeGiven auctionStart auctionTimeExt)
      (hload : ∀ k, ¬ LoadKey k → Store.SameAt k r (storeSequence env.order
        (CommonDao.getCurrentBidSequence w.db id) Store.empty)) :
      Initcache env w auctionStart auctionTimeExt (.value id) { w with
        auctioneer := true
        redis := r
        db := CommonDao.setActualAuctionStartTime w.db id startTime now
        startFlag := true
        auctionId := id
        auctionStartTime := some startTime
        reads := w.reads + n
        timers := w.timers ++ newTimers (some startTime)
          (CommonDao.getCurrentBidSequence w.db id) }

/-- A request to start an auction is refused, fails after the cache has been emptied, or loads the
    cache. -/
theorem run_initcache_cases (auctionStart : Arg Date) (auctionIdStr auctionTimeExt : Arg ℤ) :
    Initcache env w auctionStart auctionTimeExt auctionIdStr
      (run (handle env) (initcache auctionStart auctionIdStr auctionTimeExt) w).2 := by
  cases auctionIdStr with
  -- without a number there is no auction to look for
  | blank => exact .refused (fun _ h => by cases h)
  | malformed => exact .refused (fun _ h => by cases h)
  | value id =>
    have hvalid := run_isValidAuction_dao env w id
    have hserve : run (handle env) (initcache auctionStart (.value id) auctionTimeExt) w =
        run (handle env) (do
          let valid ← Dao.isValidAuction id
          if valid then startAuction id auctionStart auctionTimeExt else pure () : Act Unit) w :=
      rfl
    rw [hserve]
    match hres : CommonDao.isValidAuction w.db id with
    -- the auction does not exist
    | .error e =>
      rw [hres] at hvalid
      rw [run_bind_error hvalid]
      exact .refused (fun id' h => by cases h; simp [Startable, hres])
    | .ok false =>
      rw [hres] at hvalid
      rw [run_bind_ok hvalid]
      exact .refused (fun id' h => by cases h; simp [Startable, hres])
    | .ok true =>
      rw [hres] at hvalid
      rw [run_bind_ok hvalid, if_pos rfl, run_startAuction]
      -- the cache is emptied before the start time is looked at, so a missing one fails too late
      by_cases htime : StartTimeGiven auctionStart auctionTimeExt
      · -- the start time is stored in the field and in the row, then the cache is filled
        obtain ⟨d, n, hd⟩ := run_startTimeOf_ok env (emptied id w) htime
        let w₁ : World := { emptied id w with
          auctionStartTime := some d
          db := CommonDao.setActualAuctionStartTime w.db id d (env.clock (w.reads + n))
          reads := w.reads + n + 1 }
        have hrest : run (handle env) (do
            Field.setAuctionStartTime d
            Dao.setActualAuctionStartTime id d
            BidItemsCacheService.initCache : Act Unit)
            { emptied id w with reads := (emptied id w).reads + n } =
              run (handle env) BidItemsCacheService.initCache w₁ := rfl
        obtain ⟨r, m, hinit, hload⟩ := run_initCache env w₁
        rw [run_bind_ok hd, hrest, hinit]
        have hreads : w₁.reads + m = w.reads + (n + 1 + m) := by
          simp only [w₁]
          omega
        rw [hreads]
        exact .loaded hres htime hload
      · obtain ⟨e, n, he⟩ := run_startTimeOf_error env (emptied id w) htime
        rw [run_bind_error he]
        exact .failed hres htime

theorem run_closeAuction (auctionId : ℤ) :
    run (handle env) (AdminController.closeAuction auctionId) w = (.ok (), { w with
      db := CommonDao.closeAuction w.db auctionId (env.clock w.reads) (env.clock (w.reads + 1))
      auctioneer := false
      redis := Store.empty
      reads := w.reads + 2 }) := rfl

end Bidding.Model.AdminController
