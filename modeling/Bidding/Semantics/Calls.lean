import Bidding.Model.Controllers

/-!
# Runs of Single Calls

What each call and each frame of a `try` block does in the semantics without failures,
as rewrite rules. Larger methods are run by these rules and never unfolded down to the
handler again.
-/

namespace Bidding.Model

open Bidding.Effects Bidding.Effects.Action Bidding.KeyValue

variable {α : Type} (env : Env) (w : World)

@[simp] theorem run_connect : run (handle env) connect w = (.ok 0, w) := rfl

@[simp] theorem run_close (jedis : Option Connection) :
    run (handle env) (close jedis) w = (.ok (), w) := rfl

@[simp] theorem run_now :
    run (handle env) now w = (.ok (env.clock w.reads), { w with reads := w.reads + 1 }) := rfl

/-- The row of an item, with a reading of the clock for each date that is missing. -/
theorem run_getBidItem_dao (id : ℤ) :
    run (handle env) (Dao.getBidItem id) w = match CommonDao.getBidItem (env.times w) w.db id with
      | .ok (item, db) =>
        (.ok item, { w with db := db, reads := w.reads + CommonDao.clockReads w.db id })
      | .error e => (.error e, w) := by
  refine (run_perform (handle env) (.dao (.getBidItem id)) _ w).trans ?_
  simp only [handle, handleDao]
  rcases CommonDao.getBidItem (env.times w) w.db id with e | ⟨item, db⟩ <;> rfl

/-- An update that fails leaves the tables as they are. -/
theorem run_updateBidItem_dao (item : Option BidItem) :
    run (handle env) (Dao.updateBidItem item) w = match CommonDao.updateBidItem w.db item with
      | .ok db => (.ok (), { w with db := db })
      | .error e => (.error e, w) := by
  refine (run_perform (handle env) (.dao (.updateBidItem item)) _ w).trans ?_
  simp only [handle, handleDao]
  cases CommonDao.updateBidItem w.db item <;> rfl

@[simp] theorem run_isValidAuction_dao (id : ℤ) :
    run (handle env) (Dao.isValidAuction id) w = (CommonDao.isValidAuction w.db id, w) := rfl

@[simp] theorem run_getActualAuctionStartTime_dao (id : ℤ) :
    run (handle env) (Dao.getActualAuctionStartTime id) w =
      (.ok (CommonDao.getActualAuctionStartTime w.db id), w) := rfl

@[simp] theorem run_setActualAuctionStartTime_dao (id : ℤ) (d : Date) :
    run (handle env) (Dao.setActualAuctionStartTime id d) w = (.ok (), { w with
      db := CommonDao.setActualAuctionStartTime w.db id d (env.clock w.reads)
      reads := w.reads + 1 }) := rfl

@[simp] theorem run_closeAuction_dao (id : ℤ) :
    run (handle env) (Dao.closeAuction id) w = (.ok (), { w with
      db := CommonDao.closeAuction w.db id (env.clock w.reads) (env.clock (w.reads + 1))
      reads := w.reads + 2 }) := rfl

@[simp] theorem run_getCurrentBidSequence_dao (id : ℤ) :
    run (handle env) (Dao.getCurrentBidSequence id) w =
      (.ok (CommonDao.getCurrentBidSequence w.db id), w) := rfl

@[simp] theorem run_queryCategories_dao :
    run (handle env) Dao.queryCategories w = (.ok w.db.categories, w) := rfl

@[simp] theorem run_getCategoryList_dao (userName : String) (auctionId : ℤ) :
    run (handle env) (Dao.getCategoryList userName auctionId) w =
      (.ok (CommonDao.getCategoryList w.db userName auctionId), w) := rfl

@[simp] theorem run_getMaxBidId_dao :
    run (handle env) Dao.getMaxBidId w = (.ok (CommonDao.getMaxBidId w.db), w) := rfl

@[simp] theorem run_getMaxAutoBidId_dao :
    run (handle env) Dao.getMaxAutoBidId w = (.ok (CommonDao.getMaxAutoBidId w.db), w) := rfl

theorem run_begin : run (handle env) (dao .begin : Act Db) w = (.ok w.db, w) := rfl

theorem run_parseId (id : ℤ) :
    run (handle env) (ofExcept (Text.parseLong (some (.long id)))) w = (.ok id, w) := rfl

@[simp] theorem run_getStartFlag :
    run (handle env) Field.getStartFlag w = (.ok w.startFlag, w) := rfl

@[simp] theorem run_setStartFlag (b : Bool) :
    run (handle env) (Field.setStartFlag b) w = (.ok (), { w with startFlag := b }) := rfl

@[simp] theorem run_getAuctionId_field :
    run (handle env) Field.getAuctionId w = (.ok w.auctionId, w) := rfl

@[simp] theorem run_setAuctionId_field (id : ℤ) :
    run (handle env) (Field.setAuctionId id) w = (.ok (), { w with auctionId := id }) := rfl

@[simp] theorem run_getAuctionStartTime :
    run (handle env) Field.getAuctionStartTime w = (.ok w.auctionStartTime, w) := rfl

@[simp] theorem run_setAuctionStartTime (d : Date) :
    run (handle env) (Field.setAuctionStartTime d) w =
      (.ok (), { w with auctionStartTime := some d }) := rfl

/-- A guarded method returns normally; its default stands for an exception. -/
theorem run_guarded (onFailure : α) (body : Act α) :
    run (handle env) (guarded onFailure body) w =
      (.ok (match (run (handle env) body w).1 with
        | .ok a => a
        | .error _ => onFailure), (run (handle env) body w).2) := by
  unfold guarded
  rw [run_bind_ok (run_attempt_of (run_connect env w))]
  refine (run_bind_ok (run_attempt _ body w)).trans ?_
  cases (run (handle env) body w).1 <;> rfl

theorem run_guarded_returns (onFailure : α) (body : Act α) :
    ∃ a, (run (handle env) (guarded onFailure body) w).1 = .ok a :=
  ⟨_, congrArg Prod.fst (run_guarded env w onFailure body)⟩

/-- A method that does not close its connection catches its exceptions as well. -/
theorem run_unclosed (onFailure : α) (body : Act α) :
    run (handle env) (unclosed onFailure body) w =
      (.ok (match (run (handle env) body w).1 with
        | .ok a => a
        | .error _ => onFailure), (run (handle env) body w).2) := by
  unfold unclosed
  rw [run_bind_ok (run_attempt_of (run_connect env w))]
  refine (run_bind_ok (run_attempt _ body w)).trans ?_
  cases (run (handle env) body w).1 <;> rfl

variable {env w}

/-- The rule for a guarded method whose body returns normally. -/
theorem run_guarded_ok {onFailure a : α} {body : Act α} {t : World}
    (h : run (handle env) body w = (.ok a, t)) :
    run (handle env) (guarded onFailure body) w = (.ok a, t) := by
  rw [run_guarded, h]

variable (env w)

/-! ## Cache commands -/

namespace RedisCacheService

@[simp] theorem run_get (k : Key) :
    run (handle env) (get k) w = (.ok (w.redis.strings k), w) := rfl

@[simp] theorem run_set (k : Key) (v : Text) :
    run (handle env) (set k v) w = (.ok (), { w with redis := w.redis.set k v }) := rfl

@[simp] theorem run_sadd (k : Key) (v : Text) :
    run (handle env) (sadd k v) w = (.ok (), { w with redis := w.redis.sadd k v }) := rfl

@[simp] theorem run_sismember (k : Key) (v : Text) :
    run (handle env) (sismember k v) w = (.ok (decide (v ∈ w.redis.sets k)), w) := rfl

@[simp] theorem run_smembers (k : Key) :
    run (handle env) (smembers k) w = (.ok (env.order.members (w.redis.sets k)), w) := rfl

@[simp] theorem run_hget (k : Key) (f : Attr) :
    run (handle env) (hget k f) w = (.ok (w.redis.hashes k f), w) := rfl

@[simp] theorem run_hgetAll (k : Key) :
    run (handle env) (hgetAll k) w = (.ok (w.redis.hashes k), w) := rfl

@[simp] theorem run_hset (k : Key) (f : Attr) (v : Text) :
    run (handle env) (hset k f v) w = (.ok (), { w with redis := w.redis.hset k f v }) := rfl

@[simp] theorem run_hsetnx (k : Key) (f : Attr) (v : Text) :
    run (handle env) (hsetnx k f v) w = (.ok (), { w with redis := w.redis.hsetnx k f v }) := rfl

@[simp] theorem run_lpush (k : Key) (v : Text) :
    run (handle env) (lpush k v) w = (.ok (), { w with redis := w.redis.lpush k v }) := rfl

@[simp] theorem run_rpop (k : Key) :
    run (handle env) (rpop k) w =
      (.ok (w.redis.lists k).getLast?, { w with redis := w.redis.rpop k }) := rfl

@[simp] theorem run_zadd (k : Key) (score : ℤ) (m : Text) :
    run (handle env) (zadd k score m) w =
      (.ok (), { w with redis := w.redis.zadd k score m }) := rfl

@[simp] theorem run_zcard (k : Key) :
    run (handle env) (zcard k) w = (.ok (w.redis.zsets k).length, w) := rfl

@[simp] theorem run_zrangeByScore (k : Key) (lo hi : ℤ) :
    run (handle env) (zrangeByScore k lo hi) w =
      (.ok (zrange env.order.lex (w.redis.zsets k) lo hi), w) := rfl

end RedisCacheService

end Bidding.Model
