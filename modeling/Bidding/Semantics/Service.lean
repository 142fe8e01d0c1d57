import Bidding.Semantics.Bidders
import Bidding.Semantics.Dao

/-!
# Runs of the Scheduler's Building Blocks

Reading the time left of an item, loading an item that goes on sale, and closing the item
whose time is over.

## Key Results

- **`run_getTimeLeft`**: the time left of a cached item is `countdown` of its three times.
- **`run_loadBidItem`**: a loadable item that is in the sequence goes on sale at the time of
  one clock reading.
- **`run_cleanBidItem`**: a cached item is marked as expired and its row is closed.
-/

namespace Bidding.Model

open Bidding.Effects Bidding.Effects.Action Bidding.KeyValue RedisCacheService

/-! ## Seconds -/

@[simp] theorem toSeconds_ofSecond (s : ℤ) : toSeconds (ofSecond s) = s := by
  simp only [toSeconds, ofSecond]
  exact Int.mul_tdiv_cancel s (by decide)

@[simp] theorem secondOf_addSeconds (d : Date) (n : ℤ) :
    secondOf (addSeconds d n) = secondOf d + n := by
  simp only [secondOf, addSeconds]
  omega

/-- The second of an earlier reading is not after the second of a later one. -/
theorem secondOf_le_toSeconds {d d' : ℤ} (h : d ≤ d') : secondOf d ≤ toSeconds d' := by
  have hsign : Int.sign 1000 = 1 := rfl
  simp only [secondOf, toSeconds, Int.tdiv_eq_ediv, hsign]
  split <;> omega

theorem toSeconds_mono {d d' : ℤ} (h : d ≤ d') : toSeconds d ≤ toSeconds d' := by
  have hsign : Int.sign 1000 = 1 := rfl
  simp only [toSeconds, Int.tdiv_eq_ediv, hsign]
  split <;> split <;> omega

theorem toSeconds_of_secondOf {d s : ℤ} (hs : 0 ≤ s) (h : secondOf d = s) :
    toSeconds d = s := by
  have hd : 0 ≤ d := by
    unfold secondOf at h
    omega
  rw [← h, toSeconds, secondOf, Int.tdiv_eq_ediv_of_nonneg hd]

/-! ## The time left -/

/-- `getTimeLeft` in seconds: end time `E`, last update `U`, extension `X`, current time
    `t`. -/
def countdown (E U X t : ℤ) : ℤ :=
  if U > E - X then t - U + X else if E - t > 0 then E - t else 0

/-- The three times of a cached item. -/
structure CachedTimes (r : Redis) (id E U X : ℤ) : Prop where
  bidEndTime : r.hashes (.bidItem id) .bidEndTime = some (.date E)
  lastUpDateTime : r.hashes (.bidItem id) .lastUpDateTime = some (.date U)
  timeExtAfterBid : r.hashes (.bidItem id) .timeExtAfterBid = some (.long X)

namespace CachedTimes

variable {r : Redis} {id E U X : ℤ}

theorem cachedItem_eq (h : CachedTimes r id E U X) :
    (cachedItem r id).bidEndTime = some (ofSecond E) ∧
      (cachedItem r id).lastUpDateTime = some (ofSecond U) ∧
      (cachedItem r id).timeExtAfterBid = some X := by
  simp only [cachedItem, h.bidEndTime, h.lastUpDateTime, h.timeExtAfterBid]
  exact ⟨rfl, rfl, rfl⟩

theorem of_sameAt {r' : Redis} (h : CachedTimes r id E U X)
    (hsame : Store.SameAt (.bidItem id) r' r) : CachedTimes r' id E U X := by
  constructor
  · rw [hsame.hashes, h.bidEndTime]
  · rw [hsame.hashes, h.lastUpDateTime]
  · rw [hsame.hashes, h.timeExtAfterBid]

end CachedTimes

namespace BidItemsCacheService

variable (env : Env) (w : World)

/-- The time left of a cached item at the next clock reading. -/
theorem run_getTimeLeft {item : BidItem} {E U X : ℤ} (hend : item.bidEndTime = some (ofSecond E))
    (hupdate : item.lastUpDateTime = some (ofSecond U)) (hext : item.timeExtAfterBid = some X) :
    run (handle env) (getTimeLeft item) w =
      (.ok (countdown E U X (toSeconds (env.clock w.reads))),
        { w with reads := w.reads + 1 }) := by
  unfold getTimeLeft
  simp only [hend, hupdate, run_bind, run_now, run_ofExcept, BidItem.timeLeftAt, hext,
    toSeconds_ofSecond, countdown]
  split <;> rfl

/-- `getTimeLeft` reads the clock and nothing else. -/
theorem within_getTimeLeft {fp : Footprint} (item : BidItem) :
    Within fp (getTimeLeft item) := by
  unfold getTimeLeft
  split
  · exact issues_pure _
  · split
    · exact issues_throw _
    · exact issues_bind within_now (fun _ => issues_ofExcept _)

/-! ## Going on sale -/

/-- A loaded item that goes on sale at the time `cal`. -/
def openedItem (loaded : BidItem) (cal : Date) (bidSpan seqId : ℤ) : BidItem :=
  { loaded with
    lastUpDateTime := some cal
    bidStartTime := some cal
    bidEndTime := some (addSeconds cal (toInt32 bidSpan))
    statusCode := some "ACTIVE"
    bidSpan := bidSpan
    seqId := seqId }

/-- The place of an item in the sequence, as the cache has it. -/
structure InSequence (r : Redis) (id span seqId : ℤ) : Prop where
  bidSpan : r.hashes (.bidSequence id) .bidSpan = some (.long span)
  sequenceId : r.hashes (.bidSequence id) .sequenceId = some (.long seqId)

/-- The item gets its times from one clock reading and the span of its sequence row. -/
theorem run_initializeBidItem {item : BidItem} {id span seqId : ℤ}
    (hid : item.bidItemId = some id) (hseq : InSequence w.redis id span seqId) :
    run (handle env) (initializeBidItem item) w =
      (.ok (openedItem item (env.clock w.reads) span seqId),
        { w with reads := w.reads + 1 }) := by
  simp only [initializeBidItem, unbox, hid, run_bind, run_now, run_ofExcept,
    run_getBidItemSequenceDetails, hseq.bidSpan, hseq.sequenceId, Text.parseLong, run_pure,
    openedItem]

/-- What the opening of an item leaves behind: the item is stored as of the clock reading
    `t`, and its row is the loaded one. -/
structure Opening (env : Env) (w : World) (id span seqId : ℤ) (item : BidItem) (r : Redis)
    (db : Db) (t : ℕ) : Prop where
  loaded : ∃ row loaded, CommonDao.Loaded w.db id row loaded db ∧
    item = openedItem loaded (env.clock t) span seqId
  stored : Stored id item w.redis r

/-- Opening an item changes no terms. -/
theorem Opening.terms_eq {env : Env} {w : World} {id span seqId : ℤ} {item : BidItem} {r : Redis}
    {db : Db} {t : ℕ} (h : Opening env w id span seqId item r db t) (id' : ℤ) :
    (db.bidItems id').map CommonDao.terms = (w.db.bidItems id').map CommonDao.terms := by
  obtain ⟨row, loaded, hloaded, -⟩ := h.loaded
  have hrows : db.bidItems = (CommonDao.setRow w.db id loaded.persistent).bidItems :=
    hloaded.rows
  rw [hrows]
  exact CommonDao.map_terms_setRow loaded.persistent hloaded.row_eq hloaded.terms_eq id'

/-- The service stores the item and reads it again. -/
theorem run_setBidItem_service (item : BidItem) {id : ℤ} {d : Date}
    (hid : item.bidItemId = some id) (hstart : item.bidStartTime = some d) :
    ∃ r n, run (handle env) (setBidItem item) w =
      (.ok (), { w with redis := r, reads := w.reads + n }) ∧ Stored id item w.redis r ∧
      StoredBidders id item.sortBidders.currentBiddersList w.redis r := by
  obtain ⟨r, n, hrun, hstored, hbidders⟩ := run_setBidItem_bidders env w id hstart
  obtain ⟨_, m, hread⟩ := run_getBidItem env { w with redis := r, reads := w.reads + n } id
  refine ⟨r, n + m, ?_, hstored, hbidders⟩
  have hunbox : run (handle env) (unbox item.bidItemId) w = (.ok id, w) := by
    simp only [unbox, run_ofExcept, hid]
  unfold setBidItem
  rw [run_bind_ok hunbox, run_bind_ok hrun, run_bind_ok hread, Nat.add_assoc]
  rfl

/-- A loadable item of the sequence goes on sale at the time of one clock reading. -/
theorem run_loadBidItem {lot span seqId : ℤ} (hload : CommonDao.Loadable w.db lot)
    (hseq : InSequence w.redis lot span seqId) :
    ∃ item r db n t, run (handle env) (loadBidItem lot) w =
      (.ok item, { w with redis := r, db := db, reads := n }) ∧
      w.reads ≤ t ∧ t < n ∧ Opening env w lot span seqId item r db t := by
  obtain ⟨⟨loaded, db⟩, hout⟩ := hload (env.times w)
  obtain ⟨row, hloaded⟩ := CommonDao.getBidItem_loaded hout
  let t := w.reads + CommonDao.clockReads w.db lot
  let item := openedItem loaded (env.clock t) span seqId
  obtain ⟨r, n, hset, hstored, -⟩ := run_setBidItem_service env
    { w with db := db, reads := t + 1 } item hloaded.bidItemId rfl
  refine ⟨item, r, db, t + 1 + n, t, ?_, Nat.le_add_right _ _, by omega,
    ⟨⟨row, loaded, hloaded, rfl⟩, hstored⟩⟩
  -- the table reads the clock for a missing date, and only then the item is initialized
  have hdao : run (handle env) (Dao.getBidItem lot) w =
      (.ok loaded, { w with db := db, reads := t }) := by
    rw [run_getBidItem_dao, hout]
  have hinit := run_initializeBidItem env { w with db := db, reads := t } hloaded.bidItemId hseq
  unfold loadBidItem
  rw [run_bind_ok hdao, run_bind_ok hinit, run_bind_ok hset]
  rfl

/-- `getBidItem` on a cache miss. -/
theorem run_getBidItem_miss {id : ℤ} (hmem : .long id ∉ w.redis.sets .bidItems) (hid : id ≠ 0) :
    run (handle env) (getBidItem id) w =
      run (handle env) (do let item ← loadBidItem id; pure (some item) : Act _) w := by
  unfold getBidItem
  rw [run_bind_ok (run_getBidItem_absent env w hmem)]
  simp only [hid, if_false]

/-- There is no item `0`. -/
theorem run_getBidItem_zero (hmem : .long 0 ∉ w.redis.sets .bidItems) :
    run (handle env) (getBidItem 0) w = (.ok none, w) := by
  unfold getBidItem
  rw [run_bind_ok (run_getBidItem_absent env w hmem)]
  rfl

/-! ## Closing -/

/-- A cached item is marked as expired, and its row is closed. -/
theorem run_cleanBidItem {id : ℤ} {row : BidItem}
    (hmem : .long id ∈ w.redis.sets .bidItems)
    (hread : Readable (w.redis.hashes (.bidItem id)))
    (hid : w.redis.hashes (.bidItem id) .bidItemId = some (.long id))
    (hrow : w.db.bidItems id = some row) :
    ∃ n, run (handle env) (cleanBidItem id) w = (.ok (), { w with
      redis := expire w.redis id (env.clock w.reads)
      db := CommonDao.setRow w.db id
        (CommonDao.closedRow row (cachedItem (expire w.redis id (env.clock w.reads)) id))
      reads := w.reads + 1 + n }) := by
  let w₁ : World := { w with
    redis := expire w.redis id (env.clock w.reads)
    reads := w.reads + 1 }
  -- the item is read again after it was marked, so that the row gets the new mark
  obtain ⟨bidders, hget⟩ := run_getBidItem_of_readable env w₁ id hmem (hread.expire _)
  let item := { cachedItem w₁.redis id with currentBiddersList := bidders }
  have hitem : item.bidItemId = some id := by
    have hfield : w₁.redis.hashes (.bidItem id) .bidItemId = some (.long id) := by
      simpa [w₁, expire, Store.sadd] using hid
    simp only [item, cachedItem, hfield]
    rfl
  refine ⟨bidderCount w₁.redis ((cachedItem w₁.redis id).bidItemId.getD 0), ?_⟩
  unfold cleanBidItem
  rw [run_bind_ok (run_setExpiredBidItem env w id), run_bind_ok hget, run_updateBidItem_dao,
    CommonDao.updateBidItem_ok hitem hrow]
  rfl

end BidItemsCacheService

end Bidding.Model
