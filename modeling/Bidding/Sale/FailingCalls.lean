import Mathlib.Tactic.IntervalCases
import Bidding.Sale.Tick
import Bidding.Semantics.AnyTick
import Bidding.Semantics.Failures

/-!
# Failing Calls of a Tick

One command to the cache fails in one of the calls of a tick. The call swallows the exception,
and the rest of the tick goes on with what the call answers. Here each call is followed with
its fault: which item a fetch hands out, what is left of a lot that could not be closed, and
whether the next lot is opened.

## Key Results

- **`fault_tested`**: the test of the time left sends no command.
- **`fault_cleanBidItem`**: closing a lot fails if the lot is not found again.
- **`fault_openNext`**: opening a lot fails if it cannot be looked up in the sequence.
-/

namespace Bidding.Model

open Bidding.Effects Bidding.Effects.Action Bidding.KeyValue
open RedisCacheService BidItemsCacheService

/-! ## The lot on offer -/

section Fetch

variable (env : Env) {w : World} {id E U X : ℤ} {k : ℕ}

/-- The id and the times that the fetch of a cached item has. -/
theorem timesOf_storeAll (h : Cached w.redis id) (htimes : CachedTimes w.redis id E U X) :
    timesOf (storeAll (timeStores (w.redis.hashes (.bidItem id))) BidItem.new) =
      (some id, some (ofSecond E), some (ofSecond U), some X) := by
  simp only [timeStores, h.bidItemId, htimes.bidEndTime, htimes.lastUpDateTime,
    htimes.timeExtAfterBid]
  rfl

/-- Before the end time is read, the item has the end time of a new one. -/
theorem noEnd_of_lt (hash : Attr → Option Text) (hk : k < 9) :
    (storeAll ((timeStores hash).take k) BidItem.new).bidEndTime = none ∧
      (storeAll ((timeStores hash).take k) BidItem.new).timeLeft = 0 := by
  interval_cases k <;> exact ⟨rfl, rfl⟩

/-- Between the end time and the last update. -/
theorem noUpdate_of_lt (htimes : CachedTimes w.redis id E U X) (hk : 9 ≤ k) (hk' : k < 14) :
    (storeAll ((timeStores (w.redis.hashes (.bidItem id))).take k) BidItem.new).bidEndTime =
        some (ofSecond E) ∧
      (storeAll ((timeStores (w.redis.hashes (.bidItem id))).take k)
        BidItem.new).lastUpDateTime = none := by
  simp only [timeStores, htimes.bidEndTime]
  interval_cases k <;> exact ⟨rfl, rfl⟩

/-- The id is the first field. -/
theorem hasId_of_pos (h : Cached w.redis id) (hk : 0 < k) (hk' : k < 14) :
    (storeAll ((timeStores (w.redis.hashes (.bidItem id))).take k) BidItem.new).bidItemId =
      some id := by
  simp only [timeStores, h.bidItemId]
  interval_cases k <;> rfl

/-- The rest of a tick after the fetch of the item on sale. -/
def tested (id : ℤ) : Option BidItem → Act ℤ
  | none => pure 0
  | some bidItem => do
    let timeLeft ← getTimeLeft bidItem
    if timeLeft > 0 then do
      let _ ← getTimeLeft bidItem
      getTimeLeft bidItem
    else
      handOver id

theorem nextOfSequence_eq : nextOfSequence =
    getActiveBidItemId >>= fun id => RedisCacheService.getBidItem id >>= tested id := rfl

variable {item : BidItem}

/-- An item without an end time counts as expired. -/
theorem run_tested_noEnd (hend : item.bidEndTime = none) (hleft : item.timeLeft = 0) :
    run (handle env) (tested id (some item)) w = run (handle env) (handOver id) w := by
  have hget : run (handle env) (getTimeLeft item) w = (.ok 0, w) := by
    simp only [getTimeLeft, hend, hleft, run_pure]
  exact run_bind_ok hget

/-- An item with an end time and without a last update is an exception. -/
theorem run_tested_noUpdate {d : Date} (hend : item.bidEndTime = some d)
    (hupdate : item.lastUpDateTime = none) :
    run (handle env) (tested id (some item)) w = (.error .nullPointer, w) := by
  have hget : run (handle env) (getTimeLeft item) w = (.error .nullPointer, w) := by
    simp only [getTimeLeft, hend, hupdate, run_throw]
  exact run_bind_error hget

variable (hitem : (timesOf item).2 = (some (ofSecond E), some (ofSecond U), some X))

include hitem

theorem run_getTimeLeft_timesOf (n : ℕ) :
    run (handle env) (getTimeLeft item) { w with reads := n } =
      (.ok (countdown E U X (env.second n)), { w with reads := n + 1 }) := by
  simp only [timesOf, Prod.mk.injEq] at hitem
  exact run_getTimeLeft env { w with reads := n } hitem.1 hitem.2.1 hitem.2.2

/-- The test of the time left. -/
theorem run_tested :
    run (handle env) (tested id (some item)) w =
      if 0 < countdown E U X (env.second w.reads) then
        (.ok (countdown E U X (env.second (w.reads + 2))), { w with reads := w.reads + 3 })
      else run (handle env) (handOver id) { w with reads := w.reads + 1 } := by
  have htime := run_getTimeLeft_timesOf env (w := w) hitem
  refine (run_bind_ok (htime w.reads)).trans ?_
  split
  · exact (run_bind_ok (htime _)).trans (htime _)
  · rfl

theorem commands_getTimeLeft (w : World) : commands env (getTimeLeft item) w = 0 := by
  simp only [timesOf, Prod.mk.injEq] at hitem
  unfold getTimeLeft
  rw [hitem.1, hitem.2.1]
  rfl

/-- The test of the time left sends no command. -/
theorem fault_tested (k : ℕ) :
    fault env (tested id (some item)) k w =
      if 0 < countdown E U X (env.second w.reads) then
        (.ok (countdown E U X (env.second (w.reads + 2))), { w with reads := w.reads + 3 })
      else fault env (handOver id) k { w with reads := w.reads + 1 } := by
  have htime := run_getTimeLeft_timesOf env (w := w) hitem
  have hnone := commands_getTimeLeft env hitem
  refine (fault_bind_zero (hnone w) (htime w.reads)).trans ?_
  split
  · refine (fault_bind_zero (hnone _) (htime _)).trans ?_
    -- there is no command that could fail
    have hlast : fault env (getTimeLeft item) k { w with reads := w.reads + 2 } =
        run (handle env) (getTimeLeft item) { w with reads := w.reads + 2 } :=
      withFault_of_le (Nat.le_trans (Nat.le_of_eq (hnone _)) (Nat.zero_le k))
    exact hlast.trans (htime _)
  · rfl

end Fetch

/-! ## Closing -/

/-- What closing an item does to the world, completely or not. -/
structure Cleaned (id : ℤ) (w t : World) : Prop where
  same : ∀ k, k ≠ .expiredBidItems → k ≠ .bidItem id → Store.SameAt k t.redis w.redis
  expired : ∀ x ∈ t.redis.sets .expiredBidItems, x = .long id ∨ x ∈ w.redis.sets .expiredBidItems
  loadable : ∀ id', CommonDao.Loadable w.db id' → CommonDao.Loadable t.db id'
  reads : w.reads ≤ t.reads

section Clean

variable (env : Env) {id : ℤ} {w : World} {row : BidItem} {k : ℕ}

/-- The store after the first commands of `setExpiredBidItem`: the item stays in the cache. -/
structure HalfExpired (id : ℤ) (r r' : Redis) : Prop where
  cached : Cached r' id
  same : ∀ k, k ≠ .expiredBidItems → k ≠ .bidItem id → Store.SameAt k r' r
  expired : ∀ x ∈ r'.sets .expiredBidItems, x = .long id ∨ x ∈ r.sets .expiredBidItems

theorem mem_sadd_expired {r : Redis} {x : Text}
    (h : x ∈ (r.sadd .expiredBidItems (.long id)).sets .expiredBidItems) :
    x = .long id ∨ x ∈ r.sets .expiredBidItems := by
  rw [Store.sets_sadd] at h
  exact List.mem_insert_iff.mp h

theorem halfExpired_sadd (h : Cached w.redis id) :
    HalfExpired id w.redis (w.redis.sadd .expiredBidItems (.long id)) where
  cached := h.of_sameAt (w.redis.sameAt_sadd (by simp) _) (fun _ ht => ht)
  same _ hk _ := Store.sameAt_sadd _ hk _
  expired _ := mem_sadd_expired

theorem halfExpired_status (h : Cached w.redis id) :
    HalfExpired id w.redis ((w.redis.sadd .expiredBidItems (.long id)).hset (.bidItem id)
      .statusCode (.str "CLOSED")) where
  cached := (halfExpired_sadd h).cached.hset (by decide) (by decide) (fits_statusCode _) (by simp)
  same _ hk hi := (Store.sameAt_hset _ hi _ _).trans (Store.sameAt_sadd _ hk _)
  expired _ := mem_sadd_expired

theorem halfExpired_expire (h : Cached w.redis id) (d : Date) :
    HalfExpired id w.redis (expire w.redis id d) where
  cached := h.expire d
  same _ hk hi := sameAt_expire hk hi d
  expired _ := mem_sadd_expired

/-- Whichever of its commands fails, `setExpiredBidItem` keeps the item in the cache. -/
theorem fault_setExpiredBidItem (h : Cached w.redis id) (hk : k < 4) :
    ∃ r n, fault env (setExpiredBidItem id) k w =
      (.ok (), { w with redis := r, reads := w.reads + n }) ∧ HalfExpired id w.redis r := by
  have hnothing : HalfExpired id w.redis w.redis :=
    ⟨h, fun _ _ _ => Store.SameAt.refl _ _, fun _ hx => .inr hx⟩
  obtain rfl | rfl | rfl | rfl : k = 0 ∨ k = 1 ∨ k = 2 ∨ k = 3 := by omega
  · exact ⟨w.redis, 0, rfl, hnothing⟩
  · exact ⟨w.redis, 0, rfl, hnothing⟩
  · exact ⟨_, 0, rfl, halfExpired_sadd h⟩
  · exact ⟨_, 1, rfl, halfExpired_status h⟩

/-- The row of an item that was found again is closed. -/
theorem run_updateBidItem {item : BidItem} (hid : item.bidItemId = some id)
    (hrow : w.db.bidItems id = some row) {r : Redis} {n : ℕ} (hr : HalfExpired id w.redis r)
    (hn : w.reads ≤ n) :
    ∃ t, run (handle env) (Dao.updateBidItem (some item)) { w with redis := r, reads := n } =
      (.ok (), t) ∧ Cleaned id w t := by
  refine ⟨{ w with
    redis := r
    db := CommonDao.setRow w.db id (CommonDao.closedRow row item)
    reads := n }, ?_, hr.same, hr.expired, fun id' hload => ?_, hn⟩
  · rw [run_updateBidItem_dao, CommonDao.updateBidItem_ok hid hrow]
  · exact hload.of_terms (CommonDao.map_terms_setRow (CommonDao.closedRow row item) hrow rfl id')
      rfl

/-- An item that was not found again, or without its id, is an exception. -/
theorem run_updateBidItem_lost {found : Option BidItem}
    (h : ∀ item, found = some item → item.bidItemId = none) :
    run (handle env) (Dao.updateBidItem found) w = (.error .nullPointer, w) := by
  rw [run_updateBidItem_dao]
  cases found with
  | none => rfl
  | some item => simp only [CommonDao.updateBidItem, h item rfl]

/-- The fetch of `cleanBidItem` finds the id, unless the connection, the look-up or the id
    itself fails. -/
theorem fault_getBidItem_id (h : Cached w.redis id) (hk : 4 ≤ k) :
    ∃ item n, fault env (RedisCacheService.getBidItem id) k w =
      (.ok (some item), { w with reads := w.reads + n }) ∧ item.bidItemId = some id := by
  -- a fault in the fields comes after the id, and one in the bidders after all fields
  rcases Nat.lt_or_ge k 17 with hlt | hge
  · obtain ⟨j, rfl⟩ := Nat.exists_eq_add_of_le' (show 3 ≤ k by omega)
    exact ⟨_, 0, fault_getBidItem_field env h.member h.readable (by omega),
      hasId_of_pos h (by omega) (by omega)⟩
  · obtain ⟨j, rfl⟩ := Nat.exists_eq_add_of_le' hge
    obtain ⟨item, n, hget, hitem⟩ := fault_getBidItem_late env h.member h.readable j
    obtain ⟨E, U, X, htimes⟩ := h.times
    rw [timesOf_storeAll h htimes] at hitem
    exact ⟨item, n, hget, congrArg Prod.fst hitem⟩

/-- The fetch of `cleanBidItem` finds no id if one of its first four commands fails. -/
theorem fault_getBidItem_lost (h : Cached w.redis id) (hk : k < 4) :
    ∃ found, fault env (RedisCacheService.getBidItem id) k w = (.ok found, w) ∧
      ∀ item, found = some item → item.bidItemId = none := by
  obtain rfl | rfl | rfl | rfl : k = 0 ∨ k = 1 ∨ k = 2 ∨ k = 3 := by omega
  · -- without a connection a new item is returned
    exact ⟨_, fault_getBidItem_connect env w id, fun _ hitem => by cases hitem; rfl⟩
  · exact ⟨none, fault_getBidItem_exists env w id (by omega), fun _ hitem => by cases hitem⟩
  · exact ⟨none, fault_getBidItem_exists env w id (by omega), fun _ hitem => by cases hitem⟩
  · exact ⟨_, fault_getBidItem_field env h.member h.readable (by omega),
      fun _ hitem => by cases hitem; rfl⟩

/-- The world in which `cleanBidItem` fetches the item again. -/
def expiredWorld (env : Env) (id : ℤ) (w : World) : World :=
  { w with redis := expire w.redis id (env.clock w.reads), reads := w.reads + 1 }

/-- The mark takes four commands, and the fetch follows. -/
theorem commands_cleanBidItem (id : ℤ) (w : World) :
    commands env (cleanBidItem id) w =
      commands env (RedisCacheService.getBidItem id) (expiredWorld env id w) + 4 := by
  have hexpired : run (handle env) (setExpiredBidItem id) w = (.ok (), expiredWorld env id w) :=
    run_setExpiredBidItem env w id
  obtain ⟨item, n, hget⟩ := RedisCacheService.run_getBidItem env (expiredWorld env id w) id
  unfold cleanBidItem
  rw [commands_bind hexpired, commands_bind hget, Nat.add_comm]
  rfl

/-- Closing an item fails if the item is not found again, or without its id. -/
theorem fault_cleanBidItem (h : Cached w.redis id) (hrow : w.db.bidItems id = some row)
    (hk : k < commands env (cleanBidItem id) w) :
    ∃ t, Cleaned id w t ∧ fault env (cleanBidItem id) k w =
      (if 4 ≤ k ∧ k < 8 then .error .nullPointer else .ok (), t) := by
  have hexpire := halfExpired_expire h (env.clock w.reads)
  rcases Nat.lt_or_ge k 4 with hlt | hge
  · -- the item is not marked, but found again
    rw [if_neg (by omega)]
    obtain ⟨r, n, hfault, hr⟩ := fault_setExpiredBidItem env h hlt
    obtain ⟨bidders, hget⟩ := run_getBidItem_of_readable env
      { w with redis := r, reads := w.reads + n } id hr.cached.member hr.cached.readable
    have hitem : ({ cachedItem r id with currentBiddersList := bidders } : BidItem).bidItemId =
        some id := cachedItem_bidItemId hr.cached.bidItemId
    obtain ⟨t, hupdate, hcleaned⟩ := run_updateBidItem env hitem hrow hr
      (Nat.le_trans (Nat.le_add_right w.reads n) (Nat.le_add_right _ _))
    exact ⟨t, hcleaned, (fault_bind_lt rfl hlt hfault).trans ((run_bind_ok hget).trans hupdate)⟩
  · obtain ⟨j, rfl⟩ := Nat.exists_eq_add_of_le' hge
    rw [commands_cleanBidItem] at hk
    have hj : j < commands env (RedisCacheService.getBidItem id) (expiredWorld env id w) := by
      omega
    have hrest : fault env (cleanBidItem id) (j + 4) w =
        fault env (RedisCacheService.getBidItem id >>= Dao.updateBidItem) j
          (expiredWorld env id w) :=
      fault_bind_add rfl (run_setExpiredBidItem env w id)
    rw [hrest]
    -- the update of the row needs the id of the item that was found
    rcases Nat.lt_or_ge j 4 with hlt | hge'
    · rw [if_pos (by omega)]
      obtain ⟨found, hget, hlost⟩ := fault_getBidItem_lost env
        (w := expiredWorld env id w) hexpire.cached hlt
      refine ⟨expiredWorld env id w, ⟨hexpire.same, hexpire.expired, fun _ hload => hload,
        Nat.le_succ _⟩, ?_⟩
      exact (fault_bind_lt rfl hj hget).trans (run_updateBidItem_lost env hlost)
    · rw [if_neg (by omega)]
      obtain ⟨item, n, hget, hid⟩ := fault_getBidItem_id env
        (w := expiredWorld env id w) hexpire.cached hge'
      obtain ⟨t, hupdate, hcleaned⟩ := run_updateBidItem env (n := w.reads + 1 + n) hid hrow
        hexpire (by omega)
      exact ⟨t, hcleaned, (fault_bind_lt rfl hj hget).trans hupdate⟩

/-- Without a fault the item is closed. -/
theorem cleaned_run (h : Cached w.redis id) (hrow : w.db.bidItems id = some row) :
    ∃ t, run (handle env) (cleanBidItem id) w = (.ok (), t) ∧ Cleaned id w t := by
  obtain ⟨n, hrun⟩ := run_cleanBidItem env w h.member h.readable h.bidItemId hrow
  have hexpire := halfExpired_expire h (env.clock w.reads)
  refine ⟨_, hrun, hexpire.same, hexpire.expired, fun id' hload => ?_, ?_⟩
  · exact hload.of_terms (CommonDao.map_terms_setRow (CommonDao.closedRow row _) hrow rfl id') rfl
  · show w.reads ≤ w.reads + 1 + n
    omega

end Clean

/-! ## Opening -/

/-- A lot that can go on sale. -/
structure Openable (lot : BidSequence) (w : World) : Prop where
  ne_zero : lot.bidItemId ≠ 0
  fresh : Uncached w.redis lot.bidItemId
  loadable : CommonDao.Loadable w.db lot.bidItemId
  inSequence : InSequence w.redis lot.bidItemId lot.bidspan lot.sequenceId

/-- The footprint of an opening: the queue, the active id and the expired items are left
    alone. -/
def openingKeys : Footprint where
  keys k := k ≠ .bidItemSequenceIds ∧ k ≠ .activeBidItemId ∧ k ≠ .expiredBidItems
  dao
    | .getBidItem _ => True
    | c => c.IsQuery
  fields := FieldCall.IsRead

theorem openingKeys_of_itemKey (id : ℤ) (k : Key) (h : ItemKey id k) : openingKeys.keys k :=
  ⟨by rintro rfl; exact h, by rintro rfl; exact h, by rintro rfl; exact h⟩

/-- The queue, the active id and the expired items are the same. -/
structure SaleKept (w t : World) : Prop where
  queue : t.redis.lists .bidItemSequenceIds = w.redis.lists .bidItemSequenceIds
  active : t.redis.strings .activeBidItemId = w.redis.strings .activeBidItemId
  expired : t.redis.sets .expiredBidItems = w.redis.sets .expiredBidItems
  reads : w.reads ≤ t.reads

section Opening

variable (env : Env) {w : World} {lot : BidSequence} {k : ℕ}

/-- Opening an item leaves the queue, the active id and the expired items alone, even if it fails.
    -/
theorem Within.fault_saleKept {α : Type} {p : Act α} (hp : Within openingKeys p) (k : ℕ)
    (w : World) : SaleKept w (fault env p k w).2 where
  queue := (hp.fault_sameAt .bidItemSequenceIds fun h => h.1 rfl).lists
  active := (hp.fault_sameAt .activeBidItemId fun h => h.2.1 rfl).strings
  expired := (hp.fault_sameAt .expiredBidItems fun h => h.2.2 rfl).sets
  reads := reads_le_fault env p k w

/-- Storing an item returns, whatever fails. -/
theorem returns_setBidItem {item : BidItem} {id : ℤ} (hid : item.bidItemId = some id) :
    Returns (fun _ => True) (BidItemsCacheService.setBidItem item) := by
  have hunbox : Returns (fun _ => True) (unbox item.bidItemId) := by
    rw [hid]
    exact ⟨id, rfl, trivial⟩
  apply returns_bind hunbox
  intro id _
  apply returns_bind (P := fun _ => True) (returns_guarded trivial (yields_true _))
  intro _ _
  apply returns_bind (P := fun _ => True) (returns_guarded trivial (yields_true _))
  exact fun _ _ => returns_pure trivial

/-- The place of the lot in the sequence cannot be read: the loaded item is not opened. -/
theorem fault_initializeBidItem {item : BidItem} {id : ℤ} (hid : item.bidItemId = some id)
    (hk : k < 2) : fault env (initializeBidItem item) k w =
      (.error .nullPointer, { w with reads := w.reads + 1 }) := by
  unfold initializeBidItem unbox
  rw [hid]
  refine (fault_bind_zero rfl (run_now env w)).trans ?_
  refine (fault_bind_zero rfl rfl).trans ?_
  obtain rfl | rfl : k = 0 ∨ k = 1 := by omega
  · rfl
  · rfl

/-- Setting the times takes two commands, those that read the place in the sequence. -/
theorem commands_initializeBidItem {item : BidItem} {id span seqId : ℤ}
    (hid : item.bidItemId = some id) (hseq : InSequence w.redis id span seqId) :
    commands env (initializeBidItem item) w = 2 := by
  have hdetails := run_getBidItemSequenceDetails env { w with reads := w.reads + 1 } id
  unfold initializeBidItem unbox
  rw [hid, commands_bind (run_now env w), commands_bind (run_ofExcept _ _ _),
    commands_bind hdetails]
  dsimp only
  rw [hseq.bidSpan, hseq.sequenceId]
  rfl

/-- The next lot is loaded with its span if its place in the sequence can be read, whether or
    not it can be stored. -/
theorem fault_loadBidItem (h : Openable lot w) (k : ℕ) :
    ∃ item, item.bidSpan = lot.bidspan ∧ (fault env (loadBidItem lot.bidItemId) k w).1 =
      if k < 2 then .error .nullPointer else .ok item := by
  obtain ⟨⟨loaded, db⟩, hout⟩ := h.loadable (env.times w)
  obtain ⟨row, hloaded⟩ := CommonDao.getBidItem_loaded hout
  let read : World :=
    { w with db := db, reads := w.reads + CommonDao.clockReads w.db lot.bidItemId }
  have hdao : run (handle env) (Dao.getBidItem lot.bidItemId) w = (.ok loaded, read) := by
    rw [run_getBidItem_dao, hout]
  have hseq : InSequence read.redis lot.bidItemId lot.bidspan lot.sequenceId := h.inSequence
  have hinit := run_initializeBidItem env read hloaded.bidItemId hseq
  have htwo := commands_initializeBidItem env hloaded.bidItemId hseq
  let opened := openedItem loaded (env.clock read.reads) lot.bidspan lot.sequenceId
  have hload : fault env (loadBidItem lot.bidItemId) k w =
      fault env (initializeBidItem loaded >>= fun item =>
        BidItemsCacheService.setBidItem item >>= fun _ => pure item) k read :=
    fault_bind_zero rfl hdao
  refine ⟨opened, rfl, ?_⟩
  rw [hload]
  -- the place in the sequence is read before the item is stored
  rcases Nat.lt_or_ge k 2 with hk | hk
  · rw [if_pos hk, fault_bind_lt_error htwo hk (fault_initializeBidItem env hloaded.bidItemId hk)]
  · rw [if_neg (not_lt.mpr hk)]
    obtain ⟨j, rfl⟩ := Nat.exists_eq_add_of_le' hk
    have hid : opened.bidItemId = some lot.bidItemId := hloaded.bidItemId
    obtain ⟨_, t, hset, -⟩ := fault_returns (returns_setBidItem hid) env j
      { read with reads := read.reads + 1 }
    rw [fault_bind_add htwo hinit, fault_map, hset]
    rfl

/-- The next lot is fetched unless the connection or its place in the sequence fails; without a
    connection an empty item is found. -/
theorem fault_getBidItem_service (h : Openable lot w) (k : ℕ) :
    ∃ item, item.bidSpan = lot.bidspan ∧
      (fault env (BidItemsCacheService.getBidItem lot.bidItemId) k w).1 =
        if k = 0 then .ok (some BidItem.new)
        else if k = 3 ∨ k = 4 then .error .nullPointer else .ok (some item) := by
  have hthree := commands_getBidItem_absent env h.fresh.absent
  rcases Nat.lt_or_ge k 3 with hk | hk
  · obtain ⟨item, r, db, n, t, hrun, hspan, -⟩ :=
      run_getBidItem_open env w h.fresh h.ne_zero h.loadable h.inSequence
    refine ⟨item, hspan, ?_⟩
    cases k with
    | zero => exact congrArg Prod.fst (fault_bind_lt hthree hk (fault_getBidItem_connect env w _))
    | succ k =>
      -- the cache does not have the lot, and says so
      rw [if_neg (by omega), if_neg (by omega)]
      have hmiss : fault env (BidItemsCacheService.getBidItem lot.bidItemId) (k + 1) w =
          run (handle env) (BidItemsCacheService.getBidItem lot.bidItemId) w := by
        unfold BidItemsCacheService.getBidItem
        rw [run_bind_ok (run_getBidItem_absent env w h.fresh.absent),
          fault_bind_lt hthree hk (fault_getBidItem_exists env w _ (by omega))]
      rw [hmiss, hrun]
  · obtain ⟨j, rfl⟩ := Nat.exists_eq_add_of_le' hk
    obtain ⟨item, hspan, hload⟩ := fault_loadBidItem env h j
    refine ⟨item, hspan, ?_⟩
    -- the look-up is over, and the fault is in the load
    have hrest : fault env (BidItemsCacheService.getBidItem lot.bidItemId) (j + 3) w =
        fault env (loadBidItem lot.bidItemId >>= fun item => pure (some item)) j w := by
      refine (fault_bind_add hthree (run_getBidItem_absent env w h.fresh.absent)).trans ?_
      simp only [h.ne_zero, if_false]
    rw [hrest, fault_map, hload, if_neg (Nat.succ_ne_zero _)]
    by_cases hj : j < 2
    · rw [if_pos hj, if_pos (by omega)]
      rfl
    · rw [if_neg hj, if_neg (by omega)]
      rfl

/-- What a tick answers for the next item: its span. -/
def spanResult (missing : Except Exn ℤ) : Option BidItem → Except Exn ℤ
  | some bidItem => .ok bidItem.bidSpan
  | none => missing

/-- The end of a tick that has popped the queue. -/
def openNext (missing : Except Exn ℤ) : Act ℤ := do
  let nextBidItemId ← getActiveBidItemId
  let bidItem ← BidItemsCacheService.getBidItem nextBidItemId
  ofExcept (spanResult missing bidItem)

/-- The first tick pops and opens. -/
theorem startOfSequence_eq : startOfSequence = (do
    Field.setStartFlag false
    setActiveBidItemId
    openNext (.error .nullPointer)) := by
  unfold startOfSequence openNext
  congr
  funext _
  congr
  funext _
  congr
  funext id
  congr
  funext found
  cases found <;> rfl

/-- A hand-over pops, closes and opens. -/
theorem handOver_eq (id : ℤ) : handOver id = (do
    setActiveBidItemId
    cleanBidItem id
    openNext (.ok 0)) := by
  unfold handOver openNext
  congr
  funext _
  congr
  funext _
  congr
  funext id
  congr
  funext found
  cases found <;> rfl

theorem within_openNext (missing : Except Exn ℤ) : Within openingKeys (openNext missing) :=
  issues_bind within_getActiveBidItemId fun _ =>
    issues_bind (within_getBidItem_service trivial openingKeys_of_itemKey) fun _ =>
      issues_ofExcept _

/-- The active id cannot be read: there is no item `0`. -/
theorem fault_openNext_read {missing : Except Exn ℤ} (hzero : .long 0 ∉ w.redis.sets .bidItems)
    (hk : k < 2) : fault env (openNext missing) k w = (missing, w) := by
  refine (fault_bind_lt (commands_getActiveBidItemId env w) hk
    (fault_getActiveBidItemId env w hk)).trans ?_
  exact run_bind_ok (run_getBidItem_zero env w hzero)

/-- The active item is in the cache: its cached span is answered. -/
theorem run_openNext_cached (missing : Except Exn ℤ) {id span : ℤ} (h : Cached w.redis id)
    (hactive : w.redis.strings .activeBidItemId = some (.long id))
    (hspan : w.redis.hashes (.bidItem id) .bidSpan = some (.long span)) :
    ∃ n, run (handle env) (openNext missing) w = (.ok span, { w with reads := w.reads + n }) := by
  obtain ⟨bidders, hget⟩ := run_getBidItem_of_readable env w id h.member h.readable
  have hid : activeId w.redis = id := by simp [activeId, hactive]
  have hcached : (cachedItem w.redis id).bidSpan = span := by
    simp only [cachedItem, hspan]
    rfl
  refine ⟨bidderCount w.redis ((cachedItem w.redis id).bidItemId.getD 0),
    (run_bind_ok (run_getActiveBidItemId env w)).trans ?_⟩
  rw [hid]
  -- the item is cached, so it is not initialized again
  refine (run_bind_ok (run_bind_ok hget)).trans ?_
  rw [← hcached]
  rfl

/-- The next lot is opened unless the connection or its place in the sequence fails. -/
theorem fault_openNext (missing : Except Exn ℤ) (h : Openable lot w)
    (hactive : activeId w.redis = lot.bidItemId) (k : ℕ) :
    let r := (fault env (openNext missing) (k + 2) w).1
    if k = 0 ∨ k = 3 ∨ k = 4 then resultOutcome r = .cancel else r = .ok lot.bidspan := by
  obtain ⟨item, hspan, hget⟩ := fault_getBidItem_service env h k
  have hrest : fault env (openNext missing) (k + 2) w =
      fault env (BidItemsCacheService.getBidItem lot.bidItemId >>= fun found =>
        ofExcept (spanResult missing found)) k w := by
    rw [← hactive]
    exact fault_bind_add (commands_getActiveBidItemId env w) (run_getActiveBidItemId env w)
  dsimp only
  rw [hrest, fault_ofExcept, hget]
  -- without a connection the span is that of a new item, `0`
  by_cases hk : k = 0
  · rw [if_pos hk, if_pos (.inl hk)]
    rfl
  · by_cases hk' : k = 3 ∨ k = 4
    · rw [if_neg hk, if_pos hk', if_pos (.inr hk')]
      rfl
    · rw [if_neg hk, if_neg hk', if_neg (by omega), ← hspan]
      rfl

end Opening

end Bidding.Model
