import Bidding.Sale.Activities

/-!
# Does the Table Agree with the Cache on a Closed Lot?

A lot is sold in the cache, and its row is written when the lot is closed. The reports read the
rows, the pages read the cache. Whatever follows, the row of a closed lot says that it has ended,
and it has the times and the price that the cache has of it.

Nothing may fail here: a read of the cache that fails is taken for a missing item, and then the
row is loaded and written again.

## Key Results

- **`serving_leavesRow`**: what fetching an item does to the row of a lot in the cache.
- **`files_tick`**: a tick closes at most one lot, and files it.
- **`coherent_of_spares`**: along every run the rows of closed lots agree with the cache.
-/

namespace Bidding.Model

open Bidding.Effects Bidding.Effects.Action Bidding.KeyValue
open RedisCacheService BidItemsCacheService

/-! ## Rows that agree -/

/-- What the row of a closed lot has in common with the cache. -/
structure RowAgrees (row item : BidItem) : Prop where
  statusCode : row.statusCode = some "END"
  bidStartTime : row.bidStartTime = item.bidStartTime
  bidEndTime : row.bidEndTime = item.bidEndTime
  lastUpDateTime : row.lastUpDateTime = item.lastUpDateTime
  currentMarketPrice : row.currentMarketPrice = item.currentMarketPrice

/-- The row of the lot agrees with the item in the cache. -/
def Filed (x : ℤ) (w : World) : Prop :=
  ∃ row, w.db.bidItems x = some row ∧ RowAgrees row (cachedItem w.redis x)

/-- A lot that is closed is filed. -/
def Coherent (x : ℤ) (w : World) : Prop :=
  .long x ∈ w.redis.sets .expiredBidItems → Filed x w

theorem rowAgrees_closedRow (row item : BidItem) : RowAgrees (CommonDao.closedRow row item) item :=
  ⟨rfl, rfl, rfl, rfl, rfl⟩

/-- The times and the price are read from the hash of the item. -/
theorem RowAgrees.congr {row : BidItem} {r r' : Redis} {x : ℤ} (h : RowAgrees row (cachedItem r x))
    (hsame : r'.hashes (.bidItem x) = r.hashes (.bidItem x)) : RowAgrees row (cachedItem r' x) := by
  have htimes : (cachedItem r' x).bidStartTime = (cachedItem r x).bidStartTime ∧
      (cachedItem r' x).bidEndTime = (cachedItem r x).bidEndTime ∧
      (cachedItem r' x).lastUpDateTime = (cachedItem r x).lastUpDateTime ∧
      (cachedItem r' x).currentMarketPrice = (cachedItem r x).currentMarketPrice := by
    simp only [cachedItem, hsame, and_self]
  obtain ⟨hstart, hend, hupdate, hprice⟩ := htimes
  exact ⟨h.statusCode, h.bidStartTime.trans hstart.symm, h.bidEndTime.trans hend.symm,
    h.lastUpDateTime.trans hupdate.symm, h.currentMarketPrice.trans hprice.symm⟩

theorem Filed.congr {x : ℤ} {w w' : World} (h : Filed x w)
    (hrow : w'.db.bidItems x = w.db.bidItems x)
    (hsame : w'.redis.hashes (.bidItem x) = w.redis.hashes (.bidItem x)) : Filed x w' := by
  obtain ⟨row, hrow', hagrees⟩ := h
  exact ⟨row, hrow.trans hrow', hagrees.congr hsame⟩

/-! ## Activities that close no lot -/

/-- No lot is closed, and the row of a lot in the cache is not touched. -/
structure LeavesRow (x : ℤ) (w w' : World) : Prop where
  expired : w'.redis.sets .expiredBidItems = w.redis.sets .expiredBidItems
  kept : .long x ∈ w.redis.sets .bidItems → .long x ∈ w'.redis.sets .bidItems
  row : .long x ∈ w.redis.sets .bidItems → w'.db.bidItems x = w.db.bidItems x

instance (x : ℤ) : IsPreorder World (LeavesRow x) where
  refl _ := ⟨rfl, id, fun _ => rfl⟩
  trans _ _ _ h h' := ⟨h'.expired.trans h.expired, fun hx => h'.kept (h.kept hx),
    fun hx => (h'.row (h.kept hx)).trans (h.row hx)⟩

section Fetching

variable {env : Env} {x : ℤ}

theorem LeavesRow.of_redis {w w' : World} (hredis : w'.redis = w.redis)
    (hrow : w'.db.bidItems x = w.db.bidItems x) : LeavesRow x w w' :=
  ⟨by rw [hredis], fun hx => hredis ▸ hx, fun _ => hrow⟩

/-- A plain command leaves the rows of cached items alone. -/
theorem leavesRow_plain (hengine : EngineKeeps env) {c : Cmd} (hc : Plain c) (w : World) :
    LeavesRow x w (handle env c w).2 := by
  cases c with
  | redis c =>
    cases c with
    | sadd k v =>
      -- a plain addition is not to the closed items, but it may be to the cached ones
      have hexpired := (Store.sameAt_sadd w.redis (Ne.symm hc) v).sets
      refine ⟨hexpired, fun hx => ?_, fun _ => rfl⟩
      show .long x ∈ (w.redis.sadd k v).sets .bidItems
      by_cases hk : k = .bidItems
      · rw [hk, Store.sets_sadd]
        exact List.mem_insert_of_mem hx
      · rw [(Store.sameAt_sadd w.redis (Ne.symm hk) v).sets]
        exact hx
    | hsetnx k f v =>
      have hsets := Store.sets_hsetnx w.redis k f v
      exact ⟨congrFun hsets _, fun hx => (congrFun hsets .bidItems).symm ▸ hx, fun _ => rfl⟩
    | set k v => exact absurd hc id
    | lpush k v => exact absurd hc id
    | rpop k => exact absurd hc id
    | flushAll => exact absurd hc id
    | _ => exact ⟨rfl, id, fun _ => rfl⟩
  | dao c =>
    cases c with
    | setAuctionEndTime id d => exact ⟨rfl, fun hx => hx, fun _ => rfl⟩
    | _ => exact absurd hc id
  | field c => cases c <;> exact ⟨rfl, id, fun _ => rfl⟩
  -- the engine keeps to the keys of its bids
  | engineBid bid =>
    have hsame := hengine w.auctioneer bid (env.times w 0) w.redis
    exact ⟨(hsame .expiredBidItems id).sets, fun hx => (hsame .bidItems id).sets.symm ▸ hx,
      fun _ => rfl⟩
  | _ => exact ⟨rfl, id, fun _ => rfl⟩

theorem plainly_leavesRow (hengine : EngineKeeps env) :
    Plainly (fun _ p => Moves (handle env) (LeavesRow x) p) :=
  plainly_moves (fun _ => leavesRow_plain hengine) fun _ _ h => ⟨h.expired, h.kept, fun _ => rfl⟩

/-- What is done with an item after a load: nothing to the cache, and nothing to other rows. -/
def OnlyRow (env : Env) {α : Type} (id : ℤ) (g : BidItem → Act α) : Prop :=
  ∀ item w, item.bidItemId = some id → (run (handle env) (g item) w).2.redis = w.redis ∧
    OneRow id w.db (run (handle env) (g item) w).2.db

/-- An item that is loaded is not in the cache, so it is another one. -/
theorem leavesRow_miss {α : Type} {g : BidItem → Act α} {w : World} {id : ℤ} (hid : id ≠ 0)
    (hout : .long id ∉ w.redis.sets .bidItems) (hg : OnlyRow env id g) :
    LeavesRow x w (run (handle env) (loadBidItem id >>= g) w).2 := by
  have hother (hx : .long x ∈ w.redis.sets .bidItems) : x ≠ id := fun heq => hout (heq ▸ hx)
  rcases run_loadBidItem_any env w id with
    ⟨e, db, n, -, hrow, hload⟩ | ⟨item, t, r, db, n, -, -, hrow, hloaded, hload⟩
  · rw [run_bind_error hload]
    exact ⟨rfl, fun hx => hx, fun hx => hrow.rows x (hother hx)⟩
  · rw [run_bind_ok hload]
    obtain ⟨hredis, hrest⟩ := hg item { w with redis := r, db := db, reads := n } hloaded.bidItemId
    have hc : ItemChange id w.redis r :=
      (OnlyItem.of_stored hid hloaded.stored hrow n).itemChange
    refine ⟨?_, fun hx => ?_, fun hx => (hrow.trans hrest).rows x (hother hx)⟩
    · rw [hredis]
      exact hc.expired.sets
    · rw [hredis]
      exact hc.kept _ hx

/-- An item that is in the cache is answered from there. -/
theorem leavesRow_present {α : Type} {f : Option BidItem → Act α} {w : World} {id : ℤ}
    (hmem : .long id ∈ w.redis.sets .bidItems)
    (hf : ∀ item w, (run (handle env) (f (some item)) w).2 = w) :
    LeavesRow x w (run (handle env) (RedisCacheService.getBidItem id >>= f) w).2 := by
  obtain ⟨item, n, hget⟩ := run_getBidItem_present env w hmem
  rw [run_bind_ok hget, hf]
  exact LeavesRow.of_redis rfl rfl

/-- Fetching an item writes no row of a cached one. -/
theorem leavesRow_getBidItem (id : ℤ) :
    Moves (handle env) (LeavesRow x) (BidItemsCacheService.getBidItem id) := by
  intro w
  by_cases hmem : .long id ∈ w.redis.sets .bidItems
  · exact leavesRow_present hmem fun _ _ => rfl
  · -- the id `0` is not loaded
    by_cases hid : id = 0
    · subst hid
      rw [run_getBidItem_zero env w hmem]
      exact refl_of (LeavesRow x) w
    · rw [run_getBidItem_miss env w hmem hid]
      exact leavesRow_miss hid hmem fun _ w _ => ⟨rfl, OneRow.refl id w.db⟩

/-- Nor does fetching it in a transaction. -/
theorem leavesRow_getBidItemManaged (id : ℤ) :
    Moves (handle env) (LeavesRow x) (getBidItemManaged id) := by
  intro w
  by_cases hmem : .long id ∈ w.redis.sets .bidItems
  · exact leavesRow_present hmem fun _ _ => rfl
  · unfold getBidItemManaged
    rw [run_bind_ok (run_getBidItem_absent env w hmem)]
    by_cases hid : id = 0
    · simp only [hid, if_true]
      exact refl_of (LeavesRow x) w
    · simp only [hid, if_false]
      apply leavesRow_miss hid hmem
      -- the commit writes the row of the item once more
      intro item w hitem
      have hrun : run (handle env) (do Dao.flush item; pure (some item) : Act _) w =
          (.ok (some item), { w with db := CommonDao.flush w.db id item }) := by
        refine run_bind_ok (a := ()) ?_
        show ((.ok _, _) : Except Exn Unit × World) = _
        simp only [handle, handleDao, hitem]
      rw [hrun]
      exact ⟨rfl, fun id' hne => Function.update_of_ne hne .., rfl⟩

theorem serving_leavesRow (hengine : EngineKeeps env) :
    Serving (fun _ p => Moves (handle env) (LeavesRow x) p) where
  toPlainly := plainly_leavesRow hengine
  of_getBidItem := leavesRow_getBidItem
  of_getBidItemManaged := leavesRow_getBidItemManaged

end Fetching

/-! ## Rows stay -/

/-- No row is deleted. -/
def RowStays (x : ℤ) (w w' : World) : Prop :=
  (w.db.bidItems x).isSome → (w'.db.bidItems x).isSome

instance (x : ℤ) : IsPreorder World (RowStays x) where
  refl _ h := h
  trans _ _ _ h h' hw := h' (h hw)

section Rows

variable {env : Env} {x : ℤ}

/-- Writing a row removes none. -/
theorem isSome_update {db : Db} {id : ℤ} (row : BidItem) (h : (db.bidItems x).isSome) :
    (Function.update db.bidItems id (some row) x).isSome := by
  by_cases hx : x = id
  · rw [hx, Function.update_self]
    rfl
  · rw [Function.update_of_ne hx]
    exact h

/-- A routine command removes no row. -/
theorem rowStays_routine {c : Cmd} (hc : Routine c) (w : World) :
    RowStays x w (handle env c w).2 := by
  intro h
  cases c with
  | dao c =>
    cases c with
    -- a load writes the row that it has read
    | getBidItem id =>
      simp only [handle, handleDao]
      split
      · rename_i hload
        obtain ⟨row, hloaded⟩ := CommonDao.getBidItem_loaded hload
        dsimp only
        rw [hloaded.rows]
        exact isSome_update _ h
      · exact h
    | updateBidItem item =>
      simp only [handle, handleDao]
      split
      · rename_i hupdate
        obtain ⟨id, row, rfl⟩ := CommonDao.updateBidItem_eq hupdate
        exact isSome_update row h
      · exact h
    | flush item =>
      simp only [handle, handleDao]
      split
      · exact isSome_update _ h
      · exact h
    | setAuctionEndTime id d => exact h
    | _ => exact absurd hc id
  | field c => cases c <;> exact h
  | _ => exact h

theorem routinely_rowStays :
    Routinely (fun _ p => Moves (failing env) (fun u v => RowStays x u.1 v.1) p) :=
  routinely_moves (fun _ => rowStays_routine) fun _ _ _ h => h

theorem rowStays_cleanBidItem (id : ℤ) : Moves (handle env) (RowStays x) (cleanBidItem id) :=
  MovesUnreliably.moves (routinely_rowStays.of_cleanBidItem id)

theorem rowStays_getBidItem (id : ℤ) :
    Moves (handle env) (RowStays x) (BidItemsCacheService.getBidItem id) :=
  MovesUnreliably.moves (routinely_rowStays.of_getBidItem id)

/-- No activity removes a row. -/
theorem rowStays_serve (a : Activity) : Moves (handle env) (RowStays x) a.serve := by
  -- the pop is not routine, but it writes the cache only
  have hpop : Moves (failing env) (fun u v => RowStays x u.1 v.1) setActiveBidItemId := by
    apply routinely_rowStays.plainly.of_guarded
    have hredis (c : RedisCmd) :
        Moves (failing env) (fun u v => RowStays x u.1 v.1) (redis c) :=
      Issues.moves_unreliable (P := fun c => ∃ c', c = .redis c')
        (by rintro _ ⟨c, rfl⟩ w h; exact h) (issues_perform ⟨c, rfl⟩)
    exact (hredis _).bind fun _ => hredis _
  exact MovesUnreliably.moves (routinely_rowStays.of_serve hpop a)

end Rows

/-! ## Steps -/

/-- A step from a sound world in which the lot has a row: a closed lot stays filed, and a lot that
    is closed is filed. -/
structure Files (env : Env) (x : ℤ) (w w' : World) : Prop where
  progress : Progress env x w w'
  stays : RowStays x w w'
  coherent : Sound env x w → (w.db.bidItems x).isSome → Coherent x w → Coherent x w'

section Steps

variable {env : Env} {x : ℤ} {w w' w'' : World}

theorem Files.trans (h : Files env x w w') (h' : Files env x w' w'') : Files env x w w'' where
  progress := h.progress.trans h'.progress
  stays hrow := h'.stays (h.stays hrow)
  coherent hw hrow hfiled :=
    h'.coherent (h.progress hw).1 (h.stays hrow) (h.coherent hw hrow hfiled)

/-- A step that closes no lot. -/
theorem Files.of_leavesRow (hx : x ≠ 0) (hprogress : Progress env x w w')
    (hleaves : LeavesRow x w w') (hstays : RowStays x w w') : Files env x w w' where
  progress := hprogress
  stays := hstays
  coherent hw _ hfiled hclosed := by
    rw [hleaves.expired] at hclosed
    have hsame := (hprogress hw).2.same hclosed _ (.inl rfl)
    exact (hfiled hclosed).congr (hleaves.row (hw.member hx hclosed)) hsame.hashes

/-- Only the clock and the tables of the auctions change. -/
theorem Files.of_same (hx : x ≠ 0) (hredis : w'.redis = w.redis)
    (hrows : w'.db.bidItems = w.db.bidItems) (hreads : w.reads ≤ w'.reads) : Files env x w w' :=
  Files.of_leavesRow hx (Progress.of_redis_eq hredis hreads)
    (LeavesRow.of_redis hredis (congrFun hrows x)) fun h => by rw [hrows]; exact h

/-- The pop files nothing and closes nothing. -/
theorem Files.pop (hx : x ≠ 0) (hredis : w'.redis = popActive w.redis) (hdb : w'.db = w.db)
    (hreads : w.reads ≤ w'.reads) : Files env x w w' := by
  have hsets {k : Key} (hqueue : k ≠ .bidItemSequenceIds) (hactive : k ≠ .activeBidItemId) :
      w'.redis.sets k = w.redis.sets k := by
    rw [hredis]
    exact (sameAt_popActive w.redis hqueue hactive).sets
  refine Files.of_leavesRow hx (Progress.pop hredis hreads) ⟨hsets (by simp) (by simp), ?_, ?_⟩ ?_
  · rw [hsets (by simp) (by simp)]
    exact fun hmem => hmem
  · exact fun _ => by rw [hdb]
  · exact fun h => by rw [hdb]; exact h

theorem updateBidItem_noRow {db : Db} {item : BidItem} {id : ℤ} (hid : item.bidItemId = some id)
    (hrow : db.bidItems id = none) :
    CommonDao.updateBidItem db (some item) = .error .nullPointer := by
  simp only [CommonDao.updateBidItem, hid, hrow]

/-- Closing an item writes the row of that item, if any. -/
theorem oneRow_cleanBidItem (env : Env) {id : ℤ}
    (hread : .long id ∈ w.redis.sets .bidItems → Readable (w.redis.hashes (.bidItem id)) ∧
      w.redis.hashes (.bidItem id) .bidItemId = some (.long id)) :
    (run (handle env) (cleanBidItem id) w).2.redis = expire w.redis id (env.clock w.reads) ∧
      OneRow id w.db (run (handle env) (cleanBidItem id) w).2.db := by
  let w₁ : World := { w with
    redis := expire w.redis id (env.clock w.reads)
    reads := w.reads + 1 }
  -- the item is closed in the cache before its row is written, so that a failing update only
  -- leaves the row as it was
  have hfails {item : Option BidItem} {n : ℕ} {e : Exn}
      (hget : run (handle env) (RedisCacheService.getBidItem id) w₁ =
        (.ok item, { w₁ with reads := w₁.reads + n }))
      (hupdate : CommonDao.updateBidItem w.db item = .error e) :
      (run (handle env) (cleanBidItem id) w).2 = { w₁ with reads := w₁.reads + n } := by
    unfold cleanBidItem
    rw [run_bind_ok (run_setExpiredBidItem env w id), run_bind_ok hget, run_updateBidItem_dao]
    simp only [w₁, hupdate]
  have hitems : w₁.redis.sets .bidItems = w.redis.sets .bidItems :=
    (sameAt_expire (by simp) (by simp) _).sets
  by_cases hmem : .long id ∈ w.redis.sets .bidItems
  · obtain ⟨hreadable, hid⟩ := hread hmem
    cases hrow : w.db.bidItems id with
    | some row =>
      obtain ⟨n, hrun⟩ := run_cleanBidItem env w hmem hreadable hid hrow
      rw [hrun]
      exact ⟨rfl, fun id' hne => CommonDao.bidItems_setRow_of_ne hne _, rfl⟩
    | none =>
      -- there is no row to write
      obtain ⟨bidders, hget⟩ := run_getBidItem_of_readable env w₁ id (hitems ▸ hmem)
        (hreadable.expire _)
      have hfield : w₁.redis.hashes (.bidItem id) .bidItemId = some (.long id) := by
        simpa [w₁, expire, Store.sadd] using hid
      have hitem := cachedItem_bidItemId hfield
      rw [hfails hget (updateBidItem_noRow hitem hrow)]
      exact ⟨rfl, OneRow.refl id w.db⟩
  · -- without a cached item there is nothing to write
    have hget := run_getBidItem_absent env w₁ (hitems ▸ hmem)
    rw [hfails (n := 0) hget rfl]
    exact ⟨rfl, OneRow.refl id w.db⟩

/-- A lot that leaves is closed and filed. -/
theorem files_cleanBidItem (hx : x ≠ 0) {id : ℤ}
    (hleaving : Sound env x w → id ≠ 0 → Leaving w.redis id (env.floor w)) :
    Files env x w (run (handle env) (cleanBidItem id) w).2 where
  progress := progress_cleanBidItem hx hleaving
  stays := rowStays_cleanBidItem id w
  coherent hw hrow hfiled := by
    have hread (hmem : .long id ∈ w.redis.sets .bidItems) :
        Readable (w.redis.hashes (.bidItem id)) ∧
          w.redis.hashes (.bidItem id) .bidItemId = some (.long id) := by
      have hcomplete := (hw.tidy.whole id (hw.ne_zero hmem)).complete hmem
      exact ⟨hcomplete.readable, hcomplete.bidItemId⟩
    intro hclosed
    by_cases hid : x = id
    · -- the row is written from what the cache has
      subst hid
      have hmem := (hleaving hw hx).member
      obtain ⟨row, hrow⟩ := Option.isSome_iff_exists.mp hrow
      obtain ⟨n, hrun⟩ := run_cleanBidItem env w hmem (hread hmem).1 (hread hmem).2 hrow
      rw [hrun]
      exact ⟨_, CommonDao.bidItems_setRow_self _ _ _, rowAgrees_closedRow _ _⟩
    · -- another lot is closed
      obtain ⟨hredis, hone⟩ := oneRow_cleanBidItem env hread
      rw [hredis, mem_expired_expire] at hclosed
      have hold := hclosed.resolve_left fun heq => hid (Text.long.inj heq)
      apply (hfiled hold).congr (hone.rows x hid)
      rw [hredis]
      exact (lotKey_expire hid _ (.inl rfl)).hashes

/-! ## Ticks -/

theorem files_getBidItem (hx : x ≠ 0) (id : ℤ) :
    Files env x w (run (handle env) (BidItemsCacheService.getBidItem id) w).2 :=
  Files.of_leavesRow hx (advances_getBidItem hx id w) (leavesRow_getBidItem id w)
    (rowStays_getBidItem id w)

theorem Files.bind {α β : Type} {p : Act α} {f : α → Act β}
    (hp : Files env x w (run (handle env) p w).2)
    (hf : ∀ a t, Files env x t (run (handle env) (f a) t).2) :
    Files env x w (run (handle env) (p >>= f) w).2 := by
  rcases hrun : run (handle env) p w with ⟨e | a, t⟩
  · rw [hrun] at hp
    rw [run_bind_error hrun]
    exact hp
  · rw [hrun] at hp
    rw [run_bind_ok hrun]
    exact hp.trans (hf a t)

/-- The lot that has become active is opened. -/
theorem files_openActive (hx : x ≠ 0) {onNone : Act ℤ}
    (hnone : ∀ t, (run (handle env) onNone t).2 = t) :
    Files env x w (run (handle env) (getActiveBidItemId >>= fun id =>
      BidItemsCacheService.getBidItem id >>= spanOr onNone) w).2 := by
  rw [run_bind_ok (run_getActiveBidItemId env w)]
  apply (files_getBidItem hx _).bind
  intro item t
  cases item with
  | none =>
    rw [spanOr, hnone]
    exact Files.of_same hx rfl rfl le_rfl
  | some item => exact Files.of_same hx rfl rfl le_rfl

/-- At the end there is no lot to close. -/
theorem files_endOfSequence (hx : x ≠ 0) (hend : endSequence w.redis = .isTrue) :
    Files env x w (run (handle env) endOfSequence w).2 := by
  let w₁ : World := { w with
    db := CommonDao.setAuctionEndTime w.db w.auctionId (env.clock w.reads)
      (env.clock (w.reads + 1))
    reads := w.reads + 2
    endTimesSet := w.auctionId :: w.endTimesSet }
  have hzero : activeId w₁.redis = 0 := activeId_of_end hend
  have hrun : run (handle env) endOfSequence w =
      run (handle env) (cleanBidItem (activeId w₁.redis) >>= fun _ => pure 0) w₁ :=
    run_bind_ok (run_getActiveBidItemId env w₁)
  have htables : Files env x w w₁ := Files.of_same hx rfl rfl (Nat.le_add_right _ _)
  rw [hrun, hzero]
  apply htables.trans
  apply (files_cleanBidItem hx fun _ hne => absurd rfl hne).bind
  exact fun _ _ => Files.of_same hx rfl rfl le_rfl

/-- The first tick closes no lot. -/
theorem files_startOfSequence (hx : x ≠ 0) :
    Files env x w (run (handle env) startOfSequence w).2 := by
  have hrun : run (handle env) startOfSequence w = run (handle env) (getActiveBidItemId >>=
      fun id => BidItemsCacheService.getBidItem id >>= spanOr (Action.throw .nullPointer))
      { w with startFlag := false, redis := popActive w.redis } := by
    unfold startOfSequence
    refine (run_bind_ok (run_setStartFlag env w false)).trans ?_
    exact run_bind_ok (run_setActiveBidItemId env _)
  have hpop : Files env x w { w with startFlag := false, redis := popActive w.redis } :=
    Files.pop hx rfl rfl le_rfl
  rw [hrun]
  exact hpop.trans (files_openActive hx fun _ => rfl)

/-- A tick during the sale files the lot that it closes. -/
theorem files_nextOfSequence (hx : x ≠ 0) (hclock : 0 ≤ env.clock 0) (hw : Sound env x w) :
    Files env x w (run (handle env) nextOfSequence w).2 := by
  rcases hw.run_nextOfSequence hclock with ⟨n, hn, hrun⟩ | ⟨n, hn, hleaving, hrun⟩
  · rw [hrun]
    exact Files.of_same hx rfl rfl hn
  · -- first the pop, then the old lot is closed, then the new one opened
    have hpop : Files env x w { w with redis := popActive w.redis, reads := n } :=
      Files.pop hx rfl rfl hn
    rw [hrun]
    apply hpop.trans
    apply (files_cleanBidItem hx fun _ _ => hleaving).bind
    exact fun _ _ => files_openActive hx fun _ => rfl

/-- Every tick files the lot that it closes. -/
theorem files_tick (hx : x ≠ 0) (hclock : 0 ≤ env.clock 0) (hw : Sound env x w) :
    Files env x w (w.after env .tick) := by
  have hnext : Files env x w (run (handle env) setNextBidItem w).2 := by
    unfold setNextBidItem
    rw [run_bind_ok (run_isEndSequence env w)]
    by_cases hend : endSequence w.redis = .isTrue
    · rw [if_pos hend]
      exact files_endOfSequence hx hend
    · rw [if_neg hend, run_bind_ok (run_getStartFlag env w)]
      cases w.startFlag with
      | true => exact files_startOfSequence hx
      | false => exact files_nextOfSequence hx hclock hw
  -- an exception is caught, and what was written stays
  have htask : Files env x w (run (handle env) timerTask w).2 := by
    have hattempt : Files env x w (run (handle env) (attempt setNextBidItem) w).2 := by
      rw [run_attempt]
      exact hnext
    apply hattempt.bind
    rintro (e | span) t
    · exact Files.of_same hx rfl rfl le_rfl
    · exact Files.of_same hx rfl rfl le_rfl
  exact htask.bind fun _ _ => Files.of_same hx rfl rfl le_rfl

/-- Every activity that spares the lot. -/
theorem files_after (hx : x ≠ 0) (hengine : LotEngine env) (hclock : 0 ≤ env.clock 0)
    {a : Activity} (hspares : Spares x w a) (hw : Sound env x w) :
    Files env x w (w.after env a) := by
  have hserving := serving_leavesRow (x := x) hengine.same
  have hleaves (h : Moves (handle env) (LeavesRow x) a.serve) : Files env x w (w.after env a) :=
    Files.of_leavesRow hx (progress_after hx hengine hclock hspares) (h w) (rowStays_serve a w)
  cases a with
  | tick => exact files_tick hx hclock hw
  | extend id extendTime => exact hleaves (hserving.of_doExtendBidding id extendTime)
  | notify id bidAmount => exact hleaves (hserving.of_update id bidAmount)
  | page p => exact hleaves (hserving.of_page p)
  | observerPage p => exact hleaves (hserving.of_observerPage p)
  | bid request => exact hleaves (hserving.of_doBid request)

end Steps

/-! ## Runs -/

/-- After a load no lot is closed, and the rows are as before. -/
theorem filed_loaded (env : Env) {w : World} {x : ℤ} (hrow : (w.db.bidItems x).isSome) :
    ((w.loaded env).db.bidItems x).isSome ∧ Coherent x (w.loaded env) := by
  obtain ⟨r, n, hrun, hload⟩ := run_initCache env w
  have hredis : (w.loaded env).redis = r := congrArg (fun out => out.2.redis) hrun
  have hdb : (w.loaded env).db = w.db := congrArg (fun out => out.2.db) hrun
  have hexpired := (sameAt_loaded hload .expiredBidItems fun hk => hk).sets
  refine ⟨by rw [hdb]; exact hrow, fun hclosed => ?_⟩
  rw [hredis, hexpired] at hclosed
  cases hclosed

/-- **The row of a closed lot agrees with the cache**: after every activity of a run that spares
    the lot `x`, if `x` is closed, its row says so and has the start, the end, the last update and
    the price that the cache has of it. -/
theorem coherent_of_spares (env : Env) (w : World) (x : ℤ) (activities : List Activity)
    (hengine : LotEngine env) (hclock : 0 ≤ env.clock 0) (hrow : (w.db.bidItems x).isSome)
    (hspares : Along (World.after env) (Spares x) (w.loaded env) activities) :
    Along (World.after env) (fun t a => Closed (t.after env a).redis x → Filed x (t.after env a))
      (w.loaded env) activities := by
  by_cases hx : x = 0
  · -- there is no lot `0`
    exact along_of_inv (I := fun _ => True)
      (fun _ _ _ => ⟨fun hclosed => absurd hx hclosed.1, trivial⟩) trivial activities
  · -- the invariant also says that the row is there, and that the lots are in order
    have hloaded := filed_loaded env hrow
    apply hspares.imp (I := fun t => Sound env x t ∧ (t.db.bidItems x).isSome ∧ Coherent x t) _
      ⟨sound_loaded env w x, hloaded⟩
    rintro t a - ⟨hsound, hrow, hcoherent⟩ hspare
    have hfiles := files_after hx hengine hclock hspare hsound
    have hcoherent' := hfiles.coherent hsound hrow hcoherent
    exact ⟨fun hclosed => hcoherent' hclosed.2, (hfiles.progress hsound).1, hfiles.stays hrow,
      hcoherent'⟩

/-- Lot `11` is closed by the second tick; a page view and a notification of a bid on this lot
    follow. -/
theorem coherent_twoLots :
    Closed closing11.redis 11 ∧
      Along (World.after (Env.steady 100000))
        (fun t a => Closed (t.after (Env.steady 100000) a).redis 11 →
          Filed 11 (t.after (Env.steady 100000) a))
        ((plainWorld twoLots 20).loaded (Env.steady 100000))
        [.tick, .tick, .page .marketList, .notify 11 500] :=
  ⟨⟨by decide, by decide +kernel⟩, coherent_of_spares (Env.steady 100000) (plainWorld twoLots 20) 11
    _ (lotEngine_idle _ _) (by decide) (by decide) ⟨trivial, trivial, trivial, trivial, trivial⟩⟩

end Bidding.Model
