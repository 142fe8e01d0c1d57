import Bidding.Semantics.Service

/-!
# Ticks in Any World

What a call of `setNextBidItem` can do, whatever the cache, the tables and the fields hold:
before and after it pops the queue it only works on items, and a pop that finds the queue
empty stops the timer.

## Key Results

- **`tickEffect`**: a tick finds the sequence ended, or works on items only, or pops the
  queue once and works on items before and after.
-/

namespace Bidding.Model

open Bidding.Effects Bidding.Effects.Action Bidding.KeyValue
open RedisCacheService BidItemsCacheService

/-! ## Work on items -/

/-- Neither the queue nor the active id, no update of an auction, and no field. -/
def itemWork : Footprint where
  keys k := k ≠ .bidItemSequenceIds ∧ k ≠ .activeBidItemId
  dao
    | .getBidItem _ | .updateBidItem _ => True
    | c => c.IsQuery
  fields := FieldCall.IsRead

/-- What work on items leaves as it was. -/
structure ItemWork (w w' : World) : Prop where
  queue : Store.SameAt .bidItemSequenceIds w'.redis w.redis
  active : Store.SameAt .activeBidItemId w'.redis w.redis
  startFlag : w'.startFlag = w.startFlag
  timers : w'.timers = w.timers
  endTimesSet : w'.endTimesSet = w.endTimesSet
  auctions : w'.db.auctions = w.db.auctions
  bidSequence : w'.db.bidSequence = w.db.bidSequence

theorem ItemWork.refl (w : World) : ItemWork w w :=
  ⟨Store.SameAt.refl _ _, Store.SameAt.refl _ _, rfl, rfl, rfl, rfl, rfl⟩

theorem ItemWork.trans {w w' w'' : World} (h : ItemWork w w') (h' : ItemWork w' w'') :
    ItemWork w w'' :=
  ⟨h'.queue.trans h.queue, h'.active.trans h.active, h'.startFlag.trans h.startFlag,
    h'.timers.trans h.timers, h'.endTimesSet.trans h.endTimesSet, h'.auctions.trans h.auctions,
    h'.bidSequence.trans h.bidSequence⟩

/-- A run inside the footprint is work on items. -/
theorem Within.itemWork {α : Type} {p : Act α} (hp : Within itemWork p) (env : Env) (w : World) :
    ItemWork w (run (handle env) p w).2 := by
  refine hp.run_inv (I := fun t : World => ItemWork w t) ?_ (ItemWork.refl w)
  intro c hc t ht
  refine ht.trans ?_
  cases c with
  | redis c =>
    exact ⟨exec_sameAt env.order (fun hw => (hc _ hw).1 rfl) t.redis,
      exec_sameAt env.order (fun hw => (hc _ hw).2 rfl) t.redis, rfl, rfl, rfl, rfl, rfl⟩
  | connect | close _ | now =>
    exact ⟨Store.SameAt.refl _ _, Store.SameAt.refl _ _, rfl, rfl, rfl, rfl, rfl⟩
  | dao c =>
    cases c with
    -- the two commands that write the database touch item rows only
    | getBidItem id =>
      simp only [handle, handleDao]
      split
      · rename_i item db hload
        obtain ⟨row, hloaded⟩ := CommonDao.getBidItem_loaded hload
        exact ⟨Store.SameAt.refl _ _, Store.SameAt.refl _ _, rfl, rfl, rfl, hloaded.auctions,
          hloaded.bidSequence⟩
      · exact ItemWork.refl t
    | updateBidItem item =>
      simp only [handle, handleDao]
      split
      · rename_i db hupdate
        obtain ⟨id, row, rfl⟩ := CommonDao.updateBidItem_eq hupdate
        exact ⟨Store.SameAt.refl _ _, Store.SameAt.refl _ _, rfl, rfl, rfl, rfl, rfl⟩
      · exact ItemWork.refl t
    | getActualAuctionStartTime _ | isValidAuction _ | getCurrentBidSequence _
    | queryCategories | getCategoryList _ _ | getMaxBidId | getMaxAutoBidId | begin =>
      exact ItemWork.refl t
    | _ => exact absurd hc id
  -- the flags are read, but not written
  | field c =>
    cases c with
    | getStartFlag | getAuctionId | getAuctionStartTime => exact ItemWork.refl t
    | _ => exact absurd hc id
  | startTimer _ | stopAuction | restart | engineBid _ => exact absurd hc id

/-! ## Footprints of the service -/

section Footprints

variable {fp : Footprint}

theorem within_unbox (n : Option ℤ) : Within fp (unbox n) := issues_ofExcept _

/-- Besides the clock, an item is initialized from its details in the sequence. -/
theorem issues_initializeBidItem {P : Cmd → Prop} (hnow : Issues P now)
    (hdetails : ∀ id, Issues P (getBidItemSequenceDetails id)) (item : BidItem) :
    Issues P (initializeBidItem item) := by
  apply issues_bind hnow
  intro cal
  apply issues_bind (issues_ofExcept _)
  intro id
  apply issues_bind (hdetails id)
  intro details
  cases details with
  | none => exact issues_throw _
  | some details =>
    apply issues_bind (issues_ofExcept _)
    intro bidSpan
    exact issues_bind (issues_ofExcept _) (fun _ => issues_pure _)

theorem within_initializeBidItem (item : BidItem) : Within fp (initializeBidItem item) :=
  issues_initializeBidItem within_now within_getBidItemSequenceDetails item

theorem within_setBidItem_service (item : BidItem) (hkey : ∀ id k, ItemKey id k → fp.keys k) :
    Within fp (BidItemsCacheService.setBidItem item) :=
  issues_bind (within_unbox _) fun id => issues_bind (within_setBidItem item (hkey id)) fun _ =>
    issues_bind (RedisCacheService.within_getBidItem id) fun _ => issues_pure _

theorem within_loadBidItem {id : ℤ} (hdao : fp.dao (.getBidItem id))
    (hkey : ∀ id k, ItemKey id k → fp.keys k) : Within fp (loadBidItem id) :=
  issues_bind (within_daoGetBidItem hdao) fun _ =>
    issues_bind (within_initializeBidItem _) fun item =>
      issues_bind (within_setBidItem_service item hkey) fun _ => issues_pure _

/-- Getting an item writes what loading it does. -/
theorem within_getBidItem_service {id : ℤ} (hdao : fp.dao (.getBidItem id))
    (hkey : ∀ id k, ItemKey id k → fp.keys k) :
    Within fp (BidItemsCacheService.getBidItem id) := by
  refine issues_bind (RedisCacheService.within_getBidItem id) fun item => ?_
  cases item with
  | some item => exact issues_pure _
  | none =>
    dsimp only
    split
    · exact issues_pure _
    · exact issues_bind (within_loadBidItem hdao hkey) fun _ => issues_pure _

theorem within_cleanBidItem {id : ℤ} (hexpired : fp.keys .expiredBidItems)
    (hitem : fp.keys (.bidItem id)) (hdao : ∀ item, fp.dao (.updateBidItem item)) :
    Within fp (cleanBidItem id) :=
  issues_bind (within_setExpiredBidItem hexpired hitem) fun _ =>
    issues_bind (RedisCacheService.within_getBidItem id) fun _ => within_daoUpdateBidItem (hdao _)

end Footprints

theorem itemWork_of_itemKey (id : ℤ) (k : Key) (h : ItemKey id k) : itemWork.keys k :=
  ⟨by rintro rfl; exact h, by rintro rfl; exact h⟩

theorem itemWork_getBidItem (env : Env) (w : World) (id : ℤ) :
    ItemWork w (run (handle env) (BidItemsCacheService.getBidItem id) w).2 :=
  Within.itemWork (within_getBidItem_service trivial itemWork_of_itemKey) env w

/-- The keys and calls of closing an item. -/
def closing : Footprint where
  keys k := k = .expiredBidItems ∨ ∃ id, k = .bidItem id
  dao := itemWork.dao
  fields := FieldCall.IsRead

theorem within_cleanBidItem_closing (id : ℤ) : Within closing (cleanBidItem id) :=
  within_cleanBidItem (.inl rfl) (.inr ⟨id, rfl⟩) fun _ => trivial

theorem within_cleanBidItem_itemWork (id : ℤ) : Within itemWork (cleanBidItem id) :=
  within_cleanBidItem ⟨by simp, by simp⟩ ⟨by simp, by simp⟩ fun _ => trivial

/-! ## Loads -/

/-- Two states of the tables that differ in the row of one item at most, as far as items and
    auto-bids are concerned. -/
structure OneRow (id : ℤ) (db db' : Db) : Prop where
  rows : ∀ id', id' ≠ id → db'.bidItems id' = db.bidItems id'
  autoBids : db'.autoBids = db.autoBids

theorem OneRow.refl (id : ℤ) (db : Db) : OneRow id db db := ⟨fun _ _ => rfl, rfl⟩

theorem OneRow.trans {id : ℤ} {db db' db'' : Db} (h : OneRow id db db')
    (h' : OneRow id db' db'') : OneRow id db db'' :=
  ⟨fun id' hne => (h'.rows id' hne).trans (h.rows id' hne), h'.autoBids.trans h.autoBids⟩

section Loads

variable (env : Env) (w : World)

/-- Loading a row fails and changes nothing, or writes one row. -/
theorem run_getBidItem_dao_any (id : ℤ) :
    (∃ e, run (handle env) (Dao.getBidItem id) w = (.error e, w)) ∨
      ∃ item db n, item.bidItemId = some id ∧ OneRow id w.db db ∧ w.reads ≤ n ∧
        run (handle env) (Dao.getBidItem id) w = (.ok item, { w with db := db, reads := n }) := by
  rw [run_getBidItem_dao]
  match hload : CommonDao.getBidItem (env.times w) w.db id with
  | .error e => exact .inl ⟨e, rfl⟩
  | .ok (item, db) =>
    obtain ⟨row, hloaded⟩ := CommonDao.getBidItem_loaded hload
    refine .inr ⟨item, db, _, hloaded.bidItemId, ⟨fun id' hne => ?_, hloaded.autoBids⟩,
      Nat.le_add_right _ _, rfl⟩
    rw [hloaded.rows, Function.update_of_ne hne]

/-- Initializing an item fails, or opens it at the next clock reading; the cache is left
    alone. -/
theorem run_initializeBidItem_any (item : BidItem) :
    (∃ e n, w.reads ≤ n ∧
      run (handle env) (initializeBidItem item) w = (.error e, { w with reads := n })) ∨
      ∃ span seqId, run (handle env) (initializeBidItem item) w =
        (.ok (openedItem item (env.clock w.reads) span seqId),
          { w with reads := w.reads + 1 }) := by
  unfold initializeBidItem unbox
  rw [run_bind_ok (run_now env w)]
  cases hid : item.bidItemId with
  -- an item without an id has no details in the sequence
  | none => exact .inl ⟨_, _, Nat.le_succ _, rfl⟩
  | some id =>
    simp only [run_getBidItemSequenceDetails, run_bind, run_ofExcept]
    cases Text.parseLong (w.redis.hashes (.bidSequence id) .bidSpan) with
    | error e => exact .inl ⟨_, _, Nat.le_succ _, rfl⟩
    | ok span =>
      cases Text.parseLong (w.redis.hashes (.bidSequence id) .sequenceId) with
      | error e => exact .inl ⟨_, _, Nat.le_succ _, rfl⟩
      | ok seqId =>
        refine .inr ⟨span, seqId, ?_⟩
        unfold openedItem
        rw [hid]
        rfl

/-- An item that was loaded and stored, opened at the clock reading `t`. -/
structure LoadedAt (env : Env) (id : ℤ) (item : BidItem) (t : ℕ) (r r' : Redis) : Prop where
  bidItemId : item.bidItemId = some id
  opened : ∃ loaded span seqId, item = openedItem loaded (env.clock t) span seqId
  stored : Stored id item r r'
  bidders : StoredBidders id item.sortBidders.currentBiddersList r r'

/-- A load fails and leaves the cache alone, or stores the item. -/
theorem run_loadBidItem_any (id : ℤ) :
    (∃ e db n, w.reads ≤ n ∧ OneRow id w.db db ∧ run (handle env) (loadBidItem id) w =
      (.error e, { w with db := db, reads := n })) ∨
      ∃ item t r db n, w.reads ≤ t ∧ t < n ∧ OneRow id w.db db ∧
        LoadedAt env id item t w.redis r ∧ run (handle env) (loadBidItem id) w =
          (.ok item, { w with redis := r, db := db, reads := n }) := by
  unfold loadBidItem
  rcases run_getBidItem_dao_any env w id with ⟨e, hdao⟩ | ⟨item, db, n, hid, hrow, hn, hdao⟩
  · exact .inl ⟨e, w.db, w.reads, le_rfl, OneRow.refl id w.db, run_bind_error hdao⟩
  rw [run_bind_ok hdao]
  rcases run_initializeBidItem_any env { w with db := db, reads := n } item with
    ⟨e, m, hm, hinit⟩ | ⟨span, seqId, hinit⟩
  · exact .inl ⟨e, db, m, hn.trans hm, hrow, run_bind_error hinit⟩
  rw [run_bind_ok hinit]
  -- the initialized item has a start time, so that it is stored whole
  obtain ⟨r, k, hset, hstored, hbidders⟩ := run_setBidItem_service env
    { w with db := db, reads := n + 1 } (openedItem item (env.clock n) span seqId) hid rfl
  have hloaded : LoadedAt env id (openedItem item (env.clock n) span seqId) n w.redis r :=
    ⟨hid, ⟨item, span, seqId, rfl⟩, hstored, hbidders⟩
  exact .inr ⟨_, n, r, db, n + 1 + k, hn, by omega, hrow, hloaded, run_bind_ok hset⟩

/-- `getBidItem` adds at most the item itself to the items of the cache. -/
theorem mem_bidItems_getBidItem {id : ℤ} {t : Text}
    (h : t ∈ (run (handle env) (BidItemsCacheService.getBidItem id) w).2.redis.sets .bidItems) :
    t ∈ w.redis.sets .bidItems ∨ (t = .long id ∧ id ≠ 0) := by
  obtain ⟨item, n, hget⟩ := RedisCacheService.run_getBidItem env w id
  unfold BidItemsCacheService.getBidItem at h
  rw [run_bind_ok hget] at h
  cases item with
  | some item => exact .inl h
  | none =>
    by_cases hid : id = 0
    · -- the item `0` is not loaded
      simp only [hid, if_true] at h
      exact .inl h
    · simp only [hid, if_false] at h
      rcases run_loadBidItem_any env { w with reads := w.reads + n } id with
        ⟨e, db, m, -, -, hload⟩ | ⟨item, t, r, db, m, -, -, -, hloaded, hload⟩
      · rw [run_bind_error hload] at h
        exact .inl h
      · rw [run_bind_ok hload, run_pure, hloaded.stored.bidItems, List.mem_insert_iff] at h
        exact h.symm.imp_right fun ht => ⟨ht, hid⟩

end Loads

/-! ## The tick -/

/-- What a call of `setNextBidItem` can do. -/
inductive TickEffect (w : World) : Except Exn ℤ → World → Prop
  /-- the sequence has ended -/
  | ended {result : Except Exn ℤ} {w' : World} {db : Db} {n : ℕ} {ends : List ℤ}
      (hend : endSequence w.redis = .isTrue)
      (hwork : ItemWork { w with db := db, reads := n, endTimesSet := ends } w')
      (hseq : db.bidSequence = w.db.bidSequence) :
      TickEffect w result w'
  /-- the queue is not touched -/
  | kept {result : Except Exn ℤ} {n : ℕ} (hend : endSequence w.redis ≠ .isTrue)
      (hflag : w.startFlag = false) : TickEffect w result { w with reads := n }
  /-- the queue is popped -/
  | popped {result : Except Exn ℤ} {w' : World} (hend : endSequence w.redis ≠ .isTrue)
      (hwork : ItemWork { w with startFlag := false, redis := popActive w.redis } w')
      (hzero : .long 0 ∉ w.redis.sets .bidItems → .long 0 ∉ w'.redis.sets .bidItems)
      (hstop : .long 0 ∉ w.redis.sets .bidItems → nextActive w.redis = .long 0 →
        ∀ span, result = .ok span → span ≤ 0) :
      TickEffect w result w'

section Tick

variable (env : Env) (w : World)

/-- The end of a tick that has popped the queue: the item that became active is fetched. -/
theorem run_getBidItem_popped {β : Type} (w₀ : World) {w₁ : World} {f : Option BidItem → Act β}
    (hwork : ItemWork { w₀ with startFlag := false, redis := popActive w₀.redis } w₁)
    (hitems : w₁.redis.sets .bidItems = w₀.redis.sets .bidItems)
    (hf : ∀ item w, (run (handle env) (f item) w).2 = w) :
    ItemWork { w₀ with startFlag := false, redis := popActive w₀.redis }
        (run (handle env) (BidItemsCacheService.getBidItem (activeId w₁.redis) >>= f) w₁).2 ∧
      (.long 0 ∉ w₀.redis.sets .bidItems → .long 0 ∉ (run (handle env)
        (BidItemsCacheService.getBidItem (activeId w₁.redis) >>= f) w₁).2.redis.sets .bidItems) ∧
      (.long 0 ∉ w₀.redis.sets .bidItems → nextActive w₀.redis = .long 0 →
        run (handle env) (BidItemsCacheService.getBidItem (activeId w₁.redis) >>= f) w₁ =
          run (handle env) (f none) w₁) := by
  -- the continuation keeps the world, so only the fetch is looked at
  have hworld : (run (handle env)
      (BidItemsCacheService.getBidItem (activeId w₁.redis) >>= f) w₁).2 =
      (run (handle env) (BidItemsCacheService.getBidItem (activeId w₁.redis)) w₁).2 := by
    refine run_bind_rule (Q := fun out => out.2 = _) (fun e t ht => ?_) fun item t ht => ?_
    · rw [ht]
    · rw [ht, hf]
  refine ⟨?_, ?_, ?_⟩
  · rw [hworld]
    exact hwork.trans (itemWork_getBidItem env w₁ _)
  · rw [hworld]
    intro hzero hmem
    rcases mem_bidItems_getBidItem env w₁ hmem with hold | ⟨hid, hne⟩
    · exact hzero (hitems ▸ hold)
    · exact hne (Text.long.inj hid).symm
  · intro hzero hnext
    -- after an empty queue the active id is `0`, and there is no such item
    have hactive : w₁.redis.strings .activeBidItemId = some (.long 0) := by
      rw [hwork.active.strings, ← hnext]
      exact Store.strings_set (w₀.redis.rpop .bidItemSequenceIds) _ _
    have hid : activeId w₁.redis = 0 := by simp [activeId, hactive]
    rw [hid]
    exact run_bind_ok (run_getBidItem_zero env w₁ (hitems ▸ hzero))

/-- A tick at the end of the sequence. -/
theorem tickEffect_endOfSequence (hend : endSequence w.redis = .isTrue) :
    TickEffect w (run (handle env) endOfSequence w).1 (run (handle env) endOfSequence w).2 := by
  let w₁ : World := { w with
    db := CommonDao.setAuctionEndTime w.db w.auctionId (env.clock w.reads)
      (env.clock (w.reads + 1))
    reads := w.reads + 2
    endTimesSet := w.auctionId :: w.endTimesSet }
  have hwithin : Within itemWork (do
      let activeBidItemId ← RedisCacheService.getActiveBidItemId
      cleanBidItem activeBidItemId
      pure 0 : Act ℤ) :=
    issues_bind within_getActiveBidItemId fun id =>
      issues_bind (within_cleanBidItem_itemWork id) fun _ => issues_pure _
  exact .ended hend (hwithin.itemWork env w₁) rfl

/-- The span of the item that was opened, as the tick returns it. -/
def spanOr (onNone : Act ℤ) : Option BidItem → Act ℤ
  | some bidItem => pure bidItem.bidSpan
  | none => onNone

/-- The first tick of a sale. -/
theorem tickEffect_startOfSequence (hend : endSequence w.redis ≠ .isTrue) :
    TickEffect w (run (handle env) startOfSequence w).1
      (run (handle env) startOfSequence w).2 := by
  let w₁ : World := { w with startFlag := false, redis := popActive w.redis }
  have hitems : w₁.redis.sets .bidItems = w.redis.sets .bidItems :=
    (sameAt_popActive w.redis (k := .bidItems) (by simp) (by simp)).sets
  have hrun : run (handle env) startOfSequence w = run (handle env)
      (BidItemsCacheService.getBidItem (activeId w₁.redis) >>=
        spanOr (Action.throw .nullPointer)) w₁ := by
    unfold startOfSequence
    refine (run_bind_ok (run_setStartFlag env w false)).trans ?_
    refine (run_bind_ok (run_setActiveBidItemId env _)).trans ?_
    exact run_bind_ok (run_getActiveBidItemId env w₁)
  obtain ⟨hwork, hzero, hnone⟩ := run_getBidItem_popped env w (ItemWork.refl w₁) hitems
    (f := spanOr (Action.throw .nullPointer)) (by rintro (_ | _) _ <;> rfl)
  rw [hrun]
  -- without an item the tick throws, and so returns no span
  refine .popped hend hwork hzero fun hz hnext span hspan => ?_
  rw [hnone hz hnext] at hspan
  cases hspan

/-- Closing an item does not add one. -/
theorem bidItems_cleanBidItem (id : ℤ) :
    (run (handle env) (cleanBidItem id) w).2.redis.sets .bidItems = w.redis.sets .bidItems :=
  ((within_cleanBidItem_closing id).sameAt env w (by simp [closing])).sets

/-- A hand-over pops the queue, whether it comes to its end or not. -/
theorem tickEffect_handOver {n : ℕ} (hend : endSequence w.redis ≠ .isTrue)
    (hflag : w.startFlag = false) (id : ℤ) :
    TickEffect w (run (handle env) (handOver id) { w with reads := n }).1
      (run (handle env) (handOver id) { w with reads := n }).2 := by
  let w₁ : World := { w with redis := popActive w.redis, reads := n }
  have hpop : ItemWork { w with startFlag := false, redis := popActive w.redis } w₁ :=
    ⟨Store.SameAt.refl _ _, Store.SameAt.refl _ _, hflag, rfl, rfl, rfl, rfl⟩
  have hclean := (within_cleanBidItem_itemWork id).itemWork env w₁
  have hitems : (run (handle env) (cleanBidItem id) w₁).2.redis.sets .bidItems =
      w.redis.sets .bidItems :=
    (bidItems_cleanBidItem env w₁ id).trans
      (sameAt_popActive w.redis (k := .bidItems) (by simp) (by simp)).sets
  unfold handOver
  rw [run_bind_ok (run_setActiveBidItemId env _)]
  -- closing the item may throw, but the queue has been popped by then
  rcases hrun : run (handle env) (cleanBidItem id) w₁ with ⟨e | a, w₂⟩
  · rw [hrun] at hclean hitems
    rw [run_bind_error hrun]
    refine .popped hend (hpop.trans hclean) (fun hz => hitems ▸ hz) ?_
    intro _ _ span hspan
    cases hspan
  · rw [hrun] at hclean hitems
    obtain ⟨hwork, hzero, hnone⟩ := run_getBidItem_popped env w (hpop.trans hclean) hitems
      (f := spanOr (pure 0)) (by rintro (_ | _) _ <;> rfl)
    rw [run_bind_ok hrun, run_bind_ok (run_getActiveBidItemId env w₂)]
    refine .popped hend hwork hzero fun hz hnext span hspan => ?_
    refine (Except.ok.inj (hspan.symm.trans ?_)).le
    exact congrArg Prod.fst (hnone hz hnext)

/-- A later tick leaves the queue while the active item has time left. -/
theorem tickEffect_nextOfSequence (hend : endSequence w.redis ≠ .isTrue)
    (hflag : w.startFlag = false) :
    TickEffect w (run (handle env) nextOfSequence w).1 (run (handle env) nextOfSequence w).2 := by
  obtain ⟨item, n, hget⟩ := RedisCacheService.run_getBidItem env w (activeId w.redis)
  unfold nextOfSequence
  rw [run_bind_ok (run_getActiveBidItemId env w), run_bind_ok hget]
  cases item with
  -- an item that is not found ends the tick, with nothing done
  | none => exact .kept hend hflag
  | some item =>
    -- reading the time left reads the clock, at most
    have hleft : ∀ m, ∃ r k, run (handle env) (getTimeLeft item) { w with reads := m } =
        (r, { w with reads := k }) := by
      intro m
      have hread : Within readOnly (getTimeLeft item) := within_getTimeLeft item
      obtain ⟨k, hk⟩ := hread.run_readOnly env { w with reads := m }
      exact ⟨_, _, Prod.ext rfl hk⟩
    obtain ⟨r, m, hfirst⟩ := hleft (w.reads + n)
    cases r with
    | error e =>
      rw [run_bind_error hfirst]
      exact .kept hend hflag
    | ok timeLeft =>
      rw [run_bind_ok hfirst]
      split
      · -- time is left: it is read twice more for the result
        obtain ⟨r, k, hsecond⟩ := hleft m
        obtain ⟨r', k', hthird⟩ := hleft k
        cases r with
        | error e =>
          rw [run_bind_error hsecond]
          exact .kept hend hflag
        | ok _ =>
          rw [run_bind_ok hsecond, hthird]
          exact .kept hend hflag
      · exact tickEffect_handOver env w hend hflag _

/-- What a call of `setNextBidItem` does, in any world. -/
theorem tickEffect :
    TickEffect w (run (handle env) setNextBidItem w).1
      (run (handle env) setNextBidItem w).2 := by
  unfold setNextBidItem
  rw [run_bind_ok (run_isEndSequence env w)]
  by_cases hend : endSequence w.redis = .isTrue
  · rw [if_pos hend]
    exact tickEffect_endOfSequence env w hend
  · rw [if_neg hend, run_bind_ok (run_getStartFlag env w)]
    cases hflag : w.startFlag with
    | true => exact tickEffect_startOfSequence env w hend
    | false => exact tickEffect_nextOfSequence env w hend hflag

end Tick

end Bidding.Model
