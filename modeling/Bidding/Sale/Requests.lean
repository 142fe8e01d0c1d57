import Bidding.Sale.Scheduler
import Bidding.Semantics.AnyTick

/-!
# Requests of Bidders

What a bid and a page view do to the world, and what becomes of the sale that the world
stands for. Both fetch an item through `getBidItem`, which fills the cache on a miss.

## Key Results

- **`Refines.bid`**: a bid on an item that does not wait in the queue leaves the sale as it is.
- **`Refines.bid_pending`**: a bid on an item that waits puts it into the cache.
- **`Refines.page`**: a page view only reads.
-/

namespace Bidding.Model

open Bidding.Effects Bidding.Effects.Action Bidding.KeyValue
open RedisCacheService BidItemsCacheService BidderController

/-! ## The bidding engine -/

/-- The keys of the cache that belong to the bids on an item. -/
def EngineKey (id : ℤ) : Key → Prop
  | .bidItem i | .bidders i | .bidder i _ => i = id
  | .bidId | .autoBidId => True
  | _ => False

/-- The engine, a library, works on the item of a bid, and leaves an item that can be read as
    one that can be read. -/
structure ItemEngine (env : Env) : Prop where
  same : ∀ on bid d r k, ¬ EngineKey bid.bidItemId k → Store.SameAt k (env.engine on bid d r) r
  cached : ∀ on bid d r, Cached r bid.bidItemId → Cached (env.engine on bid d r) bid.bidItemId

/-- An engine that does nothing. -/
theorem itemEngine_idle (clock : ℕ → Date) (clock_mono : ∀ ⦃m n⦄, m ≤ n → clock m ≤ clock n) :
    ItemEngine (Env.idle clock clock_mono) where
  same _ _ _ _ _ _ := Store.SameAt.refl _ _
  cached _ _ _ _ h := h

/-! ## Changes of one item -/

/-- What a request that works on one item leaves as it was. -/
structure OnlyItem (id : ℤ) (w w' : World) : Prop where
  startFlag : w'.startFlag = w.startFlag
  same : ∀ k, ¬ ItemKey id k → ¬ EngineKey id k → Store.SameAt k w'.redis w.redis
  kept : ∀ t ∈ w.redis.sets .bidItems, t ∈ w'.redis.sets .bidItems
  added : ∀ t ∈ w'.redis.sets .bidItems, t ∈ w.redis.sets .bidItems ∨ (t = .long id ∧ id ≠ 0)
  db : OneRow id w.db w'.db

namespace OnlyItem

variable {id : ℤ} {w w' w'' : World}

theorem of_reads (id : ℤ) (w : World) (n : ℕ) : OnlyItem id w { w with reads := n } :=
  ⟨rfl, fun _ _ _ => Store.SameAt.refl _ _, fun _ h => h, fun _ h => .inl h, OneRow.refl _ _⟩

theorem trans (h : OnlyItem id w w') (h' : OnlyItem id w' w'') : OnlyItem id w w'' where
  startFlag := h'.startFlag.trans h.startFlag
  same k hitem hengine := (h'.same k hitem hengine).trans (h.same k hitem hengine)
  kept t ht := h'.kept t (h.kept t ht)
  added t ht := (h'.added t ht).elim (h.added t) .inr
  db := h.db.trans h'.db

/-- A rollback puts the tables back. -/
theorem rollback (h : OnlyItem id w w') : OnlyItem id w { w' with db := w.db } :=
  ⟨h.startFlag, h.same, h.kept, h.added, OneRow.refl _ _⟩

/-- An item is stored, and its row changes. -/
theorem of_stored {item : BidItem} {r : Redis} {db : Db} (hid : id ≠ 0)
    (hstored : Stored id item w.redis r) (hrow : OneRow id w.db db) (n : ℕ) :
    OnlyItem id w { w with redis := r, db := db, reads := n } where
  startFlag := rfl
  same k hitem _ := hstored.same k hitem
  kept t ht := by
    rw [hstored.bidItems]
    exact List.mem_insert_of_mem ht
  added t ht := by
    rw [hstored.bidItems, List.mem_insert_iff] at ht
    exact ht.symm.imp_right fun h => ⟨h, hid⟩
  db := hrow

/-- The keys of the sale belong to no item. -/
theorem saleKey (h : OnlyItem id w w') {k : Key} (hk : SaleKey k) :
    Store.SameAt k w'.redis w.redis :=
  h.same k (by cases k <;> first | exact False.elim hk | exact fun h => h)
    (by cases k <;> first | exact False.elim hk | exact fun h => h)

/-- A sale is not affected by a change of one item, unless the item waits, as long as a cached
    item stays in the cache and its row stays. -/
theorem refines {s : Sale BidSequence} (ho : OnlyItem id w w') (h : Refines s w)
    (hwaiting : ∀ lot ∈ s.waiting, lot.bidItemId ≠ id)
    (hcached : Cached w.redis id → Cached w'.redis id ∧ w'.db = w.db) : Refines s w' := by
  have hopened : ∀ lot ∈ s.opened, lot.bidItemId = id → Cached w'.redis id ∧ w'.db = w.db :=
    fun lot hlot hid => hcached (hid ▸ h.opened lot hlot)
  -- no lot of the sale has another row
  have hrows : ∀ lot ∈ s.lots, w'.db.bidItems lot.bidItemId = w.db.bidItems lot.bidItemId := by
    intro lot hlot
    by_cases hid : lot.bidItemId = id
    · rcases List.mem_append.mp hlot with hmem | hmem
      · rw [(hopened lot hmem hid).2]
      · exact absurd hid (hwaiting lot hmem)
    · exact ho.db.rows _ hid
  refine h.congr ho.startFlag (fun k hk => ho.saleKey hk) ?_ ?_ ?_ ?_ ?_
  · intro lot hlot
    by_cases hid : lot.bidItemId = id
    · exact hid ▸ (hopened lot hlot hid).1
    · exact (h.opened lot hlot).of_sameAt (ho.same _ hid hid) ho.kept
  · -- a waiting lot is another item
    intro lot hlot
    have hne := hwaiting lot hlot
    refine (h.pending lot hlot).of_sameAt (ho.same _ hne hne) fun hmem => ?_
    rcases ho.added _ hmem with hold | ⟨heq, -⟩
    · exact (h.pending lot hlot).absent hold
    · exact hne (Text.long.inj heq)
  · intro hmem
    rcases ho.added _ hmem with hold | ⟨heq, hne⟩
    · exact h.data.zero hold
    · exact hne (Text.long.inj heq).symm
  · exact fun lot hlot => (h.data.loadable lot hlot).of_terms (by rw [hrows lot hlot])
      ho.db.autoBids
  · intro lot hlot
    unfold CommonDao.Ended
    rw [hrows lot (Sale.mem_lots_of_sold hlot)]
    exact h.ended lot hlot

end OnlyItem

/-! ## Fetching an item in a transaction -/

section Requests

variable (env : Env) (w : World)

/-- A transaction that throws puts the tables back, but not the cache. -/
theorem run_transactional {α : Type} (body : Act α) :
    run (handle env) (transactional body) w =
      match run (handle env) body w with
      | (.ok a, t) => (.ok a, t)
      | (.error e, t) => (.error e, { t with db := w.db }) := by
  unfold transactional
  refine (run_bind_ok (run_begin env w)).trans ?_
  rcases hbody : run (handle env) body w with ⟨e | a, t⟩
  · exact run_bind_ok (run_attempt_of hbody)
  · exact run_bind_ok (run_attempt_of hbody)

/-- A transaction changes one item if its body does. -/
theorem onlyItem_transactional {α : Type} {body : Act α} {id : ℤ}
    (h : OnlyItem id w (run (handle env) body w).2) :
    OnlyItem id w (run (handle env) (transactional body) w).2 := by
  rw [run_transactional]
  rcases hbody : run (handle env) body w with ⟨e | a, t⟩
  · rw [hbody] at h
    exact h.rollback
  · rw [hbody] at h
    exact h

/-- The commit of a loaded item changes its row. -/
theorem run_flush {item : BidItem} {id : ℤ} (hid : item.bidItemId = some id) :
    run (handle env) (Dao.flush item) w =
      (.ok (), { w with db := CommonDao.flush w.db id item }) := by
  refine (run_perform (handle env) (.dao (.flush item)) _ w).trans ?_
  simp only [handle, handleDao, hid]
  rfl

theorem oneRow_flush (db : Db) (id : ℤ) (item : BidItem) :
    OneRow id db (CommonDao.flush db id item) :=
  ⟨fun _ hne => Function.update_of_ne hne .., rfl⟩

/-- A miss of the cache that ends with a loaded item. -/
theorem run_getBidItemManaged_miss {env : Env} {w w₁ w₂ : World} {id : ℤ} {item : BidItem}
    (hget : run (handle env) (RedisCacheService.getBidItem id) w = (.ok none, w₁))
    (hid : id ≠ 0) (hload : run (handle env) (loadBidItem id) w₁ = (.ok item, w₂))
    (hitem : item.bidItemId = some id) :
    run (handle env) (getBidItemManaged id) w =
      (.ok (some item), { w₂ with db := CommonDao.flush w₂.db id item }) := by
  unfold getBidItemManaged
  rw [run_bind_ok hget]
  simp only [hid, if_false]
  rw [run_bind_ok hload, run_bind_ok (run_flush env w₂ hitem)]
  rfl

/-- A request that fetches an item changes nothing else. -/
theorem onlyItem_getBidItemManaged (id : ℤ) :
    OnlyItem id w (run (handle env) (getBidItemManaged id) w).2 := by
  obtain ⟨item, n, hget⟩ := RedisCacheService.run_getBidItem env w id
  cases item with
  | some item =>
    have hrun : run (handle env) (getBidItemManaged id) w = _ := run_bind_ok hget
    rw [hrun]
    exact OnlyItem.of_reads id w _
  | none =>
    -- the id `0` of the end is not loaded
    by_cases hid : id = 0
    · unfold getBidItemManaged
      rw [run_bind_ok hget]
      simp only [hid, if_true]
      exact OnlyItem.of_reads 0 w _
    rcases run_loadBidItem_any env { w with reads := w.reads + n } id with
      ⟨e, db, m, -, hrow, hload⟩ | ⟨item, t, r, db, m, -, -, hrow, hloaded, hload⟩
    · unfold getBidItemManaged
      rw [run_bind_ok hget]
      simp only [hid, if_false]
      rw [run_bind_error hload]
      exact ⟨rfl, fun _ _ _ => Store.SameAt.refl _ _, fun _ h => h, fun _ h => .inl h, hrow⟩
    · -- the item is loaded and its row is written back
      rw [run_getBidItemManaged_miss hget hid hload hloaded.bidItemId]
      exact (OnlyItem.of_reads id w _).trans
        (OnlyItem.of_stored hid hloaded.stored (hrow.trans (oneRow_flush _ _ _)) _)

variable {env w}

/-- An item that the cache has is not loaded. -/
theorem Cached.run_getBidItemManaged (env : Env) {id : ℤ} (h : Cached w.redis id) :
    ∃ item, run (handle env) (getBidItemManaged id) w =
      (.ok (some item), { w with reads := checkReading w id }) := by
  obtain ⟨item, -, -, -, hget, -⟩ := h.run_getBidItem env
  exact ⟨item, run_bind_ok hget⟩

theorem Cached.run_proxyGetBidItem (env : Env) (w : World) {id : ℤ} (h : Cached w.redis id) :
    ∃ item, run (handle env) (proxyGetBidItem id) w =
      (.ok (some item), { w with reads := checkReading w id }) := by
  obtain ⟨item, hget⟩ := h.run_getBidItemManaged env
  exact ⟨item, by rw [proxyGetBidItem, run_transactional, hget]⟩

/-- A lot that waits is loaded. -/
theorem Uncached.run_getBidItemManaged (env : Env) {lot : BidSequence}
    (hfresh : Uncached w.redis lot.bidItemId) (hzero : lot.bidItemId ≠ 0)
    (hload : CommonDao.Loadable w.db lot.bidItemId)
    (hseq : InSequence w.redis lot.bidItemId lot.bidspan lot.sequenceId) :
    ∃ item w', run (handle env) (getBidItemManaged lot.bidItemId) w = (.ok (some item), w') ∧
      .long lot.bidItemId ∈ w'.redis.sets .bidItems := by
  obtain ⟨item, r, db, n, t, hrun, -, -, hopen⟩ := run_loadBidItem env w hload hseq
  obtain ⟨row, loaded, hloaded, rfl⟩ := hopen.loaded
  refine ⟨_, _, run_getBidItemManaged_miss (run_getBidItem_absent env w hfresh.absent) hzero hrun
    hloaded.bidItemId, ?_⟩
  simp only [hopen.stored.bidItems]
  exact List.mem_insert_self

end Requests

/-! ## Bids -/

section Bids

variable {env : Env} {w : World} (hengine : ItemEngine env) (request : BidRequest)

include hengine

/-- The engine changes the item of the bid. -/
theorem onlyItem_engineBid (bid : BidCall) (w : World) :
    OnlyItem bid.bidItemId w
      (run (handle env) (perform (.engineBid bid) .ok : Act Unit) w).2 := by
  have hitems : Store.SameAt .bidItems (env.engine w.auctioneer bid (env.times w 0) w.redis)
      w.redis := hengine.same _ _ _ _ _ (fun h => h)
  refine ⟨rfl, fun k _ hk => hengine.same _ _ _ _ _ hk, ?_, ?_, OneRow.refl _ _⟩
  · exact fun t ht => hitems.sets.symm ▸ ht
  · exact fun t ht => .inl (hitems.sets ▸ ht)

/-- The service for a bid changes its item only. -/
theorem onlyItem_serviceDoBid (id : ℤ) (w : World) :
    OnlyItem id w (run (handle env) (serviceDoBid id request) w).2 := by
  refine onlyItem_transactional env w ?_
  have hget := onlyItem_getBidItemManaged env w id
  refine run_bind_rule (Q := fun out => OnlyItem id w out.2) (fun e t ht => ?_)
    fun item t ht => ?_
  · rw [ht] at hget
    exact hget
  · rw [ht] at hget
    -- without an item there is no call of the engine
    cases item with
    | none => exact hget
    | some item => exact hget.trans (onlyItem_engineBid hengine (bidCall id request item) t)

omit hengine in
/-- The answer to an auto-bid changes its item only. -/
theorem onlyItem_autoBidAnswer (env : Env) (w : World) (id : ℤ) :
    OnlyItem id w (run (handle env) (autoBidAnswer id) w).2 := by
  have hproxy : OnlyItem id w (run (handle env) (proxyGetBidItem id) w).2 :=
    onlyItem_transactional env w (onlyItem_getBidItemManaged env w id)
  refine run_bind_rule (Q := fun out => OnlyItem id w out.2) (fun e t ht => ?_)
    fun item t ht => ?_
  · rw [ht] at hproxy
    exact hproxy
  · rw [ht] at hproxy
    cases item <;> exact hproxy

omit hengine in
/-- The engine gets a bid on an item that was found. -/
theorem run_serviceDoBid {id : ℤ} {item : BidItem} {w' : World}
    (hget : run (handle env) (getBidItemManaged id) w = (.ok (some item), w')) :
    ∃ d w'', run (handle env) (serviceDoBid id request) w = (.ok (), w'') ∧
      w''.redis = env.engine w'.auctioneer (bidCall id request item) d w'.redis ∧
      w''.db = w'.db := by
  refine ⟨env.times w' 0, { w' with
    redis := env.engine w'.auctioneer (bidCall id request item) (env.times w' 0) w'.redis
    reads := w'.reads + 1 }, ?_, rfl, rfl⟩
  unfold serviceDoBid
  rw [run_transactional, run_bind_ok hget]
  rfl

/-- A bid on an item that the cache has leaves it there and does not touch the tables. -/
theorem Cached.serviceDoBid {id : ℤ} (h : Cached w.redis id) :
    Cached (run (handle env) (serviceDoBid id request) w).2.redis id ∧
      (run (handle env) (serviceDoBid id request) w).2.db = w.db := by
  obtain ⟨item, hget⟩ := h.run_getBidItemManaged env
  obtain ⟨d, w', hservice, hredis, hdb⟩ := run_serviceDoBid request hget
  rw [hservice]
  refine ⟨?_, hdb⟩
  rw [hredis]
  exact hengine.cached _ (bidCall id request item) _ _ h

omit hengine in
/-- The answer to an auto-bid on a cached item changes nothing. -/
theorem Cached.autoBidAnswer (env : Env) {id : ℤ} (h : Cached w.redis id) :
    Cached (run (handle env) (autoBidAnswer id) w).2.redis id ∧
      (run (handle env) (autoBidAnswer id) w).2.db = w.db := by
  obtain ⟨item, hproxy⟩ := h.run_proxyGetBidItem env w
  unfold BidderController.autoBidAnswer
  rw [run_bind_ok hproxy]
  exact ⟨h, rfl⟩

/-! ### Bids in a sale -/

/-- The items that a bid fetches: the service takes the low 32 bits of the id, the answer to
    an auto-bid all of it. -/
def fetched (request : BidRequest) : List ℤ :=
  toInt32 request.bidItemId :: if request.bidType = 2 then [request.bidItemId] else []

omit hengine in
/-- What holds of a bid that ended with an exception and of one that was answered. -/
theorem doBid_rule {Q : World → Prop}
    (hservice : Q (run (handle env) (serviceDoBid (toInt32 request.bidItemId) request) w).2)
    (hanswer : request.bidType = 2 → ∀ t, Q t →
      Q (run (handle env) (autoBidAnswer request.bidItemId) t).2) :
    Q (run (handle env) (doBid request) w).2 := by
  unfold doBid
  refine run_bind_rule (Q := fun out => Q out.2) (fun e t ht => ?_) fun _ t ht => ?_
  · rw [ht] at hservice
    exact hservice
  · rw [ht] at hservice
    -- only an auto-bid is answered with its item
    split
    · rename_i htype
      exact hanswer htype t hservice
    · exact hservice

section Sale

variable {s : Sale BidSequence}

/-- A bid does not change the keys of the sale. -/
theorem sameAt_doBid (w : World) {k : Key} (hk : SaleKey k) :
    Store.SameAt k (run (handle env) (BidderController.doBid request) w).2.redis w.redis :=
  doBid_rule (Q := fun t => Store.SameAt k t.redis w.redis) request
    ((onlyItem_serviceDoBid hengine request _ w).saleKey hk)
    fun _ t ht => ((onlyItem_autoBidAnswer env t _).saleKey hk).trans ht

/-- A bid that fetches no item that waits leaves the sale as it is. -/
theorem Refines.bid (h : Refines s w)
    (hwaiting : ∀ lot ∈ s.waiting, lot.bidItemId ∉ fetched request) :
    Refines s (run (handle env) (BidderController.doBid request) w).2 := by
  refine doBid_rule (Q := Refines s) request ?_ fun htype t ht => ?_
  · refine (onlyItem_serviceDoBid hengine request _ w).refines h (fun lot hlot hid => ?_)
      fun hcached => Cached.serviceDoBid hengine request hcached
    exact hwaiting lot hlot (hid ▸ List.mem_cons_self)
  · refine (onlyItem_autoBidAnswer env t _).refines ht (fun lot hlot hid => ?_)
      fun hcached => Cached.autoBidAnswer env hcached
    exact hwaiting lot hlot (by simp [fetched, htype, hid])

/-- A bid that the service takes for an item that waits puts it into the cache. -/
theorem Refines.bid_pending (h : Refines s w) (hwf : WellFormed s.lots) {lot : BidSequence}
    (hlot : lot ∈ s.waiting) (hid : lot.bidItemId = toInt32 request.bidItemId) :
    .long lot.bidItemId ∈
      (run (handle env) (BidderController.doBid request) w).2.redis.sets .bidItems := by
  have hlots := Sale.mem_lots_of_waiting hlot
  obtain ⟨item, w', hget, hmem⟩ := (h.pending lot hlot).run_getBidItemManaged env
    (hwf.ne_zero lot hlots) (h.data.loadable lot hlots) (h.data.inSequence lot hlots)
  refine doBid_rule (Q := fun t => .long lot.bidItemId ∈ t.redis.sets .bidItems) request ?_
    fun _ t ht => (onlyItem_autoBidAnswer env t request.bidItemId).kept _ ht
  obtain ⟨d, w'', hservice, hredis, -⟩ := run_serviceDoBid request hget
  -- the engine takes no item out of the cache
  have hitems : Store.SameAt .bidItems w''.redis w'.redis := by
    rw [hredis]
    exact hengine.same _ _ _ _ _ (fun h => h)
  rw [← hid, hservice, hitems.sets]
  exact hmem

end Sale

end Bids

/-! ## Page views -/

/-- The pages of a bidder. -/
inductive Page where
  | marketList
  | activeMarket
  | closedMarket

/-- Serve a page. -/
def Page.serve : Page → Act Unit
  | .marketList => BidderController.marketList
  | .activeMarket => BidderController.activeMarket
  | .closedMarket => BidderController.closedMarket

theorem within_getCategoryList {fp : Footprint} : Within fp BidderController.getCategoryList := by
  refine issues_bind (within_guarded (within_get _)) fun id => ?_
  cases id with
  | none => exact issues_pure _
  | some id => exact issues_bind (issues_ofExcept _) fun _ => issues_pure _

/-- The place of the item on sale is read from the cache. -/
theorem within_activeItemDetails {fp : Footprint} : Within fp activeItemDetails := by
  refine issues_bind within_getActiveBidItemId fun id =>
    issues_bind (within_getBidItemSequenceDetails id) fun details => ?_
  cases details with
  | none => exact issues_throw _
  | some details =>
    exact issues_bind (issues_ofExcept _) fun _ => issues_bind (issues_ofExcept _) fun _ =>
      issues_pure _

/-- A method that only reads when it runs in the world `w`. -/
def OnlyReads (env : Env) (w : World) {α : Type} (p : Act α) : Prop :=
  ∀ k, ∃ n, (run (handle env) p { w with reads := k }).2 = { w with reads := n }

section Pages

variable {env : Env} {s : Sale BidSequence} {w : World}

theorem Within.onlyReads {α : Type} {p : Act α} (hp : Within readOnly p) : OnlyReads env w p :=
  fun k => (hp.run_readOnly env { w with reads := k }).imp' _ fun _ hn => hn

/-- Methods that only read, one after the other. -/
theorem OnlyReads.bind {α β : Type} {p : Act α} {f : α → Act β} (hp : OnlyReads env w p)
    (hf : ∀ a, OnlyReads env w (f a)) : OnlyReads env w (p >>= f) := by
  intro k
  obtain ⟨n, hn⟩ := hp k
  refine run_bind_rule (Q := fun out => ∃ n, out.2 = { w with reads := n }) (fun e t ht => ?_)
    fun a t ht => ?_
  · rw [ht] at hn
    exact ⟨n, hn⟩
  · rw [ht] at hn
    obtain rfl : t = { w with reads := n } := hn
    exact hf a n

/-- What a page does once it knows how far the sequence is. -/
theorem onlyReads_isEndSequence {α : Type} {f : EndSequence → Act α}
    (hf : OnlyReads env w (f (endSequence w.redis))) : OnlyReads env w (isEndSequence >>= f) := by
  intro k
  rw [run_bind_ok (run_isEndSequence env _)]
  exact hf k

/-- In a sale the item that a page shows is the one on offer, which the cache has. -/
theorem Refines.run_activeBidItem (env : Env) (h : Refines s w)
    (hend : endSequence w.redis = .isFalse) :
    ∃ item, run (handle env) activeBidItem w =
      (.ok (some item), { w with reads := checkReading w (activeId w.redis) }) := by
  -- a sequence that is not over has a lot on offer
  obtain ⟨lot, hcurrent⟩ : ∃ lot, s.current = some lot := by
    cases hcurrent : s.current with
    | some lot => exact ⟨lot, rfl⟩
    | none =>
      have hactive := h.active
      rw [hcurrent] at hactive
      cases hstarted : s.started <;>
        simp [hstarted, endSequence, hactive, activeText] at hend
  have hcached := h.opened lot (Sale.mem_opened_of_current hcurrent)
  rw [← h.activeId_eq hcurrent] at hcached
  obtain ⟨item, hproxy⟩ := hcached.run_proxyGetBidItem env w
  exact ⟨item, (run_bind_ok (run_getActiveBidItemId env w)).trans hproxy⟩

theorem Refines.onlyReads_activeBidItem (h : Refines s w)
    (hend : endSequence w.redis = .isFalse) : OnlyReads env w activeBidItem := by
  intro k
  obtain ⟨item, hrun⟩ := (h.of_reads k).run_activeBidItem env hend
  exact ⟨_, congrArg Prod.snd hrun⟩

/-- A page view in a sale only reads. -/
theorem Refines.page (env : Env) (h : Refines s w) (p : Page) : OnlyReads env w p.serve := by
  have hcategories : OnlyReads env w BidderController.getCategoryList :=
    Within.onlyReads within_getCategoryList
  have hdetails : OnlyReads env w activeItemDetails := Within.onlyReads within_activeItemDetails
  have hleft : ∀ item, OnlyReads env w (getTimeLeft item) :=
    fun item => Within.onlyReads (within_getTimeLeft item)
  cases p with
  | marketList =>
    refine hcategories.bind fun _ => onlyReads_isEndSequence ?_
    cases hend : endSequence w.redis with
    | null => exact hcategories
    | isTrue => exact Within.onlyReads (issues_pure _)
    -- the item on sale is in the cache, so that the page loads nothing
    | isFalse =>
      refine hdetails.bind fun _ => (h.onlyReads_activeBidItem hend).bind fun item => ?_
      cases item with
      | none => exact Within.onlyReads (issues_throw _)
      | some item =>
        exact (hleft item).bind fun _ => (hleft item).bind fun _ =>
          Within.onlyReads (issues_pure _)
  | activeMarket =>
    refine hcategories.bind fun _ => onlyReads_isEndSequence ?_
    cases hend : endSequence w.redis with
    | null => exact Within.onlyReads (issues_pure _)
    | isTrue => exact Within.onlyReads (issues_pure _)
    | isFalse =>
      exact (h.onlyReads_activeBidItem hend).bind fun _ => Within.onlyReads (issues_pure _)
  | closedMarket =>
    refine hcategories.bind fun _ => onlyReads_isEndSequence ?_
    cases endSequence w.redis with
    | null => exact Within.onlyReads (issues_pure _)
    | isTrue => exact hcategories
    | isFalse => exact hdetails

end Pages

end Bidding.Model
