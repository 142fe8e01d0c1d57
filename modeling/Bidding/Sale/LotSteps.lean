import Bidding.Sale.LotLedger

/-!
# What Happens to a Closed Lot

Every method that a tick, a request or a notification runs, started in a sound world, ends in
a sound world, and spares the lot `x` if that was closed. Only an extension that names `x`
itself does not.

## Key Results

- **`advances_tick`**: the timer's task.
- **`progress_extend`**: an extension, on conditions.
- **`advances_update`**, **`advances_page`**, **`advances_doBid`**: notifications, page views
  and bids.
-/

namespace Bidding.Model

open Bidding.Effects Bidding.Effects.Action Bidding.KeyValue
open RedisCacheService BidItemsCacheService BidderController

/-! ## Methods -/

/-- A method that makes progress in every sound world. -/
def Advances (env : Env) (x : ℤ) {α : Type} (p : Act α) : Prop :=
  ∀ w, Progress env x w (run (handle env) p w).2

section Methods

variable {env : Env} {x : ℤ} {α β : Type}

/-- A method whose first part makes progress, whatever follows. -/
theorem Progress.bind {w : World} {p : Act α} {f : α → Act β}
    (hp : Progress env x w (run (handle env) p w).2) (hf : ∀ a, Advances env x (f a)) :
    Progress env x w (run (handle env) (p >>= f) w).2 := by
  apply run_bind_rule (Q := fun out => Progress env x w out.2)
  · intro e t ht
    rw [ht] at hp
    exact hp
  · intro a t ht
    rw [ht] at hp
    exact hp.trans (hf a t)

theorem Advances.bind {p : Act α} {f : α → Act β} (hp : Advances env x p)
    (hf : ∀ a, Advances env x (f a)) : Advances env x (p >>= f) :=
  fun w => (hp w).bind hf

/-- A `try` advances as its body does, since a write is not undone by an exception. -/
theorem Advances.attempt {p : Act α} (hp : Advances env x p) : Advances env x (attempt p) := by
  intro w
  rw [run_attempt]
  exact hp w

/-- A rollback puts the tables back, and leaves the cache alone. -/
theorem Advances.transactional {p : Act α} (hp : Advances env x p) :
    Advances env x (transactional p) := by
  intro w
  have hbody := hp w
  rw [run_transactional]
  rcases hrun : run (handle env) p w with ⟨e | a, t⟩
  · rw [hrun] at hbody
    apply hbody.trans
    exact Progress.of_sameAt (fun k => Store.SameAt.refl k _) le_rfl
  · rw [hrun] at hbody
    exact hbody

/-- A method that writes no key makes progress. -/
theorem Within.advances {fp : Footprint} (hfp : ∀ k, ¬ fp.keys k) {p : Act α} (hp : Within fp p) :
    Advances env x p := fun w =>
  Progress.of_sameAt (fun k => hp.sameAt env w (hfp k)) (reads_le_run env w p)

theorem advances_readOnly {p : Act α} (hp : Within readOnly p) : Advances env x p :=
  hp.advances fun _ hk => hk

theorem advances_pure (a : α) : Advances env x (pure a : Act α) :=
  advances_readOnly (issues_pure a)

theorem advances_throw (e : Exn) : Advances env x (Action.throw e : Act α) :=
  advances_readOnly (issues_throw e)

end Methods

/-! ## Fetching an item -/

section Fetch

variable {env : Env} {x id : ℤ} {w : World}

/-- A closed lot is in the cache. -/
theorem Sound.member (h : Sound env x w) (hx : x ≠ 0)
    (hclosed : .long x ∈ w.redis.sets .expiredBidItems) : .long x ∈ w.redis.sets .bidItems :=
  (h.tidy.expired x hx hclosed).2

/-- There is no item `0`. -/
theorem Sound.ne_zero (h : Sound env x w) (hmem : .long id ∈ w.redis.sets .bidItems) :
    id ≠ 0 := by
  intro hid
  rw [hid] at hmem
  exact h.tidy.zero hmem

/-- An item that was loaded into an empty place is whole. -/
theorem LoadedAt.whole {item : BidItem} {t : ℕ} {r r' : Redis} {s : ℤ}
    (h : LoadedAt env id item t r r') (hout : .long id ∉ r.sets .bidItems)
    (habsent : RedisCacheService.Absent r id) (hs : secondOf (env.clock t) ≤ s) :
    Whole r' id s := by
  obtain ⟨loaded, span, seqId, rfl⟩ := h.opened
  have hcomplete : Complete r' id :=
    complete_of_stored h.stored h.bidders habsent h.bidItemId rfl
  refine ⟨fun _ => hcomplete, fun _ => ?_, fun hmiss => absurd hcomplete.member hmiss⟩
  exact ⟨_, _, _, CachedTimes.of_stored h.stored ⟨hout, habsent.hash⟩ rfl rfl, .inr hs⟩

/-- A load for which the cache has no room does not happen; any other one is whole. -/
theorem progress_loadBidItem (hx : x ≠ 0) (hid : id ≠ 0)
    (hout : .long id ∉ w.redis.sets .bidItems) :
    Progress env x w (run (handle env) (loadBidItem id) w).2 := by
  intro hw
  rcases run_loadBidItem_any env w id with
    ⟨e, db, n, hn, -, hload⟩ | ⟨item, t, r, db, n, ht, htn, hrow, hloaded, hload⟩
  · rw [hload]
    exact Progress.of_sameAt (fun k => Store.SameAt.refl k _) hn hw
  · rw [hload]
    have hfloor : secondOf (env.clock t) ≤ secondOf (env.clock n) :=
      secondOf_mono (env.clock_mono htn.le)
    have hc : ItemChange id w.redis r := (OnlyItem.of_stored hid hloaded.stored hrow n).itemChange
    apply Progress.of_itemChange hc (ht.trans htn.le) _ _ hw
    · intro _ _
      exact hloaded.whole hout ((hw.tidy.whole id hid).absent hout) hfloor
    · intro _ heq hclosed
      -- a closed lot is in the cache, so it is not loaded
      exact absurd (hw.member hx hclosed) (heq ▸ hout)

/-- Fetching an item that the cache does not have. -/
theorem progress_miss {α : Type} {g : BidItem → Act α} (hx : x ≠ 0) (hid : id ≠ 0)
    (hout : .long id ∉ w.redis.sets .bidItems) (hg : ∀ item, Advances env x (g item)) :
    Progress env x w (run (handle env) (loadBidItem id >>= g) w).2 :=
  (progress_loadBidItem hx hid hout).bind hg

/-- Fetching an item loads it, if at all, when the cache has none. -/
theorem advances_getBidItem (hx : x ≠ 0) (id : ℤ) :
    Advances env x (BidItemsCacheService.getBidItem id) := by
  intro w
  by_cases hmem : .long id ∈ w.redis.sets .bidItems
  · obtain ⟨item, n, hget⟩ := run_getBidItem_present env w hmem
    have hrun : run (handle env) (BidItemsCacheService.getBidItem id) w =
        (.ok (some item), { w with reads := w.reads + n }) := run_bind_ok hget
    rw [hrun]
    exact Progress.of_redis_eq rfl (Nat.le_add_right _ _)
  · -- the id `0` of the end is never loaded
    by_cases hid : id = 0
    · subst hid
      rw [run_getBidItem_zero env w hmem]
      exact Progress.of_redis_eq rfl le_rfl
    · rw [run_getBidItem_miss env w hmem hid]
      exact progress_miss hx hid hmem fun _ => advances_pure _

/-- The commit of a loaded item does not reach the cache. -/
def tablesOnly : Footprint where
  keys _ := False
  dao _ := True
  fields _ := True

theorem advances_tables {α : Type} {p : Act α} (hp : Within tablesOnly p) : Advances env x p :=
  hp.advances fun _ hk => hk

/-- The fetch in a transaction advances. -/
theorem advances_getBidItemManaged (hx : x ≠ 0) (id : ℤ) :
    Advances env x (getBidItemManaged id) := by
  intro w
  by_cases hmem : .long id ∈ w.redis.sets .bidItems
  · obtain ⟨item, n, hget⟩ := run_getBidItem_present env w hmem
    have hrun : run (handle env) (getBidItemManaged id) w =
        (.ok (some item), { w with reads := w.reads + n }) := run_bind_ok hget
    rw [hrun]
    exact Progress.of_redis_eq rfl (Nat.le_add_right _ _)
  · unfold getBidItemManaged
    rw [run_bind_ok (run_getBidItem_absent env w hmem)]
    by_cases hid : id = 0
    · simp only [hid, if_true]
      exact Progress.of_redis_eq rfl le_rfl
    · simp only [hid, if_false]
      apply progress_miss hx hid hmem
      intro item
      have hflush : Within tablesOnly (Dao.flush item) := within_dao trivial
      exact (advances_tables hflush).bind fun _ => advances_pure _

theorem advances_proxyGetBidItem (hx : x ≠ 0) (id : ℤ) : Advances env x (proxyGetBidItem id) :=
  (advances_getBidItemManaged hx id).transactional

end Fetch

/-! ## Ticks -/

section Tick

variable {env : Env} {x : ℤ} {w : World}

/-- An item without time left leaves room for its extension, unless its last update is in the
    future. -/
theorem room_of_countdown {E U X t s : ℤ} (hlate : U + X ≤ E ∨ U ≤ t)
    (hover : countdown E U X t ≤ 0) (hts : t ≤ s) : U + X ≤ s := by
  unfold countdown at hover
  split at hover
  · omega
  · split at hover <;> omega

theorem toSeconds_eq_secondOf {d : Date} (h : 0 ≤ d) : toSeconds d = secondOf d := by
  simp only [toSeconds, secondOf]
  exact Int.tdiv_eq_ediv_of_nonneg h

theorem Env.clock_nonneg (hclock : 0 ≤ env.clock 0) (n : ℕ) : 0 ≤ env.clock n :=
  le_trans hclock (env.clock_mono (Nat.zero_le n))

/-- A lot that leaves can be cleaned. -/
theorem progress_cleanBidItem (hx : x ≠ 0) {id : ℤ}
    (hleaving : Sound env x w → id ≠ 0 → Leaving w.redis id (env.floor w)) :
    Progress env x w (run (handle env) (cleanBidItem id) w).2 := by
  have hclose : Progress env x w (run (handle env) (setExpiredBidItem id) w).2 := by
    rw [run_setExpiredBidItem]
    exact Progress.close hx rfl (Nat.le_succ _) hleaving
  apply hclose.bind
  intro _
  have hrest : Within tablesOnly (do
      let bidItem ← RedisCacheService.getBidItem id
      Dao.updateBidItem bidItem) :=
    issues_bind (RedisCacheService.within_getBidItem id) fun _ => within_dao trivial
  exact advances_tables hrest

/-- At the end the active id is `0`. -/
theorem activeId_of_end {r : Redis} (hend : endSequence r = .isTrue) : activeId r = 0 := by
  have htext : r.strings .activeBidItemId = some (.long 0) := by
    unfold endSequence at hend
    cases hactive : r.strings .activeBidItemId with
    | none => simp [hactive] at hend
    | some t => simpa [hactive] using hend
  simp [activeId, htext]

/-- Without an active item there is nothing to close. -/
theorem progress_endOfSequence (hx : x ≠ 0) (hend : endSequence w.redis = .isTrue) :
    Progress env x w (run (handle env) endOfSequence w).2 := by
  let w₁ : World := { w with
    db := CommonDao.setAuctionEndTime w.db w.auctionId (env.clock w.reads)
      (env.clock (w.reads + 1))
    reads := w.reads + 2
    endTimesSet := w.auctionId :: w.endTimesSet }
  have hzero : activeId w₁.redis = 0 := activeId_of_end hend
  have hrun : run (handle env) endOfSequence w =
      run (handle env) (cleanBidItem (activeId w₁.redis) >>= fun _ => pure 0) w₁ :=
    run_bind_ok (run_getActiveBidItemId env w₁)
  -- the id that is cleaned is `0`, which names no lot
  have hclean : Progress env x w₁ (run (handle env) (cleanBidItem (activeId w₁.redis)) w₁).2 := by
    rw [hzero]
    exact progress_cleanBidItem hx fun _ hne => absurd rfl hne
  have htables : Progress env x w w₁ := Progress.of_redis_eq rfl (Nat.le_add_right _ _)
  rw [hrun]
  exact htables.trans (hclean.bind fun _ => advances_pure _)

/-- The span of an item that was fetched. -/
theorem advances_spanOr {onNone : Act ℤ} (h : Advances env x onNone) (item : Option BidItem) :
    Advances env x (spanOr onNone item) := by
  cases item with
  | none => exact h
  | some item => exact advances_pure _

/-- The end of a tick that has popped the queue. -/
theorem advances_openActive (hx : x ≠ 0) {onNone : Act ℤ} (h : Advances env x onNone) :
    Advances env x (getActiveBidItemId >>= fun id =>
      BidItemsCacheService.getBidItem id >>= spanOr onNone) := by
  apply (advances_readOnly within_getActiveBidItemId).bind
  intro id
  exact (advances_getBidItem hx id).bind (advances_spanOr h)

/-- The first tick advances. -/
theorem advances_startOfSequence (hx : x ≠ 0) : Advances env x startOfSequence := by
  intro w
  let w₁ : World := { w with startFlag := false, redis := popActive w.redis }
  have hrun : run (handle env) startOfSequence w = run (handle env) (getActiveBidItemId >>=
      fun id => BidItemsCacheService.getBidItem id >>= spanOr (Action.throw .nullPointer)) w₁ := by
    unfold startOfSequence
    refine (run_bind_ok (run_setStartFlag env w false)).trans ?_
    exact run_bind_ok (run_setActiveBidItemId env _)
  have hpop : Progress env x w w₁ := Progress.pop rfl le_rfl
  rw [hrun]
  exact hpop.trans (advances_openActive hx (advances_throw _) w₁)

/-- An active id other than `0` is the text of the cache. -/
theorem strings_of_activeId {r : Redis} (h : activeId r ≠ 0) :
    r.strings .activeBidItemId = some (.long (activeId r)) := by
  unfold activeId at h ⊢
  cases hactive : r.strings .activeBidItemId with
  | none =>
    rw [hactive] at h
    exact absurd rfl h
  | some t =>
    rw [hactive] at h
    cases t with
    | long n => rfl
    | _ => exact absurd rfl h

/-- The active item leaves when the next one becomes active, if its time was over at an earlier
    clock reading. -/
theorem Sound.leaving (hw : Sound env x w) (hclock : 0 ≤ env.clock 0)
    (hmem : .long (activeId w.redis) ∈ w.redis.sets .bidItems) {E U X : ℤ} {m n : ℕ}
    (htimes : CachedTimes w.redis (activeId w.redis) E U X) (hm : w.reads ≤ m) (hmn : m ≤ n)
    (hover : countdown E U X (toSeconds (env.clock m)) ≤ 0) :
    Leaving (popActive w.redis) (activeId w.redis) (secondOf (env.clock n)) := by
  have hne := hw.ne_zero hmem
  have hactive := strings_of_activeId hne
  obtain ⟨hqueue, hopen⟩ := hw.tidy.active _ hne hactive
  have hsame : ∀ k, k ≠ .bidItemSequenceIds → k ≠ .activeBidItemId →
      Store.SameAt k (popActive w.redis) w.redis := fun k => sameAt_popActive w.redis
  -- an item in the cache is settled: its last update is not in the future
  have hlate : U + X ≤ E ∨ U ≤ toSeconds (env.clock m) := by
    obtain ⟨E', U', X', htimes', hlate⟩ := (hw.tidy.whole _ hne).settled hmem
    obtain ⟨rfl, rfl, rfl⟩ := htimes.unique htimes'
    exact hlate.imp_right fun hU => hU.trans (secondOf_le_toSeconds (env.clock_mono hm))
  have hsecond : toSeconds (env.clock m) ≤ secondOf (env.clock n) := by
    rw [toSeconds_eq_secondOf (Env.clock_nonneg hclock m)]
    exact secondOf_mono (env.clock_mono hmn)
  refine ⟨?_, ?_, ?_, ?_, ?_⟩
  · rw [(hsame .bidItems (by simp) (by simp)).sets]
    exact hmem
  · rw [popActive, (Store.sameAt_set _ (by simp) _).lists, Store.lists_rpop]
    exact fun hin => hqueue (List.dropLast_subset _ hin)
  · -- the next active item comes from the queue, or is `0`
    rw [popActive, Store.strings_set]
    intro heq
    have hnext : nextActive w.redis = .long (activeId w.redis) := Option.some.inj heq
    exact hqueue (List.mem_of_getLast? (getLast?_of_nextActive hne hnext))
  · rw [(hsame .expiredBidItems (by simp) (by simp)).sets]
    exact hopen
  · -- the pop does not write the item, so its times are those of the test
    intro E' U' X' htimes'
    have hback := htimes'.of_sameAt (hsame (.bidItem (activeId w.redis)) (by simp) (by simp)).symm
    obtain ⟨rfl, rfl, rfl⟩ := htimes.unique hback
    exact room_of_countdown hlate hover hsecond

/-- The rest of a tick that has handed the sale over from a lot. -/
def closeAndOpen (id : ℤ) : Act ℤ :=
  cleanBidItem id >>= fun _ => getActiveBidItemId >>= fun next =>
    BidItemsCacheService.getBidItem next >>= spanOr (pure 0)

/-- A tick during the sale changes nothing but the clock readings, or it hands the sale over from
    a lot that can be closed. -/
theorem Sound.run_nextOfSequence (hw : Sound env x w) (hclock : 0 ≤ env.clock 0) :
    (∃ n, w.reads ≤ n ∧ (run (handle env) nextOfSequence w).2 = { w with reads := n }) ∨
      ∃ n, w.reads ≤ n ∧ Leaving (popActive w.redis) (activeId w.redis) (secondOf (env.clock n)) ∧
        run (handle env) nextOfSequence w = run (handle env) (closeAndOpen (activeId w.redis))
          { w with redis := popActive w.redis, reads := n } := by
  by_cases hmem : .long (activeId w.redis) ∈ w.redis.sets .bidItems
  · obtain ⟨item, E, U, X, hget, htimes, hE, hU, hX⟩ :=
      ((hw.tidy.whole _ (hw.ne_zero hmem)).cached hmem).run_getBidItem env
    let m := checkReading w (activeId w.redis)
    let w₁ : World := { w with reads := m + 1 }
    have hm : w.reads ≤ m := Nat.le_add_right _ _
    have hleft := run_getTimeLeft env { w with reads := m } hE hU hX
    have hrun : run (handle env) nextOfSequence w = run (handle env)
        (if countdown E U X (toSeconds (env.clock m)) > 0 then do
          let _ ← getTimeLeft item
          getTimeLeft item
        else handOver (activeId w.redis)) w₁ := by
      unfold nextOfSequence
      refine (run_bind_ok (run_getActiveBidItemId env w)).trans ?_
      refine (run_bind_ok hget).trans ?_
      exact run_bind_ok hleft
    rw [hrun]
    by_cases hover : countdown E U X (toSeconds (env.clock m)) > 0
    · -- the lot is still on sale, and its time left is only read again
      rw [if_pos hover]
      have hagain : Within readOnly (do
          let _ ← getTimeLeft item
          getTimeLeft item) :=
        issues_bind (within_getTimeLeft item) fun _ => within_getTimeLeft item
      obtain ⟨n, hread⟩ := hagain.run_readOnly env w₁
      exact .inl ⟨m + 1 + n, hm.trans (by omega), hread⟩
    · -- the pop comes first, then the old item is closed
      rw [if_neg hover]
      refine .inr ⟨m + 1, hm.trans (Nat.le_succ m), ?_, ?_⟩
      · exact hw.leaving hclock hmem htimes hm (Nat.le_succ m) (not_lt.mp hover)
      · unfold handOver
        exact run_bind_ok (run_setActiveBidItemId env w₁)
  · -- without an item to close the tick does nothing
    have hrun : run (handle env) nextOfSequence w = (.ok 0, w) := by
      unfold nextOfSequence
      refine (run_bind_ok (run_getActiveBidItemId env w)).trans ?_
      exact run_bind_ok (run_getBidItem_absent env w hmem)
    exact .inl ⟨w.reads, le_rfl, by rw [hrun]⟩

/-- A tick during the sale advances. -/
theorem advances_nextOfSequence (hx : x ≠ 0) (hclock : 0 ≤ env.clock 0) :
    Advances env x nextOfSequence := by
  intro w hw
  rcases hw.run_nextOfSequence hclock with ⟨n, hn, hrun⟩ | ⟨n, hn, hleaving, hrun⟩
  · rw [hrun]
    exact Progress.of_redis_eq rfl hn hw
  · rw [hrun]
    have hpop : Progress env x w { w with redis := popActive w.redis, reads := n } :=
      Progress.pop rfl hn
    -- the lot has left the active key by the pop that comes first
    have hclean : Progress env x { w with redis := popActive w.redis, reads := n } (run (handle env)
        (cleanBidItem (activeId w.redis)) { w with redis := popActive w.redis, reads := n }).2 :=
      progress_cleanBidItem hx fun _ _ => hleaving
    exact hpop.trans (hclean.bind fun _ => advances_openActive hx (advances_pure 0)) hw

/-- Every tick advances. -/
theorem advances_tick (hx : x ≠ 0) (hclock : 0 ≤ env.clock 0) : Advances env x timerTask := by
  have hnext : Advances env x setNextBidItem := by
    intro w
    unfold setNextBidItem
    rw [run_bind_ok (run_isEndSequence env w)]
    by_cases hend : endSequence w.redis = .isTrue
    · rw [if_pos hend]
      exact progress_endOfSequence hx hend
    · rw [if_neg hend, run_bind_ok (run_getStartFlag env w)]
      cases w.startFlag with
      | true => exact advances_startOfSequence hx w
      | false => exact advances_nextOfSequence hx hclock w
  apply hnext.attempt.bind
  intro result
  cases result with
  | error e => exact advances_pure _
  | ok span => exact advances_pure _

end Tick

/-! ## Extensions -/

section Extensions

variable {env : Env} {x : ℤ} {w : World}

/-- New dates, with room for the extension after the last update. -/
theorem Whole.with_dates {r : Redis} {id s : ℤ} (h : Whole r id s)
    (hmem : .long id ∈ r.sets .bidItems) {X : ℤ}
    (hX : r.hashes (.bidItem id) .timeExtAfterBid = some (.long X)) {e u : Date}
    (hroom : secondOf u + X ≤ secondOf e) (s' : ℤ) : Whole (setDates r id e u) id s' := by
  obtain ⟨E, U, X', htimes, -⟩ := h.settled hmem
  -- the span after a bid is not written
  obtain rfl : X' = X := by
    have hsome := htimes.timeExtAfterBid.symm.trans hX
    exact Text.long.inj (Option.some.inj hsome)
  have hcomplete : Complete (setDates r id e u) id :=
    ((h.complete hmem).hset (by simp) (fits_bidEndTime e)).hset (by simp) (fits_lastUpDateTime u)
  refine ⟨fun _ => hcomplete, fun _ => ?_, fun hout => absurd hcomplete.member hout⟩
  exact ⟨_, _, X', cachedTimes_setDates htimes e u, .inl hroom⟩

/-- An extension of another item, or of a lot that is not closed. The last update is put so far
    before the new end that there is room for the extension after a bid, unless that span and
    ten seconds more do not fit into an `int`. -/
theorem progress_extend (id extendTime : ℤ)
    (hspare : id = x → .long x ∉ w.redis.sets .expiredBidItems)
    (hfits : ∀ X, w.redis.hashes (.bidItem id) .timeExtAfterBid = some (.long X) →
      toInt32 (-(X + 10)) = -(X + 10)) :
    Progress env x w (run (handle env) (ObserverController.doExtendBidding id extendTime) w).2 := by
  intro hw
  by_cases hmem : .long id ∈ w.redis.sets .bidItems
  · have hwhole := hw.tidy.whole id (hw.ne_zero hmem)
    obtain ⟨E, U, X, htimes, hrun⟩ := (hwhole.cached hmem).run_doExtendBidding env extendTime
    rw [hrun]
    generalize extendedEnd env w id extendTime E U X = e
    -- the last update is computed back from the new end
    have hroom : secondOf (addSeconds e (toInt32 (-(X + 10)))) + X ≤ secondOf e := by
      rw [secondOf_addSeconds, hfits X htimes.timeExtAfterBid]
      omega
    have hc : ItemChange id w.redis
        (setDates w.redis id e (addSeconds e (toInt32 (-(X + 10))))) := by
      apply ItemChange.of_engineKeys
      intro k hk
      have hkey : k ≠ .bidItem id := by
        rintro rfl
        exact hk rfl
      exact (Store.sameAt_hset _ hkey _ _).trans (Store.sameAt_hset _ hkey _ _)
    apply Progress.of_itemChange hc _ _ _ hw
    · show w.reads ≤ w.reads + bidderCount w.redis id + 2
      omega
    · intro _ _
      exact hwhole.with_dates hmem htimes.timeExtAfterBid hroom _
    · intro _ heq hclosed
      exact absurd hclosed (hspare heq)
  · -- the item is not in the cache: the request ends with an exception, after one clock reading
    rw [run_doExtendBidding_absent env w hmem]
    exact Progress.of_redis_eq rfl (Nat.le_succ _) hw

end Extensions

/-! ## Notifications and page views -/

section Views

variable {env : Env} {x : ℤ}

/-- A notification about an item that the cache does not have: the item is loaded first. -/
theorem progress_update_miss {w : World} {id : ℤ} (hx : x ≠ 0)
    (hmem : .long id ∉ w.redis.sets .bidItems) (bidAmount : ℚ) :
    Progress env x w (run (handle env) (BidObserver.update id bidAmount) w).2 := by
  intro hw
  by_cases hid : id = 0
  · -- the id `0` is never loaded
    subst hid
    have hupdate : run (handle env) (BidObserver.update 0 bidAmount) w = (.ok (), w) :=
      run_bind_ok (run_attempt_of (run_bind_ok (run_getBidItem_zero env w hmem)))
    rw [hupdate]
    exact Progress.of_redis_eq rfl le_rfl hw
  have hmiss := run_getBidItem_miss env w hmem hid
  have hload : Progress env x w (run (handle env) (loadBidItem id) w).2 :=
    progress_loadBidItem hx hid hmem
  rcases run_loadBidItem_any env w id with
    ⟨e, db, n, -, -, hrun⟩ | ⟨item, t, r, db, n, -, htn, -, hloaded, hrun⟩
  · -- a failed load is caught, with nothing in the cache
    have hupdate : run (handle env) (BidObserver.update id bidAmount) w =
        (.ok (), { w with db := db, reads := n }) :=
      run_bind_ok (run_attempt_of (run_bind_error (hmiss.trans (run_bind_error hrun))))
    rw [hrun] at hload
    rw [hupdate]
    exact hload hw
  · -- the item that was loaded is complete, so storing it once more changes nothing
    let w₁ : World := { w with redis := r, db := db, reads := n }
    have hcomplete : Complete w₁.redis id := by
      have hwhole : Whole r id (secondOf (env.clock t)) :=
        hloaded.whole hmem ((hw.tidy.whole id hid).absent hmem) le_rfl
      apply hwhole.complete
      rw [hloaded.stored.bidItems]
      exact List.mem_insert_self
    have hnames : ∀ b ∈ item.currentBiddersList, ∀ name, nameText b = some name →
        name ∈ w₁.redis.sets (.bidders id) := by
      intro b hb name hname
      rw [hloaded.bidders.members]
      exact .inr ⟨b, (Collections.sort_perm _ _).mem_iff.mpr hb, hname⟩
    obtain ⟨r', m, hupdate, hsame⟩ := run_update_found (hmiss.trans (run_bind_ok hrun))
      hloaded.bidItemId hcomplete hnames bidAmount
    rw [hrun] at hload
    rw [hupdate]
    apply hload.trans _ hw
    exact Progress.of_sameItems hsame (Nat.le_add_right _ _)

/-- A notification advances, whether or not the cache has the item. -/
theorem advances_update (hx : x ≠ 0) (id : ℤ) (bidAmount : ℚ) :
    Advances env x (BidObserver.update id bidAmount) := by
  intro w hw
  by_cases hmem : .long id ∈ w.redis.sets .bidItems
  · have hcomplete := (hw.tidy.whole id (hw.ne_zero hmem)).complete hmem
    exact Progress.of_sameItems (sameItem_update hcomplete env bidAmount) (reads_le_run env w _) hw
  · exact progress_update_miss hx hmem bidAmount hw

theorem advances_activeBidItem (hx : x ≠ 0) : Advances env x activeBidItem :=
  (advances_readOnly within_getActiveBidItemId).bind fun id => advances_proxyGetBidItem hx id

theorem advances_getCategoryList : Advances env x BidderController.getCategoryList :=
  advances_readOnly within_getCategoryList

theorem advances_activeItemDetails : Advances env x activeItemDetails :=
  advances_readOnly within_activeItemDetails

theorem advances_getTimeLeft (item : BidItem) : Advances env x (getTimeLeft item) :=
  advances_readOnly (within_getTimeLeft item)

theorem advances_getAuctionId : Advances env x RedisCacheService.getAuctionId :=
  advances_readOnly (within_guarded (within_get _))

theorem advances_isEndSequence : Advances env x isEndSequence := by
  intro w
  rw [run_isEndSequence]
  exact Progress.of_redis_eq rfl le_rfl

theorem advances_ofExcept {α : Type} (r : Except Exn α) :
    Advances env x (ofExcept r : Act α) :=
  advances_readOnly (issues_ofExcept r)

/-- The pages of a bidder. -/
theorem advances_page (hx : x ≠ 0) (p : Page) : Advances env x p.serve := by
  cases p with
  | marketList =>
    apply advances_getCategoryList.bind
    intro _
    apply advances_isEndSequence.bind
    intro endSequence
    cases endSequence with
    | null => exact advances_getCategoryList
    | isTrue => exact advances_pure _
    -- the item on sale may be loaded by the page
    | isFalse =>
      apply advances_activeItemDetails.bind
      intro _
      apply (advances_activeBidItem hx).bind
      intro item
      cases item with
      | none => exact advances_throw _
      | some item =>
        exact (advances_getTimeLeft item).bind fun _ =>
          (advances_getTimeLeft item).bind fun _ => advances_pure _
  | activeMarket =>
    apply advances_getCategoryList.bind
    intro _
    apply advances_isEndSequence.bind
    intro endSequence
    cases endSequence with
    | null => exact advances_pure _
    | isTrue => exact advances_pure _
    | isFalse => exact (advances_activeBidItem hx).bind fun _ => advances_pure _
  | closedMarket =>
    apply advances_getCategoryList.bind
    intro _
    apply advances_isEndSequence.bind
    intro endSequence
    cases endSequence with
    | null => exact advances_pure _
    | isTrue => exact advances_getCategoryList
    | isFalse => exact advances_activeItemDetails

/-- Serve a page to the observer. -/
def Page.serveObserver : Page → Act Unit
  | .marketList => ObserverController.marketList
  | .activeMarket => ObserverController.activeMarket
  | .closedMarket => ObserverController.closedMarket

/-- The pages of the observer. -/
theorem advances_observerPage (hx : x ≠ 0) (p : Page) : Advances env x p.serveObserver := by
  cases p with
  | marketList =>
    apply advances_getCategoryList.bind
    intro _
    apply advances_isEndSequence.bind
    intro endSequence
    cases endSequence with
    | null =>
      apply advances_getAuctionId.bind
      intro id
      cases id with
      | none => exact advances_pure _
      | some id =>
        exact advances_getAuctionId.bind fun id =>
          (advances_ofExcept _).bind fun _ => advances_pure _
    | isTrue => exact advances_pure _
    | isFalse =>
      apply advances_activeItemDetails.bind
      intro _
      apply (advances_activeBidItem hx).bind
      intro item
      cases item with
      | none => exact advances_throw _
      | some item => exact (advances_getTimeLeft item).bind fun _ => advances_pure _
  | activeMarket =>
    exact advances_getCategoryList.bind fun _ =>
      (advances_activeBidItem hx).bind fun _ => advances_pure _
  | closedMarket =>
    apply advances_isEndSequence.bind
    intro endSequence
    cases endSequence with
    | null => exact advances_getCategoryList
    | isFalse => exact advances_activeItemDetails.bind fun _ => advances_getCategoryList
    | isTrue =>
      apply advances_getAuctionId.bind
      intro id
      cases id with
      | none => exact advances_pure _
      | some id => exact (advances_ofExcept _).bind fun _ => advances_getCategoryList

end Views

/-! ## Bids -/

/-- The engine, a library, works on the keys of the item of a bid. It does not write a closed
    item, and it leaves an item whole, at the time of the bid. -/
structure LotEngine (env : Env) : Prop where
  same : ∀ on bid d r k, ¬ EngineKey bid.bidItemId k → Store.SameAt k (env.engine on bid d r) r
  closed : ∀ on bid d r, .long bid.bidItemId ∈ r.sets .expiredBidItems →
    ∀ k, LotKey bid.bidItemId k → Store.SameAt k (env.engine on bid d r) r
  whole : ∀ on bid d r s, secondOf d ≤ s → Whole r bid.bidItemId s →
    Whole (env.engine on bid d r) bid.bidItemId s

/-- An engine that does nothing. -/
theorem lotEngine_idle (clock : ℕ → Date) (clock_mono : ∀ ⦃m n⦄, m ≤ n → clock m ≤ clock n) :
    LotEngine (Env.idle clock clock_mono) where
  same _ _ _ _ _ _ := Store.SameAt.refl _ _
  closed _ _ _ _ _ _ _ := Store.SameAt.refl _ _
  whole _ _ _ _ _ _ h := h

section Bids

variable {env : Env} {x : ℤ}

/-- A bid that reaches the engine changes its item, and a closed lot not at all. -/
theorem advances_engineBid (hengine : LotEngine env) (bid : BidCall) :
    Advances env x (perform (.engineBid bid) .ok : Act Unit) := by
  intro w hw
  let w' : World := { w with
    redis := env.engine w.auctioneer bid (env.times w 0) w.redis
    reads := w.reads + 1 }
  have hc : ItemChange bid.bidItemId w.redis w'.redis :=
    ItemChange.of_engineKeys fun k => hengine.same _ _ _ _ k
  have hfloor : secondOf (env.times w 0) ≤ secondOf (env.clock (w.reads + 1)) :=
    secondOf_mono (env.clock_mono (Nat.le_succ _))
  show Sound env x w' ∧ Spared x w.redis w'.redis
  apply Progress.of_itemChange hc (Nat.le_succ _) _ _ hw
  · intro _ hne
    apply hengine.whole _ _ _ _ _ hfloor
    exact (hw.tidy.whole _ hne).congr (fun _ _ => Store.SameAt.refl _ _) Iff.rfl hfloor
  · -- the engine refuses a bid on a closed lot
    intro _ heq hclosed
    subst heq
    exact hengine.closed _ _ _ _ hclosed

/-- A bid advances. -/
theorem advances_doBid (hx : x ≠ 0) (hengine : LotEngine env) (request : BidRequest) :
    Advances env x (BidderController.doBid request) := by
  have hservice : Advances env x (serviceDoBid (toInt32 request.bidItemId) request) := by
    apply Advances.transactional
    apply (advances_getBidItemManaged hx _).bind
    intro item
    cases item with
    | none => exact advances_throw _
    | some item => exact advances_engineBid hengine _
  apply hservice.bind
  intro _
  -- only an auto-bid is answered with the item
  split
  · apply (advances_proxyGetBidItem hx _).bind
    intro item
    cases item with
    | none => exact advances_throw _
    | some item => exact advances_pure _
  · exact advances_pure _

end Bids

end Bidding.Model
