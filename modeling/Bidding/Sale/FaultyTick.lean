import Bidding.Sale.FailingCalls
import Bidding.Sale.Scheduler

/-!
# A Hand-over in which a Command Fails

A hand-over pops the queue, closes the lot on offer, reads the active id again and opens the
lot that it names. A fault in one of these calls leaves the others as they are.

## Key Results

- **`fault_handOver_pop`**: without the pop the lot that was closed is fetched once more.
- **`fault_handOver_clean`**: a lot that could not be closed does not stop the next one, unless
  it is not found again.
- **`fault_handOver_openNext`**: the popped lot is the active one, whether or not it is opened.
-/

namespace Bidding.Model

open Bidding.Effects Bidding.Effects.Action Bidding.KeyValue
open RedisCacheService BidItemsCacheService

/-- The queue is popped, and the popped lot is the active one and can be opened. -/
structure SequencePopped (s : Sale BidSequence) (w : World) : Prop where
  queue : w.redis.lists .bidItemSequenceIds = (s.waiting.tail.map lotText).reverse
  active : w.redis.strings .activeBidItemId = some (activeText s.waiting.head?)
  zero : .long 0 ∉ w.redis.sets .bidItems
  unsold : ∀ lot, s.waiting.head? = some lot → lotText lot ∉ w.redis.sets .expiredBidItems
  openable : ∀ lot, s.waiting.head? = some lot → Openable lot w

/-- The end of a tick that has popped the queue: the popped lot is the active one, and is not
    sold. -/
structure Moved (s : Sale BidSequence) (w : World) : Prop where
  queue : w.redis.lists .bidItemSequenceIds = (s.waiting.tail.map lotText).reverse
  active : w.redis.strings .activeBidItemId = some (activeText s.waiting.head?)
  unsold : ∀ lot, s.waiting.head? = some lot → lotText lot ∉ w.redis.sets .expiredBidItems

/-- What comes out of a tick that has popped the queue: the span of the popped lot, or, if the
    tick is `spoiled`, nothing that keeps the timer alive. -/
structure Passes (s : Sale BidSequence) (w : World) (spoiled : Prop)
    (out : Except Exn ℤ × World) : Prop where
  moved : Moved s out.2
  reads : w.reads ≤ out.2.reads
  cancelled : spoiled → ∀ lot, s.waiting.head? = some lot → resultOutcome out.1 = .cancel
  result : ¬ spoiled → ∀ lot, s.waiting.head? = some lot → out.1 = .ok lot.bidspan

section HandOver

variable (env : Env) {s : Sale BidSequence} {w t : World} {lot : BidSequence} {k : ℕ}

theorem SaleKept.moved (h : SaleKept w t) (hw : SequencePopped s w) : Moved s t where
  queue := h.queue.trans hw.queue
  active := h.active.trans hw.active
  unsold lot hlot := by
    rw [h.expired]
    exact hw.unsold lot hlot

theorem SequencePopped.activeId_eq (h : SequencePopped s w)
    (hlot : s.waiting.head? = some lot) : activeId w.redis = lot.bidItemId := by
  simp [activeId, h.active, hlot, activeText, lotText]

theorem Passes.mono {spoiled : Prop} {out : Except Exn ℤ × World} (h : Passes s t spoiled out)
    (hreads : w.reads ≤ t.reads) : Passes s w spoiled out :=
  ⟨h.moved, hreads.trans h.reads, h.cancelled, h.result⟩

/-- The end of a tick, with a fault in it. -/
theorem SequencePopped.fault_openNext (h : SequencePopped s w) {r : Except Exn ℤ}
    (hmissing : resultOutcome r = .cancel) (k : ℕ) :
    Passes s w (k < 2 ∨ k = 2 ∨ k = 5 ∨ k = 6) (fault env (openNext r) k w) := by
  have hkept := (within_openNext r).fault_saleKept env k w
  refine ⟨hkept.moved h, hkept.reads, fun hspoiled lot hlot => ?_, fun hfine lot hlot => ?_⟩
  · -- the first two commands read the active id, without which item `0` is asked for
    rcases Nat.lt_or_ge k 2 with hk | hk
    · rw [fault_openNext_read env h.zero hk]
      exact hmissing
    · obtain ⟨j, rfl⟩ := Nat.exists_eq_add_of_le' hk
      have hopen := Model.fault_openNext env r (h.openable lot hlot) (h.activeId_eq hlot) j
      dsimp only at hopen
      rwa [if_pos (by omega)] at hopen
  · obtain ⟨j, rfl⟩ := Nat.exists_eq_add_of_le' (show 2 ≤ k by omega)
    have hopen := Model.fault_openNext env r (h.openable lot hlot) (h.activeId_eq hlot) j
    dsimp only at hopen
    rwa [if_neg (by omega)] at hopen

/-- The end of a tick without a fault: the fault is behind it. -/
theorem SequencePopped.run_openNext (h : SequencePopped s w) (missing : Except Exn ℤ)
    (hmissing : resultOutcome missing = .cancel) :
    Passes s w False (run (handle env) (openNext missing) w) := by
  let k := commands env (openNext missing) w + 7
  have hrun : fault env (openNext missing) k w = run (handle env) (openNext missing) w :=
    withFault_of_le (Nat.le_add_right _ _)
  have hpasses := h.fault_openNext env hmissing k
  rw [hrun] at hpasses
  exact ⟨hpasses.moved, hpasses.reads, fun h => h.elim, fun _ => hpasses.result (by omega)⟩

/-- A lot stays openable while its keys are left alone. -/
theorem Openable.of_sameAt (h : Openable lot w)
    (hsame : ∀ k, k = .bidItems ∨ k = .bidItem lot.bidItemId ∨ k = .bidSequence lot.bidItemId →
      Store.SameAt k t.redis w.redis)
    (hload : CommonDao.Loadable t.db lot.bidItemId) : Openable lot t where
  ne_zero := h.ne_zero
  fresh := by
    apply h.fresh.of_sameAt (hsame _ (.inr (.inl rfl)))
    rw [(hsame _ (.inl rfl)).sets]
    exact h.fresh.absent
  loadable := hload
  inSequence := by
    have hseq := hsame _ (.inr (.inr rfl))
    exact ⟨by rw [hseq.hashes, h.inSequence.bidSpan],
      by rw [hseq.hashes, h.inSequence.sequenceId]⟩

theorem Refines.openable (h : Refines s w) (hwf : WellFormed s.lots) (hlot : lot ∈ s.waiting) :
    Openable lot w where
  ne_zero := hwf.ne_zero lot (Sale.mem_lots_of_waiting hlot)
  fresh := h.pending lot hlot
  loadable := h.data.loadable lot (Sale.mem_lots_of_waiting hlot)
  inSequence := h.data.inSequence lot (Sale.mem_lots_of_waiting hlot)

/-- A waiting lot is not sold. -/
theorem Refines.waiting_unsold (h : Refines s w) (hwf : WellFormed s.lots)
    (hlot : lot ∈ s.waiting) : lotText lot ∉ w.redis.sets .expiredBidItems := by
  intro hmem
  rw [h.expired, List.mem_reverse] at hmem
  obtain ⟨lot', hsold, heq⟩ := List.mem_map.mp hmem
  have hopened : lot' ∈ s.opened := List.mem_append_left _ hsold
  exact Sale.opened_not_waiting hwf.nodup hopened hlot (Text.long.inj heq)

/-- The queue is popped. -/
theorem Refines.popped (h : Refines s w) (hwf : WellFormed s.lots) (b : Bool) :
    SequencePopped s { w with startFlag := b, redis := popActive w.redis } where
  queue := lists_popActive h.queue
  active := strings_popActive h.queue
  zero := by
    rw [(sameAt_popActive w.redis (k := .bidItems) (by simp) (by simp)).sets]
    exact h.data.zero
  unsold lot hlot := by
    rw [(sameAt_popActive w.redis (k := .expiredBidItems) (by simp) (by simp)).sets]
    exact h.waiting_unsold hwf (List.mem_of_mem_head? hlot)
  openable lot hlot := by
    -- the pop writes the queue and the active id only
    apply (h.openable hwf (List.mem_of_mem_head? hlot)).of_sameAt
    · intro k hk
      apply sameAt_popActive
      · rintro rfl
        simp at hk
      · rintro rfl
        simp at hk
    · exact h.data.loadable lot (Sale.mem_lots_of_waiting (List.mem_of_mem_head? hlot))

/-- Closing the lot on offer leaves the popped lot as it is. -/
theorem SequencePopped.cleaned (h : SequencePopped s w)
    (hne : ∀ lot', s.waiting.head? = some lot' → lot'.bidItemId ≠ lot.bidItemId)
    (hclean : Cleaned lot.bidItemId w t) : SequencePopped s t where
  queue := by rw [(hclean.same _ (by simp) (by simp)).lists, h.queue]
  active := by rw [(hclean.same _ (by simp) (by simp)).strings, h.active]
  zero := by
    rw [(hclean.same .bidItems (by simp) (by simp)).sets]
    exact h.zero
  unsold lot' hlot' hmem := by
    -- only the lot on offer was added to the expired ones
    rcases hclean.expired _ hmem with heq | hold
    · exact hne lot' hlot' (Text.long.inj heq)
    · exact h.unsold lot' hlot' hold
  openable lot' hlot' := by
    apply (h.openable lot' hlot').of_sameAt
    · intro k hk
      have hne' := hne lot' hlot'
      apply hclean.same
      · rintro rfl
        simp at hk
      · rintro rfl
        simp [hne'.symm] at hk
    · exact hclean.loadable _ (h.openable lot' hlot').loadable

/-- The lot on offer is in the cache, with a row and another id than the next lot. -/
structure OnOffer (s : Sale BidSequence) (lot : BidSequence) (r : Redis) (db : Db) : Prop where
  cached : Cached r lot.bidItemId
  row : ∃ row, db.bidItems lot.bidItemId = some row
  ne_next : ∀ lot', s.waiting.head? = some lot' → lot'.bidItemId ≠ lot.bidItemId

/-- The lot on offer is cached, has a row and is not the next one. -/
theorem Refines.onOffer (h : Refines s w) (hwf : WellFormed s.lots)
    (hcurrent : s.current = some lot) : OnOffer s lot w.redis w.db where
  cached := h.opened lot (Sale.mem_opened_of_current hcurrent)
  row := by
    obtain ⟨row, hrow, -⟩ := (CommonDao.getBidItem_ok_iff (fun _ => 0) w.db lot.bidItemId).mp
      (h.data.loadable lot (Sale.mem_lots_of_opened (Sale.mem_opened_of_current hcurrent)) _)
    exact ⟨row, hrow⟩
  ne_next lot' hlot' := (Sale.opened_not_waiting hwf.nodup
    (Sale.mem_opened_of_current hcurrent) (List.mem_of_mem_head? hlot')).symm

/-- A fault behind the pop is one in the rest of the hand-over. -/
theorem fault_handOver_popped (id : ℤ) (k : ℕ) (w : World) :
    fault env (handOver id) (k + 3) w =
      fault env (cleanBidItem id >>= fun _ => openNext (.ok 0)) k
        { w with redis := popActive w.redis } := by
  rw [handOver_eq]
  exact fault_bind_add (commands_setActiveBidItemId env w) (run_setActiveBidItemId env w)

variable (h : Refines s w) (hwf : WellFormed s.lots) (hcurrent : s.current = some lot)

include h hwf hcurrent

/-- A fault while the lot on offer is closed. -/
theorem fault_handOver_clean
    (hk : k < commands env (cleanBidItem lot.bidItemId) { w with redis := popActive w.redis }) :
    Passes s w (4 ≤ k ∧ k < 8) (fault env (handOver lot.bidItemId) (k + 3) w) := by
  have hoffer := h.onOffer hwf hcurrent
  obtain ⟨row, hrow⟩ := hoffer.row
  have hcached : Cached (popActive w.redis) lot.bidItemId :=
    hoffer.cached.of_sameAt (sameAt_popActive _ (by simp) (by simp)) (fun _ ht => ht)
  have hpopped : SequencePopped s { w with redis := popActive w.redis } := h.popped hwf w.startFlag
  obtain ⟨t, hclean, hfault⟩ := fault_cleanBidItem env
    (w := { w with redis := popActive w.redis }) hcached hrow hk
  have hafter := hpopped.cleaned hoffer.ne_next hclean
  rw [fault_handOver_popped]
  -- the id of the old lot is needed for its row, and without it the tick ends before it opens the
  -- next lot
  by_cases hspoiled : 4 ≤ k ∧ k < 8
  · rw [if_pos hspoiled] at hfault
    rw [fault_bind_lt_error rfl hk hfault]
    exact ⟨⟨hafter.queue, hafter.active, hafter.unsold⟩, hclean.reads, fun _ _ _ => rfl,
      fun hfine => absurd hspoiled hfine⟩
  · rw [if_neg hspoiled] at hfault
    rw [fault_bind_lt rfl hk hfault]
    have hpasses := (hafter.run_openNext env (.ok 0) rfl).mono hclean.reads
    exact ⟨hpasses.moved, hpasses.reads, fun hbad => absurd hbad hspoiled,
      fun _ => hpasses.result not_false⟩

/-- A fault while the next lot is opened. -/
theorem fault_handOver_openNext (k : ℕ) :
    Passes s w (k < 2 ∨ k = 2 ∨ k = 5 ∨ k = 6) (fault env (handOver lot.bidItemId)
      (k + commands env (cleanBidItem lot.bidItemId) { w with redis := popActive w.redis } + 3)
      w) := by
  have hoffer := h.onOffer hwf hcurrent
  obtain ⟨row, hrow⟩ := hoffer.row
  have hcached : Cached (popActive w.redis) lot.bidItemId :=
    hoffer.cached.of_sameAt (sameAt_popActive _ (by simp) (by simp)) (fun _ ht => ht)
  have hpopped : SequencePopped s { w with redis := popActive w.redis } := h.popped hwf w.startFlag
  obtain ⟨t, hrun, hclean⟩ := cleaned_run env (w := { w with redis := popActive w.redis })
    hcached hrow
  rw [fault_handOver_popped, fault_bind_add rfl hrun]
  exact ((hpopped.cleaned hoffer.ne_next hclean).fault_openNext env rfl k).mono hclean.reads

/-- A hand-over without a fault. -/
theorem passes_handOver : Passes s w False (run (handle env) (handOver lot.bidItemId) w) := by
  let k := commands env (handOver lot.bidItemId) w + 7
  have hrun : fault env (handOver lot.bidItemId) (k +
      commands env (cleanBidItem lot.bidItemId) { w with redis := popActive w.redis } + 3) w =
      run (handle env) (handOver lot.bidItemId) w := withFault_of_le (by
    show commands env (handOver lot.bidItemId) w ≤ _
    omega)
  have hpasses := fault_handOver_openNext env h hwf hcurrent k
  rw [hrun] at hpasses
  exact ⟨hpasses.moved, hpasses.reads, fun h => h.elim, fun _ => hpasses.result (by omega)⟩

/-- The queue cannot be popped, or the active id cannot be set: the lot on offer is closed and
    fetched once more. -/
theorem fault_handOver_pop
    (hspan : w.redis.hashes (.bidItem lot.bidItemId) .bidSpan = some (.long lot.bidspan))
    (hk : k < 3) :
    ∃ t, fault env (handOver lot.bidItemId) k w = (.ok lot.bidspan, t) ∧
      t.redis.lists .bidItemSequenceIds = (if k = 2 then
        (w.redis.lists .bidItemSequenceIds).dropLast else w.redis.lists .bidItemSequenceIds) ∧
      t.redis.strings .activeBidItemId = some (.long lot.bidItemId) ∧
      .long lot.bidItemId ∈ t.redis.sets .expiredBidItems ∧ w.reads ≤ t.reads := by
  have hoffer := h.onOffer hwf hcurrent
  obtain ⟨row, hrow⟩ := hoffer.row
  obtain ⟨r, hpop, hsame, hqueue⟩ := fault_setActiveBidItemId_lt env w hk
  have hitem := hsame (.bidItem lot.bidItemId) (by simp)
  have hcached : Cached r lot.bidItemId := by
    apply hoffer.cached.of_sameAt hitem
    rw [(hsame .bidItems (by simp)).sets]
    exact fun _ ht => ht
  obtain ⟨n, hclean⟩ := run_cleanBidItem env { w with redis := r } hcached.member
    hcached.readable hcached.bidItemId hrow
  -- the active id still names the lot that was just closed, which is in the cache
  have hexpired := hcached.expire (env.clock w.reads)
  have hactive : (expire r lot.bidItemId (env.clock w.reads)).strings .activeBidItemId =
      some (.long lot.bidItemId) := by
    rw [(sameAt_expire (by simp) (by simp) _).strings, (hsame .activeBidItemId (by simp)).strings]
    exact h.active_of_current hcurrent
  have hkept : (expire r lot.bidItemId (env.clock w.reads)).hashes (.bidItem lot.bidItemId)
      .bidSpan = some (.long lot.bidspan) := by
    simp only [expire, Store.hashes_hset, reduceCtorEq, if_false]
    exact (congrFun hitem.hashes .bidSpan).trans hspan
  obtain ⟨m, hopen⟩ := run_openNext_cached env (w := { w with
    redis := expire r lot.bidItemId (env.clock w.reads)
    db := CommonDao.setRow w.db lot.bidItemId (CommonDao.closedRow row
      (cachedItem (expire r lot.bidItemId (env.clock w.reads)) lot.bidItemId))
    reads := w.reads + 1 + n }) (.ok 0) hexpired hactive hkept
  rw [handOver_eq]
  refine ⟨_, (fault_bind_lt (commands_setActiveBidItemId env w) hk hpop).trans
    ((run_bind_ok hclean).trans hopen), ?_, hactive, ?_, ?_⟩
  · exact ((sameAt_expire (by simp) (by simp) _).lists).trans hqueue
  · exact (congrArg (Text.long lot.bidItemId ∈ ·) (Store.sets_sadd r .expiredBidItems _)).mpr
      List.mem_insert_self
  · show w.reads ≤ w.reads + 1 + n + m
    omega

end HandOver

end Bidding.Model
