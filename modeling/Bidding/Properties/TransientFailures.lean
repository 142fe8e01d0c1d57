import Bidding.Properties.Queue
import Bidding.Properties.TickFaults

/-!
# Is a Failing Cache Command Harmless?

The ticks of a running sale in which one command to the cache fails, call by call, and with the
first tick the answer for every state of a scheduler.

## Key Results

- **`harmless_iff`**: a tick with a failing command is harmless exactly if the command is not one
  of the harmful ones, from every state that the scheduler reaches.
- **`secondTick_not_harmless`**: the failure of one `HGET` closes a lot with a minute left.
-/

namespace Bidding.Model

open Bidding.Effects Bidding.Effects.Action Bidding.KeyValue
open RedisCacheService BidItemsCacheService

/-! ## The ticks of a running sale -/

section Next

variable {env : Env} {lots : List BidSequence} {s : Sale BidSequence} {w t : World}
  {lot : BidSequence} {E U X : ℤ} {k : ℕ}

/-- A lot that is closed after its time was found to be up is closed at its end. -/
theorem closedInTime_of_due (h : Refines s w) (hp : Punctual env lots s w)
    (hcurrent : s.current = some lot) (htimes : CachedTimes w.redis lot.bidItemId E U X) {n : ℕ}
    (hup : countdown E U X (env.second n) ≤ 0) (hn : w.reads ≤ n) (hlt : n < t.reads) :
    ClosedInTime env w t := by
  intro id E' hactive hend _ _
  rw [h.active_of_current hcurrent] at hactive
  obtain rfl : lot.bidItemId = id := Text.long.inj (Option.some.inj hactive)
  obtain rfl : E = E' := Text.date.inj (Option.some.inj (htimes.bidEndTime.symm.trans hend))
  obtain ⟨hX, -, hlate⟩ := hp.timed lot hcurrent E U X htimes
  exact ⟨n, hn, hlt, le_of_countdown_nonpos hX (hlate.imp_right fun hU => hU n hn) hup⟩

/-- A hand-over that was begun too early is harmless exactly if the end time comes before it is
    over. -/
theorem closedInTime_handOver_iff (h : Refines s w) (hwf : WellFormed s.lots)
    (hcurrent : s.current = some lot) (hend : ∃ E, w.redis.hashes (.bidItem lot.bidItemId)
      .bidEndTime = some (.date E)) :
    ClosedInTime env w (run (handle env) (handOver lot.bidItemId) w).2 ↔
      ¬ ClosesEarly env w := by
  have hactive := h.active_of_current hcurrent
  constructor
  · intro hintime hearly
    obtain ⟨E, hE⟩ := hend
    obtain ⟨w', hrefines, -, -, -, hrun⟩ := run_handOver env h hwf hcurrent (le_refl w.reads)
    have hrun' : run (handle env) (handOver lot.bidItemId) w = _ := hrun
    -- the hand-over expires the lot, which had not expired before
    have hclosed : .long lot.bidItemId ∈
        (run (handle env) (handOver lot.bidItemId) w).2.redis.sets .expiredBidItems := by
      rw [hrun', hrefines.mem_expired]
      simp [Sale.advance, hcurrent]
    have hopen : .long lot.bidItemId ∉ w.redis.sets .expiredBidItems := by
      rw [h.mem_expired]
      simp only [List.mem_map, not_exists, not_and, Text.long.injEq]
      rintro id ⟨lot', hsold, rfl⟩
      exact Sale.current_not_sold hwf.nodup hcurrent hsold
    obtain ⟨n, hn, hlt, hle⟩ := hintime _ E hactive hE hopen hclosed
    exact absurd (hearly _ E hactive hE n hn hlt) (not_lt.mpr hle)
  · intro hlate id E hid hE _ _
    by_contra hnone
    refine hlate fun id' E' hid' hE' n hn hlt => ?_
    obtain rfl : lot.bidItemId = id := Text.long.inj (Option.some.inj (hactive.symm.trans hid))
    obtain rfl : lot.bidItemId = id' := Text.long.inj (Option.some.inj (hactive.symm.trans hid'))
    obtain rfl : E = E' := Text.date.inj (Option.some.inj (hE.symm.trans hE'))
    exact not_le.mp fun hle => hnone ⟨n, hn, hlt, hle⟩

/-- What is assumed of a tick of the sale `s`. -/
structure TickOf (env : Env) (lots : List BidSequence) (s : Sale BidSequence) (w : World)
    (lot : BidSequence) : Prop where
  refines : Refines s w
  wellFormed : WellFormed s.lots
  punctual : Punctual env lots s w
  spans : ∀ lot ∈ s.lots, 0 < lot.bidspan
  current : s.current = some lot
  steady : ∀ E U X, CachedTimes w.redis lot.bidItemId E U X → ∀ n, w.reads ≤ n →
    0 < countdown E U X (env.second n) → 0 < countdown E U X (env.second (n + 2))

section Fetch

variable (h : TickOf env lots s w lot) (htimes : CachedTimes w.redis lot.bidItemId E U X)

include h

/-- The lot on offer is left, and the timer is cancelled. -/
theorem TickOf.not_unharmed {r : Except Exn ℤ} (hcancel : resultOutcome r = .cancel) :
    ¬ Unharmed env w (r, w) :=
  not_unharmed_of_cancel hcancel (h.refines.remaining h.wellFormed h.current)

include htimes

/-- A tick that finds time left is harmless. -/
theorem TickOf.unharmed_stay {n : ℕ} (hn : w.reads ≤ n)
    (hleft : 0 < countdown E U X (env.second n)) :
    Unharmed env w (.ok (countdown E U X (env.second (n + 2))), { w with reads := n + 3 }) where
  notEarly _ _ _ _ hnot hmem := absurd hmem hnot
  notLost := .inl rfl
  notCancelled _ := ⟨_, congrArg Except.ok (outcome_of_pos (h.steady E U X htimes n hn hleft))⟩

/-- A tick that has fetched the times is harmless. -/
theorem TickOf.unharmed_tested {item : BidItem} {n : ℕ}
    (hitem : (timesOf item).2 = (some (ofSecond E), some (ofSecond U), some X))
    (hn : w.reads ≤ n) :
    Unharmed env w (run (handle env) (tested lot.bidItemId (some item))
      { w with reads := n }) := by
  rw [run_tested env hitem]
  -- the test finds time left, or the lot is handed over in time
  split
  · next hleft => exact h.unharmed_stay htimes hn hleft
  · next hup =>
    have hrefines := h.refines.of_reads (n + 1)
    have hpasses := (passes_handOver env hrefines h.wellFormed h.current).mono (w := w)
      (Nat.le_succ_of_le hn)
    refine (hpasses.unharmed_iff h.refines h.wellFormed h.spans).mpr ⟨?_, fun hbad => hbad.2⟩
    exact closedInTime_of_due h.refines h.punctual h.current htimes (not_lt.mp hup) hn
      (passes_handOver env hrefines h.wellFormed h.current).reads

/-- A fetch without the end time closes the lot. -/
theorem TickOf.unharmed_noEnd {item : BidItem} (hend : item.bidEndTime = none)
    (hleft : item.timeLeft = 0) :
    Unharmed env w (run (handle env) (tested lot.bidItemId (some item)) w) ↔
      ¬ ClosesEarly env w := by
  have hpasses := passes_handOver env h.refines h.wellFormed h.current
  rw [run_tested_noEnd env hend hleft, hpasses.unharmed_iff h.refines h.wellFormed h.spans,
    closedInTime_handOver_iff h.refines h.wellFormed h.current ⟨E, htimes.bidEndTime⟩]
  exact and_iff_left fun hbad => hbad.2

/-- A fault while the lot on offer is fetched. -/
theorem TickOf.unharmed_fetch
    (hk : k < commands env (RedisCacheService.getBidItem lot.bidItemId) w) :
    Unharmed env w (fault env (RedisCacheService.getBidItem lot.bidItemId >>=
      tested lot.bidItemId) k w) ↔ ¬ Harms env w (.fetch, k) := by
  have hcached := h.refines.opened lot (Sale.mem_opened_of_current h.current)
  by_cases hlate : 17 ≤ k
  · -- the times are there
    obtain ⟨j, rfl⟩ := Nat.exists_eq_add_of_le' hlate
    obtain ⟨item, n, hget, hitem⟩ :=
      fault_getBidItem_late env hcached.member hcached.readable j
    rw [timesOf_storeAll hcached htimes] at hitem
    rw [fault_bind_lt rfl hk hget]
    refine iff_of_true (h.unharmed_tested htimes (congrArg Prod.snd hitem)
      (Nat.le_add_right _ _)) fun hbad => ?_
    rcases hbad with hbad | hbad <;> omega
  by_cases hexists : k = 1 ∨ k = 2
  · -- the lot is not found
    obtain ⟨j, rfl⟩ := Nat.exists_eq_add_of_le' (show 1 ≤ k by omega)
    rw [fault_bind_lt rfl hk (fault_getBidItem_exists env w _ (by omega))]
    exact iff_of_false (h.not_unharmed rfl) (not_not.mpr (.inl (by omega)))
  -- without a connection every attribute is null, and a missing end time reads as no time left
  by_cases hconnect : k = 0
  · subst hconnect
    rw [fault_bind_lt rfl hk (fault_getBidItem_connect env w _),
      h.unharmed_noEnd htimes rfl rfl]
    simp [Harms]
  obtain ⟨j, rfl⟩ := Nat.exists_eq_add_of_le' (show 3 ≤ k by omega)
  rw [fault_bind_lt rfl hk (fault_getBidItem_field env hcached.member hcached.readable
    (by omega))]
  -- a fault before the end time is read leaves it null; after it, the last update is null and the
  -- countdown throws
  by_cases hend : j < 9
  · obtain ⟨hnone, hleft⟩ := noEnd_of_lt (w.redis.hashes (.bidItem lot.bidItemId)) hend
    rw [h.unharmed_noEnd htimes hnone hleft]
    have hplace : ¬ (j + 3 = 1 ∨ j + 3 = 2 ∨ 12 ≤ j + 3 ∧ j + 3 < 17) := by omega
    have hplace' : j + 3 = 0 ∨ 3 ≤ j + 3 ∧ j + 3 < 12 := by omega
    simp only [Harms, hplace, hplace', false_or, true_and]
  · obtain ⟨hsome, hnone⟩ := noUpdate_of_lt htimes (not_lt.mp hend) (show j < 14 by omega)
    rw [run_tested_noUpdate env hsome hnone]
    exact iff_of_false (h.not_unharmed rfl) (not_not.mpr (.inl (by omega)))

/-- A fault while the queue is popped: the lot that was closed is fetched once more, and the tick
    comes again. -/
theorem TickOf.unharmed_pop {n : ℕ} (hn : w.reads ≤ n) (hup : countdown E U X (env.second n) ≤ 0)
    (hk : k < 3) :
    Unharmed env w (fault env (handOver lot.bidItemId) k { w with reads := n + 1 }) ↔
      ¬ Harms env w (.pop, k) := by
  have hlots := Sale.mem_lots_of_opened (Sale.mem_opened_of_current h.current)
  have hactive : activeItem w.redis ≠ none := by
    rw [h.refines.activeItem_eq h.wellFormed, h.current]
    simp
  obtain ⟨t, hfault, hqueue, hid, -, hreads⟩ := fault_handOver_pop env
    (h.refines.of_reads (n + 1)) h.wellFormed h.current (h.punctual.span lot h.current) hk
  rw [hfault]
  have hintime : ClosedInTime env w t :=
    closedInTime_of_due h.refines h.punctual h.current htimes hup hn hreads
  have hsleep : ∃ seconds, (.ok (resultOutcome (.ok lot.bidspan)) : Except Exn TaskOutcome) =
      .ok (.sleep seconds) := ⟨_, congrArg Except.ok (outcome_of_pos (h.spans lot hlots))⟩
  by_cases hset : k = 2 ∧ w.redis.lists .bidItemSequenceIds ≠ []
  · -- the popped lot is not the active one
    rw [if_pos hset.1] at hqueue
    refine iff_of_false (fun hunharmed => ?_) (not_not.mpr ⟨hset.2, .inr hset.1⟩)
    rcases hunharmed.notLost with hsame | ⟨-, hnext⟩
    · exact dropLast_ne_self hset.2 (hqueue.symm.trans hsame)
    · obtain ⟨next, hhead⟩ := h.refines.exists_next hset.2
      have hnext' : some (Text.long lot.bidItemId) = some (nextActive w.redis) :=
        hid.symm.trans hnext
      rw [nextActive, h.refines.queue, List.getLast?_reverse, List.head?_map, hhead] at hnext'
      exact Sale.opened_not_waiting h.wellFormed.nodup (Sale.mem_opened_of_current h.current)
        (List.mem_of_mem_head? hhead) (Text.long.inj (Option.some.inj hnext'))
  · have hsame : t.redis.lists .bidItemSequenceIds = w.redis.lists .bidItemSequenceIds := by
      rw [hqueue]
      split
      · next htwo =>
        rw [not_not.mp fun hne => hset ⟨htwo, hne⟩]
        rfl
      · rfl
    -- nothing was popped: the next tick finds the same state
    refine iff_of_true ⟨hintime, .inl hsame, fun _ => hsleep⟩ fun hbad => ?_
    exact hset ⟨hbad.2.resolve_left hactive, hbad.1⟩

/-- A fault behind the pop. -/
theorem TickOf.unharmed_passes {n : ℕ} (hn : w.reads ≤ n)
    (hup : countdown E U X (env.second n) ≤ 0) {spoiled : Prop} {out : Except Exn ℤ × World}
    (hpasses : Passes s { w with reads := n + 1 } spoiled out) :
    Unharmed env w out ↔ ¬ (w.redis.lists .bidItemSequenceIds ≠ [] ∧ spoiled) := by
  have hpasses' := hpasses.mono (w := w) (Nat.le_succ_of_le hn)
  rw [hpasses'.unharmed_iff h.refines h.wellFormed h.spans, and_iff_right]
  exact closedInTime_of_due h.refines h.punctual h.current htimes hup hn hpasses.reads

/-- A fault in the hand-over of a lot whose time is up. -/
theorem TickOf.unharmed_handOver {n : ℕ} (hn : w.reads ≤ n)
    (hup : countdown E U X (env.second n) ≤ 0) (k : ℕ) :
    Unharmed env w (fault env (handOver lot.bidItemId) k { w with reads := n + 1 }) ↔
      ¬ Harms env w (locate .openNext [(.pop, 3),
        (.clean, commands env (cleanBidItem lot.bidItemId)
          { w with redis := popActive w.redis, reads := n + 1 }), (.readNext, 2)] k) := by
  have hnext := h.refines.of_reads (n + 1)
  refine locate_cons_rule (P := fun k place => Unharmed env w (fault env
    (handOver lot.bidItemId) k { w with reads := n + 1 }) ↔ ¬ Harms env w place)
    (fun k hk => h.unharmed_pop htimes hn hup hk) ?_ k
  refine locate_cons_rule (P := fun k place => Unharmed env w (fault env
    (handOver lot.bidItemId) (k + 3) { w with reads := n + 1 }) ↔ ¬ Harms env w place)
    (fun k hk => h.unharmed_passes htimes hn hup
      (fault_handOver_clean env hnext h.wellFormed h.current hk)) ?_
  -- the last two calls are those of `openNext`
  have hpasses : ∀ k, Unharmed env w (fault env (handOver lot.bidItemId) (k + _ + 3)
      { w with reads := n + 1 }) ↔ _ :=
    fun k => h.unharmed_passes htimes hn hup
      (fault_handOver_openNext env hnext h.wellFormed h.current k)
  intro k
  rw [hpasses, harms_openNext_iff]

end Fetch

/-! ### The calls one after the other -/

section Calls

variable (h : TickOf env lots s w lot)

include h

theorem TickOf.branch :
    (if w.startFlag then startOfSequence else nextOfSequence) = nextOfSequence := by
  rw [h.refines.startFlag, Sale.started_of_current h.current]
  rfl

theorem TickOf.not_ended : endSequence w.redis ≠ .isTrue := by
  have hne := h.wellFormed.ne_zero lot
    (Sale.mem_lots_of_opened (Sale.mem_opened_of_current h.current))
  simp [endSequence, h.refines.active_of_current h.current, hne]

theorem TickOf.run_readActive (env : Env) :
    run (handle env) getActiveBidItemId w = (.ok lot.bidItemId, w) := by
  rw [run_getActiveBidItemId, h.refines.activeId_eq h.current]

/-- The fetch of a tick without a fault. -/
theorem TickOf.run_fetch :
    ∃ item E U X, run (handle env) (RedisCacheService.getBidItem lot.bidItemId) w =
        (.ok (some item), { w with reads := checkReading w lot.bidItemId }) ∧
      CachedTimes w.redis lot.bidItemId E U X ∧
      (timesOf item).2 = (some (ofSecond E), some (ofSecond U), some X) := by
  obtain ⟨item, E, U, X, hget, htimes, hE, hU, hX⟩ :=
    (h.refines.opened lot (Sale.mem_opened_of_current h.current)).run_getBidItem env
  refine ⟨item, E, U, X, hget, htimes, ?_⟩
  simp only [timesOf, hE, hU, hX]

/-- The check for the end of the sequence fails, and the tick does its work. -/
theorem TickOf.unharmed_check (hk : k < 2) :
    Unharmed env w (fault env setNextBidItem k w) ↔ ¬ Harms env w (.endCheck, k) := by
  obtain ⟨item, E, U, X, hget, htimes, hitem⟩ := h.run_fetch
  have hnext : run (handle env) nextOfSequence w = run (handle env)
      (tested lot.bidItemId (some item)) { w with reads := checkReading w lot.bidItemId } := by
    rw [nextOfSequence_eq]
    exact (run_bind_ok (h.run_readActive env)).trans (run_bind_ok hget)
  rw [fault_setNextBidItem_check h.branch hk, hnext]
  exact iff_of_true (h.unharmed_tested htimes hitem (Nat.le_add_right _ _)) not_false

/-- The active id cannot be read: the item `0` is fetched, which does not exist. -/
theorem TickOf.unharmed_readActive (hk : k < 2) :
    Unharmed env w (fault env setNextBidItem (k + 2) w) ↔ ¬ Harms env w (.readActive, k) := by
  rw [fault_setNextBidItem_rest h.not_ended h.branch, nextOfSequence_eq,
    fault_bind_lt (commands_getActiveBidItemId env w) hk (fault_getActiveBidItemId env w hk),
    run_bind_ok (run_getBidItem_absent env w h.refines.data.zero)]
  exact iff_of_false (h.not_unharmed rfl) (not_not.mpr trivial)

theorem TickOf.fault_fetch (k : ℕ) :
    fault env setNextBidItem (k + 2 + 2) w =
      fault env (RedisCacheService.getBidItem lot.bidItemId >>= tested lot.bidItemId) k w := by
  rw [fault_setNextBidItem_rest h.not_ended h.branch, nextOfSequence_eq,
    fault_bind_add (commands_getActiveBidItemId env w) (h.run_readActive env)]

/-- A tick of a running sale. -/
theorem TickOf.unharmed_iff (k : ℕ) :
    Unharmed env w (fault env setNextBidItem k w) ↔ ¬ Harms env w (placeOf env w k) := by
  have hcached := h.refines.opened lot (Sale.mem_opened_of_current h.current)
  have hreads : w.reads ≤ checkReading w lot.bidItemId := Nat.le_add_right _ _
  obtain ⟨item, E, U, X, hget, htimes, hitem⟩ := h.run_fetch
  unfold placeOf
  rw [h.refines.activeItem_eq h.wellFormed, h.current, Option.map_some]
  dsimp only
  rw [htimes.timeLeftOf_eq]
  split
  · -- time is left, and nothing is sent after the fetch
    next hleft =>
    refine locate_cons_rule (P := fun k place => Unharmed env w (fault env setNextBidItem k w) ↔
      ¬ Harms env w place) (fun k hk => h.unharmed_check hk) ?_ k
    refine locate_cons_rule (P := fun k place =>
      Unharmed env w (fault env setNextBidItem (k + 2) w) ↔ ¬ Harms env w place)
      (fun k hk => h.unharmed_readActive hk) fun k => ?_
    rw [h.fault_fetch]
    rcases Nat.lt_or_ge k (commands env (RedisCacheService.getBidItem lot.bidItemId) w) with
      hk | hk
    · exact h.unharmed_fetch htimes hk
    · have hmany := commands_getBidItem env hcached.member hcached.readable
      obtain ⟨j, rfl⟩ := Nat.exists_eq_add_of_le' hk
      rw [fault_bind_add rfl hget, fault_tested env hitem, if_pos hleft]
      refine iff_of_true (h.unharmed_stay htimes hreads hleft) fun hbad => ?_
      rcases hbad with hbad | hbad <;> omega
  · -- the time is up, and the lot is handed over
    next hup =>
    have hover : ∀ k, fault env setNextBidItem
        (k + commands env (RedisCacheService.getBidItem lot.bidItemId) w + 2 + 2) w =
        fault env (handOver lot.bidItemId) k
          { w with reads := checkReading w lot.bidItemId + 1 } := by
      intro k
      rw [h.fault_fetch, fault_bind_add rfl hget, fault_tested env hitem, if_neg hup]
    refine locate_cons_rule (P := fun k place => Unharmed env w (fault env setNextBidItem k w) ↔
      ¬ Harms env w place) (fun k hk => h.unharmed_check hk) ?_ k
    refine locate_cons_rule (P := fun k place =>
      Unharmed env w (fault env setNextBidItem (k + 2) w) ↔ ¬ Harms env w place)
      (fun k hk => h.unharmed_readActive hk) ?_
    refine locate_cons_rule (P := fun k place =>
      Unharmed env w (fault env setNextBidItem (k + 2 + 2) w) ↔ ¬ Harms env w place) ?_ ?_
    · intro k hk
      rw [h.fault_fetch]
      exact h.unharmed_fetch htimes hk
    · intro k
      rw [hover]
      exact h.unharmed_handOver htimes hreads (not_lt.mp hup) k

end Calls

end Next

/-! ## Every state of a scheduler -/

/-- Every state that the scheduler of a sale reaches stands for a sale. -/
theorem exists_running (env : Env) (w : World) (events : List Event)
    (h : Saleable w.db (CommonDao.getCurrentBidSequence w.db w.auctionId))
    (hext : BoundedExtensions (CommonDao.getCurrentBidSequence w.db w.auctionId) w.db) :
    ∃ s, Running (reached (CommonDao.getCurrentBidSequence w.db w.auctionId)) s
        (events.foldl (Scheduler.step env) (Scheduler.start env w)) ∧
      Punctual env (reached (CommonDao.getCurrentBidSequence w.db w.auctionId)) s
        (events.foldl (Scheduler.step env) (Scheduler.start env w)).world := by
  apply Effects.run_inv (I := fun c => ∃ s,
    Running (reached (CommonDao.getCurrentBidSequence w.db w.auctionId)) s c ∧
      Punctual env (reached (CommonDao.getCurrentBidSequence w.db w.auctionId)) s c.world)
  · intro c e hc
    obtain ⟨s, hrunning, hpunctual⟩ := hc
    -- one event keeps both, whether it is a tick or an extension
    obtain ⟨s', hrunning', hpunctual', -⟩ := hrunning.step hpunctual h.wellFormed e
    exact ⟨s', hrunning', hpunctual'⟩
  · exact ⟨_, running_start env w h, punctual_start env w hext⟩

/-- The sale of two lots of a minute, after its first tick. -/
def firstLotOnSale : Scheduler :=
  [Event.tick].foldl (Scheduler.step (Env.still 1000))
    (Scheduler.start (Env.still 1000) (plainWorld twoLots 20))

end Bidding.Model
