import Bidding.Sale.Refinement

/-!
# One Tick of the Scheduler

What a tick can do to a world that stands for a sale which is not over. This is the one
place where the branches of `setNextBidItem` are followed; everything about whole runs is
derived from `run_timerTask_cases`.

## Key Results

- **`run_timerTask_cases`**: a tick either leaves the sale as it is, because the lot on offer
  has time left, or advances it by one step; its outcome is decided by the last reading of
  the time left, or by the span of the lot that was opened.
-/

namespace Bidding.Model

open Bidding.Effects Bidding.Effects.Action Bidding.KeyValue
open RedisCacheService BidItemsCacheService

/-- What the timer task makes of the number that `setNextBidItem` returns. -/
def outcomeOf (span : ℤ) : TaskOutcome := if span ≤ 0 then .cancel else .sleep span

/-- The timer is not cancelled. -/
def sleeps : TaskOutcome → Bool
  | .sleep _ => true
  | .cancel => false

/-- The timer goes on if the span is positive. -/
theorem sleeps_outcomeOf (span : ℤ) : sleeps (outcomeOf span) = decide (0 < span) := by
  unfold outcomeOf
  split
  · rename_i h
    exact (decide_eq_false (not_lt.mpr h)).symm
  · rename_i h
    exact (decide_eq_true (not_le.mp h)).symm

/-- What the timer task makes of the result of `setNextBidItem`. -/
def resultOutcome : Except Exn ℤ → TaskOutcome
  | .ok span => outcomeOf span
  | .error _ => .cancel

/-- Number of the clock reading with which a tick tests the time left of an item: fetching
    the item reads the clock once for each of its bidders. -/
def checkReading (w : World) (id : ℤ) : ℕ := w.reads + bidderCount w.redis id

/-- The second of a clock reading. -/
def Env.second (env : Env) (n : ℕ) : ℤ := toSeconds (env.clock n)

/-- A lot was opened with the clock reading `t`. -/
structure OpenedAt (env : Env) (w w' : World) (lot : BidSequence) (t : ℕ) : Prop where
  after : w.reads ≤ t
  before : t < w'.reads
  bidStartTime : w'.redis.hashes (.bidItem lot.bidItemId) .bidStartTime =
    some (Text.format (env.clock t))
  bidEndTime : w'.redis.hashes (.bidItem lot.bidItemId) .bidEndTime =
    some (Text.format (addSeconds (env.clock t) (toInt32 lot.bidspan)))
  lastUpDateTime : w'.redis.hashes (.bidItem lot.bidItemId) .lastUpDateTime =
    some (Text.format (env.clock t))
  statusCode : w'.redis.hashes (.bidItem lot.bidItemId) .statusCode = some (.str "ACTIVE")
  bidSpan : w'.redis.hashes (.bidItem lot.bidItemId) .bidSpan = some (.long lot.bidspan)
  timeExtAfterBid : ∃ row, w.db.bidItems lot.bidItemId = some row ∧
    w'.redis.hashes (.bidItem lot.bidItemId) .timeExtAfterBid =
      some (.long (row.timeExtAfterBid.getD 0))

/-- The time of a lot was up at the reading with which the tick tested it. -/
structure TimeUp (env : Env) (w w' : World) (lot : BidSequence) (E U X : ℤ) : Prop where
  times : CachedTimes w.redis lot.bidItemId E U X
  up : countdown E U X (env.second (checkReading w lot.bidItemId)) ≤ 0
  before : checkReading w lot.bidItemId < w'.reads

/-- The time left of a cached item at the second `t`. -/
def timeLeftOf (r : Redis) (id t : ℤ) : ℤ :=
  match r.hashes (.bidItem id) .bidEndTime, r.hashes (.bidItem id) .lastUpDateTime,
    r.hashes (.bidItem id) .timeExtAfterBid with
  | some (.date E), some (.date U), some (.long X) => countdown E U X t
  | _, _, _ => 0

theorem CachedTimes.timeLeftOf_eq {r : Redis} {id E U X : ℤ} (h : CachedTimes r id E U X)
    (t : ℤ) : timeLeftOf r id t = countdown E U X t := by
  simp only [timeLeftOf, h.bidEndTime, h.lastUpDateTime, h.timeExtAfterBid]

/-- The terms of all items are the same. -/
def SameTerms (db db' : Db) : Prop :=
  ∀ id, (db'.bidItems id).map CommonDao.terms = (db.bidItems id).map CommonDao.terms

/-- What a tick can do. -/
inductive Ticked (env : Env) (s : Sale BidSequence) (w : World) :
    TaskOutcome → Sale BidSequence → World → Prop
  /-- time is left: nothing changes but the clock -/
  | stay {lot : BidSequence} {E U X : ℤ} (hcurrent : s.current = some lot)
      (htimes : CachedTimes w.redis lot.bidItemId E U X)
      (hleft : 0 < countdown E U X (env.second (checkReading w lot.bidItemId))) :
      Ticked env s w
        (outcomeOf (countdown E U X (env.second (checkReading w lot.bidItemId + 2)))) s
        { w with reads := checkReading w lot.bidItemId + 3 }
  /-- the sale advances -/
  | advance {w' : World} (hrefines : Refines s.advance w') (hterms : SameTerms w.db w'.db)
      (hclosed : ∀ lot, s.current = some lot → ∃ E U X, TimeUp env w w' lot E U X)
      (hopened : ∀ lot, s.waiting.head? = some lot → ∃ t, OpenedAt env w w' lot t) :
      Ticked env s w (s.waiting.head?.elim .cancel (fun lot => outcomeOf lot.bidspan))
        s.advance w'

variable (env : Env) (w : World)

/-- The outcome of the task from the result of `setNextBidItem`. -/
theorem run_timerTask_of {r : Except Exn ℤ} {w' : World}
    (h : run (handle env) setNextBidItem w = (r, w')) :
    run (handle env) timerTask w = (.ok (resultOutcome r), w') := by
  unfold timerTask
  rw [run_bind_ok (run_attempt_of h)]
  cases r <;> rfl

/-! ## Fetching the lot on offer -/

/-- Fetching a cached item answers its three times. -/
theorem Cached.run_getBidItem (env : Env) {w : World} {id : ℤ} (h : Cached w.redis id) :
    ∃ item E U X, run (handle env) (RedisCacheService.getBidItem id) w =
      (.ok (some item), { w with reads := checkReading w id }) ∧
      CachedTimes w.redis id E U X ∧ item.bidEndTime = some (ofSecond E) ∧
      item.lastUpDateTime = some (ofSecond U) ∧ item.timeExtAfterBid = some X := by
  obtain ⟨E, U, X, htimes⟩ := h.times
  obtain ⟨hE, hU, hX⟩ := htimes.cachedItem_eq
  obtain ⟨bidders, hget⟩ := run_getBidItem_of_readable env w id h.member h.readable
  rw [cachedItem_bidItemId h.bidItemId] at hget
  exact ⟨_, E, U, X, hget, htimes, hE, hU, hX⟩

/-! ## Opening the next lot -/

/-- `getBidItem` opens a lot that the cache does not have. -/
theorem run_getBidItem_open {lot : BidSequence} (hfresh : Uncached w.redis lot.bidItemId)
    (hzero : lot.bidItemId ≠ 0) (hload : CommonDao.Loadable w.db lot.bidItemId)
    (hseq : InSequence w.redis lot.bidItemId lot.bidspan lot.sequenceId) :
    ∃ item r db n t, run (handle env) (BidItemsCacheService.getBidItem lot.bidItemId) w =
      (.ok (some item), { w with redis := r, db := db, reads := n }) ∧
      item.bidSpan = lot.bidspan ∧ w.reads ≤ t ∧ t < n ∧
      Opening env w lot.bidItemId lot.bidspan lot.sequenceId item r db t := by
  obtain ⟨item, r, db, n, t, hrun, hle, hlt, hopen⟩ := run_loadBidItem env w hload hseq
  refine ⟨item, r, db, n, t, ?_, ?_, hle, hlt, hopen⟩
  · rw [run_getBidItem_miss env w hfresh.absent hzero]
    exact run_bind_ok hrun
  · obtain ⟨row, loaded, -, rfl⟩ := hopen.loaded
    rfl

/-- An opening during a tick, seen from the state before the tick. -/
theorem openedAt_of_opening {env : Env} {w₀ w : World} {lot : BidSequence} {item : BidItem}
    {r : Redis} {db : Db} {n t : ℕ}
    (hopen : Opening env w lot.bidItemId lot.bidspan lot.sequenceId item r db t)
    (hfresh : Uncached w.redis lot.bidItemId)
    (hterms : (w.db.bidItems lot.bidItemId).map CommonDao.terms =
      (w₀.db.bidItems lot.bidItemId).map CommonDao.terms)
    (hle : w₀.reads ≤ t) (hlt : t < n) :
    OpenedAt env w₀ { w with redis := r, db := db, reads := n } lot t := by
  obtain ⟨row, loaded, hloaded, rfl⟩ := hopen.loaded
  have hhash := hopen.stored.hash
  refine ⟨hle, hlt, ?_, ?_, ?_, ?_, ?_, ?_⟩
  · rw [hhash, hfresh.fresh]
    rfl
  · rw [hhash, hfresh.fresh]
    rfl
  · rw [hhash, hfresh.fresh]
    rfl
  · rw [hhash, hfresh.fresh]
    rfl
  · rw [hhash, hfresh.fresh]
    rfl
  · -- the extension comes from the row, whose terms have not changed during the tick
    rw [hloaded.row_eq, Option.map_some, eq_comm, Option.map_eq_some_iff] at hterms
    obtain ⟨row₀, hrow₀, hterms₀⟩ := hterms
    refine ⟨row₀, hrow₀, ?_⟩
    have hext : loaded.timeExtAfterBid = row₀.timeExtAfterBid := by
      have hchain := hloaded.terms_eq.trans hterms₀.symm
      simpa [CommonDao.terms] using congrArg (fun p => p.2.2) hchain
    rw [hhash, hfresh.fresh, ← hext]
    simp only [cellText, bidItemCells, openedItem]
    cases loaded.timeExtAfterBid <;> rfl

/-- The end of a tick that has handed the sale over: the active item is fetched, which opens
    it, or there is none. -/
theorem run_getBidItem_active (env : Env) {s : Sale BidSequence} (w₀ : World) {w : World}
    (h : Handed s w) (hwf : WellFormed s.lots) (hreads : w₀.reads ≤ w.reads)
    (hterms : SameTerms w₀.db w.db) :
    ∃ w', Refines s.advance w' ∧ SameTerms w₀.db w'.db ∧ w.reads ≤ w'.reads ∧
      (∀ lot, s.waiting.head? = some lot → ∃ t, OpenedAt env w₀ w' lot t) ∧
      ∃ item, run (handle env) (BidItemsCacheService.getBidItem (activeId w.redis)) w =
        (.ok item, w') ∧ item.map BidItem.bidSpan = s.waiting.head?.map BidSequence.bidspan := by
  cases hwaiting : s.waiting with
  | nil =>
    -- the queue was empty, and the id `0` is not loaded
    have hactive : activeId w.redis = 0 := by
      simp [activeId, h.active, activeText, hwaiting]
    refine ⟨w, h.refines_over hwaiting, hterms, le_rfl, by simp, none, ?_, rfl⟩
    rw [hactive]
    exact run_getBidItem_zero env w h.data.zero
  | cons lot rest =>
    have hlot : lot ∈ s.waiting := by simp [hwaiting]
    have hnext : s.waiting.head? = some lot := by simp [hwaiting]
    have hactive : activeId w.redis = lot.bidItemId := by
      simp [activeId, h.active, activeText, hwaiting, lotText]
    have hlots := Sale.mem_lots_of_waiting hlot
    obtain ⟨item, r, db, n, t, hrun, hspan, hle, hlt, hopen⟩ := run_getBidItem_open env w
      (h.pending lot hlot) (hwf.ne_zero lot hlots) (h.data.loadable lot hlots)
      (h.data.inSequence lot hlots)
    refine ⟨_, h.refines_open hwf hnext hopen n, ?_, le_of_lt (lt_of_le_of_lt hle hlt), ?_,
      some item, ?_, ?_⟩
    · exact fun id => (hopen.terms_eq id).trans (hterms id)
    · rintro lot' hlot'
      obtain rfl : lot = lot' := by simpa using hlot'
      exact ⟨t, openedAt_of_opening hopen (h.pending lot hlot) (hterms _) (hreads.trans hle) hlt⟩
    · rw [hactive]
      exact hrun
    · simp [hspan]

/-- The item a tick returns the span of is there exactly when a lot comes next, and has the
    lot's span. -/
theorem item_cases {item : Option BidItem} {next : Option BidSequence}
    (hspan : item.map BidItem.bidSpan = next.map BidSequence.bidspan) :
    (item = none ∧ next = none) ∨
      ∃ item' lot, item = some item' ∧ next = some lot ∧ item'.bidSpan = lot.bidspan := by
  cases next with
  | none => exact .inl ⟨Option.map_eq_none_iff.mp hspan, rfl⟩
  | some lot =>
    obtain ⟨item', hitem, hsame⟩ := Option.map_eq_some_iff.mp hspan
    exact .inr ⟨item', lot, hitem, rfl, hsame⟩

/-! ## The branches of `setNextBidItem` -/

section Branches

variable {s : Sale BidSequence} {w}

/-- Before the start of the sale. -/
theorem run_setNextBidItem_start (h : Refines s w) (hwf : WellFormed s.lots)
    (hstarted : s.started = false) :
    ∃ w', Refines s.advance w' ∧ SameTerms w.db w'.db ∧
      (∀ lot, s.waiting.head? = some lot → ∃ t, OpenedAt env w w' lot t) ∧
      run (handle env) setNextBidItem w =
        (s.waiting.head?.elim (.error .nullPointer) (fun lot => .ok lot.bidspan), w') := by
  let w₁ : World := { w with startFlag := false, redis := popActive w.redis }
  obtain ⟨w', hrefines, hterms, -, hopened, item, hget, hspan⟩ :=
    run_getBidItem_active env w (h.handed_start hstarted) hwf le_rfl
      (fun _ => rfl)
  refine ⟨w', hrefines, hterms, hopened, ?_⟩
  -- there is no active id yet, so the flag decides
  have hend : endSequence w.redis = .null := by
    simp [endSequence, h.active, hstarted]
  have hflag : w.startFlag = true := by rw [h.startFlag, hstarted]; rfl
  unfold setNextBidItem
  rw [run_bind_ok (run_isEndSequence env w), hend]
  simp only [reduceCtorEq, if_false]
  rw [run_bind_ok (run_getStartFlag env w), if_pos hflag]
  unfold startOfSequence
  refine (run_bind_ok (run_setStartFlag env w false)).trans ?_
  refine (run_bind_ok (run_setActiveBidItemId env _)).trans ?_
  refine (run_bind_ok (run_getActiveBidItemId env _)).trans ?_
  refine (run_bind_ok hget).trans ?_
  rcases item_cases hspan with ⟨rfl, hnext⟩ | ⟨item', lot', rfl, hnext, hitem⟩
  · rw [hnext]
    rfl
  · simp [hnext, hitem]

/-- During the sale: the lot on offer is tested. -/
theorem run_setNextBidItem_next (h : Refines s w) (hwf : WellFormed s.lots)
    {lot : BidSequence} (hcurrent : s.current = some lot) :
    ∃ item E U X, CachedTimes w.redis lot.bidItemId E U X ∧
      item.bidEndTime = some (ofSecond E) ∧ item.lastUpDateTime = some (ofSecond U) ∧
      item.timeExtAfterBid = some X ∧
      run (handle env) setNextBidItem w = run (handle env) (do
        let timeLeft ← getTimeLeft item
        if timeLeft > 0 then do
          let _ ← getTimeLeft item
          getTimeLeft item
        else
          handOver lot.bidItemId : Act ℤ) { w with reads := checkReading w lot.bidItemId } := by
  have hlot := Sale.mem_opened_of_current hcurrent
  have hcached := h.opened lot hlot
  have hne := hwf.ne_zero lot (Sale.mem_lots_of_opened hlot)
  obtain ⟨item, E, U, X, hget, htimes, hE, hU, hX⟩ := hcached.run_getBidItem env
  refine ⟨item, E, U, X, htimes, hE, hU, hX, ?_⟩
  -- an active id other than `0` means that the sequence is not over
  have hend : endSequence w.redis = .isFalse := by
    simp [endSequence, h.active_of_current hcurrent, hne]
  have hflag : w.startFlag = false := by
    rw [h.startFlag, Sale.started_of_current hcurrent]
    rfl
  unfold setNextBidItem
  rw [run_bind_ok (run_isEndSequence env w), hend]
  simp only [reduceCtorEq, if_false]
  rw [run_bind_ok (run_getStartFlag env w), if_neg (by simp [hflag])]
  unfold nextOfSequence
  rw [run_bind_ok (run_getActiveBidItemId env w), h.activeId_eq hcurrent]
  exact run_bind_ok hget

/-- The lot on offer is closed and the next one is opened. -/
theorem run_handOver {n : ℕ} (h : Refines s w) (hwf : WellFormed s.lots) {lot : BidSequence}
    (hcurrent : s.current = some lot) (hn : w.reads ≤ n) :
    ∃ w', Refines s.advance w' ∧ SameTerms w.db w'.db ∧ n < w'.reads ∧
      (∀ lot, s.waiting.head? = some lot → ∃ t, OpenedAt env w w' lot t) ∧
      run (handle env) (handOver lot.bidItemId) { w with reads := n } =
        (.ok (s.waiting.head?.elim 0 BidSequence.bidspan), w') := by
  have hlot := Sale.mem_opened_of_current hcurrent
  have hcached := h.opened lot hlot
  obtain ⟨row, hrow, -⟩ := (CommonDao.getBidItem_ok_iff (fun _ => 0) w.db lot.bidItemId).mp
    (h.data.loadable lot (Sale.mem_lots_of_opened hlot) _)
  let w₁ : World := { w with redis := popActive w.redis, reads := n }
  have hpop : Cached w₁.redis lot.bidItemId :=
    hcached.of_sameAt (sameAt_popActive _ (by simp) (by simp)) (fun _ ht => ht)
  -- the pop comes before the close, so the lot is closed in the popped cache
  obtain ⟨m, hclean⟩ := run_cleanBidItem env w₁ hpop.member hpop.readable hpop.bidItemId hrow
  have hhanded := h.handed_close hwf hcurrent (env.clock n) (n + 1 + m)
    (cachedItem (expire w₁.redis lot.bidItemId (env.clock n)) lot.bidItemId) hrow
  obtain ⟨w', hrefines, hterms, hreads, hopened, item, hget, hspan⟩ :=
    run_getBidItem_active env w hhanded hwf (by simp only; omega)
    (fun id => CommonDao.map_terms_setRow (CommonDao.closedRow row _) hrow rfl id)
  have hreads' : n + 1 + m ≤ w'.reads := hreads
  refine ⟨w', hrefines, hterms, by omega, hopened, ?_⟩
  unfold handOver
  refine (run_bind_ok (run_setActiveBidItemId env _)).trans ?_
  refine (run_bind_ok hclean).trans ?_
  refine (run_bind_ok (run_getActiveBidItemId env _)).trans ?_
  refine (run_bind_ok hget).trans ?_
  rcases item_cases hspan with ⟨rfl, hnext⟩ | ⟨item', lot', rfl, hnext, hitem⟩
  · rw [hnext]
    rfl
  · simp [hnext, hitem]

end Branches

/-! ## The tick -/

/-- A tick of a sale that is not over leaves it as it is or advances it. -/
theorem run_timerTask_cases (env : Env) {w : World} {s : Sale BidSequence} (h : Refines s w)
    (hwf : WellFormed s.lots) (hover : ¬ s.Over) :
    ∃ outcome s' w', run (handle env) timerTask w = (.ok outcome, w') ∧
      Ticked env s w outcome s' w' := by
  cases hstarted : s.started with
  | false =>
    -- the first tick: there is nothing to close
    obtain ⟨w', hrefines, hterms, hopened, hrun⟩ :=
      run_setNextBidItem_start env h hwf hstarted
    refine ⟨_, s.advance, w', run_timerTask_of env w hrun, ?_⟩
    have hcurrent := (s.fresh hstarted).1
    have hticked := Ticked.advance (w := w) hrefines hterms (by simp [hcurrent])
      hopened
    cases hnext : s.waiting.head? with
    | none => simpa [hnext, resultOutcome] using hticked
    | some lot => simpa [hnext, resultOutcome] using hticked
  | true =>
    obtain ⟨lot, hcurrent⟩ : ∃ lot, s.current = some lot := by
      cases hc : s.current with
      | none => exact absurd ⟨hstarted, hc⟩ hover
      | some lot => exact ⟨lot, rfl⟩
    obtain ⟨item, E, U, X, htimes, hE, hU, hX, hrun⟩ :=
      run_setNextBidItem_next env h hwf hcurrent
    have htime : ∀ n, run (handle env) (getTimeLeft item) { w with reads := n } =
        (.ok (countdown E U X (env.second n)), { w with reads := n + 1 }) :=
      fun n => run_getTimeLeft env { w with reads := n } hE hU hX
    rw [run_bind_ok (htime _)] at hrun
    by_cases hleft : 0 < countdown E U X (env.second (checkReading w lot.bidItemId))
    · -- time is left: it is computed twice more, and the sale stays where it is
      rw [if_pos hleft, run_bind_ok (htime _)] at hrun
      exact ⟨_, s, _, run_timerTask_of env w (hrun.trans (htime _)),
        .stay hcurrent htimes hleft⟩
    · -- the time is up: the lot is closed and the next one opened
      rw [if_neg hleft] at hrun
      obtain ⟨w', hrefines, hterms, hreads, hopened, hhand⟩ := run_handOver env
        (n := checkReading w lot.bidItemId + 1) h hwf hcurrent
        (by unfold checkReading; omega)
      refine ⟨_, s.advance, w', run_timerTask_of env w (hrun.trans hhand), ?_⟩
      have hclosed : ∀ lot', s.current = some lot' → ∃ E U X, TimeUp env w w' lot' E U X := by
        intro lot' hlot'
        obtain rfl : lot = lot' := by simpa [hcurrent] using hlot'
        exact ⟨E, U, X, htimes, not_lt.mp hleft, by omega⟩
      have hticked := Ticked.advance hrefines hterms hclosed hopened
      cases hnext : s.waiting.head? with
      | none => simpa [hnext, resultOutcome, outcomeOf] using hticked
      | some lot' => simpa [hnext, resultOutcome] using hticked

/-- The first tick of a sale offers its first lot. -/
theorem Refines.first_tick (env : Env) {w : World} {s : Sale BidSequence} (h : Refines s w)
    (hwf : WellFormed s.lots) (hstarted : s.started = false) :
    Refines s.advance (run (handle env) timerTask w).2 := by
  obtain ⟨w', hrefines, -, -, hrun⟩ := run_setNextBidItem_start env h hwf hstarted
  rw [run_timerTask_of env w hrun]
  exact hrefines

end Bidding.Model
