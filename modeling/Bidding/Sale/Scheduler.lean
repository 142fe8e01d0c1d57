import Bidding.Effects.Runs
import Bidding.Model.Controllers
import Bidding.Sale.Start

/-!
# Runs of the Scheduler

A run of the scheduler of one sale: ticks of its timer, as long as the timer is alive, and
requests of the observer who extends the time of some item, in any order.

## Key Results

- **`Cached.run_doExtendBidding`**: what an extension writes.
- **`Running.step`**: every event leaves the sale as it is, or is a tick that advances it at
  a time at which the lot on offer had reached its end.
-/

namespace Bidding.Model

open Bidding.Effects Bidding.Effects.Action Bidding.KeyValue
open RedisCacheService BidItemsCacheService ObserverController

/-! ## Extensions -/

/-- An extension writes the hash of its item only. -/
theorem within_doExtendBidding (id extendTime : ℤ) :
    Within (cacheOnly (· = .bidItem id)) (doExtendBidding id extendTime) := by
  refine issues_bind (within_getBidItem id) fun item => issues_bind within_now fun cal => ?_
  -- a request for an item that the cache has not ends before it writes
  cases item with
  | none => exact issues_throw _
  | some item =>
    refine issues_bind (within_getTimeLeft item) fun timeLeft => ?_
    dsimp only
    split
    · exact issues_throw _
    · exact issues_bind (within_setDate _ _ rfl) fun _ =>
        issues_bind (within_setDate _ _ rfl) fun _ => issues_pure _

/-- The item is missing: the request fails before it writes. -/
theorem run_doExtendBidding_absent (env : Env) (w : World) {id extendTime : ℤ}
    (h : .long id ∉ w.redis.sets .bidItems) :
    run (handle env) (doExtendBidding id extendTime) w =
      (.error .nullPointer, { w with reads := w.reads + 1 }) := by
  unfold doExtendBidding
  rw [run_bind_ok (run_getBidItem_absent env w h), run_bind_ok (run_now env w)]
  rfl

/-- An item with two new dates. -/
def setDates (r : Redis) (id : ℤ) (bidEndTime lastUpDateTime : Date) : Redis :=
  (r.hset (.bidItem id) .bidEndTime (Text.format bidEndTime)).hset (.bidItem id) .lastUpDateTime
    (Text.format lastUpDateTime)

theorem Cached.with_dates {r : Redis} {id : ℤ} (h : Cached r id) (e u : Date) :
    Cached (setDates r id e u) id :=
  (h.hset_date (.inl rfl) e).hset_date (.inr rfl) u

theorem cachedTimes_setDates {r : Redis} {id E U X : ℤ} (h : CachedTimes r id E U X)
    (e u : Date) : CachedTimes (setDates r id e u) id (secondOf e) (secondOf u) X where
  bidEndTime := by simp [setDates, Text.format]
  lastUpDateTime := by simp [setDates, Text.format]
  timeExtAfterBid := by simpa [setDates] using h.timeExtAfterBid

/-- The end time that an extension gives to an item: the time left at one clock reading, and
    the extension, from the reading before. -/
def extendedEnd (env : Env) (w : World) (id extendTime E U X : ℤ) : Date :=
  addSeconds (env.clock (checkReading w id))
    (toInt32 (toInt32 (countdown E U X (env.second (checkReading w id + 1))) + extendTime))

/-- An extension of a cached item. -/
theorem Cached.run_doExtendBidding (env : Env) {w : World} {id : ℤ} (h : Cached w.redis id)
    (extendTime : ℤ) :
    ∃ E U X, CachedTimes w.redis id E U X ∧
      run (handle env) (doExtendBidding id extendTime) w = (.ok (), { w with
        redis := setDates w.redis id (extendedEnd env w id extendTime E U X)
          (addSeconds (extendedEnd env w id extendTime E U X) (toInt32 (-(X + 10))))
        reads := checkReading w id + 2 }) := by
  obtain ⟨item, E, U, X, hget, htimes, hE, hU, hX⟩ := h.run_getBidItem env
  refine ⟨E, U, X, htimes, ?_⟩
  have hleft := run_getTimeLeft env { w with reads := checkReading w id + 1 } hE hU hX
  unfold doExtendBidding
  refine (run_bind_ok hget).trans ?_
  refine (run_bind_ok (run_now env _)).trans ?_
  refine (run_bind_ok hleft).trans ?_
  -- the last update is computed from the extension of the item that was read
  simp only [hX]
  refine (run_bind_ok (run_setDate_present env _ .bidEndTime _ (by exact h.member))).trans ?_
  exact run_bind_ok (run_setDate_present env _ .lastUpDateTime _ (by exact h.member))

/-! ## Frames -/

/-- The keys through which the cache stands for a sale, besides those of the items. -/
def SaleKey : Key → Prop
  | .bidItemSequenceIds | .activeBidItemId | .expiredBidItems | .bidSequence _ => True
  | _ => False

/-- A sale is not affected by what happens to the items on offer or sold, as long as they
    stay in the cache. -/
theorem Refines.congr {s : Sale BidSequence} {w w' : World} (h : Refines s w)
    (hflag : w'.startFlag = w.startFlag)
    (hkeys : ∀ k, SaleKey k → Store.SameAt k w'.redis w.redis)
    (hopened : ∀ lot ∈ s.opened, Cached w'.redis lot.bidItemId)
    (hpending : ∀ lot ∈ s.waiting, Uncached w'.redis lot.bidItemId)
    (hzero : .long 0 ∉ w'.redis.sets .bidItems)
    (hload : ∀ lot ∈ s.lots, CommonDao.Loadable w'.db lot.bidItemId)
    (hended : ∀ lot ∈ s.sold, CommonDao.Ended w'.db lot.bidItemId) : Refines s w' where
  startFlag := hflag.trans h.startFlag
  queue := (hkeys .bidItemSequenceIds trivial).lists.trans h.queue
  active := (hkeys .activeBidItemId trivial).strings.trans h.active
  expired := (hkeys .expiredBidItems trivial).sets.trans h.expired
  opened := hopened
  pending := hpending
  data := h.data.of_sameAt (fun _ _ => hkeys _ trivial) hload hzero
  ended := hended

theorem Refines.of_reads {s : Sale BidSequence} {w : World} (h : Refines s w) (n : ℕ) :
    Refines s { w with reads := n } :=
  h.congr rfl (fun _ _ => Store.SameAt.refl _ _) h.opened h.pending h.data.zero h.data.loadable
    h.ended

/-- A request that touches the hash of one item only does not affect the sale, if the item
    stays in the cache, or out of it. -/
theorem Refines.of_item {s : Sale BidSequence} {w : World} (h : Refines s w) {r : Redis}
    {id : ℤ} (n : ℕ) (hsame : ∀ k, k ≠ .bidItem id → Store.SameAt k r w.redis)
    (hopened : ∀ lot ∈ s.opened, lot.bidItemId = id → Cached r id)
    (hpending : ∀ lot ∈ s.waiting, lot.bidItemId = id → Uncached r id) :
    Refines s { w with redis := r, reads := n } := by
  have hitems : r.sets .bidItems = w.redis.sets .bidItems := (hsame .bidItems (by simp)).sets
  refine h.congr rfl (fun k hk => hsame k (by rintro rfl; exact hk)) ?_ ?_ ?_ h.data.loadable
    h.ended
  · intro lot hlot
    by_cases hid : lot.bidItemId = id
    · exact hid ▸ hopened lot hlot hid
    · exact (h.opened lot hlot).of_sameAt (hsame _ (by simpa using hid))
        (fun _ ht => hitems ▸ ht)
  · intro lot hlot
    -- the item may be a lot that waits, if it stays out of the cache
    by_cases hid : lot.bidItemId = id
    · exact hid ▸ hpending lot hlot hid
    · exact (h.pending lot hlot).of_sameAt (hsame _ (by simpa using hid))
        (hitems ▸ (h.pending lot hlot).absent)
  · exact hitems ▸ h.data.zero

/-! ## Times -/

/-- The extensions of the lots are at most a day. -/
def BoundedExtensions (lots : List BidSequence) (db : Db) : Prop :=
  ∀ lot ∈ lots, ∀ row, db.bidItems lot.bidItemId = some row →
    0 ≤ row.timeExtAfterBid.getD 0 ∧ row.timeExtAfterBid.getD 0 ≤ 86400

/-- The bounds stay while the terms do. -/
theorem BoundedExtensions.of_sameTerms {lots : List BidSequence} {db db' : Db}
    (h : BoundedExtensions lots db) (hterms : SameTerms db db') : BoundedExtensions lots db' := by
  intro lot hlot row' hrow'
  have hmap := hterms lot.bidItemId
  rw [hrow', Option.map_some, eq_comm, Option.map_eq_some_iff] at hmap
  obtain ⟨row, hrow, heq⟩ := hmap
  have hext : row.timeExtAfterBid = row'.timeExtAfterBid := congrArg (fun p => p.2.2) heq
  exact hext ▸ h lot hlot row hrow

/-- The times of an item on offer: an extension in bounds, and either an end time that leaves
    room for the extension, or a last update in the past. -/
def Timed (env : Env) (w : World) (id : ℤ) : Prop :=
  ∀ E U X, CachedTimes w.redis id E U X →
    0 ≤ X ∧ X ≤ 86400 ∧ (U + X ≤ E ∨ ∀ n, w.reads ≤ n → U ≤ env.second n)

/-- The cache has one set of times for an item. -/
theorem CachedTimes.unique {r : Redis} {id E U X E' U' X' : ℤ} (h : CachedTimes r id E U X)
    (h' : CachedTimes r id E' U' X') : E = E' ∧ U = U' ∧ X = X' := by
  have hE := h.bidEndTime.symm.trans h'.bidEndTime
  have hU := h.lastUpDateTime.symm.trans h'.lastUpDateTime
  have hX := h.timeExtAfterBid.symm.trans h'.timeExtAfterBid
  simp only [Option.some.injEq, Text.date.injEq, Text.long.injEq] at hE hU hX
  exact ⟨hE, hU, hX⟩

/-- Times that are in order stay so while the hash is left alone and the clock goes on. -/
theorem Timed.of_sameAt {env : Env} {w w' : World} {id : ℤ} (h : Timed env w id)
    (hsame : Store.SameAt (.bidItem id) w'.redis w.redis) (hreads : w.reads ≤ w'.reads) :
    Timed env w' id := by
  intro E U X htimes
  have hold : CachedTimes w.redis id E U X := htimes.of_sameAt hsame.symm
  obtain ⟨hX, hX', hlate⟩ := h E U X hold
  exact ⟨hX, hX', hlate.imp_right fun hU n hn => hU n (hreads.trans hn)⟩

/-- A lot that has just been opened has its times in order. -/
theorem OpenedAt.timed {env : Env} {w w' : World} {lots : List BidSequence} {lot : BidSequence}
    {t : ℕ} (h : OpenedAt env w w' lot t) (hlot : lot ∈ lots)
    (hext : BoundedExtensions lots w.db) : Timed env w' lot.bidItemId := by
  obtain ⟨row, hrow, hX⟩ := h.timeExtAfterBid
  obtain ⟨hlow, hhigh⟩ := hext lot hlot row hrow
  intro E U X htimes
  -- the last update of the new lot is the time of its opening
  obtain ⟨-, rfl, rfl⟩ := htimes.unique ⟨h.bidEndTime, h.lastUpDateTime, hX⟩
  refine ⟨hlow, hhigh, .inr fun n hn => ?_⟩
  have hle : t ≤ n := (Nat.le_of_lt h.before).trans hn
  exact secondOf_le_toSeconds (env.clock_mono hle)

/-- A lot whose time is up has reached its end. -/
theorem le_of_countdown_nonpos {E U X t : ℤ} (hX : 0 ≤ X) (hlate : U + X ≤ E ∨ U ≤ t)
    (h : countdown E U X t ≤ 0) : E ≤ t := by
  unfold countdown at h
  split at h
  · omega
  · split at h <;> omega

/-! ## The scheduler -/

/-- The world, and whether the timer of the sale is alive. -/
structure Scheduler where
  world : World
  alive : Bool

/-- What can happen to the scheduler of a sale. -/
inductive Event where
  | tick
  | extend (bidItemId extendTime : ℤ)

/-- The task of a timer that is alive. -/
def Scheduler.tick (env : Env) (c : Scheduler) : Scheduler :=
  match run (handle env) timerTask c.world with
  | (.ok (.sleep _), w) => ⟨w, true⟩
  | (_, w) => ⟨w, false⟩

/-- One event. A timer that is cancelled does not fire any more. -/
def Scheduler.step (env : Env) (c : Scheduler) : Event → Scheduler
  | .tick => if c.alive then c.tick env else c
  | .extend id extendTime =>
    { c with world := (run (handle env) (doExtendBidding id extendTime) c.world).2 }

/-- The scheduler that `initCache` creates. -/
def Scheduler.start (env : Env) (w : World) : Scheduler where
  world := (run (handle env) initCache w).2
  alive := true

theorem step_alive (env : Env) {c : Scheduler} (h : c.alive = true) :
    c.step env .tick = c.tick env := if_pos h

theorem step_dead (env : Env) {c : Scheduler} (h : c.alive = false) : c.step env .tick = c :=
  if_neg (by simp [h])

theorem tick_of_run {env : Env} {c : Scheduler} {outcome : TaskOutcome} {w : World}
    (h : run (handle env) timerTask c.world = (.ok outcome, w)) :
    c.tick env = ⟨w, sleeps outcome⟩ := by
  unfold Scheduler.tick
  rw [h]
  cases outcome <;> rfl

/-! ## The invariant -/

/-- The scheduler runs the sale `s` of some lots. -/
structure Running (lots : List BidSequence) (s : Sale BidSequence) (c : Scheduler) : Prop where
  lots_eq : s.lots = lots
  refines : Refines s c.world
  alive : c.alive = true → ¬ s.Over

/-- The extensions of all lots and the times of the lot on offer are in bounds, and the span of
    this lot is cached. -/
structure Punctual (env : Env) (lots : List BidSequence) (s : Sale BidSequence) (w : World) :
    Prop where
  extensions : BoundedExtensions lots w.db
  timed : ∀ lot, s.current = some lot → Timed env w lot.bidItemId
  span : ∀ lot, s.current = some lot →
    w.redis.hashes (.bidItem lot.bidItemId) .bidSpan = some (.long lot.bidspan)

/-- A tick that advances the sale: the lot on offer had reached its end at some clock reading
    of the tick. -/
def ClosedAtEnd (env : Env) (s : Sale BidSequence) (c c' : Scheduler) : Prop :=
  ∀ lot, s.current = some lot → ∃ E n,
    c.world.redis.hashes (.bidItem lot.bidItemId) .bidEndTime = some (.date E) ∧
      c.world.reads ≤ n ∧ n < c'.world.reads ∧ E ≤ env.second n

section Steps

variable {env : Env} {lots : List BidSequence} {s : Sale BidSequence} {c : Scheduler}

/-- The sale runs when the cache has been loaded. -/
theorem running_start (env : Env) (w : World)
    (h : Saleable w.db (CommonDao.getCurrentBidSequence w.db w.auctionId)) :
    Running (reached (CommonDao.getCurrentBidSequence w.db w.auctionId))
      (Sale.start (reached (CommonDao.getCurrentBidSequence w.db w.auctionId)))
      (Scheduler.start env w) where
  lots_eq := rfl
  refines := refines_initCache env w h
  alive _ hover := Bool.noConfusion hover.1

/-- Nothing is on offer at the start, so all times are in order. -/
theorem punctual_start (env : Env) (w : World)
    (hext : BoundedExtensions (CommonDao.getCurrentBidSequence w.db w.auctionId) w.db) :
    Punctual env (reached (CommonDao.getCurrentBidSequence w.db w.auctionId))
      (Sale.start (reached (CommonDao.getCurrentBidSequence w.db w.auctionId)))
      (Scheduler.start env w).world where
  extensions lot hlot := by
    obtain ⟨r, n, hrun, -⟩ := run_initCache env w
    simp only [Scheduler.start, hrun]
    exact hext lot (mem_of_mem_reached hlot)
  timed lot hlot := by simp [Sale.start] at hlot
  span lot hlot := by simp [Sale.start] at hlot

/-! ### Extensions -/

/-- An extension leaves the sale as it is. -/
theorem Refines.extend {w : World} (h : Refines s w) (id extendTime : ℤ) :
    Refines s (run (handle env) (doExtendBidding id extendTime) w).2 := by
  by_cases hid : ∃ lot ∈ s.opened, lot.bidItemId = id
  · -- an item that is or was on offer gets two new dates
    obtain ⟨lot, hlot, rfl⟩ := hid
    have hcached := h.opened lot hlot
    obtain ⟨E, U, X, -, hrun⟩ := hcached.run_doExtendBidding env extendTime
    rw [hrun]
    refine h.of_item _ (fun k hk => ?_) (fun _ _ _ => hcached.with_dates _ _)
      (fun lot' hlot' heq => ?_)
    · exact (Store.sameAt_hset _ hk _ _).trans (Store.sameAt_hset _ hk _ _)
    · exact absurd hcached.member (heq ▸ (h.pending lot' hlot').absent)
  · -- the hash of any other item may change, unless it waits: then the request fails
    obtain ⟨r, n, hworld, hsame⟩ := (within_doExtendBidding id extendTime).run_cacheOnly env w
    rw [hworld]
    refine h.of_item _ hsame (fun lot hlot heq => absurd ⟨lot, hlot, heq⟩ hid) ?_
    rintro lot hlot rfl
    have hfresh := h.pending lot hlot
    rw [run_doExtendBidding_absent env w hfresh.absent] at hworld
    have hredis : w.redis = r := congrArg World.redis hworld
    exact hredis ▸ hfresh

theorem Running.extend (h : Running lots s c) (id extendTime : ℤ) :
    Running lots s (c.step env (.extend id extendTime)) :=
  ⟨h.lots_eq, h.refines.extend id extendTime, h.alive⟩

/-- After an extension of a lot on offer, its end time leaves room for its extension. -/
theorem Timed.extend {w : World} {id : ℤ} (h : Timed env w id) (hcached : Cached w.redis id)
    (extendTime : ℤ) :
    Timed env (run (handle env) (doExtendBidding id extendTime) w).2 id := by
  obtain ⟨E, U, X, htimes, hrun⟩ := hcached.run_doExtendBidding env extendTime
  rw [hrun]
  obtain ⟨hX, hX', -⟩ := h E U X htimes
  intro E' U' X' htimes'
  obtain ⟨rfl, rfl, rfl⟩ := htimes'.unique (cachedTimes_setDates htimes _ _)
  refine ⟨hX, hX', .inl ?_⟩
  -- by the bounds the offset does not overflow
  have hsmall : toInt32 (-(X' + 10)) = -(X' + 10) := by
    unfold toInt32
    rw [Int.bmod_eq_of_le] <;> omega
  rw [secondOf_addSeconds, hsmall]
  omega

/-- An extension leaves the times in order. -/
theorem Punctual.extend (h : Punctual env lots s c.world) (hrefines : Refines s c.world)
    (id extendTime : ℤ) : Punctual env lots s (c.step env (.extend id extendTime)).world where
  extensions := by
    obtain ⟨r, n, hworld, -⟩ := (within_doExtendBidding id extendTime).run_cacheOnly env c.world
    simp only [Scheduler.step, hworld]
    exact h.extensions
  timed lot hlot := by
    by_cases heq : lot.bidItemId = id
    · subst heq
      exact (h.timed lot hlot).extend (hrefines.opened lot (Sale.mem_opened_of_current hlot)) _
    · refine (h.timed lot hlot).of_sameAt ?_ (reads_le_run env c.world _)
      exact (within_doExtendBidding id extendTime).sameAt env c.world
        (fun hk => heq (Key.bidItem.inj hk))
  span lot hlot := by
    by_cases heq : lot.bidItemId = id
    · -- an extension writes the two dates of the item only
      subst heq
      obtain ⟨E, U, X, -, hrun⟩ := (hrefines.opened lot
        (Sale.mem_opened_of_current hlot)).run_doExtendBidding env extendTime
      simp only [Scheduler.step, hrun, setDates, Store.hashes_hset, reduceCtorEq, if_false]
      exact h.span lot hlot
    · have hsame := (within_doExtendBidding id extendTime).sameAt env c.world
        (fun hk : Key.bidItem lot.bidItemId = .bidItem id => heq (Key.bidItem.inj hk))
      exact (congrFun hsame.hashes .bidSpan).trans (h.span lot hlot)

/-! ### Ticks -/

/-- What a tick does to a sale, it does to the scheduler that runs the sale. -/
theorem Running.of_ticked (h : Running lots s c) {outcome : TaskOutcome} {s' : Sale BidSequence}
    {w' : World} (hticked : Ticked env s c.world outcome s' w') :
    Running lots s' ⟨w', sleeps outcome⟩ := by
  cases hticked with
  | @stay lot E U X hcurrent htimes hleft =>
    exact ⟨h.lots_eq, h.refines.of_reads _, fun _ hover => absurd hover.2 (by simp [hcurrent])⟩
  | advance hrefines hterms hclosed hopened =>
    refine ⟨s.advance_lots.trans h.lots_eq, hrefines, fun hout hover => ?_⟩
    have hnext : s.waiting.head? = none := hover.2
    simp [hnext, sleeps] at hout

/-- A tick of a timer that is alive. -/
theorem Running.tick (env : Env) (h : Running lots s c) (hwf : WellFormed lots)
    (halive : c.alive = true) :
    ∃ outcome s' w', Ticked env s c.world outcome s' w' ∧
      c.tick env = ⟨w', sleeps outcome⟩ ∧ Running lots s' (c.tick env) := by
  obtain ⟨outcome, s', w', hrun, hticked⟩ :=
    run_timerTask_cases env h.refines (h.lots_eq ▸ hwf) (h.alive halive)
  have htick := tick_of_run hrun
  refine ⟨outcome, s', w', hticked, htick, ?_⟩
  rw [htick]
  exact h.of_ticked hticked

/-- A tick leaves the times in order: a lot that it opens is timed anew. -/
theorem Punctual.tick {outcome : TaskOutcome} {s' : Sale BidSequence} {w w' : World}
    (h : Punctual env lots s w) (hlots : s.lots = lots)
    (hticked : Ticked env s w outcome s' w') : Punctual env lots s' w' := by
  cases hticked with
  -- the clock has gone on, and the dates are the same
  | stay =>
    refine ⟨h.extensions, fun lot hlot => (h.timed lot hlot).of_sameAt (Store.SameAt.refl _ _) ?_,
      h.span⟩
    simp only [checkReading]
    omega
  | advance hrefines hterms hclosed hopened =>
    refine ⟨h.extensions.of_sameTerms hterms, fun lot hlot => ?_, fun lot hlot => ?_⟩
    · obtain ⟨t, hopen⟩ := hopened lot hlot
      refine hopen.timed ?_ h.extensions
      rw [← hlots]
      exact Sale.mem_lots_of_waiting (List.mem_of_mem_head? hlot)
    · obtain ⟨t, hopen⟩ := hopened lot hlot
      exact hopen.bidSpan

/-- A lot is closed at a time at which it has reached its end. -/
theorem Punctual.closed {w w' : World} (h : Punctual env lots s w) {lot : BidSequence}
    {E U X : ℤ} (hcurrent : s.current = some lot) (hup : TimeUp env w w' lot E U X) :
    E ≤ env.second (checkReading w lot.bidItemId) := by
  obtain ⟨hX, -, hlate⟩ := h.timed lot hcurrent E U X hup.times
  refine le_of_countdown_nonpos hX (hlate.imp_right fun hU => hU _ ?_) hup.up
  exact Nat.le_add_right _ _

/-! ### Events -/

/-- The scheduler runs some sale after every event. -/
theorem Running.exists_step (h : Running lots s c) (hwf : WellFormed lots) (e : Event) :
    ∃ s', Running lots s' (c.step env e) := by
  cases e with
  | extend id extendTime => exact ⟨s, h.extend id extendTime⟩
  | tick =>
    cases halive : c.alive with
    | false => exact ⟨s, (step_dead env halive).symm ▸ h⟩
    | true =>
      obtain ⟨-, s', -, -, -, hrunning⟩ := h.tick env hwf halive
      exact ⟨s', (step_alive env halive).symm ▸ hrunning⟩

/-- Every event leaves the sale as it is, or is a tick that advances it. -/
theorem Running.step (h : Running lots s c) (hp : Punctual env lots s c.world)
    (hwf : WellFormed lots) (e : Event) :
    ∃ s', Running lots s' (c.step env e) ∧ Punctual env lots s' (c.step env e).world ∧
      (s' = s ∨ s' = s.advance ∧ e = .tick ∧ ClosedAtEnd env s c (c.step env e)) := by
  cases e with
  | extend id extendTime =>
    exact ⟨s, h.extend id extendTime, hp.extend h.refines id extendTime, .inl rfl⟩
  | tick =>
    cases halive : c.alive with
    -- a timer that was cancelled does nothing
    | false =>
      rw [step_dead env halive]
      exact ⟨s, h, hp, .inl rfl⟩
    | true =>
      obtain ⟨outcome, s', w', hticked, htick, hrunning⟩ := h.tick env hwf halive
      rw [step_alive env halive]
      refine ⟨s', hrunning, ?_⟩
      rw [htick]
      refine ⟨hp.tick h.lots_eq hticked, ?_⟩
      -- whether the lot was handed over or stays on offer
      cases hticked with
      | stay => exact .inl rfl
      | advance hrefines hterms hclosed hopened =>
        refine .inr ⟨rfl, rfl, fun lot hlot => ?_⟩
        obtain ⟨E, U, X, hup⟩ := hclosed lot hlot
        exact ⟨E, checkReading c.world lot.bidItemId, hup.times.bidEndTime,
          Nat.le_add_right _ _, hup.before, hp.closed hlot hup⟩

end Steps

end Bidding.Model
