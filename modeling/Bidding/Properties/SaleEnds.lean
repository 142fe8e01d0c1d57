import Bidding.Properties.Countdown
import Bidding.Sale.LotSteps

/-!
# Does the Sale Come to an End?

The timer's task sleeps at its end, for the span of the lot that it opened or for the time that
the lot on offer has left, and the timer runs it again after that. So when the task runs again,
the time of the lot on offer is up, unless the observer extended it in the meantime: every tick
closes a lot, or makes up for an extension. A sale of `n` lots is therefore over after `n + 1`
ticks and one more for each extension.

This needs that no lot's extension after a bid is longer than the lot's span, since the time left
of such a lot grows, and that the second does not turn while a tick tests the lot, since the
timer is cancelled for good if the time left is gone at the last of three readings.

## Key Results

- **`Selling.tick`**: a tick closes a lot, or is made up for by an extension before it.
- **`everythingSold_of_timely`**: after enough ticks every lot is sold and the timer is cancelled.
-/

namespace Bidding.Model

open Bidding.Effects Bidding.Effects.Action Bidding.KeyValue
open RedisCacheService BidItemsCacheService ObserverController

/-! ## The timer and its sleep -/

/-- The scheduler, and the time before which the task of its timer does not run. -/
structure TimedScheduler where
  scheduler : Scheduler
  wake : Date

namespace TimedScheduler

/-- The end of the sleep at the end of a tick, which starts after the tick's last clock reading.
    The timer has a fixed delay of a second, which is over by then. -/
def wakeFor (env : Env) (wake : Date) (w : World) : TaskOutcome → Date
  | .sleep seconds => addSeconds (env.clock (w.reads - 1)) seconds
  | .cancel => wake

/-- The time before which the task does not run again after a tick. -/
def wakeAfter (env : Env) (c : TimedScheduler) : Date :=
  match run (handle env) timerTask c.scheduler.world with
  | (.ok outcome, w) => wakeFor env c.wake w outcome
  | (.error _, _) => c.wake

/-- One event. -/
def step (env : Env) (c : TimedScheduler) (e : Event) : TimedScheduler where
  scheduler := c.scheduler.step env e
  wake := match e with
    | .tick => if c.scheduler.alive then c.wakeAfter env else c.wake
    | .extend _ _ => c.wake

/-- The scheduler that `initCache` creates, with the start time of its timer. -/
def start (env : Env) (w : World) : TimedScheduler where
  scheduler := Scheduler.start env w
  wake := (startTimeOf w).getD 0

end TimedScheduler

/-- The second does not turn between the three readings with which a tick can test the active
    item, if there is one. -/
def SteadyTest (env : Env) (w : World) : Prop :=
  activeId w.redis ≠ 0 → env.second (checkReading w (activeId w.redis) + 2) =
    env.second (checkReading w (activeId w.redis))

instance (env : Env) (w : World) : Decidable (SteadyTest env w) :=
  inferInstanceAs (Decidable (_ → _))

/-- A tick of a live timer comes after the sleep, and tests in a steady second. -/
def Timely (env : Env) (c : TimedScheduler) : Event → Prop
  | .tick => c.scheduler.alive = true →
    c.wake ≤ env.clock c.scheduler.world.reads ∧ SteadyTest env c.scheduler.world
  | .extend _ _ => True

instance (env : Env) (c : TimedScheduler) : (e : Event) → Decidable (Timely env c e)
  | .tick => inferInstanceAs (Decidable (_ = true → _ ∧ SteadyTest _ _))
  | .extend _ _ => inferInstanceAs (Decidable True)

/-! ## Lots -/

/-- Spans are positive and no extension after a bid is longer than the span of its lot; with ten
    seconds more they are still `int` values. -/
structure FairSpans (lots : List BidSequence) (db : Db) : Prop where
  span : ∀ lot ∈ lots, 1 ≤ lot.bidspan ∧ lot.bidspan + 10 < 2 ^ 31
  extension : ∀ lot ∈ lots, ∀ row, db.bidItems lot.bidItemId = some row →
    0 ≤ row.timeExtAfterBid.getD 0 ∧ row.timeExtAfterBid.getD 0 ≤ lot.bidspan

/-- The condition is on columns that a tick leaves. -/
theorem FairSpans.of_sameTerms {lots : List BidSequence} {db db' : Db} (h : FairSpans lots db)
    (hterms : SameTerms db db') : FairSpans lots db' := by
  refine ⟨h.span, fun lot hlot row' hrow' => ?_⟩
  have hmap := hterms lot.bidItemId
  rw [hrow', Option.map_some, eq_comm, Option.map_eq_some_iff] at hmap
  obtain ⟨row, hrow, heq⟩ := hmap
  have hext : row.timeExtAfterBid = row'.timeExtAfterBid := congrArg (fun p => p.2.2) heq
  exact hext ▸ h.extension lot hlot row hrow

/-- A lot on offer whose end leaves room for its extension. -/
structure Regular (r : Redis) (id E U X : ℤ) : Prop where
  times : CachedTimes r id E U X
  extension : 0 ≤ X ∧ X + 10 < 2 ^ 31
  room : U + X ≤ E

/-- The time left of a regular lot. -/
theorem Regular.countdown_eq {r : Redis} {id E U X : ℤ} (h : Regular r id E U X) (t : ℤ) :
    countdown E U X t = max 0 (E - t) := by
  rw [countdown_of_room h.room, max_eq_left h.room]

/-! ## A sale in progress -/

/-- The timer is alive and sells the lots of `s`; `due` says that nothing has extended the lot on
    offer since the last tick, so that its time is up when the timer's task runs again. -/
structure Selling (lots : List BidSequence) (s : Sale BidSequence) (due : Bool)
    (c : TimedScheduler) : Prop where
  running : Running lots s c.scheduler
  alive : c.scheduler.alive = true
  fair : FairSpans lots c.scheduler.world.db
  regular : ∀ lot, s.current = some lot → ∃ E U X,
    Regular c.scheduler.world.redis lot.bidItemId E U X ∧ (due = true → E ≤ toSeconds c.wake)

/-- Everything is sold, and the timer is cancelled. -/
def Finished (lots : List BidSequence) (c : TimedScheduler) : Prop :=
  c.scheduler.alive = false ∧ ∃ s, Running lots s c.scheduler ∧ s.Over

/-- So many ticks are enough for the rest of the sale. -/
def TicksLeft (lots : List BidSequence) (k : ℕ) (c : TimedScheduler) : Prop :=
  Finished lots c ∨
    ∃ s due, Selling lots s due c ∧ s.waiting.length + 1 + (if due then 0 else 1) ≤ k

section Steps

variable {env : Env} {lots : List BidSequence} {s : Sale BidSequence} {due : Bool}
  {c : TimedScheduler}

/-! ### Extensions -/

/-- An extended lot is regular: its last update is put ten seconds before its extension. -/
theorem Regular.extend (env : Env) {w : World} {id E U X : ℤ} (h : Regular w.redis id E U X)
    (hcached : Cached w.redis id) (extendTime : ℤ) :
    ∃ E' U', Regular (run (handle env) (doExtendBidding id extendTime) w).2.redis id E' U' X := by
  obtain ⟨E₀, U₀, X₀, htimes, hrun⟩ := hcached.run_doExtendBidding env extendTime
  obtain ⟨rfl, rfl, rfl⟩ := htimes.unique h.times
  rw [hrun]
  refine ⟨_, _, cachedTimes_setDates htimes _ _, h.extension, ?_⟩
  obtain ⟨hlow, hhigh⟩ := h.extension
  rw [secondOf_addSeconds, toInt32_of_fits (by omega) (by omega)]
  omega

/-- An extension keeps the sale going, but the sleep may now end too early. -/
theorem Selling.extend (h : Selling lots s due c) (id extendTime : ℤ) :
    Selling lots s false (c.step env (.extend id extendTime)) where
  running := h.running.extend id extendTime
  alive := h.alive
  fair := by
    obtain ⟨r, n, hworld, -⟩ :=
      (within_doExtendBidding id extendTime).run_cacheOnly env c.scheduler.world
    simp only [TimedScheduler.step, Scheduler.step, hworld]
    exact h.fair
  regular lot hlot := by
    obtain ⟨E, U, X, hregular, -⟩ := h.regular lot hlot
    -- an extension of another item does not touch the lot on offer
    by_cases heq : lot.bidItemId = id
    · subst heq
      have hcached := h.running.refines.opened lot (Sale.mem_opened_of_current hlot)
      obtain ⟨E', U', hnew⟩ := hregular.extend env hcached extendTime
      exact ⟨E', U', X, hnew, fun hfalse => absurd hfalse Bool.false_ne_true⟩
    · have hsame := (within_doExtendBidding id extendTime).sameAt env c.scheduler.world
        (k := .bidItem lot.bidItemId) (fun hk => heq (Key.bidItem.inj hk))
      exact ⟨E, U, X, ⟨hregular.times.of_sameAt hsame, hregular.extension, hregular.room⟩,
        fun hfalse => absurd hfalse Bool.false_ne_true⟩

/-! ### Ticks -/

/-- The scheduler after a tick with a known outcome. -/
theorem step_tick_of_run {outcome : TaskOutcome} {w : World} (halive : c.scheduler.alive = true)
    (hrun : run (handle env) timerTask c.scheduler.world = (.ok outcome, w)) :
    c.step env .tick =
      ⟨⟨w, sleeps outcome⟩, TimedScheduler.wakeFor env c.wake w outcome⟩ := by
  unfold TimedScheduler.step TimedScheduler.wakeAfter
  rw [step_alive env halive, tick_of_run hrun, hrun]
  simp only [halive, if_true]

theorem toSeconds_addSeconds {d n : ℤ} (hd : 0 ≤ d) (hn : 0 ≤ n) :
    toSeconds (addSeconds d n) = toSeconds d + n := by
  have hsum : 0 ≤ addSeconds d n := (by omega : (0 : ℤ) ≤ d + n * 1000)
  rw [toSeconds_eq_secondOf hsum, toSeconds_eq_secondOf hd, secondOf_addSeconds]

/-- A tick that finds time left sleeps until the end of the lot. That only happens after an
    extension. -/
theorem Selling.stay (h : Selling lots s due c) (hwf : WellFormed lots) (hclock : 0 ≤ env.clock 0)
    (htimely : Timely env c .tick) {lot : BidSequence} {E U X : ℤ} (hcurrent : s.current = some lot)
    (htimes : CachedTimes c.scheduler.world.redis lot.bidItemId E U X)
    (hleft : 0 < countdown E U X (env.second (checkReading c.scheduler.world lot.bidItemId)))
    (hrunning : Running lots s (c.step env .tick).scheduler)
    (hrun : run (handle env) timerTask c.scheduler.world = (.ok (outcomeOf (countdown E U X
        (env.second (checkReading c.scheduler.world lot.bidItemId + 2)))),
      { c.scheduler.world with reads := checkReading c.scheduler.world lot.bidItemId + 3 })) :
    due = false ∧ Selling lots s true (c.step env .tick) := by
  obtain ⟨hwake, hsteady⟩ := htimely h.alive
  obtain ⟨E', U', X', hregular, hdue⟩ := h.regular lot hcurrent
  obtain ⟨rfl, rfl, rfl⟩ := htimes.unique hregular.times
  -- an active item `0` would be the mark of the end
  have hne : lot.bidItemId ≠ 0 := by
    apply hwf.ne_zero
    rw [← h.running.lots_eq]
    exact Sale.mem_lots_of_opened (Sale.mem_opened_of_current hcurrent)
  rw [SteadyTest, h.running.refines.activeId_eq hcurrent] at hsteady
  replace hsteady := hsteady hne
  rw [hregular.countdown_eq] at hleft
  rw [hsteady, hregular.countdown_eq] at hrun
  have hpos : 0 < E - env.second (checkReading c.scheduler.world lot.bidItemId) := by omega
  rw [max_eq_right hpos.le, outcomeOf, if_neg (by omega)] at hrun
  -- the test and the answer read the clock apart, but in one second: the sleep is what is left
  constructor
  · -- a lot that was not extended would have no time left
    cases due with
    | false => rfl
    | true =>
      have hE := hdue rfl
      have hlate : toSeconds c.wake ≤ env.second (checkReading c.scheduler.world lot.bidItemId) :=
        toSeconds_mono (hwake.trans (env.clock_mono (Nat.le_add_right _ _)))
      omega
  · rw [step_tick_of_run h.alive hrun] at hrunning ⊢
    refine ⟨hrunning, rfl, h.fair, fun lot' hlot' => ?_⟩
    obtain rfl : lot = lot' := Option.some.inj (hcurrent.symm.trans hlot')
    refine ⟨E, U, X, hregular, fun _ => ?_⟩
    have hsleep := toSeconds_addSeconds (Env.clock_nonneg hclock
      (checkReading c.scheduler.world lot.bidItemId + 2)) hpos.le
    show E ≤ toSeconds (addSeconds (env.clock (checkReading c.scheduler.world lot.bidItemId + 2)) _)
    rw [hsleep]
    show E ≤ env.second (checkReading c.scheduler.world lot.bidItemId + 2) + _
    omega

/-- A lot that is opened is regular, and its time is up when the sleep is over. -/
theorem OpenedAt.regular {w w' : World} {lot : BidSequence} {t : ℕ} (hclock : 0 ≤ env.clock 0)
    (h : OpenedAt env w w' lot t) (hfair : FairSpans lots w.db) (hlot : lot ∈ lots) :
    ∃ E U X, Regular w'.redis lot.bidItemId E U X ∧
      E ≤ toSeconds (addSeconds (env.clock (w'.reads - 1)) lot.bidspan) := by
  obtain ⟨row, hrow, hX⟩ := h.timeExtAfterBid
  obtain ⟨hspan, hfits⟩ := hfair.span lot hlot
  obtain ⟨hlow, hhigh⟩ := hfair.extension lot hlot row hrow
  have htimes : CachedTimes w'.redis lot.bidItemId _ _ _ := ⟨h.bidEndTime, h.lastUpDateTime, hX⟩
  rw [secondOf_addSeconds, toInt32_of_fits (by omega) (by omega)] at htimes
  refine ⟨_, _, _, ⟨htimes, ⟨hlow, by omega⟩, by omega⟩, ?_⟩
  -- the sleep is counted from the last reading of the tick, the end from an earlier one
  have hlast : env.clock t ≤ env.clock (w'.reads - 1) :=
    env.clock_mono (Nat.le_sub_one_of_lt h.before)
  rw [toSeconds_addSeconds (Env.clock_nonneg hclock _) (by omega)]
  have hsecond : secondOf (env.clock t) ≤ toSeconds (env.clock (w'.reads - 1)) :=
    secondOf_le_toSeconds hlast
  omega

/-- A tick that advances the sale finishes it, or opens a lot and sleeps for its span. -/
theorem Selling.advance (h : Selling lots s due c) (hclock : 0 ≤ env.clock 0) {w' : World}
    (hterms : SameTerms c.scheduler.world.db w'.db)
    (hopened : ∀ lot, s.waiting.head? = some lot → ∃ t, OpenedAt env c.scheduler.world w' lot t)
    (hrunning : Running lots s.advance (c.step env .tick).scheduler)
    (hrun : run (handle env) timerTask c.scheduler.world =
      (.ok (s.waiting.head?.elim .cancel (fun lot => outcomeOf lot.bidspan)), w')) :
    Finished lots (c.step env .tick) ∨
      s.waiting ≠ [] ∧ Selling lots s.advance true (c.step env .tick) := by
  cases hwaiting : s.waiting with
  | nil =>
    -- the last lot is closed and the task answers `0`
    rw [hwaiting] at hrun
    rw [step_tick_of_run h.alive hrun] at hrunning ⊢
    refine .inl ⟨rfl, s.advance, hrunning, rfl, ?_⟩
    show s.waiting.head? = none
    rw [hwaiting]
    rfl
  | cons lot rest =>
    have hhead : s.waiting.head? = some lot := by rw [hwaiting]; rfl
    have hlot : lot ∈ lots := by
      rw [← h.running.lots_eq]
      exact Sale.mem_lots_of_waiting (List.mem_of_mem_head? hhead)
    -- a span of zero would cancel the timer, with the lot on offer
    have hspan := (h.fair.span lot hlot).1
    obtain ⟨t, hopen⟩ := hopened lot hhead
    rw [hhead, Option.elim_some, outcomeOf, if_neg (by omega)] at hrun
    rw [step_tick_of_run h.alive hrun] at hrunning ⊢
    refine .inr ⟨by simp, hrunning, rfl, h.fair.of_sameTerms hterms, fun lot' hlot' => ?_⟩
    obtain rfl : lot = lot' := Option.some.inj (hhead.symm.trans hlot')
    obtain ⟨E, U, X, hregular, hE⟩ := hopen.regular hclock h.fair hlot
    exact ⟨E, U, X, hregular, fun _ => hE⟩

/-- The step: a tick needs one tick less. -/
theorem Selling.tick (h : Selling lots s due c) (hwf : WellFormed lots) (hclock : 0 ≤ env.clock 0)
    (htimely : Timely env c .tick) {k : ℕ}
    (hk : s.waiting.length + 1 + (if due then 0 else 1) ≤ k + 1) :
    TicksLeft lots k (c.step env .tick) := by
  obtain ⟨outcome, s', w', hrun, hticked⟩ := run_timerTask_cases env h.running.refines
    (h.running.lots_eq ▸ hwf) (h.running.alive h.alive)
  have hrunning : Running lots s' (c.step env .tick).scheduler := by
    rw [step_tick_of_run h.alive hrun]
    exact h.running.of_ticked hticked
  cases hticked with
  -- a tick that finds time left is paid for by the extension before it
  | stay hcurrent htimes hleft =>
    obtain ⟨rfl, hselling⟩ := h.stay hwf hclock htimely hcurrent htimes hleft hrunning hrun
    exact .inr ⟨s, true, hselling, by simpa using hk⟩
  | advance _ hterms _ hopened =>
    rcases h.advance hclock hterms hopened hrunning hrun with hfinished | ⟨hne, hselling⟩
    · exact .inl hfinished
    · refine .inr ⟨s.advance, true, hselling, ?_⟩
      -- one lot fewer waits
      have hlength : s.advance.waiting.length = s.waiting.length - 1 := List.length_tail
      have hpos : 0 < s.waiting.length := List.length_pos_iff.mpr hne
      simp only [if_true]
      omega

/-! ### Events -/

/-- A sale that is finished stays so. -/
theorem Finished.step (h : Finished lots c) (e : Event) : Finished lots (c.step env e) := by
  obtain ⟨hdead, s, hrunning, hover⟩ := h
  cases e with
  | extend id extendTime => exact ⟨hdead, s, hrunning.extend id extendTime, hover⟩
  | tick =>
    have hsame : (c.step env .tick).scheduler = c.scheduler := step_dead env hdead
    rw [Finished, hsame]
    exact ⟨hdead, s, hrunning, hover⟩

/-- Nothing remains only when everything is sold. -/
theorem TicksLeft.finished (h : TicksLeft lots 0 c) : Finished lots c := by
  rcases h with h | ⟨s, due, -, hk⟩
  · exact h
  · omega

end Steps

/-! ## Whole runs -/

/-- Every lot is sold: nothing waits or is on offer, the lots are closed in the cache and in
    their rows, and the timer is cancelled. -/
structure EverythingSold (lots : List BidSequence) (c : Scheduler) : Prop where
  queue : c.world.redis.lists .bidItemSequenceIds = []
  active : c.world.redis.strings .activeBidItemId = some (.long 0)
  expired : c.world.redis.sets .expiredBidItems = (lots.map lotText).reverse
  rows : ∀ lot ∈ lots, CommonDao.Ended c.world.db lot.bidItemId
  cancelled : c.alive = false

/-- A sale that is finished has sold every lot. -/
theorem Finished.everythingSold {lots : List BidSequence} {c : TimedScheduler}
    (h : Finished lots c) : EverythingSold lots c.scheduler := by
  obtain ⟨hdead, s, hrunning, hstarted, hcurrent⟩ := h
  have hwaiting := s.exhausted hstarted hcurrent
  -- nothing waits and nothing is on offer, so all of the lots are sold
  have hsold : s.sold = lots := by
    rw [← hrunning.lots_eq, Sale.lots, Sale.opened, hwaiting, hcurrent]
    simp
  have hrefines := hrunning.refines
  refine ⟨?_, ?_, ?_, ?_, hdead⟩
  · rw [hrefines.queue, hwaiting]
    rfl
  · rw [hrefines.active, hstarted, hcurrent]
    rfl
  · rw [hrefines.expired, hsold]
  · exact hsold ▸ hrefines.ended

/-- Whether an event is a tick. -/
def Event.isTick : Event → Bool
  | .tick => true
  | .extend _ _ => false

/-- The sale at the start, with the first tick due. -/
theorem selling_start (env : Env) (w : World)
    (hsale : Saleable w.db (CommonDao.getCurrentBidSequence w.db w.auctionId))
    (hfair : FairSpans (CommonDao.getCurrentBidSequence w.db w.auctionId) w.db) :
    Selling (reached (CommonDao.getCurrentBidSequence w.db w.auctionId))
      (Sale.start (reached (CommonDao.getCurrentBidSequence w.db w.auctionId))) true
      (TimedScheduler.start env w) where
  running := running_start env w hsale
  alive := rfl
  fair := by
    obtain ⟨r, n, hrun, -⟩ := run_initCache env w
    simp only [TimedScheduler.start, Scheduler.start, hrun]
    exact ⟨fun lot hlot => hfair.span lot (mem_of_mem_reached hlot),
      fun lot hlot => hfair.extension lot (mem_of_mem_reached hlot)⟩
  regular lot hlot := by simp [Sale.start] at hlot

/-- **The sale of an auction comes to an end**: after one tick more than there are lots, and one
    more for each extension, all lots are sold and closed and the timer is cancelled. -/
theorem everythingSold_of_timely (env : Env) (w : World) (events : List Event)
    (hsale : Saleable w.db (CommonDao.getCurrentBidSequence w.db w.auctionId))
    (hnumbers : Consecutive (CommonDao.getCurrentBidSequence w.db w.auctionId))
    (hfair : FairSpans (CommonDao.getCurrentBidSequence w.db w.auctionId) w.db)
    (hclock : 0 ≤ env.clock 0)
    (htimely : Along (TimedScheduler.step env) (Timely env) (TimedScheduler.start env w) events)
    (hlong : (CommonDao.getCurrentBidSequence w.db w.auctionId).length + 1 +
      events.countP (fun e => !e.isTick) ≤ events.countP Event.isTick) :
    EverythingSold (ascending (CommonDao.getCurrentBidSequence w.db w.auctionId))
      (events.foldl (TimedScheduler.step env) (TimedScheduler.start env w)).scheduler := by
  have hwf := hsale.wellFormed
  have hstart := selling_start env w hsale hfair
  have hlots := hnumbers.reached_eq
  rw [hlots] at hwf hstart
  set lots := ascending (CommonDao.getCurrentBidSequence w.db w.auctionId) with hascending
  have hlength : lots.length = (CommonDao.getCurrentBidSequence w.db w.auctionId).length :=
    (ascending_perm _).length_eq
  have hremaining : TicksLeft lots (lots.length + 1) (TimedScheduler.start env w) :=
    .inr ⟨_, true, hstart, le_rfl⟩
  apply Finished.everythingSold
  apply TicksLeft.finished
  -- the ticks that are left are a budget: a tick spends one of it, an extension adds one
  refine htimely.exhausts (B := TicksLeft lots) ?_ ?_ ?_ hremaining (hlength ▸ hlong)
  · exact fun c e hc _ => .inl (hc.finished.step e)
  · intro k c e hc he htick
    rcases hc with hfinished | ⟨s, due, hselling, hk⟩
    · exact .inl (hfinished.step e)
    · cases e with
      | tick => exact hselling.tick hwf hclock he hk
      | extend id extendTime => cases htick
  · intro k c e hc _ hrest
    rcases hc with hfinished | ⟨s, due, hselling, hk⟩
    · exact .inl (hfinished.step e)
    · cases e with
      | tick => cases hrest
      | extend id extendTime =>
        -- an extension costs one tick, but only the first one since the last tick
        refine .inr ⟨s, false, hselling.extend id extendTime, ?_⟩
        simp only [Bool.false_eq_true, if_false]
        omega

/-- A clock that stands still during a tick or a request, and moves on by thirty seconds or by a
    minute between them. -/
def Env.stepwise : Env :=
  Env.idle (fun n => if n < 2 then 0 else if n < 4 then 30000 else if n < 7 then 60000 else
    if n < 10 then 90000 else 150000) (by
      intro m n hmn
      split_ifs <;> first | omega | decide)

/-- The first of two lots is extended by thirty seconds: the second tick finds time left. -/
theorem everythingSold_twoLots :
    EverythingSold (ascending twoLots) ([Event.tick, .extend 11 30, .tick, .tick, .tick].foldl
      (TimedScheduler.step Env.stepwise)
      (TimedScheduler.start Env.stepwise (plainWorld twoLots 20))).scheduler := by
  have hrows : CommonDao.getCurrentBidSequence (plainWorld twoLots 20).db
      (plainWorld twoLots 20).auctionId = twoLots := by decide
  have hmain := everythingSold_of_timely Env.stepwise (plainWorld twoLots 20)
    [Event.tick, .extend 11 30, .tick, .tick, .tick]
  rw [hrows] at hmain
  -- the run is timely by evaluation, the rest are the terms of the two lots
  apply hmain
  · exact saleable_plainDb (by decide) (by decide) (by decide) (by decide)
  · decide
  · refine ⟨by decide, fun lot hlot row hrow => ?_⟩
    obtain rfl := Option.some.inj hrow
    revert lot
    decide
  · decide
  · decide +kernel
  · decide

end Bidding.Model
