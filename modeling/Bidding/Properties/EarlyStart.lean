import Bidding.Properties.RunningAuction
import Bidding.Sale.Scheduler
import Bidding.Semantics.AnyTick

/-!
# Does an Auction Wait for its Start Time?

Every load of an auction starts a timer of its own, but no request cancels the timers of
the auctions before. All timers call the same service on the same cache. A timer that is
left over from an earlier load opens the first lot of the auction that is loaded now, whatever
its start time is.

## Key Results

- **`notEarly_iff`**: along a run of requests and timers no lot is opened before the start
  time of its auction exactly if no timer that is left over fires before that time while
  lots are queued.
-/

namespace Bidding.Model

open Bidding.Effects Bidding.Effects.Action Bidding.KeyValue
open RedisCacheService BidItemsCacheService AdminController

/-- The task of a timer. -/
structure Task where
  /-- the time that was passed to `scheduler.start` -/
  start : Date
  /-- the time before which it does not fire next -/
  due : Date
  alive : Bool

/-- The world and the tasks of all timers, the latest last. -/
structure Timers where
  world : World
  tasks : List Task

/-- What can happen: a request of the administrator, or the firing of a timer. -/
inductive Occurrence where
  | request (request : Request)
  | fire (i : ℕ)

namespace Timers

/-- The present time. -/
def now (env : Env) (c : Timers) : Date := env.clock c.world.reads

/-- The start time of the auction that was loaded last. -/
def latestStart (c : Timers) : Option Date := c.tasks.getLast?.map Task.start

/-- The task of the timer can run. -/
def Fires (env : Env) (c : Timers) (task : Task) : Prop :=
  task.alive = true ∧ task.due ≤ c.now env

instance (env : Env) (c : Timers) (task : Task) : Decidable (c.Fires env task) :=
  inferInstanceAs (Decidable (_ ∧ _))

/-- A task after a run with some outcome at some time. -/
def afterRun (now : Date) (task : Task) : TaskOutcome → Task
  | .sleep seconds => { task with due := now + 1000 * seconds }
  | .cancel => { task with alive := false }

/-- The tasks of the timers that were started since. -/
def newTasks (before after : World) : List Task :=
  (after.timers.drop before.timers.length).map fun d => ⟨d, d, true⟩

/-- One occurrence. A timer that is cancelled or not due does not fire. -/
def step (env : Env) (c : Timers) : Occurrence → Timers
  | .request request =>
    let w := serveRequest env c.world request
    ⟨w, c.tasks ++ newTasks c.world w⟩
  | .fire i =>
    match c.tasks[i]? with
    | none => c
    | some task =>
      if c.Fires env task then
        match run (handle env) timerTask c.world with
        | (.ok outcome, w) => ⟨w, c.tasks.set i (afterRun (c.now env) task outcome)⟩
        | (.error _, w) => ⟨w, c.tasks.set i (afterRun (c.now env) task .cancel)⟩
      else c

end Timers

/-- The application when it has started. -/
def Timers.initial (db : Db) : Timers := ⟨World.initial db, []⟩

/-- No item becomes active before the start time of the auction that was loaded last. -/
def NotEarly (env : Env) (c : Timers) (e : Occurrence) : Prop :=
  ∀ id start, activeItem (c.step env e).world.redis = some id →
    activeItem c.world.redis ≠ some id → c.latestStart = some start → start ≤ c.now env

/-- No timer that is left over from an earlier load fires before the start time of the auction
    that was loaded last while lots are queued. -/
def Waits (env : Env) (c : Timers) : Occurrence → Prop
  | .request _ => True
  | .fire i => ∀ task start, c.tasks[i]? = some task → c.Fires env task →
      i + 1 < c.tasks.length → c.latestStart = some start →
      c.world.redis.lists .bidItemSequenceIds ≠ [] → start ≤ c.now env

/-! ## The invariant -/

/-- Before the start time of the auction that was loaded last, its sale has not begun. -/
structure Waiting (env : Env) (c : Timers) : Prop where
  due : ∀ task ∈ c.tasks, task.start ≤ task.due
  items : ∀ s ∈ c.world.db.bidSequence, s.bidItemId ≠ 0
  queue : ∀ t ∈ c.world.redis.lists .bidItemSequenceIds, ∃ id, t = .long id ∧ id ≠ 0
  fresh : ∀ start, c.latestStart = some start → c.now env < start →
    c.world.redis.lists .bidItemSequenceIds = [] ∨
      c.world.startFlag = true ∧ c.world.redis.strings .activeBidItemId = none

section Ticks

variable {w w' : World} {result : Except Exn ℤ}

/-- The queue loses its last element at most. -/
theorem TickEffect.queue (h : TickEffect w result w') :
    w'.redis.lists .bidItemSequenceIds = w.redis.lists .bidItemSequenceIds ∨
      w'.redis.lists .bidItemSequenceIds = (w.redis.lists .bidItemSequenceIds).dropLast := by
  cases h with
  | ended hend hwork hseq => exact .inl hwork.queue.lists
  | kept => exact .inl rfl
  | popped hend hwork =>
    exact .inr (hwork.queue.lists.trans (Store.lists_rpop w.redis .bidItemSequenceIds))

theorem TickEffect.bidSequence (h : TickEffect w result w') :
    w'.db.bidSequence = w.db.bidSequence := by
  cases h with
  | ended hend hwork hseq => exact hwork.bidSequence.trans hseq
  | kept => rfl
  | popped hend hwork => exact hwork.bidSequence

theorem activeItem_of_sameAt {r r' : Redis} (h : Store.SameAt .activeBidItemId r' r) :
    activeItem r' = activeItem r := by
  unfold activeItem
  rw [h.strings]

/-- After a pop the active item is the one that was popped, unless it is `0`. -/
theorem activeItem_popActive (r : Redis) :
    activeItem (popActive r) = match nextActive r with
      | .long id => if id = 0 then none else some id
      | _ => none := by
  have hset : (popActive r).strings .activeBidItemId = some (nextActive r) :=
    Store.strings_set (r.rpop .bidItemSequenceIds) _ _
  unfold activeItem
  rw [hset]
  cases nextActive r <;> rfl

/-- A tick with an empty queue makes no item active. -/
theorem TickEffect.activeItem_of_empty (h : TickEffect w result w')
    (hqueue : w.redis.lists .bidItemSequenceIds = []) {id : ℤ}
    (hactive : activeItem w'.redis = some id) : activeItem w.redis = some id := by
  cases h with
  | ended hend hwork hseq => rwa [activeItem_of_sameAt hwork.active] at hactive
  | kept => exact hactive
  | popped hend hwork =>
    rw [activeItem_of_sameAt hwork.active, activeItem_popActive, nextActive, hqueue] at hactive
    cases hactive

/-- The first tick after a load makes the first lot of the queue active. -/
theorem TickEffect.activeItem_of_fresh (h : TickEffect w result w')
    (hqueue : ∀ t ∈ w.redis.lists .bidItemSequenceIds, ∃ id, t = .long id ∧ id ≠ 0)
    (hne : w.redis.lists .bidItemSequenceIds ≠ []) (hflag : w.startFlag = true)
    (hactive : w.redis.strings .activeBidItemId = none) :
    ∃ id, activeItem w'.redis = some id := by
  cases h with
  | ended hend => simp [endSequence, hactive] at hend
  | kept hend hflag' => rw [hflag] at hflag'; cases hflag'
  -- the only tick that is left pops the first lot
  | popped hend hwork =>
    have hlast : (w.redis.lists .bidItemSequenceIds).getLast? =
        some ((w.redis.lists .bidItemSequenceIds).getLast hne) :=
      List.getLast?_eq_getLast_of_ne_nil hne
    obtain ⟨id, hid, hzero⟩ := hqueue _ (List.getLast_mem hne)
    refine ⟨id, ?_⟩
    rw [activeItem_of_sameAt hwork.active, activeItem_popActive, nextActive, hlast, hid]
    simp [hzero]

end Ticks

/-! ## Firings -/

section Firings

variable {env : Env} {c : Timers} {i : ℕ} {task : Task}

theorem step_fire_none (h : c.tasks[i]? = none) : c.step env (.fire i) = c := by
  simp only [Timers.step, h]

theorem step_fire_idle (h : c.tasks[i]? = some task) (hidle : ¬ c.Fires env task) :
    c.step env (.fire i) = c := by
  simp only [Timers.step, h, if_neg hidle]

/-- A timer that fires. -/
theorem step_fire (h : c.tasks[i]? = some task) (hfires : c.Fires env task) :
    ∃ result w', TickEffect c.world result w' ∧ c.world.reads ≤ w'.reads ∧
      c.step env (.fire i) =
        ⟨w', c.tasks.set i (Timers.afterRun (c.now env) task (resultOutcome result))⟩ := by
  rcases hrun : run (handle env) setNextBidItem c.world with ⟨result, w'⟩
  have heffect := tickEffect env c.world
  have hreads := reads_le_run env c.world setNextBidItem
  rw [hrun] at heffect hreads
  refine ⟨result, w', heffect, hreads, ?_⟩
  simp only [Timers.step, h, if_pos hfires, run_timerTask_of env c.world hrun]

theorem afterRun_start (now : Date) (task : Task) (outcome : TaskOutcome) :
    (Timers.afterRun now task outcome).start = task.start := by
  cases outcome <;> rfl

/-- A task is not due before it was due, and not before the present. -/
theorem afterRun_due {now : ℤ} (result : Except Exn ℤ) (hdue : task.due ≤ now) :
    task.due ≤ (Timers.afterRun now task (resultOutcome result)).due := by
  cases result with
  | error e => exact le_rfl
  | ok span =>
    simp only [resultOutcome, outcomeOf]
    split
    · exact le_rfl
    · have hnow : now ≤ now + 1000 * span := by omega
      exact le_trans hdue hnow

/-- Nor does it change the latest start. -/
theorem latestStart_set (env : Env) (outcome : TaskOutcome) (w : World)
    (h : c.tasks[i]? = some task) :
    (⟨w, c.tasks.set i (Timers.afterRun (c.now env) task outcome)⟩ : Timers).latestStart =
      c.latestStart := by
  have hstarts : (c.tasks.set i (Timers.afterRun (c.now env) task outcome)).map Task.start =
      c.tasks.map Task.start := by
    obtain ⟨hi, rfl⟩ := List.getElem?_eq_some_iff.mp h
    rw [List.map_set, afterRun_start, ← List.getElem_map Task.start, List.set_getElem_self]
    rwa [List.length_map]
  simp only [Timers.latestStart, ← List.getLast?_map, hstarts]

/-- The timer of the latest load does not fire before its start time. -/
theorem Waiting.latest (h : Waiting env c) {start : Date} (htask : c.tasks[i]? = some task)
    (hfires : c.Fires env task) (hi : ¬ i + 1 < c.tasks.length)
    (hstart : c.latestStart = some start) : start ≤ c.now env := by
  obtain ⟨hlt, rfl⟩ := List.getElem?_eq_some_iff.mp htask
  have hlast : c.tasks.getLast? = some c.tasks[i] := by
    have hi' : i = c.tasks.length - 1 := by omega
    rw [List.getLast?_eq_getElem?, ← hi', htask]
  rw [Timers.latestStart, hlast, Option.map_some, Option.some.injEq] at hstart
  rw [← hstart]
  exact (h.due _ (List.getElem_mem hlt)).trans hfires.2

/-- A firing opens a lot early exactly if it does not wait. -/
theorem Waiting.notEarly_fire (h : Waiting env c) (i : ℕ) :
    NotEarly env c (.fire i) ↔ Waits env c (.fire i) := by
  cases htask : c.tasks[i]? with
  | none =>
    refine iff_of_true (fun id start hactive hold => ?_) fun task' _ htask' => ?_
    · rw [step_fire_none htask] at hactive
      exact absurd hactive hold
    · rw [htask] at htask'
      cases htask'
  | some task =>
    by_cases hfires : c.Fires env task
    · obtain ⟨result, w', heffect, -, hstep⟩ := step_fire htask hfires
      unfold NotEarly Waits
      rw [hstep]
      constructor
      · intro hnot task' start htask' hfires' hi hstart hqueue
        -- before the start the sale is fresh, so a tick with a queue opens its first lot
        by_contra hearly
        rcases h.fresh start hstart (not_le.mp hearly) with hempty | ⟨hflag, hactive⟩
        · exact hqueue hempty
        · obtain ⟨id, hid⟩ := heffect.activeItem_of_fresh h.queue hqueue hflag hactive
          refine hearly (hnot id start hid ?_ hstart)
          simp [activeItem, hactive]
      · intro hwaits id start hactive hold hstart
        by_cases hi : i + 1 < c.tasks.length
        · -- an older task opens a lot only from a queue that is not empty
          refine hwaits task start htask hfires hi hstart fun hempty => ?_
          exact hold (heffect.activeItem_of_empty hempty hactive)
        · exact h.latest htask hfires hi hstart
    · refine iff_of_true (fun id start hactive hold => ?_) fun task' _ htask' hfires' => ?_
      · rw [step_fire_idle htask hfires] at hactive
        exact absurd hactive hold
      · rw [htask] at htask'
        obtain rfl := Option.some.inj htask'
        exact absurd hfires' hfires

/-- A firing that opens no lot early keeps the invariant. -/
theorem Waiting.step_fire (h : Waiting env c) (i : ℕ) (hnot : NotEarly env c (.fire i)) :
    Waiting env (c.step env (.fire i)) := by
  cases htask : c.tasks[i]? with
  | none => exact (step_fire_none htask).symm ▸ h
  | some task =>
    by_cases hfires : c.Fires env task
    · have hwaits := (h.notEarly_fire i).mp hnot
      obtain ⟨result, w', heffect, hreads, hstep⟩ := Model.step_fire htask hfires
      have hlatest := latestStart_set env (resultOutcome result) w' htask
      rw [hstep]
      refine ⟨?_, ?_, ?_, ?_⟩
      · -- a task is never due before its start
        intro task' htask'
        rcases List.mem_or_eq_of_mem_set htask' with hold | rfl
        · exact h.due task' hold
        · rw [afterRun_start]
          exact (h.due task (List.mem_of_getElem? htask)).trans (afterRun_due result hfires.2)
      · intro s hs
        exact h.items s (heffect.bidSequence ▸ hs)
      · intro t ht
        rcases heffect.queue with hq | hq
        · exact h.queue t (hq ▸ ht)
        · exact h.queue t (List.dropLast_subset _ (hq ▸ ht))
      · intro start hstart hearly
        rw [hlatest] at hstart
        have hnow : c.now env < start := (env.clock_mono hreads).trans_lt hearly
        refine .inl ?_
        -- before the start a task runs only on an empty queue, and a pop leaves it empty
        have hempty : c.world.redis.lists .bidItemSequenceIds = [] := by
          by_contra hqueue
          by_cases hi : i + 1 < c.tasks.length
          · exact absurd (hwaits task start htask hfires hi hstart hqueue) (not_le.mpr hnow)
          · exact absurd (h.latest htask hfires hi hstart) (not_le.mpr hnow)
        rcases heffect.queue with hq | hq
        · exact hq.trans hempty
        · rw [hq, hempty]
          rfl
    · exact (step_fire_idle htask hfires).symm ▸ h

end Firings

/-! ## Requests -/

section Requests

variable {env : Env} {c : Timers}

/-- What a request leaves behind: the timers as they were and nothing to sell, or one timer
    more and a sale that has not begun. -/
inductive Reloaded (w w' : World) : Prop
  | unchanged (h : w' = w)
  | emptied (htimers : w'.timers = w.timers)
      (hqueue : w'.redis.lists .bidItemSequenceIds = [])
      (hactive : w'.redis.strings .activeBidItemId = none)
  | loaded (start : Date) (htimers : w'.timers = w.timers ++ [start])
      (hqueue : ∀ t ∈ w'.redis.lists .bidItemSequenceIds, ∃ s ∈ w.db.bidSequence,
        t = .long s.bidItemId)
      (hactive : w'.redis.strings .activeBidItemId = none) (hflag : w'.startFlag = true)

/-- A request leaves the cache, empties it or loads it anew. -/
theorem reloaded_serveRequest (env : Env) (w : World) (request : Request) :
    Reloaded w (serveRequest env w request) ∧
      (serveRequest env w request).db.bidSequence = w.db.bidSequence := by
  cases request with
  | closeAuction id => exact ⟨.emptied rfl rfl rfl, rfl⟩
  | initcache auctionStart auctionIdStr auctionTimeExt =>
    have hcases := run_initcache_cases env w auctionStart auctionIdStr auctionTimeExt
    unfold serveRequest Request.serve
    generalize (run (handle env) (initcache auctionStart auctionIdStr auctionTimeExt) w).2 = w'
      at hcases ⊢
    cases hcases with
    | refused => exact ⟨.unchanged rfl, rfl⟩
    -- the cache was flushed before the load failed
    | failed => exact ⟨.emptied rfl rfl rfl, rfl⟩
    | @loaded id r n startTime now hvalid htime hload =>
      refine ⟨?_, rfl⟩
      have hactive := (sameAt_loaded hload .activeBidItemId (fun hk => hk)).strings
      have hqueue := (hload .bidItemSequenceIds (fun hk => hk)).lists
      cases hrows : CommonDao.getCurrentBidSequence w.db id with
      | nil =>
        rw [hrows] at hqueue
        refine .emptied ?_ hqueue hactive
        simp [newTimers]
      | cons s ss =>
        refine .loaded startTime ?_ (fun t ht => ?_) hactive rfl
        · simp [newTimers]
        · rw [hqueue] at ht
          obtain ⟨s', hs', rfl⟩ := mem_queue_storeSequence env.order ht
          exact ⟨s', List.mem_of_mem_filter hs', rfl⟩

theorem newTasks_append {w w' : World} {l : List Date} (h : w'.timers = w.timers ++ l) :
    Timers.newTasks w w' = l.map fun d => ⟨d, d, true⟩ := by
  rw [Timers.newTasks, h, List.drop_left]

/-- A request makes no item active. -/
theorem notEarly_request (request : Request) : NotEarly env c (.request request) := by
  intro id start hactive hold
  have hworld : (c.step env (.request request)).world = serveRequest env c.world request := rfl
  rw [hworld] at hactive
  cases (reloaded_serveRequest env c.world request).1 with
  | unchanged h =>
    rw [h] at hactive
    exact absurd hactive hold
  | emptied _ _ hnone => simp [activeItem, hnone] at hactive
  | loaded _ _ _ hnone => simp [activeItem, hnone] at hactive

/-- A request keeps the invariant. -/
theorem Waiting.step_request (h : Waiting env c) (request : Request) :
    Waiting env (c.step env (.request request)) := by
  obtain ⟨hreloaded, hseq⟩ := reloaded_serveRequest env c.world request
  have hreads : c.world.reads ≤ (serveRequest env c.world request).reads :=
    reads_le_run env c.world request.serve
  simp only [Timers.step]
  generalize serveRequest env c.world request = w' at hreloaded hseq hreads
  have hitems : ∀ s ∈ w'.db.bidSequence, s.bidItemId ≠ 0 := fun s hs => h.items s (hseq ▸ hs)
  cases hreloaded with
  | unchanged heq =>
    subst heq
    rw [newTasks_append (l := []) (by simp), List.map_nil, List.append_nil]
    exact h
  | emptied htimers hqueue hactive =>
    rw [newTasks_append (l := []) (by simpa using htimers), List.map_nil, List.append_nil]
    exact ⟨h.due, hitems, by simp [hqueue], fun _ _ _ => .inl hqueue⟩
  -- the new task comes last, and its start is the latest one
  | loaded start htimers hqueue hactive hflag =>
    rw [newTasks_append htimers]
    refine ⟨fun task htask => ?_, hitems, fun t ht => ?_, fun _ _ _ => .inr ⟨hflag, hactive⟩⟩
    · rcases List.mem_append.mp htask with hold | hnew
      · exact h.due task hold
      · simp only [List.map_cons, List.map_nil, List.mem_singleton] at hnew
        subst hnew
        exact le_rfl
    · obtain ⟨s, hs, rfl⟩ := hqueue t ht
      exact ⟨_, rfl, h.items s hs⟩

end Requests

/-- **Along a run of requests and timers no lot is opened before the start time of its auction
    exactly if no timer that is left over from an earlier load fires before that time while
    lots are queued.** -/
theorem notEarly_iff (env : Env) (db : Db) (occurrences : List Occurrence)
    (hitems : ∀ s ∈ db.bidSequence, s.bidItemId ≠ 0) :
    Along (Timers.step env) (NotEarly env) (Timers.initial db) occurrences ↔
      Along (Timers.step env) (Waits env) (Timers.initial db) occurrences := by
  -- both conditions agree step by step while the invariant holds
  refine Along.congr (I := Waiting env) ?_ ?_ ?_
  · intro c e h
    cases e with
    | request request => exact iff_of_true (notEarly_request request) trivial
    | fire i => exact h.notEarly_fire i
  · intro c e h hnot
    cases e with
    | request request => exact h.step_request request
    | fire i => exact h.step_fire i hnot
  · exact ⟨by simp [Timers.initial], hitems, by simp [Timers.initial, World.initial, Store.empty],
      by simp [Timers.initial, Timers.latestStart]⟩

/-- One auction, and its own timer. -/
theorem notEarly_oneAuction :
    Along (Timers.step (Env.steady 1000)) (NotEarly (Env.steady 1000)) (Timers.initial twoAuctions)
      [.request (.initcache (.value 5000) (.value 1) .blank), .fire 0] := by
  have htasks : ((Timers.initial twoAuctions).step (Env.steady 1000)
      (.request (.initcache (.value 5000) (.value 1) .blank))).tasks.length = 1 := by
    decide +kernel
  refine (notEarly_iff (Env.steady 1000) twoAuctions _ (by decide)).mpr ⟨trivial, ?_, trivial⟩
  intro task start _ _ hi
  rw [htasks] at hi
  exact absurd hi (by decide)

/-- The requests after which a timer is left over: auction `1` is loaded for second `5` and
    closed, and auction `2` is loaded for second `1000`. -/
def reloading : List Occurrence :=
  [.request (.initcache (.value 5000) (.value 1) .blank), .request (.closeAuction 1),
    .request (.initcache (.value 1000000) (.value 2) .blank)]

/-- The timer of auction `1` fires in second `6` and opens the lot of auction `2`. -/
theorem leftoverTimer_early :
    let c := reloading.foldl (Timers.step (Env.steady 1000)) (Timers.initial twoAuctions)
    c.latestStart = some 1000000 ∧ c.now (Env.steady 1000) = 6000 ∧
      activeItem c.world.redis = none ∧
      activeItem (c.step (Env.steady 1000) (.fire 0)).world.redis = some 21 ∧
      ¬ NotEarly (Env.steady 1000) c (.fire 0) := by
  have hstart : (reloading.foldl (Timers.step (Env.steady 1000))
      (Timers.initial twoAuctions)).latestStart = some 1000000 := by decide +kernel
  have hnow : (reloading.foldl (Timers.step (Env.steady 1000))
      (Timers.initial twoAuctions)).now (Env.steady 1000) = 6000 := by decide +kernel
  have hbefore : activeItem (reloading.foldl (Timers.step (Env.steady 1000))
      (Timers.initial twoAuctions)).world.redis = none := by decide +kernel
  have hafter : activeItem ((reloading.foldl (Timers.step (Env.steady 1000))
      (Timers.initial twoAuctions)).step (Env.steady 1000) (.fire 0)).world.redis = some 21 := by
    decide +kernel
  refine ⟨hstart, hnow, hbefore, hafter, fun hnot => ?_⟩
  have hle := hnot 21 1000000 hafter (by rw [hbefore]; simp) hstart
  rw [hnow] at hle
  exact absurd hle (by decide)

end Bidding.Model
