import Bidding.Properties.Queue
import Bidding.Sale.Scheduler
import Bidding.Semantics.AnyTick

/-!
# Is an Exhausted Auction Marked as Ended?

The branch of `setNextBidItem` that records the end of an auction runs in a tick that finds
the active id `0`. But the tick that sets the active id to `0` also stops the timer: there is
no item `0`, so it returns `0` or throws. No tick comes after it.

## Key Results

- **`not_markedEnded`**: no run of the scheduler of an auction marks it as ended.
-/

namespace Bidding.Model

open Bidding.Effects Bidding.Effects.Action Bidding.KeyValue
open RedisCacheService BidItemsCacheService ObserverController

/-- `setAuctionEndTime` was executed once for the auction since it was loaded, and its row has
    the status `End` and an end time. -/
def MarkedEnded (loaded : World) (c : Scheduler) : Prop :=
  c.world.endTimesSet = loaded.auctionId :: loaded.endTimesSet ∧
    ∃ auction, c.world.db.auctions loaded.auctionId = some auction ∧
      auction.status = .ended ∧ auction.auctionEndTime.isSome

/-- What holds in every run: the end was not recorded, there is no item `0`, and while the
    timer is alive, the sequence has not ended. -/
structure Unrecorded (loaded : World) (c : Scheduler) : Prop where
  endTimesSet : c.world.endTimesSet = loaded.endTimesSet
  auctions : c.world.db.auctions = loaded.db.auctions
  noZero : .long 0 ∉ c.world.redis.sets .bidItems
  alive : c.alive = true → endSequence c.world.redis ≠ .isTrue

section Steps

variable {env : Env} {loaded : World} {c : Scheduler}

/-- The timer goes on only with a positive result. -/
theorem sleeps_resultOutcome {result : Except Exn ℤ} (h : sleeps (resultOutcome result) = true) :
    ∃ span, result = .ok span ∧ 0 < span := by
  cases result with
  | error e => cases h
  | ok span =>
    refine ⟨span, rfl, ?_⟩
    have hspan : sleeps (outcomeOf span) = true := h
    rwa [sleeps_outcomeOf, decide_eq_true_eq] at hspan

theorem endSequence_of_sameAt {r r' : Redis} (h : Store.SameAt .activeBidItemId r' r) :
    endSequence r' = endSequence r := by
  unfold endSequence
  rw [h.strings]

theorem endSequence_popActive {r : Redis} (h : nextActive r ≠ .long 0) :
    endSequence (popActive r) ≠ .isTrue := by
  have hset : (popActive r).strings .activeBidItemId = some (nextActive r) :=
    Store.strings_set (r.rpop .bidItemSequenceIds) _ _
  simp [endSequence, hset, h]

/-- Nothing is recorded at the start. -/
theorem unrecorded_start (env : Env) (w : World) : Unrecorded w (Scheduler.start env w) := by
  obtain ⟨r, n, hrun, hload⟩ := run_initCache env w
  unfold Scheduler.start
  rw [hrun]
  refine ⟨rfl, rfl, ?_, fun _ => ?_⟩
  · have hitems : r.sets .bidItems = [] := (sameAt_loaded hload .bidItems (fun hk => hk)).sets
    simp [hitems]
  · rw [endSequence_of_sameAt (sameAt_loaded hload .activeBidItemId (fun hk => hk))]
    decide

/-- No tick of a timer that is alive records the end. -/
theorem Unrecorded.tick (h : Unrecorded loaded c) (halive : c.alive = true) :
    Unrecorded loaded (c.tick env) := by
  have heffect := tickEffect env c.world
  rcases hrun : run (handle env) setNextBidItem c.world with ⟨result, w'⟩
  rw [hrun] at heffect
  rw [tick_of_run (run_timerTask_of env c.world hrun)]
  cases heffect with
  -- the end would have to be marked while the timer is alive
  | ended hend => exact absurd hend (h.alive halive)
  | kept hend => exact ⟨h.endTimesSet, h.auctions, h.noZero, fun _ => hend⟩
  | popped hend hwork hzero hstop =>
    refine ⟨hwork.endTimesSet.trans h.endTimesSet, hwork.auctions.trans h.auctions,
      hzero h.noZero, fun hsleeps => ?_⟩
    -- the timer goes on only if there was an item to pop
    obtain ⟨span, hspan, hpos⟩ := sleeps_resultOutcome hsleeps
    rw [endSequence_of_sameAt hwork.active]
    refine endSequence_popActive fun hnext => ?_
    have hle := hstop h.noZero hnext span hspan
    omega

/-- No event records the end. -/
theorem Unrecorded.step (h : Unrecorded loaded c) (e : Event) :
    Unrecorded loaded (c.step env e) := by
  cases e with
  -- an extension writes the hash of its item only
  | extend id extendTime =>
    obtain ⟨r, n, hworld, hsame⟩ :=
      (within_doExtendBidding id extendTime).run_cacheOnly env c.world
    simp only [Scheduler.step, hworld]
    refine ⟨h.endTimesSet, h.auctions, ?_, fun halive => ?_⟩
    · rw [(hsame .bidItems (by simp)).sets]
      exact h.noZero
    · rw [endSequence_of_sameAt (hsame .activeBidItemId (by simp))]
      exact h.alive halive
  | tick =>
    cases halive : c.alive with
    | false => exact (step_dead env halive).symm ▸ h
    | true => exact (step_alive env halive).symm ▸ h.tick halive

end Steps

/-- **No run of the scheduler of an auction marks it as ended**, exhausted or not. -/
theorem not_markedEnded (env : Env) (w : World) (events : List Event) :
    ¬ MarkedEnded w (events.foldl (Scheduler.step env) (Scheduler.start env w)) := by
  rintro ⟨hset, -⟩
  have hunrecorded : Unrecorded w (events.foldl (Scheduler.step env) (Scheduler.start env w)) :=
    run_inv (fun _ e h => h.step e) (unrecorded_start env w) events
  rw [hunrecorded.endTimesSet] at hset
  exact List.cons_ne_self _ _ hset.symm

/-- The sale of one lot of one second, ticked to its end. -/
def oneLot : List BidSequence := [⟨1, 11, 1, 1⟩]

/-- The only lot is closed, the active id is `0` and the timer is cancelled, but the end of
    the auction was not recorded. -/
theorem oneLot_not_markedEnded :
    let c := [Event.tick, .tick].foldl (Scheduler.step (Env.steady 1000))
      (Scheduler.start (Env.steady 1000) (plainWorld oneLot 0))
    c.world.redis.strings .activeBidItemId = some (.long 0) ∧ c.alive = false ∧
      c.world.endTimesSet = [] ∧ ¬ MarkedEnded (plainWorld oneLot 0) c := by
  have hset : ([Event.tick, .tick].foldl (Scheduler.step (Env.steady 1000))
      (Scheduler.start (Env.steady 1000) (plainWorld oneLot 0))).world.endTimesSet = [] := by
    decide +kernel
  refine ⟨by decide +kernel, by decide +kernel, hset, fun hmarked => ?_⟩
  have hcontra := hmarked.1
  rw [hset] at hcontra
  cases hcontra

end Bidding.Model
