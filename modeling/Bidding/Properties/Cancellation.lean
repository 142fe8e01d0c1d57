import Bidding.Properties.Queue
import Bidding.Sale.Scheduler

/-!
# When Does the Timer Stop?

The number that `setNextBidItem` returns says how long to sleep, and `0` stops the timer. A
lot with a span of `0` stops it when the lot is opened, and so does a clock that passes the
end of the lot between the two readings of a tick that found time left.

## Key Results

- **`stopsSoldOut_iff`**: along a run the timer is cancelled only when everything is sold
  exactly if no tick does one of the two.
-/

namespace Bidding.Model

open Bidding.Effects Bidding.Effects.Action Bidding.KeyValue
open RedisCacheService BidItemsCacheService

/-- The queue is empty and every item of the sequence has expired. -/
def SoldOut (rows : List BidSequence) (r : Redis) : Prop :=
  r.lists .bidItemSequenceIds = [] ∧ ∀ s ∈ rows, .long s.bidItemId ∈ r.sets .expiredBidItems

/-- If the timer is cancelled, everything is sold. -/
def StopsSoldOut (rows : List BidSequence) (c : Scheduler) : Prop :=
  c.alive = false → SoldOut rows c.world.redis

/-- The item at the head of the queue, if there is one, has a positive span. -/
def NextSpanPositive (r : Redis) : Prop :=
  ∀ id, (r.lists .bidItemSequenceIds).getLast? = some (.long id) →
    ∃ span, r.hashes (.bidSequence id) .bidSpan = some (.long span) ∧ 0 < span

/-- A tick does not end the sale early: if it finds time left, there is still time left at
    the reading for the result, and if it opens a lot, the lot has a positive span. -/
def Continues (env : Env) (w : World) : Prop :=
  match activeItem w.redis with
  | some id =>
    if 0 < timeLeftOf w.redis id (env.second (checkReading w id)) then
      0 < timeLeftOf w.redis id (env.second (checkReading w id + 2))
    else NextSpanPositive w.redis
  | none => NextSpanPositive w.redis

/-- An event that does not end the sale early. -/
def GoesOn (env : Env) (c : Scheduler) (e : Event) : Prop :=
  e = .tick → c.alive = true → Continues env c.world

section Steps

variable {env : Env} {lots : List BidSequence} {s : Sale BidSequence} {c : Scheduler} {w : World}

/-- Everything is sold when no lot waits and none is on offer. -/
theorem Refines.soldOut_iff (h : Refines s w) (hwf : WellFormed s.lots) :
    SoldOut s.lots w.redis ↔ s.waiting = [] ∧ s.current = none := by
  unfold SoldOut
  rw [h.queue, List.reverse_eq_nil_iff, List.map_eq_nil_iff]
  refine and_congr_right fun hwaiting => ?_
  constructor
  · -- a lot on offer would be among the sold ones
    intro hall
    by_contra hsome
    obtain ⟨lot, hlot⟩ := Option.ne_none_iff_exists'.mp hsome
    have hmem := hall lot (Sale.mem_lots_of_opened (Sale.mem_opened_of_current hlot))
    rw [h.mem_expired, List.map_map, List.mem_map] at hmem
    obtain ⟨lot', hlot', heq⟩ := hmem
    exact Sale.current_not_sold hwf.nodup hlot hlot' (Text.long.inj heq)
  · intro hnone lot hlot
    rw [h.mem_expired]
    have hsold : lot ∈ s.sold := by
      simpa [Sale.lots, Sale.opened, hnone, hwaiting] using hlot
    exact List.mem_map_of_mem (List.mem_map_of_mem hsold)

/-- The span that the cache has of the next lot is that of its row. -/
theorem Refines.nextSpanPositive_iff (h : Refines s w) :
    NextSpanPositive w.redis ↔ ∀ lot, s.waiting.head? = some lot → 0 < lot.bidspan := by
  unfold NextSpanPositive
  rw [h.queue, List.getLast?_reverse, List.head?_map]
  cases hnext : s.waiting.head? with
  | none => simp
  | some lot =>
    have hlot := Sale.mem_lots_of_waiting (List.mem_of_mem_head? hnext)
    have hspan := (h.data.inSequence lot hlot).bidSpan
    simp [lotText, hspan]

/-- A lot with time left stays on offer if there is still time at the third reading. -/
theorem Refines.continues_stay {lot : BidSequence} {E U X : ℤ} (h : Refines s w)
    (hwf : WellFormed s.lots) (hcurrent : s.current = some lot)
    (htimes : CachedTimes w.redis lot.bidItemId E U X)
    (hleft : 0 < countdown E U X (env.second (checkReading w lot.bidItemId))) :
    Continues env w ↔
      0 < countdown E U X (env.second (checkReading w lot.bidItemId + 2)) := by
  simp only [Continues, h.activeItem_eq hwf, hcurrent, Option.map_some, htimes.timeLeftOf_eq,
    if_pos hleft]

/-- A hand-over goes on if the next lot has a positive span. -/
theorem Refines.continues_advance {w' : World} (h : Refines s w) (hwf : WellFormed s.lots)
    (hclosed : ∀ lot, s.current = some lot → ∃ E U X, TimeUp env w w' lot E U X) :
    Continues env w ↔ ∀ lot, s.waiting.head? = some lot → 0 < lot.bidspan := by
  rw [← h.nextSpanPositive_iff, Continues, h.activeItem_eq hwf]
  cases hcurrent : s.current with
  | none => exact Iff.rfl
  | some lot =>
    obtain ⟨E, U, X, hup⟩ := hclosed lot hcurrent
    simp only [Option.map_some, hup.times.timeLeftOf_eq]
    rw [if_neg (not_lt.mpr hup.up)]

/-- The tick of a timer that is alive cancels it with lots unsold exactly if it ends the sale
    early. -/
theorem Running.stopsSoldOut_tick (h : Running lots s c) (hwf : WellFormed lots)
    (halive : c.alive = true) :
    StopsSoldOut lots (c.tick env) ↔ Continues env c.world := by
  obtain ⟨outcome, s', w', hticked, htick, hrunning⟩ := h.tick env hwf halive
  have hsold := hrunning.refines.soldOut_iff (hrunning.lots_eq ▸ hwf)
  rw [hrunning.lots_eq] at hsold
  rw [← h.lots_eq] at hwf
  unfold StopsSoldOut
  rw [hsold, htick]
  cases hticked with
  -- the result of the tick is the time left at a later reading, which may be `0`
  | stay hcurrent htimes hleft =>
    rw [h.refines.continues_stay hwf hcurrent htimes hleft]
    simp [sleeps_outcomeOf, hcurrent]
  -- the result is the span of the lot that was opened, or `0`
  | advance hrefines hterms hclosed hopened =>
    rw [h.refines.continues_advance hwf hclosed]
    cases hnext : s.waiting.head? with
    | none => simp [Sale.advance, List.head?_eq_none_iff.mp hnext]
    | some lot =>
      simp [Sale.advance, hnext, sleeps_outcomeOf]

/-- The steps after which the timer is not cancelled early. -/
theorem Running.stopsSoldOut_step (h : Running lots s c) (hwf : WellFormed lots)
    (hstops : StopsSoldOut lots c) (e : Event) :
    StopsSoldOut lots (c.step env e) ↔ GoesOn env c e := by
  cases e with
  -- an extension sells nothing and cancels nothing
  | extend id extendTime =>
    refine iff_of_true (fun hdead => ?_) (fun htick => by cases htick)
    have hsold := hstops hdead
    rw [← h.lots_eq] at hsold hwf ⊢
    exact ((h.refines.extend id extendTime).soldOut_iff hwf).mpr
      ((h.refines.soldOut_iff hwf).mp hsold)
  | tick =>
    unfold GoesOn
    cases halive : c.alive with
    | false => simpa [step_dead env halive] using hstops
    | true => simpa [step_alive env halive] using h.stopsSoldOut_tick hwf halive

end Steps

theorem mem_reached_of_consecutive {rows : List BidSequence} (h : Consecutive rows)
    (s : BidSequence) : s ∈ reached rows ↔ s ∈ rows := by
  rw [h.reached_eq]
  exact (ascending_perm rows).mem_iff

/-- **Along a run the timer is cancelled only when everything is sold exactly if no tick ends
    the sale early**: no lot with a span below `1` is opened, and in no tick does the clock
    pass the end of the lot between the test and the result. -/
theorem stopsSoldOut_iff (env : Env) (w : World) (events : List Event)
    (h : Saleable w.db (CommonDao.getCurrentBidSequence w.db w.auctionId))
    (hseq : Consecutive (CommonDao.getCurrentBidSequence w.db w.auctionId)) :
    Along (Scheduler.step env)
        (fun c e => StopsSoldOut (CommonDao.getCurrentBidSequence w.db w.auctionId) (c.step env e))
        (Scheduler.start env w) events ↔
      Along (Scheduler.step env) (GoesOn env) (Scheduler.start env w) events := by
  let lots := reached (CommonDao.getCurrentBidSequence w.db w.auctionId)
  have hwf : WellFormed lots := h.wellFormed
  -- the queued lots are all rows
  have hrows : ∀ c, StopsSoldOut (CommonDao.getCurrentBidSequence w.db w.auctionId) c ↔
      StopsSoldOut lots c := by
    intro c
    simp only [StopsSoldOut, SoldOut, lots, mem_reached_of_consecutive hseq]
  simp only [hrows]
  refine Along.congr (I := fun c => StopsSoldOut lots c ∧ ∃ s, Running lots s c) ?_ ?_ ?_
  · rintro c e ⟨hstops, s, hrunning⟩
    exact hrunning.stopsSoldOut_step hwf hstops e
  · rintro c e ⟨-, s, hrunning⟩ hstops
    exact ⟨hstops, hrunning.exists_step hwf e⟩
  · exact ⟨fun hdead => Bool.noConfusion hdead, _, running_start env w h⟩

theorem nextSpanPositive_of {r : Redis} {id span : ℤ}
    (hqueue : (r.lists .bidItemSequenceIds).getLast? = some (.long id))
    (hspan : r.hashes (.bidSequence id) .bidSpan = some (.long span)) (hpos : 0 < span) :
    NextSpanPositive r := by
  intro id' hid'
  obtain rfl : id = id' := Text.long.inj (Option.some.inj (hqueue.symm.trans hid'))
  exact ⟨span, hspan, hpos⟩

/-- The scheduler of two lots of a minute after some ticks; every reading of the clock is a hundred
    seconds after the one before. -/
def twoLotsAfter (ticks : ℕ) : Scheduler :=
  (List.replicate ticks Event.tick).foldl (Scheduler.step (Env.steady 100000))
    (Scheduler.start (Env.steady 100000) (plainWorld twoLots 20))

/-- The sale of two lots with positive spans to its end: the third tick cancels the timer, and
    everything is sold. -/
theorem stopsSoldOut_twoLots :
    Along (Scheduler.step (Env.steady 100000))
      (fun c e => StopsSoldOut twoLots (c.step (Env.steady 100000) e))
      (Scheduler.start (Env.steady 100000) (plainWorld twoLots 20)) [.tick, .tick, .tick] ∧
    (twoLotsAfter 2).alive = true ∧ (twoLotsAfter 3).alive = false ∧
      (twoLotsAfter 3).world.redis.lists .bidItemSequenceIds = [] ∧
      (twoLotsAfter 3).world.redis.sets .expiredBidItems = [.long 12, .long 11] := by
  have hfirst : Continues (Env.steady 100000) (twoLotsAfter 0).world := by
    have hactive : activeItem (twoLotsAfter 0).world.redis = none := by decide +kernel
    unfold Continues
    rw [hactive]
    exact @nextSpanPositive_of _ 11 60 (by decide +kernel) (by decide +kernel) (by decide)
  have hsecond : Continues (Env.steady 100000) (twoLotsAfter 1).world := by
    have hactive : activeItem (twoLotsAfter 1).world.redis = some 11 := by decide +kernel
    unfold Continues
    rw [hactive]
    refine (if_neg (by decide +kernel)).mpr ?_
    exact @nextSpanPositive_of _ 12 60 (by decide +kernel) (by decide +kernel) (by decide)
  have hthird : Continues (Env.steady 100000) (twoLotsAfter 2).world := by
    have hactive : activeItem (twoLotsAfter 2).world.redis = some 12 := by decide +kernel
    have hqueue : (twoLotsAfter 2).world.redis.lists .bidItemSequenceIds = [] := by decide +kernel
    unfold Continues
    rw [hactive]
    refine (if_neg (by decide +kernel)).mpr ?_
    intro id hid
    rw [hqueue] at hid
    cases hid
  refine ⟨?_, by decide +kernel, by decide +kernel, by decide +kernel, by decide +kernel⟩
  exact (stopsSoldOut_iff (Env.steady 100000) (plainWorld twoLots 20) [.tick, .tick, .tick]
    (saleable_plainDb (by decide) (by decide) (by decide) (by decide)) (by decide)).mpr
    ⟨fun _ _ => hfirst, fun _ _ => hsecond, fun _ _ => hthird, trivial⟩

/-- Two lots, the first with a span of `0`. -/
def zeroSpanLots : List BidSequence := [⟨1, 11, 1, 0⟩, ⟨1, 12, 2, 60⟩]

/-- The tick that opens a lot with a span of `0` cancels the timer; the other lot is still
    queued. -/
theorem zeroSpanLots_stops :
    let c := (Scheduler.start (Env.steady 1000) (plainWorld zeroSpanLots 20)).step
      (Env.steady 1000) .tick
    Consecutive zeroSpanLots ∧ (∀ s ∈ zeroSpanLots, 0 ≤ s.bidspan) ∧
      c.alive = false ∧ c.world.redis.lists .bidItemSequenceIds = [.long 12] ∧
      ¬ StopsSoldOut zeroSpanLots c := by
  have hdead : ((Scheduler.start (Env.steady 1000) (plainWorld zeroSpanLots 20)).step
      (Env.steady 1000) .tick).alive = false := by decide +kernel
  have hqueue : ((Scheduler.start (Env.steady 1000) (plainWorld zeroSpanLots 20)).step
      (Env.steady 1000) .tick).world.redis.lists .bidItemSequenceIds = [.long 12] := by
    decide +kernel
  refine ⟨by decide, by decide, hdead, hqueue, fun hstops => ?_⟩
  -- a sale that was over would have an empty queue
  have hempty := (hstops hdead).1
  rw [hqueue] at hempty
  cases hempty

end Bidding.Model
