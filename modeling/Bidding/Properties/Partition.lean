import Bidding.Properties.Queue
import Bidding.Sale.Scheduler

/-!
# Every Lot Is Sold Once, in Order

Over a whole run of the scheduler the items of a sequence numbered `1..n` are partitioned
into those that wait, at most one that is active, and those that have expired.

## Key Results

- **`scheduler_partition`**: in every run of ticks and extensions the items are partitioned
  between the three keys of the cache, become active once each in ascending order, expire
  only when their end time is reached, and have a closed row once they have expired.
-/

namespace Bidding.Model

open Bidding.Effects Bidding.Effects.Action Bidding.KeyValue
open RedisCacheService BidItemsCacheService

/-- The items of a sequence are divided between the three keys. The queue is popped from its
    end. -/
structure Partition (order : List ℤ) (r : Redis) (expired : List ℤ) (active : Option ℤ)
    (pending : List ℤ) : Prop where
  whole : expired ++ active.toList ++ pending = order
  distinct : order.Nodup
  expired_iff : ∀ t, t ∈ r.sets .expiredBidItems ↔ t ∈ expired.map Text.long
  active_eq : activeItem r = active
  pending_eq : r.lists .bidItemSequenceIds = (pending.map Text.long).reverse

/-- The items that become active in the course of a run. -/
def activations (env : Env) : Scheduler → List Event → List ℤ
  | _, [] => []
  | c, e :: es =>
    let c' := c.step env e
    (if activeItem c'.world.redis = activeItem c.world.redis then []
      else (activeItem c'.world.redis).toList) ++ activations env c' es

/-- An item expires only in a tick, and only if the second of a clock reading of the tick is
    not before the second of its end time. -/
def ExpiresAtEnd (env : Env) (c : Scheduler) (e : Event) : Prop :=
  ∀ id, .long id ∈ (c.step env e).world.redis.sets .expiredBidItems →
    .long id ∉ c.world.redis.sets .expiredBidItems →
    e = .tick ∧ ∃ E n, c.world.redis.hashes (.bidItem id) .bidEndTime = some (.date E) ∧
      c.world.reads ≤ n ∧ n < (c.step env e).world.reads ∧ E ≤ env.second n

section Sale

variable {env : Env} {lots : List BidSequence} {s : Sale BidSequence} {c : Scheduler}

/-- The sale that the scheduler runs is the partition. -/
theorem Refines.partition {w : World} (h : Refines s w) (hwf : WellFormed s.lots) :
    Partition (s.lots.map BidSequence.bidItemId) w.redis (s.sold.map BidSequence.bidItemId)
      (s.current.map BidSequence.bidItemId) (s.waiting.map BidSequence.bidItemId) where
  whole := by
    have hcurrent : (s.current.map BidSequence.bidItemId).toList =
        s.current.toList.map BidSequence.bidItemId := by cases s.current <;> rfl
    rw [hcurrent, Sale.lots, Sale.opened, List.map_append, List.map_append]
  distinct := hwf.nodup
  expired_iff := h.mem_expired
  active_eq := h.activeItem_eq hwf
  pending_eq := by
    rw [h.queue, List.map_map]
    rfl

/-- What one event adds to the items that were on offer. -/
theorem Running.opened_step (h : Running lots s c) (hp : Punctual env lots s c.world)
    (hwf : WellFormed lots) (e : Event) :
    ∃ s', Running lots s' (c.step env e) ∧ Punctual env lots s' (c.step env e).world ∧
      ExpiresAtEnd env c e ∧
      s'.opened.map BidSequence.bidItemId = s.opened.map BidSequence.bidItemId ++
        (if activeItem (c.step env e).world.redis = activeItem c.world.redis then []
          else (activeItem (c.step env e).world.redis).toList) := by
  obtain ⟨s', hrunning, hpunctual, hmoved⟩ := h.step hp hwf e
  refine ⟨s', hrunning, hpunctual, ?_, ?_⟩
  · intro id hnew hold
    rw [hrunning.refines.mem_expired] at hnew
    rw [h.refines.mem_expired] at hold
    rcases hmoved with rfl | ⟨rfl, rfl, hclosed⟩
    · exact absurd hnew hold
    · refine ⟨rfl, ?_⟩
      -- only the lot on offer can be new among the expired ones
      simp only [Sale.advance, List.map_append, List.mem_append] at hnew
      have hcurrent := hnew.resolve_left hold
      simp only [List.mem_map, Option.mem_toList] at hcurrent
      obtain ⟨_, ⟨lot, hlot, rfl⟩, hid⟩ := hcurrent
      obtain rfl := Text.long.inj hid
      exact hclosed lot hlot
  · rw [hrunning.refines.activeItem_eq (hrunning.lots_eq ▸ hwf),
      h.refines.activeItem_eq (h.lots_eq ▸ hwf)]
    -- an event that leaves the sale leaves the active item; one that advances it changes the item
    rcases hmoved with rfl | ⟨rfl, rfl, hclosed⟩
    · simp
    · rw [Sale.opened_advance, List.map_append]
      congr 1
      have hcurrent : s.advance.current = s.waiting.head? := rfl
      rw [hcurrent]
      cases hnext : s.waiting.head? with
      | none => simp
      | some lot =>
        -- the next lot is another one, so the active item has changed
        have hdiffer : some lot.bidItemId ≠ s.current.map BidSequence.bidItemId := by
          intro heq
          obtain ⟨lot', hlot', hid⟩ := Option.map_eq_some_iff.mp heq.symm
          exact Sale.opened_not_waiting (h.lots_eq ▸ hwf.nodup)
            (Sale.mem_opened_of_current hlot') (List.mem_of_mem_head? hnext) hid
        rw [Option.map_some, if_neg hdiffer]
        rfl

/-- What a run adds to the items that were on offer. -/
theorem Running.run_events (h : Running lots s c) (hp : Punctual env lots s c.world)
    (hwf : WellFormed lots) (events : List Event) :
    ∃ s', Running lots s' (events.foldl (Scheduler.step env) c) ∧
      s'.opened.map BidSequence.bidItemId =
        s.opened.map BidSequence.bidItemId ++ activations env c events ∧
      Along (Scheduler.step env) (ExpiresAtEnd env) c events := by
  induction events generalizing s c with
  | nil => exact ⟨s, h, by simp [activations], trivial⟩
  | cons e es ih =>
    obtain ⟨s₁, hrunning, hpunctual, hexpires, hopened⟩ := h.opened_step hp hwf e
    -- the activations of the run are those of its first event and those of the rest
    obtain ⟨s', hrun, hactivations, halong⟩ := ih hrunning hpunctual
    refine ⟨s', hrun, ?_, hexpires, halong⟩
    rw [hactivations, hopened, List.append_assoc]
    rfl

end Sale

/-- In every run of the scheduler of a sequence numbered `1..n`, the items are partitioned
    between the expired ones, the active one and the pending ones, become active exactly once
    and in ascending order, expire only at their end time, and have a closed row then. -/
theorem scheduler_partition (env : Env) (w : World) (events : List Event)
    (h : Saleable w.db (CommonDao.getCurrentBidSequence w.db w.auctionId))
    (hseq : Consecutive (CommonDao.getCurrentBidSequence w.db w.auctionId))
    (hext : BoundedExtensions (CommonDao.getCurrentBidSequence w.db w.auctionId) w.db) :
    (∃ expired active pending,
      Partition
        ((ascending (CommonDao.getCurrentBidSequence w.db w.auctionId)).map
          BidSequence.bidItemId)
        (events.foldl (Scheduler.step env) (Scheduler.start env w)).world.redis
        expired active pending ∧
      activations env (Scheduler.start env w) events = expired ++ active.toList ∧
      ∀ id ∈ expired, CommonDao.Ended
        (events.foldl (Scheduler.step env) (Scheduler.start env w)).world.db id) ∧
    Along (Scheduler.step env) (ExpiresAtEnd env) (Scheduler.start env w) events := by
  obtain ⟨s, hrunning, hactivations, halong⟩ :=
    (running_start env w h).run_events (punctual_start env w hext) h.wellFormed events
  have hpartition := hrunning.refines.partition (hrunning.lots_eq ▸ h.wellFormed)
  -- numbered `1..n`, every lot is reached by the range query of the load
  rw [hrunning.lots_eq, hseq.reached_eq] at hpartition
  refine ⟨⟨_, _, _, hpartition, ?_, ?_⟩, halong⟩
  · -- nothing was on offer at the start, so the activations are all that was opened
    rw [← List.nil_append (activations _ _ _)]
    refine hactivations.symm.trans ?_
    rw [Sale.opened, List.map_append]
    congr 1
    cases s.current <;> rfl
  · intro id hid
    obtain ⟨lot, hlot, rfl⟩ := List.mem_map.mp hid
    exact hrunning.refines.ended lot hlot

/-- Two lots, a clock that runs, and an extension between the ticks. -/
theorem scheduler_partition_twoLots :
    ∃ expired active pending, Partition [11, 12]
      ([Event.tick, .extend 11 30, .tick, .extend 12 30, .tick].foldl
        (Scheduler.step (Env.steady 1000))
        (Scheduler.start (Env.steady 1000) (plainWorld twoLots 20))).world.redis
      expired active pending := by
  obtain ⟨⟨expired, active, pending, hpartition, -⟩, -⟩ := scheduler_partition
    (Env.steady 1000) (plainWorld twoLots 20)
    [Event.tick, .extend 11 30, .tick, .extend 12 30, .tick]
    (saleable_plainDb (by decide) (by decide) (by decide) (by decide)) (by decide)
    (by
      intro lot _ row hrow
      obtain rfl := Option.some.inj hrow
      exact ⟨by decide, by decide⟩)
  have horder : (ascending (CommonDao.getCurrentBidSequence (plainWorld twoLots 20).db
      (plainWorld twoLots 20).auctionId)).map BidSequence.bidItemId = [11, 12] := by decide
  rw [horder] at hpartition
  exact ⟨expired, active, pending, hpartition⟩

end Bidding.Model
