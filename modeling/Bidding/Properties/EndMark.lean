import Bidding.Properties.OnSaleOnce

/-!
# Is the End of the Sequence Final?

The pages and the timer take the state of a sale from the active item: none yet, a lot, or the
text `0` that marks the end. Whatever fails during ticks, requests and page views, the state only
moves forward, and the end is marked only when no lot waits any more.

Two ticks at the same time are another matter: one can mark the end between the pop and the write
of the other one. So the activities follow each other here.

## Key Results

- **`forward_setActiveBidItemId`**: handing the sale over, with any of its commands failing.
- **`endSequence_forward`**: the state only moves forward, along every run with any failures.
-/

namespace Bidding.Model

open Bidding.Effects Bidding.Effects.Action Bidding.KeyValue
open RedisCacheService BidItemsCacheService

/-- The order of the states of a sale. -/
def RedisCacheService.EndSequence.rank : EndSequence → ℕ
  | .null => 0
  | .isFalse => 1
  | .isTrue => 2

/-- No lot waits when the end is marked. The id `0` is no lot. -/
structure MarkedAtEnd (r : Redis) : Prop where
  zero : .long 0 ∉ r.lists .bidItemSequenceIds
  empty : endSequence r = .isTrue → r.lists .bidItemSequenceIds = []

/-- A step that does not turn the sale back, and does not mark the end too early. -/
def Forward (w w' : World) : Prop :=
  MarkedAtEnd w.redis →
    MarkedAtEnd w'.redis ∧ (endSequence w.redis).rank ≤ (endSequence w'.redis).rank

instance : IsPreorder World Forward where
  refl _ h := ⟨h, le_rfl⟩
  trans _ _ _ h h' hw :=
    ⟨(h' (h hw).1).1, (h hw).2.trans (h' (h hw).1).2⟩

/-- Only the queue and the active item matter. -/
theorem Forward.of_same {w w' : World}
    (hqueue : w'.redis.lists .bidItemSequenceIds = w.redis.lists .bidItemSequenceIds)
    (hactive : w'.redis.strings .activeBidItemId = w.redis.strings .activeBidItemId) :
    Forward w w' := by
  have hend : endSequence w'.redis = endSequence w.redis := by
    unfold endSequence
    rw [hactive]
  intro h
  refine ⟨⟨?_, ?_⟩, ?_⟩
  · rw [hqueue]
    exact h.zero
  · rw [hqueue, hend]
    exact h.empty
  · rw [hend]

/-- A routine command does not turn the sale back. -/
theorem forward_routine {env : Env} (hengine : EngineKeeps env) {c : Cmd} (hc : Routine c)
    (w : World) : Forward w (handle env c w).2 := by
  cases c with
  | redis c =>
    cases c with
    | hsetnx k f v =>
      exact Forward.of_same (congrFun (Store.lists_hsetnx w.redis k f v) _)
        (congrFun (Store.strings_hsetnx w.redis k f v) _)
    | set k v => exact absurd hc id
    | lpush k v => exact absurd hc id
    | rpop k => exact absurd hc id
    | flushAll => exact absurd hc id
    | _ => exact Forward.of_same rfl rfl
  | dao c =>
    have hredis := redis_handleDao env w c
    exact Forward.of_same (by rw [hredis]) (by rw [hredis])
  | field c => cases c <;> exact Forward.of_same rfl rfl
  -- the engine keeps to the keys of its bids
  | engineBid bid =>
    have hsame := hengine w.auctioneer bid (env.times w 0) w.redis
    exact Forward.of_same (hsame .bidItemSequenceIds id).lists (hsame .activeBidItemId id).strings
  | _ => exact Forward.of_same rfl rfl

theorem routinely_forward {env : Env} (hengine : EngineKeeps env) :
    Routinely (fun _ p => Moves (failing env) (fun x y => Forward x.1 y.1) p) :=
  routinely_moves (fun _ hc => forward_routine hengine hc) fun _ _ hmoved => hmoved

/-! ## Handing the sale over -/

/-- The queue is popped, and the active item is not written. -/
theorem forward_rpop (w : World) :
    Forward w { w with redis := w.redis.rpop .bidItemSequenceIds } := by
  intro h
  have hqueue := Store.lists_rpop w.redis .bidItemSequenceIds
  refine ⟨⟨fun hmem => ?_, fun hend => ?_⟩, le_rfl⟩
  · rw [hqueue] at hmem
    exact h.zero (List.dropLast_subset _ hmem)
  · show (w.redis.rpop .bidItemSequenceIds).lists .bidItemSequenceIds = []
    rw [hqueue, h.empty hend]
    rfl

/-- The queue is popped, and what was popped becomes the active item: the end is marked if and
    only if the queue was empty. -/
theorem forward_popActive (w : World) : Forward w { w with redis := popActive w.redis } := by
  intro h
  have hqueue : (popActive w.redis).lists .bidItemSequenceIds =
      (w.redis.lists .bidItemSequenceIds).dropLast := by
    rw [popActive, (Store.sameAt_set _ (by simp) _).lists, Store.lists_rpop]
  have hactive : (popActive w.redis).strings .activeBidItemId = some (nextActive w.redis) :=
    Store.strings_set ..
  have hend : endSequence (popActive w.redis) =
      if nextActive w.redis = .long 0 then .isTrue else .isFalse := by
    unfold endSequence
    rw [hactive]
  cases hlast : (w.redis.lists .bidItemSequenceIds).getLast? with
  | none =>
    -- the source writes `0` when the pop answers `null`
    have hempty := List.getLast?_eq_none_iff.mp hlast
    have hnext : nextActive w.redis = .long 0 := by rw [nextActive, hlast]; rfl
    rw [hempty] at hqueue
    rw [hnext, if_pos rfl] at hend
    refine ⟨⟨?_, fun _ => hqueue⟩, ?_⟩
    · show _ ∉ (popActive w.redis).lists .bidItemSequenceIds
      rw [hqueue]
      exact List.not_mem_nil
    · show _ ≤ (endSequence (popActive w.redis)).rank
      rw [hend]
      cases endSequence w.redis <;> decide
  | some t =>
    have hmem : t ∈ w.redis.lists .bidItemSequenceIds := List.mem_of_getLast? hlast
    have hnext : nextActive w.redis = t := by rw [nextActive, hlast]; rfl
    have hne : t ≠ .long 0 := fun heq => h.zero (heq ▸ hmem)
    rw [hnext, if_neg hne] at hend
    refine ⟨⟨fun hin => ?_, fun htrue => ?_⟩, ?_⟩
    · rw [hqueue] at hin
      exact h.zero (List.dropLast_subset _ hin)
    · rw [hend] at htrue
      cases htrue
    · show _ ≤ (endSequence (popActive w.redis)).rank
      rw [hend]
      -- the end is not marked while a lot waits
      cases hold : endSequence w.redis with
      | null => decide
      | isFalse => decide
      | isTrue =>
        rw [h.empty hold] at hmem
        cases hmem

/-- A command on the cache is carried out, or it fails and leaves everything as it is. -/
theorem run_redis_failing (env : Env) (c : RedisCmd) (st : World × List Bool) :
    ∃ plan, run (failing env) (redis c) st = (.error .jedis, (st.1, plan)) ∨
      run (failing env) (redis c) st =
        ((handle env (.redis c) st.1).1, ((handle env (.redis c) st.1).2, plan)) := by
  obtain ⟨w, plan⟩ := st
  rcases plan with _ | ⟨_ | _, plan⟩
  · exact ⟨[], .inr rfl⟩
  · exact ⟨plan, .inr rfl⟩
  · exact ⟨plan, .inl rfl⟩

/-- Whichever of its commands fail, handing the sale over does not turn the sale back. -/
theorem forward_setActiveBidItemId {env : Env} (hengine : EngineKeeps env) :
    Moves (failing env) (fun x y => Forward x.1 y.1) setActiveBidItemId := by
  apply (routinely_forward hengine).plainly.of_guarded
  intro st
  obtain ⟨plan, hpop | hpop⟩ := run_redis_failing env (.rpop .bidItemSequenceIds) st
  · -- the lot stays in the queue
    rw [run_bind_error (p := rpop .bidItemSequenceIds) hpop]
    exact refl_of Forward st.1
  rw [run_bind_ok (p := rpop .bidItemSequenceIds) (a := _) hpop]
  obtain ⟨plan', hset | hset⟩ := run_redis_failing env
    (.set .activeBidItemId (nextActive st.1.redis))
    ((handle env (.redis (.rpop .bidItemSequenceIds)) st.1).2, plan)
  · -- the lot is lost
    refine (congrArg (fun out => Forward st.1 out.2.1) hset).mpr ?_
    exact forward_rpop st.1
  · refine (congrArg (fun out => Forward st.1 out.2.1) hset).mpr ?_
    exact forward_popActive st.1

/-! ## Runs -/

/-- The world after an activity during which the commands on the cache fail as planned. -/
def World.afterFailing (env : Env) (w : World) (a : Activity × List Bool) : World :=
  (run (failing env) a.1.serve (w, a.2)).2.1

theorem forward_afterFailing {env : Env} (hengine : EngineKeeps env) (w : World)
    (a : Activity × List Bool) : Forward w (w.afterFailing env a) :=
  (routinely_forward hengine).of_serve (forward_setActiveBidItemId hengine) a.1 (w, a.2)

/-- After a load the end is not marked. -/
theorem markedAtEnd_loaded (env : Env) {w : World}
    (hids : ∀ s ∈ CommonDao.getCurrentBidSequence w.db w.auctionId, s.bidItemId ≠ 0) :
    MarkedAtEnd (w.loaded env).redis := by
  obtain ⟨r, n, hrun, hload⟩ := run_initCache env w
  have hredis : (w.loaded env).redis = r := congrArg (fun out => out.2.redis) hrun
  constructor
  · -- a queued id is that of a row
    intro hmem
    rw [hredis, (hload .bidItemSequenceIds fun hk => hk).lists] at hmem
    obtain ⟨s, hs, hzero⟩ := mem_queue_storeSequence env.order hmem
    exact hids s hs (Text.long.inj hzero).symm
  · intro hend
    unfold endSequence at hend
    rw [active_loaded] at hend
    cases hend

/-- What an activity does to the state of the sale. -/
structure MovesOn (r r' : Redis) : Prop where
  forward : (endSequence r).rank ≤ (endSequence r').rank
  ended : endSequence r' = .isTrue → r'.lists .bidItemSequenceIds = []

/-- **The state of a sale only moves forward**, from no lot yet to a lot on offer and to the end,
    and the end is marked only when the queue is empty, whichever commands on the cache fail
    during the ticks, requests and page views of a run. -/
theorem endSequence_forward (env : Env) (w : World) (run : List (Activity × List Bool))
    (hengine : EngineKeeps env)
    (hids : ∀ s ∈ CommonDao.getCurrentBidSequence w.db w.auctionId, s.bidItemId ≠ 0) :
    Along (World.afterFailing env) (fun t a => MovesOn t.redis (t.afterFailing env a).redis)
      (w.loaded env) run := by
  apply along_of_inv (I := fun t => MarkedAtEnd t.redis) _ (markedAtEnd_loaded env hids)
  intro t a ht
  obtain ⟨hmarked, hforward⟩ := forward_afterFailing hengine t a ht
  exact ⟨⟨hforward, hmarked.empty⟩, hmarked⟩

/-- The second tick pops lot `12`, and the command that would make it the active one fails. -/
def losing12 : List (Activity × List Bool) :=
  [(.tick, []), (.tick, List.replicate 40 false ++ [true]), (.page .marketList, []), (.tick, [])]

/-- The lot is lost. The state of the sale moves forward all the same, up to the end. -/
theorem endSequence_forward_losing12 :
    endSequence (losing12.foldl (World.afterFailing (Env.steady 100000))
        ((plainWorld twoLots 20).loaded (Env.steady 100000))).redis = .isTrue ∧
      Along (World.afterFailing (Env.steady 100000))
        (fun t a => MovesOn t.redis (t.afterFailing (Env.steady 100000) a).redis)
        ((plainWorld twoLots 20).loaded (Env.steady 100000)) losing12 :=
  ⟨by decide +kernel, endSequence_forward _ _ _ (fun _ _ _ _ _ _ => Store.SameAt.refl _ _)
    (by decide)⟩

end Bidding.Model
