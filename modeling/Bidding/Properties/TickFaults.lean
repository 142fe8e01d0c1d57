import Bidding.Sale.FaultyTick

/-!
# Harm Done by a Failing Cache Command

One command to the cache fails during a tick of the scheduler. Every method on the cache
swallows the exception and answers a default, and `setNextBidItem` takes the default for a
state of the sale: no active id, no item, an item without an end time. Which of the commands
are the harmful ones is said call by call.

## Architecture

- **`Harmless env w out`**: what the failure of a command must not do to a tick.
- **`placeOf env w k`**: the call into which the `k`-th command of a tick falls.
- **`Harms env w place`**: the commands whose failure does harm.

## Key Results

- **`Passes.unharmed_iff`**: a tick that has popped the queue.
- **`unharmed_start_iff`**: the first tick of a sale.
-/

namespace Bidding.Model

open Bidding.Effects Bidding.Effects.Action Bidding.KeyValue
open RedisCacheService BidItemsCacheService

/-- There is something left to be sold: a waiting item, or an active one that is not closed. -/
def Remaining (w : World) : Prop :=
  w.redis.lists .bidItemSequenceIds ≠ [] ∨
    ∃ id, id ≠ 0 ∧ w.redis.strings .activeBidItemId = some (.long id) ∧
      .long id ∉ w.redis.sets .expiredBidItems

/-- What the failure of a command must not do to a tick from `w`. -/
structure Harmless (env : Env) (w : World) (out : Except Exn TaskOutcome × World) : Prop where
  /-- the active item is not closed before its end time -/
  notEarly : ∀ id E, w.redis.strings .activeBidItemId = some (.long id) →
    w.redis.hashes (.bidItem id) .bidEndTime = some (.date E) →
    .long id ∉ w.redis.sets .expiredBidItems → .long id ∈ out.2.redis.sets .expiredBidItems →
    ∃ n, w.reads ≤ n ∧ n < out.2.reads ∧ E ≤ env.second n
  /-- an item that leaves the queue becomes the active one -/
  notLost : out.2.redis.lists .bidItemSequenceIds = w.redis.lists .bidItemSequenceIds ∨
    out.2.redis.lists .bidItemSequenceIds = (w.redis.lists .bidItemSequenceIds).dropLast ∧
      out.2.redis.strings .activeBidItemId = some (nextActive w.redis)
  /-- the timer is not cancelled while something is left to be sold -/
  notCancelled : Remaining out.2 → ∃ seconds, out.1 = .ok (.sleep seconds)

/-- What a tick in which nothing fails needs to be harmless: every lot has a span, and the time
    of the item on sale does not run out between the test and the result. -/
structure Calm (env : Env) (lots : List BidSequence) (w : World) : Prop where
  spans : ∀ lot ∈ lots, 0 < lot.bidspan
  steady : ∀ id E U X, w.redis.strings .activeBidItemId = some (.long id) →
    CachedTimes w.redis id E U X → ∀ n, w.reads ≤ n → 0 < countdown E U X (env.second n) →
    0 < countdown E U X (env.second (n + 2))

/-! ## The commands of a tick -/

/-- The calls of a tick that talk to the cache, in their order. -/
inductive TickCall where
  /-- `isEndSequence` -/
  | endCheck
  /-- `getActiveBidItemId`, for the item on sale -/
  | readActive
  /-- `RedisCacheService.getBidItem` of the item on sale -/
  | fetch
  /-- `setActiveBidItemId` -/
  | pop
  /-- `cleanBidItem` of the item on sale -/
  | clean
  /-- `getActiveBidItemId`, for the next item -/
  | readNext
  /-- `BidItemsCacheService.getBidItem` of the next item -/
  | openNext
  deriving DecidableEq

/-- The call of a tick into which its `k`-th command falls, and the place in that call. An item
    with time left is only fetched. -/
def placeOf (env : Env) (w : World) (k : ℕ) : TickCall × ℕ :=
  match activeItem w.redis with
  | none => locate .openNext [(.endCheck, 2), (.pop, 3), (.readNext, 2)] k
  | some id =>
    if 0 < timeLeftOf w.redis id (env.second (checkReading w id)) then
      locate .fetch [(.endCheck, 2), (.readActive, 2)] k
    else
      locate .openNext [(.endCheck, 2), (.readActive, 2),
        (.fetch, commands env (RedisCacheService.getBidItem id) w), (.pop, 3),
        (.clean, commands env (cleanBidItem id)
          { w with redis := popActive w.redis, reads := checkReading w id + 1 }),
        (.readNext, 2)] k

/-- A hand-over that starts now is over before the end time of the item on sale. -/
def ClosesEarly (env : Env) (w : World) : Prop :=
  ∀ id E, w.redis.strings .activeBidItemId = some (.long id) →
    w.redis.hashes (.bidItem id) .bidEndTime = some (.date E) →
    ∀ n, w.reads ≤ n → n < (run (handle env) (handOver id) w).2.reads → env.second n < E

/-- The commands whose failure does harm. -/
def Harms (env : Env) (w : World) : TickCall × ℕ → Prop
  | (.endCheck, _) => False
  -- the item `0` does not exist
  | (.readActive, _) => True
  -- without a connection, or without a field up to the end time, the item counts as expired;
  -- an item that is not found ends the sale, and so does one without its last update
  | (.fetch, k) => (k = 1 ∨ k = 2 ∨ 12 ≤ k ∧ k < 17) ∨
      (k = 0 ∨ 3 ≤ k ∧ k < 12) ∧ ClosesEarly env w
  -- at the start nothing becomes active; later the popped item is lost by the failing `SET`
  | (.pop, k) => w.redis.lists .bidItemSequenceIds ≠ [] ∧ (activeItem w.redis = none ∨ k = 2)
  -- the item is not found again, or without its id
  | (.clean, k) => w.redis.lists .bidItemSequenceIds ≠ [] ∧ 4 ≤ k ∧ k < 8
  | (.readNext, _) => w.redis.lists .bidItemSequenceIds ≠ []
  -- without a connection the next item has no span; its place in the sequence must be read
  | (.openNext, k) => w.redis.lists .bidItemSequenceIds ≠ [] ∧ (k = 0 ∨ k = 3 ∨ k = 4)

/-! ## Harmless and harmful outcomes -/

/-- What comes out of `setNextBidItem` is harmless to the tick. -/
def Unharmed (env : Env) (w : World) (out : Except Exn ℤ × World) : Prop :=
  Harmless env w (.ok (resultOutcome out.1), out.2)

/-- An item is closed at its end time at the earliest. -/
def ClosedInTime (env : Env) (w t : World) : Prop :=
  ∀ id E, w.redis.strings .activeBidItemId = some (.long id) →
    w.redis.hashes (.bidItem id) .bidEndTime = some (.date E) →
    .long id ∉ w.redis.sets .expiredBidItems → .long id ∈ t.redis.sets .expiredBidItems →
    ∃ n, w.reads ≤ n ∧ n < t.reads ∧ E ≤ env.second n

section Outcomes

variable {env : Env} {s : Sale BidSequence} {w t : World} {r : Except Exn ℤ}
  {out : Except Exn ℤ × World} {lot : BidSequence}

theorem outcome_of_pos {span : ℤ} (h : 0 < span) : resultOutcome (.ok span) = .sleep span :=
  if_neg (not_le.mpr h)

theorem not_unharmed_of_cancel (hcancel : resultOutcome out.1 = .cancel) (hleft : Remaining out.2) :
    ¬ Unharmed env w out := by
  intro h
  obtain ⟨seconds, hsleep⟩ := h.notCancelled hleft
  rw [hcancel] at hsleep
  cases hsleep

/-- The lot on offer is left to be sold. -/
theorem Refines.remaining (h : Refines s w) (hwf : WellFormed s.lots)
    (hcurrent : s.current = some lot) : Remaining w := by
  right
  refine ⟨lot.bidItemId, hwf.ne_zero lot (Sale.mem_lots_of_opened
    (Sale.mem_opened_of_current hcurrent)), h.active_of_current hcurrent, fun hmem => ?_⟩
  rw [h.mem_expired, List.mem_map] at hmem
  obtain ⟨id, hid, heq⟩ := hmem
  obtain ⟨lot', hsold, rfl⟩ := List.mem_map.mp hid
  exact Sale.current_not_sold hwf.nodup hcurrent hsold (Text.long.inj heq)

theorem Refines.queue_eq_nil_iff (h : Refines s w) :
    w.redis.lists .bidItemSequenceIds = [] ↔ s.waiting = [] := by
  rw [h.queue, List.reverse_eq_nil_iff, List.map_eq_nil_iff]

theorem Refines.exists_next (h : Refines s w) (hqueue : w.redis.lists .bidItemSequenceIds ≠ []) :
    ∃ lot, s.waiting.head? = some lot := by
  cases hwaiting : s.waiting with
  | nil => exact absurd (h.queue_eq_nil_iff.mpr hwaiting) hqueue
  | cons lot rest => exact ⟨lot, rfl⟩

/-- A tick that has popped the queue is harmless exactly if it is timely, and not spoiled while
    a lot is waiting. -/
theorem Passes.unharmed_iff {spoiled : Prop} (h : Passes s w spoiled out) (hrefines : Refines s w)
    (hwf : WellFormed s.lots) (hspans : ∀ lot ∈ s.lots, 0 < lot.bidspan) :
    Unharmed env w out ↔ ClosedInTime env w out.2 ∧
      ¬ (w.redis.lists .bidItemSequenceIds ≠ [] ∧ spoiled) := by
  constructor
  · intro hunharmed
    refine ⟨hunharmed.notEarly, fun hbad => ?_⟩
    -- the popped lot is active and not sold
    obtain ⟨lot, hnext⟩ := hrefines.exists_next hbad.1
    have hlot := Sale.mem_lots_of_waiting (List.mem_of_mem_head? hnext)
    refine not_unharmed_of_cancel (h.cancelled hbad.2 lot hnext) (.inr ⟨lot.bidItemId,
      hwf.ne_zero lot hlot, ?_, h.moved.unsold lot hnext⟩) hunharmed
    rw [h.moved.active, hnext]
    rfl
  · rintro ⟨hearly, hfine⟩
    -- the lot that left the queue is the active one, so it is not lost
    refine ⟨hearly, .inr ⟨?_, ?_⟩, fun hleft => ?_⟩
    · rw [h.moved.queue, ← lists_popActive hrefines.queue]
      exact Store.lists_rpop w.redis .bidItemSequenceIds
    · rw [h.moved.active, ← strings_popActive hrefines.queue]
      exact Store.strings_set (w.redis.rpop .bidItemSequenceIds) _ _
    · cases hnext : s.waiting.head? with
      | some lot =>
        have hmem := List.mem_of_mem_head? hnext
        have hqueue : w.redis.lists .bidItemSequenceIds ≠ [] := by
          intro hnil
          rw [hrefines.queue_eq_nil_iff.mp hnil] at hmem
          cases hmem
        rw [h.result (fun hspoiled => hfine ⟨hqueue, hspoiled⟩) lot hnext,
          outcome_of_pos (hspans lot (Sale.mem_lots_of_waiting hmem))]
        exact ⟨_, rfl⟩
      | none =>
        -- the queue is empty and the active id is `0`
        have hwaiting : s.waiting = [] := List.head?_eq_none_iff.mp hnext
        rcases hleft with hqueue | ⟨id, hne, hactive, -⟩
        · exact absurd (by rw [h.moved.queue, hwaiting]; rfl) hqueue
        · rw [h.moved.active, hnext] at hactive
          exact absurd (Text.long.inj (Option.some.inj hactive)).symm hne

end Outcomes

/-! ## The check for the end -/

section Tick

variable {env : Env} {s : Sale BidSequence} {w : World} {lot : BidSequence} {k : ℕ}

/-- The task catches what the tick throws, so a fault gives an outcome. -/
theorem fault_timerTask (env : Env) (k : ℕ) (w : World) :
    fault env timerTask k w = (.ok (resultOutcome (fault env setNextBidItem k w).1),
      (fault env setNextBidItem k w).2) := by
  have htask : timerTask = attempt setNextBidItem >>= fun r => pure (resultOutcome r) := by
    unfold timerTask
    congr
    funext r
    cases r <;> rfl
  rw [htask, fault_map, fault, withFault_attempt]
  rfl

/-- Before its end, a tick does the rest of its work, whether or not the check fails. -/
theorem fault_setNextBidItem_check {rest : Act ℤ}
    (hrest : (if w.startFlag then startOfSequence else nextOfSequence) = rest) (hk : k < 2) :
    fault env setNextBidItem k w = run (handle env) rest w := by
  subst hrest
  unfold setNextBidItem
  rw [fault_bind_lt (commands_isEndSequence env w) hk (fault_isEndSequence env w hk)]
  exact run_bind_ok (run_getStartFlag env w)

/-- A fault after the check for the end is one of the branch that is taken. -/
theorem fault_setNextBidItem_rest {rest : Act ℤ} (hend : endSequence w.redis ≠ .isTrue)
    (hrest : (if w.startFlag then startOfSequence else nextOfSequence) = rest) (k : ℕ) :
    fault env setNextBidItem (k + 2) w = fault env rest k w := by
  subst hrest
  unfold setNextBidItem
  rw [fault_bind_add (commands_isEndSequence env w) (run_isEndSequence env w), if_neg hend]
  exact fault_bind_zero rfl (run_getStartFlag env w)

/-! ## The first tick -/

/-- Before the start no item is active. -/
theorem closedInTime_start (h : Refines s w) (hstarted : s.started = false) (t : World) :
    ClosedInTime env w t := by
  intro id E hactive
  rw [h.active, hstarted] at hactive
  cases hactive

/-- Nothing becomes active in the first tick. -/
theorem fault_startOfSequence_pop (env : Env) (h : Refines s w) (hstarted : s.started = false)
    (hk : k < 3) :
    ∃ r, fault env startOfSequence k w =
        (.error .nullPointer, { w with startFlag := false, redis := r }) ∧
      r.strings .activeBidItemId = none ∧
      r.lists .bidItemSequenceIds = if k = 2 then
        (w.redis.lists .bidItemSequenceIds).dropLast else w.redis.lists .bidItemSequenceIds := by
  have hactive : w.redis.strings .activeBidItemId = none := by
    rw [h.active, hstarted]
    rfl
  obtain ⟨r, hpop, hsame, hqueue⟩ :=
    fault_setActiveBidItemId_lt env { w with startFlag := false } hk
  have hid : activeId r = 0 := by
    simp [activeId, (hsame .activeBidItemId (by simp)).strings, hactive]
  -- the id `0` is not in the cache
  have hzero : .long 0 ∉ r.sets .bidItems := by
    rw [(hsame .bidItems (by simp)).sets]
    exact h.data.zero
  refine ⟨r, ?_, ((hsame .activeBidItemId (by simp)).strings).trans hactive, hqueue⟩
  rw [startOfSequence_eq]
  refine (fault_bind_zero rfl (run_setStartFlag env w false)).trans ?_
  refine (fault_bind_lt (commands_setActiveBidItemId env _) hk hpop).trans ?_
  refine (run_bind_ok (run_getActiveBidItemId env _)).trans ?_
  show run (handle env) (BidItemsCacheService.getBidItem (activeId r) >>= _) _ = _
  rw [hid]
  exact run_bind_ok (run_getBidItem_zero env _ hzero)

theorem dropLast_ne_self {l : List Text} (h : l ≠ []) : l.dropLast ≠ l := by
  intro heq
  have hlength := congrArg List.length heq
  rw [List.length_dropLast] at hlength
  have hpos := List.length_pos_iff.mpr h
  omega

/-- A lot that is popped and does not become active is lost, and without a pop the timer of a
    sale with waiting lots is cancelled. -/
theorem unharmed_start_pop (h : Refines s w) (hstarted : s.started = false) (hk : k < 3) :
    Unharmed env w (fault env startOfSequence k w) ↔
      w.redis.lists .bidItemSequenceIds = [] := by
  obtain ⟨r, hfault, hactive, hqueue⟩ := fault_startOfSequence_pop env h hstarted hk
  rw [hfault]
  constructor
  · intro hunharmed
    by_contra hne
    by_cases hset : k = 2
    · rw [if_pos hset] at hqueue
      rcases hunharmed.notLost with hsame | ⟨-, hnext⟩
      · exact dropLast_ne_self hne (hqueue.symm.trans hsame)
      · rw [show _ = none from hactive] at hnext
        cases hnext
    · rw [if_neg hset] at hqueue
      refine not_unharmed_of_cancel rfl (.inl ?_) hunharmed
      show r.lists .bidItemSequenceIds ≠ []
      rw [hqueue]
      exact hne
  · intro hnil
    -- with nothing to sell there is nothing to harm
    have hempty : r.lists .bidItemSequenceIds = [] := by
      rw [hqueue, hnil]
      split <;> rfl
    refine ⟨closedInTime_start h hstarted _, .inl (hempty.trans hnil.symm), fun hleft => ?_⟩
    rcases hleft with hne | ⟨id, -, hid, -⟩
    · exact absurd hempty hne
    · rw [show _ = none from hactive] at hid
      cases hid

/-- The failures of `openNext`, which ends a tick, that do harm. -/
theorem harms_openNext_iff (env : Env) (w : World) (k : ℕ) :
    Harms env w (locate .openNext [(.readNext, 2)] k) ↔
      w.redis.lists .bidItemSequenceIds ≠ [] ∧ (k < 2 ∨ k = 2 ∨ k = 5 ∨ k = 6) := by
  refine locate_cons_rule (P := fun k place => Harms env w place ↔
    w.redis.lists .bidItemSequenceIds ≠ [] ∧ (k < 2 ∨ k = 2 ∨ k = 5 ∨ k = 6)) ?_ ?_ k
  · intro k hk
    simp [Harms, hk]
  · intro k
    -- the commands are counted on from the two that read the active id
    have hplace : (k + 2 < 2 ∨ k + 2 = 2 ∨ k + 2 = 5 ∨ k + 2 = 6) ↔ k = 0 ∨ k = 3 ∨ k = 4 := by
      omega
    rw [hplace]
    rfl

theorem fault_startOfSequence_rest (env : Env) (k : ℕ) (w : World) :
    fault env startOfSequence (k + 3) w = fault env (openNext (.error .nullPointer)) k
      { w with startFlag := false, redis := popActive w.redis } := by
  rw [startOfSequence_eq]
  refine (fault_bind_zero rfl (run_setStartFlag env w false)).trans ?_
  exact fault_bind_add (commands_setActiveBidItemId env _) (run_setActiveBidItemId env _)

/-- The first tick. -/
theorem unharmed_start_iff (h : Refines s w) (hwf : WellFormed s.lots)
    (hspans : ∀ lot ∈ s.lots, 0 < lot.bidspan) (hstarted : s.started = false) (k : ℕ) :
    Unharmed env w (fault env setNextBidItem k w) ↔
      ¬ Harms env w (locate .openNext [(.endCheck, 2), (.pop, 3), (.readNext, 2)] k) := by
  have hflag : w.startFlag = true := by rw [h.startFlag, hstarted]; rfl
  have hrest : (if w.startFlag then startOfSequence else nextOfSequence) = startOfSequence :=
    if_pos hflag
  have hend : endSequence w.redis ≠ .isTrue := by
    simp [endSequence, h.active, hstarted]
  have hnone : activeItem w.redis = none := by
    rw [h.activeItem_eq hwf, (s.fresh hstarted).1]
    rfl
  let popped : World := { w with startFlag := false, redis := popActive w.redis }
  have hpopped : SequencePopped s popped := h.popped hwf false
  have hintime : ∀ t, ClosedInTime env w t := closedInTime_start h hstarted
  -- the calls are taken one after the other: each case moves past the commands of one call
  refine locate_cons_rule (P := fun k place =>
    Unharmed env w (fault env setNextBidItem k w) ↔ ¬ Harms env w place) ?_ ?_ k
  · -- the check fails, and the tick does its work
    intro k hk
    have hstart : run (handle env) startOfSequence w =
        run (handle env) (openNext (.error .nullPointer)) popped := by
      rw [startOfSequence_eq]
      exact (run_bind_ok (run_setStartFlag env w false)).trans
        (run_bind_ok (run_setActiveBidItemId env _))
    have hpasses : Passes s w False (run (handle env) (openNext (.error .nullPointer)) popped) :=
      (hpopped.run_openNext env _ rfl).mono le_rfl
    rw [fault_setNextBidItem_check hrest hk, hstart, hpasses.unharmed_iff h hwf hspans]
    exact iff_of_true ⟨hintime _, fun hbad => hbad.2⟩ not_false
  refine locate_cons_rule (P := fun k place =>
    Unharmed env w (fault env setNextBidItem (k + 2) w) ↔ ¬ Harms env w place) ?_ ?_
  · intro k hk
    rw [fault_setNextBidItem_rest hend hrest, unharmed_start_pop h hstarted hk]
    simp [Harms, hnone]
  -- the queue is popped
  have hpasses : ∀ k, Unharmed env w (fault env setNextBidItem (k + 3 + 2) w) ↔
      ¬ (w.redis.lists .bidItemSequenceIds ≠ [] ∧ (k < 2 ∨ k = 2 ∨ k = 5 ∨ k = 6)) := by
    intro k
    have hopen := (hpopped.fault_openNext env (r := .error .nullPointer) rfl k).mono (w := w) le_rfl
    rw [fault_setNextBidItem_rest hend hrest, fault_startOfSequence_rest,
      hopen.unharmed_iff h hwf hspans, and_iff_right (hintime _)]
  intro k
  rw [hpasses, harms_openNext_iff]

end Tick

end Bidding.Model
