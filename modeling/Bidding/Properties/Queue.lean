import Bidding.Sale.Refinement
import Bidding.Semantics.Sequence

/-!
# Is Every Scheduled Lot Queued?

`setBidSequenceList` fills the queue from a sorted set, asking for the scores from `0` to
the number of members. A row whose number is larger than the number of rows is not among
them: its lot is never put on sale.

## Key Results

- **`noLotLost_iff`**: the queue yields every lot in ascending order exactly when no number
  exceeds the number of rows.
-/

namespace Bidding.Model

open Bidding.Effects Bidding.Effects.Action Bidding.KeyValue RedisCacheService

/-! ## Emptying the queue -/

/-- `setActiveBidItemId`, and the id that `getActiveBidItemId` answers then. -/
def activate : Act ℤ := do
  setActiveBidItemId
  getActiveBidItemId

/-- The ids that become active in `n` calls. -/
def activateTimes : ℕ → Act (List ℤ)
  | 0 => pure []
  | n + 1 => do
    let id ← activate
    let ids ← activateTimes n
    pure (id :: ids)

/-- Load a sequence into a flushed cache, make its lots active one after the other, and one
    time more. -/
def sellQueue (rows : List BidSequence) : Act (List ℤ × ℤ) := do
  flushDB
  setBidSequenceList rows
  let ids ← activateTimes rows.length
  let last ← activate
  pure (ids, last)

/-- The lots become active in ascending order, and then there is none. -/
def NoLotLost (env : Env) (rows : List BidSequence) (w : World) : Prop :=
  (run (handle env) (sellQueue rows) w).1 =
    .ok ((ascending rows).map BidSequence.bidItemId, 0)

/-- The heads of a list, `0` where it is exhausted. -/
def heads : ℕ → List ℤ → List ℤ
  | 0, _ => []
  | n + 1, l => l.headD 0 :: heads n l.tail

/-- Past the end of the queue the id is `0`. -/
theorem heads_append_replicate (l : List ℤ) (m : ℕ) :
    heads (l.length + m) l = l ++ List.replicate m 0 := by
  induction l with
  | nil =>
    rw [List.length_nil, Nat.zero_add, List.nil_append]
    induction m with
    | zero => rfl
    | succ m ih => exact congrArg (0 :: ·) ih
  | cons x xs ih =>
    rw [List.length_cons, Nat.add_right_comm]
    exact congrArg (x :: ·) ih

section Run

variable (env : Env)

/-- One activation takes the head of the queue, or `0` if there is none. -/
theorem run_activate {w : World} {l : List ℤ}
    (hqueue : w.redis.lists .bidItemSequenceIds = (l.map Text.long).reverse) :
    ∃ w', run (handle env) activate w = (.ok (l.headD 0), w') ∧
      w'.redis.lists .bidItemSequenceIds = (l.tail.map Text.long).reverse := by
  refine ⟨{ w with redis := popActive w.redis }, ?_, ?_⟩
  · unfold activate
    rw [run_bind_ok (run_setActiveBidItemId env w), run_getActiveBidItemId]
    have hactive : (popActive w.redis).strings .activeBidItemId = some (nextActive w.redis) :=
      Store.strings_set (w.redis.rpop .bidItemSequenceIds) _ _
    simp only [activeId, hactive, nextActive, hqueue, List.getLast?_reverse]
    cases l <;> rfl
  · -- lots are pushed on the left and popped on the right
    have hpop : (popActive w.redis).lists .bidItemSequenceIds =
        (w.redis.lists .bidItemSequenceIds).dropLast :=
      Store.lists_rpop w.redis .bidItemSequenceIds
    rw [hpop, hqueue]
    cases l <;> simp

/-- Activations take the lots in the order of the queue. -/
theorem run_activateTimes {w : World} {l : List ℤ} (n : ℕ)
    (hqueue : w.redis.lists .bidItemSequenceIds = (l.map Text.long).reverse) :
    ∃ w', run (handle env) (activateTimes n) w = (.ok (heads n l), w') ∧
      w'.redis.lists .bidItemSequenceIds = ((l.drop n).map Text.long).reverse := by
  induction n generalizing w l with
  | zero => exact ⟨w, rfl, hqueue⟩
  | succ n ih =>
    obtain ⟨w₁, hrun₁, hqueue₁⟩ := run_activate env hqueue
    obtain ⟨w₂, hrun₂, hqueue₂⟩ := ih hqueue₁
    refine ⟨w₂, ?_, ?_⟩
    · unfold activateTimes
      rw [run_bind_ok hrun₁, run_bind_ok hrun₂]
      rfl
    · rw [hqueue₂, List.drop_tail]

/-- What becomes active is what the range query reached, and then nothing. -/
theorem run_sellQueue {rows : List BidSequence} (hid : (rows.map BidSequence.bidItemId).Nodup)
    (hseq : (rows.map BidSequence.sequenceId).Nodup) (hnonneg : ∀ s ∈ rows, 0 ≤ s.sequenceId)
    (w : World) :
    (run (handle env) (sellQueue rows) w).1 =
      .ok (heads rows.length ((reached rows).map BidSequence.bidItemId), 0) := by
  let l := (reached rows).map BidSequence.bidItemId
  let w₁ : World := { w with redis := storeSequence env.order rows Store.empty }
  have hqueue : w₁.redis.lists .bidItemSequenceIds = (l.map Text.long).reverse := by
    rw [List.map_map]
    exact queue_storeSequence env.order rfl rfl hid hseq hnonneg
  have hflush : run (handle env) flushDB w = (.ok (), { w with redis := Store.empty }) :=
    run_guarded_ok rfl
  obtain ⟨w₂, hrun₂, hqueue₂⟩ := run_activateTimes env rows.length hqueue
  -- there are at least as many activations as lots, so the queue is empty after them
  have hlen : l.length ≤ rows.length := by
    rw [List.length_map, reached]
    exact (List.length_filter_le _ _).trans (ascending_perm rows).length_eq.le
  rw [List.drop_of_length_le hlen] at hqueue₂
  obtain ⟨w₃, hrun₃, -⟩ := run_activate env hqueue₂
  unfold sellQueue
  rw [run_bind_ok hflush, run_bind_ok (run_setBidSequenceList env _ rows),
    run_bind_ok hrun₂, run_bind_ok hrun₃]
  rfl

end Run

/-! ## The rows that are not reached -/

/-- The rows that the range query does not reach, by ascending number. -/
def beyond (rows : List BidSequence) : List BidSequence :=
  (ascending rows).filter (fun s => !decide (s.sequenceId ≤ (rows.length : ℤ)))

/-- In ascending order, the rows that are reached come first. -/
theorem ascending_eq_reached_append {rows : List BidSequence}
    (hseq : (rows.map BidSequence.sequenceId).Nodup) :
    ascending rows = reached rows ++ beyond rows := by
  have hsplit : ∀ l : List BidSequence, l.Pairwise (fun a b => a.sequenceId < b.sequenceId) →
      l = l.filter (fun s => decide (s.sequenceId ≤ (rows.length : ℤ))) ++
        l.filter (fun s => !decide (s.sequenceId ≤ (rows.length : ℤ))) := by
    intro l hl
    induction l with
    | nil => rfl
    | cons s ss ih =>
      rw [List.pairwise_cons] at hl
      by_cases hs : s.sequenceId ≤ rows.length
      · simp only [List.filter_cons, hs, decide_true, if_true, Bool.not_true,
          Bool.false_eq_true, if_false, List.cons_append]
        exact congrArg (s :: ·) (ih hl.2)
      · -- from here on every number is too large
        have hnone : ss.filter (fun s => decide (s.sequenceId ≤ (rows.length : ℤ))) = [] := by
          rw [List.filter_eq_nil_iff]
          intro s' hs'
          have := hl.1 s' hs'
          simp only [decide_eq_true_eq]
          omega
        have hrest := ih hl.2
        rw [hnone, List.nil_append] at hrest
        simp [hs, hnone, ← hrest]
  exact hsplit _ (ascending_strict hseq)

/-- **The queue loses no lot exactly when no number exceeds the number of rows** (a lot with
    the id `0` cannot be told from the end of the sequence). -/
theorem noLotLost_iff (env : Env) {rows : List BidSequence}
    (hid : (rows.map BidSequence.bidItemId).Nodup)
    (hseq : (rows.map BidSequence.sequenceId).Nodup) (hnonneg : ∀ s ∈ rows, 0 ≤ s.sequenceId)
    (w : World) :
    NoLotLost env rows w ↔ ∀ s ∈ rows, s.sequenceId ≤ rows.length ∨ s.bidItemId = 0 := by
  have hsplit := ascending_eq_reached_append hseq
  have hlen : rows.length =
      ((reached rows).map BidSequence.bidItemId).length + (beyond rows).length := by
    rw [List.length_map, ← List.length_append, ← hsplit, (ascending_perm rows).length_eq]
  have hmem : ∀ s, s ∈ beyond rows ↔ s ∈ rows ∧ ¬ s.sequenceId ≤ rows.length := by
    intro s
    simp [beyond, (ascending_perm rows).mem_iff]
  -- each row beyond the range leaves one activation without a lot
  have hheads : heads rows.length ((reached rows).map BidSequence.bidItemId) =
      (reached rows).map BidSequence.bidItemId ++ List.replicate (beyond rows).length 0 := by
    conv_lhs => rw [hlen]
    exact heads_append_replicate _ _
  -- so the rows beyond are not lost only if their ids are the `0` that stands for no lot
  unfold NoLotLost
  rw [run_sellQueue env hid hseq hnonneg w, hheads, hsplit, List.map_append, Except.ok.injEq,
    Prod.mk.injEq, and_iff_left rfl, List.append_cancel_left_eq, eq_comm, List.eq_replicate_iff,
    List.length_map, and_iff_right rfl]
  constructor
  · intro h s hs
    by_cases hle : s.sequenceId ≤ rows.length
    · exact .inl hle
    · exact .inr (h _ (List.mem_map_of_mem ((hmem s).mpr ⟨hs, hle⟩)))
  · intro h id hid'
    obtain ⟨s, hs, rfl⟩ := List.mem_map.mp hid'
    obtain ⟨hrow, hgt⟩ := (hmem s).mp hs
    exact (h s hrow).resolve_left hgt

/-- Two lots numbered `1` and `2`. -/
def twoLots : List BidSequence := [⟨1, 11, 1, 60⟩, ⟨1, 12, 2, 60⟩]

/-- Numbered `1` and `2`, both lots are sold. -/
theorem noLotLost_twoLots :
    NoLotLost (Env.still 0) twoLots (World.initial .empty) :=
  (noLotLost_iff _ (by decide) (by decide) (by decide) _).mpr (by decide)

/-- Two lots numbered `1` and `3`. -/
def gapLots : List BidSequence := [⟨1, 11, 1, 60⟩, ⟨1, 12, 3, 60⟩]

/-- The lot numbered `3` of two never becomes active. -/
theorem gapLots_lost :
    (gapLots.map BidSequence.bidItemId).Nodup ∧ (gapLots.map BidSequence.sequenceId).Nodup ∧
      (∀ s ∈ gapLots, 0 ≤ s.sequenceId) ∧
      ¬ NoLotLost (Env.still 0) gapLots (World.initial .empty) := by
  refine ⟨by decide, by decide, by decide, ?_⟩
  unfold NoLotLost
  rw [run_sellQueue _ (by decide) (by decide) (by decide)]
  decide

end Bidding.Model
