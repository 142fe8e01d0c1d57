import Bidding.Sale.Tick
import Bidding.Semantics.Loading

/-!
# Loading Starts a Sale

The world that `initCache` leaves behind stands for a sale that has not started, of the rows
that were queued.

## Key Results

- **`refines_initCache`**: the sale that `initCache` starts.
- **`Consecutive.reached_eq`**: rows numbered from `1` to `n` are all queued.
-/

namespace Bidding.Model

open Bidding.Effects Bidding.Effects.Action Bidding.KeyValue
open RedisCacheService BidItemsCacheService

/-- A sequence that can be sold: different items with positive ids and different
    non-negative numbers, all of which can be loaded. -/
structure Saleable (db : Db) (rows : List BidSequence) : Prop where
  items : (rows.map BidSequence.bidItemId).Nodup
  pos : ∀ s ∈ rows, 1 ≤ s.bidItemId
  numbers : (rows.map BidSequence.sequenceId).Nodup
  nonneg : ∀ s ∈ rows, 0 ≤ s.sequenceId
  loadable : ∀ s ∈ rows, CommonDao.Loadable db s.bidItemId

/-- An item without auto-bids can be loaded. -/
theorem CommonDao.loadable_of_no_autoBids {db : Db} {id : ℤ} {row : BidItem}
    (hrow : db.bidItems id = some row) (hauto : db.autoBids = []) : CommonDao.Loadable db id := by
  intro times
  refine (CommonDao.getBidItem_ok_iff times db id).mpr ⟨row, hrow, ?_⟩
  simp [CommonDao.activeAutoBids, hauto, CommonDao.Resolvable]

/-- Tables in which every item can be loaded and has the same extension. -/
def plainDb (rows : List BidSequence) (timeExtAfterBid : ℤ) : Db :=
  { Db.empty with
    bidItems := fun _ => some { BidItem.new with timeExtAfterBid := some timeExtAfterBid }
    bidSequence := rows }

/-- A service that is set to auction `1` of such tables. -/
def plainWorld (rows : List BidSequence) (timeExtAfterBid : ℤ) : World :=
  { World.initial (plainDb rows timeExtAfterBid) with auctionId := 1 }

/-- A plain environment in which every clock reading is so many milliseconds after the one
    before. -/
def Env.steady (millis : ℕ) : Env :=
  Env.idle (fun n => ((millis * n : ℕ) : ℤ))
    (fun _ _ h => Int.ofNat_le.mpr (Nat.mul_le_mul_left millis h))

/-- Rows without auto-bids can always be loaded. -/
theorem saleable_plainDb {rows rows' : List BidSequence} {timeExtAfterBid : ℤ}
    (items : (rows.map BidSequence.bidItemId).Nodup) (pos : ∀ s ∈ rows, 1 ≤ s.bidItemId)
    (numbers : (rows.map BidSequence.sequenceId).Nodup) (nonneg : ∀ s ∈ rows, 0 ≤ s.sequenceId) :
    Saleable (plainDb rows' timeExtAfterBid) rows where
  items := items
  pos := pos
  numbers := numbers
  nonneg := nonneg
  loadable _ _ := CommonDao.loadable_of_no_autoBids rfl rfl

/-- The rows are numbered `1..n`. -/
def Consecutive (rows : List BidSequence) : Prop :=
  (rows.map BidSequence.sequenceId).Perm
    ((List.range' 1 rows.length).map (fun n : ℕ => (n : ℤ)))

instance (rows : List BidSequence) : Decidable (Consecutive rows) :=
  inferInstanceAs (Decidable (List.Perm _ _))

namespace Consecutive

variable {rows : List BidSequence}

theorem nodup (h : Consecutive rows) : (rows.map BidSequence.sequenceId).Nodup :=
  h.nodup_iff.mpr ((List.nodup_range' ..).map fun _ _ heq => Int.ofNat_inj.mp heq)

/-- Consecutive numbers go from `1` to the number of rows. -/
theorem bounds (h : Consecutive rows) {s : BidSequence} (hs : s ∈ rows) :
    1 ≤ s.sequenceId ∧ s.sequenceId ≤ rows.length := by
  have hmem := h.mem_iff.mp (List.mem_map_of_mem (f := BidSequence.sequenceId) hs)
  simp only [List.mem_map, List.mem_range'_1] at hmem
  omega

/-- All rows are queued. -/
theorem reached_eq (h : Consecutive rows) : reached rows = ascending rows := by
  refine List.filter_eq_self.mpr fun s hs => decide_eq_true ?_
  exact (h.bounds ((ascending_perm rows).mem_iff.mp hs)).2

end Consecutive

theorem mem_of_mem_reached {rows : List BidSequence} {s : BidSequence} (h : s ∈ reached rows) :
    s ∈ rows :=
  (ascending_perm rows).mem_iff.mp (List.mem_of_mem_filter h)

/-- The queued rows have distinct items, none of them `0`. -/
theorem Saleable.wellFormed {db : Db} {rows : List BidSequence} (h : Saleable db rows) :
    WellFormed (reached rows) where
  nodup := by
    have hsort : ((ascending rows).map BidSequence.bidItemId).Nodup :=
      ((ascending_perm rows).map _).nodup_iff.mpr h.items
    exact hsort.sublist (List.filter_sublist.map _)
  ne_zero s hs := by
    have hpos := h.pos s (mem_of_mem_reached hs)
    omega

/-- The world that `initCache` leaves behind stands for a sale of the queued rows. -/
theorem refines_initCache (env : Env) (w : World)
    (h : Saleable w.db (CommonDao.getCurrentBidSequence w.db w.auctionId)) :
    Refines (Sale.start (reached (CommonDao.getCurrentBidSequence w.db w.auctionId)))
      (run (handle env) initCache w).2 := by
  set rows := CommonDao.getCurrentBidSequence w.db w.auctionId with hrows
  obtain ⟨r, n, hrun, hload⟩ := run_initCache env w
  rw [← hrows] at hrun hload
  rw [hrun]
  -- the cache was flushed, and loading caches no item
  have hitems : r.sets .bidItems = [] := (sameAt_loaded hload .bidItems (fun hk => hk)).sets
  refine ⟨rfl, ?_, ?_, ?_, ?_, ?_, ⟨?_, ?_, ?_⟩, ?_⟩
  · -- the queue is built from the rows in the order of their numbers
    exact (hload .bidItemSequenceIds (fun hk => hk)).lists.trans
      (queue_storeSequence env.order rfl rfl h.items h.numbers h.nonneg)
  · exact (sameAt_loaded hload .activeBidItemId (fun hk => hk)).strings
  · exact (sameAt_loaded hload .expiredBidItems (fun hk => hk)).sets
  · intro lot hlot
    simp [Sale.opened, Sale.start] at hlot
  · intro lot _
    constructor
    · simp [hitems]
    · exact congrFun (sameAt_loaded hload (.bidItem lot.bidItemId) (fun hk => hk)).hashes
  · intro lot hlot
    have hstored := inSequence_storeSequence env.order (Store.empty : Redis) h.items
      (mem_of_mem_reached hlot)
    have hsame := (hload (.bidSequence lot.bidItemId) (fun hk => hk)).hashes
    exact ⟨(congrFun hsame .bidSpan).trans hstored.bidSpan,
      (congrFun hsame .sequenceId).trans hstored.sequenceId⟩
  · exact fun lot hlot => h.loadable lot (mem_of_mem_reached hlot)
  · simp [hitems]
  · intro lot hlot
    simp [Sale.start] at hlot

end Bidding.Model
