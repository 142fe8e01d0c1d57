import Bidding.KeyValue.SortedSet
import Bidding.Semantics.Service

/-!
# Filling the Queue

What `setBidSequenceList` leaves in the cache: the sequence details of every row, the
auction id, and a queue that holds the rows whose number is at most the number of rows.

## Key Results

- **`queue_storeSequence`**: on an empty cache, rows with distinct items and numbers are
  queued in ascending order, as far as their numbers reach.
- **`inSequence_storeSequence`**: every row's details are stored, queued or not.
-/

namespace Bidding.Model.RedisCacheService

open Bidding.Effects Bidding.Effects.Action Bidding.KeyValue BidItemsCacheService

/-- The store after one turn of the first loop. -/
def storeRow (r : Redis) (s : BidSequence) : Redis :=
  (((((r.zadd .bidItemIdSequence s.sequenceId (.long s.bidItemId)).set .auctionId
    (.long s.auctionId)).hset (.bidSequence s.bidItemId) .bidItemId (.long s.bidItemId)).hset
    (.bidSequence s.bidItemId) .sequenceId (.long s.sequenceId)).hset
    (.bidSequence s.bidItemId) .auctionId (.long s.auctionId)).hset
    (.bidSequence s.bidItemId) .bidSpan (.long s.bidspan)

/-- The store after the first loop. -/
def storeRows (rows : List BidSequence) (r : Redis) : Redis := rows.foldl storeRow r

/-- The members that the range query answers. -/
def queuedIds (o : ServerOrder Text) (r : Redis) : List Text :=
  zrange o.lex (r.zsets .bidItemIdSequence) 0 (r.zsets .bidItemIdSequence).length

/-- The store after `setBidSequenceList`. -/
def storeSequence (o : ServerOrder Text) (rows : List BidSequence) (r : Redis) : Redis :=
  (queuedIds o (storeRows rows r)).foldl (fun r v => r.lpush .bidItemSequenceIds v)
    (storeRows rows r)

section Run

variable (env : Env) (w : World)

/-- Storing the sequence writes the rows and then the queue. -/
theorem run_setBidSequenceList (rows : List BidSequence) :
    run (handle env) (setBidSequenceList rows) w =
      (.ok (), { w with redis := storeSequence env.order rows w.redis }) := by
  have hrows : run (handle env) (forEach rows setBidSequence) w =
      (.ok (), { w with redis := storeRows rows w.redis }) := by
    induction rows generalizing w with
    | nil => rfl
    | cons s ss ih => exact ih { w with redis := storeRow w.redis s }
  -- the loop that fills the queue
  have hpush : ∀ (ids : List Text) (r : Redis),
      run (handle env) (forEach ids (lpush .bidItemSequenceIds)) { w with redis := r } =
        (.ok (), { w with
          redis := ids.foldl (fun r v => r.lpush .bidItemSequenceIds v) r }) := by
    intro ids
    induction ids with
    | nil => exact fun r => rfl
    | cons v vs ih => exact fun r => ih (r.lpush .bidItemSequenceIds v)
  refine run_guarded_ok ?_
  refine (run_bind_ok hrows).trans ?_
  refine (run_bind_ok (run_zcard env _ _)).trans ?_
  refine (run_bind_ok (run_zrangeByScore env _ _ _ _)).trans ?_
  exact hpush _ _

end Run

/-! ## What the loops leave behind -/

theorem sameAt_storeRow {k : Key} {s : BidSequence} (r : Redis) (hz : k ≠ .bidItemIdSequence)
    (ha : k ≠ .auctionId) (hs : k ≠ .bidSequence s.bidItemId) :
    Store.SameAt k (storeRow r s) r :=
  (Store.sameAt_hset _ hs _ _).trans <| (Store.sameAt_hset _ hs _ _).trans <|
    (Store.sameAt_hset _ hs _ _).trans <| (Store.sameAt_hset _ hs _ _).trans <|
    (Store.sameAt_set _ ha _).trans (Store.sameAt_zadd _ hz _ _)

/-- Storing the rows leaves all other keys alone. -/
theorem sameAt_storeRows {k : Key} (rows : List BidSequence) (r : Redis)
    (hz : k ≠ .bidItemIdSequence) (ha : k ≠ .auctionId)
    (hs : ∀ s ∈ rows, k ≠ .bidSequence s.bidItemId) : Store.SameAt k (storeRows rows r) r := by
  induction rows generalizing r with
  | nil => exact Store.SameAt.refl k r
  | cons s ss ih =>
    exact (ih (storeRow r s) (fun s' hs' => hs s' (List.mem_cons_of_mem s hs'))).trans
      (sameAt_storeRow r hz ha (hs s (List.mem_cons_self ..)))

theorem sameAt_lpushAll {k : Key} (ids : List Text) (r : Redis) (hk : k ≠ .bidItemSequenceIds) :
    Store.SameAt k (ids.foldl (fun r v => r.lpush .bidItemSequenceIds v) r) r := by
  induction ids generalizing r with
  | nil => exact Store.SameAt.refl k r
  | cons v vs ih => exact (ih _).trans (Store.sameAt_lpush r hk v)

/-- `setBidSequenceList` writes the sorted set, the auction id, the queue and the details. -/
theorem sameAt_storeSequence {k : Key} (o : ServerOrder Text) (rows : List BidSequence)
    (r : Redis) (hz : k ≠ .bidItemIdSequence) (ha : k ≠ .auctionId)
    (hq : k ≠ .bidItemSequenceIds) (hs : ∀ s ∈ rows, k ≠ .bidSequence s.bidItemId) :
    Store.SameAt k (storeSequence o rows r) r :=
  (sameAt_lpushAll _ _ hq).trans (sameAt_storeRows rows r hz ha hs)

/-- Pushing ids one by one puts the last one in front. -/
theorem lists_lpushAll (ids : List Text) (r : Redis) :
    (ids.foldl (fun r v => r.lpush .bidItemSequenceIds v) r).lists .bidItemSequenceIds =
      ids.reverse ++ r.lists .bidItemSequenceIds := by
  induction ids generalizing r with
  | nil => rfl
  | cons v vs ih =>
    rw [List.foldl_cons, ih, Store.lists_lpush]
    simp

/-- Each row is inserted into the sorted set with its number. -/
theorem zsets_storeRows_foldl (rows : List BidSequence) (r : Redis) :
    (storeRows rows r).zsets .bidItemIdSequence =
      (rows.map (fun s => (Text.long s.bidItemId, s.sequenceId))).foldl
        (fun z p => zinsert z p.2 p.1) (r.zsets .bidItemIdSequence) := by
  induction rows generalizing r with
  | nil => rfl
  | cons s ss ih =>
    refine (ih (storeRow r s)).trans ?_
    rw [List.map_cons, List.foldl_cons]
    congr 1

/-- The sorted set holds the rows with their numbers. -/
theorem zsets_storeRows (rows : List BidSequence) (r : Redis)
    (hempty : r.zsets .bidItemIdSequence = [])
    (hnodup : (rows.map BidSequence.bidItemId).Nodup) :
    (storeRows rows r).zsets .bidItemIdSequence =
      rows.map (fun s => (Text.long s.bidItemId, s.sequenceId)) := by
  rw [zsets_storeRows_foldl, hempty, foldl_zinsert]
  · simp
  · simp only [List.nil_append, List.map_map]
    -- the members are the ids of the items, which are distinct
    have hmap : (rows.map (Prod.fst ∘ fun s => (Text.long s.bidItemId, s.sequenceId))) =
        (rows.map BidSequence.bidItemId).map Text.long := by
      simp only [List.map_map]
      rfl
    rw [hmap]
    exact hnodup.map (fun _ _ h => Text.long.inj h)

/-- The details of a row are stored, unless a later row of the same item replaces them. -/
theorem inSequence_storeRows {rows : List BidSequence} (r : Redis)
    (hnodup : (rows.map BidSequence.bidItemId).Nodup) {s : BidSequence} (hs : s ∈ rows) :
    InSequence (storeRows rows r) s.bidItemId s.bidspan s.sequenceId := by
  induction rows generalizing r with
  | nil => simp at hs
  | cons s' ss ih =>
    rw [List.map_cons, List.nodup_cons] at hnodup
    rcases List.mem_cons.mp hs with rfl | hs
    · -- no later row has the same item
      have hsame := sameAt_storeRows ss (storeRow r s) (k := .bidSequence s.bidItemId)
        (by simp) (by simp) (fun s'' hs'' h => hnodup.1 (by
          simp only [Key.bidSequence.injEq] at h
          exact h ▸ List.mem_map_of_mem hs''))
      constructor
      · exact (congrFun hsame.hashes .bidSpan).trans (by simp [storeRow])
      · exact (congrFun hsame.hashes .sequenceId).trans (by simp [storeRow])
    · exact ih (storeRow r s') hnodup.2 hs

/-- Building the queue leaves the details of the rows alone. -/
theorem inSequence_storeSequence (o : ServerOrder Text) {rows : List BidSequence} (r : Redis)
    (hnodup : (rows.map BidSequence.bidItemId).Nodup) {s : BidSequence} (hs : s ∈ rows) :
    InSequence (storeSequence o rows r) s.bidItemId s.bidspan s.sequenceId := by
  have hrow := inSequence_storeRows r hnodup hs
  have hsame := sameAt_lpushAll (queuedIds o (storeRows rows r)) (storeRows rows r)
    (k := .bidSequence s.bidItemId) (by simp)
  constructor
  · exact (congrFun hsame.hashes .bidSpan).trans hrow.bidSpan
  · exact (congrFun hsame.hashes .sequenceId).trans hrow.sequenceId

/-- The auction id is that of the rows. -/
theorem strings_auctionId_storeRows {rows : List BidSequence} {id : ℤ} (r : Redis)
    (hid : ∀ s ∈ rows, s.auctionId = id) (hne : rows ≠ []) :
    (storeRows rows r).strings .auctionId = some (.long id) := by
  induction rows generalizing r with
  | nil => exact absurd rfl hne
  | cons s ss ih =>
    cases ss with
    -- the last row writes the id that stays
    | nil =>
      have hset : (storeRows [s] r).strings .auctionId = some (.long s.auctionId) := by
        simp [storeRows, storeRow, Store.hset]
      rw [hset, hid s (List.mem_cons_self ..)]
    | cons s' ss =>
      exact ih (storeRow r s) (fun s'' hs'' => hid s'' (List.mem_cons_of_mem s hs''))
        (List.cons_ne_nil s' ss)

/-- The auction id after the sequence is stored; without rows there is none. -/
theorem strings_auctionId_storeSequence (o : ServerOrder Text) {rows : List BidSequence} {id : ℤ}
    (hid : ∀ s ∈ rows, s.auctionId = id) :
    (storeSequence o rows Store.empty).strings .auctionId =
      if rows = [] then none else some (.long id) := by
  have hpush : (storeSequence o rows Store.empty).strings .auctionId =
      (storeRows rows Store.empty).strings .auctionId :=
    (sameAt_lpushAll _ _ (by simp)).strings
  rw [hpush]
  split
  · rename_i hrows
    rw [hrows]
    rfl
  · rename_i hrows
    exact strings_auctionId_storeRows _ hid hrows

/-! ## The queue -/

/-- The rows by ascending number. -/
def ascending (rows : List BidSequence) : List BidSequence :=
  rows.insertionSort (fun a b => a.sequenceId ≤ b.sequenceId)

/-- The rows that the range query reaches, by ascending number. -/
def reached (rows : List BidSequence) : List BidSequence :=
  (ascending rows).filter (fun s => decide (s.sequenceId ≤ rows.length))

theorem ascending_perm (rows : List BidSequence) : (ascending rows).Perm rows :=
  List.perm_insertionSort _ rows

theorem ascending_strict {rows : List BidSequence}
    (hseq : (rows.map BidSequence.sequenceId).Nodup) :
    (ascending rows).Pairwise (fun a b => a.sequenceId < b.sequenceId) := by
  have htotal : Std.Total (fun a b : BidSequence => a.sequenceId ≤ b.sequenceId) :=
    ⟨fun a b => le_total _ _⟩
  have htrans : IsTrans BidSequence (fun a b => a.sequenceId ≤ b.sequenceId) :=
    ⟨fun _ _ _ => le_trans⟩
  have hle := List.pairwise_insertionSort
    (fun a b : BidSequence => a.sequenceId ≤ b.sequenceId) rows
  have hne : (ascending rows).Pairwise (fun a b => a.sequenceId ≠ b.sequenceId) :=
    List.pairwise_map.mp (((ascending_perm rows).map BidSequence.sequenceId).nodup_iff.mpr hseq)
  exact hle.imp₂ (fun _ _ h h' => lt_of_le_of_ne h h') hne

/-- On an empty cache, the rows are queued in ascending order as far as their numbers
    reach. -/
theorem queue_storeSequence (o : ServerOrder Text) {rows : List BidSequence} {r : Redis}
    (hempty : r.zsets .bidItemIdSequence = []) (hqueue : r.lists .bidItemSequenceIds = [])
    (hid : (rows.map BidSequence.bidItemId).Nodup)
    (hseq : (rows.map BidSequence.sequenceId).Nodup) (hnonneg : ∀ s ∈ rows, 0 ≤ s.sequenceId) :
    (storeSequence o rows r).lists .bidItemSequenceIds =
      ((reached rows).map (fun s => Text.long s.bidItemId)).reverse := by
  have hzset := zsets_storeRows rows r hempty hid
  have hids : queuedIds o (storeRows rows r) =
      (reached rows).map (fun s => Text.long s.bidItemId) := by
    rw [queuedIds, hzset, List.length_map]
    rw [zrange_eq o (l := (reached rows).map (fun s => (Text.long s.bidItemId, s.sequenceId)))]
    · rw [List.map_map]
      rfl
    · rw [List.filter_map]
      refine List.Perm.map _ ?_
      refine ((ascending_perm rows).filter _).trans ?_
      rw [List.filter_congr]
      intro s hs
      simp [hnonneg s hs]
    · rw [List.pairwise_map]
      exact (ascending_strict hseq).filter _
  rw [storeSequence, hids, lists_lpushAll,
    (sameAt_storeRows rows r (k := .bidItemSequenceIds) (by simp) (by simp) (by simp)).lists,
    hqueue, List.append_nil]

theorem lists_storeSequence (o : ServerOrder Text) (rows : List BidSequence) :
    (storeSequence o rows Store.empty).lists .bidItemSequenceIds =
      (queuedIds o (storeRows rows Store.empty)).reverse := by
  rw [storeSequence, lists_lpushAll, (sameAt_storeRows rows Store.empty (k := .bidItemSequenceIds)
    (by simp) (by simp) (by simp)).lists, Store.empty, List.append_nil]

/-- Whatever the rows are, no item is queued twice. -/
theorem nodup_queue_storeSequence (o : ServerOrder Text) (rows : List BidSequence) :
    ((storeSequence o rows Store.empty).lists .bidItemSequenceIds).Nodup := by
  rw [lists_storeSequence, List.nodup_reverse]
  apply nodup_zrange
  rw [zsets_storeRows_foldl]
  exact nodup_foldl_zinsert _ List.nodup_nil

/-- Whatever the rows are, only their items are queued. -/
theorem mem_queue_storeSequence (o : ServerOrder Text) {rows : List BidSequence} {t : Text}
    (h : t ∈ (storeSequence o rows Store.empty).lists .bidItemSequenceIds) :
    ∃ s ∈ rows, t = .long s.bidItemId := by
  rw [lists_storeSequence, List.mem_reverse] at h
  have hmem := mem_of_mem_zrange h
  rw [zsets_storeRows_foldl] at hmem
  rcases mem_foldl_zinsert hmem with hold | hnew
  · cases hold
  · rw [List.map_map] at hnew
    obtain ⟨s, hs, rfl⟩ := List.mem_map.mp hnew
    exact ⟨s, hs, rfl⟩

end Bidding.Model.RedisCacheService
