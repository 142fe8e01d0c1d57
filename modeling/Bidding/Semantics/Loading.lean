import Bidding.Semantics.Sequence

/-!
# Loading an Auction

The run of `initCache`: the cache is flushed and filled with the sequence, the categories
and the id counters, and a timer is started for the start time.

## Key Results

- **`run_initCache`**: the world that `initCache` leaves behind; apart from categories and
  id counters the cache is `storeSequence` of the auction's rows.
-/

namespace Bidding.Model.BidItemsCacheService

open Bidding.Effects Bidding.Effects.Action Bidding.KeyValue RedisCacheService

variable (env : Env) (w : World)

/-- The keys that `initCache` writes besides the sequence. -/
def LoadKey : Key → Prop
  | .categories | .category _ | .bidId | .autoBidId => True
  | _ => False

/-- All keys that `initCache` writes. -/
def LoadedKey : Key → Prop
  | .categories | .category _ | .bidId | .autoBidId | .bidItemIdSequence | .auctionId
  | .bidItemSequenceIds | .bidSequence _ => True
  | _ => False

/-- What is not written is empty after a load. -/
theorem sameAt_loaded {o : ServerOrder Text} {rows : List BidSequence} {r : Redis}
    (hload : ∀ k, ¬ LoadKey k → Store.SameAt k r (storeSequence o rows Store.empty)) (k : Key)
    (hk : ¬ LoadedKey k) : Store.SameAt k r Store.empty := by
  have hne : ∀ k', LoadedKey k' → k ≠ k' := fun k' hk' h => hk (h ▸ hk')
  have hkey : ¬ LoadKey k := fun h => hk (by cases k <;> trivial)
  exact (hload k hkey).trans (sameAt_storeSequence _ _ _ (hne _ trivial) (hne _ trivial)
    (hne _ trivial) (fun s _ => hne _ trivial))

/-- `flushDB` empties the cache. -/
@[simp] theorem run_flushDB :
    run (handle env) flushDB w = (.ok (), { w with redis := Store.empty }) :=
  run_guarded_ok rfl

/-- Categories and id counters. -/
theorem run_loadDetails :
    ∃ r n, run (handle env) loadDetails w =
      (.ok (), { w with redis := r, reads := w.reads + n }) ∧
      ∀ k, ¬ LoadKey k → Store.SameAt k r w.redis := by
  have hcategories : ∀ l, Within (cacheOnly LoadKey) (setCategories l) :=
    fun l => within_setCategories l trivial (fun _ => trivial)
  -- only the categories and the counters are written
  have hwithin : Within (cacheOnly LoadKey) loadDetails := by
    refine issues_bind (issues_bind (within_dao trivial) fun _ =>
      issues_bind (hcategories _) fun _ => issues_pure _) fun _ => ?_
    refine issues_bind (hcategories _) fun _ => issues_bind (within_dao trivial) fun _ => ?_
    refine issues_bind (within_guarded (within_set _ trivial)) fun _ => ?_
    exact issues_bind (within_dao trivial) fun _ => within_guarded (within_set _ trivial)
  obtain ⟨r, n, hrun, hsame⟩ := hwithin.run_cacheOnly env w
  refine ⟨r, n, Prod.ext ?_ hrun, hsame⟩
  -- each step returns, since the methods on the cache catch their exceptions
  have hset : ∀ (l : List Category) (w : World), run (handle env) (setCategories l) w =
      (.ok (), (run (handle env) (setCategories l) w).2) :=
    fun l w => Prod.ext (run_guarded_returns env w () _).choose_spec rfl
  have hlist : run (handle env) getCategoryList w =
      (.ok w.db.categories, (run (handle env) (setCategories w.db.categories) w).2) := by
    unfold getCategoryList
    rw [run_bind_ok (run_queryCategories_dao env w), run_bind_ok (hset _ _)]
    rfl
  unfold loadDetails
  rw [run_bind_ok hlist, run_bind_ok (hset _ _), run_bind_ok (run_getMaxBidId_dao env _),
    setBidIdKey, run_bind_ok (run_guarded env _ _ _), run_bind_ok (run_getMaxAutoBidId_dao env _),
    setAutoBidIdKey, run_guarded]

/-- The start time that `initCache` takes. -/
def startTimeOf (w : World) : Option Date :=
  match w.auctionStartTime with
  | some d => some d
  | none => CommonDao.getActualAuctionStartTime w.db w.auctionId

/-- The timers that `initCache` starts. -/
def newTimers (startTime : Option Date) (rows : List BidSequence) : List Date :=
  match rows with
  | [] => []
  | _ :: _ => startTime.toList

/-- The `try` block of `initCache`, whether it throws or not. -/
theorem run_loadSequence (startTime : Option Date) (rows : List BidSequence) :
    ∃ r n, (run (handle env) (loadSequence startTime rows) w).2 = { w with
        redis := r
        reads := w.reads + n
        timers := w.timers ++ newTimers startTime rows } ∧
      ∀ k, ¬ LoadKey k → Store.SameAt k r (storeSequence env.order rows Store.empty) := by
  unfold loadSequence
  rw [run_bind_ok (run_flushDB env w), run_bind_ok (run_setBidSequenceList env _ rows)]
  cases rows with
  | nil => exact ⟨_, 0, by simp [newTimers], fun k _ => Store.SameAt.refl k _⟩
  | cons s ss =>
    let w₁ : World := { w with redis := storeSequence env.order (s :: ss) Store.empty }
    obtain ⟨r, n, hrun, hsame⟩ := run_loadDetails env w₁
    refine ⟨r, n, ?_, hsame⟩
    refine (congrArg Prod.snd (run_bind_ok hrun)).trans ?_
    cases startTime with
    -- without a start time no timer is started
    | none => simp [newTimers, w₁]
    | some d => rfl

/-- The world that `initCache` leaves behind. -/
theorem run_initCache :
    ∃ r n, run (handle env) initCache w = (.ok (), { w with
        startFlag := true
        redis := r
        reads := w.reads + n
        timers := w.timers ++ newTimers (startTimeOf w)
          (CommonDao.getCurrentBidSequence w.db w.auctionId) }) ∧
      ∀ k, ¬ LoadKey k → Store.SameAt k r (storeSequence env.order
        (CommonDao.getCurrentBidSequence w.db w.auctionId) Store.empty) := by
  let rows := CommonDao.getCurrentBidSequence w.db w.auctionId
  let w₁ : World := { w with reads := w.reads + 1, startFlag := true }
  obtain ⟨r, n, hrun, hsame⟩ := run_loadSequence env w₁ (startTimeOf w) rows
  refine ⟨r, 1 + n, ?_, hsame⟩
  have hstart : run (handle env) (chooseStartTime w.auctionId) w₁ = (.ok (startTimeOf w), w₁) := by
    unfold chooseStartTime
    rw [run_bind_ok (run_getAuctionStartTime env w₁)]
    simp only [startTimeOf, w₁]
    cases w.auctionStartTime <;> rfl
  -- the block that loads is in a `try`, so that `initCache` returns in any case
  have hload := run_attempt (handle env) (loadSequence (startTimeOf w) rows) w₁
  rw [hrun] at hload
  unfold initCache
  refine (run_bind_ok (run_now env w)).trans ?_
  refine (run_bind_ok (run_setStartFlag env _ true)).trans ?_
  refine (run_bind_ok (run_getAuctionId_field env _)).trans ?_
  refine (run_bind_ok hstart).trans ?_
  refine (run_bind_ok (run_getCurrentBidSequence_dao env _ _)).trans ?_
  refine (run_bind_ok hload).trans ?_
  rw [← Nat.add_assoc]
  rfl

end Bidding.Model.BidItemsCacheService
