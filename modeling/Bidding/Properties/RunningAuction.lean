import Bidding.Effects.Runs
import Bidding.Semantics.Admin

/-!
# One Running Auction, and the Cache Belongs to It

Starting an auction does not look at the others, its cache gets an auction id only from the
rows of its sequence, and closing any auction empties the cache. The page of the
administrator hides the links for this, but the requests do not check it.

## Key Results

- **`consistent_iff`**: along a sequence of requests there is at most one running auction,
  and the cache belongs to it, exactly if every auction is started when none is running and
  with a sequence, and no auction is closed while another one is running.
-/

namespace Bidding.Model

open Bidding.Effects Bidding.Effects.Action Bidding.KeyValue
open RedisCacheService BidItemsCacheService AdminController

/-- The row of an auction has the status `Running`. -/
def IsRunning (db : Db) (auctionId : ℤ) : Prop :=
  ∃ auction, db.auctions auctionId = some auction ∧ auction.status = .running

/-- At most one auction is running, and the cache belongs to it. -/
structure Consistent (w : World) : Prop where
  unique : ∀ a b, IsRunning w.db a → IsRunning w.db b → a = b
  auctionId : ∀ a, IsRunning w.db a → w.redis.strings .auctionId = some (.long a)

/-- A request that respects the running auction. -/
def Orderly (w : World) : Request → Prop
  | .initcache auctionStart (.value id) auctionTimeExt =>
    Startable w.db id → (∀ a, ¬ IsRunning w.db a) ∧
      (StartTimeGiven auctionStart auctionTimeExt →
        CommonDao.getCurrentBidSequence w.db id ≠ [])
  | .initcache _ _ _ => True
  | .closeAuction id => ∀ a, IsRunning w.db a → a = id

/-! ## The rows of the auctions -/

section Rows

variable {db : Db} {id : ℤ}

theorem not_isRunning_of_startable (h : Startable db id) : ¬ IsRunning db id := by
  rintro ⟨auction, hrow, hstatus⟩
  simp [Startable, CommonDao.isValidAuction, hrow, hstatus] at h

/-- The start of an auction makes it run, and leaves the others. -/
theorem isRunning_setActualAuctionStartTime (h : Startable db id) (d now : Date) (a : ℤ) :
    IsRunning (CommonDao.setActualAuctionStartTime db id d now) a ↔ a = id ∨ IsRunning db a := by
  obtain ⟨auction, hrow⟩ : ∃ auction, db.auctions id = some auction := by
    cases hrow : db.auctions id with
    | none => simp [Startable, CommonDao.isValidAuction, hrow] at h
    | some auction => exact ⟨auction, rfl⟩
  simp only [IsRunning, CommonDao.setActualAuctionStartTime, CommonDao.updateAuction]
  by_cases ha : a = id
  · subst ha
    simp [hrow]
  · simp [ha]

/-- The close of an auction ends it, and leaves the others. -/
theorem isRunning_closeAuction (db : Db) (id : ℤ) (d now : Date) (a : ℤ) :
    IsRunning (CommonDao.closeAuction db id d now) a ↔ a ≠ id ∧ IsRunning db a := by
  simp only [IsRunning, CommonDao.closeAuction, CommonDao.updateAuction]
  by_cases ha : a = id
  · subst ha
    cases db.auctions a <;> simp
  · simp [ha]

end Rows

theorem consistent_of_none {w : World} (h : ∀ a, ¬ IsRunning w.db a) : Consistent w :=
  ⟨fun a _ ha => absurd ha (h a), fun a ha => absurd ha (h a)⟩

/-! ## Requests -/

variable {env : Env} {w : World}

/-- A start keeps the running auction and the cache consistent exactly if it is orderly. -/
theorem consistent_initcache (h : Consistent w) (auctionStart : Arg Date)
    (auctionIdStr auctionTimeExt : Arg ℤ) :
    Consistent (serveRequest env w (.initcache auctionStart auctionIdStr auctionTimeExt)) ↔
      Orderly w (.initcache auctionStart auctionIdStr auctionTimeExt) := by
  have hcases := run_initcache_cases env w auctionStart auctionIdStr auctionTimeExt
  unfold serveRequest Request.serve
  generalize (run (handle env) (initcache auctionStart auctionIdStr auctionTimeExt) w).2 = w'
    at hcases ⊢
  cases hcases with
  | refused hrefused =>
    refine iff_of_true h ?_
    cases auctionIdStr with
    | blank | malformed => trivial
    | value id => exact fun hvalid => absurd hvalid (hrefused id rfl)
  | @failed id n hvalid htime =>
    -- the cache names the new auction, but none was started
    constructor
    · intro hnew _
      refine ⟨fun a ha => ?_, fun hgiven => absurd hgiven htime⟩
      have hkey := hnew.auctionId a ha
      have hid : some (Text.long id) = some (.long a) :=
        (Store.strings_set (Store.empty : Redis) .auctionId (.long id)).symm.trans hkey
      simp only [Option.some.injEq, Text.long.injEq] at hid
      exact not_isRunning_of_startable hvalid (hid ▸ ha)
    · exact fun horderly => consistent_of_none (horderly hvalid).1
  | @loaded id r n startTime now hvalid htime hload =>
    -- the auction is running now, and the cache has its id if it has a sequence
    have hrunning := isRunning_setActualAuctionStartTime hvalid startTime now
    have hkey : r.strings .auctionId =
        if CommonDao.getCurrentBidSequence w.db id = [] then none else some (.long id) := by
      refine (hload .auctionId (fun hk => hk)).strings.trans ?_
      refine strings_auctionId_storeSequence env.order fun s hs => ?_
      simpa [CommonDao.getCurrentBidSequence] using (List.mem_filter.mp hs).2
    constructor
    · intro hnew _
      refine ⟨fun a ha => ?_, fun _ hempty => ?_⟩
      · have hsame := hnew.unique a id ((hrunning a).mpr (.inr ha)) ((hrunning id).mpr (.inl rfl))
        exact not_isRunning_of_startable hvalid (hsame ▸ ha)
      · have hid := hnew.auctionId id ((hrunning id).mpr (.inl rfl))
        simp [hkey, hempty] at hid
    · intro horderly
      -- none was running before, so the new one is the only one
      obtain ⟨hnone, hrows⟩ := horderly hvalid
      have honly : ∀ a, IsRunning (CommonDao.setActualAuctionStartTime w.db id startTime now) a →
          a = id := fun a ha => ((hrunning a).mp ha).resolve_right (hnone a)
      refine ⟨fun a b ha hb => (honly a ha).trans (honly b hb).symm, fun a ha => ?_⟩
      rw [honly a ha]
      exact hkey.trans (if_neg (hrows htime))

/-- So does a close. -/
theorem consistent_closeAuction (id : ℤ) :
    Consistent (serveRequest env w (.closeAuction id)) ↔ Orderly w (.closeAuction id) := by
  unfold serveRequest Request.serve
  rw [run_closeAuction]
  have hrunning := fun a => isRunning_closeAuction w.db id (env.clock w.reads)
    (env.clock (w.reads + 1)) a
  constructor
  · intro hnew a ha
    by_contra hne
    -- the cache is empty, but `a` is still running
    have hkey := hnew.auctionId a ((hrunning a).mpr ⟨hne, ha⟩)
    cases hkey
  · intro horderly
    refine consistent_of_none fun a ha => ?_
    obtain ⟨hne, ha'⟩ := (hrunning a).mp ha
    exact hne (horderly a ha')

/-- **Along a sequence of requests there is at most one running auction, and the cache belongs
    to it, exactly if every request respects the running auction.** -/
theorem consistent_iff (env : Env) (w : World) (requests : List Request)
    (hnone : ∀ a, ¬ IsRunning w.db a) :
    Along (serveRequest env) (fun w request => Consistent (serveRequest env w request)) w
        requests ↔
      Along (serveRequest env) Orderly w requests := by
  refine Along.congr (I := Consistent) ?_ (fun _ _ _ hnew => hnew) (consistent_of_none hnone)
  intro w request h
  cases request with
  | initcache auctionStart auctionIdStr auctionTimeExt => exact consistent_initcache h _ _ _
  | closeAuction id => exact consistent_closeAuction id

/-- Two approved auctions that wait for their start, with one lot each. -/
def twoAuctions : Db :=
  { Db.empty with
    bidItems := fun _ => some BidItem.new
    auctions := fun id => if id = 1 ∨ id = 2 then some ⟨.start, "1", none, none, 0⟩ else none
    bidSequence := [⟨1, 11, 1, 60⟩, ⟨2, 21, 1, 60⟩] }

/-- No auction is running at first. -/
theorem twoAuctions_none_running (a : ℤ) : ¬ IsRunning (World.initial twoAuctions).db a := by
  rintro ⟨auction, hrow, hstatus⟩
  simp only [World.initial, twoAuctions] at hrow
  split at hrow
  · cases hrow
    cases hstatus
  · cases hrow

theorem consistent_twoAuctions :
    Along (serveRequest (Env.still 0))
      (fun w request => Consistent (serveRequest (Env.still 0) w request))
      (World.initial twoAuctions) [.initcache (.value 0) (.value 1) .blank] :=
  (consistent_iff _ _ _ twoAuctions_none_running).mpr
    ⟨fun _ => ⟨twoAuctions_none_running, fun _ => by decide⟩, trivial⟩

/-- Starting one auction after the other leaves both running. -/
theorem twoAuctions_both_running :
    let env := Env.still 0
    let w := serveRequest env
      (serveRequest env (World.initial twoAuctions) (.initcache (.value 0) (.value 1) .blank))
      (.initcache (.value 0) (.value 2) .blank)
    (∀ a, ¬ IsRunning (World.initial twoAuctions).db a) ∧
      IsRunning w.db 1 ∧ IsRunning w.db 2 ∧ ¬ Consistent w := by
  have h1 : IsRunning (serveRequest (Env.still 0)
      (serveRequest (Env.still 0) (World.initial twoAuctions)
        (.initcache (.value 0) (.value 1) .blank))
          (.initcache (.value 0) (.value 2) .blank)).db 1 :=
    ⟨⟨.running, "1", some 0, none, 0⟩, by decide +kernel, rfl⟩
  have h2 : IsRunning (serveRequest (Env.still 0)
      (serveRequest (Env.still 0) (World.initial twoAuctions)
        (.initcache (.value 0) (.value 1) .blank))
          (.initcache (.value 0) (.value 2) .blank)).db 2 :=
    ⟨⟨.running, "1", some 0, none, 0⟩, by decide +kernel, rfl⟩
  exact ⟨twoAuctions_none_running, h1, h2, fun h => absurd (h.unique 1 2 h1 h2) (by decide)⟩

end Bidding.Model
