import Bidding.Properties.Countdown
import Bidding.Sale.LotSteps

/-!
# Does a Closed Lot Stay Closed?

After a lot was closed, ticks, notifications, page views and bids leave its keys alone: they
write fields that are missing, and a closed lot has all of them. `doExtendBidding` overwrites,
and does not look at the status of the lot: it gives a closed lot a new end time.

## Key Results

- **`sound_loaded`**: the world that `initCache` leaves behind is sound.
- **`staysClosed_of_spares`**: in a run in which no extension names the lot after it was closed,
  it stays closed, with the values it had.
-/

namespace Bidding.Model

open Bidding.Effects Bidding.Effects.Action Bidding.KeyValue
open RedisCacheService BidItemsCacheService

/-! ## Runs -/

/-- What can happen until the cache is flushed. A tick may be that of any timer. -/
inductive Activity where
  | tick
  | extend (bidItemId extendTime : ℤ)
  | notify (bidItemId : ℤ) (bidAmount : ℚ)
  | page (p : Page)
  | observerPage (p : Page)
  | bid (request : BidRequest)

/-- The method that runs. -/
def Activity.serve : Activity → Act Unit
  | .tick => do
    let _ ← timerTask
  | .extend bidItemId extendTime => ObserverController.doExtendBidding bidItemId extendTime
  | .notify bidItemId bidAmount => BidObserver.update bidItemId bidAmount
  | .page p => p.serve
  | .observerPage p => p.serveObserver
  | .bid request => BidderController.doBid request

/-- The world after an activity. -/
def World.after (env : Env) (w : World) (a : Activity) : World :=
  (run (handle env) a.serve w).2

/-- The world that `initCache` leaves behind. -/
def World.loaded (env : Env) (w : World) : World := (run (handle env) initCache w).2

/-! ## Closed lots -/

/-- A lot was closed. The id `0`, which ends a sequence, is no lot. -/
def Closed (r : Redis) (x : ℤ) : Prop := x ≠ 0 ∧ .long x ∈ r.sets .expiredBidItems

/-- The status, the times, the price and the bidders of a lot in the cache. -/
def lotValues (r : Redis) (x : ℤ) : List (Option Text) × List Text :=
  ([.statusCode, .bidEndTime, .lastUpDateTime, .currentMarketPrice].map (r.hashes (.bidItem x)),
    r.sets (.bidders x))

/-- A closed lot stays closed with its values, and at no later clock reading it has time left. -/
structure StaysClosed (env : Env) (x : ℤ) (w w' : World) : Prop where
  kept : Closed w.redis x → Closed w'.redis x ∧ lotValues w'.redis x = lotValues w.redis x
  noTimeLeft : Closed w'.redis x → ∀ n ≥ w'.reads, ∃ timeLeft ≤ 0,
    (run (handle env) (cachedTimeLeft x) { w' with reads := n }).1 = .ok timeLeft

/-- No extension names the lot once it is closed, and no extension is for an item whose own
    extension after a bid is too long for an `int`. -/
def Spares (x : ℤ) (w : World) : Activity → Prop
  | .extend id _ => (id = x → ¬ Closed w.redis x) ∧
    ∀ X, w.redis.hashes (.bidItem id) .timeExtAfterBid = some (.long X) →
      -2 ^ 31 < X + 10 ∧ X + 10 ≤ 2 ^ 31
  | _ => True

section Steps

variable {env : Env} {x : ℤ} {w : World}

/-- After the cache was loaded no lot is cached, active or closed. -/
theorem sound_loaded (env : Env) (w : World) (x : ℤ) : Sound env x (w.loaded env) := by
  obtain ⟨r, n, hrun, hload⟩ := run_initCache env w
  have hredis : (w.loaded env).redis = r := congrArg (fun out => out.2.redis) hrun
  -- the load starts with a flush, and writes other keys only
  have hempty : ∀ k, ¬ LoadedKey k → Store.SameAt k r Store.empty := sameAt_loaded hload
  have hitems : r.sets .bidItems = [] := (hempty .bidItems fun hk => hk).sets
  have hexpired : r.sets .expiredBidItems = [] := (hempty .expiredBidItems fun hk => hk).sets
  have hactive : r.strings .activeBidItemId = none := (hempty .activeBidItemId fun hk => hk).strings
  refine ⟨⟨?_, ?_, ?_, ?_, ?_⟩, ?_⟩
  · rw [hredis, (hload .bidItemSequenceIds fun hk => hk).lists]
    exact nodup_queue_storeSequence _ _
  · simp [hredis, hitems]
  · simp [hredis, hactive]
  · simp [hredis, hexpired]
  · intro id _
    rw [hredis]
    have hout : .long id ∉ r.sets .bidItems := by simp [hitems]
    refine ⟨fun h => absurd h hout, fun h => absurd h hout, fun _ => ⟨?_, ?_, ?_⟩⟩
    · exact congrFun (hempty (.bidItem id) fun hk => hk).hashes
    · exact (hempty (.bidders id) fun hk => hk).sets
    · exact fun t => congrFun (hempty (.bidder id t) fun hk => hk).hashes
  · simp [hredis, hexpired]

/-- Every activity that spares the lot makes progress. -/
theorem progress_after (hx : x ≠ 0) (hengine : LotEngine env) (hclock : 0 ≤ env.clock 0)
    {a : Activity} (hspares : Spares x w a) : Progress env x w (w.after env a) := by
  cases a with
  | tick => exact ((advances_tick hx hclock).bind fun _ => advances_pure ()) w
  | extend id extendTime =>
    obtain ⟨hspare, hfits⟩ := hspares
    apply progress_extend id extendTime
    · exact fun heq hclosed => hspare heq ⟨hx, hclosed⟩
    · -- the span and ten seconds more fit into an `int`
      intro X hX
      have hbounds := hfits X hX
      unfold toInt32
      rw [Int.bmod_eq_of_le] <;> omega
  | notify id bidAmount => exact advances_update hx id bidAmount w
  | page p => exact advances_page hx p w
  | observerPage p => exact advances_observerPage hx p w
  | bid request => exact advances_doBid hx hengine request w

/-- A lot that was closed in the past has no time left. -/
theorem Sound.noTimeLeft (h : Sound env x w) (hclosed : Closed w.redis x) {n : ℕ}
    (hn : w.reads ≤ n) :
    (run (handle env) (cachedTimeLeft x) { w with reads := n }).1 = .ok 0 := by
  obtain ⟨hx, hmem⟩ := hclosed
  obtain ⟨E, U, X, htimes, hroom, hE⟩ := h.closed hmem
  have hcached := (h.tidy.whole x hx).cached (h.member hx hmem)
  have hlate : E ≤ env.second (checkReading { w with reads := n } x) := by
    apply hE.trans
    exact secondOf_le_toSeconds (env.clock_mono (hn.trans (Nat.le_add_right _ _)))
  -- the end is past, and there is room for the extension
  have hleft : countdown E U X (env.second (checkReading { w with reads := n } x)) = 0 := by
    unfold countdown
    rw [if_neg (by omega), if_neg (by omega)]
  rw [← hleft]
  exact Cached.run_cachedTimeLeft (w := { w with reads := n }) hcached htimes

/-- The step: a world that is sound before and after, and spares the lot. -/
theorem staysClosed_of_progress {w' : World} (h : Progress env x w w') (hw : Sound env x w) :
    StaysClosed env x w w' := by
  obtain ⟨hw', hspared⟩ := h hw
  refine ⟨fun hclosed => ⟨⟨hclosed.1, hspared.expired hclosed.2⟩, ?_⟩, fun hclosed n hn => ?_⟩
  · have hsame := hspared.same hclosed.2
    have hhash := (hsame _ (.inl rfl)).hashes
    have hbidders := (hsame _ (.inr (.inl rfl))).sets
    simp only [lotValues, hhash, hbidders]
  · exact ⟨0, le_rfl, hw'.noTimeLeft hclosed hn⟩

end Steps

/-- **A run that spares a closed lot keeps it closed**, with the values it had when it was
    closed and without time left. -/
theorem staysClosed_of_spares (env : Env) (w : World) (x : ℤ) (activities : List Activity)
    (hengine : LotEngine env) (hclock : 0 ≤ env.clock 0)
    (hspares : Along (World.after env) (Spares x) (w.loaded env) activities) :
    Along (World.after env) (fun t a => StaysClosed env x t (t.after env a)) (w.loaded env)
      activities := by
  by_cases hx : x = 0
  · -- there is no lot `0`
    apply along_of_inv (I := fun _ => True) _ trivial
    intro t a _
    exact ⟨⟨fun hclosed => absurd hx hclosed.1, fun hclosed => absurd hx hclosed.1⟩, trivial⟩
  · apply hspares.imp (I := Sound env x) _ (sound_loaded env w x)
    intro t a _ ht hspare
    have hprogress := progress_after hx hengine hclock hspare
    exact ⟨staysClosed_of_progress hprogress ht, (hprogress ht).1⟩

/-- Lot `11` is closed by the second tick. A published price for it, an extension of the next
    lot and a page view follow. -/
theorem staysClosed_twoLots :
    Along (World.after (Env.steady 100000))
      (fun t a => StaysClosed (Env.steady 100000) 11 t (t.after (Env.steady 100000) a))
      ((plainWorld twoLots 20).loaded (Env.steady 100000))
      [.tick, .tick, .notify 11 500, .extend 12 300, .page .marketList] := by
  apply staysClosed_of_spares (Env.steady 100000) (plainWorld twoLots 20) 11 _
    (lotEngine_idle _ _) (by decide)
  refine ⟨trivial, trivial, trivial, ⟨by simp, fun X hX => ?_⟩, trivial, trivial⟩
  have hext : (((((plainWorld twoLots 20).loaded (Env.steady 100000)).after (Env.steady 100000)
      .tick).after (Env.steady 100000) .tick).after (Env.steady 100000)
        (.notify 11 500)).redis.hashes (.bidItem 12) .timeExtAfterBid = some (.long 20) := by
    decide +kernel
  rw [hext] at hX
  obtain rfl : 20 = X := Text.long.inj (Option.some.inj hX)
  decide

/-- The run after which lot `11` is closed. -/
def closing11 : World :=
  [Activity.tick, .tick].foldl (World.after (Env.steady 100000))
    ((plainWorld twoLots 20).loaded (Env.steady 100000))

/-- An extension of the closed lot gives it a new end time and time left. -/
theorem closedLot_extended :
    let w := closing11
    let w' := w.after (Env.steady 100000) (.extend 11 1000)
    Closed w.redis 11 ∧
      w'.redis.hashes (.bidItem 11) .bidEndTime ≠ w.redis.hashes (.bidItem 11) .bidEndTime ∧
      (run (handle (Env.steady 100000)) (cachedTimeLeft 11) w').1 = .ok 800 ∧
      ¬ StaysClosed (Env.steady 100000) 11 w w' := by
  have hclosed : Closed closing11.redis 11 := ⟨by decide, by decide +kernel⟩
  have hend : (closing11.after (Env.steady 100000) (.extend 11 1000)).redis.hashes (.bidItem 11)
      .bidEndTime ≠ closing11.redis.hashes (.bidItem 11) .bidEndTime := by decide +kernel
  refine ⟨hclosed, hend, by decide +kernel, fun hstays => hend ?_⟩
  have hvalues := (hstays.kept hclosed).2
  exact List.head_eq_of_cons_eq (List.tail_eq_of_cons_eq (congrArg Prod.fst hvalues))

end Bidding.Model
