import Bidding.Properties.Queue
import Bidding.Sale.Scheduler

/-!
# Does the Time Left Count Down?

The time left of a lot should be what remains until the later one of its end time `E` and
its last update plus its extension, `U + X`. Where `U + X` is the later one, `getTimeLeft`
subtracts the wrong way round: the time left grows with the clock, and the lot stays on
offer for ever.

## Key Results

- **`countdownLaw_iff`**: the lot on offer counts down and is handed over in time exactly
  when its end time leaves room for the extension.
-/

namespace Bidding.Model

open Bidding.Effects Bidding.Effects.Action Bidding.KeyValue
open RedisCacheService BidItemsCacheService

/-- The time left of a cached item, as every caller reads it. -/
def cachedTimeLeft (bidItemId : ℤ) : Act ℤ := do
  match ← RedisCacheService.getBidItem bidItemId with
  | none => Action.throw .nullPointer
  | some bidItem => getTimeLeft bidItem

/-- The time left is what remains until `E` or `U + X`. -/
def CountsDown (w : World) (id E U X : ℤ) : Prop :=
  ∀ env : Env, U ≤ env.second (checkReading w id) →
    (run (handle env) (cachedTimeLeft id) w).1 =
      .ok (max 0 (max E (U + X) - env.second (checkReading w id)))

/-- At a later time there is not more time left. -/
def NeverIncreases (w : World) (id U : ℤ) : Prop :=
  ∀ (env env' : Env) (a a' : ℤ), U ≤ env.second (checkReading w id) →
    env.second (checkReading w id) ≤ env'.second (checkReading w id) →
    (run (handle env) (cachedTimeLeft id) w).1 = .ok a →
    (run (handle env') (cachedTimeLeft id) w).1 = .ok a' → a' ≤ a

/-- A tick at `E` and `U + X` or later closes the item and makes the next one active. -/
def HandsOver (w : World) (id E U X : ℤ) : Prop :=
  ∀ env : Env, max E (U + X) ≤ env.second (checkReading w id) →
    .long id ∈ (run (handle env) timerTask w).2.redis.sets .expiredBidItems ∧
      (run (handle env) timerTask w).2.redis.strings .activeBidItemId = some (nextActive w.redis)

/-- The law of the countdown, and of the hand-over that follows from it. -/
structure CountdownLaw (w : World) (id E U X : ℤ) : Prop where
  countsDown : CountsDown w id E U X
  neverIncreases : NeverIncreases w id U
  handsOver : HandsOver w id E U X

/-- With room for the extension the time left is that until the end, and never below `0`. -/
theorem countdown_of_room {E U X : ℤ} (h : U + X ≤ E) (t : ℤ) :
    countdown E U X t = max 0 (max E (U + X) - t) := by
  unfold countdown
  rw [if_neg (by omega), max_eq_left h]
  split <;> omega

/-- Without room, the time left after the last update is too large. -/
theorem countdown_of_no_room {E U X : ℤ} (hX : 0 ≤ X) (h : ¬ U + X ≤ E) :
    countdown E U X (U + 1) ≠ max 0 (max E (U + X) - (U + 1)) := by
  have hmax : max E (U + X) = U + X := max_eq_right (by omega)
  unfold countdown
  rw [if_pos (by omega), hmax]
  omega

/-- The time left of a cached item. -/
theorem Cached.run_cachedTimeLeft {env : Env} {w : World} {id E U X : ℤ}
    (h : Cached w.redis id) (htimes : CachedTimes w.redis id E U X) :
    (run (handle env) (cachedTimeLeft id) w).1 =
      .ok (countdown E U X (env.second (checkReading w id))) := by
  obtain ⟨item, E', U', X', hget, htimes', hE, hU, hX⟩ := h.run_getBidItem env
  obtain ⟨rfl, rfl, rfl⟩ := htimes.unique htimes'
  unfold cachedTimeLeft
  rw [run_bind_ok hget]
  exact congrArg Prod.fst (run_getTimeLeft env _ hE hU hX)

/-- A tick after the end hands the lot over. -/
theorem Refines.handsOver {s : Sale BidSequence} {w : World} (h : Refines s w)
    (hwf : WellFormed s.lots) {lot : BidSequence} (hcurrent : s.current = some lot) {E U X : ℤ}
    (htimes : CachedTimes w.redis lot.bidItemId E U X) (hroom : U + X ≤ E) :
    HandsOver w lot.bidItemId E U X := by
  intro env hlate
  obtain ⟨outcome, s', w', hrun, hticked⟩ := run_timerTask_cases env h hwf
    (fun hover => by simp [hover.2] at hcurrent)
  rw [hrun]
  cases hticked with
  | stay hcurrent' htimes' hleft =>
    -- there is no time left
    obtain rfl : lot = _ := Option.some.inj (hcurrent.symm.trans hcurrent')
    obtain ⟨rfl, rfl, rfl⟩ := htimes.unique htimes'
    rw [countdown_of_room hroom] at hleft
    omega
  -- the lot is among the sold ones, and the next one is active
  | advance hrefines =>
    refine ⟨?_, ?_⟩
    · rw [hrefines.mem_expired]
      simp [Sale.advance, hcurrent]
    · rw [hrefines.active, nextActive, h.queue, List.getLast?_reverse]
      simp only [Sale.advance, if_true, activeText, List.head?_map]

/-- **The lot on offer counts down and is handed over in time exactly when its end time
    leaves room for its extension.** -/
theorem countdownLaw_iff {s : Sale BidSequence} {w : World} {lot : BidSequence} {E U X : ℤ}
    (h : Refines s w) (hwf : WellFormed s.lots) (hcurrent : s.current = some lot)
    (htimes : CachedTimes w.redis lot.bidItemId E U X) (hX : 0 ≤ X) :
    CountdownLaw w lot.bidItemId E U X ↔ U + X ≤ E := by
  have hcached := h.opened lot (Sale.mem_opened_of_current hcurrent)
  constructor
  · intro hlaw
    by_contra hroom
    -- one second after the last update
    let env : Env := Env.still (ofSecond (U + 1))
    have hsecond : env.second (checkReading w lot.bidItemId) = U + 1 := toSeconds_ofSecond _
    have hvalue := hlaw.countsDown env (by omega)
    rw [hcached.run_cachedTimeLeft htimes, hsecond, Except.ok.injEq] at hvalue
    exact countdown_of_no_room hX hroom hvalue
  · intro hroom
    refine ⟨fun env _ => ?_, fun env env' a a' _ hle ha ha' => ?_,
      h.handsOver hwf hcurrent htimes hroom⟩
    · rw [hcached.run_cachedTimeLeft htimes, countdown_of_room hroom]
    · rw [hcached.run_cachedTimeLeft htimes, countdown_of_room hroom, Except.ok.injEq] at ha ha'
      omega

/-- The world after the first tick of a sale. -/
def firstTick (env : Env) (w : World) : World :=
  (run (handle env) timerTask (Scheduler.start env w).world).2

theorem countdownLaw_twoLots :
    CountdownLaw (firstTick (Env.steady 1000) (plainWorld twoLots 20)) 11 61 1 20 := by
  have hsale : Saleable (plainWorld twoLots 20).db twoLots :=
    saleable_plainDb (by decide) (by decide) (by decide) (by decide)
  have hrefines := (refines_initCache (Env.steady 1000) (plainWorld twoLots 20) hsale).first_tick
    (Env.steady 1000) hsale.wellFormed rfl
  refine (@countdownLaw_iff _ _ ⟨1, 11, 1, 60⟩ _ _ _ hrefines ?_ (by decide) ?_
    (by decide)).mpr (by decide)
  · rw [Sale.advance_lots]
    exact hsale.wellFormed
  · constructor <;> decide +kernel

/-- One lot with a span of `10` seconds. -/
def shortLots : List BidSequence := [⟨1, 11, 1, 10⟩]

/-- The lot has an extension of `20` seconds. The tick a hundred seconds after its opening
    finds `120` seconds left, and does not close it. -/
theorem shortLots_counts_up :
    let env := Env.steady 100000
    let w := firstTick env (plainWorld shortLots 20)
    CachedTimes w.redis 11 110 100 20 ∧ max 110 (100 + 20) ≤ env.second (checkReading w 11) ∧
      (run (handle env) (cachedTimeLeft 11) w).1 = .ok 120 ∧
      .long 11 ∉ (run (handle env) timerTask w).2.redis.sets .expiredBidItems ∧
      ¬ CountdownLaw w 11 110 100 20 := by
  have hlate : max 110 (100 + 20) ≤ (Env.steady 100000).second
      (checkReading (firstTick (Env.steady 100000) (plainWorld shortLots 20)) 11) := by
    decide +kernel
  have hopen : .long 11 ∉ (run (handle (Env.steady 100000)) timerTask
      (firstTick (Env.steady 100000) (plainWorld shortLots 20))).2.redis.sets
        .expiredBidItems := by decide +kernel
  refine ⟨?_, hlate, by decide +kernel, hopen, fun hlaw => ?_⟩
  · constructor <;> decide +kernel
  · exact hopen (hlaw.handsOver _ hlate).1

end Bidding.Model
