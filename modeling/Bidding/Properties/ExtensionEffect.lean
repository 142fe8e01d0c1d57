import Mathlib.Tactic.NormNum
import Bidding.Properties.Countdown
import Bidding.Sale.Snapshots

/-!
# The Effect of an Extension

An extension adds to the time left at the second of the request. It writes a new end time, and
a last update that is put so far back that the end time leaves room for the extension after a
bid; from then on the time left counts down to the new end time. Requests that follow each other
before the time is over add up.

## Key Results

- **`Extension.serve_spec`**: what one request leaves in the cache.
- **`timeLeft_extended`**: the time left after any number of requests.
-/

namespace Bidding.Model

open Bidding.Effects Bidding.Effects.Action Bidding.KeyValue
open RedisCacheService ObserverController

/-- A request for an extension within one second of the clock. -/
structure Extension where
  env : Env
  second : ℤ
  extendTime : ℤ
  afterEpoch : 0 ≤ second
  clock : ∀ n, secondOf (env.clock n) = second

namespace Extension

/-- The answer to a request, and the world after it. -/
def answer (id : ℤ) (w : World) (q : Extension) : Except Exn Unit × World :=
  run (handle q.env) (doExtendBidding id q.extendTime) w

/-- The world after a request. -/
def serve (id : ℤ) (w : World) (q : Extension) : World := (q.answer id w).2

/-- The world after some requests. -/
def serveAll (id : ℤ) (w : World) (qs : List Extension) : World := qs.foldl (serve id) w

/-- The sum of the extensions of some requests. -/
def total (qs : List Extension) : ℤ := (qs.map extendTime).sum

@[simp] theorem total_cons (q : Extension) (qs : List Extension) :
    total (q :: qs) = q.extendTime + total qs := rfl

/-- The time left of the item at the second of the request is `L`, and with the extension it
    stays within `2 ^ 30` seconds. -/
structure Finds (id : ℤ) (w : World) (q : Extension) (L : ℤ) : Prop where
  timeLeft : (run (handle q.env) (cachedTimeLeft id) w).1 = .ok L
  low : -2 ^ 30 < L + q.extendTime
  high : L + q.extendTime < 2 ^ 30

theorem env_second (q : Extension) (n : ℕ) : q.env.second n = q.second :=
  toSeconds_of_secondOf q.afterEpoch (q.clock n)

end Extension

/-! ## One request -/

/-- The sum of an `int` that was cut off and another number, cut off. -/
theorem toInt32_toInt32_add (m n : ℤ) : toInt32 (toInt32 m + n) = toInt32 (m + n) := by
  unfold toInt32
  rw [Int.bmod_add_bmod]

/-- A cached item whose extension is `X`, with an end time that leaves room for it. -/
structure Roomy (r : Redis) (id X E : ℤ) : Prop where
  cached : Cached r id
  times : ∃ U, CachedTimes r id E U X ∧ U + X ≤ E

/-- The time left of such an item counts down to its end time. -/
theorem Roomy.timeLeft {w : World} {id X E : ℤ} (h : Roomy w.redis id X E) (env : Env) :
    (run (handle env) (cachedTimeLeft id) w).1 =
      .ok (max 0 (E - env.second (checkReading w id))) := by
  obtain ⟨U, htimes, hroom⟩ := h.times
  rw [h.cached.run_cachedTimeLeft htimes, countdown_of_room hroom, max_eq_left hroom]

section Serve

variable {id X : ℤ} (hlow : 0 ≤ X) (hhigh : X ≤ 86400) {w : World} {q : Extension} {L : ℤ}

include hlow hhigh

/-- A request puts the end time as many seconds after its own second as there was time left,
    and the extension, and leaves room. -/
theorem Extension.serve_spec (h : Cached w.redis id) {E U : ℤ}
    (htimes : CachedTimes w.redis id E U X) (hfinds : q.Finds id w L) :
    (q.answer id w).1 = .ok () ∧
      Roomy (q.serve id w).redis id X (q.second + L + q.extendTime) := by
  obtain ⟨E', U', X', htimes', hrun⟩ := h.run_doExtendBidding q.env q.extendTime
  obtain ⟨rfl, rfl, rfl⟩ := htimes.unique htimes'
  have hleft : countdown E U X q.second = L := by
    have hvalue := hfinds.timeLeft
    rw [h.run_cachedTimeLeft htimes, q.env_second] at hvalue
    exact Except.ok.inj hvalue
  -- neither the time left nor the sum leaves the range of an `int`
  have hend : secondOf (extendedEnd q.env w id q.extendTime E U X) =
      q.second + L + q.extendTime := by
    have hsmall := hfinds.low
    have hlarge := hfinds.high
    unfold extendedEnd
    rw [secondOf_addSeconds, q.clock, q.env_second, hleft, toInt32_toInt32_add,
      toInt32_of_fits (by omega) (by omega)]
    omega
  have hfits : FitsInt X := by
    unfold FitsInt
    omega
  -- the last update is put back from the new end by the span and ten seconds more
  have hroom := room_of_fits hfits (extendedEnd q.env w id q.extendTime E U X)
  have hdates := cachedTimes_setDates htimes (extendedEnd q.env w id q.extendTime E U X)
    (addSeconds (extendedEnd q.env w id q.extendTime E U X) (toInt32 (-(X + 10))))
  rw [hend] at hroom hdates
  unfold Extension.serve Extension.answer
  rw [hrun]
  exact ⟨rfl, h.with_dates _ _, _, hdates, hroom⟩

/-! ## Requests one after the other -/

/-- A request before the time is over moves the end time by the extension. -/
theorem Roomy.serve {E : ℤ} (h : Roomy w.redis id X E) (hpos : 0 < L) (hfinds : q.Finds id w L) :
    (q.answer id w).1 = .ok () ∧ Roomy (q.serve id w).redis id X (E + q.extendTime) := by
  obtain ⟨U, htimes, -⟩ := h.times
  have hserved := Extension.serve_spec hlow hhigh h.cached htimes hfinds
  have hleft : max 0 (E - q.second) = L := by
    have hvalue := hfinds.timeLeft
    rw [h.timeLeft, q.env_second] at hvalue
    exact Except.ok.inj hvalue
  have hend : q.second + L = E := by omega
  rwa [hend] at hserved

/-- Requests before the time is over move the end time by the sum of their extensions. -/
theorem Roomy.serveAll {E : ℤ} (h : Roomy w.redis id X E) {qs : List Extension}
    (hqs : Along (Extension.serve id) (fun w q => ∃ L, 0 < L ∧ q.Finds id w L) w qs) :
    Along (Extension.serve id) (fun w q => (q.answer id w).1 = .ok ()) w qs ∧
      Roomy (Extension.serveAll id w qs).redis id X (E + Extension.total qs) := by
  induction qs generalizing w E with
  | nil =>
    refine ⟨trivial, ?_⟩
    show Roomy w.redis id X (E + 0)
    rwa [add_zero]
  | cons q qs ih =>
    obtain ⟨⟨L, hpos, hfinds⟩, hrest⟩ := hqs
    -- the first request moves the end by its own extension
    obtain ⟨hok, hserved⟩ := h.serve hlow hhigh hpos hfinds
    obtain ⟨hall, hroomy⟩ := ih hserved hrest
    refine ⟨⟨hok, hall⟩, ?_⟩
    rw [Extension.total_cons, ← add_assoc]
    exact hroomy

end Serve

/-- **Extensions add to the time left, and to each other.** Let the first request find `L`
    seconds left, and the others some time left. Then all succeed, the end second is the second
    of the first request plus `L` plus the sum of all extensions, and from then on the time left
    counts down to it. -/
theorem timeLeft_extended {w : World} {id E U X L : ℤ} {q : Extension} {qs : List Extension}
    (hcached : Cached w.redis id) (htimes : CachedTimes w.redis id E U X) (hlow : 0 ≤ X)
    (hhigh : X ≤ 86400) (hfirst : q.Finds id w L)
    (hrest : Along (Extension.serve id) (fun w q => ∃ L, 0 < L ∧ q.Finds id w L)
      (q.serve id w) qs) :
    Along (Extension.serve id) (fun w q => (q.answer id w).1 = .ok ()) w (q :: qs) ∧
      (Extension.serveAll id w (q :: qs)).redis.hashes (.bidItem id) .bidEndTime =
        some (.date (q.second + L + Extension.total (q :: qs))) ∧
      ∀ env t, env.second (checkReading (Extension.serveAll id w (q :: qs)) id) = t →
        (run (handle env) (cachedTimeLeft id) (Extension.serveAll id w (q :: qs))).1 =
          .ok (max 0 (L + Extension.total (q :: qs) - (t - q.second))) := by
  obtain ⟨hok, hserved⟩ := Extension.serve_spec hlow hhigh hcached htimes hfirst
  obtain ⟨hall, hroomy⟩ := hserved.serveAll hlow hhigh hrest
  rw [Extension.total_cons]
  refine ⟨⟨hok, hall⟩, ?_, ?_⟩
  · obtain ⟨U', htimes', -⟩ := hroomy.times
    rw [← add_assoc]
    exact htimes'.bidEndTime
  · -- with room for the extension the time left is that until the end
    intro env t ht
    have hleft := hroomy.timeLeft env
    have hsecond : env.second
        (checkReading (Extension.serveAll id (q.serve id w) qs) id) = t := ht
    rw [hsecond] at hleft
    refine hleft.trans ?_
    congr 2
    omega

/-- A request at a second of a clock that stands still. -/
def Extension.at (second extendTime : ℤ) (h : 0 ≤ second) : Extension where
  env := Env.still (ofSecond second)
  second := second
  extendTime := extendTime
  afterEpoch := h
  clock n := by
    show second * 1000 / 1000 = second
    omega

/-- A sale whose first lot was opened at second `1`. -/
def openLot : World := firstTick (Env.steady 1000) (plainWorld twoLots 20)

/-- The lot, which ends at second `61`, is extended by `30` at second `2` and by `5` at second
    `10`. -/
theorem timeLeft_openLot :
    CachedTimes openLot.redis 11 61 1 20 ∧
      (Extension.serveAll 11 openLot [Extension.at 2 30 (by decide),
        Extension.at 10 5 (by decide)]).redis.hashes (.bidItem 11) .bidEndTime =
          some (.date 96) := by
  have hsale : Saleable (plainWorld twoLots 20).db twoLots :=
    saleable_plainDb (by decide) (by decide) (by decide) (by decide)
  have hrefines := (refines_initCache (Env.steady 1000) (plainWorld twoLots 20) hsale).first_tick
    (Env.steady 1000) hsale.wellFormed rfl
  have hcached : Cached openLot.redis 11 := hrefines.opened ⟨1, 11, 1, 60⟩ (by decide)
  have htimes : CachedTimes openLot.redis 11 61 1 20 := by
    constructor <;> decide +kernel
  have hfirst : (Extension.at 2 30 (by decide)).Finds 11 openLot 59 :=
    ⟨by decide +kernel, by decide, by decide⟩
  have hsecond : (Extension.at 10 5 (by decide)).Finds 11
      ((Extension.at 2 30 (by decide)).serve 11 openLot) 81 :=
    ⟨by decide +kernel, by decide, by decide⟩
  have hrest : Along (Extension.serve 11) (fun w q => ∃ L, 0 < L ∧ q.Finds 11 w L)
      ((Extension.at 2 30 (by decide)).serve 11 openLot) [Extension.at 10 5 (by decide)] :=
    ⟨⟨81, by decide, hsecond⟩, trivial⟩
  have hend := (timeLeft_extended hcached htimes (by decide) (by decide) hfirst hrest).2.1
  refine ⟨htimes, ?_⟩
  rw [hend]
  rfl

end Bidding.Model
