import Bidding.Properties.AddedExtensions
import Bidding.Sale.RacingTick

/-!
# Is an Acknowledged Extension Honoured?

An extension whose new end time is in the cache before the item is expired should keep the item
on sale until then. A tick that has read the old end time before goes on with what it has read:
it closes the item although the new end time lies ahead.

## Key Results

- **`honoured_of_heeds`**: an acknowledged extension is honoured on every schedule on which the
  tick and the request heed each other.
-/

namespace Bidding.Model

open Bidding.Effects Bidding.Effects.Action Bidding.KeyValue
open RedisCacheService BidItemsCacheService ObserverController

/-- What the threads return. -/
def Actor.Result : Actor → Type
  | .request => Except Exn Unit
  | .tick => Except Exn ℤ

/-- The item is extended while a tick of the scheduler runs. -/
def racing (w : World) (id extendTime : ℤ) : Pool Cmd Answer World Actor.Result where
  threads
    | .request => doExtendBidding id extendTime
    | .tick => setNextBidItem
  shared := ⟨w, []⟩

/-- While the clock is before an acknowledged end time, the item is on sale. -/
def Honoured (env : Env) (id : ℤ) (g : Shared Actor Cmd World) : Prop :=
  ∀ E, Acknowledged id g E → env.latest g.state < E → OnSale id g.state.redis

theorem Fair.honours {env : Env} {id X : ℤ} {g : Shared Actor Cmd World}
    (h : Fair env id X g) : Honoured env id g := by
  intro E hE hbefore
  cases h.honoured with
  | inl hsale => exact hsale
  | inr hfree => exact absurd hbefore (not_lt.mpr (hfree.2 E hE))

/-- **An acknowledged extension is honoured if the tick and the request heed each other.** -/
theorem honoured_of_heeds (env : Env) {w : World} {id X : ℤ} (hid : id ≠ 0)
    (hcached : Cached w.redis id)
    (hext : w.redis.hashes (.bidItem id) .timeExtAfterBid = some (.long X)) (hX : FitsInt X)
    (hsale : OnSale id w.redis) (hflag : w.startFlag = false) (extendTime : ℤ)
    {moves : List (Move Actor)}
    (hmoves : Along (Pool.step (handle env) noFaults) (Meets (Heeds id) Always)
      (racing w id extendTime) moves) :
    Honoured env id ((racing w id extendTime).play (handle env) noFaults moves).shared := by
  let D := race env id X
  -- at first nothing was acknowledged, and the item is on sale
  have hfair : Fair env id X (racing w id extendTime).shared :=
    ⟨⟨hcached, hext⟩, fun _ hE => hE.elim, .inl hsale⟩
  have hsecures : ∀ i, D.Secures i (fun _ => Fair env id X) ((racing w id extendTime).threads i)
      (racing w id extendTime).shared := by
    intro i
    cases i with
    | request =>
      have hrequest : D.Delivers .request (fun _ => Fair env id X)
          (doExtendBidding id extendTime) (racing w id extendTime).shared :=
        delivers_request hX extendTime ⟨hfair, fun h => h, fun h => h⟩
      apply Discipline.Secures.mono hrequest
      intro r g hr
      obtain ⟨_, -, hg⟩ := hr
      exact hg
    | tick =>
      exact secures_tick hid
        ⟨hfair, hsale, hflag, fun h => h, fun h => h, fun h => h, fun h => h⟩
  -- what one thread guarantees, the other one relies on
  have hkeep : ∀ i g g', D.guar i g g' → Fair env id X g → Fair env id X g' := by
    intro i g g' hguar
    cases i with
    | request => exact (hguar .tick (fun h => Actor.noConfusion h)).fair
    | tick => exact (hguar .request (fun h => Actor.noConfusion h)).fair
  exact (D.inv_run hkeep hsecures hfair hmoves).honours

theorem onSale_openedWorld : OnSale 11 openedWorld.redis := by
  constructor <;> decide +kernel

/-- A hundred seconds after the start, when the time of the item is over, it is given thirty
    seconds more. -/
@[irreducible] def racedBy (moves : List (Move Actor)) : Shared Actor Cmd World :=
  ((racing openedWorld 11 30).play (handle (Env.still 100000)) noFaults moves).shared

theorem latest_racedBy (moves : List (Move Actor)) :
    (Env.still 100000).latest (racedBy moves).state < 130 := by
  show (100 : ℤ) < 130
  decide

/-- The schedule in which the request ends before the tick starts. -/
def requestFirst : List (Move Actor) :=
  List.replicate 60 (.turn .request) ++ List.replicate 60 (.turn .tick)

/-- The tick after the request leaves the item on sale. -/
theorem honoured_requestFirst :
    Acknowledged 11 (racedBy requestFirst) 130 ∧ OnSale 11 (racedBy requestFirst).state.redis := by
  have hmoves : Along (Pool.step (handle (Env.still 100000)) noFaults) (Meets (Heeds 11) Always)
      (racing openedWorld 11 30) requestFirst := by decide +kernel
  have hack : Acknowledged 11 (racedBy requestFirst) 130 := by decide +kernel
  have hhonoured : Honoured (Env.still 100000) 11 (racedBy requestFirst) := by
    unfold racedBy
    exact honoured_of_heeds (Env.still 100000) (by decide) cached_openedWorld
      cachedTimes_openedWorld.timeExtAfterBid (by decide) onSale_openedWorld (by decide +kernel)
      30 hmoves
  exact ⟨hack, hhonoured 130 hack (latest_racedBy requestFirst)⟩

/-- The schedule in which the request comes between what the tick reads and what it writes. -/
def requestBetween : List (Move Actor) :=
  List.replicate 47 (.turn .tick) ++ List.replicate 60 (.turn .request) ++
    List.replicate 60 (.turn .tick)

/-- The new end time is written before the item is expired and lies ahead, and the tick closes
    the item. -/
theorem openedWorld_not_honoured :
    ¬ Honoured (Env.still 100000) 11 (racedBy requestBetween) := by
  have hack : Acknowledged 11 (racedBy requestBetween) 130 := by decide +kernel
  have hexpired : .long 11 ∈ (racedBy requestBetween).state.redis.sets .expiredBidItems := by
    decide +kernel
  intro h
  exact (h 130 hack (latest_racedBy requestBetween)).notExpired hexpired

end Bidding.Model
