import Bidding.Properties.Queue
import Bidding.Sale.Requests

/-!
# Who Opens a Lot

A lot goes on sale when its item is loaded into the cache, and any caller of `getBidItem`
that misses the cache loads it. Only the scheduler opens lots exactly when no bidder bids on
an item that still waits in the queue.

## Key Results

- **`onlySchedulerOpens_iff`**: along every run of ticks, bids and page views.
-/

namespace Bidding.Model

open Bidding.Effects Bidding.Effects.Action Bidding.KeyValue
open RedisCacheService BidItemsCacheService

/-- What can happen to a sale with bidders. -/
inductive BidderEvent where
  | tick
  | bid (request : BidRequest)
  | page (p : Page)

/-- One event. -/
def Scheduler.serve (env : Env) (c : Scheduler) : BidderEvent → Scheduler
  | .tick => c.step env .tick
  | .bid request =>
    { c with world := (run (handle env) (BidderController.doBid request) c.world).2 }
  | .page p => { c with world := (run (handle env) p.serve c.world).2 }

theorem serve_bid (env : Env) (c : Scheduler) (request : BidRequest) :
    c.serve env (.bid request) = { c with
      world := (run (handle env) (BidderController.doBid request) c.world).2 } := rfl

theorem serve_page (env : Env) (c : Scheduler) (p : Page) :
    c.serve env (.page p) = { c with world := (run (handle env) p.serve c.world).2 } := rfl

/-- No item that waits in the queue is in the cache. -/
def PendingUncached (r : Redis) : Prop :=
  ∀ t ∈ r.lists .bidItemSequenceIds, t ∉ r.sets .bidItems

/-- An item that becomes active starts at the time `t` of a clock reading of the step, ends
    its span of seconds later and is `ACTIVE`. -/
def OpensAtActivation (env : Env) (c c' : Scheduler) : Prop :=
  ∀ id, activeItem c'.world.redis = some id → activeItem c.world.redis ≠ some id →
    ∃ n span, c.world.reads ≤ n ∧ n < c'.world.reads ∧
      c.world.redis.hashes (.bidSequence id) .bidSpan = some (.long span) ∧
      c'.world.redis.hashes (.bidItem id) .bidStartTime = some (Text.format (env.clock n)) ∧
      c'.world.redis.hashes (.bidItem id) .bidEndTime =
        some (Text.format (addSeconds (env.clock n) span)) ∧
      c'.world.redis.hashes (.bidItem id) .statusCode = some (.str "ACTIVE")

/-- What is asked of one event. -/
def OpensNone (env : Env) (c : Scheduler) (e : BidderEvent) : Prop :=
  PendingUncached (c.serve env e).world.redis ∧ OpensAtActivation env c (c.serve env e)

/-- Nobody but the scheduler opens a lot in the course of a run. -/
def OnlySchedulerOpens (env : Env) (w : World) (events : List BidderEvent) : Prop :=
  PendingUncached (Scheduler.start env w).world.redis ∧
    Along (Scheduler.serve env) (OpensNone env) (Scheduler.start env w) events

/-- The event is not a bid that fetches an item that waits in the queue. -/
def NotOnPending (c : Scheduler) : BidderEvent → Prop
  | .bid request => ∀ id ∈ fetched request,
      .long id ∉ c.world.redis.lists .bidItemSequenceIds
  | .tick | .page _ => True

instance (c : Scheduler) : (e : BidderEvent) → Decidable (NotOnPending c e)
  | .bid request => inferInstanceAs (Decidable (∀ id ∈ fetched request, _))
  | .tick | .page _ => inferInstanceAs (Decidable True)

/-- The id of a bid fits the `int` that the service takes. -/
def BidderEvent.Fits : BidderEvent → Prop
  | .bid request => toInt32 request.bidItemId = request.bidItemId
  | .tick | .page _ => True

section Sale

variable {env : Env} {lots : List BidSequence} {s s' : Sale BidSequence} {c c' : Scheduler}

theorem Refines.mem_queue {w : World} (h : Refines s w) (id : ℤ) :
    .long id ∈ w.redis.lists .bidItemSequenceIds ↔ ∃ lot ∈ s.waiting, lot.bidItemId = id := by
  rw [h.queue, List.mem_reverse, List.mem_map]
  simp only [lotText, Text.long.injEq]

theorem Refines.pendingUncached {w : World} (h : Refines s w) : PendingUncached w.redis := by
  intro t ht
  rw [h.queue, List.mem_reverse, List.mem_map] at ht
  obtain ⟨lot, hlot, rfl⟩ := ht
  exact (h.pending lot hlot).absent

/-- In a step that does not move the sale no item becomes active. -/
theorem opensAtActivation_of_same (h : Refines s c.world) (h' : Refines s c'.world)
    (hwf : WellFormed s.lots) : OpensAtActivation env c c' := by
  intro id hnew hold
  rw [h'.activeItem_eq hwf] at hnew
  rw [h.activeItem_eq hwf] at hold
  exact absurd hnew hold

/-- What a tick makes active, it opens with the times of that tick. -/
theorem opensAtActivation_of_ticked {outcome : TaskOutcome} (h : Running lots s c)
    (hwf : WellFormed lots) (hspan : ∀ lot ∈ lots, toInt32 lot.bidspan = lot.bidspan)
    (h' : Refines s' c'.world) (hticked : Ticked env s c.world outcome s' c'.world) :
    OpensAtActivation env c c' := by
  obtain rfl := h.lots_eq
  obtain ⟨w', alive'⟩ := c'
  cases hticked with
  | stay => exact opensAtActivation_of_same h.refines h' hwf
  | advance hrefines hterms hclosed hopened =>
    -- the lot that becomes active is the first that waits, and its opening is in the step
    intro id hnew _
    rw [h'.activeItem_eq (s.advance_lots ▸ hwf)] at hnew
    obtain ⟨lot, hlot, rfl⟩ := Option.map_eq_some_iff.mp hnew
    have hlots := Sale.mem_lots_of_waiting (List.mem_of_mem_head? hlot)
    obtain ⟨n, hopen⟩ := hopened lot hlot
    refine ⟨n, lot.bidspan, hopen.after, hopen.before, ?_, hopen.bidStartTime, ?_,
      hopen.statusCode⟩
    · exact (h.refines.data.inSequence lot hlots).bidSpan
    · rw [hopen.bidEndTime, hspan lot hlots]

/-- A tick opens the lot that it makes active, and no other. -/
theorem Running.opensNone_tick (h : Running lots s c) (hwf : WellFormed lots)
    (hspan : ∀ lot ∈ lots, toInt32 lot.bidspan = lot.bidspan) :
    ∃ s', Running lots s' (c.serve env .tick) ∧ OpensNone env c .tick := by
  unfold OpensNone Scheduler.serve
  cases halive : c.alive with
  | false =>
    -- a timer that has stopped changes nothing
    rw [step_dead env halive]
    exact ⟨s, h, h.refines.pendingUncached,
      opensAtActivation_of_same h.refines h.refines (h.lots_eq ▸ hwf)⟩
  | true =>
    obtain ⟨outcome, s', w', hticked, htick, hrunning⟩ := h.tick env hwf halive
    rw [step_alive env halive]
    refine ⟨s', hrunning, hrunning.refines.pendingUncached, ?_⟩
    rw [htick] at hrunning ⊢
    exact opensAtActivation_of_ticked h hwf hspan hrunning.refines hticked

/-- A request that leaves the sale as it is opens no lot. -/
theorem Running.opensNone_request (h : Running lots s c) (hwf : WellFormed lots)
    {e : BidderEvent} {w : World} (hserve : c.serve env e = { c with world := w })
    (hrefines : Refines s w) : Running lots s (c.serve env e) ∧ OpensNone env c e := by
  unfold OpensNone
  rw [hserve]
  exact ⟨⟨h.lots_eq, hrefines, h.alive⟩, hrefines.pendingUncached,
    opensAtActivation_of_same h.refines hrefines (h.lots_eq ▸ hwf)⟩

/-- An event other than a bid on an item that waits opens no lot early. -/
theorem Running.opensNone (h : Running lots s c) (hwf : WellFormed lots)
    (hspan : ∀ lot ∈ lots, toInt32 lot.bidspan = lot.bidspan) (hengine : ItemEngine env)
    {e : BidderEvent} (hnot : NotOnPending c e) :
    ∃ s', Running lots s' (c.serve env e) ∧ OpensNone env c e := by
  cases e with
  | tick => exact h.opensNone_tick hwf hspan
  | bid request =>
    have hrefines := h.refines.bid hengine request fun lot hlot hid =>
      hnot _ hid ((h.refines.mem_queue _).mpr ⟨lot, hlot, rfl⟩)
    exact ⟨s, h.opensNone_request hwf (serve_bid env c request) hrefines⟩
  | page p =>
    -- a page reads the cache and the clock only
    obtain ⟨n, hn⟩ := h.refines.page env p c.world.reads
    have hrefines : Refines s (run (handle env) p.serve c.world).2 := by
      rw [hn]
      exact h.refines.of_reads n
    exact ⟨s, h.opensNone_request hwf (serve_page env c p) hrefines⟩

/-- A bid on an item that waits opens its lot. -/
theorem Running.notOnPending (h : Running lots s c) (hwf : WellFormed lots)
    (hengine : ItemEngine env) {e : BidderEvent} (hfits : e.Fits) (hopens : OpensNone env c e) :
    NotOnPending c e := by
  cases e with
  | tick | page p => trivial
  | bid request =>
    intro id hid hmem
    -- the service and the answer fetch the same item
    have hid' : id = toInt32 request.bidItemId := by
      have hfits' : toInt32 request.bidItemId = request.bidItemId := hfits
      simp only [fetched, List.mem_cons] at hid
      rcases hid with hid | hid
      · exact hid
      · split at hid
        · rw [List.mem_singleton] at hid
          exact hid.trans hfits'.symm
        · cases hid
    obtain ⟨lot, hlot, rfl⟩ := (h.refines.mem_queue _).mp hmem
    have hcached := h.refines.bid_pending hengine request (h.lots_eq ▸ hwf) hlot hid'
    have hqueue := sameAt_doBid hengine request c.world (k := .bidItemSequenceIds) trivial
    have hpending := hopens.1
    simp only [serve_bid] at hpending
    -- the bid has cached the item, which is still in the queue
    refine hpending _ ?_ hcached
    rw [hqueue.lists]
    exact hmem

end Sale

/-- **Only the scheduler opens lots when no bid fetches an item that waits in the queue at
    that moment**, and only then, as long as the ids of the bids fit an `int`. -/
theorem onlySchedulerOpens_iff (env : Env) (w : World) (events : List BidderEvent)
    (h : Saleable w.db (CommonDao.getCurrentBidSequence w.db w.auctionId))
    (hspan : ∀ lot ∈ CommonDao.getCurrentBidSequence w.db w.auctionId,
      toInt32 lot.bidspan = lot.bidspan)
    (hengine : ItemEngine env) :
    (Along (Scheduler.serve env) NotOnPending (Scheduler.start env w) events →
        OnlySchedulerOpens env w events) ∧
      ((∀ e ∈ events, e.Fits) → OnlySchedulerOpens env w events →
        Along (Scheduler.serve env) NotOnPending (Scheduler.start env w) events) := by
  set rows := CommonDao.getCurrentBidSequence w.db w.auctionId
  have hstart := running_start env w h
  have hspans : ∀ lot ∈ reached rows, toInt32 lot.bidspan = lot.bidspan :=
    fun lot hlot => hspan lot (mem_of_mem_reached hlot)
  -- a step that meets the condition keeps the invariant and opens no lot
  have hgood : ∀ c e, (∃ s, Running (reached rows) s c) → NotOnPending c e →
      OpensNone env c e ∧ ∃ s, Running (reached rows) s (c.serve env e) := by
    rintro c e ⟨s, hrunning⟩ hnot
    obtain ⟨s', hrunning', hopens⟩ := hrunning.opensNone h.wellFormed hspans hengine hnot
    exact ⟨hopens, s', hrunning'⟩
  refine ⟨fun hrun => ⟨hstart.refines.pendingUncached, ?_⟩, fun hfits hopens => ?_⟩
  · exact hrun.imp (fun c e _ hI hnot => hgood c e hI hnot) ⟨_, hstart⟩
  · -- the other way, the condition comes first: only with it is the invariant kept
    refine Along.imp (I := fun c => ∃ s, Running (reached rows) s c)
      (fun c e he hI hnone => ?_) hopens.2 ⟨_, hstart⟩
    obtain ⟨s, hrunning⟩ := hI
    have hnot := hrunning.notOnPending h.wellFormed hengine (hfits e he) hnone
    exact ⟨hnot, (hgood c e ⟨s, hrunning⟩ hnot).2⟩

/-- A bid of `100` on an item. -/
def bidOn (bidItemId : ℤ) : BidderEvent := .bid ⟨bidItemId, 1, 100, "bidder1", ""⟩

/-- Bids on the lot on offer. -/
theorem onlySchedulerOpens_twoLots :
    OnlySchedulerOpens (Env.steady 1000) (plainWorld twoLots 20)
      [.page .marketList, .tick, bidOn 11, .page .marketList, .tick] :=
  (onlySchedulerOpens_iff (Env.steady 1000) (plainWorld twoLots 20) _
    (saleable_plainDb (by decide) (by decide) (by decide) (by decide)) (by decide)
    (itemEngine_idle _ _)).1 (by decide +kernel)

/-- The sale of two lots with a clock of a hundred seconds, after a bid on the second lot
    while the first one is on offer. -/
def overtaken : Scheduler :=
  [BidderEvent.tick, bidOn 12].foldl (Scheduler.serve (Env.steady 100000))
    (Scheduler.start (Env.steady 100000) (plainWorld twoLots 20))

/-- The bid has started the time of the second lot: when the tick that begins at the second
    `400` makes it active, its time has run from the second `200` to the second `260`. -/
theorem overtaken_opened :
    (.long 12 ∈ overtaken.world.redis.lists .bidItemSequenceIds ∧
      .long 12 ∈ overtaken.world.redis.sets .bidItems) ∧
    (let c := overtaken.serve (Env.steady 100000) .tick;
      (Env.steady 100000).second overtaken.world.reads = 400 ∧
      activeItem c.world.redis = some 12 ∧
      c.world.redis.hashes (.bidItem 12) .bidStartTime = some (.date 200) ∧
      c.world.redis.hashes (.bidItem 12) .bidEndTime = some (.date 260)) ∧
    ¬ OnlySchedulerOpens (Env.steady 100000) (plainWorld twoLots 20)
      [.tick, bidOn 12] := by
  have hqueue : .long 12 ∈ overtaken.world.redis.lists .bidItemSequenceIds := by decide +kernel
  have hcached : .long 12 ∈ overtaken.world.redis.sets .bidItems := by decide +kernel
  refine ⟨⟨hqueue, hcached⟩, by decide +kernel, fun hopens => ?_⟩
  -- the invariant that the scheduler keeps is broken after the bid
  have hpending : PendingUncached overtaken.world.redis :=
    Along.inv (I := fun c : Scheduler => PendingUncached c.world.redis) (fun _ _ _ h => h.1)
      hopens.2 hopens.1
  exact hpending _ hqueue hcached

end Bidding.Model
