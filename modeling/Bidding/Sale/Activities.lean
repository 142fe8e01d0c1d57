import Bidding.Effects.Unreliable
import Bidding.Properties.ClosedLots

/-!
# The Activities, Taken Apart

What a tick, a request, a page view or a notification is made of. Apart from the one method that
hands the sale over, `setActiveBidItemId`, the activities issue `Routine` commands only: they
read, they add to sets, they write hash fields that are missing, and of an item they overwrite
only its status, its end and its last update. The `Plain` ones among them keep away from the rows
of items and from the lots that are closed. A property of actions that composing keeps is shown
for every activity by showing it for these commands and for the few methods that need more.

## Key Results

- **`Plainly`**, **`Routinely`**, **`Serving`**: the properties in question, by what they are
  known for: the plain commands, the routine commands, or the methods that fetch an item.
- **`Serving.of_serve`**, **`Routinely.of_serve`**: every activity has such a property if handing
  the sale over and closing a lot have it.
- **`routinely_moves`**: what routine commands and rollbacks keep to, whatever fails.
-/

namespace Bidding.Model

open Bidding.Effects Bidding.Effects.Action Bidding.KeyValue
open RedisCacheService BidItemsCacheService BidderController

/-- The engine works on the keys of the item of a bid. -/
def EngineKeeps (env : Env) : Prop :=
  ∀ on bid d r k, ¬ EngineKey bid.bidItemId k → Store.SameAt k (env.engine on bid d r) r

/-- The commands of the activities that neither hand the sale over, nor close a lot, nor touch
    the row of an item. -/
def Plain : Cmd → Prop
  | .connect | .close _ | .now | .engineBid _ => True
  | .redis (.get _) | .redis (.sismember _ _) | .redis (.smembers _) | .redis (.hget _ _)
  | .redis (.hgetAll _) | .redis (.hsetnx _ _ _) => True
  | .redis (.sadd k _) => k ≠ .expiredBidItems
  | .redis (.hset (.bidItem _) attr _) => attr = .bidEndTime ∨ attr = .lastUpDateTime
  | .redis _ => False
  | .dao (.setAuctionEndTime _ _) => True
  | .dao _ => False
  | .field .getStartFlag | .field (.setStartFlag false) | .field .getAuctionId => True
  | .field _ => False
  | .startTimer _ | .stopAuction | .restart => False

/-- The commands of the activities, apart from those that hand the sale over. -/
def Routine : Cmd → Prop
  | .redis (.sadd _ _) => True
  | .redis (.hset (.bidItem _) attr _) =>
    attr = .statusCode ∨ attr = .bidEndTime ∨ attr = .lastUpDateTime
  | .dao (.getBidItem _) | .dao (.updateBidItem _) | .dao (.flush _) => True
  | c => Plain c

/-- Every plain command is a routine one. -/
theorem Plain.routine {c : Cmd} (hc : Plain c) : Routine c := by
  cases c with
  | redis c =>
    cases c with
    | sadd k v => trivial
    | hset k attr v =>
      cases k with
      | bidItem id => exact .inr hc
      | _ => exact absurd hc id
    | _ => exact hc
  | dao c =>
    cases c with
    | setAuctionEndTime id d => trivial
    | _ => exact absurd hc id
  | _ => exact hc

/-- A property of actions that composing keeps. -/
structure Composed (Q : (α : Type) → Act α → Prop) : Prop where
  of_pure : ∀ {α : Type} (a : α), Q α (pure a)
  of_ofExcept : ∀ {α : Type} (r : Except Exn α), Q α (ofExcept r)
  of_bind : ∀ {α β : Type} {p : Act α} {f : α → Act β}, Q α p → (∀ a, Q β (f a)) → Q β (p >>= f)
  of_attempt : ∀ {α : Type} {p : Act α}, Q α p → Q (Except Exn α) (attempt p)

/-- Such a property that the plain commands have and that a transaction keeps. -/
structure Plainly (Q : (α : Type) → Act α → Prop) : Prop extends Composed Q where
  of_plain : ∀ {α : Type} (c : Cmd) (answer : Answer c → Except Exn α), Plain c →
    Q α (perform c answer)
  of_transactional : ∀ {α : Type} {body : Act α}, Q α body → Q α (transactional body)

/-- Such a property that the routine commands have. -/
structure Routinely (Q : (α : Type) → Act α → Prop) : Prop extends Composed Q where
  of_routine : ∀ {α : Type} (c : Cmd) (answer : Answer c → Except Exn α), Routine c →
    Q α (perform c answer)
  of_transactional : ∀ {α : Type} {body : Act α}, Q α body → Q α (transactional body)

/-- Such a property that the methods which fetch an item have. -/
structure Serving (Q : (α : Type) → Act α → Prop) : Prop extends Plainly Q where
  of_getBidItem : ∀ id, Q _ (BidItemsCacheService.getBidItem id)
  of_getBidItemManaged : ∀ id, Q _ (getBidItemManaged id)

theorem Routinely.plainly {Q : (α : Type) → Act α → Prop} (hQ : Routinely Q) : Plainly Q where
  toComposed := hQ.toComposed
  of_plain c answer hc := hQ.of_routine c answer hc.routine
  of_transactional := hQ.of_transactional

/-! ## Properties of this kind -/

section Kinds

variable {Q : (α : Type) → Act α → Prop}

theorem Composed.of_throw (hQ : Composed Q) {α : Type} (e : Exn) : Q α (Action.throw e) :=
  hQ.of_ofExcept (.error e)

/-- A transaction is composed of its body and two calls to the data-access object. -/
theorem Composed.of_transactional (hQ : Composed Q) (hbegin : Q _ (dao .begin))
    (hrollback : ∀ saved, Q _ (dao (.rollback saved))) {α : Type} {body : Act α}
    (hbody : Q α body) : Q α (transactional body) := by
  apply hQ.of_bind hbegin
  intro saved
  apply hQ.of_bind (hQ.of_attempt hbody)
  rintro (e | a)
  · exact hQ.of_bind (hrollback saved) fun _ => hQ.of_throw _
  · exact hQ.of_pure _

theorem composed_moves {S : Type} {T : S → S → Prop} [IsPreorder S T]
    (h : Handler Cmd Answer S) : Composed (fun _ p => Moves h T p) where
  of_pure := moves_pure
  of_ofExcept := moves_ofExcept
  of_bind := Moves.bind
  of_attempt := Moves.attempt

variable {env : Env} {T : World → World → Prop} [IsPreorder World T]

/-- The commands on the cache that fail according to a plan. -/
def failing (env : Env) : Handler Cmd Answer (World × List Bool) :=
  unreliable redisFault (handle env)

omit [IsPreorder World T] in
/-- A rollback undoes what a failed body did to the tables. -/
theorem run_transactional_failing {α : Type} (body : Act α) (st : World × List Bool) :
    run (failing env) (transactional body) st =
      match run (failing env) body st with
      | (.ok a, t) => (.ok a, t)
      | (.error e, t) => (.error e, ({ t.1 with db := st.1.db }, t.2)) := by
  have hbegin : run (failing env) (dao .begin : Act Db) st = (.ok st.1.db, st) := rfl
  unfold transactional
  refine (run_bind_ok hbegin).trans ?_
  rcases hbody : run (failing env) body st with ⟨e | a, t⟩
  · exact run_bind_ok (run_attempt_of hbody)
  · exact run_bind_ok (run_attempt_of hbody)

omit [IsPreorder World T] in
/-- A transaction that is rolled back has only moved the cache, with failing commands. -/
theorem moves_transactional {α : Type} {body : Act α}
    (hrollback : ∀ w t, T w t → T w { t with db := w.db })
    (hbody : Moves (failing env) (fun x y => T x.1 y.1) body) :
    Moves (failing env) (fun x y => T x.1 y.1) (transactional body) := by
  intro st
  have hmoved := hbody st
  rw [run_transactional_failing]
  rcases hrun : run (failing env) body st with ⟨e | a, t⟩
  · -- the body threw, so the tables are put back
    rw [hrun] at hmoved
    exact hrollback st.1 t.1 hmoved
  · rw [hrun] at hmoved
    exact hmoved

/-- What every routine command and a rollback keep to, whatever fails. -/
theorem routinely_moves (hroutine : ∀ c, Routine c → ∀ w, T w (handle env c w).2)
    (hrollback : ∀ w t, T w t → T w { t with db := w.db }) :
    Routinely (fun _ p => Moves (failing env) (fun x y => T x.1 y.1) p) where
  toComposed := composed_moves _
  of_routine _ _ hc := Issues.moves_unreliable (P := Routine) hroutine (issues_perform hc)
  of_transactional := moves_transactional hrollback

omit [IsPreorder World T] in
/-- A transaction that is rolled back has only moved the cache. -/
theorem moves_transactional_handle {α : Type} {body : Act α}
    (hrollback : ∀ w t, T w t → T w { t with db := w.db }) (hbody : Moves (handle env) T body) :
    Moves (handle env) T (transactional body) := by
  intro w
  have hmoved := hbody w
  rw [run_transactional]
  rcases hrun : run (handle env) body w with ⟨e | a, t⟩
  · -- the body threw, so the tables are put back
    rw [hrun] at hmoved
    exact hrollback w t hmoved
  · rw [hrun] at hmoved
    exact hmoved

/-- What every plain command and a rollback keep to when nothing fails. -/
theorem plainly_moves (hplain : ∀ c, Plain c → ∀ w, T w (handle env c w).2)
    (hrollback : ∀ w t, T w t → T w { t with db := w.db }) :
    Plainly (fun _ p => Moves (handle env) T p) where
  toComposed := composed_moves _
  of_plain _ _ hc := Issues.moves hplain (issues_perform hc)
  of_transactional := moves_transactional_handle hrollback

end Kinds

namespace Plainly

variable {Q : (α : Type) → Act α → Prop} (hQ : Plainly Q)

include hQ

/-! ## Frames -/

theorem of_connect : Q _ connect := hQ.of_plain _ _ trivial

theorem of_now : Q _ now := hQ.of_plain _ _ trivial

theorem of_close {α : Type} (jedis : Option Connection) (a : α) :
    Q α (do close jedis; pure a) :=
  hQ.of_bind (hQ.of_plain _ _ trivial) fun _ => hQ.of_pure _

theorem of_redis (c : RedisCmd) (hc : Plain (.redis c)) : Q _ (redis c) := hQ.of_plain _ _ hc

/-- The frame of the methods on the cache, closing its connection or not. -/
theorem of_frame {α : Type} {onFailure : α} {body : Act α} (hbody : Q α body)
    {leave : Connection → α → Act α} (hleave : ∀ jedis a, Q α (leave jedis a)) :
    Q α (do
      match ← attempt connect with
      | .error _ => do
        close none
        pure onFailure
      | .ok jedis =>
        match ← attempt body with
        | .error _ => do
          close (some jedis)
          pure onFailure
        | .ok a => leave jedis a) := by
  apply hQ.of_bind (hQ.of_attempt hQ.of_connect)
  rintro (e | jedis)
  · -- no connection: there is none to close
    exact hQ.of_close none _
  apply hQ.of_bind (hQ.of_attempt hbody)
  rintro (e | a)
  · exact hQ.of_close (some jedis) _
  · exact hleave jedis a

theorem of_guarded {α : Type} {onFailure : α} {body : Act α} (hbody : Q α body) :
    Q α (guarded onFailure body) :=
  hQ.of_frame hbody fun _ _ => hQ.of_close _ _

theorem of_unclosed {α : Type} {onFailure : α} {body : Act α} (hbody : Q α body) :
    Q α (unclosed onFailure body) :=
  hQ.of_frame hbody fun _ _ => hQ.of_pure _

/-- The methods of the cache service are checked by their commands. -/
theorem compositional : Compositional Q where
  of_pure := hQ.of_pure
  of_ofExcept := hQ.of_ofExcept
  of_bind := hQ.of_bind
  of_attempt := hQ.of_attempt
  of_guarded := hQ.of_guarded
  of_now := hQ.of_now

/-! ## The cache service -/

/-- Reading an item sends reads only. -/
theorem of_getBidItem_cache (id : ℤ) : Q _ (RedisCacheService.getBidItem id) := by
  have hC := hQ.compositional
  have hget : ∀ k attr, Q _ (hget k attr) := fun _ _ => hQ.of_plain _ _ trivial
  have hbidders : ∀ id item, Q _ (getBidders id item) := fun id item =>
    hC.of_getBidders (hQ.of_plain _ _ trivial) (fun _ _ => hget _ _) item
  apply hQ.of_guarded
  apply hQ.of_bind (hQ.of_unclosed (hQ.of_redis (.sismember _ _) trivial))
  -- an item that is not in the set is not read
  rintro (_ | _)
  · exact hQ.of_pure _
  · exact hQ.of_bind (hC.of_fillBidItem (hget _) hbidders (hC.of_read fun _ => hget _) _)
      fun _ => hQ.of_pure _

/-- Storing an item writes its own keys and those of its bidders and category. -/
theorem of_setBidItem_cache (id : ℤ) (item : BidItem) :
    Q _ (RedisCacheService.setBidItem id item) := by
  have hC := hQ.compositional
  apply hC.of_setBidItem
  · exact hQ.of_plain _ _ Key.noConfusion
  · exact fun cell _ => hC.of_writeCell (fun _ _ => hQ.of_plain _ _ trivial) cell
  · exact fun bidder => hC.of_setBidder (fun _ => hQ.of_plain _ _ Key.noConfusion)
      (fun _ _ _ => hQ.of_plain _ _ trivial) bidder
  · exact fun category => hC.of_setCategory (fun _ => hQ.of_plain _ _ Key.noConfusion) category

theorem of_getActiveBidItemId : Q _ getActiveBidItemId :=
  hQ.compositional.of_getActiveBidItemId (hQ.of_plain _ _ trivial)

theorem of_getBidItemSequenceDetails (id : ℤ) : Q _ (getBidItemSequenceDetails id) :=
  hQ.compositional.of_getBidItemSequenceDetails (hQ.of_plain _ _ trivial)

theorem of_getAuctionId : Q _ RedisCacheService.getAuctionId :=
  hQ.of_guarded (hQ.of_plain _ _ trivial)

/-- The test for the end closes the connection on some of its paths only. -/
theorem of_isEndSequence : Q _ isEndSequence := by
  apply hQ.of_bind (hQ.of_attempt hQ.of_connect)
  rintro (e | jedis)
  · exact hQ.of_close _ _
  apply hQ.of_bind (hQ.of_attempt (hQ.of_redis (.get _) trivial))
  rintro (e | _ | id)
  · exact hQ.of_close _ _
  · -- no active id: the method returns before it closes the connection
    exact hQ.of_pure _
  · dsimp only
    split
    · exact hQ.of_pure _
    · exact hQ.of_close _ _

/-! ## Items -/

theorem of_getTimeLeft (item : BidItem) : Q _ (getTimeLeft item) := by
  unfold getTimeLeft
  split
  · exact hQ.of_pure _
  · split
    · exact hQ.of_throw _
    · exact hQ.of_bind hQ.of_now fun _ => hQ.of_ofExcept _

theorem of_initializeBidItem (item : BidItem) : Q _ (initializeBidItem item) := by
  apply hQ.of_bind hQ.of_now
  intro cal
  apply hQ.of_bind (hQ.of_ofExcept _)
  intro id
  apply hQ.of_bind (hQ.of_getBidItemSequenceDetails id)
  rintro (_ | details)
  · exact hQ.of_throw _
  · exact hQ.of_bind (hQ.of_ofExcept _) fun _ => hQ.of_bind (hQ.of_ofExcept _) fun _ =>
      hQ.of_pure _

theorem of_setBidItem (item : BidItem) : Q _ (BidItemsCacheService.setBidItem item) :=
  hQ.of_bind (hQ.of_ofExcept _) fun id => hQ.of_bind (hQ.of_setBidItem_cache id item) fun _ =>
    hQ.of_bind (hQ.of_getBidItem_cache id) fun _ => hQ.of_pure _

end Plainly

namespace Routinely

variable {Q : (α : Type) → Act α → Prop} (hQ : Routinely Q)

include hQ

/-! ## Rows -/

theorem of_loadBidItem (id : ℤ) : Q _ (loadBidItem id) :=
  hQ.of_bind (hQ.of_routine _ _ trivial) fun _ =>
    hQ.of_bind (hQ.plainly.of_initializeBidItem _) fun _ =>
      hQ.of_bind (hQ.plainly.of_setBidItem _) fun _ => hQ.of_pure _

/-- Fetching an item loads it if the cache has none. -/
theorem of_getBidItem (id : ℤ) : Q _ (BidItemsCacheService.getBidItem id) := by
  apply hQ.of_bind (hQ.plainly.of_getBidItem_cache id)
  rintro (_ | item)
  · dsimp only
    split
    · exact hQ.of_pure _
    · exact hQ.of_bind (hQ.of_loadBidItem id) fun _ => hQ.of_pure _
  · exact hQ.of_pure _

/-- Fetching an item in a transaction writes a loaded one back. -/
theorem of_getBidItemManaged (id : ℤ) : Q _ (getBidItemManaged id) := by
  apply hQ.of_bind (hQ.plainly.of_getBidItem_cache id)
  rintro (_ | item)
  · dsimp only
    split
    · exact hQ.of_pure _
    · exact hQ.of_bind (hQ.of_loadBidItem id) fun _ =>
        hQ.of_bind (hQ.of_routine _ _ trivial) fun _ => hQ.of_pure _
  · exact hQ.of_pure _

theorem of_cleanBidItem (id : ℤ) : Q _ (cleanBidItem id) := by
  have hexpired : Q _ (setExpiredBidItem id) :=
    hQ.plainly.compositional.of_setExpiredBidItem (hQ.of_routine _ _ trivial)
      (hQ.of_routine _ _ (.inl rfl)) fun _ => hQ.of_routine _ _ (.inr (.inl rfl))
  exact hQ.of_bind hexpired fun _ => hQ.of_bind (hQ.plainly.of_getBidItem_cache id) fun _ =>
    hQ.of_routine _ _ trivial

theorem serving : Serving Q where
  toPlainly := hQ.plainly
  of_getBidItem := hQ.of_getBidItem
  of_getBidItemManaged := hQ.of_getBidItemManaged

end Routinely

namespace Serving

variable {Q : (α : Type) → Act α → Prop} (hQ : Serving Q)

include hQ

theorem of_proxyGetBidItem (id : ℤ) : Q _ (proxyGetBidItem id) :=
  hQ.of_transactional (hQ.of_getBidItemManaged id)

/-! ## Ticks -/

theorem of_endOfSequence (hclean : ∀ id, Q _ (cleanBidItem id)) : Q _ endOfSequence :=
  hQ.of_bind (hQ.of_plain _ _ trivial) fun _ => hQ.of_bind (hQ.of_plain _ _ trivial) fun _ =>
    hQ.of_bind (hQ.of_plain _ _ trivial) fun _ => hQ.of_bind hQ.of_getActiveBidItemId fun _ =>
      hQ.of_bind (hclean _) fun _ => hQ.of_pure _

/-- The first tick, from the pop. -/
theorem of_startOfSequence (hpop : Q _ setActiveBidItemId) : Q _ startOfSequence := by
  apply hQ.of_bind (hQ.of_plain (.field (.setStartFlag false)) _ trivial)
  intro _
  apply hQ.of_bind hpop
  intro _
  apply hQ.of_bind hQ.of_getActiveBidItemId
  intro id
  apply hQ.of_bind (hQ.of_getBidItem id)
  rintro (_ | item)
  · -- the queue was empty, and the span of no item is asked for
    exact hQ.of_throw _
  · exact hQ.of_pure _

/-- A hand-over, from the pop and the closing of an item. -/
theorem of_handOver (hpop : Q _ setActiveBidItemId) (hclean : ∀ id, Q _ (cleanBidItem id))
    (id : ℤ) : Q _ (handOver id) := by
  apply hQ.of_bind hpop
  intro _
  apply hQ.of_bind (hclean id)
  intro _
  apply hQ.of_bind hQ.of_getActiveBidItemId
  intro next
  apply hQ.of_bind (hQ.of_getBidItem next)
  rintro (_ | item)
  · exact hQ.of_pure _
  · exact hQ.of_pure _

/-- A tick during the sale. -/
theorem of_nextOfSequence (hpop : Q _ setActiveBidItemId) (hclean : ∀ id, Q _ (cleanBidItem id)) :
    Q _ nextOfSequence := by
  apply hQ.of_bind hQ.of_getActiveBidItemId
  intro id
  apply hQ.of_bind (hQ.of_getBidItem_cache id)
  rintro (_ | item)
  · exact hQ.of_pure _
  apply hQ.of_bind (hQ.of_getTimeLeft item)
  intro timeLeft
  -- an item with time left is only looked at again
  split
  · exact hQ.of_bind (hQ.of_getTimeLeft item) fun _ => hQ.of_getTimeLeft item
  · exact hQ.of_handOver hpop hclean id

/-- A tick, from its pop and from the closing of an item. -/
theorem of_timerTask (hpop : Q _ setActiveBidItemId) (hclean : ∀ id, Q _ (cleanBidItem id)) :
    Q _ timerTask := by
  -- what the tick does before it decides whether to go on
  have hnext : Q _ setNextBidItem := by
    apply hQ.of_bind hQ.of_isEndSequence
    intro endSequence
    split
    · exact hQ.of_endOfSequence hclean
    · apply hQ.of_bind (hQ.of_plain (.field .getStartFlag) _ trivial)
      rintro (_ | _)
      · exact hQ.of_nextOfSequence hpop hclean
      · exact hQ.of_startOfSequence hpop
  apply hQ.of_bind (hQ.of_attempt hnext)
  rintro (e | span)
  · exact hQ.of_pure _
  · exact hQ.of_pure _

/-! ## Requests -/

/-- An extension writes the end time and the last update. -/
theorem of_doExtendBidding (id extendTime : ℤ) :
    Q _ (ObserverController.doExtendBidding id extendTime) := by
  have hC := hQ.compositional
  apply hQ.of_bind (hQ.of_getBidItem_cache id)
  intro item
  apply hQ.of_bind hQ.of_now
  intro cal
  -- an extension of an item that the cache has not
  cases item with
  | none => exact hQ.of_throw _
  | some item =>
    apply hQ.of_bind (hQ.of_getTimeLeft item)
    intro timeLeft
    dsimp only
    split
    · exact hQ.of_throw _
    · have hend : ∀ d, Q _ (setBidEndTime id d) := fun _ =>
        hC.of_setDate (hQ.of_plain _ _ trivial) (hQ.of_plain _ _ (.inl rfl))
      have hupdate : ∀ d, Q _ (setBidItemLastUpdateTime id d) := fun _ =>
        hC.of_setDate (hQ.of_plain _ _ trivial) (hQ.of_plain _ _ (.inr rfl))
      exact hQ.of_bind (hend _) fun _ => hQ.of_bind (hupdate _) fun _ => hQ.of_pure _

theorem of_update (id : ℤ) (bidAmount : ℚ) : Q _ (BidObserver.update id bidAmount) := by
  apply hQ.of_bind (hQ.of_attempt (hQ.of_bind (hQ.of_getBidItem id) ?_)) fun _ => hQ.of_pure _
  rintro (_ | item)
  · exact hQ.of_throw _
  · exact hQ.of_setBidItem _

/-- A bid fetches its item, sends it to the engine and may fetch it again. -/
theorem of_doBid (request : BidRequest) : Q _ (doBid request) := by
  have hservice : Q _ (serviceDoBid (toInt32 request.bidItemId) request) := by
    apply hQ.of_transactional
    apply hQ.of_bind (hQ.of_getBidItemManaged _)
    rintro (_ | item)
    · exact hQ.of_throw _
    · exact hQ.of_plain _ _ trivial
  -- the reply of the controller fetches the item outside the transaction
  apply hQ.of_bind hservice
  intro _
  split
  · apply hQ.of_bind (hQ.of_proxyGetBidItem _)
    rintro (_ | item)
    · exact hQ.of_throw _
    · exact hQ.of_pure _
  · exact hQ.of_pure _

/-! ## Pages -/

theorem of_getCategoryList : Q _ BidderController.getCategoryList := by
  apply hQ.of_bind hQ.of_getAuctionId
  rintro (_ | id)
  · exact hQ.of_pure _
  · exact hQ.of_bind (hQ.of_ofExcept _) fun _ => hQ.of_pure _

/-- The place of the item on sale. -/
theorem of_activeItemDetails : Q _ activeItemDetails := by
  apply hQ.of_bind hQ.of_getActiveBidItemId
  intro id
  apply hQ.of_bind (hQ.of_getBidItemSequenceDetails id)
  rintro (_ | details)
  · exact hQ.of_throw _
  · exact hQ.of_bind (hQ.of_ofExcept _) fun _ => hQ.of_bind (hQ.of_ofExcept _) fun _ =>
      hQ.of_pure _

theorem of_activeBidItem : Q _ activeBidItem :=
  hQ.of_bind hQ.of_getActiveBidItemId fun id => hQ.of_proxyGetBidItem id

/-- The pages for a bidder. -/
theorem of_page (p : Page) : Q _ p.serve := by
  cases p with
  | marketList =>
    apply hQ.of_bind hQ.of_getCategoryList
    intro _
    apply hQ.of_bind hQ.of_isEndSequence
    rintro (_ | _ | _)
    · -- before the first tick the categories are listed again
      exact hQ.of_getCategoryList
    · exact hQ.of_pure _
    apply hQ.of_bind hQ.of_activeItemDetails
    intro _
    apply hQ.of_bind hQ.of_activeBidItem
    rintro (_ | item)
    · exact hQ.of_throw _
    · exact hQ.of_bind (hQ.of_getTimeLeft item) fun _ =>
        hQ.of_bind (hQ.of_getTimeLeft item) fun _ => hQ.of_pure _
  | activeMarket =>
    apply hQ.of_bind hQ.of_getCategoryList
    intro _
    apply hQ.of_bind hQ.of_isEndSequence
    rintro (_ | _ | _)
    · exact hQ.of_pure _
    · exact hQ.of_pure _
    · exact hQ.of_bind hQ.of_activeBidItem fun _ => hQ.of_pure _
  | closedMarket =>
    apply hQ.of_bind hQ.of_getCategoryList
    intro _
    apply hQ.of_bind hQ.of_isEndSequence
    rintro (_ | _ | _)
    · exact hQ.of_pure _
    · exact hQ.of_getCategoryList
    · exact hQ.of_activeItemDetails

/-- The pages for an observer. -/
theorem of_observerPage (p : Page) : Q _ p.serveObserver := by
  cases p with
  | marketList =>
    apply hQ.of_bind hQ.of_getCategoryList
    intro _
    apply hQ.of_bind hQ.of_isEndSequence
    rintro (_ | _ | _)
    · -- before the first tick the start time of the auction is shown
      apply hQ.of_bind hQ.of_getAuctionId
      rintro (_ | id)
      · exact hQ.of_pure _
      · exact hQ.of_bind hQ.of_getAuctionId fun _ => hQ.of_bind (hQ.of_ofExcept _) fun _ =>
          hQ.of_pure _
    · exact hQ.of_pure _
    apply hQ.of_bind hQ.of_activeItemDetails
    intro _
    apply hQ.of_bind hQ.of_activeBidItem
    rintro (_ | item)
    · exact hQ.of_throw _
    · exact hQ.of_bind (hQ.of_getTimeLeft item) fun _ => hQ.of_pure _
  | activeMarket =>
    exact hQ.of_bind hQ.of_getCategoryList fun _ =>
      hQ.of_bind hQ.of_activeBidItem fun _ => hQ.of_pure _
  | closedMarket =>
    apply hQ.of_bind hQ.of_isEndSequence
    rintro (_ | _ | _)
    · exact hQ.of_getCategoryList
    · apply hQ.of_bind hQ.of_getAuctionId
      rintro (_ | id)
      · exact hQ.of_pure _
      · exact hQ.of_bind (hQ.of_ofExcept _) fun _ => hQ.of_getCategoryList
    · exact hQ.of_bind hQ.of_activeItemDetails fun _ => hQ.of_getCategoryList

/-- Every activity has the property if handing the sale over and closing a lot have it. -/
theorem of_serve (hpop : Q _ setActiveBidItemId) (hclean : ∀ id, Q _ (cleanBidItem id))
    (a : Activity) : Q _ a.serve := by
  cases a with
  | tick => exact hQ.of_bind (hQ.of_timerTask hpop hclean) fun _ => hQ.of_pure _
  | extend id extendTime => exact hQ.of_doExtendBidding id extendTime
  | notify id bidAmount => exact hQ.of_update id bidAmount
  | page p => exact hQ.of_page p
  | observerPage p => exact hQ.of_observerPage p
  | bid request => exact hQ.of_doBid request

end Serving

/-- Every activity has the property if handing the sale over has it. -/
theorem Routinely.of_serve {Q : (α : Type) → Act α → Prop} (hQ : Routinely Q)
    (hpop : Q _ setActiveBidItemId) (a : Activity) : Q _ a.serve :=
  hQ.serving.of_serve hpop hQ.of_cleanBidItem a

end Bidding.Model
