import Bidding.Semantics.Connections

/-!
# Conservation of Connections

Any sequence of calls to the cache service, against a server that answers or fails as it
likes: how many connections are out afterwards, and whether one was returned twice.

## Architecture

- **`Call`**: the methods of the service with their arguments, `null` among them.
- **`session`**: calls one after the other; an exception ends its own call only.
- **`Call.Closes`**: in the state before it, a call will close all its connections.

## Key Results

- **`balanced_act`**: one call leaves as many connections out as before if and only if it
  closes all of its own.
- **`conserved_iff`**: a session conserves connections if and only if every call of it
  closes all of its own. `bidItemExists` and the three methods that call it do not as soon as
  they are answered, and `isEndSequence` does not while no item is on sale.
-/

namespace Bidding.Model

open Bidding.Effects Bidding.Effects.Action Bidding.Collections
open RedisCacheService (afterFetch idOf)

variable {S : Type} {h : Handler Cmd Answer S} {x : S × Pool}

/-! ## Calls -/

/-- The methods of `RedisCacheService`; an object that is passed may be `null`. -/
inductive Call where
  | flushDB
  | setBidItemList (bidItems : Option (List (ℤ × BidItem)))
  | setBidItem (bidItemId : ℤ) (bidItem : Option BidItem)
  | getBidItem (bidItemId : ℤ)
  | setBidEndTime (bidItemId : ℤ) (bidEndTime : Option Date)
  | getBidEndTime (bidItemId : ℤ)
  | setBidItemLastUpdateTime (bidItemId : ℤ) (lastUpdateTime : Option Date)
  | getBidItemLastUpdateTime (bidItemId : ℤ)
  | getBidders (bidItemId : ℤ) (bidItem : Option BidItem)
  | setBidders (bidItemId : ℤ) (bidItem : Option BidItem)
  | setBidder (bidItemId : ℤ) (bidder : Bidder)
  | getBidder (bidItemId : ℤ) (bidderName : Text)
  | getBidItemsOf (categoryId : Text)
  | getBidItems
  | bidItemExists (bidItemId : ℤ)
  | setCategory (bidItemId : ℤ) (category : Option Category)
  | getCategory (categoryId : Text)
  | setCategories (categories : Option (List Category))
  | getCategories
  | setBidderCategories (categories : Option (List Category))
  | setBidIdKey (maxBidId : ℤ)
  | setAutoBidIdKey (maxAutoBidId : ℤ)
  | getBidItemSpan (bidItemId : ℤ)
  | setBidSequenceList (bidSequenceList : Option (List BidSequence))
  | getBidItemSequenceDetails (bidItemId : ℤ)
  | setActiveBidItemId
  | getActiveBidItemId
  | isEndSequence
  | setAuctionId (auctionId : Option ℤ)
  | getAuctionId
  | setExpiredBidItem (bidItemId : ℤ)

/-- A method that dereferences its argument `null` after it has connected. -/
def throwConnected : Act Unit := guarded () (Action.throw .nullPointer)

/-- `setBidEndTime` and `setBidItemLastUpdateTime` with the date `null`, which is formatted
    only for an item that the cache has. -/
def setNoDate (bidItemId : ℤ) : Act Bool := guarded true (do
  if ← RedisCacheService.sismember .bidItems (.long bidItemId) then
    Action.throw .nullPointer
  else
    pure false)

/-- A method that is called for its effect. -/
def discarding {α : Type} (p : Act α) : Act Unit := do
  let _ ← p

/-- What a call does. -/
def Call.act : Call → Act Unit
  | .flushDB => RedisCacheService.flushDB
  -- `null` is dereferenced here before a connection is made
  | .setBidItemList none => Action.throw .nullPointer
  | .setBidItemList (some bidItems) => RedisCacheService.setBidItemList bidItems
  | .setBidItem _ none => throwConnected
  | .setBidItem id (some bidItem) => RedisCacheService.setBidItem id bidItem
  | .getBidItem id => discarding (RedisCacheService.getBidItem id)
  | .setBidEndTime id none => discarding (setNoDate id)
  | .setBidEndTime id (some d) => discarding (RedisCacheService.setBidEndTime id d)
  | .getBidEndTime id => discarding (RedisCacheService.getBidEndTime id)
  | .setBidItemLastUpdateTime id none => discarding (setNoDate id)
  | .setBidItemLastUpdateTime id (some d) =>
    discarding (RedisCacheService.setBidItemLastUpdateTime id d)
  | .getBidItemLastUpdateTime id => discarding (RedisCacheService.getBidItemLastUpdateTime id)
  | .getBidders _ none => throwConnected
  | .getBidders id (some bidItem) => discarding (RedisCacheService.getBidders id bidItem)
  -- and here
  | .setBidders _ none => Action.throw .nullPointer
  | .setBidders id (some bidItem) => RedisCacheService.setBidders id bidItem
  | .setBidder id bidder => RedisCacheService.setBidder id bidder
  | .getBidder id name => discarding (RedisCacheService.getBidder id name)
  | .getBidItemsOf categoryId => discarding (RedisCacheService.getBidItemsOf categoryId)
  | .getBidItems => discarding RedisCacheService.getBidItems
  | .bidItemExists id => discarding (RedisCacheService.bidItemExists id)
  | .setCategory id category => RedisCacheService.setCategory id category
  | .getCategory categoryId => discarding (RedisCacheService.getCategory categoryId)
  | .setCategories none => throwConnected
  | .setCategories (some categories) => RedisCacheService.setCategories categories
  | .getCategories => discarding RedisCacheService.getCategories
  | .setBidderCategories none => throwConnected
  | .setBidderCategories (some categories) => RedisCacheService.setBidderCategories categories
  | .setBidIdKey maxBidId => RedisCacheService.setBidIdKey maxBidId
  | .setAutoBidIdKey maxAutoBidId => RedisCacheService.setAutoBidIdKey maxAutoBidId
  | .getBidItemSpan id => discarding (RedisCacheService.getBidItemSpan id)
  | .setBidSequenceList none => throwConnected
  | .setBidSequenceList (some l) => RedisCacheService.setBidSequenceList l
  | .getBidItemSequenceDetails id =>
    discarding (RedisCacheService.getBidItemSequenceDetails id)
  | .setActiveBidItemId => RedisCacheService.setActiveBidItemId
  | .getActiveBidItemId => discarding RedisCacheService.getActiveBidItemId
  | .isEndSequence => discarding RedisCacheService.isEndSequence
  -- the client refuses `null`
  | .setAuctionId none => throwConnected
  | .setAuctionId (some auctionId) => RedisCacheService.setAuctionId auctionId
  | .getAuctionId => discarding RedisCacheService.getAuctionId
  | .setExpiredBidItem id => RedisCacheService.setExpiredBidItem id

/-- Calls one after the other; the caller of one that throws goes on with the next. -/
def session (calls : List Call) : Act Unit := forEach calls (fun c => discarding (attempt c.act))

/-! ## Calls that close their connections -/

/-- `bidItemExists` closes its connection: it does not get one, or no answer on it. -/
def ExistsCloses (h : Handler Cmd Answer S) (x : S × Pool) (bidItemId : ℤ) : Prop :=
  ∀ jedis y, run (pooled h) connect x = (.ok jedis, y) → ∀ found z,
    run (pooled h) (RedisCacheService.sismember .bidItems (.long bidItemId)) y ≠ (.ok found, z)

/-- `getBidItem` closes its connections: it does not get one, or `bidItemExists` closes. -/
def FetchCloses (h : Handler Cmd Answer S) (x : S × Pool) (bidItemId : ℤ) : Prop :=
  ∀ jedis y, run (pooled h) connect x = (.ok jedis, y) → ExistsCloses h y bidItemId

/-- `getBidItems` closes its connections: it does not get one, or no list of ids, or every
    item that it fetches closes. -/
def FetchesClose (h : Handler Cmd Answer S) (x : S × Pool) (ids : Key) : Prop :=
  ∀ jedis y, run (pooled h) connect x = (.ok jedis, y) →
    ∀ bidItemIds z, run (pooled h) (RedisCacheService.smembers ids) y = (.ok bidItemIds, z) →
      Along (afterFetch h) (fun x id => FetchCloses h x (idOf id)) z bidItemIds

/-- `isEndSequence` closes its connection: it does not get one, or no answer, or an item is
    on sale. -/
def EndCloses (h : Handler Cmd Answer S) (x : S × Pool) : Prop :=
  ∀ jedis y, run (pooled h) connect x = (.ok jedis, y) → ∀ id z,
    run (pooled h) (RedisCacheService.get .activeBidItemId) y = (.ok id, z) →
      id ≠ none ∧ id ≠ some (.long 0)

/-- In the state `x`, the call closes all the connections that it makes. -/
def Call.Closes (h : Handler Cmd Answer S) (x : S × Pool) : Call → Prop
  | .bidItemExists id => ExistsCloses h x id
  | .getBidItem id => FetchCloses h x id
  | .getBidItemsOf categoryId => FetchesClose h x (.category categoryId)
  | .getBidItems => FetchesClose h x .bidItems
  | .isEndSequence => EndCloses h x
  | _ => True

/-! ## One call -/

section Discarding

variable {α : Type} {p : Act α}

theorem restoring_discarding (hp : Restoring h p) : Restoring h (discarding p) :=
  hp.bind fun _ => moves_pure _

theorem lending_discarding (hp : Lending h p) : Lending h (discarding p) :=
  hp.bind fun _ => moves_pure _

theorem balanced_discarding (hp : Lending h p) :
    Balanced h (discarding p) x ↔ Balanced h p x := by
  unfold discarding
  rw [balanced_bind hp fun _ => moves_pure _]
  exact and_iff_left fun _ _ _ => rfl

end Discarding

theorem restoring_throwConnected : Restoring h throwConnected :=
  restoring_guarded (moves_throw _)

/-- A date that is missing is noticed inside the `try` block, and the connection is closed. -/
theorem restoring_setNoDate (bidItemId : ℤ) : Restoring h (setNoDate bidItemId) := by
  apply restoring_guarded
  apply Moves.bind (restoring_redis _)
  rintro (_ | _)
  · exact moves_pure _
  · exact moves_throw _

theorem sound_run {α : Type} {p : Act α} (hp : Lending h p) (hx : x.2.Sound) :
    (run (pooled h) p x).2.2.Sound :=
  (hp x).sound hx

/-- A fetch closes its connections if its test for the item does. -/
theorem balanced_getBidItem_iff {bidItemId : ℤ} (hx : x.2.Sound) :
    Balanced h (RedisCacheService.getBidItem bidItemId) x ↔ FetchCloses h x bidItemId := by
  rw [RedisCacheService.balanced_getBidItem hx]
  apply forall₂_congr
  intro jedis y
  apply imp_congr_right
  intro hconnect
  exact RedisCacheService.balanced_bidItemExists (sound_connect hx hconnect)

/-- A loop of fetches closes its connections if each fetch does. -/
theorem balanced_collect {bidItemIds : List Text} (hx : x.2.Sound) :
    Balanced h (RedisCacheService.collectBidItems bidItemIds) x ↔
      Along (afterFetch h) (fun x id => FetchCloses h x (idOf id)) x bidItemIds := by
  rw [RedisCacheService.balanced_collectBidItems]
  apply Along.congr (I := fun x => x.2.Sound) _ _ hx
  · exact fun x id hx => balanced_getBidItem_iff hx
  · exact fun x id hx _ => sound_run (RedisCacheService.lending_getBidItem _) hx

/-- The two methods that fetch a list of items: the connections of the loop are those of
    `collectBidItems`. -/
theorem balanced_fetchAll {α : Type} {onFailure : α} {ids : Key} {loop : List Text → Act α}
    (hlending : ∀ bidItemIds, Lending h (loop bidItemIds))
    (hloop : ∀ bidItemIds x, Balanced h (loop bidItemIds) x ↔
      Balanced h (RedisCacheService.collectBidItems bidItemIds) x) (hx : x.2.Sound) :
    Balanced h (guarded onFailure (RedisCacheService.smembers ids >>= loop)) x ↔
      FetchesClose h x ids := by
  have hread : Restoring h (RedisCacheService.smembers ids) := restoring_redis _
  rw [balanced_guarded (hread.lending.bind hlending) hx]
  apply forall₂_congr
  intro jedis y
  apply imp_congr_right
  intro hconnect
  have hy : y.2.Sound := sound_connect hx hconnect
  -- reading the ids leases nothing, so the loop decides
  rw [balanced_bind hread.lending hlending, and_iff_right (hread.balanced hy)]
  apply forall₂_congr
  intro bidItemIds z
  apply imp_congr_right
  intro hrun
  have hz : z.2.Sound := by
    have hsound := sound_run hread.lending hy
    rw [hrun] at hsound
    exact hsound
  rw [hloop, balanced_collect hz]

theorem lending_someOf (bidItemIds : List Text) : Lending h (do
    let bidItems ← RedisCacheService.collectBidItems bidItemIds
    pure (some bidItems) : Act (Option (List (Option BidItem)))) :=
  (RedisCacheService.lending_collectBidItems _).bind fun _ => moves_pure _

theorem balanced_someOf (bidItemIds : List Text) (x : S × Pool) : Balanced h (do
    let bidItems ← RedisCacheService.collectBidItems bidItemIds
    pure (some bidItems) : Act (Option (List (Option BidItem)))) x ↔
      Balanced h (RedisCacheService.collectBidItems bidItemIds) x := by
  rw [balanced_bind (RedisCacheService.lending_collectBidItems _) fun _ => moves_pure _]
  exact and_iff_left fun _ _ _ => rfl

theorem lending_getBidItemsOf (categoryId : Text) :
    Lending h (RedisCacheService.getBidItemsOf categoryId) :=
  lending_guarded ((restoring_redis _).lending.bind lending_someOf)

theorem lending_getBidItems : Lending h RedisCacheService.getBidItems :=
  lending_guarded ((restoring_redis _).lending.bind RedisCacheService.lending_collectBidItems)

/-- The calls that may return from inside a `try` block. -/
def Call.ReturnsInside : Call → Prop
  | .bidItemExists _ | .getBidItem _ | .getBidItemsOf _ | .getBidItems | .isEndSequence => True
  | _ => False

/-- All other calls close every connection on every path. -/
theorem restoring_act {c : Call} (hc : ¬ c.ReturnsInside) : Restoring h c.act := by
  cases c with
  | flushDB => exact RedisCacheService.restoring_flushDB h
  -- `null` is noticed before a connection is taken
  | setBidItemList bidItems =>
    cases bidItems with
    | none => exact moves_throw _
    | some bidItems => exact RedisCacheService.restoring_setBidItemList h _
  -- `null` is noticed inside the `try` block, which closes its connection
  | setBidItem id bidItem =>
    cases bidItem with
    | none => exact restoring_throwConnected
    | some bidItem => exact RedisCacheService.restoring_setBidItem h _ _
  | setBidEndTime id d | setBidItemLastUpdateTime id d =>
    cases d with
    | none => exact restoring_discarding (restoring_setNoDate _)
    | some d => exact restoring_discarding (RedisCacheService.restoring_setDate h _ _ _)
  | getBidEndTime id | getBidItemLastUpdateTime id =>
    exact restoring_discarding (RedisCacheService.restoring_getDate h _ _)
  | getBidders id bidItem =>
    cases bidItem with
    | none => exact restoring_throwConnected
    | some bidItem => exact restoring_discarding (RedisCacheService.restoring_getBidders h _ _)
  | setBidders id bidItem =>
    cases bidItem with
    | none => exact moves_throw _
    | some bidItem => exact RedisCacheService.restoring_setBidders h _ _
  | setBidder id bidder => exact RedisCacheService.restoring_setBidder h _ _
  | getBidder id name => exact restoring_discarding (RedisCacheService.restoring_getBidder h _ _)
  | setCategory id category => exact RedisCacheService.restoring_setCategory h _ _
  | getCategory id => exact restoring_discarding (RedisCacheService.restoring_getCategory h _)
  | setCategories categories =>
    cases categories with
    | none => exact restoring_throwConnected
    | some categories => exact RedisCacheService.restoring_setCategories h _
  | getCategories => exact restoring_discarding (RedisCacheService.restoring_getCategories h)
  | setBidderCategories categories =>
    cases categories with
    | none => exact restoring_throwConnected
    | some categories => exact RedisCacheService.restoring_setBidderCategories h _
  | setBidIdKey maxBidId => exact RedisCacheService.restoring_setBidIdKey h _
  | setAutoBidIdKey maxAutoBidId => exact RedisCacheService.restoring_setAutoBidIdKey h _
  | getBidItemSpan id => exact restoring_discarding (RedisCacheService.restoring_getBidItemSpan h _)
  | setBidSequenceList l =>
    cases l with
    | none => exact restoring_throwConnected
    | some l => exact RedisCacheService.restoring_setBidSequenceList h _
  | getBidItemSequenceDetails id =>
    exact restoring_discarding (RedisCacheService.restoring_getBidItemSequenceDetails h _)
  | setActiveBidItemId => exact RedisCacheService.restoring_setActiveBidItemId h
  | getActiveBidItemId =>
    exact restoring_discarding (RedisCacheService.restoring_getActiveBidItemId h)
  | setAuctionId auctionId =>
    cases auctionId with
    | none => exact restoring_throwConnected
    | some auctionId => exact RedisCacheService.restoring_setAuctionId h _
  | getAuctionId => exact restoring_discarding (RedisCacheService.restoring_getAuctionId h)
  | setExpiredBidItem id => exact RedisCacheService.restoring_setExpiredBidItem h _
  | bidItemExists id | getBidItem id | getBidItemsOf categoryId | getBidItems | isEndSequence =>
    -- these return from inside the `try` block, or call a method that does
    exact absurd trivial hc

/-- No call takes a connection from somebody else. -/
theorem lending_act (c : Call) : Lending h c.act := by
  by_cases hc : c.ReturnsInside
  · cases c with
    | bidItemExists id => exact lending_discarding (RedisCacheService.lending_bidItemExists id)
    | getBidItem id => exact lending_discarding (RedisCacheService.lending_getBidItem id)
    | getBidItemsOf categoryId => exact lending_discarding (lending_getBidItemsOf categoryId)
    | getBidItems => exact lending_discarding lending_getBidItems
    | isEndSequence => exact lending_discarding RedisCacheService.lending_isEndSequence
    | _ => exact hc.elim
  · exact (restoring_act hc).lending

/-- One call leaves as many connections out as before if and only if it closes all of its
    own. -/
theorem balanced_act (c : Call) (hx : x.2.Sound) : Balanced h c.act x ↔ c.Closes h x := by
  by_cases hc : c.ReturnsInside
  · cases c with
    | bidItemExists id =>
      exact (balanced_discarding (RedisCacheService.lending_bidItemExists id)).trans
        (RedisCacheService.balanced_bidItemExists hx)
    | getBidItem id =>
      exact (balanced_discarding (RedisCacheService.lending_getBidItem id)).trans
        (balanced_getBidItem_iff hx)
    | getBidItemsOf categoryId =>
      exact (balanced_discarding (lending_getBidItemsOf categoryId)).trans
        (balanced_fetchAll lending_someOf balanced_someOf hx)
    | getBidItems =>
      exact (balanced_discarding lending_getBidItems).trans
        (balanced_fetchAll RedisCacheService.lending_collectBidItems (fun _ _ => Iff.rfl) hx)
    | isEndSequence =>
      exact (balanced_discarding RedisCacheService.lending_isEndSequence).trans
        (RedisCacheService.balanced_isEndSequence hx)
    | _ => exact hc.elim
  · -- there is no condition on a call that does not return from inside
    have hcloses : c.Closes h x := by
      cases c with
      | bidItemExists _ | getBidItem _ | getBidItemsOf _ | getBidItems | isEndSequence =>
        exact absurd trivial hc
      | _ => trivial
    exact iff_of_true ((restoring_act hc).balanced hx) hcloses

/-! ## Sessions -/

/-- The state after a call. -/
def afterCall (h : Handler Cmd Answer S) (x : S × Pool) (c : Call) : S × Pool :=
  (run (pooled h) c.act x).2

theorem lending_session (calls : List Call) : Lending h (session calls) :=
  Moves.forEach (fun c => lending_discarding (lending_act c).attempt) calls

/-- What a call that is caught leaves behind. -/
theorem run_caught (c : Call) (x : S × Pool) :
    run (pooled h) (discarding (attempt c.act)) x = (.ok (), afterCall h x c) := by
  unfold discarding
  rw [run_bind_ok (run_attempt _ _ x)]
  rfl

/-- A session leaves as many connections out as before if and only if each call does. -/
theorem balanced_session (calls : List Call) :
    Balanced h (session calls) x ↔
      Along (afterCall h) (fun x c => Balanced h c.act x) x calls := by
  induction calls generalizing x with
  | nil => exact iff_of_true rfl trivial
  | cons c calls ih =>
    -- whether the call throws does not matter for the pool
    have hcaught : Balanced h (discarding (attempt c.act)) x ↔ Balanced h c.act x := by
      unfold Balanced
      rw [run_caught]
      rfl
    show Balanced h (discarding (attempt c.act) >>= fun _ => session calls) x ↔
      _ ∧ Along (afterCall h) _ (afterCall h x c) calls
    rw [balanced_bind (lending_discarding (lending_act c).attempt)
      (fun _ => lending_session calls), hcaught, ← ih, run_caught]
    apply and_congr_right
    intro _
    constructor
    · exact fun hrest => hrest () _ rfl
    · rintro hrest _ _ ⟨⟩
      exact hrest

/-- As many connections are out as before, and none was returned twice. -/
structure Conserved (before after : Pool) : Prop where
  out : after.outstanding.card = before.outstanding.card
  once : after.returned.Nodup

/-- A session conserves connections if and only if every call of it closes all of its own, in
    the state in which it is made. -/
theorem conserved_iff (h : Handler Cmd Answer S) (calls : List Call) (s : S) {before : Pool}
    (hbefore : before.Sound) :
    Conserved before (run (pooled h) (session calls) (s, before)).2.2 ↔
      Along (afterCall h) (fun x c => c.Closes h x) (s, before) calls := by
  have hextends : before.Extends (run (pooled h) (session calls) (s, before)).2.2 :=
    lending_session calls (s, before)
  have hcloses : Balanced h (session calls) (s, before) ↔
      Along (afterCall h) (fun x c => c.Closes h x) (s, before) calls := by
    rw [balanced_session]
    apply Along.congr (I := fun x => x.2.Sound) _ _ hbefore
    · exact fun x c hx => balanced_act c hx
    · exact fun x c hx _ => sound_run (lending_act c) hx
  rw [← hcloses]
  constructor
  · exact fun hconserved => hextends.card_outstanding_eq_iff.mp hconserved.out
  · intro hbalanced
    exact ⟨hextends.card_outstanding_eq_iff.mpr hbalanced, (hextends.sound hbefore).once⟩

/-- The pool after a session on a server that answers every command, with the text of
    `ACTIVEBIDITEMID` as it is before the session. -/
def poolAfter (activeBidItemId : Option Text) (calls : List Call) : Pool :=
  (run (pooled (handle (Env.still 0))) (session calls)
    ({ World.initial Db.empty with redis := { KeyValue.Store.empty with
        strings := Function.update (fun _ => none) .activeBidItemId activeBidItemId } },
      Pool.fresh)).2.2

/-- While an item is on sale, the check for the end of the sequence is closed. -/
theorem conserved_onSale : Pool.fresh.Sound ∧
    Conserved Pool.fresh (poolAfter (some (.long 11)) [.isEndSequence, .getActiveBidItemId]) := by
  refine ⟨Pool.sound_fresh, (conserved_iff _ _ _ Pool.sound_fresh).mpr ⟨?_, trivial, trivial⟩⟩
  intro jedis y hconnect id z hget
  obtain rfl : y = _ := (congrArg Prod.snd hconnect).symm
  have hid : some (.long 11) = id := Except.ok.inj (congrArg Prod.fst hget)
  rw [← hid]
  decide

/-- On the cache as it is before an auction, asking for an item and for the end of the
    sequence leaves two connections out. -/
theorem notStarted_not_conserved :
    ¬ Conserved Pool.fresh (poolAfter none [.bidItemExists 11, .isEndSequence]) := by
  intro hconserved
  have hout : (poolAfter none [.bidItemExists 11, .isEndSequence]).outstanding.card = 2 := by
    decide +kernel
  exact absurd (hout.symm.trans hconserved.out) (by decide)

end Bidding.Model
