import Bidding.Collections.Pool
import Bidding.Effects.Moves
import Bidding.Effects.Runs
import Bidding.Model.RedisCacheService
import Bidding.Semantics.Failures
import Bidding.Semantics.Methods

/-!
# Connections

What the methods of the cache service do to the connection pool, whatever their calls are
answered. A connection that is made is the next lease of a pool, and closing hands the
lease in; all other answers are those of an arbitrary handler.

## Architecture

- **`pooled h`**: the handler `h` with a pool behind its connections.
- **`leasing`**: the one frame of all methods on the cache, with a parameter for the results
  after which the connection is not closed.
- **`Lending p`**: `p` returns only connections of its own, each of them once.
- **`Restoring p`**: `p` returns moreover all of them.

## Key Results

- **`lending_leasing`**, **`balanced_leasing`**: the frame, from what its block does.
- **`balanced_bind`**: a sequence, from its parts.
- **`balanced_bidItemExists`**, **`balanced_getBidItem`**, **`balanced_isEndSequence`**: when
  the methods that return from inside their `try` block close their connections.
-/

namespace Bidding.Model

open Bidding.Effects Bidding.Effects.Action Bidding.Collections

variable {S α β : Type}

/-- A handler with a pool behind its connections: a connection that `h` grants is the next
    lease, and a connection that is closed is handed in. -/
def pooled (h : Handler Cmd Answer S) : Handler Cmd Answer (S × Pool)
  | .connect, x =>
    match h .connect x.1 with
    | (.ok _, s) => (.ok x.2.leased, (s, x.2.lease))
    | (.error e, s) => (.error e, (s, x.2))
  | .close none, x => ((), ((h (.close none) x.1).2, x.2))
  | .close (some jedis), x => ((), ((h (.close (some jedis)) x.1).2, x.2.giveBack jedis))
  | c, x => ((h c x.1).1, ((h c x.1).2, x.2))

/-- The calls that are not about connections. -/
def Offline : Cmd → Prop
  | .connect | .close _ => False
  | .redis _ | .now | .dao _ | .field _ | .startTimer _ | .stopAuction | .restart
  | .engineBid _ => True

/-- `p` returns only connections that it leased itself, each of them once. -/
abbrev Lending (h : Handler Cmd Answer S) (p : Act α) : Prop :=
  Moves (pooled h) (fun x y => x.2.Extends y.2) p

/-- `p` returns moreover all connections that it leased. -/
abbrev Restoring (h : Handler Cmd Answer S) (p : Act α) : Prop :=
  Moves (pooled h) (fun x y => x.2.Restores y.2) p

/-- From `x`, as many connections are out after `p` as before. -/
def Balanced (h : Handler Cmd Answer S) (p : Act α) (x : S × Pool) : Prop :=
  (run (pooled h) p x).2.2.outstanding = x.2.outstanding

instance : IsPreorder (S × Pool) (fun x y => x.2.Extends y.2) where
  refl x := Pool.Extends.refl x.2
  trans _ _ _ := Pool.Extends.trans

instance : IsPreorder (S × Pool) (fun x y => x.2.Restores y.2) where
  refl x := Pool.Restores.refl x.2
  trans _ _ _ := Pool.Restores.trans

variable {h : Handler Cmd Answer S} {p : Act α} {f : α → Act β} {x : S × Pool}

theorem Restoring.lending (hp : Restoring h p) : Lending h p :=
  hp.mono fun _ _ hxy => hxy.kept

theorem Restoring.balanced (hp : Restoring h p) (hx : x.2.Sound) : Balanced h p x :=
  (hp x).outstanding hx

/-- An action that is lending, and balanced from every sound pool. -/
theorem restoring_of_balanced (hp : Lending h p)
    (hbalanced : ∀ x : S × Pool, x.2.Sound → Balanced h p x) : Restoring h p :=
  fun x => ⟨hp x, hbalanced x⟩

theorem pool_pooled_offline {c : Cmd} (hc : Offline c) (x : S × Pool) :
    (pooled h c x).2.2 = x.2 := by
  cases c with
  | connect | close _ => exact hc.elim
  | redis _ | now | dao _ | field _ | startTimer _ | stopAuction | restart | engineBid _ => rfl

theorem restoring_offline (hp : Issues Offline p) : Restoring h p := by
  refine Issues.moves (T := fun x y : S × Pool => x.2.Restores y.2) ?_ hp
  intro c hc x
  show x.2.Restores (pooled h c x).2.2
  rw [pool_pooled_offline hc]
  exact Pool.Restores.refl _

theorem restoring_redis (c : RedisCmd) : Restoring h (redis c) := by
  apply restoring_offline
  exact issues_perform trivial

theorem restoring_now : Restoring h now := by
  apply restoring_offline
  exact issues_perform trivial

/-- A sequence is balanced if and only if its parts are. -/
theorem balanced_bind (hp : Lending h p) (hf : ∀ a, Lending h (f a)) :
    Balanced h (p >>= f) x ↔ Balanced h p x ∧
      ∀ a y, run (pooled h) p x = (.ok a, y) → Balanced h (f a) y := by
  unfold Balanced
  have hfirst : x.2.Extends (run (pooled h) p x).2.2 := hp x
  rcases hrun : run (pooled h) p x with ⟨e | a, y⟩
  · rw [run_bind_error hrun]
    simp
  · rw [hrun] at hfirst
    rw [run_bind_ok hrun, hfirst.outstanding_trans_iff (hf a y)]
    simp

/-! ## The frame of a method -/

/-- Both ways in which a connection can be answered. -/
theorem run_connect_pooled (h : Handler Cmd Answer S) (x : S × Pool) :
    (∃ s, run (pooled h) connect x = (.ok x.2.leased, (s, x.2.lease))) ∨
      ∃ e s, run (pooled h) connect x = (.error e, (s, x.2)) := by
  have hrun : run (pooled h) connect x = pooled h .connect x := rfl
  rw [hrun]
  rcases hconnect : h .connect x.1 with ⟨e | _, s⟩
  · exact .inr ⟨e, s, by simp only [pooled, hconnect]; rfl⟩
  · exact .inl ⟨s, by simp only [pooled, hconnect]; rfl⟩

/-- Connect and run `body` in a `try` block whose `catch` only logs; the connection is closed
    on the way out, except after a result for which `leavesOpen` says otherwise. -/
def leasing (leavesOpen : α → Bool) (onFailure : α) (body : Act α) : Act α := do
  match ← attempt connect with
  | .error _ => do
    close none
    pure onFailure
  | .ok jedis =>
    match ← attempt body with
    | .error _ => do
      close (some jedis)
      pure onFailure
    | .ok a =>
      if leavesOpen a then
        pure a
      else do
        close (some jedis)
        pure a

variable {leavesOpen : α → Bool} {onFailure : α} {body : Act α}

/-- Without a connection, nothing happens to the pool. -/
theorem pool_leasing_error {e : Exn} {y : S × Pool}
    (hconnect : run (pooled h) connect x = (.error e, y)) :
    (run (pooled h) (leasing leavesOpen onFailure body) x).2.2 = y.2 := by
  unfold leasing
  rw [run_bind_ok (run_attempt_of hconnect)]
  rfl

/-- A method that leaves its connection open does not touch the pool after its block. -/
theorem pool_leasing_open {jedis : Connection} {y z : S × Pool} {a : α}
    (hconnect : run (pooled h) connect x = (.ok jedis, y))
    (hbody : run (pooled h) body y = (.ok a, z)) (hopen : leavesOpen a = true) :
    (run (pooled h) (leasing leavesOpen onFailure body) x).2.2 = z.2 := by
  unfold leasing
  rw [run_bind_ok (run_attempt_of hconnect), run_bind_ok (run_attempt_of hbody)]
  simp only [hopen, if_true, run_pure]

/-- Otherwise the connection is handed in after the block. -/
theorem pool_leasing_closed {jedis : Connection} {y : S × Pool}
    (hconnect : run (pooled h) connect x = (.ok jedis, y))
    (hclosed : ∀ a z, run (pooled h) body y = (.ok a, z) → leavesOpen a = false) :
    (run (pooled h) (leasing leavesOpen onFailure body) x).2.2 =
      (run (pooled h) body y).2.2.giveBack jedis := by
  unfold leasing
  rw [run_bind_ok (run_attempt_of hconnect)]
  -- after an exception of the block the connection is closed as well
  rcases hbody : run (pooled h) body y with ⟨e | a, z⟩
  · rw [run_bind_ok (run_attempt_of hbody)]
    rfl
  · rw [run_bind_ok (run_attempt_of hbody)]
    simp only [hclosed a z hbody, Bool.false_eq_true, if_false]
    rfl

/-- Whether a run of the block ends in a result after which the connection stays open. -/
theorem closed_or_open (leavesOpen : α → Bool) (body : Act α) (y : S × Pool) :
    (∀ a z, run (pooled h) body y = (.ok a, z) → leavesOpen a = false) ∨
      ∃ a z, run (pooled h) body y = (.ok a, z) ∧ leavesOpen a = true := by
  by_cases hclosed : ∀ a z, run (pooled h) body y = (.ok a, z) → leavesOpen a = false
  · exact .inl hclosed
  · push Not at hclosed
    obtain ⟨a, z, hrun, hopen⟩ := hclosed
    exact .inr ⟨a, z, hrun, by simpa using hopen⟩

/-- A frame whose block lends soundly lends soundly, whether it closes its connection or not. -/
theorem lending_leasing (hbody : Lending h body) :
    Lending h (leasing leavesOpen onFailure body) := by
  intro x
  show x.2.Extends (run (pooled h) _ x).2.2
  rcases run_connect_pooled h x with ⟨s, hconnect⟩ | ⟨e, s, hconnect⟩
  · have hblock : x.2.lease.Extends (run (pooled h) body (s, x.2.lease)).2.2 := hbody (s, x.2.lease)
    rcases closed_or_open leavesOpen body (s, x.2.lease) with hclosed | ⟨a, z, hrun, hopen⟩
    · -- the connection is handed in after the block
      rw [pool_leasing_closed hconnect hclosed]
      exact hblock.frame
    · rw [hrun] at hblock
      rw [pool_leasing_open hconnect hrun hopen]
      exact (Pool.Extends.lease _).trans hblock
  · rw [pool_leasing_error hconnect]
    exact Pool.Extends.refl _

/-- The frame is balanced if and only if its block is and its connection is closed. -/
theorem balanced_leasing (hbody : Lending h body) (hx : x.2.Sound) :
    Balanced h (leasing leavesOpen onFailure body) x ↔
      ∀ jedis y, run (pooled h) connect x = (.ok jedis, y) → Balanced h body y ∧
        ∀ a z, run (pooled h) body y = (.ok a, z) → leavesOpen a = false := by
  unfold Balanced
  rcases run_connect_pooled h x with ⟨s, hconnect⟩ | ⟨e, s, hconnect⟩
  · have hblock : x.2.lease.Extends (run (pooled h) body (s, x.2.lease)).2.2 := hbody (s, x.2.lease)
    have hgranted : ∀ P : Connection → S × Pool → Prop,
        (∀ jedis y, run (pooled h) connect x = (.ok jedis, y) → P jedis y) ↔
          P x.2.leased (s, x.2.lease) := by
      intro P
      rw [hconnect]
      constructor
      · exact fun hP => hP _ _ rfl
      · rintro hP _ _ ⟨⟩
        exact hP
    rw [hgranted]
    rcases closed_or_open leavesOpen body (s, x.2.lease) with hclosed | ⟨a, z, hrun, hopen⟩
    · rw [pool_leasing_closed hconnect hclosed, hblock.frame_outstanding hx]
      exact ⟨fun hsame => ⟨hsame, hclosed⟩, And.left⟩
    · rw [pool_leasing_open hconnect hrun hopen]
      rw [hrun] at hblock
      -- the connection is left open, and both sides fail
      constructor
      · exact fun hsame => absurd hsame (hblock.open_outstanding hx)
      · intro hboth
        rw [hboth.2 a z hrun] at hopen
        cases hopen
  · rw [pool_leasing_error hconnect, hconnect]
    simp

/-- The pool stays sound when a connection is made. -/
theorem sound_connect {jedis : Connection} {y : S × Pool} (hx : x.2.Sound)
    (hconnect : run (pooled h) connect x = (.ok jedis, y)) : y.2.Sound := by
  rcases run_connect_pooled h x with ⟨s, hrun⟩ | ⟨e, s, hrun⟩
  · obtain ⟨-, rfl⟩ := Prod.ext_iff.mp (hrun.symm.trans hconnect)
    exact hx.lease
  · cases hrun.symm.trans hconnect

/-- `guarded` always closes its connection. -/
theorem guarded_eq_leasing : guarded onFailure body = leasing (fun _ => false) onFailure body :=
  rfl

/-- `unclosed` never closes its connection after an answer. -/
theorem unclosed_eq_leasing : unclosed onFailure body = leasing (fun _ => true) onFailure body :=
  rfl

theorem lending_guarded (hbody : Lending h body) : Lending h (guarded onFailure body) :=
  guarded_eq_leasing ▸ lending_leasing hbody

theorem balanced_guarded (hbody : Lending h body) (hx : x.2.Sound) :
    Balanced h (guarded onFailure body) x ↔
      ∀ jedis y, run (pooled h) connect x = (.ok jedis, y) → Balanced h body y := by
  rw [guarded_eq_leasing, balanced_leasing hbody hx]
  simp

theorem restoring_guarded (hbody : Restoring h body) : Restoring h (guarded onFailure body) := by
  apply restoring_of_balanced (lending_guarded hbody.lending)
  intro x hx
  rw [balanced_guarded hbody.lending hx]
  intro jedis y hconnect
  exact hbody.balanced (sound_connect hx hconnect)

namespace RedisCacheService

/-! ## Methods that return every connection -/

variable (h : Handler Cmd Answer S)

theorem restoring_notNull (s : Option String) : Restoring h (notNull s) := moves_ofExcept _

theorem restoring_flushDB : Restoring h flushDB := restoring_guarded (restoring_redis _)

theorem restoring_setAuctionId (auctionId : ℤ) : Restoring h (setAuctionId auctionId) :=
  restoring_guarded ((restoring_redis _).bind fun _ => (restoring_redis _).bind fun _ =>
    moves_pure ())

theorem restoring_getAuctionId : Restoring h getAuctionId := restoring_guarded (restoring_redis _)

theorem restoring_setBidIdKey (maxBidId : ℤ) : Restoring h (setBidIdKey maxBidId) :=
  restoring_guarded (restoring_redis _)

theorem restoring_setAutoBidIdKey (maxAutoBidId : ℤ) :
    Restoring h (setAutoBidIdKey maxAutoBidId) :=
  restoring_guarded (restoring_redis _)

/-- Restoring the pool is checked part by part. -/
theorem compositional_restoring : Compositional (fun _ p => Restoring h p) where
  of_pure := moves_pure
  of_ofExcept := moves_ofExcept
  of_bind := Moves.bind
  of_attempt := Moves.attempt
  of_guarded := restoring_guarded
  of_now := restoring_now

theorem restoring_setCategories (categories : List Category) :
    Restoring h (setCategories categories) :=
  (compositional_restoring h).of_setCategories (fun _ => restoring_redis _)
    (fun _ _ _ => restoring_redis _) categories

theorem restoring_setCategory (bidItemId : ℤ) (category : Option Category) :
    Restoring h (setCategory bidItemId category) :=
  (compositional_restoring h).of_setCategory (fun _ => restoring_redis _) category

theorem restoring_getCategory (categoryId : Text) : Restoring h (getCategory categoryId) :=
  (compositional_restoring h).of_getCategory fun _ => restoring_redis _

/-- The loop of `getCategories`, which stops at the first exception. -/
theorem restoring_collectCategories (categories : List Text) (categoryList : List Category) :
    Restoring h (collectCategories categories categoryList) := by
  induction categories generalizing categoryList with
  | nil => exact moves_pure _
  | cons c categories ih =>
    apply Moves.bind ((restoring_redis _).bind fun name => (restoring_redis _).bind fun id =>
      (moves_ofExcept _).bind fun _ => moves_pure _).attempt
    -- a category that cannot be read ends the loop
    rintro (e | category)
    · exact moves_pure _
    · exact ih _

theorem restoring_getCategories : Restoring h getCategories :=
  restoring_guarded ((restoring_redis _).bind fun _ => restoring_collectCategories h _ _)

theorem restoring_setBidderCategories (categories : List Category) :
    Restoring h (setBidderCategories categories) := by
  apply restoring_guarded
  apply Moves.forEach
  intro c
  exact (restoring_notNull h _).bind fun _ => restoring_redis _

theorem restoring_setBidder (bidItemId : ℤ) (bidder : Bidder) :
    Restoring h (setBidder bidItemId bidder) :=
  (compositional_restoring h).of_setBidder (fun _ => restoring_redis _)
    (fun _ _ _ => restoring_redis _) bidder

theorem restoring_setBidders (bidItemId : ℤ) (bidItem : BidItem) :
    Restoring h (setBidders bidItemId bidItem) :=
  (compositional_restoring h).of_setBidders (restoring_setBidder h bidItemId) bidItem

theorem restoring_getBidder (bidItemId : ℤ) (bidderName : Text) :
    Restoring h (getBidder bidItemId bidderName) :=
  (compositional_restoring h).of_getBidder fun _ => restoring_redis _

theorem restoring_getBidders (bidItemId : ℤ) (item : BidItem) :
    Restoring h (getBidders bidItemId item) :=
  (compositional_restoring h).of_getBidders (restoring_redis _) (fun _ _ => restoring_redis _) item

/-- `setBidItem` restores the pool. -/
theorem restoring_setBidItem (bidItemId : ℤ) (bidItem : BidItem) :
    Restoring h (setBidItem bidItemId bidItem) := by
  apply (compositional_restoring h).of_setBidItem
  · exact restoring_redis _
  · exact fun cell _ =>
      (compositional_restoring h).of_writeCell (fun _ _ => restoring_redis _) cell
  · exact restoring_setBidder h bidItemId
  · exact restoring_setCategory h bidItemId

theorem restoring_setBidItemList (bidItems : List (ℤ × BidItem)) :
    Restoring h (setBidItemList bidItems) := by
  apply Moves.forEach
  intro item
  exact restoring_setBidItem h item.1 item.2

theorem restoring_fillBidItem (bidItemId : ℤ) (item : BidItem) :
    Restoring h (fillBidItem bidItemId bidItemReaders item) :=
  (compositional_restoring h).of_fillBidItem (fun _ => restoring_redis _) (restoring_getBidders h)
    ((compositional_restoring h).of_read fun _ _ => restoring_redis _) item

theorem restoring_getDate (attr : Attr) (bidItemId : ℤ) : Restoring h (getDate attr bidItemId) :=
  restoring_guarded ((restoring_redis _).bind fun _ => moves_ofExcept _)

theorem restoring_setDate (attr : Attr) (bidItemId : ℤ) (d : Date) :
    Restoring h (setDate attr bidItemId d) :=
  (compositional_restoring h).of_setDate (restoring_redis _) (restoring_redis _)

theorem restoring_setExpiredBidItem (bidItemId : ℤ) :
    Restoring h (setExpiredBidItem bidItemId) :=
  (compositional_restoring h).of_setExpiredBidItem (restoring_redis _) (restoring_redis _)
    fun _ => restoring_redis _

theorem restoring_setBidSequence (s : BidSequence) : Restoring h (setBidSequence s) :=
  (restoring_redis _).bind fun _ => (restoring_redis _).bind fun _ =>
    (restoring_redis _).bind fun _ => (restoring_redis _).bind fun _ =>
      (restoring_redis _).bind fun _ => restoring_redis _

/-- `setBidSequenceList` restores the pool. -/
theorem restoring_setBidSequenceList (bidSequenceList : List BidSequence) :
    Restoring h (setBidSequenceList bidSequenceList) := by
  apply restoring_guarded
  apply Moves.bind (Moves.forEach (restoring_setBidSequence h) _)
  intro _
  apply Moves.bind (restoring_redis _)
  intro card
  apply Moves.bind (restoring_redis _)
  intro bidItemList
  apply Moves.forEach
  exact fun _ => restoring_redis _

theorem restoring_getBidItemSpan (bidItemId : ℤ) : Restoring h (getBidItemSpan bidItemId) :=
  restoring_guarded ((restoring_redis _).bind fun _ => moves_ofExcept _)

theorem restoring_getBidItemSequenceDetails (bidItemId : ℤ) :
    Restoring h (getBidItemSequenceDetails bidItemId) :=
  (compositional_restoring h).of_getBidItemSequenceDetails (restoring_redis _)

theorem restoring_setActiveBidItemId : Restoring h setActiveBidItemId :=
  restoring_guarded ((restoring_redis _).bind fun _ => restoring_redis _)

theorem restoring_getActiveBidItemId : Restoring h getActiveBidItemId :=
  (compositional_restoring h).of_getActiveBidItemId (restoring_redis _)

/-! ## Methods that return from inside their `try` block -/

variable {h}

/-- `bidItemExists` lends soundly: it leases a connection and may keep it. -/
theorem lending_bidItemExists (bidItemId : ℤ) : Lending h (bidItemExists bidItemId) := by
  unfold bidItemExists
  rw [unclosed_eq_leasing]
  exact lending_leasing (restoring_redis _).lending

/-- `bidItemExists` keeps its connection whenever it gets an answer. -/
theorem balanced_bidItemExists {bidItemId : ℤ} (hx : x.2.Sound) :
    Balanced h (bidItemExists bidItemId) x ↔
      ∀ jedis y, run (pooled h) connect x = (.ok jedis, y) →
        ∀ found z, run (pooled h) (sismember .bidItems (.long bidItemId)) y ≠ (.ok found, z) := by
  have hbody : Restoring h (sismember .bidItems (.long bidItemId)) := restoring_redis _
  unfold bidItemExists
  rw [unclosed_eq_leasing, balanced_leasing hbody.lending hx]
  apply forall₂_congr
  intro jedis y
  apply imp_congr_right
  intro hconnect
  constructor
  · -- any answer is returned without closing
    rintro ⟨-, hclosed⟩ found z hrun
    cases hclosed found z hrun
  · intro hnone
    exact ⟨hbody.balanced (sound_connect hx hconnect),
      fun found z hrun => absurd hrun (hnone found z)⟩

/-- The item is read after the check that it exists. -/
private theorem restoring_afterExists (bidItemId : ℤ) (found : Bool) :
    Restoring h (if found then do
        let item ← fillBidItem bidItemId bidItemReaders BidItem.new
        pure (some item)
      else
        pure none) := by
  cases found with
  | false => exact moves_pure _
  | true => exact (restoring_fillBidItem h _ _).bind fun _ => moves_pure _

private theorem lending_getBidItem_body (bidItemId : ℤ) :
    Lending h (do
      if ← bidItemExists bidItemId then
        let item ← fillBidItem bidItemId bidItemReaders BidItem.new
        pure (some item)
      else
        pure none) :=
  (lending_bidItemExists bidItemId).bind fun found => (restoring_afterExists _ found).lending

/-- `getBidItem` lends soundly. -/
theorem lending_getBidItem (bidItemId : ℤ) : Lending h (getBidItem bidItemId) :=
  lending_guarded (lending_getBidItem_body bidItemId)

/-- `getBidItem` closes its own connection; what it leaves behind is the connection of
    `bidItemExists`. -/
theorem balanced_getBidItem {bidItemId : ℤ} (hx : x.2.Sound) :
    Balanced h (getBidItem bidItemId) x ↔
      ∀ jedis y, run (pooled h) connect x = (.ok jedis, y) →
        Balanced h (bidItemExists bidItemId) y := by
  unfold getBidItem
  rw [balanced_guarded (lending_getBidItem_body bidItemId) hx]
  apply forall₂_congr
  intro jedis y
  apply imp_congr_right
  intro hconnect
  rw [balanced_bind (lending_bidItemExists bidItemId)
    fun found => (restoring_afterExists _ found).lending]
  constructor
  · exact And.left
  · -- what comes after the test restores the pool
    intro hexists
    refine ⟨hexists, fun found z hrun => (restoring_afterExists _ found).balanced ?_⟩
    have hsound := (lending_bidItemExists (h := h) bidItemId y).sound (sound_connect hx hconnect)
    rw [hrun] at hsound
    exact hsound

/-- The state after an item was fetched. -/
def afterFetch (h : Handler Cmd Answer S) (x : S × Pool) (id : Text) : S × Pool :=
  (run (pooled h) (getBidItem (idOf id)) x).2

theorem lending_collectBidItems (ids : List Text) : Lending h (collectBidItems ids) := by
  induction ids with
  | nil => exact moves_pure _
  | cons id ids ih =>
    exact (lending_getBidItem _).bind fun _ => Moves.bind ih fun _ => moves_pure _

/-- A loop over items is balanced if and only if every fetch is. -/
theorem balanced_collectBidItems (ids : List Text) :
    Balanced h (collectBidItems ids) x ↔
      Along (afterFetch h) (fun x id => Balanced h (getBidItem (idOf id)) x) x ids := by
  induction ids generalizing x with
  | nil => exact iff_of_true rfl trivial
  | cons id ids ih =>
    -- a fetch always returns, so that the loop goes on
    obtain ⟨item, y, hrun, -⟩ := (returns_guarded (P := fun _ => True) trivial
      (yields_true _) : Returns (fun _ => True) (getBidItem (idOf id))).run (pooled h) x
    have hafter : afterFetch h x id = y := congrArg Prod.snd hrun
    show Balanced h (getBidItem (idOf id) >>= _) x ↔ _ ∧ Along (afterFetch h) _ _ ids
    rw [balanced_bind (lending_getBidItem _)
      fun _ => (lending_collectBidItems ids).bind fun _ => moves_pure _, hafter, ← ih]
    apply and_congr_right
    intro _
    constructor
    · intro hall
      exact ((balanced_bind (lending_collectBidItems ids) fun _ => moves_pure _).mp
        (hall item y hrun)).1
    · intro hcollect item' y' hrun'
      obtain ⟨-, rfl⟩ := Prod.ext_iff.mp (hrun.symm.trans hrun')
      exact (balanced_bind (lending_collectBidItems ids) fun _ => moves_pure _).mpr
        ⟨hcollect, fun _ _ _ => rfl⟩

/-- The answer of `isEndSequence` for the item on sale. -/
def endOf : Option Text → EndSequence
  | none => .null
  | some id => if id = .long 0 then .isTrue else .isFalse

/-- `isEndSequence` is a frame that closes its connection only if the answer is no. -/
theorem isEndSequence_eq_leasing :
    isEndSequence = leasing (fun e => e ≠ .isFalse) .isFalse (do
      let id ← get .activeBidItemId
      pure (endOf id)) := by
  apply congrArg (Program.call Cmd.connect)
  funext r
  cases r with
  | error e => rfl
  | ok jedis =>
    apply congrArg (Program.call (Cmd.redis (.get .activeBidItemId)))
    funext r
    -- no active id, and the id `0`, are answered from inside the `try` block
    rcases r with e | _ | id
    · rfl
    · rfl
    · show (if id = .long 0 then (pure .isTrue : Act EndSequence) else do
          close (some jedis)
          pure .isFalse) =
        if decide (endOf (some id) ≠ .isFalse) then pure (endOf (some id)) else do
          close (some jedis)
          pure (endOf (some id))
      by_cases hid : id = .long 0
      · simp [endOf, hid]
      · simp [endOf, hid]

theorem lending_readEndSequence : Lending h (do
    let id ← get .activeBidItemId
    pure (endOf id) : Act EndSequence) :=
  (restoring_redis _).lending.bind fun _ => moves_pure _

/-- `isEndSequence` lends soundly. -/
theorem lending_isEndSequence : Lending h isEndSequence := by
  rw [isEndSequence_eq_leasing]
  exact lending_leasing lending_readEndSequence

/-- `isEndSequence` keeps its connection when no item is on sale. -/
theorem balanced_isEndSequence (hx : x.2.Sound) :
    Balanced h isEndSequence x ↔
      ∀ jedis y, run (pooled h) connect x = (.ok jedis, y) →
        ∀ id z, run (pooled h) (get .activeBidItemId) y = (.ok id, z) →
          id ≠ none ∧ id ≠ some (.long 0) := by
  have hget : Restoring h (get .activeBidItemId) := restoring_redis _
  rw [isEndSequence_eq_leasing, balanced_leasing lending_readEndSequence hx]
  apply forall₂_congr
  intro jedis y
  apply imp_congr_right
  intro hconnect
  -- the read itself is balanced: what is left is whether the branch taken closes
  rw [balanced_bind hget.lending fun _ => moves_pure _]
  constructor
  · rintro ⟨-, hclosed⟩ id z hrun
    have hend := hclosed (endOf id) z ((run_bind_ok hrun).trans (run_pure _ _ _))
    -- both answers that are not "no" leave the connection open
    rcases id with _ | id
    · simp [endOf] at hend
    · refine ⟨by simp, ?_⟩
      rintro ⟨⟩
      simp [endOf] at hend
  · intro hid
    refine ⟨⟨hget.balanced (sound_connect hx hconnect), fun _ _ _ => rfl⟩, ?_⟩
    intro e z hrun
    rcases hread : run (pooled h) (get .activeBidItemId) y with ⟨err | id, z'⟩
    · rw [run_bind_error hread] at hrun
      cases hrun
    · rw [run_bind_ok hread] at hrun
      cases hrun
      obtain ⟨hnone, hzero⟩ := hid id _ hread
      cases id with
      | none => exact absurd rfl hnone
      | some id =>
        have hne : id ≠ .long 0 := fun heq => hzero (congrArg some heq)
        simp [endOf, hne]

end RedisCacheService

end Bidding.Model
