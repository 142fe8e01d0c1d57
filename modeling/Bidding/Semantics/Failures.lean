import Bidding.Effects.Faults
import Bidding.Semantics.Service

/-!
# Failing Cache Commands

What the methods on the cache make of a failing command. Every method swallows its exceptions
and answers with the default that its variable had, or with what it has read so far.

## Key Results

- **`returns_guarded`**: a guarded method returns normally, whichever command fails.
- **`fault_guarded_succ`**: a fault in the body of a guarded method.
- **`fault_getBidItem_field`**: what is fetched of an item when one of its first fields cannot be
  read.
- **`fault_getBidItem_late`**: the fields after these do not change the times.
-/

namespace Bidding.Model

open Bidding.Effects Bidding.Effects.Action Bidding.KeyValue

variable {α β : Type}

/-! ## Runs with a failing command -/

/-- A run in which the `k`-th command to the cache fails; a connection counts as a command. -/
def fault (env : Env) (p : Act α) (k : ℕ) (w : World) : Except Exn α × World :=
  withFault redisFault (handle env) p k w

/-- How many commands a run sends to the cache. -/
def commands (env : Env) (p : Act α) (w : World) : ℕ := fallible redisFault (handle env) p w

section Sequences

variable {env : Env} {w t : World} {p : Act α} {f : α → Act β} {a : α} {k n : ℕ}

theorem commands_bind (hp : run (handle env) p w = (.ok a, t)) :
    commands env (p >>= f) w = commands env p w + commands env (f a) t :=
  fallible_bind_ok hp

theorem commands_attempt : commands env (attempt p) w = commands env p w := fallible_attempt

/-- The fault falls into the first call. -/
theorem fault_bind_lt (hn : commands env p w = n) (hk : k < n)
    (hp : fault env p k w = (.ok a, t)) :
    fault env (p >>= f) k w = run (handle env) (f a) t := by
  subst hn
  exact withFault_bind_ok hk hp

/-- The first call throws because of the fault. -/
theorem fault_bind_lt_error {e : Exn} (hn : commands env p w = n) (hk : k < n)
    (hp : fault env p k w = (.error e, t)) : fault env (p >>= f) k w = (.error e, t) := by
  subst hn
  exact withFault_bind_error hk hp

/-- The fault falls behind the first call. -/
theorem fault_bind_add (hn : commands env p w = n) (hp : run (handle env) p w = (.ok a, t)) :
    fault env (p >>= f) (k + n) w = fault env (f a) k t := by
  subst hn
  refine (withFault_bind_of_le hp (Nat.le_add_left _ _)).trans ?_
  exact congrArg (withFault _ _ _ · t) (Nat.add_sub_cancel k _)

/-- The fault falls behind a call that sends nothing to the cache. -/
theorem fault_bind_zero (hn : commands env p w = 0) (hp : run (handle env) p w = (.ok a, t)) :
    fault env (p >>= f) k w = fault env (f a) k t := fault_bind_add hn hp

/-- Nothing is sent to the cache behind the first call. -/
theorem fault_ofExcept (g : α → Except Exn β) : fault env (p >>= fun a => ofExcept (g a)) k w =
    ((fault env p k w).1.bind g, (fault env p k w).2) := withFault_ofExcept g

theorem fault_map (g : α → β) : fault env (p >>= fun a => pure (g a)) k w =
    ((fault env p k w).1.bind (fun a => .ok (g a)), (fault env p k w).2) :=
  fault_ofExcept fun a => .ok (g a)

end Sequences

/-! ## The frame of a method -/

/-- The value of a result, or the default. -/
def orDefault (onFailure : α) : Except Exn α → α
  | .ok a => a
  | .error _ => onFailure

theorem returns_close {P : α → Prop} (jedis : Option Connection) {a : α} (h : P a) :
    Returns P (do close jedis; pure a : Act α) :=
  returns_bind (P := fun _ => True) (returns_perform fun _ => ⟨(), rfl, trivial⟩)
    fun _ _ => returns_pure h

/-- A guarded method returns its default or a value of its body. -/
theorem returns_guarded {P : α → Prop} {onFailure : α} {body : Act α} (hdefault : P onFailure)
    (hbody : Yields P body) : Returns P (guarded onFailure body) := by
  refine returns_bind (returns_attempt (yields_true connect)) fun r _ => ?_
  cases r with
  | error e => exact returns_close none hdefault
  | ok jedis =>
    refine returns_bind (returns_attempt hbody) fun r hr => ?_
    cases r with
    | error e => exact returns_close (some jedis) hdefault
    | ok a => exact returns_close (some jedis) (hr a rfl)

section Frames

variable (env : Env) (w : World)

/-- A guarded method has one command more than its body, the connection. -/
theorem commands_guarded (onFailure : α) (body : Act α) :
    commands env (guarded onFailure body) w = commands env body w + 1 := by
  unfold guarded
  rw [commands_bind (run_attempt_of (run_connect env w))]
  refine (congrArg (1 + ·) (commands_bind (run_attempt _ body w))).trans ?_
  rw [commands_attempt, Nat.add_comm 1, Nat.add_right_comm]
  cases (run (handle env) body w).1 <;> rfl

/-- Without a connection a method answers its default. -/
theorem fault_guarded_zero (onFailure : α) (body : Act α) :
    fault env (guarded onFailure body) 0 w = (.ok onFailure, w) := rfl

/-- A fault after the connection is one in the body. -/
theorem fault_guarded_succ (onFailure : α) (body : Act α) (k : ℕ) :
    fault env (guarded onFailure body) (k + 1) w =
      (.ok (orDefault onFailure (fault env body k w).1), (fault env body k w).2) := by
  unfold guarded
  refine (fault_bind_add rfl (run_attempt_of (run_connect env w))).trans ?_
  rcases Nat.lt_or_ge k (commands env body w) with hk | hk
  · -- the fault falls into the body, whose exception is caught
    refine (fault_bind_lt commands_attempt hk withFault_attempt).trans ?_
    unfold fault
    cases (withFault redisFault (handle env) body k w).1 <;> rfl
  · -- the fault falls behind the body, where nothing can fail
    obtain ⟨j, rfl⟩ := Nat.exists_eq_add_of_le' hk
    refine (fault_bind_add commands_attempt (run_attempt _ body w)).trans ?_
    have hrun : fault env body (j + commands env body w) w = run (handle env) body w :=
      withFault_of_le hk
    rw [hrun]
    cases (run (handle env) body w).1 <;> rfl

variable {env w} {p : Act α} {fp : Footprint} {k : ℕ}

/-- A method with a fault leaves the keys alone that it does not write. -/
theorem Within.fault_sameAt (hp : Within fp p) (key : Key) (hkey : ¬ fp.keys key) :
    Store.SameAt key (fault env p k w).2.redis w.redis :=
  Issues.withFault_inv (I := fun t : World => Store.SameAt key t.redis w.redis)
    (fun _ hc t ht => (hc.sameAt env t hkey).trans ht) hp (Store.SameAt.refl _ _)

/-- A read-only method with a fault changes nothing but the number of clock readings. -/
theorem Within.fault_readOnly (hp : Within readOnly p) (env : Env) (w : World) (k : ℕ) :
    ∃ n, (fault env p k w).2 = { w with reads := w.reads + n } :=
  (Issues.withFault_inv (I := fun t : World => CacheChange (fun _ => False) w t)
    (fun _ hc _ ht => ht.step env hc) hp (CacheChange.refl _ w)).readOnly

/-- No method turns the clock back. -/
theorem reads_le_fault (env : Env) (p : Act α) (k : ℕ) (w : World) :
    w.reads ≤ (fault env p k w).2.reads :=
  withFault_inv (h := handle env) (I := fun t : World => w.reads ≤ t.reads)
    (fun c t ht => ht.trans (reads_le_run env t (perform c fun _ => .ok ()))) p k le_rfl

theorem fault_returns {P : α → Prop} (hp : Returns P p) (env : Env) (k : ℕ) (w : World) :
    ∃ a t, fault env p k w = (.ok a, t) ∧ P a := hp.withFault

end Frames

namespace RedisCacheService

/-! ## The active id -/

section Active

variable (env : Env) (w : World) {k : ℕ}

/-- `isEndSequence` connects and reads the active id. -/
theorem commands_isEndSequence : commands env isEndSequence w = 2 := by
  unfold isEndSequence
  rw [commands_bind (run_attempt_of (run_connect env w))]
  refine (congrArg (1 + ·) (commands_bind (run_attempt_of (run_get env w _)))).trans ?_
  -- in each branch no further command can fail
  rcases w.redis.strings .activeBidItemId with _ | id
  · rfl
  · by_cases hid : id = .long 0
    · simp only [hid, if_true]
      rfl
    · simp only [hid, if_false]
      rfl

/-- A failing check says that the sequence is not at its end. -/
theorem fault_isEndSequence (hk : k < 2) : fault env isEndSequence k w = (.ok .isFalse, w) := by
  obtain rfl | rfl : k = 0 ∨ k = 1 := by omega
  · rfl
  · rfl

/-- `getActiveBidItemId` connects and reads the active id. -/
theorem commands_getActiveBidItemId : commands env getActiveBidItemId w = 2 := by
  rw [getActiveBidItemId, commands_guarded]
  rw [commands_bind (run_get env w _)]
  cases w.redis.strings .activeBidItemId <;> rfl

/-- Without an answer the active id is `0`. -/
theorem fault_getActiveBidItemId (hk : k < 2) :
    fault env getActiveBidItemId k w = (.ok 0, w) := by
  obtain rfl | rfl : k = 0 ∨ k = 1 := by omega
  · rfl
  · rfl

theorem commands_setActiveBidItemId : commands env setActiveBidItemId w = 3 := rfl

/-- The queue is not popped. -/
theorem fault_setActiveBidItemId_pop (hk : k < 2) :
    fault env setActiveBidItemId k w = (.ok (), w) := by
  obtain rfl | rfl : k = 0 ∨ k = 1 := by omega
  · rfl
  · rfl

/-- The queue is popped, and the active id stays. -/
theorem fault_setActiveBidItemId_set : fault env setActiveBidItemId 2 w =
    (.ok (), { w with redis := w.redis.rpop .bidItemSequenceIds }) := rfl

/-- Whichever command fails, nothing but the queue is written, and that only if it is the last. -/
theorem fault_setActiveBidItemId_lt (hk : k < 3) :
    ∃ r, fault env setActiveBidItemId k w = (.ok (), { w with redis := r }) ∧
      (∀ key, key ≠ .bidItemSequenceIds → Store.SameAt key r w.redis) ∧
      r.lists .bidItemSequenceIds = if k = 2 then
        (w.redis.lists .bidItemSequenceIds).dropLast else w.redis.lists .bidItemSequenceIds := by
  -- at the third command the queue has been popped and the popped id is lost
  by_cases hset : k = 2
  · subst hset
    exact ⟨_, fault_setActiveBidItemId_set env w, fun _ hkey => Store.sameAt_rpop _ hkey,
      Store.lists_rpop _ _⟩
  · rw [if_neg hset]
    exact ⟨_, fault_setActiveBidItemId_pop env w (by omega), fun _ _ => Store.SameAt.refl _ _,
      rfl⟩

end Active

/-! ## Fetching an item -/

/-- The reader takes its text from the hash, and issues no command of its own. -/
def Reads (hash : Attr → Option Text) (r : Reader) (store : BidItem → BidItem) : Prop :=
  r.read (hash r.attr) = pure store

theorem reads_parsed {γ : Type} {hash : Attr → Option Text} {attr : Attr}
    {parse : Option Text → Except Exn γ} {store : γ → BidItem → BidItem} {a : γ}
    (h : parse (hash attr) = .ok a) : Reads hash (parsed attr parse store) (store a) := by
  simp only [Reads, parsed, h]
  rfl

/-- An item after some fields have been stored in it. -/
def storeAll (stores : List (BidItem → BidItem)) (item : BidItem) : BidItem :=
  stores.foldl (fun item store => store item) item

section Fill

variable (env : Env) (w : World) {id : ℤ} {r : Reader} {store : BidItem → BidItem}
  {before after : List Reader} {stores : List (BidItem → BidItem)}

theorem run_readField (hr : Reads (w.redis.hashes (.bidItem id)) r store) :
    run (handle env) (attempt (readField id r)) w = (.ok (.ok store), w) := by
  refine run_attempt_of ((run_bind_ok (run_hget env w _ _)).trans ?_)
  rw [hr]
  rfl

theorem commands_readField (hr : Reads (w.redis.hashes (.bidItem id)) r store) :
    commands env (attempt (readField id r)) w = 1 := by
  rw [commands_attempt, readField, commands_bind (run_hget env w _ _), hr]
  rfl

theorem fault_readField : fault env (attempt (readField id r)) 0 w = (.ok (.error .jedis), w) :=
  rfl

/-- The fields before the one that cannot be read are stored. -/
theorem fault_fillBidItem
    (h : List.Forall₂ (Reads (w.redis.hashes (.bidItem id))) before stores) (item : BidItem)
    {k : ℕ} (hk : k < before.length) :
    fault env (fillBidItem id (before ++ after) item) k w =
      (.ok (storeAll (stores.take k) item), w) := by
  induction h generalizing item k with
  | nil => exact absurd hk (Nat.not_lt_zero k)
  | @cons r store rs stores hr hrs ih =>
    have hone := commands_readField env w hr
    cases k with
    -- this field cannot be read, and the loop ends with the fields so far
    | zero => exact fault_bind_lt hone Nat.one_pos (fault_readField env w)
    | succ k =>
      refine (fault_bind_add hone (run_readField env w hr)).trans ?_
      exact ih (store item) (Nat.lt_of_succ_lt_succ hk)

/-- A fault behind some fields is one in the rest. -/
theorem fault_fillBidItem_after
    (h : List.Forall₂ (Reads (w.redis.hashes (.bidItem id))) before stores) (item : BidItem)
    (k : ℕ) :
    fault env (fillBidItem id (before ++ after) item) (k + before.length) w =
      fault env (fillBidItem id after (storeAll stores item)) k w := by
  induction h generalizing item with
  | nil => rfl
  | @cons r store rs stores hr hrs ih =>
    refine (fault_bind_add (commands_readField env w hr) (run_readField env w hr)).trans ?_
    exact ih (store item)

/-- There is a command for each of the fields. -/
theorem commands_fillBidItem
    (h : List.Forall₂ (Reads (w.redis.hashes (.bidItem id))) before stores) (item : BidItem) :
    before.length ≤ commands env (fillBidItem id (before ++ after) item) w := by
  induction h generalizing item with
  | nil => exact Nat.zero_le _
  | @cons r store rs stores hr hrs ih =>
    have hcommands : commands env (fillBidItem id (r :: rs ++ after) item) w =
        1 + commands env (fillBidItem id (rs ++ after) (store item)) w := by
      refine (commands_bind (run_readField env w hr)).trans ?_
      rw [commands_readField env w hr]
      rfl
    have hrest := ih (store item)
    rw [hcommands, List.length_cons]
    omega

end Fill

/-! ### The fields up to the last update -/

/-- The readers up to that of the last update. -/
def timeReaders : List Reader := bidItemReaders.take 14

/-- What these readers store of a readable hash. -/
def timeStores (hash : Attr → Option Text) : List (BidItem → BidItem) :=
  [ BidItem.setBidItemId (some (valueOr 0 (parseLongOrZero (hash .bidItemId)))),
    BidItem.setName ((hash .name).map Text.render),
    BidItem.setLocation ((hash .location).map Text.render),
    BidItem.setCity ((hash .city).map Text.render),
    BidItem.setZone ((hash .zone).map Text.render),
    BidItem.setMinBidPrice (some (valueOr 0 (parsePriceOrZero (hash .minBidPrice)))),
    BidItem.setMinBidIncrement (some (valueOr 0 (parsePriceOrZero (hash .minBidIncrement)))),
    BidItem.setBidStartTime (valueOr none (parseStartTime (hash .bidStartTime))),
    BidItem.setBidEndTime (valueOr none (parseDateOrNull (hash .bidEndTime))),
    BidItem.setInitialStartTime (some (valueOr 0 (parseLongOrZero (hash .initialStartTime)))),
    BidItem.setTimeExtAfterBid (some (valueOr 0 (parseLongOrZero (hash .timeExtAfterBid)))),
    BidItem.setStatusCode ((hash .statusCode).map Text.render),
    (fun item => item),
    BidItem.setLastUpDateTime (valueOr none (parseDateOrNull (hash .lastUpDateTime))) ]

/-- The first fields of a readable hash are read. -/
theorem reads_timeReaders {hash : Attr → Option Text} (h : Readable hash) :
    List.Forall₂ (Reads hash) timeReaders (timeStores hash) := by
  have hstring : ∀ attr, asString (hash attr) = .ok ((hash attr).map Text.render) :=
    fun _ => rfl
  refine .cons (reads_parsed (eq_ok_valueOr 0 (h .bidItemId))) ?_
  refine .cons (reads_parsed (hstring .name)) ?_
  refine .cons (reads_parsed (hstring .location)) ?_
  refine .cons (reads_parsed (hstring .city)) ?_
  refine .cons (reads_parsed (hstring .zone)) ?_
  refine .cons (reads_parsed (eq_ok_valueOr 0 (h .minBidPrice))) ?_
  refine .cons (reads_parsed (eq_ok_valueOr 0 (h .minBidIncrement))) ?_
  refine .cons (reads_parsed (eq_ok_valueOr none (h .bidStartTime))) ?_
  refine .cons (reads_parsed (eq_ok_valueOr none (h .bidEndTime))) ?_
  refine .cons (reads_parsed (eq_ok_valueOr 0 (h .initialStartTime))) ?_
  refine .cons (reads_parsed (eq_ok_valueOr 0 (h .timeExtAfterBid))) ?_
  refine .cons (reads_parsed (hstring .statusCode)) ?_
  refine .cons (reads_parsed (hstring .winnerId)) ?_
  exact .cons (reads_parsed (eq_ok_valueOr none (h .lastUpDateTime))) .nil

/-! ### The other fields -/

/-- What the time left and the row of a closed item depend on. -/
def timesOf (item : BidItem) : Option ℤ × Option Date × Option Date × Option ℤ :=
  (item.bidItemId, item.bidEndTime, item.lastUpDateTime, item.timeExtAfterBid)

/-- A reader that leaves the times of an item alone. -/
def KeepsTimes (r : Reader) : Prop :=
  ∀ text, Yields (fun store => ∀ item, timesOf (store item) = timesOf item) (r.read text)

/-- A reader that stores no time keeps the times. -/
theorem keepsTimes_parsed {γ : Type} {attr : Attr} {parse : Option Text → Except Exn γ}
    {store : γ → BidItem → BidItem} (h : ∀ a item, timesOf (store a item) = timesOf item) :
    KeepsTimes (parsed attr parse store) := by
  intro text st hst
  cases hparse : parse text with
  | error e => simp [hparse, Except.map] at hst
  | ok a =>
    simp only [hparse, Except.map, Except.ok.injEq] at hst
    exact hst ▸ h a

theorem keepsTimes_category : KeepsTimes categoryReader := by
  intro text
  cases text with
  | none => exact (returns_pure fun _ => rfl).yields
  | some s => exact yields_bind (yields_true _) fun c _ => (returns_pure fun _ => rfl).yields

theorem keepsTimes_readers : ∀ r ∈ bidItemReaders.drop 14, KeepsTimes r := by
  simp only [bidItemReaders, List.drop_succ_cons, List.drop_zero, List.forall_mem_cons,
    List.not_mem_nil, false_imp_iff, implies_true, and_true]
  refine ⟨?_, ?_, ?_, ?_, ?_, ?_, keepsTimes_category, ?_, ?_, ?_, ?_, ?_⟩ <;>
    exact keepsTimes_parsed fun _ _ => rfl

/-- Bidders do not change the times of an item. -/
theorem yields_addCachedBidders (bidItemId : ℤ) (names : List Text) (item : BidItem) :
    Yields (fun item' => timesOf item' = timesOf item)
      (addCachedBidders bidItemId names item) := by
  induction names generalizing item with
  | nil => exact Returns.yields (P := fun item' => timesOf item' = timesOf item) (returns_pure rfl)
  | cons name names ih =>
    refine yields_bind (yields_true _) fun bidder _ => ?_
    cases bidder with
    -- a bidder that could not be fetched is left out
    | none => exact ih item
    | some bidder => exact ih (item.addBidder bidder)

/-- The other fields and the bidders do not change the times of an item, whatever fails. -/
theorem returns_fillBidItem (bidItemId : ℤ) {readers : List Reader}
    (h : ∀ r ∈ readers, KeepsTimes r) (item : BidItem) :
    Returns (fun item' => timesOf item' = timesOf item) (fillBidItem bidItemId readers item) := by
  induction readers generalizing item with
  | nil =>
    exact returns_guarded rfl (yields_bind (yields_true _) fun names _ =>
      yields_addCachedBidders _ names item)
  | cons r rs ih =>
    have hread := yields_bind (yields_true (hget (.bidItem bidItemId) r.attr))
      fun text _ => h r List.mem_cons_self text
    refine returns_bind (returns_attempt hread) fun result hstore => ?_
    cases result with
    | error e => exact returns_pure rfl
    | ok store =>
      rw [← hstore store rfl item]
      exact ih (fun r hr => h r (List.mem_cons_of_mem _ hr)) (store item)

/-! ### The whole fetch -/

section Fetch

variable (env : Env) {w : World} {id : ℤ} {k : ℕ}

theorem commands_bidItemExists (w : World) (id : ℤ) : commands env (bidItemExists id) w = 2 := rfl

/-- An item that cannot be looked up does not exist. -/
theorem fault_bidItemExists (w : World) (id : ℤ) (hk : k < 2) :
    fault env (bidItemExists id) k w = (.ok false, w) := by
  obtain rfl | rfl : k = 0 ∨ k = 1 := by omega
  · rfl
  · rfl

/-- Without a connection the empty item is answered. -/
theorem fault_getBidItem_connect (w : World) (id : ℤ) :
    fault env (getBidItem id) 0 w = (.ok (some BidItem.new), w) := fault_guarded_zero env w _ _

/-- An item that cannot be looked up is not found. -/
theorem fault_getBidItem_exists (w : World) (id : ℤ) (hk : k < 2) :
    fault env (getBidItem id) (k + 1) w = (.ok none, w) := by
  unfold getBidItem
  rw [fault_guarded_succ]
  have hbody : fault env (bidItemExists id >>= fun found => if found then do
      let item ← fillBidItem id bidItemReaders BidItem.new
      pure (some item) else pure none) k w = (.ok none, w) :=
    fault_bind_lt (commands_bidItemExists env w id) hk (fault_bidItemExists env w id hk)
  rw [hbody]
  rfl

/-- The fetch of an item that is not there: connection, look-up with a connection of its own. -/
theorem commands_getBidItem_absent (hmem : .long id ∉ w.redis.sets .bidItems) :
    commands env (getBidItem id) w = 3 := by
  unfold getBidItem
  rw [commands_guarded, commands_bind (run_bidItemExists env w id), decide_eq_false hmem]
  rfl

/-- The first fields that a fetch reads, and the others. -/
theorem bidItemReaders_eq : bidItemReaders = timeReaders ++ bidItemReaders.drop 14 := rfl

/-- A fault behind the look-up is one in the fields. -/
theorem fault_getBidItem_fill (hmem : .long id ∈ w.redis.sets .bidItems) (k : ℕ) :
    fault env (getBidItem id) (k + 3) w =
      (.ok (orDefault (some BidItem.new) ((fault env (fillBidItem id bidItemReaders
          BidItem.new) k w).1.bind fun item => .ok (some item))),
        (fault env (fillBidItem id bidItemReaders BidItem.new) k w).2) := by
  unfold getBidItem
  rw [fault_guarded_succ]
  -- the look-up answers yes, and the fields are read
  have hbody : fault env (bidItemExists id >>= fun found => if found then do
      let item ← fillBidItem id bidItemReaders BidItem.new
      pure (some item) else pure none) (k + 2) w =
      fault env (fillBidItem id bidItemReaders BidItem.new >>= fun item => pure (some item)) k
        w := by
    refine (fault_bind_add (commands_bidItemExists env w id) (run_bidItemExists env w id)).trans ?_
    rw [decide_eq_true hmem]
    rfl
  rw [hbody, fault_map]

variable (hmem : .long id ∈ w.redis.sets .bidItems)
  (hread : Readable (w.redis.hashes (.bidItem id)))

include hmem hread

/-- One of the fields up to the last update cannot be read: the fields before it are there. -/
theorem fault_getBidItem_field (hk : k < 14) :
    fault env (getBidItem id) (k + 3) w = (.ok (some (storeAll
      ((timeStores (w.redis.hashes (.bidItem id))).take k) BidItem.new)), w) := by
  rw [fault_getBidItem_fill env hmem, bidItemReaders_eq,
    fault_fillBidItem env w (reads_timeReaders hread) BidItem.new hk]
  rfl

/-- One of the other fields, the category or a bidder cannot be read: the times are there. -/
theorem fault_getBidItem_late (k : ℕ) :
    ∃ item n, fault env (getBidItem id) (k + 17) w =
      (.ok (some item), { w with reads := w.reads + n }) ∧
      timesOf item = timesOf
        (storeAll (timeStores (w.redis.hashes (.bidItem id))) BidItem.new) := by
  let filled := storeAll (timeStores (w.redis.hashes (.bidItem id))) BidItem.new
  have hreturns := returns_fillBidItem id keepsTimes_readers filled
  obtain ⟨item, t, hfill, htimes⟩ := fault_returns hreturns env k w
  have hreads : Within readOnly (fillBidItem id (bidItemReaders.drop 14) filled) :=
    within_fillBidItem id (fun r hr => within_read r (List.mem_of_mem_drop hr)) _
  obtain ⟨n, hn⟩ := hreads.fault_readOnly env w k
  rw [hfill] at hn
  refine ⟨item, n, ?_, htimes⟩
  -- the fault falls behind the times, which are stored by then
  have hafter : fault env (fillBidItem id bidItemReaders BidItem.new) (k + 14) w = (.ok item, t) :=
    (fault_fillBidItem_after env w (reads_timeReaders hread) BidItem.new k).trans hfill
  rw [fault_getBidItem_fill env hmem (k + 14), hafter, ← hn]
  rfl

/-- The fetch of an item that is there has at least the commands up to its last update. -/
theorem commands_getBidItem : 17 ≤ commands env (getBidItem id) w := by
  have hfill : 14 ≤ commands env (fillBidItem id bidItemReaders BidItem.new) w :=
    commands_fillBidItem env w (reads_timeReaders hread) BidItem.new
  have hrun := (run_fillBidItem env w hread).trans (run_getBidders env w _)
  unfold getBidItem
  rw [commands_guarded, commands_bind (run_bidItemExists env w id), decide_eq_true hmem]
  have hpure : commands env (fillBidItem id bidItemReaders BidItem.new >>= fun item =>
      pure (some item)) w = commands env (fillBidItem id bidItemReaders BidItem.new) w :=
    commands_bind hrun
  have hexists := commands_bidItemExists env w id
  show 17 ≤ commands env (bidItemExists id) w + commands env (fillBidItem id bidItemReaders
    BidItem.new >>= fun item => pure (some item)) w + 1
  rw [hpure, hexists]
  omega

end Fetch

end RedisCacheService

end Bidding.Model
