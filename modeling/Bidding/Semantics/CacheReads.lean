import Bidding.Semantics.Methods

/-!
# Reading the Cache

The methods of `RedisCacheService` that only read: what they answer, from what the cache
holds.

## Key Results

- **`run_getBidItem`**: fetching an item changes nothing but the clock readings.
- **`run_getBidItem_of_readable`**: a cached item whose fields all parse is answered as
  `cachedItem`, up to its bidder list.
- **`run_getBidItem_absent`**: an item that is not in the set of cached items is `null`.
-/

namespace Bidding.Model.RedisCacheService

open Bidding.Effects Bidding.Effects.Action Bidding.KeyValue

variable (env : Env) (w : World)

/-! ## Footprints -/

section Footprints

variable {fp : Footprint}

theorem within_get (k : Key) : Within fp (get k) := within_redis (fun _ h => h.elim)

theorem within_hget (k : Key) (f : Attr) : Within fp (hget k f) :=
  within_redis (fun _ h => h.elim)

theorem within_hgetAll (k : Key) : Within fp (hgetAll k) := within_redis (fun _ h => h.elim)

theorem within_sismember (k : Key) (v : Text) : Within fp (sismember k v) :=
  within_redis (fun _ h => h.elim)

theorem within_smembers (k : Key) : Within fp (smembers k) := within_redis (fun _ h => h.elim)

theorem within_getBidders (bidItemId : ℤ) (item : BidItem) :
    Within fp (getBidders bidItemId item) :=
  compositional_within.of_getBidders (within_smembers _) (fun _ => within_hget _) item

theorem within_bidItemExists (bidItemId : ℤ) : Within fp (bidItemExists bidItemId) :=
  within_unclosed (within_sismember _ _)

/-- Every field of a cached item is read without a write. -/
theorem within_read : ∀ r ∈ bidItemReaders, ∀ s, Within fp (r.read s) :=
  compositional_within.of_read fun _ => within_hget _

theorem within_fillBidItem (bidItemId : ℤ) {readers : List Reader}
    (hreaders : ∀ r ∈ readers, ∀ s, Within fp (r.read s)) (item : BidItem) :
    Within fp (fillBidItem bidItemId readers item) :=
  compositional_within.of_fillBidItem (within_hget _) within_getBidders hreaders item

theorem within_getBidItem (bidItemId : ℤ) : Within fp (getBidItem bidItemId) := by
  refine within_guarded (issues_bind (within_bidItemExists _) fun found => ?_)
  split
  · exact issues_bind (within_fillBidItem _ within_read _) (fun _ => issues_pure _)
  · exact issues_pure _

theorem within_getBidItemSequenceDetails (bidItemId : ℤ) :
    Within fp (getBidItemSequenceDetails bidItemId) :=
  compositional_within.of_getBidItemSequenceDetails (within_hgetAll _)

theorem within_getActiveBidItemId : Within fp getActiveBidItemId :=
  compositional_within.of_getActiveBidItemId (within_get _)

end Footprints

/-! ## The sequence -/

/-- The item on sale as `getActiveBidItemId` reads it. -/
def activeId (r : Redis) : ℤ :=
  match r.strings .activeBidItemId with
  | some (.long n) => n
  | _ => 0

/-- The active id is the text under its key; without one, or if it is no number, `0`. -/
@[simp] theorem run_getActiveBidItemId :
    run (handle env) getActiveBidItemId w = (.ok (activeId w.redis), w) := by
  simp only [getActiveBidItemId, run_guarded, run_bind, run_get, activeId]
  cases w.redis.strings .activeBidItemId with
  | none => rfl
  | some t => cases t <;> rfl

/-- The three answers of `isEndSequence`. -/
def endSequence (r : Redis) : EndSequence :=
  match r.strings .activeBidItemId with
  | none => .null
  | some t => if t = .long 0 then .isTrue else .isFalse

/-- The sequence is over if the active id is `0`. -/
@[simp] theorem run_isEndSequence :
    run (handle env) isEndSequence w = (.ok (endSequence w.redis), w) := by
  simp only [isEndSequence, run_bind, run_attempt, run_connect, run_get, endSequence]
  cases w.redis.strings .activeBidItemId with
  | none => rfl
  | some t =>
    dsimp only
    split <;> rfl

@[simp] theorem run_getBidItemSequenceDetails (bidItemId : ℤ) :
    run (handle env) (getBidItemSequenceDetails bidItemId) w =
      (.ok (some (w.redis.hashes (.bidSequence bidItemId))), w) := by
  simp only [getBidItemSequenceDetails, run_guarded, run_bind, run_hgetAll, run_pure]

@[simp] theorem run_getAuctionId :
    run (handle env) getAuctionId w = (.ok (w.redis.strings .auctionId), w) := by
  simp only [getAuctionId, run_guarded, run_get]

/-! ## Categories and bidders -/

/-- The category that is read for a cached item. -/
def cachedCategory (r : Redis) (s : Text) : Category where
  categoryId := (Text.parseLong (r.hashes (.category s) .categoryId)).toOption
  categoryName := (r.hashes (.category s) .categoryName).map Text.render

@[simp] theorem run_getCategory (s : Text) :
    run (handle env) (getCategory s) w = (.ok (some (cachedCategory w.redis s)), w) := by
  simp only [getCategory, run_guarded, run_bind, run_attempt, run_hget, run_ofExcept,
    cachedCategory]
  cases Text.parseLong (w.redis.hashes (.category s) .categoryId) <;> rfl

/-- The value of an accepted text. -/
def valueOr {α : Type} (dflt : α) : Except Exn α → α
  | .ok a => a
  | .error _ => dflt

/-- The bidder that is read for a name of the cache; its time is that of the new object. -/
def cachedBidder (r : Redis) (bidItemId : ℤ) (name : Text) (time : Date) : Bidder where
  bidderName := (r.hashes (.bidder bidItemId name) .bidderName).map Text.render
  currentBidAmount := valueOr 0 (Text.parseDouble (r.hashes (.bidder bidItemId name) .bidAmount))
  isAutoBid := parseBoolean (r.hashes (.bidder bidItemId name) .autoBid)
  biddingTime := time
  autoBidMaxAnount := none

/-- A missing amount is `0`; another text is parsed. -/
theorem run_getBidAmount (bidItemId : ℤ) (name : Text) :
    ∃ r, run (handle env) (getBidAmount bidItemId name) w = (r, w) ∧ valueOr 0 r =
      valueOr 0 (Text.parseDouble (w.redis.hashes (.bidder bidItemId name) .bidAmount)) := by
  unfold getBidAmount
  rw [run_bind_ok (run_hget env w _ _)]
  cases hamount : w.redis.hashes (.bidder bidItemId name) .bidAmount with
  | none => exact ⟨_, rfl, rfl⟩
  | some t =>
    refine ⟨_, run_bind_ok (run_hget env w _ _), ?_⟩
    rw [hamount]

/-- Fetching a bidder succeeds and reads the clock once. -/
theorem run_getBidder (bidItemId : ℤ) (name : Text) :
    run (handle env) (getBidder bidItemId name) w =
      (.ok (some (cachedBidder w.redis bidItemId name (env.clock w.reads))),
        { w with reads := w.reads + 1 }) := by
  obtain ⟨r, hrun, hr⟩ := run_getBidAmount env { w with reads := w.reads + 1 } bidItemId name
  simp only [getBidder, run_guarded, run_bind, run_now, run_attempt, run_hget, hrun,
    cachedBidder, ← hr]
  cases r with
  | error e => rfl
  | ok amount => rfl

/-- The bidders that are read for a list of names, the first of them at the reading `n`, and
    added to a list of bidders. -/
def cachedBidders (r : Redis) (bidItemId : ℤ) : List Text → ℕ → List Bidder → List Bidder
  | [], _, bidders => bidders
  | name :: names, n, bidders =>
    cachedBidders r bidItemId names (n + 1)
      (putBidder bidders (cachedBidder r bidItemId name (env.clock n)))

/-- The bidders are added in the order of the names, each with the time of its reading. -/
theorem run_addCachedBidders (bidItemId : ℤ) (names : List Text) (item : BidItem) :
    run (handle env) (addCachedBidders bidItemId names item) w =
      (.ok { item with currentBiddersList :=
          cachedBidders env w.redis bidItemId names w.reads item.currentBiddersList },
        { w with reads := w.reads + names.length }) := by
  induction names generalizing item w with
  | nil => rfl
  | cons name names ih =>
    have hrest := ih { w with reads := w.reads + 1 }
      (item.addBidder (cachedBidder w.redis bidItemId name (env.clock w.reads)))
    refine (run_bind_ok (run_getBidder env w bidItemId name)).trans (hrest.trans ?_)
    simp only [BidItem.addBidder, cachedBidders, List.length_cons, Nat.add_assoc, Nat.add_comm 1]

/-- Number of bidders that the cache has for an item. -/
def bidderCount (r : Redis) (bidItemId : ℤ) : ℕ := (r.sets (.bidders bidItemId)).length

/-- The bidder list of an item that is read from the cache at the reading `n`. -/
def cachedBiddersOf (r : Redis) (n : ℕ) (item : BidItem) : List Bidder :=
  cachedBidders env r (item.bidItemId.getD 0)
    (env.order.members (r.sets (.bidders (item.bidItemId.getD 0)))) n item.currentBiddersList

/-- The bidders of an item are added in the server's order. -/
theorem run_getBidders (item : BidItem) :
    run (handle env) (getBidders (item.bidItemId.getD 0) item) w =
      (.ok { item with currentBiddersList := cachedBiddersOf env w.redis w.reads item },
        { w with reads := w.reads + bidderCount w.redis (item.bidItemId.getD 0) }) := by
  refine run_guarded_ok ?_
  rw [run_bind_ok (run_smembers env w _), run_addCachedBidders,
    (env.order.members_perm _).length_eq]
  rfl

/-! ## Items -/

@[simp] theorem run_bidItemExists (bidItemId : ℤ) :
    run (handle env) (bidItemExists bidItemId) w =
      (.ok (decide (.long bidItemId ∈ w.redis.sets .bidItems)), w) := by
  simp only [bidItemExists, run_unclosed, run_sismember]

/-- A text that the reader of a field accepts. Nothing is asked of fields that are taken as
    they are. -/
def Fits (attr : Attr) (s : Option Text) : Prop :=
  match attr with
  | .bidItemId | .initialStartTime | .timeExtAfterBid | .autobidid | .auctionId
  | .currentAutoBidId | .bidSpan | .seqId => ∃ n, parseLongOrZero s = .ok n
  | .minBidPrice | .minBidIncrement | .currentMarketPrice | .autoBidAmount =>
    ∃ q, parsePriceOrZero s = .ok q
  | .bidStartTime => ∃ d, parseStartTime s = .ok d
  | .bidEndTime | .lastUpDateTime | .createdTime => ∃ d, parseDateOrNull s = .ok d
  | _ => True

/-- A hash that can be read as an item without an exception. -/
def Readable (hash : Attr → Option Text) : Prop := ∀ attr, Fits attr (hash attr)

theorem eq_ok_valueOr {α : Type} (dflt : α) {r : Except Exn α} (h : ∃ a, r = .ok a) :
    r = .ok (valueOr dflt r) := by
  obtain ⟨a, rfl⟩ := h
  rfl

/-- The item that a readable hash stands for, without its bidders. -/
def cachedItem (r : Redis) (bidItemId : ℤ) : BidItem :=
  let h := r.hashes (.bidItem bidItemId)
  let long (attr : Attr) : ℤ := valueOr 0 (parseLongOrZero (h attr))
  let price (attr : Attr) : ℚ := valueOr 0 (parsePriceOrZero (h attr))
  let date (attr : Attr) : Option Date := valueOr none (parseDateOrNull (h attr))
  let string (attr : Attr) : Option String := (h attr).map Text.render
  { bidItemId := some (long .bidItemId)
    name := string .name
    location := string .location
    city := string .city
    zone := string .zone
    minBidPrice := some (price .minBidPrice)
    minBidIncrement := some (price .minBidIncrement)
    bidStartTime := valueOr none (parseStartTime (h .bidStartTime))
    bidEndTime := date .bidEndTime
    initialStartTime := some (long .initialStartTime)
    timeExtAfterBid := some (long .timeExtAfterBid)
    statusCode := string .statusCode
    lastUpDateTime := date .lastUpDateTime
    createdTime := date .createdTime
    currentMarketPrice := some (price .currentMarketPrice)
    currency := string .currency
    autobidid := some (long .autobidid)
    category := (h .categoryId).map (cachedCategory r)
    auctionId := some (long .auctionId)
    autoBidderName := string .autoBidderName
    currentAutoBidId := some (long .currentAutoBidId)
    isProcessed := none
    bidderName := none
    autoBidFlag := !Text.isBlank (h .isAutoBid)
    amountAutoBid := some (price .autoBidAmount)
    currentBiddersList := []
    bidSpan := long .bidSpan
    seqId := long .seqId
    timeLeft := 0
    status := none }

theorem cachedItem_bidItemId {r : Redis} {id : ℤ}
    (h : r.hashes (.bidItem id) .bidItemId = some (.long id)) :
    (cachedItem r id).bidItemId = some id := by
  simp only [cachedItem, h]
  rfl

section Fill

variable {env w} {id : ℤ} {rs : List Reader} {item : BidItem} {attr : Attr}

/-- A field that can be read is filled in, and the next one is read. -/
theorem run_fill_cons {r : Reader} {store : BidItem → BidItem}
    (hr : run (handle env) (r.read (w.redis.hashes (.bidItem id) r.attr)) w = (.ok store, w)) :
    run (handle env) (fillBidItem id (r :: rs) item) w =
      run (handle env) (fillBidItem id rs (store item)) w := by
  have hread : run (handle env) (readField id r) w = (.ok store, w) :=
    (run_bind_ok (run_hget env w _ _)).trans hr
  exact run_bind_ok (run_attempt_of hread)

/-- One field of a readable hash. -/
theorem run_fill_parsed {α : Type} (dflt : α) {parse : Option Text → Except Exn α}
    {store : α → BidItem → BidItem}
    (hfit : ∃ a, parse (w.redis.hashes (.bidItem id) attr) = .ok a) :
    run (handle env) (fillBidItem id (parsed attr parse store :: rs) item) w =
      run (handle env) (fillBidItem id rs
        (store (valueOr dflt (parse (w.redis.hashes (.bidItem id) attr))) item)) w := by
  refine run_fill_cons ?_
  simp only [parsed, run_ofExcept, Prod.mk.injEq, and_true]
  rw [eq_ok_valueOr dflt hfit]
  rfl

end Fill

/-- A readable hash is read field by field into `cachedItem`. -/
theorem run_fillBidItem {id : ℤ} (hread : Readable (w.redis.hashes (.bidItem id))) :
    run (handle env) (fillBidItem id bidItemReaders BidItem.new) w =
      run (handle env) (getBidders ((cachedItem w.redis id).bidItemId.getD 0)
        (cachedItem w.redis id)) w := by
  have hstring : ∀ attr, ∃ s, asString (w.redis.hashes (.bidItem id) attr) = .ok s :=
    fun _ => ⟨_, rfl⟩
  unfold bidItemReaders
  rw [run_fill_parsed 0 (hread .bidItemId), run_fill_parsed none (hstring .name),
    run_fill_parsed none (hstring .location), run_fill_parsed none (hstring .city),
    run_fill_parsed none (hstring .zone), run_fill_parsed 0 (hread .minBidPrice),
    run_fill_parsed 0 (hread .minBidIncrement), run_fill_parsed none (hread .bidStartTime),
    run_fill_parsed none (hread .bidEndTime), run_fill_parsed 0 (hread .initialStartTime),
    run_fill_parsed 0 (hread .timeExtAfterBid), run_fill_parsed none (hstring .statusCode),
    run_fill_parsed none (hstring .winnerId), run_fill_parsed none (hread .lastUpDateTime),
    run_fill_parsed none (hread .createdTime), run_fill_parsed 0 (hread .currentMarketPrice),
    run_fill_parsed false ⟨_, rfl⟩, run_fill_parsed 0 (hread .autobidid),
    run_fill_parsed 0 (hread .autoBidAmount), run_fill_parsed none (hstring .currency)]
  -- the category is a hash of its own
  have hcategory : run (handle env)
      (categoryReader.read (w.redis.hashes (.bidItem id) categoryReader.attr)) w =
      (.ok (BidItem.setCategory
        ((w.redis.hashes (.bidItem id) .categoryId).map (cachedCategory w.redis))), w) := by
    simp only [categoryReader]
    cases w.redis.hashes (.bidItem id) .categoryId with
    | none => rfl
    | some s => exact run_bind_ok (run_getCategory env w s)
  rw [run_fill_cons hcategory, run_fill_parsed 0 (hread .auctionId),
    run_fill_parsed none (hstring .autoBidderName), run_fill_parsed 0 (hread .currentAutoBidId),
    run_fill_parsed 0 (hread .bidSpan), run_fill_parsed 0 (hread .seqId)]
  rfl

/-- Fetching an item returns normally and changes nothing but the clock readings. -/
theorem run_getBidItem (id : ℤ) :
    ∃ item n, run (handle env) (getBidItem id) w =
      (.ok item, { w with reads := w.reads + n }) := by
  have hread : Within readOnly (getBidItem id) := within_getBidItem id
  obtain ⟨n, hn⟩ := hread.run_readOnly env w
  obtain ⟨item, hitem⟩ := run_guarded_returns env w (some BidItem.new) _
  exact ⟨item, n, Prod.ext hitem hn⟩

/-- A cached item whose fields all parse is answered as `cachedItem`, with the bidders of the
    cache. -/
theorem run_getBidItem_bidders (id : ℤ) (hmem : .long id ∈ w.redis.sets .bidItems)
    (hread : Readable (w.redis.hashes (.bidItem id))) :
    run (handle env) (getBidItem id) w =
      (.ok (some { cachedItem w.redis id with
          currentBiddersList := cachedBiddersOf env w.redis w.reads (cachedItem w.redis id) }),
        { w with reads := w.reads +
          bidderCount w.redis ((cachedItem w.redis id).bidItemId.getD 0) }) := by
  refine run_guarded_ok ?_
  rw [run_bind_ok (run_bidItemExists env w id), decide_eq_true hmem]
  exact run_bind_ok ((run_fillBidItem env w hread).trans (run_getBidders env w _))

/-- A cached item whose fields all parse is answered as `cachedItem`, up to its bidders. -/
theorem run_getBidItem_of_readable (id : ℤ) (hmem : .long id ∈ w.redis.sets .bidItems)
    (hread : Readable (w.redis.hashes (.bidItem id))) :
    ∃ bidders, run (handle env) (getBidItem id) w =
      (.ok (some { cachedItem w.redis id with currentBiddersList := bidders }),
        { w with reads := w.reads +
          bidderCount w.redis ((cachedItem w.redis id).bidItemId.getD 0) }) :=
  ⟨_, run_getBidItem_bidders env w id hmem hread⟩

/-- An item that the cache has is not `null`. -/
theorem run_getBidItem_present {id : ℤ} (hmem : .long id ∈ w.redis.sets .bidItems) :
    ∃ item n, run (handle env) (getBidItem id) w =
      (.ok (some item), { w with reads := w.reads + n }) := by
  obtain ⟨item, hitem⟩ : ∃ item, (run (handle env) (getBidItem id) w).1 = .ok (some item) := by
    unfold getBidItem
    rw [run_guarded, run_bind_ok (run_bidItemExists env w id), decide_eq_true hmem]
    simp only [if_true, run_bind]
    -- an exception while the fields are read still returns the item
    rcases run (handle env) (fillBidItem id bidItemReaders BidItem.new) w with ⟨e | item, t⟩
    · exact ⟨_, rfl⟩
    · exact ⟨_, rfl⟩
  obtain ⟨found, n, hget⟩ := run_getBidItem env w id
  rw [hget] at hitem
  cases hitem
  exact ⟨item, n, hget⟩

/-- An item that the cache does not have is `null`. -/
theorem run_getBidItem_absent {id : ℤ} (hmem : .long id ∉ w.redis.sets .bidItems) :
    run (handle env) (getBidItem id) w = (.ok none, w) := by
  refine run_guarded_ok ?_
  rw [run_bind_ok (run_bidItemExists env w id), decide_eq_false hmem]
  rfl

end Bidding.Model.RedisCacheService
