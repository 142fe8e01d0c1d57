import Bidding.Semantics.CacheReads

/-!
# Writing the Cache

The methods of `RedisCacheService` that write: their footprints, and what they leave in the
keys they write.

## Key Results

- **`run_setActiveBidItemId`**: one pop of the queue into the active id.
- **`run_setExpiredBidItem`**, **`run_setDate_present`**: the writes of a closing and of an
  extension.
- **`run_setBidItem`**: storing an item keeps every field that is there already; keys that
  do not belong to the item hold the same.
- **`run_setBidSequenceList`**: the queue is what the sorted set answers.
-/

namespace Bidding.Model.RedisCacheService

open Bidding.Effects Bidding.Effects.Action Bidding.KeyValue

variable (env : Env) (w : World)

/-! ## The sequence -/

/-- The text that the next pop of the queue makes the active id. -/
def nextActive (r : Redis) : Text := ((r.lists .bidItemSequenceIds).getLast?).getD (.long 0)

/-- An id other than `0` that comes next is the last of the queue. -/
theorem getLast?_of_nextActive {r : Redis} {id : ℤ} (hne : id ≠ 0)
    (hnext : nextActive r = .long id) :
    (r.lists .bidItemSequenceIds).getLast? = some (.long id) := by
  unfold nextActive at hnext
  cases hlast : (r.lists .bidItemSequenceIds).getLast? with
  | none =>
    rw [hlast] at hnext
    exact absurd (Text.long.inj hnext).symm hne
  | some t =>
    rw [hlast] at hnext
    exact congrArg some hnext

/-- The store after a pop of the queue into the active id. -/
def popActive (r : Redis) : Redis :=
  (r.rpop .bidItemSequenceIds).set .activeBidItemId (nextActive r)

theorem sameAt_popActive {k : Key} (r : Redis) (hqueue : k ≠ .bidItemSequenceIds)
    (hactive : k ≠ .activeBidItemId) : Store.SameAt k (popActive r) r :=
  (Store.sameAt_set _ hactive _).trans (Store.sameAt_rpop _ hqueue)

/-- The last id of the queue becomes the active one; without one it is `0`. -/
@[simp] theorem run_setActiveBidItemId :
    run (handle env) setActiveBidItemId w =
      (.ok (), { w with redis := popActive w.redis }) :=
  run_guarded_ok rfl

/-- The store after an item is marked as expired at some time. -/
def expire (r : Redis) (bidItemId : ℤ) (d : Date) : Redis :=
  ((r.sadd .expiredBidItems (.long bidItemId)).hset (.bidItem bidItemId) .statusCode
    (.str "CLOSED")).hset (.bidItem bidItemId) .bidEndTime (Text.format d)

@[simp] theorem run_setExpiredBidItem (bidItemId : ℤ) :
    run (handle env) (setExpiredBidItem bidItemId) w = (.ok (), { w with
      redis := expire w.redis bidItemId (env.clock w.reads)
      reads := w.reads + 1 }) :=
  run_guarded_ok rfl

/-- A date of an item that the cache has is overwritten. -/
theorem run_setDate_present {bidItemId : ℤ} (attr : Attr) (d : Date)
    (hmem : .long bidItemId ∈ w.redis.sets .bidItems) :
    run (handle env) (setDate attr bidItemId d) w = (.ok true, { w with
      redis := w.redis.hset (.bidItem bidItemId) attr (Text.format d) }) := by
  refine run_guarded_ok ?_
  rw [run_bind_ok (run_sismember env w _ _), decide_eq_true hmem]
  rfl

/-! ## Footprints -/

section Footprints

variable {fp : Footprint}

theorem within_set {k : Key} (v : Text) (hk : fp.keys k) : Within fp (set k v) :=
  within_redis (fun _ h => h ▸ hk)

theorem within_sadd {k : Key} (v : Text) (hk : fp.keys k) : Within fp (sadd k v) :=
  within_redis (fun _ h => h ▸ hk)

theorem within_hset {k : Key} (f : Attr) (v : Text) (hk : fp.keys k) : Within fp (hset k f v) :=
  within_redis (fun _ h => h ▸ hk)

theorem within_hsetnx {k : Key} (f : Attr) (v : Text) (hk : fp.keys k) :
    Within fp (hsetnx k f v) :=
  within_redis (fun _ h => h ▸ hk)

theorem within_setBidder {id : ℤ} (bidder : Bidder) (hset : fp.keys (.bidders id))
    (hhash : ∀ name, fp.keys (.bidder id name)) : Within fp (setBidder id bidder) :=
  compositional_within.of_setBidder (fun _ => within_sadd _ hset)
    (fun name _ _ => within_hsetnx _ _ (hhash name)) bidder

theorem within_setCategory {id : ℤ} (c : Option Category)
    (hkey : ∀ c, fp.keys (.categoryItems c)) : Within fp (setCategory id c) :=
  compositional_within.of_setCategory (fun c => within_sadd _ (hkey c)) c

/-- The keys that storing an item writes. -/
def ItemKey (id : ℤ) : Key → Prop
  | .bidItems => True
  | .bidItem i => i = id
  | .bidders i => i = id
  | .bidder i _ => i = id
  | .categoryItems _ => True
  | _ => False

theorem within_writeCell {id : ℤ} (cell : Attr × Except Exn Text)
    (hkey : ∀ k, ItemKey id k → fp.keys k) : Within fp (writeCell id cell) :=
  compositional_within.of_writeCell (fun _ _ => within_hsetnx _ _ (hkey (.bidItem id) rfl)) cell

/-- Storing an item writes keys of that item. -/
theorem within_setBidItem {id : ℤ} (item : BidItem) (hkey : ∀ k, ItemKey id k → fp.keys k) :
    Within fp (setBidItem id item) := by
  apply compositional_within.of_setBidItem
  · exact within_sadd _ (hkey .bidItems trivial)
  · exact fun cell _ => within_writeCell cell hkey
  · exact fun bidder => within_setBidder bidder (hkey (.bidders id) rfl)
      fun name => hkey (.bidder id name) rfl
  · exact fun c => within_setCategory c fun c => hkey (.categoryItems c) trivial

theorem within_setExpiredBidItem {id : ℤ} (hexpired : fp.keys .expiredBidItems)
    (hitem : fp.keys (.bidItem id)) : Within fp (setExpiredBidItem id) :=
  compositional_within.of_setExpiredBidItem (within_sadd _ hexpired) (within_hset _ _ hitem)
    fun _ => within_hset _ _ hitem

theorem within_setDate {id : ℤ} (attr : Attr) (d : Date) (hitem : fp.keys (.bidItem id)) :
    Within fp (setDate attr id d) :=
  compositional_within.of_setDate (within_sismember _ _) (within_hset _ _ hitem)

theorem within_setCategories (l : List Category) (hset : fp.keys .categories)
    (hhash : ∀ s, fp.keys (.category s)) : Within fp (setCategories l) :=
  compositional_within.of_setCategories (fun _ => within_sadd _ hset)
    (fun c _ _ => within_hset _ _ (hhash c)) l

end Footprints

/-! ## Storing an item -/

/-- The text that `setBidItem` has for a field. -/
def cellText (item : BidItem) (attr : Attr) : Option Text :=
  ((bidItemCells item).find? (fun cell => cell.1 = attr)).bind (fun cell => cell.2.toOption)

/-- No field is written twice. -/
theorem nodup_bidItemCells (item : BidItem) : ((bidItemCells item).map Prod.fst).Nodup := by
  show List.Nodup [Attr.bidItemId, .name, .location, .city, .zone, .minBidPrice,
    .minBidIncrement, .bidStartTime, .bidEndTime, .initialStartTime, .timeExtAfterBid,
    .statusCode, .lastUpDateTime, .createdTime, .currentMarketPrice, .isAutoBid, .autobidid,
    .autoBidAmount, .currency, .categoryId, .auctionId, .autoBidderName, .currentAutoBidId,
    .bidSpan, .seqId]
  decide

/-- The attributes of an item have one cell each. -/
theorem cellText_of_mem {item : BidItem} {attr : Attr} {text : Text}
    (h : (attr, .ok text) ∈ bidItemCells item) :
    cellText item attr = some text := by
  unfold cellText
  have hsome : ((bidItemCells item).find? fun cell => cell.1 = attr).isSome := by
    rw [List.find?_isSome]
    exact ⟨_, h, decide_eq_true rfl⟩
  obtain ⟨cell, hcell⟩ := Option.isSome_iff_exists.mp hsome
  have hattr : cell.1 = attr := of_decide_eq_true (List.find?_some hcell :)
  -- no attribute has two cells
  have heq : cell = (attr, .ok text) :=
    List.inj_on_of_nodup_map (nodup_bidItemCells item) (List.mem_of_find?_eq_some hcell) h hattr
  rw [hcell, heq]
  rfl

/-- What storing an item leaves behind: fields that were there stay, and keys that do not
    belong to the item hold the same. -/
structure Stored (id : ℤ) (item : BidItem) (r r' : Redis) : Prop where
  hash : ∀ attr, r'.hashes (.bidItem id) attr =
    (r.hashes (.bidItem id) attr).or (cellText item attr)
  bidItems : r'.sets .bidItems = (r.sets .bidItems).insert (.long id)
  same : ∀ k, ¬ ItemKey id k → Store.SameAt k r' r

/-- With a start time every cell has a text. -/
theorem bidItemCells_ok {item : BidItem} {d : Date} (hstart : item.bidStartTime = some d) :
    ∃ texts : List (Attr × Text),
      bidItemCells item = texts.map (fun c => (c.1, Except.ok c.2)) := by
  unfold bidItemCells
  rw [hstart]
  exact ⟨[(.bidItemId, _), (.name, _), (.location, _), (.city, _), (.zone, _),
    (.minBidPrice, _), (.minBidIncrement, _), (.bidStartTime, _), (.bidEndTime, _),
    (.initialStartTime, _), (.timeExtAfterBid, _), (.statusCode, _), (.lastUpDateTime, _),
    (.createdTime, _), (.currentMarketPrice, _), (.isAutoBid, _), (.autobidid, _),
    (.autoBidAmount, _), (.currency, _), (.categoryId, _), (.auctionId, _),
    (.autoBidderName, _), (.currentAutoBidId, _), (.bidSpan, _), (.seqId, _)], rfl⟩

/-- The text of a field is that of the first cell of the field. -/
theorem cellText_of_texts {item : BidItem} {texts : List (Attr × Text)}
    (htexts : bidItemCells item = texts.map (fun c => (c.1, Except.ok c.2))) (attr : Attr) :
    cellText item attr = (texts.find? (fun c => c.1 = attr)).map Prod.snd := by
  rw [cellText, htexts, List.find?_map]
  simp only [Function.comp_def]
  cases texts.find? (fun c => c.1 = attr) <;> rfl

/-- Cells with texts are written one after the other, those that are there being kept. -/
theorem run_writeCells (id : ℤ) (texts : List (Attr × Text)) :
    run (handle env) (forEach (texts.map (fun c => (c.1, Except.ok c.2))) (writeCell id)) w =
      (.ok (), { w with
        redis := texts.foldl (fun r c => r.hsetnx (.bidItem id) c.1 c.2) w.redis }) := by
  induction texts generalizing w with
  | nil => rfl
  | cons c cs ih => exact ih { w with redis := w.redis.hsetnx (.bidItem id) c.1 c.2 }

theorem run_setBidders_ok (id : ℤ) (item : BidItem) :
    (run (handle env) (setBidders id item) w).1 = .ok () :=
  run_forEach_ok (fun _ _ => by rw [setBidder, run_guarded]) _ w

theorem run_setCategory_ok (id : ℤ) (c : Option Category) :
    (run (handle env) (setCategory id c) w).1 = .ok () := by
  cases c with
  | none => rfl
  | some c => rw [setCategory, run_guarded]

/-- Storing the bidders and the category of an item, after its fields. -/
private theorem run_storeRest (id : ℤ) (item : BidItem) :
    ∃ r n, run (handle env) (do setBidders id item; setCategory id item.category : Act Unit) w =
      (.ok (), { w with redis := r, reads := w.reads + n }) ∧
      (∀ k, ¬ ItemKey id k ∨ k = .bidItem id ∨ k = .bidItems → Store.SameAt k r w.redis) := by
  -- what is written apart from the fields: the bidders and the items of the category
  have hwithin : Within (cacheOnly (fun k => ItemKey id k ∧ k ≠ .bidItem id ∧ k ≠ .bidItems))
      (do setBidders id item; setCategory id item.category : Act Unit) := by
    refine issues_bind (issues_forEach fun b _ => within_setBidder b ?_ fun name => ?_) fun _ =>
      within_setCategory _ fun c => ?_
    · exact ⟨rfl, by simp, by simp⟩
    · exact ⟨rfl, by simp, by simp⟩
    · exact ⟨trivial, by simp, by simp⟩
  obtain ⟨r, n, hrun, hsame⟩ := hwithin.run_cacheOnly env w
  refine ⟨r, n, Prod.ext ?_ hrun, ?_⟩
  · have hbidders : run (handle env) (setBidders id item) w =
        (.ok (), (run (handle env) (setBidders id item) w).2) :=
      Prod.ext (run_setBidders_ok env w id item) rfl
    exact (congrArg Prod.fst (run_bind_ok hbidders)).trans (run_setCategory_ok env _ id _)
  · rintro k (hk | rfl | rfl)
    · exact hsame k (fun h => hk h.1)
    · exact hsame _ (fun h => h.2.1 rfl)
    · exact hsame _ (fun h => h.2.2 rfl)

/-- Storing an item with a start time. -/
theorem run_setBidItem (id : ℤ) {item : BidItem} {d : Date}
    (hstart : item.bidStartTime = some d) :
    ∃ r n, run (handle env) (setBidItem id item) w =
      (.ok (), { w with redis := r, reads := w.reads + n }) ∧ Stored id item w.redis r := by
  obtain ⟨texts, htexts⟩ := bidItemCells_ok hstart
  let r₁ := texts.foldl (fun r c => r.hsetnx (.bidItem id) c.1 c.2)
    (w.redis.sadd .bidItems (.long id))
  -- the bidders and the category leave the fields as they are
  obtain ⟨r, n, hrest, hsame⟩ := run_storeRest env { w with redis := r₁ } id item
  have hrun : run (handle env) (setBidItem id item) w =
      (.ok (), { w with redis := r, reads := w.reads + n }) := by
    refine run_guarded_ok ?_
    rw [run_bind_ok (run_sadd env w _ _), htexts, run_bind_ok (run_writeCells env _ id texts)]
    exact hrest
  refine ⟨r, n, hrun, ?_, ?_, fun k hk => ?_⟩
  · intro attr
    rw [(hsame (.bidItem id) (.inr (.inl rfl))).hashes, Store.hashes_foldl_hsetnx,
      cellText_of_texts htexts]
    rfl
  · rw [(hsame .bidItems (.inr (.inr rfl))).sets,
      (Store.sameAt_foldl_hsetnx _ (by simp) texts).sets, Store.sets_sadd]
  · have hwithin : Within (cacheOnly (ItemKey id)) (setBidItem id item) :=
      within_setBidItem item fun _ h => h
    have hframe := hwithin.sameAt env w (k := k) hk
    rwa [hrun] at hframe

/-! ## Every stored text fits -/

theorem fits_none (attr : Attr) : Fits attr none := by
  cases attr <;> first | trivial | exact ⟨_, rfl⟩

/-- The texts of an item are such that they are read back without an exception. -/
theorem fits_cellText (item : BidItem) (attr : Attr) : Fits attr (cellText item attr) := by
  have hlong : ∀ n : Option ℤ, ∃ m, parseLongOrZero (some (valueOf n)) = .ok m := by
    rintro (_ | n) <;> exact ⟨_, rfl⟩
  -- empty texts and zeros stand for what is missing
  have hlongOr : ∀ (n : Option ℤ) (dflt : Text), dflt = .str "" ∨ dflt = .long 0 →
      ∃ m, parseLongOrZero (some (longOr dflt n)) = .ok m := by
    rintro (_ | n) _ (rfl | rfl) <;> exact ⟨_, rfl⟩
  have hprice : ∀ (q : Option ℚ) (dflt : Text), dflt = .str "" ∨ dflt = .long 0 →
      ∃ p, parsePriceOrZero (some (priceOr dflt q)) = .ok p := by
    rintro (_ | q) _ (rfl | rfl) <;> exact ⟨_, rfl⟩
  have hdate : ∀ d : Option Date, ∃ e, parseDateOrNull (some (dateOrEmpty d)) = .ok e := by
    rintro (_ | d) <;> exact ⟨_, rfl⟩
  cases attr with
  | bidItemId => exact hlong _
  | initialStartTime => exact hlong _
  | auctionId => exact hlong _
  | timeExtAfterBid => exact hlongOr _ _ (.inr rfl)
  | autobidid => exact hlongOr _ _ (.inl rfl)
  | currentAutoBidId => exact hlongOr _ _ (.inl rfl)
  | minBidPrice => exact hprice _ _ (.inr rfl)
  | minBidIncrement => exact hprice _ _ (.inr rfl)
  | currentMarketPrice => exact hprice _ _ (.inl rfl)
  | autoBidAmount => exact hprice _ _ (.inl rfl)
  | bidEndTime => exact hdate _
  | lastUpDateTime => exact hdate _
  | createdTime => exact hdate _
  | bidSpan => exact ⟨_, rfl⟩
  | seqId => exact ⟨_, rfl⟩
  | bidStartTime =>
    show ∃ d, parseStartTime _ = .ok d
    simp only [cellText, bidItemCells]
    cases item.bidStartTime with
    | none => exact ⟨none, rfl⟩
    | some d => exact ⟨some _, rfl⟩
  | _ => trivial

theorem fits_statusCode (t : Text) : Fits .statusCode (some t) := trivial

theorem fits_bidEndTime (d : Date) : Fits .bidEndTime (some (Text.format d)) := ⟨_, rfl⟩

theorem fits_lastUpDateTime (d : Date) : Fits .lastUpDateTime (some (Text.format d)) := ⟨_, rfl⟩

/-- Writing a text that can be read keeps the hash readable. -/
theorem Readable.hset {id : ℤ} {r : Redis} (hread : Readable (r.hashes (.bidItem id)))
    {attr : Attr} {t : Text} (hfits : Fits attr (some t)) :
    Readable ((r.hset (.bidItem id) attr t).hashes (.bidItem id)) := by
  intro attr'
  rw [Store.hashes_hset]
  split
  · rename_i h
    rwa [h]
  · exact hread attr'

theorem Readable.expire {id : ℤ} {r : Redis} (hread : Readable (r.hashes (.bidItem id)))
    (d : Date) : Readable ((expire r id d).hashes (.bidItem id)) :=
  (Readable.hset (r := r.sadd .expiredBidItems (.long id)) hread (fits_statusCode _)).hset
    (fits_bidEndTime d)

/-- An item that is stored can be read. -/
theorem Readable.stored {id : ℤ} {item : BidItem} {r r' : Redis} (h : Stored id item r r')
    (hread : Readable (r.hashes (.bidItem id))) : Readable (r'.hashes (.bidItem id)) := by
  intro attr
  rw [h.hash]
  cases hattr : r.hashes (.bidItem id) attr with
  | none => exact fits_cellText item attr
  -- a field that was there has been kept
  | some t =>
    have hfits := hread attr
    rwa [hattr] at hfits

end Bidding.Model.RedisCacheService
