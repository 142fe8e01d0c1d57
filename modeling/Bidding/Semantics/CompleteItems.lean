import Bidding.Model.Controllers
import Bidding.Semantics.Bidders

/-!
# Items That the Cache Has Completely

An item that was stored once has every field that `setBidItem` writes. Storing it again,
whatever the attributes of the copy are, changes none of them.

## Key Results

- **`complete_of_stored`**: an item that was stored with a start time is complete.
- **`run_setBidItem_complete`**: storing a complete item changes nothing but the sets of items
  of a category.
- **`Complete.entries_readBack`**, **`cachedItem_of_sameItems`**: what is read of it.
- **`sameItem_update`**: neither does a notification about a published bid.
-/

namespace Bidding.Model

open Bidding.Effects Bidding.Effects.Action Bidding.KeyValue Bidding.Collections
open RedisCacheService

/-- Every key and field that `setBidItem` writes for the item is there, and the fields can be
    read. -/
structure Complete (r : Redis) (id : ℤ) : Prop where
  member : .long id ∈ r.sets .bidItems
  readable : Readable (r.hashes (.bidItem id))
  bidItemId : r.hashes (.bidItem id) .bidItemId = some (.long id)
  fields : ∀ item, ∀ cell ∈ bidItemCells item, r.hashes (.bidItem id) cell.1 ≠ none
  bidders : ∀ t ∈ r.sets (.bidders id), ∃ s, t = .str s ∧
    r.hashes (.bidder id t) .bidderName = some t ∧
    r.hashes (.bidder id t) .autoBid ≠ none ∧ r.hashes (.bidder id t) .bidAmount ≠ none
  nodup : (r.sets (.bidders id)).Nodup

/-- The keys of an item and of its bidders. -/
def LotKey (id : ℤ) (k : Key) : Prop := k = .bidItem id ∨ BidderKey id k

/-- Two stores that differ at most in the sets of items of a category. -/
def SameItems (r r' : Redis) : Prop := ∀ k, (∀ c, k ≠ .categoryItems c) → Store.SameAt k r' r

theorem SameItems.refl (r : Redis) : SameItems r r := fun _ _ => Store.SameAt.refl _ _

theorem SameItems.trans {r r' r'' : Redis} (h : SameItems r r') (h' : SameItems r' r'') :
    SameItems r r'' := fun k hk => (h' k hk).trans (h k hk)

section Complete

variable {w : World} {r r' : Redis} {id : ℤ}

/-- Only the keys of the item matter, and that it stays in the set of items. -/
theorem Complete.congr (h : Complete r id) (hmem : .long id ∈ r'.sets .bidItems)
    (hsame : ∀ k, LotKey id k → Store.SameAt k r' r) : Complete r' id := by
  have hhash := (hsame _ (.inl rfl)).hashes
  have hbidders := (hsame _ (.inr (.inl rfl))).sets
  refine ⟨hmem, ?_, ?_, ?_, ?_, ?_⟩
  · rw [hhash]
    exact h.readable
  · rw [hhash]
    exact h.bidItemId
  · rw [hhash]
    exact h.fields
  · intro t ht
    rw [hbidders] at ht
    rw [(hsame _ (.inr (.inr ⟨t, rfl⟩))).hashes]
    exact h.bidders t ht
  · rw [hbidders]
    exact h.nodup

/-- What happens to the sets of items of a category does not matter. -/
theorem Complete.of_sameItems (h : Complete r id) (hsame : SameItems r r') : Complete r' id := by
  apply h.congr
  · rw [(hsame .bidItems (by simp)).sets]
    exact h.member
  · intro k hk
    apply hsame k
    rcases hk with rfl | rfl | ⟨t, rfl⟩ <;> simp

/-- A field that the cache has is not written, whether its text can be printed or not. -/
theorem run_writeCells_complete (env : Env) (cells : List (Attr × Except Exn Text))
    (h : ∀ cell ∈ cells, w.redis.hashes (.bidItem id) cell.1 ≠ none) :
    ∃ result, run (handle env) (forEach cells (writeCell id)) w = (result, w) := by
  induction cells with
  | nil => exact ⟨_, rfl⟩
  | cons cell cells ih =>
    obtain ⟨attr, text⟩ := cell
    cases text with
    -- a text that cannot be printed ends the loop
    | error e => exact ⟨.error e, rfl⟩
    | ok text =>
      have hcell : run (handle env) (writeCell id (attr, .ok text)) w = (.ok (), w) := by
        have hkeep := Store.hsetnx_of_ne_none (h (attr, .ok text) List.mem_cons_self) text
        show (Except.ok (), { w with redis := w.redis.hsetnx (.bidItem id) attr text }) = _
        rw [hkeep]
      obtain ⟨result, hrest⟩ := ih (fun cell hcell => h cell (List.mem_cons_of_mem _ hcell))
      exact ⟨result, (run_bind_ok hcell).trans hrest⟩

/-- Nor is a bidder whom the cache has. -/
theorem Complete.storeBidder (h : Complete r id) {b : Bidder}
    (hb : ∀ t, nameText b = some t → t ∈ r.sets (.bidders id)) : storeBidder id r b = r := by
  unfold RedisCacheService.storeBidder
  cases hname : nameText b with
  | none => rfl
  | some t =>
    have hmem := hb t hname
    obtain ⟨_, -, hfield, hauto, hamount⟩ := h.bidders t hmem
    have hfield' : r.hashes (.bidder id t) .bidderName ≠ none := by simp [hfield]
    simp only [Store.sadd_of_mem hmem, Store.hsetnx_of_ne_none hfield',
      Store.hsetnx_of_ne_none hauto, Store.hsetnx_of_ne_none hamount]

/-- Storing an item that the cache has completely, with no other bidders than those of the
    cache, changes nothing but the sets of items of a category. -/
theorem run_setBidItem_complete (env : Env) (h : Complete w.redis id) {item : BidItem}
    (hbidders : ∀ b ∈ item.currentBiddersList, ∀ t, nameText b = some t →
      t ∈ w.redis.sets (.bidders id)) :
    ∃ r, run (handle env) (setBidItem id item) w = (.ok (), { w with redis := r }) ∧
      SameItems w.redis r := by
  have hsadd : run (handle env) (sadd .bidItems (.long id)) w = (.ok (), w) := by
    rw [run_sadd, Store.sadd_of_mem h.member]
  obtain ⟨result, hcells⟩ := run_writeCells_complete env (bidItemCells item) (h.fields item)
  -- every name is in the set already, so no bidder is written again
  have hstore : ∀ bs : List Bidder, (∀ b ∈ bs, b ∈ item.currentBiddersList) →
      bs.foldl (RedisCacheService.storeBidder id) w.redis = w.redis := by
    intro bs
    induction bs with
    | nil => exact fun _ => rfl
    | cons b bs ih =>
      intro hbs
      rw [List.foldl_cons, h.storeBidder (hbidders b (hbs b List.mem_cons_self))]
      exact ih (fun b' hb' => hbs b' (List.mem_cons_of_mem _ hb'))
  have hset : run (handle env) (setBidders id item) w = (.ok (), w) := by
    rw [run_setBidders, hstore]
    exact fun b hb => (sort_perm compareBidders _).mem_iff.mp hb
  unfold setBidItem
  rw [run_guarded, run_bind_ok hsadd]
  cases result with
  -- storing may stop at a field, but all fields are there already
  | error e =>
    rw [run_bind_error hcells]
    exact ⟨w.redis, rfl, SameItems.refl _⟩
  | ok _ =>
    rw [run_bind_ok hcells, run_bind_ok hset]
    cases item.category with
    | none => exact ⟨w.redis, rfl, SameItems.refl _⟩
    -- the one write left: the item joins the set of its category
    | some c =>
      have hcategory : run (handle env) (setCategory id (some c)) w = (.ok (), { w with
          redis := w.redis.sadd (.categoryItems c.categoryId) (.long id) }) :=
        run_guarded_ok (run_sadd env w _ _)
      rw [hcategory]
      exact ⟨_, rfl, fun k hk => Store.sameAt_sadd _ (hk _) _⟩

/-- With a start time every field has a text. -/
theorem cellText_ne_none {item : BidItem} {d : Date} (hstart : item.bidStartTime = some d)
    (item' : BidItem) : ∀ cell ∈ bidItemCells item', cellText item cell.1 ≠ none := by
  intro cell hcell
  obtain ⟨texts, htexts⟩ := bidItemCells_ok hstart
  -- the fields are the same for every item
  have hattr : cell.1 ∈ (bidItemCells item).map Prod.fst :=
    show cell.1 ∈ (bidItemCells item').map Prod.fst from List.mem_map_of_mem hcell
  rw [htexts, List.map_map, List.mem_map] at hattr
  obtain ⟨c, hc, hattr⟩ := hattr
  have hfound : (texts.find? (fun c => c.1 = cell.1)).isSome := by
    rw [List.find?_isSome]
    exact ⟨c, hc, decide_eq_true hattr⟩
  obtain ⟨c', hc'⟩ := Option.isSome_iff_exists.mp hfound
  rw [cellText_of_texts htexts, hc']
  exact Option.some_ne_none _

/-- An item that was stored with a start time is complete. -/
theorem complete_of_stored {item : BidItem} {bidders : List Bidder} {d : Date}
    (hstored : Stored id item r r') (hbidders : StoredBidders id bidders r r')
    (habsent : Absent r id) (hid : item.bidItemId = some id)
    (hstart : item.bidStartTime = some d) : Complete r' id := by
  -- the item was absent, so every field is the one that was written
  have hhash : ∀ attr, r'.hashes (.bidItem id) attr = cellText item attr := by
    intro attr
    rw [hstored.hash, habsent.hash, Option.none_or]
  refine ⟨?_, ?_, ?_, ?_, ?_, ?_⟩
  · rw [hstored.bidItems]
    exact List.mem_insert_self
  · intro attr
    rw [hhash]
    exact fits_cellText item attr
  · exact (hhash .bidItemId).trans (congrArg (fun n => some (valueOf n)) hid)
  · intro item' cell hcell
    rw [hhash]
    exact cellText_ne_none hstart item' cell hcell
  · intro t ht
    rw [hbidders.members, habsent.bidders] at ht
    obtain ⟨b, hb, hname⟩ : ∃ b ∈ bidders, nameText b = some t := by simpa using ht
    obtain ⟨s, -, rfl⟩ := Option.map_eq_some_iff.mp hname
    -- of several bidders of one name the first one's cells are the ones kept
    obtain ⟨b', hfind⟩ : ∃ b', bidders.find? (fun b => nameText b = some (.str s)) = some b' :=
      Option.isSome_iff_exists.mp (List.find?_isSome.mpr ⟨b, hb, by simpa using hname⟩)
    have hname' : nameText b' = some (.str s) := by simpa using List.find?_some hfind
    have hcell : ∀ attr, r'.hashes (.bidder id (.str s)) attr = bidderCell attr b' := by
      intro attr
      rw [hbidders.hash, habsent.bidder, hfind]
      rfl
    refine ⟨s, rfl, (hcell _).trans hname', ?_, ?_⟩
    · rw [hcell]
      exact Option.some_ne_none _
    · rw [hcell]
      exact Option.some_ne_none _
  · apply hbidders.nodup
    rw [habsent.bidders]
    exact List.nodup_nil

/-- What is read of the bidders, in the order of the server. -/
theorem Complete.entries_readBack (h : Complete r id) (env : Env) (n : ℕ) :
    (readBack env r id n).currentBiddersList.map Bidder.entry =
      (env.order.members (r.sets (.bidders id))).map (fun t => (cachedBidder r id t 0).entry) := by
  have hperm := env.order.members_perm (r.sets (.bidders id))
  have hread := entries_cachedBidders env n [] (hperm.nodup_iff.mpr h.nodup)
    (fun t ht => by
      obtain ⟨s, hs, hname, -⟩ := h.bidders t (hperm.mem_iff.mp ht)
      exact ⟨s, hs, hname⟩)
    (fun b hb => by cases hb)
  exact hread

/-- The bidders that are read are bidders of the cache. -/
theorem Complete.nameText_mem (h : Complete r id) (env : Env) (n : ℕ) {b : Bidder}
    (hb : b ∈ (readBack env r id n).currentBiddersList) {t : Text} (ht : nameText b = some t) :
    t ∈ r.sets (.bidders id) := by
  have hentry := List.mem_map_of_mem (f := Bidder.entry) hb
  rw [h.entries_readBack, List.mem_map] at hentry
  obtain ⟨t', ht', heq⟩ := hentry
  have hmem := (env.order.members_perm _).mem_iff.mp ht'
  obtain ⟨s, rfl, hname, -⟩ := h.bidders t' hmem
  -- the name that was read is the text under which the bidder is kept
  have hread : some s = b.bidderName := by
    have hfst := congrArg Prod.fst heq
    simp only [Bidder.entry, cachedBidder, hname] at hfst
    exact hfst
  rw [nameText, ← hread] at ht
  rwa [← Option.some.inj ht]

end Complete

/-- What is read of an item does not depend on the sets of items of a category. -/
theorem cachedItem_of_sameItems {r r' : Redis} (h : SameItems r r') (id : ℤ) :
    cachedItem r' id = cachedItem r id := by
  have hcategory : ∀ s, cachedCategory r' s = cachedCategory r s := by
    intro s
    simp only [cachedCategory, (h (.category s) (by simp)).hashes]
  simp only [cachedItem, (h (.bidItem id) (by simp)).hashes, funext hcategory]

/-! ## Notifications -/

section Notifications

variable {env : Env} {w w₁ : World} {id : ℤ}

/-- The item is read from the cache. -/
theorem Complete.run_getBidItem (h : Complete w.redis id) (env : Env) :
    run (handle env) (BidItemsCacheService.getBidItem id) w =
      (.ok (some (readBack env w.redis id w.reads)),
        { w with reads := w.reads + bidderCount w.redis id }) :=
  run_bind_ok (run_getBidItem_readBack env w h.member h.readable h.bidItemId)

/-- A notification about an item that was found, and that the cache has completely by then,
    with its bidders. -/
theorem run_update_found {item : BidItem}
    (hget : run (handle env) (BidItemsCacheService.getBidItem id) w = (.ok (some item), w₁))
    (hid : item.bidItemId = some id) (h₁ : Complete w₁.redis id)
    (hbidders : ∀ b ∈ item.currentBiddersList, ∀ t, nameText b = some t →
      t ∈ w₁.redis.sets (.bidders id)) (bidAmount : ℚ) :
    ∃ r n, run (handle env) (BidObserver.update id bidAmount) w =
      (.ok (), { w₁ with redis := r, reads := w₁.reads + n }) ∧ SameItems w₁.redis r := by
  let priced : BidItem := { item with currentMarketPrice := some bidAmount }
  obtain ⟨r, hset, hsame⟩ :=
    run_setBidItem_complete env h₁ (show ∀ b ∈ priced.currentBiddersList, _ from hbidders)
  obtain ⟨item', n, hread⟩ := RedisCacheService.run_getBidItem env { w₁ with redis := r } id
  -- the item is stored again under its own id, with the price in its copy only
  have hstore : run (handle env) (BidItemsCacheService.setBidItem priced) w₁ =
      (.ok (), { w₁ with redis := r, reads := w₁.reads + n }) := by
    have hunbox : run (handle env) (BidItemsCacheService.unbox priced.bidItemId) w₁ =
        (.ok id, w₁) := by
      simp only [BidItemsCacheService.unbox, run_ofExcept, priced, hid]
    unfold BidItemsCacheService.setBidItem
    rw [run_bind_ok hunbox, run_bind_ok hset, run_bind_ok hread]
    rfl
  exact ⟨r, n, run_bind_ok (run_attempt_of ((run_bind_ok hget).trans hstore)), hsame⟩

/-- A notification changes nothing but the sets of items of a category. -/
theorem sameItem_update (h : Complete w.redis id) (env : Env) (bidAmount : ℚ) :
    SameItems w.redis (run (handle env) (BidObserver.update id bidAmount) w).2.redis := by
  have hid : (readBack env w.redis id w.reads).bidItemId = some id :=
    cachedItem_bidItemId h.bidItemId
  obtain ⟨r, n, hupdate, hsame⟩ := run_update_found (h.run_getBidItem env) hid h
    (fun b hb t ht => h.nameText_mem env w.reads hb ht) bidAmount
  rw [hupdate]
  exact hsame

end Notifications

end Bidding.Model
