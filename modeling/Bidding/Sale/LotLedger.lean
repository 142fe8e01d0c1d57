import Bidding.Sale.Requests
import Bidding.Semantics.CompleteItems

/-!
# The Lots of the Cache

An invariant of the cache that does not depend on which sequence is sold, or on bids and page
views keeping away from lots that wait: no id is queued twice, a lot that is active or closed
does not wait any more, and an item is in the cache with all of its keys or with none. With
it, what a step can do to a lot that was closed.

## Architecture

- **`Tidy r s`**: the invariant at the second `s`.
- **`ItemChange id r r'`**: a change of one item; it keeps the invariant if the item is whole
  afterwards (`Tidy.itemChange`).
- **`Tidy.pop`**, **`Tidy.close`**: the two moves of the scheduler.
- **`Progress env x w w'`**: from a sound world to a sound world that has the same about the lot
  `x`, if that was closed.
-/

namespace Bidding.Model

open Bidding.Effects Bidding.Effects.Action Bidding.KeyValue
open RedisCacheService BidItemsCacheService

/-! ## The invariant -/

/-- The times of an item on offer: the end leaves room for the extension, or the last update is
    not after `s`. -/
def Settled (r : Redis) (id s : ℤ) : Prop :=
  ∃ E U X, CachedTimes r id E U X ∧ (U + X ≤ E ∨ U ≤ s)

/-- The times of an item that was closed at `s` or before. -/
def ClosedBy (r : Redis) (id s : ℤ) : Prop :=
  ∃ E U X, CachedTimes r id E U X ∧ U + X ≤ E ∧ E ≤ s

/-- The cache has all keys of an item, or none. -/
structure Whole (r : Redis) (id s : ℤ) : Prop where
  complete : .long id ∈ r.sets .bidItems → Complete r id
  settled : .long id ∈ r.sets .bidItems → Settled r id s
  absent : .long id ∉ r.sets .bidItems → Absent r id

/-- The lots of the cache at the second `s`. -/
structure Tidy (r : Redis) (s : ℤ) : Prop where
  queue : (r.lists .bidItemSequenceIds).Nodup
  zero : .long 0 ∉ r.sets .bidItems
  active : ∀ id ≠ 0, r.strings .activeBidItemId = some (.long id) →
    .long id ∉ r.lists .bidItemSequenceIds ∧ .long id ∉ r.sets .expiredBidItems
  expired : ∀ id ≠ 0, .long id ∈ r.sets .expiredBidItems →
    .long id ∉ r.lists .bidItemSequenceIds ∧ .long id ∈ r.sets .bidItems
  whole : ∀ id ≠ 0, Whole r id s

section Whole

variable {r r' : Redis} {id s s' : ℤ}

theorem Settled.congr (h : Settled r id s) (hsame : Store.SameAt (.bidItem id) r' r)
    (hs : s ≤ s') : Settled r' id s' := by
  obtain ⟨E, U, X, htimes, hlate⟩ := h
  exact ⟨E, U, X, htimes.of_sameAt hsame, hlate.imp_right fun hU => hU.trans hs⟩

theorem ClosedBy.congr (h : ClosedBy r id s) (hsame : Store.SameAt (.bidItem id) r' r)
    (hs : s ≤ s') : ClosedBy r' id s' := by
  obtain ⟨E, U, X, htimes, hroom, hE⟩ := h
  exact ⟨E, U, X, htimes.of_sameAt hsame, hroom, hE.trans hs⟩

/-- An item stays absent while its keys are left alone. -/
theorem RedisCacheService.Absent.congr (h : Absent r id)
    (hsame : ∀ k, LotKey id k → Store.SameAt k r' r) :
    Absent r' id where
  hash := by
    rw [(hsame _ (.inl rfl)).hashes]
    exact h.hash
  bidders := by
    rw [(hsame _ (.inr (.inl rfl))).sets]
    exact h.bidders
  bidder t := by
    rw [(hsame _ (.inr (.inr ⟨t, rfl⟩))).hashes]
    exact h.bidder t

/-- Only the keys of the item matter, and whether it is in the set of items. -/
theorem Whole.congr (h : Whole r id s) (hsame : ∀ k, LotKey id k → Store.SameAt k r' r)
    (hmem : .long id ∈ r'.sets .bidItems ↔ .long id ∈ r.sets .bidItems) (hs : s ≤ s') :
    Whole r' id s' where
  complete h' := (h.complete (hmem.mp h')).congr h' hsame
  settled h' := (h.settled (hmem.mp h')).congr (hsame _ (.inl rfl)) hs
  absent h' := (h.absent fun hold => h' (hmem.mpr hold)).congr hsame

/-- An item of the cache can be read, with its times. -/
theorem Whole.cached (h : Whole r id s) (hmem : .long id ∈ r.sets .bidItems) : Cached r id := by
  obtain ⟨E, U, X, htimes, -⟩ := h.settled hmem
  have hcomplete := h.complete hmem
  exact ⟨hmem, hcomplete.readable, hcomplete.bidItemId, E, U, X, htimes⟩

end Whole

/-! ## Changes of one item -/

/-- A change of one item leaves the queue, the active id, the closed lots and the other items
    alone. -/
structure ItemChange (id : ℤ) (r r' : Redis) : Prop where
  queue : Store.SameAt .bidItemSequenceIds r' r
  active : Store.SameAt .activeBidItemId r' r
  expired : Store.SameAt .expiredBidItems r' r
  kept : ∀ t ∈ r.sets .bidItems, t ∈ r'.sets .bidItems
  added : ∀ t ∈ r'.sets .bidItems, t ∈ r.sets .bidItems ∨ (t = .long id ∧ id ≠ 0)
  others : ∀ id' ≠ id, ∀ k, LotKey id' k → Store.SameAt k r' r

theorem ItemChange.refl (id : ℤ) (r : Redis) : ItemChange id r r :=
  ⟨Store.SameAt.refl _ _, Store.SameAt.refl _ _, Store.SameAt.refl _ _, fun _ h => h,
    fun _ h => .inl h, fun _ _ _ _ => Store.SameAt.refl _ _⟩

/-- A change of the keys that belong to the bids on an item. -/
theorem ItemChange.of_engineKeys {id : ℤ} {r r' : Redis}
    (hsame : ∀ k, ¬ EngineKey id k → Store.SameAt k r' r) : ItemChange id r r' where
  queue := hsame _ fun h => h
  active := hsame _ fun h => h
  expired := hsame _ fun h => h
  kept t ht := by
    rw [(hsame .bidItems fun h => h).sets]
    exact ht
  added t ht := by
    rw [(hsame .bidItems fun h => h).sets] at ht
    exact .inl ht
  others id' hne k hk := by
    apply hsame k
    rcases hk with rfl | rfl | ⟨t, rfl⟩ <;> exact hne

/-- A write that keeps to an item is a change of it. -/
theorem OnlyItem.itemChange {id : ℤ} {w w' : World} (h : OnlyItem id w w') :
    ItemChange id w.redis w'.redis where
  queue := h.saleKey trivial
  active := h.saleKey trivial
  expired := h.saleKey trivial
  kept := h.kept
  added := h.added
  others id' hne k hk := by
    apply h.same k
    · rcases hk with rfl | rfl | ⟨t, rfl⟩ <;> exact hne
    · rcases hk with rfl | rfl | ⟨t, rfl⟩ <;> exact hne

section Tidy

variable {r r' : Redis} {id s s' : ℤ}

/-- A change of one item keeps the lots tidy if the item is whole afterwards. -/
theorem Tidy.itemChange (h : Tidy r s) (hc : ItemChange id r r') (hs : s ≤ s')
    (hid : id ≠ 0 → Whole r' id s') : Tidy r' s' where
  queue := hc.queue.lists ▸ h.queue
  zero hmem := (hc.added _ hmem).elim h.zero fun hnew => hnew.2 (Text.long.inj hnew.1).symm
  active id' hne hactive := by
    rw [hc.queue.lists, hc.expired.sets]
    rw [hc.active.strings] at hactive
    exact h.active id' hne hactive
  expired id' hne hclosed := by
    rw [hc.expired.sets] at hclosed
    rw [hc.queue.lists]
    exact (h.expired id' hne hclosed).imp_right (hc.kept _)
  whole id' hne := by
    -- the other items keep all their keys
    by_cases heq : id' = id
    · subst heq
      exact hid hne
    · apply (h.whole id' hne).congr (hc.others id' heq) _ hs
      constructor
      · intro hmem
        exact (hc.added _ hmem).resolve_right fun hnew => heq (Text.long.inj hnew.1)
      · exact hc.kept _

/-- Time passes. -/
theorem Tidy.mono (h : Tidy r s) (hs : s ≤ s') : Tidy r s' :=
  h.itemChange (ItemChange.refl 0 r) hs fun hne => absurd rfl hne

/-- The next lot becomes active. -/
theorem Tidy.pop (h : Tidy r s) : Tidy (popActive r) s := by
  have hsame : ∀ k, k ≠ .bidItemSequenceIds → k ≠ .activeBidItemId →
      Store.SameAt k (popActive r) r := fun k => sameAt_popActive r
  have hqueue : (popActive r).lists .bidItemSequenceIds =
      (r.lists .bidItemSequenceIds).dropLast := by
    rw [popActive, (Store.sameAt_set _ (by simp) _).lists, Store.lists_rpop]
  have hitems := (hsame .bidItems (by simp) (by simp)).sets
  have hexpired := (hsame .expiredBidItems (by simp) (by simp)).sets
  refine ⟨?_, ?_, ?_, ?_, ?_⟩
  · rw [hqueue]
    exact h.queue.sublist (List.dropLast_sublist _)
  · rw [hitems]
    exact h.zero
  · intro id hne hactive
    have hnext : nextActive r = .long id := by
      rw [popActive, Store.strings_set] at hactive
      exact Option.some.inj hactive
    have hlast := getLast?_of_nextActive hne hnext
    have hsplit := List.dropLast_append_getLast? _ hlast
    have hmem : .long id ∈ r.lists .bidItemSequenceIds := List.mem_of_getLast? hlast
    rw [hqueue, hexpired]
    -- the queue has no id twice, so the popped one is not in it any more
    refine ⟨fun hin => ?_, fun hin => (h.expired id hne hin).1 hmem⟩
    have hnodup := h.queue
    rw [← hsplit, List.nodup_append] at hnodup
    exact hnodup.2.2 _ hin _ List.mem_cons_self rfl
  · intro id hne hclosed
    rw [hexpired] at hclosed
    rw [hqueue, hitems]
    exact (h.expired id hne hclosed).imp_left fun hout hin => hout (List.dropLast_subset _ hin)
  · -- the pop does not write the keys of an item
    intro id hne
    apply (h.whole id hne).congr _ (by rw [hitems]) le_rfl
    intro k hk
    apply hsame
    · rcases hk with rfl | rfl | ⟨t, rfl⟩ <;> simp
    · rcases hk with rfl | rfl | ⟨t, rfl⟩ <;> simp

/-- Setting the status or a date of a complete item keeps it complete. -/
theorem Complete.hset (h : Complete r id) {attr : Attr} {t : Text} (hid : attr ≠ .bidItemId)
    (hfits : Fits attr (some t)) : Complete (r.hset (.bidItem id) attr t) id where
  member := h.member
  readable := h.readable.hset hfits
  bidItemId := by
    rw [Store.hashes_hset, if_neg hid.symm]
    exact h.bidItemId
  fields item cell hcell := by
    rw [Store.hashes_hset]
    split
    · exact Option.some_ne_none _
    · exact h.fields item cell hcell
  bidders name hname := by
    have hsame : Store.SameAt (.bidder id name) (r.hset (.bidItem id) attr t) r :=
      Store.sameAt_hset _ (by simp) _ _
    rw [hsame.hashes]
    exact h.bidders name hname
  nodup := h.nodup

/-- A complete item stays complete when it is closed. -/
theorem Complete.closed (h : Complete r id) (d : Date) : Complete (expire r id d) id := by
  have hadd : Complete (r.sadd .expiredBidItems (.long id)) id := by
    apply Complete.congr h
    · rw [(Store.sameAt_sadd r (by simp) _).sets]
      exact h.member
    · intro k hk
      apply Store.sameAt_sadd
      rcases hk with rfl | rfl | ⟨t, rfl⟩ <;> simp
  exact (hadd.hset (by simp) (fits_statusCode _)).hset (by simp) (fits_bidEndTime d)

/-- Closing an item adds it to the expired ones. -/
theorem mem_expired_expire {t : Text} {d : Date} :
    t ∈ (expire r id d).sets .expiredBidItems ↔
      t = .long id ∨ t ∈ r.sets .expiredBidItems := by
  have hsets : (expire r id d).sets .expiredBidItems =
      (r.sets .expiredBidItems).insert (.long id) :=
    Store.sets_sadd r .expiredBidItems (.long id)
  rw [hsets, List.mem_insert_iff]

theorem cachedTimes_expire {E U X : ℤ} (h : CachedTimes r id E U X) (d : Date) :
    CachedTimes (expire r id d) id (secondOf d) U X where
  bidEndTime := by simp [expire, Text.format]
  lastUpDateTime := by simpa [expire, Store.sadd] using h.lastUpDateTime
  timeExtAfterBid := by simpa [expire, Store.sadd] using h.timeExtAfterBid

/-- The other lots have the same keys after a closing. -/
theorem lotKey_expire {id' : ℤ} (hne : id' ≠ id) (d : Date) {k : Key} (hk : LotKey id' k) :
    Store.SameAt k (expire r id d) r := by
  apply sameAt_expire
  · rcases hk with rfl | rfl | ⟨t, rfl⟩ <;> simp
  · rcases hk with rfl | rfl | ⟨t, rfl⟩ <;> simp [hne]

/-- A lot that can be closed at the second `s`: the cache has it, it does not wait, is not active
    any more and was not closed before, and there is room for the extension after its last
    update. -/
structure Leaving (r : Redis) (id s : ℤ) : Prop where
  member : .long id ∈ r.sets .bidItems
  queue : .long id ∉ r.lists .bidItemSequenceIds
  active : r.strings .activeBidItemId ≠ some (.long id)
  expired : .long id ∉ r.sets .expiredBidItems
  times : ∀ E U X, CachedTimes r id E U X → U + X ≤ s

/-- A lot that leaves is closed. -/
theorem Tidy.close (h : Tidy r s) (d : Date) (hleaving : id ≠ 0 → Leaving r id (secondOf d)) :
    Tidy (expire r id d) s := by
  have hsame : ∀ k, k ≠ .expiredBidItems → k ≠ .bidItem id →
      Store.SameAt k (expire r id d) r := fun k he hi => sameAt_expire he hi d
  have hitems := (hsame .bidItems (by simp) (by simp)).sets
  have hqueue := (hsame .bidItemSequenceIds (by simp) (by simp)).lists
  have hactive := (hsame .activeBidItemId (by simp) (by simp)).strings
  refine ⟨?_, ?_, ?_, ?_, ?_⟩
  · rw [hqueue]
    exact h.queue
  · rw [hitems]
    exact h.zero
  · intro id' hne hid'
    rw [hactive] at hid'
    rw [hqueue, mem_expired_expire]
    obtain ⟨hout, hopen⟩ := h.active id' hne hid'
    refine ⟨hout, fun hclosed => ?_⟩
    rcases hclosed with heq | hclosed
    -- the id being closed has left the active key before
    · rw [heq] at hid'
      exact (hleaving (Text.long.inj heq ▸ hne)).active hid'
    · exact hopen hclosed
  · -- a closed id has left the queue, and the others were closed before
    intro id' hne hclosed
    rw [hqueue, hitems]
    rcases mem_expired_expire.mp hclosed with heq | hclosed
    · rw [heq]
      have hid := hleaving (Text.long.inj heq ▸ hne)
      exact ⟨hid.queue, hid.member⟩
    · exact h.expired id' hne hclosed
  · intro id' hne
    by_cases hid : id' = id
    -- only the closed lot's own hash changes, and of its times only the end
    · subst hid
      have hmem := (hleaving hne).member
      obtain ⟨E, U, X, hold, -⟩ := (h.whole id' hne).settled hmem
      refine ⟨fun _ => ((h.whole id' hne).complete hmem).closed d, fun _ => ?_, fun hout => ?_⟩
      · exact ⟨_, U, X, cachedTimes_expire hold d, .inl ((hleaving hne).times E U X hold)⟩
      · rw [hitems] at hout
        exact absurd hmem hout
    · exact (h.whole id' hne).congr (fun _ => lotKey_expire hid d) (by rw [hitems]) le_rfl

end Tidy

/-! ## Steps and a lot that was closed -/

/-- The second of the next clock reading. -/
def Env.floor (env : Env) (w : World) : ℤ := secondOf (env.clock w.reads)

theorem secondOf_mono {d d' : Date} (h : d ≤ d') : secondOf d ≤ secondOf d' :=
  Int.ediv_le_ediv (by decide) h

theorem Env.floor_mono (env : Env) {w w' : World} (h : w.reads ≤ w'.reads) :
    env.floor w ≤ env.floor w' := secondOf_mono (env.clock_mono h)

/-- The lots are tidy, and the lot `x`, if it is closed, was closed in the past. -/
structure Sound (env : Env) (x : ℤ) (w : World) : Prop where
  tidy : Tidy w.redis (env.floor w)
  closed : .long x ∈ w.redis.sets .expiredBidItems → ClosedBy w.redis x (env.floor w)

/-- A lot that is closed stays closed, and nothing about it changes. -/
structure Spared (x : ℤ) (r r' : Redis) : Prop where
  expired : .long x ∈ r.sets .expiredBidItems → .long x ∈ r'.sets .expiredBidItems
  same : .long x ∈ r.sets .expiredBidItems → ∀ k, LotKey x k → Store.SameAt k r' r

theorem Spared.trans {x : ℤ} {r r' r'' : Redis} (h : Spared x r r') (h' : Spared x r' r'') :
    Spared x r r'' where
  expired hx := h'.expired (h.expired hx)
  same hx k hk := (h'.same (h.expired hx) k hk).trans (h.same hx k hk)

/-- A step from a sound world: the world is sound again, and the lot `x` is spared if it was
    closed. -/
def Progress (env : Env) (x : ℤ) (w w' : World) : Prop :=
  Sound env x w → Sound env x w' ∧ Spared x w.redis w'.redis

namespace Progress

variable {env : Env} {x : ℤ} {w w' w'' : World}

theorem trans (h : Progress env x w w') (h' : Progress env x w' w'') : Progress env x w w'' := by
  intro hw
  obtain ⟨hsound, hspared⟩ := h hw
  obtain ⟨hsound', hspared'⟩ := h' hsound
  exact ⟨hsound', hspared.trans hspared'⟩

/-- A change of one item that is whole afterwards, and is not the lot `x` if that is closed. -/
theorem of_itemChange {id : ℤ} (hc : ItemChange id w.redis w'.redis) (hreads : w.reads ≤ w'.reads)
    (hwhole : Sound env x w → id ≠ 0 → Whole w'.redis id (env.floor w'))
    (hx : Sound env x w → id = x → .long x ∈ w.redis.sets .expiredBidItems →
      ∀ k, LotKey x k → Store.SameAt k w'.redis w.redis) : Progress env x w w' := by
  intro hw
  -- if the item is the lot `x`, the hypothesis on `x` is needed
  have hsame : .long x ∈ w.redis.sets .expiredBidItems →
      ∀ k, LotKey x k → Store.SameAt k w'.redis w.redis := by
    intro hclosed
    by_cases hid : id = x
    · exact hx hw hid hclosed
    · exact hc.others x fun heq => hid heq.symm
  have hfloor := env.floor_mono hreads
  refine ⟨⟨hw.tidy.itemChange hc hfloor (hwhole hw), fun hclosed => ?_⟩, ?_, hsame⟩
  · rw [hc.expired.sets] at hclosed
    exact (hw.closed hclosed).congr (hsame hclosed _ (.inl rfl)) hfloor
  · intro hclosed
    rw [hc.expired.sets]
    exact hclosed

/-- The cache stays as it is. -/
theorem of_sameAt (hsame : ∀ k, Store.SameAt k w'.redis w.redis) (hreads : w.reads ≤ w'.reads) :
    Progress env x w w' := by
  have hredis : w'.redis = w.redis := Store.ext_sameAt hsame
  have hc : ItemChange 0 w.redis w'.redis := hredis ▸ ItemChange.refl 0 _
  exact of_itemChange hc hreads (fun _ hne => absurd rfl hne) fun _ _ _ k _ => hsame k

theorem of_redis_eq (hredis : w'.redis = w.redis) (hreads : w.reads ≤ w'.reads) :
    Progress env x w w' :=
  of_sameAt (fun k => hredis ▸ Store.SameAt.refl k _) hreads

/-- The sets of items of a category do not matter. -/
theorem of_sameItems (hsame : SameItems w.redis w'.redis) (hreads : w.reads ≤ w'.reads) :
    Progress env x w w' := by
  have hlot : ∀ id k, LotKey id k → Store.SameAt k w'.redis w.redis := by
    intro id k hk
    apply hsame k
    rcases hk with rfl | rfl | ⟨t, rfl⟩ <;> simp
  have hitems := (hsame .bidItems (by simp)).sets
  have hc : ItemChange 0 w.redis w'.redis :=
    ⟨hsame _ (by simp), hsame _ (by simp), hsame _ (by simp), fun t ht => hitems ▸ ht,
      fun t ht => .inl (hitems ▸ ht), fun id _ => hlot id⟩
  exact of_itemChange hc hreads (fun _ hne => absurd rfl hne) fun _ _ _ => hlot x

/-- The next lot becomes active. -/
theorem pop (hredis : w'.redis = popActive w.redis) (hreads : w.reads ≤ w'.reads) :
    Progress env x w w' := by
  intro hw
  have hsame : ∀ k, k ≠ .bidItemSequenceIds → k ≠ .activeBidItemId →
      Store.SameAt k w'.redis w.redis := fun k hq ha => hredis ▸ sameAt_popActive w.redis hq ha
  have hlot : ∀ k, LotKey x k → Store.SameAt k w'.redis w.redis := by
    intro k hk
    apply hsame
    · rcases hk with rfl | rfl | ⟨t, rfl⟩ <;> simp
    · rcases hk with rfl | rfl | ⟨t, rfl⟩ <;> simp
  have hexpired := (hsame .expiredBidItems (by simp) (by simp)).sets
  have hfloor := env.floor_mono hreads
  refine ⟨⟨?_, fun hclosed => ?_⟩, fun hclosed => hexpired ▸ hclosed, fun _ => hlot⟩
  · rw [hredis]
    exact hw.tidy.pop.mono hfloor
  · rw [hexpired] at hclosed
    exact (hw.closed hclosed).congr (hlot _ (.inl rfl)) hfloor

/-- A lot that leaves is closed at the next clock reading. -/
theorem close {id : ℤ} (hx : x ≠ 0)
    (hredis : w'.redis = expire w.redis id (env.clock w.reads)) (hreads : w.reads ≤ w'.reads)
    (hleaving : Sound env x w → id ≠ 0 → Leaving w.redis id (env.floor w)) :
    Progress env x w w' := by
  intro hw
  have hfloor := env.floor_mono hreads
  have hsame : .long x ∈ w.redis.sets .expiredBidItems →
      ∀ k, LotKey x k → Store.SameAt k w'.redis w.redis := by
    intro hclosed k hk
    rw [hredis]
    apply lotKey_expire _ _ hk
    -- a lot that leaves is not closed yet
    rintro rfl
    exact (hleaving hw hx).expired hclosed
  refine ⟨⟨?_, fun hclosed => ?_⟩, fun hclosed => ?_, hsame⟩
  · rw [hredis]
    exact (hw.tidy.close _ (hleaving hw)).mono hfloor
  · rw [hredis, mem_expired_expire] at hclosed
    by_cases hold : .long x ∈ w.redis.sets .expiredBidItems
    · exact (hw.closed hold).congr (hsame hold _ (.inl rfl)) hfloor
    · -- the lot is closed now
      obtain rfl : x = id := Text.long.inj (hclosed.resolve_right hold)
      have hleave := hleaving hw hx
      obtain ⟨E, U, X, htimes, -⟩ := (hw.tidy.whole x hx).settled hleave.member
      rw [hredis]
      exact ⟨_, U, X, cachedTimes_expire htimes _, hleave.times E U X htimes, hfloor⟩
  · rw [hredis, mem_expired_expire]
    exact .inr hclosed

end Progress

end Bidding.Model
