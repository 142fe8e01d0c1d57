import Mathlib.Data.List.Infix
import Bidding.Sale.Scheduler
import Bidding.Semantics.AnyTick
import Bidding.Semantics.Fetching

/-!
# Reading the Times of an Item While Others Write

The time left of an item depends on three of its fields, which are read one after the other and
written one after the other. A thread that fetches the item and whose fields are not written
from the reading of the end time on has found the times of one state of the cache.

## Architecture

- **`Extensible r id X`**: the item is cached, with the extension `X`, which nobody writes.
- **`Watches D i id X A F Stale`**: the assertion `A` holds before the thread reads the end time,
  and `F` after it; the state is `Stale` when the fields may have been written since.

## Key Results

- **`Watches.delivers_getBidItem`**: the fetch finds three times, and those of the cache unless
  the state is stale.
- **`delivers_getTimeLeft`**, **`delivers_setDate`**: the other steps of a request.
-/

namespace Bidding.Model

open Bidding.Effects Bidding.Effects.Action Bidding.KeyValue
open RedisCacheService BidItemsCacheService

/-! ## Commands on the times -/

/-- The command that reads the end time. -/
abbrev readEnd (id : ℤ) : Cmd := .redis (.hget (.bidItem id) .bidEndTime)

/-- The command that sets a date of the item. -/
abbrev setsDate (id : ℤ) (attr : Attr) (d : Date) : Cmd :=
  .redis (.hset (.bidItem id) attr (Text.format d))

/-- The end time of the item is read. -/
def ReadsEnd (id : ℤ) : Cmd → Prop
  | .redis (.hget k attr) => k = .bidItem id ∧ attr = .bidEndTime
  | _ => False

/-- A field of the item is overwritten. -/
def Overwrites (id : ℤ) (attr : Attr) : Cmd → Prop
  | .redis (.hset k f _) => k = .bidItem id ∧ f = attr
  | _ => False

instance ReadsEnd.decidable (id : ℤ) : DecidablePred (ReadsEnd id) := by
  intro c
  cases c with
  | redis c => cases c <;> (dsimp only [ReadsEnd]; infer_instance)
  | _ => exact isFalse (fun h => h)

instance Overwrites.decidable (id : ℤ) (attr : Attr) : DecidablePred (Overwrites id attr) := by
  intro c
  unfold Overwrites
  split <;> infer_instance

/-- A command that only reads, and not the end time. -/
structure Silent (id : ℤ) (c : Cmd) : Prop where
  reads : readOnly.Allows c
  notEnd : ¬ ReadsEnd id c

/-- A read overwrites nothing. -/
theorem not_overwrites_of_readOnly {id : ℤ} {c : Cmd} (h : readOnly.Allows c) (attr : Attr) :
    ¬ Overwrites id attr c := by
  intro hc
  unfold Overwrites at hc
  split at hc
  · exact h (.bidItem id) hc.1
  · exact hc

/-- A command that is quiet for the fetch is silent for the race. -/
theorem silent_of_quiet {id : ℤ} {c : Cmd} (h : Quiet id c) : Silent id c where
  reads := h.1
  notEnd := by
    intro hc
    unfold ReadsEnd at hc
    split at hc
    · obtain ⟨rfl, rfl⟩ := hc
      exact h.2 _ rfl
    · exact hc

theorem silent_connect (id : ℤ) : Silent id .connect := ⟨trivial, fun h => h⟩

theorem silent_close (id : ℤ) (jedis : Option Connection) : Silent id (.close jedis) :=
  ⟨trivial, fun h => h⟩

theorem silent_now (id : ℤ) : Silent id .now := ⟨trivial, fun h => h⟩

theorem silent_sismember (id : ℤ) (k : Key) (t : Text) : Silent id (.redis (.sismember k t)) :=
  ⟨fun _ h => h, fun h => h⟩

theorem silent_get (id : ℤ) (k : Key) : Silent id (.redis (.get k)) := ⟨fun _ h => h, fun h => h⟩

theorem silent_hget {id : ℤ} {attr : Attr} (h : attr ≠ .bidEndTime) :
    Silent id (.redis (.hget (.bidItem id) attr)) :=
  ⟨fun _ hw => hw, fun hread => h hread.2⟩

/-! ## Room for the extension -/

/-- The last update is put so many seconds before the new end, which must fit into an `int`. -/
def FitsInt (X : ℤ) : Prop := -2 ^ 31 < X + 10 ∧ X + 10 ≤ 2 ^ 31

instance FitsInt.decidable (X : ℤ) : Decidable (FitsInt X) := inferInstanceAs (Decidable (_ ∧ _))

/-- The last update that goes with a new end time leaves room for the extension. -/
theorem room_of_fits {X : ℤ} (h : FitsInt X) (d : Date) :
    secondOf (addSeconds d (toInt32 (-(X + 10)))) + X ≤ secondOf d := by
  unfold FitsInt at h
  rw [secondOf_addSeconds, toInt32_of_fits (by omega) (by omega)]
  omega

/-! ## Items with their extension -/

/-- A cached item whose extension is `X`. -/
structure Extensible (r : Redis) (id X : ℤ) : Prop where
  cached : Cached r id
  timeExtAfterBid : r.hashes (.bidItem id) .timeExtAfterBid = some (.long X)

section Extensible

variable {r : Redis} {id X : ℤ}

theorem Extensible.times (h : Extensible r id X) : ∃ E U, CachedTimes r id E U X := by
  obtain ⟨E, U, X', htimes⟩ := h.cached.times
  obtain rfl : X' = X := by simpa [h.timeExtAfterBid] using htimes.timeExtAfterBid.symm
  exact ⟨E, U, htimes⟩

/-- Writing a date keeps the extension. -/
theorem Extensible.hset_date (h : Extensible r id X) {attr : Attr}
    (hattr : attr = .bidEndTime ∨ attr = .lastUpDateTime) (d : Date) :
    Extensible (r.hset (.bidItem id) attr (Text.format d)) id X where
  cached := h.cached.hset_date hattr d
  timeExtAfterBid := by
    have hne : Attr.timeExtAfterBid ≠ attr := by
      rintro rfl
      simp at hattr
    rw [Store.hashes_hset, if_neg hne]
    exact h.timeExtAfterBid

/-- The times after the end time is set. -/
theorem CachedTimes.hset_end {E U : ℤ} (h : CachedTimes r id E U X) (d : Date) :
    CachedTimes (r.hset (.bidItem id) .bidEndTime (Text.format d)) id (secondOf d) U X where
  bidEndTime := by simp [Text.format]
  lastUpDateTime := by simpa using h.lastUpDateTime
  timeExtAfterBid := by simpa using h.timeExtAfterBid

/-- The times after the last update is set. -/
theorem CachedTimes.hset_update {E U : ℤ} (h : CachedTimes r id E U X) (d : Date) :
    CachedTimes (r.hset (.bidItem id) .lastUpDateTime (Text.format d)) id E (secondOf d) X where
  bidEndTime := by simpa using h.bidEndTime
  lastUpDateTime := by simp [Text.format]
  timeExtAfterBid := by simpa using h.timeExtAfterBid

theorem CachedTimes.of_hash {r' : Redis} {E U : ℤ} (h : CachedTimes r id E U X)
    (hhash : r'.hashes (.bidItem id) = r.hashes (.bidItem id)) : CachedTimes r' id E U X where
  bidEndTime := by rw [hhash, h.bidEndTime]
  lastUpDateTime := by rw [hhash, h.lastUpDateTime]
  timeExtAfterBid := by rw [hhash, h.timeExtAfterBid]

end Extensible

/-! ## Commands that keep the item -/

/-- A command after which the item is still cached, with its extension. -/
def KeepsItem (env : Env) (id X : ℤ) (c : Cmd) : Prop :=
  ∀ w : World, Extensible w.redis id X → Extensible (handle env c w).2.redis id X

section KeepsItem

variable {env : Env} {id X : ℤ}

/-- Other keys, and the tables. -/
def besideItem (id : ℤ) : Footprint where
  keys k := k ≠ .bidItem id ∧ k ≠ .bidItems
  dao := itemWork.dao
  fields := FieldCall.IsRead

theorem Extensible.of_sameAt {r r' : Redis} (h : Extensible r id X)
    (hitem : Store.SameAt (.bidItem id) r' r)
    (hmem : ∀ t ∈ r.sets .bidItems, t ∈ r'.sets .bidItems) : Extensible r' id X where
  cached := h.cached.of_sameAt hitem hmem
  timeExtAfterBid := by rw [hitem.hashes, h.timeExtAfterBid]

theorem keepsItem_of_allows {fp : Footprint} (hitem : ¬ fp.keys (.bidItem id))
    (hitems : ¬ fp.keys .bidItems) {c : Cmd} (hc : fp.Allows c) : KeepsItem env id X c := by
  intro w h
  apply h.of_sameAt (hc.sameAt env w hitem)
  intro t ht
  rwa [(hc.sameAt env w hitems).sets]

theorem keepsItem_beside {c : Cmd} (hc : (besideItem id).Allows c) : KeepsItem env id X c :=
  have hitem : ¬ (besideItem id).keys (.bidItem id) := fun h => h.1 rfl
  have hitems : ¬ (besideItem id).keys .bidItems := fun h => h.2 rfl
  keepsItem_of_allows hitem hitems hc

theorem issues_beside {α : Type} {p : Act α} (hp : Within (besideItem id) p) :
    Issues (KeepsItem env id X) p :=
  hp.mono fun _ hc => keepsItem_beside hc

/-- Adding to a set keeps the item. -/
theorem keepsItem_sadd {k : Key} (hitem : .bidItem id ≠ k) (t : Text) :
    KeepsItem env id X (.redis (.sadd k t)) := by
  intro w h
  show Extensible (w.redis.sadd k t) id X
  apply h.of_sameAt
  · exact Store.sameAt_sadd w.redis hitem t
  · intro t' ht'
    -- the set of items only grows
    by_cases hk : k = .bidItems
    · subst hk
      rw [Store.sets_sadd]
      exact List.mem_insert_of_mem ht'
    · rwa [(Store.sameAt_sadd w.redis (fun h => hk h.symm) t).sets]

theorem keepsItem_status (t : Text) :
    KeepsItem env id X (.redis (.hset (.bidItem id) .statusCode t)) := by
  intro w h
  refine ⟨h.cached.hset (by decide) (by decide) trivial (by simp), ?_⟩
  exact (Store.hashes_hset ..).trans h.timeExtAfterBid

/-- A field that is added only if it is missing. -/
theorem keepsItem_hsetnx (k : Key) {attr : Attr} {t : Text} (hfits : Fits attr (some t)) :
    KeepsItem env id X (.redis (.hsetnx k attr t)) := by
  intro w h
  show Extensible (w.redis.hsetnx k attr t) id X
  by_cases hk : k = .bidItem id
  · subst hk
    -- a field that is there is not overwritten
    have hkeep : ∀ {a : Attr} {t' : Text}, w.redis.hashes (.bidItem id) a = some t' →
        (w.redis.hsetnx (.bidItem id) attr t).hashes (.bidItem id) a = some t' := by
      intro a t' ha
      rw [Store.hashes_hsetnx, ha, Option.some_or]
    obtain ⟨E, U, htimes⟩ := h.times
    refine ⟨⟨?_, ?_, hkeep h.cached.bidItemId, E, U, X, ?_⟩, hkeep h.timeExtAfterBid⟩
    · rw [Store.sets_hsetnx]
      exact h.cached.member
    · intro a
      rw [Store.hashes_hsetnx]
      cases ha : w.redis.hashes (.bidItem id) a with
      | some t' =>
        rw [Option.some_or, ← ha]
        exact h.cached.readable a
      | none =>
        rw [Option.none_or]
        split
        · next heq =>
          rw [heq]
          exact hfits
        · exact fits_none a
    · exact ⟨hkeep htimes.bidEndTime, hkeep htimes.lastUpDateTime, hkeep htimes.timeExtAfterBid⟩
  · apply h.of_sameAt (Store.sameAt_hsetnx _ (fun h => hk h.symm) _ _)
    intro t' ht'
    rwa [Store.sets_hsetnx]

/-- Storing any item keeps this one. -/
theorem keepsItem_setBidItem (id' : ℤ) (item : BidItem) :
    Issues (KeepsItem env id X) (RedisCacheService.setBidItem id' item) := by
  apply (compositional_issues (keepsItem_beside trivial) (fun _ => keepsItem_beside trivial)
    (keepsItem_beside trivial)).of_setBidItem
  · exact issues_perform (keepsItem_sadd (by simp) _)
  · -- the item may be the same one: its fields are only added where they are missing
    intro cell hcell
    obtain ⟨attr, value⟩ := cell
    cases value with
    | error e => trivial
    | ok text =>
      have hfits := fits_cellText item attr
      rw [cellText_of_mem hcell] at hfits
      exact issues_perform (keepsItem_hsetnx _ hfits)
  · exact fun bidder => issues_beside
      (within_setBidder bidder (by simp [besideItem]) (by simp [besideItem]))
  · exact fun c => issues_beside (within_setCategory c (by simp [besideItem]))

/-- Looking an item up, and loading it on a miss, keeps this one. -/
theorem keepsItem_getBidItem (id' : ℤ) :
    Issues (KeepsItem env id X) (BidItemsCacheService.getBidItem id') := by
  apply issues_bind (issues_beside (within_getBidItem id'))
  intro found
  cases found with
  | some item => exact issues_pure _
  | none =>
    -- on a miss the other item is loaded and stored
    dsimp only
    split
    · exact issues_pure _
    · apply issues_bind _ fun _ => issues_pure _
      apply issues_bind (issues_beside (within_daoGetBidItem trivial))
      intro loaded
      apply issues_bind (issues_beside (within_initializeBidItem loaded))
      intro item
      apply issues_bind _ fun _ => issues_pure _
      apply issues_bind (issues_ofExcept _)
      intro itemId
      apply issues_bind (keepsItem_setBidItem itemId item)
      exact fun _ => issues_bind (issues_beside (within_getBidItem itemId)) fun _ => issues_pure _

end KeepsItem

/-- The three times of an item that was fetched. -/
structure HasTimes (item : BidItem) (E U X : ℤ) : Prop where
  bidEndTime : item.bidEndTime = some (ofSecond E)
  lastUpDateTime : item.lastUpDateTime = some (ofSecond U)
  timeExtAfterBid : item.timeExtAfterBid = some X

/-! ## The watch on the item -/

/-- The fields from which the time left is computed. -/
def timeAttrs : List Attr := [.bidEndTime, .lastUpDateTime, .timeExtAfterBid]

/-- A text that such a field can have. -/
def Timelike (X : ℤ) : Attr → Option Text → Prop
  | .timeExtAfterBid, s => s = some (.long X)
  | _, s => ∃ n, s = some (.date n)

/-- The fields that count have the texts of times. -/
theorem Extensible.timelike {r : Redis} {id X : ℤ} (h : Extensible r id X) {attr : Attr}
    (hattr : attr ∈ timeAttrs) : Timelike X attr (r.hashes (.bidItem id) attr) := by
  obtain ⟨E, U, htimes⟩ := h.times
  unfold timeAttrs at hattr
  simp only [List.mem_cons, List.not_mem_nil, or_false] at hattr
  rcases hattr with rfl | rfl | rfl
  · exact ⟨E, htimes.bidEndTime⟩
  · exact ⟨U, htimes.lastUpDateTime⟩
  · exact htimes.timeExtAfterBid

/-- The other fields of the time left are read after the end time. -/
theorem timeAttrs_after_end {rest : List Attr} (h : .bidEndTime :: rest <:+ readOrder) :
    .bidEndTime ∉ rest ∧ ∀ attr ∈ timeAttrs, attr = .bidEndTime ∨ attr ∈ rest := by
  have hall : ∀ l ∈ readOrder.tails, l.head? = some .bidEndTime →
      .bidEndTime ∉ l.tail ∧ ∀ attr ∈ timeAttrs, attr = .bidEndTime ∨ attr ∈ l.tail := by
    decide
  exact hall (.bidEndTime :: rest) ((List.mem_tails _ _).mpr h) rfl

/-- A thread that reads the end time of the item and then relies on its fields. -/
structure Watches {ι : Type} (D : Discipline Cmd Answer World ι) (i : ι) (id X : ℤ)
    (A F Stale : Shared ι Cmd World → Prop) : Prop where
  extensible : ∀ g, A g ∨ F g → Extensible g.state.redis id X
  before : D.Stable i A
  after : D.Stable i F
  unseen : ∀ g g', F g → D.rely i g g' → ¬ Stale g' →
    ¬ Stale g ∧ g'.state.redis.hashes (.bidItem id) = g.state.redis.hashes (.bidItem id)
  silent_before : ∀ c, Silent id c → D.Keeps i A c
  silent_after : ∀ c, Silent id c → D.Keeps i F c
  stale : ∀ c g, Stale g → Stale (g.issue D.handler i c)
  read : ∀ g, A g → D.cond i g (readEnd id) →
    D.guar i g (g.issue D.handler i (readEnd id)) ∧ F (g.issue D.handler i (readEnd id))

/-- What the watching thread knows while it reads the fields. -/
structure Watching {ι : Type} (id X : ℤ) (A F Stale : Shared ι Cmd World → Prop)
    (texts : Attr → Option Text) (rest : List Attr) (g : Shared ι Cmd World) : Prop where
  order : rest <:+ readOrder
  before : .bidEndTime ∈ rest → A g
  after : .bidEndTime ∉ rest → F g
  found : .bidEndTime ∉ rest → ∀ attr ∈ timeAttrs, attr ∉ rest → Timelike X attr (texts attr) ∧
    (¬ Stale g → texts attr = g.state.redis.hashes (.bidItem id) attr)

section Watch

variable {ι : Type} {D : Discipline Cmd Answer World ι} {i : ι} {id X : ℤ} {env : Env}
  {A F Stale : Shared ι Cmd World → Prop} {g g' : Shared ι Cmd World}
  {texts : Attr → Option Text} {rest : List Attr}

theorem Watching.extensible (hwatch : Watches D i id X A F Stale)
    (h : Watching id X A F Stale texts rest g) : Extensible g.state.redis id X := by
  apply hwatch.extensible g
  by_cases hend : Attr.bidEndTime ∈ rest
  · exact .inl (h.before hend)
  · exact .inr (h.after hend)

/-- What is known is not lost when the fields of the item stay as they are. -/
theorem Watching.found_of_same (h : Watching id X A F Stale texts rest g)
    (hkeep : ¬ Stale g' → ¬ Stale g ∧
      g'.state.redis.hashes (.bidItem id) = g.state.redis.hashes (.bidItem id))
    (hend : .bidEndTime ∉ rest) {attr : Attr} (hattr : attr ∈ timeAttrs) (hrest : attr ∉ rest) :
    Timelike X attr (texts attr) ∧
      (¬ Stale g' → texts attr = g'.state.redis.hashes (.bidItem id) attr) := by
  obtain ⟨htimelike, hfound⟩ := h.found hend attr hattr hrest
  refine ⟨htimelike, fun hstale => ?_⟩
  obtain ⟨hstale', hhash⟩ := hkeep hstale
  rw [hhash]
  exact hfound hstale'

variable (hhandler : D.handler = handle env) (hfaults : ∀ c, D.faults i c = none)

include hhandler in
theorem redis_issue {c : Cmd} (hc : readOnly.Allows c) (g : Shared ι Cmd World) :
    (g.issue D.handler i c).state.redis = g.state.redis := by
  rw [hhandler]
  exact hc.redis_eq env g.state

include hhandler in
/-- A silent command keeps the watch. -/
theorem Watches.keeps_silent (h : Watches D i id X A F Stale) {c : Cmd} (hc : Silent id c) :
    D.Keeps i (Watching id X A F Stale texts rest) c := by
  intro g hg hcond
  have hkeep : ¬ Stale (g.issue D.handler i c) → ¬ Stale g ∧
      (g.issue D.handler i c).state.redis.hashes (.bidItem id) =
        g.state.redis.hashes (.bidItem id) := by
    intro hstale
    rw [redis_issue hhandler hc.reads]
    exact ⟨fun hg => hstale (h.stale c g hg), rfl⟩
  -- before the end is read nothing is known yet
  by_cases hend : Attr.bidEndTime ∈ rest
  · obtain ⟨hguar, hA⟩ := h.silent_before c hc g (hg.before hend) hcond
    exact ⟨hguar, hg.order, fun _ => hA, fun hne => absurd hend hne, fun hne => absurd hend hne⟩
  · obtain ⟨hguar, hF⟩ := h.silent_after c hc g (hg.after hend) hcond
    exact ⟨hguar, hg.order, fun hmem => absurd hmem hend, fun _ => hF,
      fun _ attr hattr hrest => hg.found_of_same hkeep hend hattr hrest⟩

/-- One more field is known, as the cache has it. -/
theorem Watching.tail {attr : Attr} (hext : Extensible g.state.redis id X)
    (h : Watching id X A F Stale texts (attr :: rest) g) (hne : attr ≠ .bidEndTime) :
    Watching id X A F Stale
      (Function.update texts attr (g.state.redis.hashes (.bidItem id) attr)) rest g where
  order := (List.suffix_cons attr rest).trans h.order
  before hend := h.before (List.mem_cons_of_mem attr hend)
  after hend := h.after (List.not_mem_cons_of_ne_of_not_mem hne.symm hend)
  found hend attr' hattr hrest := by
    -- the field that was just read, or one of the earlier ones
    by_cases heq : attr' = attr
    · subst heq
      rw [Function.update_self]
      exact ⟨hext.timelike hattr, fun _ => rfl⟩
    · rw [Function.update_of_ne heq]
      exact h.found (List.not_mem_cons_of_ne_of_not_mem hne.symm hend) attr' hattr
        (List.not_mem_cons_of_ne_of_not_mem heq hrest)

include hhandler in
/-- The watch begins with the end time: of the fields that count, it is the first to be read. -/
theorem Watches.read_end (h : Watches D i id X A F Stale)
    (hg : Watching id X A F Stale texts (.bidEndTime :: rest) g)
    (hcond : D.cond i g (readEnd id)) :
    D.guar i g (g.issue D.handler i (readEnd id)) ∧ Watching id X A F Stale
      (Function.update texts .bidEndTime (g.state.redis.hashes (.bidItem id) .bidEndTime)) rest
      (g.issue D.handler i (readEnd id)) := by
  -- the other two fields that count are read after the end
  obtain ⟨hnot, hlater⟩ := timeAttrs_after_end hg.order
  obtain ⟨hguar, hF⟩ := h.read g (hg.before List.mem_cons_self) hcond
  refine ⟨hguar, (List.suffix_cons _ rest).trans hg.order, fun hmem => absurd hmem hnot,
    fun _ => hF, ?_⟩
  intro _ attr hattr hrest
  obtain rfl := (hlater attr hattr).resolve_right hrest
  rw [Function.update_self, redis_issue hhandler (c := readEnd id) fun _ hw => hw]
  exact ⟨(hg.extensible h).timelike hattr, fun _ => rfl⟩

include hhandler in
/-- The watch goes through the fetch of an item. -/
theorem Watches.fetches (h : Watches D i id X A F Stale) :
    Fetches D i id (Watching id X A F Stale) where
  stable texts rest g g' hg hrely :=
    { order := hg.order
      before := fun hend => h.before g g' (hg.before hend) hrely
      after := fun hend => h.after g g' (hg.after hend) hrely
      found := fun hend attr hattr hrest =>
        hg.found_of_same (h.unseen g g' (hg.after hend) hrely) hend hattr hrest }
  quiet texts rest c hc := h.keeps_silent hhandler (silent_of_quiet hc)
  field texts attr rest g hg hcond := by
    have hfits := (hg.extensible h).cached.readable attr
    by_cases heq : attr = .bidEndTime
    · subst heq
      obtain ⟨hguar, hwatching⟩ := h.read_end hhandler hg hcond
      exact ⟨hguar, hfits, hwatching⟩
    · -- any other field is read without a trace, and then moves from `rest` to `texts`
      obtain ⟨hguar, hwatching⟩ := h.keeps_silent hhandler (silent_hget heq) g hg hcond
      have htail := hwatching.tail (hwatching.extensible h) heq
      rw [redis_issue hhandler (silent_hget heq).reads] at htail
      exact ⟨hguar, hfits, htail⟩

/-- What a fetch under a watch finds. -/
def WatchedItem (id X : ℤ) (F Stale : Shared ι Cmd World → Prop) (found : Option BidItem)
    (g : Shared ι Cmd World) : Prop :=
  ∃ item E U, found = some item ∧ F g ∧ HasTimes item E U X ∧
    (¬ Stale g → CachedTimes g.state.redis id E U X)

/-- What was found holds until the state gets stale. -/
theorem Watches.stable_watchedItem (h : Watches D i id X A F Stale) (found : Option BidItem) :
    D.Stable i (WatchedItem id X F Stale found) := by
  intro g g' hg hrely
  obtain ⟨item, E, U, rfl, hF, htimes, hcached⟩ := hg
  refine ⟨item, E, U, rfl, h.after g g' hF hrely, htimes, fun hstale => ?_⟩
  obtain ⟨hstale', hhash⟩ := h.unseen g g' hF hrely hstale
  exact (hcached hstale').of_hash hhash

/-- The times of an item are those that its texts say. -/
theorem hasTimes_of_essentials {item : BidItem} (hitem : item.essentials = essentialsOf texts)
    (htexts : ∀ attr ∈ timeAttrs, Timelike X attr (texts attr)) :
    ∃ E U, HasTimes item E U X ∧ texts .bidEndTime = some (.date E) ∧
      texts .lastUpDateTime = some (.date U) ∧ texts .timeExtAfterBid = some (.long X) := by
  obtain ⟨E, hE⟩ : ∃ E, texts .bidEndTime = some (.date E) := htexts .bidEndTime (by decide)
  obtain ⟨U, hU⟩ : ∃ U, texts .lastUpDateTime = some (.date U) :=
    htexts .lastUpDateTime (by decide)
  have hX : texts .timeExtAfterBid = some (.long X) := htexts .timeExtAfterBid (by decide)
  refine ⟨E, U, ⟨?_, ?_, ?_⟩, hE, hU, hX⟩
  · have hfield : item.bidEndTime = _ := congrArg Essentials.bidEndTime hitem
    rw [hfield, essentialsOf, hE]
    rfl
  · have hfield : item.lastUpDateTime = _ := congrArg Essentials.lastUpDateTime hitem
    rw [hfield, essentialsOf, hU]
    rfl
  · have hfield : item.timeExtAfterBid = _ := congrArg Essentials.timeExtAfterBid hitem
    rw [hfield, essentialsOf, hX]
    rfl

include hhandler

section NoFaults

include hfaults

/-- The fetch finds the item, with the times of the cache unless the state is stale. -/
theorem Watches.delivers_getBidItem (h : Watches D i id X A F Stale) (hg : A g) :
    D.Delivers i (WatchedItem id X F Stale) (RedisCacheService.getBidItem id) g := by
  apply delivers_guarded hhandler hfaults h.before h.stable_watchedItem
    (h.silent_before _ (silent_connect id)) _ _ hg
  · -- closing the connection reads nothing, so that what was found stays right
    intro found g hfound hcond
    obtain ⟨item, E, U, rfl, hF, htimes, hcached⟩ := hfound
    obtain ⟨hguar, hF'⟩ := h.silent_after _ (silent_close id (some 0)) g hF hcond
    refine ⟨hguar, item, E, U, rfl, hF', htimes, fun hstale => ?_⟩
    rw [redis_issue hhandler (silent_close id (some 0)).reads]
    exact hcached fun hg => hstale (h.stale _ g hg)
  · intro g hg
    apply Discipline.delivers_bind (B := fun exists_ g => exists_ = true ∧ A g)
    · apply delivers_unclosed hhandler hfaults h.before
        (fun _ => (Discipline.Stable.const _).and h.before)
        (h.silent_before _ (silent_connect id)) (fun _ hfalse => absurd hfalse.1 (by simp)) _ hg
      intro g hg
      apply Discipline.delivers_perform h.before
        (fun _ => (Discipline.Stable.const _).and h.before)
        (Discipline.safe_of_faults (hfaults _)) _ hg
      intro g hg hcond
      obtain ⟨hguar, hA⟩ := h.silent_before _ (silent_sismember id _ _) g hg hcond
      refine ⟨hguar, true, ?_, rfl, hA⟩
      rw [hhandler]
      exact congrArg Except.ok (decide_eq_true (h.extensible g (.inl hg)).cached.member)
    · -- the item is there, and its fields are read one after the other while others may write
      intro exists_ g hexists
      obtain ⟨rfl, hA⟩ := hexists
      have hstart : Watching id X A F Stale (fun _ => none) readOrder g :=
        ⟨List.suffix_refl _, fun _ => hA, fun hne => absurd (by decide) hne,
          fun hne => absurd (by decide) hne⟩
      apply Discipline.delivers_bind ((h.fetches hhandler).delivers_fill hhandler hfaults hstart)
      intro item g hitem
      obtain ⟨texts, hwatching, hessentials⟩ := hitem
      have hfound := hwatching.found List.not_mem_nil
      obtain ⟨E, U, htimes, hE, hU, hX⟩ := hasTimes_of_essentials hessentials
        fun attr hattr => (hfound attr hattr List.not_mem_nil).1
      apply Discipline.delivers_pure (h.stable_watchedItem _)
      refine ⟨item, E, U, rfl, hwatching.after List.not_mem_nil, htimes, fun hstale => ?_⟩
      have hhash : ∀ attr ∈ timeAttrs, texts attr = g.state.redis.hashes (.bidItem id) attr :=
        fun attr hattr => (hfound attr hattr List.not_mem_nil).2 hstale
      exact ⟨(hhash _ (by decide)).symm.trans hE, (hhash _ (by decide)).symm.trans hU,
        (hhash _ (by decide)).symm.trans hX⟩

end NoFaults

/-! ## Other steps -/

/-- One reading of the clock. -/
theorem delivers_now (hfault : D.faults i .now = none) {A : Shared ι Cmd World → Prop}
    {B : Date → Shared ι Cmd World → Prop}
    (hA : D.Stable i A) (hB : ∀ d, D.Stable i (B d))
    (hstep : ∀ g, A g → D.cond i g .now → D.guar i g (g.issue D.handler i .now) ∧
      B (env.clock g.state.reads) (g.issue D.handler i .now)) (hg : A g) :
    D.Delivers i B now g := by
  apply Discipline.delivers_perform hA hB (Discipline.safe_of_faults hfault) _ hg
  intro g hg hcond
  obtain ⟨hguar, hB'⟩ := hstep g hg hcond
  refine ⟨hguar, env.clock g.state.reads, ?_, hB'⟩
  rw [hhandler]
  rfl

/-- The time left of an item that was fetched, at the next clock reading. -/
theorem delivers_getTimeLeft (hfault : D.faults i .now = none) {A : Shared ι Cmd World → Prop}
    {B : ℤ → Shared ι Cmd World → Prop} {item : BidItem} {E U : ℤ} (htimes : HasTimes item E U X)
    (hA : D.Stable i A) (hB : ∀ timeLeft, D.Stable i (B timeLeft))
    (hstep : ∀ g, A g → D.cond i g .now → D.guar i g (g.issue D.handler i .now) ∧
      B (countdown E U X (env.second g.state.reads)) (g.issue D.handler i .now)) (hg : A g) :
    D.Delivers i B (getTimeLeft item) g := by
  unfold getTimeLeft
  simp only [htimes.bidEndTime, htimes.lastUpDateTime]
  apply Discipline.delivers_bind (B := fun t g => B (countdown E U X (toSeconds t)) g)
  · exact delivers_now hhandler hfault hA (fun t => hB _) hstep hg
  · intro t g hB'
    have hleft : item.timeLeftAt t = .ok (countdown E U X (toSeconds t)) := by
      simp only [BidItem.timeLeftAt, htimes.bidEndTime, htimes.lastUpDateTime,
        htimes.timeExtAfterBid, toSeconds_ofSecond, countdown]
      split <;> rfl
    rw [hleft]
    exact Discipline.delivers_pure (hB _) hB'

include hfaults in
/-- One date of the item is set. -/
theorem delivers_setDate {A B : Shared ι Cmd World → Prop} {attr : Attr} {d : Date}
    (hA : D.Stable i A) (hB : D.Stable i B)
    (hmember : ∀ g, A g → .long id ∈ g.state.redis.sets .bidItems)
    (hsilent : ∀ c, Silent id c → D.Keeps i A c) (hclose : D.Keeps i B (.close (some 0)))
    (hstep : ∀ g, A g → D.cond i g (setsDate id attr d) →
      D.guar i g (g.issue D.handler i (setsDate id attr d)) ∧
        B (g.issue D.handler i (setsDate id attr d))) (hg : A g) :
    D.Delivers i (fun _ => B) (setDate attr id d) g := by
  apply delivers_guarded hhandler hfaults hA (fun _ => hB) (hsilent _ (silent_connect id))
    (fun _ => hclose) _ hg
  intro g hg
  -- the date is set only if the cache has the item
  apply Discipline.delivers_bind (B := fun found g => found = true ∧ A g)
  · apply Discipline.delivers_perform hA (fun _ => (Discipline.Stable.const _).and hA)
      (Discipline.safe_of_faults (hfaults _)) _ hg
    intro g hg hcond
    obtain ⟨hguar, hA'⟩ := hsilent _ (silent_sismember id _ _) g hg hcond
    refine ⟨hguar, true, ?_, rfl, hA'⟩
    rw [hhandler]
    exact congrArg Except.ok (decide_eq_true (hmember g hg))
  · intro found g hfound
    obtain ⟨rfl, hA'⟩ := hfound
    apply Discipline.delivers_bind (B := fun _ => B)
    · apply Discipline.delivers_perform hA (fun _ => hB)
        (Discipline.safe_of_faults (hfaults _)) _ hA'
      intro g hg hcond
      obtain ⟨hguar, hB'⟩ := hstep g hg hcond
      refine ⟨hguar, (), ?_, hB'⟩
      rw [hhandler]
      rfl
    · exact fun _ g hg => Discipline.delivers_pure hB hg

end Watch

end Bidding.Model
