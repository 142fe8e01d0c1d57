import Bidding.Sale.Abstract
import Bidding.Semantics.Service

/-!
# The Cache Refines a Sale

How the state that the scheduler spreads over the cache, its start flag and the item rows
stands for a `Sale` of the rows of the sequence, and how the three writes of a hand-over
(pop the queue, close the active item, open the next one) move it.

## Architecture

- **`Refines s w`**: the world `w` stands for the sale `s`.
- **`Handed s w`**: the queue is popped and the active item closed, but the next item is not
  opened yet; this is the state in the middle of a tick.
- **`Refines.handed_start`**, **`Refines.handed_close`**: into the middle of a tick.
- **`Handed.refines_open`**, **`Handed.refines_over`**: out of it.
-/

namespace Bidding.Model

open Bidding.Effects Bidding.Effects.Action Bidding.KeyValue
open RedisCacheService BidItemsCacheService

/-- The text of a lot in the cache. -/
def lotText (lot : BidSequence) : Text := .long lot.bidItemId

/-- An item that the cache has and that can be read. -/
structure Cached (r : Redis) (id : ℤ) : Prop where
  member : .long id ∈ r.sets .bidItems
  readable : Readable (r.hashes (.bidItem id))
  bidItemId : r.hashes (.bidItem id) .bidItemId = some (.long id)
  times : ∃ E U X, CachedTimes r id E U X

/-- An item of which the cache has nothing. -/
structure Uncached (r : Redis) (id : ℤ) : Prop where
  absent : .long id ∉ r.sets .bidItems
  fresh : ∀ attr, r.hashes (.bidItem id) attr = none

/-- The text of the active id in a sale that has started. -/
def activeText (current : Option BidSequence) : Text := (current.map lotText).getD (.long 0)

/-- A sequence whose lots are different items, none of them the sentinel `0`. -/
structure WellFormed (lots : List BidSequence) : Prop where
  nodup : (lots.map BidSequence.bidItemId).Nodup
  ne_zero : ∀ lot ∈ lots, lot.bidItemId ≠ 0

/-- What the cache and the tables keep about every lot of a sequence. -/
structure LotData (lots : List BidSequence) (w : World) : Prop where
  inSequence : ∀ lot ∈ lots, InSequence w.redis lot.bidItemId lot.bidspan lot.sequenceId
  loadable : ∀ lot ∈ lots, CommonDao.Loadable w.db lot.bidItemId
  zero : .long 0 ∉ w.redis.sets .bidItems

/-- The world stands for a sale. -/
structure Refines (s : Sale BidSequence) (w : World) : Prop where
  startFlag : w.startFlag = !s.started
  queue : w.redis.lists .bidItemSequenceIds = (s.waiting.map lotText).reverse
  active : w.redis.strings .activeBidItemId =
    if s.started then some (activeText s.current) else none
  expired : w.redis.sets .expiredBidItems = (s.sold.map lotText).reverse
  opened : ∀ lot ∈ s.opened, Cached w.redis lot.bidItemId
  pending : ∀ lot ∈ s.waiting, Uncached w.redis lot.bidItemId
  data : LotData s.lots w
  ended : ∀ lot ∈ s.sold, CommonDao.Ended w.db lot.bidItemId

/-- The middle of a tick of the sale `s`: the queue is popped and the lot on offer is
    closed, but the next lot is not opened yet. -/
structure Handed (s : Sale BidSequence) (w : World) : Prop where
  startFlag : w.startFlag = false
  queue : w.redis.lists .bidItemSequenceIds = (s.waiting.tail.map lotText).reverse
  active : w.redis.strings .activeBidItemId = some (activeText s.waiting.head?)
  expired : w.redis.sets .expiredBidItems = (s.opened.map lotText).reverse
  opened : ∀ lot ∈ s.opened, Cached w.redis lot.bidItemId
  pending : ∀ lot ∈ s.waiting, Uncached w.redis lot.bidItemId
  data : LotData s.lots w
  ended : ∀ lot ∈ s.opened, CommonDao.Ended w.db lot.bidItemId

/-! ## What the writes of a tick do to an item -/

section Items

variable {r r' : Redis} {id : ℤ}

/-- An item stays cached while its hash is left alone and it stays in the set. -/
theorem Cached.of_sameAt (h : Cached r id) (hsame : Store.SameAt (.bidItem id) r' r)
    (hmem : ∀ t ∈ r.sets .bidItems, t ∈ r'.sets .bidItems) : Cached r' id where
  member := hmem _ h.member
  readable := by rw [hsame.hashes]; exact h.readable
  bidItemId := by rw [hsame.hashes]; exact h.bidItemId
  times := by
    obtain ⟨E, U, X, ht⟩ := h.times
    exact ⟨E, U, X, ht.of_sameAt hsame⟩

theorem Uncached.of_sameAt (h : Uncached r id) (hsame : Store.SameAt (.bidItem id) r' r)
    (hmem : .long id ∉ r'.sets .bidItems) : Uncached r' id where
  absent := hmem
  fresh := by rw [hsame.hashes]; exact h.fresh

/-- Setting the status or a date of a cached item keeps it cached. -/
theorem Cached.hset (h : Cached r id) {attr : Attr} {t : Text} (hid : attr ≠ .bidItemId)
    (hext : attr ≠ .timeExtAfterBid) (hfits : Fits attr (some t))
    (hdate : attr = .bidEndTime ∨ attr = .lastUpDateTime → ∃ s, t = .date s) :
    Cached (r.hset (.bidItem id) attr t) id where
  member := h.member
  readable := h.readable.hset hfits
  bidItemId := by rw [Store.hashes_hset, if_neg hid.symm]; exact h.bidItemId
  times := by
    obtain ⟨E, U, X, ht⟩ := h.times
    -- a date that is overwritten is again a date
    have hkeep : ∀ {a : Attr} {t' : Text}, r.hashes (.bidItem id) a = some t' →
        (a = attr → ∃ s, t = .date s) → (∃ s, t' = .date s) →
        ∃ s, (r.hset (.bidItem id) attr t).hashes (.bidItem id) a = some (.date s) := by
      rintro a t' hold hnew ⟨s, rfl⟩
      rw [Store.hashes_hset]
      split
      · rename_i ha
        obtain ⟨s', rfl⟩ := hnew ha
        exact ⟨s', rfl⟩
      · exact ⟨s, hold⟩
    obtain ⟨E', hE⟩ := hkeep ht.bidEndTime (fun ha => hdate (.inl ha.symm)) ⟨E, rfl⟩
    obtain ⟨U', hU⟩ := hkeep ht.lastUpDateTime (fun ha => hdate (.inr ha.symm)) ⟨U, rfl⟩
    refine ⟨E', U', X, hE, hU, ?_⟩
    rw [Store.hashes_hset, if_neg hext.symm]
    exact ht.timeExtAfterBid

/-- Setting a date of a cached item keeps it cached. -/
theorem Cached.hset_date (h : Cached r id) {attr : Attr}
    (hattr : attr = .bidEndTime ∨ attr = .lastUpDateTime) (d : Date) :
    Cached (r.hset (.bidItem id) attr (Text.format d)) id := by
  rcases hattr with rfl | rfl
  · exact h.hset (by decide) (by decide) (fits_bidEndTime d) (fun _ => ⟨_, rfl⟩)
  · exact h.hset (by decide) (by decide) (fits_lastUpDateTime d) (fun _ => ⟨_, rfl⟩)

theorem Cached.expire (h : Cached r id) (d : Date) : Cached (expire r id d) id :=
  (Cached.hset (r := r.sadd .expiredBidItems (.long id))
    (h.of_sameAt (r.sameAt_sadd (by simp) _) (fun _ ht => ht)) (by decide) (by decide)
    (fits_statusCode _) (by simp)).hset_date (.inl rfl) d

theorem sameAt_expire {k : Key} (hexpired : k ≠ .expiredBidItems) (hitem : k ≠ .bidItem id)
    (d : Date) : Store.SameAt k (expire r id d) r :=
  ((Store.sameAt_hset _ hitem _ _).trans (Store.sameAt_hset _ hitem _ _)).trans
    (Store.sameAt_sadd _ hexpired _)

/-- The times of an item that was stored into an empty place. -/
theorem CachedTimes.of_stored {item : BidItem} {e u : Date} (h : Stored id item r r')
    (hfresh : Uncached r id) (hend : item.bidEndTime = some e)
    (hupdate : item.lastUpDateTime = some u) :
    CachedTimes r' id (secondOf e) (secondOf u) (item.timeExtAfterBid.getD 0) where
  bidEndTime := by
    rw [h.hash, hfresh.fresh]
    simp only [cellText, bidItemCells, hend]
    rfl
  lastUpDateTime := by
    rw [h.hash, hfresh.fresh]
    simp only [cellText, bidItemCells, hupdate]
    rfl
  timeExtAfterBid := by
    rw [h.hash, hfresh.fresh]
    simp only [cellText, bidItemCells]
    cases item.timeExtAfterBid <;> rfl

/-- An item that was stored into an empty place is cached. -/
theorem Cached.of_stored {item : BidItem} {e u : Date} (h : Stored id item r r')
    (hfresh : Uncached r id) (hid : item.bidItemId = some id) (hend : item.bidEndTime = some e)
    (hupdate : item.lastUpDateTime = some u) : Cached r' id where
  member := by rw [h.bidItems]; exact List.mem_insert_self
  readable := Readable.stored h (fun attr => by rw [hfresh.fresh]; exact fits_none attr)
  bidItemId := by
    rw [h.hash, hfresh.fresh]
    simp only [cellText, bidItemCells, hid]
    rfl
  times := ⟨_, _, _, CachedTimes.of_stored h hfresh hend hupdate⟩

end Items

/-! ## Into the middle of a tick -/

/-- The pop takes the first waiting lot from the queue. -/
theorem lists_popActive {r : Redis} {waiting : List BidSequence}
    (hqueue : r.lists .bidItemSequenceIds = (waiting.map lotText).reverse) :
    (popActive r).lists .bidItemSequenceIds = (waiting.tail.map lotText).reverse := by
  have hpop : (popActive r).lists .bidItemSequenceIds =
      (r.lists .bidItemSequenceIds).dropLast := Store.lists_rpop r .bidItemSequenceIds
  rw [hpop, hqueue]
  cases waiting with
  | nil => rfl
  | cons lot lots => simp

/-- The pop makes the first waiting lot the active one, or `0` if there is none. -/
theorem strings_popActive {r : Redis} {waiting : List BidSequence}
    (hqueue : r.lists .bidItemSequenceIds = (waiting.map lotText).reverse) :
    (popActive r).strings .activeBidItemId = some (activeText waiting.head?) := by
  have hset : (popActive r).strings .activeBidItemId = some (nextActive r) :=
    Store.strings_set (r.rpop .bidItemSequenceIds) _ _
  rw [hset, nextActive, hqueue, List.getLast?_reverse, activeText]
  cases waiting <;> rfl

/-- The data of the lots stay while the rows of the sequence are left alone. -/
theorem LotData.of_sameAt {lots : List BidSequence} {w w' : World} (h : LotData lots w)
    (hseq : ∀ lot ∈ lots, Store.SameAt (.bidSequence lot.bidItemId) w'.redis w.redis)
    (hload : ∀ lot ∈ lots, CommonDao.Loadable w'.db lot.bidItemId)
    (hzero : .long 0 ∉ w'.redis.sets .bidItems) : LotData lots w' where
  inSequence lot hlot := by
    have hold := h.inSequence lot hlot
    constructor
    · rw [(hseq lot hlot).hashes]
      exact hold.bidSpan
    · rw [(hseq lot hlot).hashes]
      exact hold.sequenceId
  loadable := hload
  zero := hzero

/-- The start of a sale: there is nothing to close. -/
theorem Refines.handed_start {s : Sale BidSequence} {w : World} (h : Refines s w)
    (hstarted : s.started = false) :
    Handed s { w with startFlag := false, redis := popActive w.redis } := by
  have hitem : ∀ id, Store.SameAt (.bidItem id) (popActive w.redis) w.redis :=
    fun id => sameAt_popActive _ (by simp) (by simp)
  have hitems : (popActive w.redis).sets .bidItems = w.redis.sets .bidItems :=
    (sameAt_popActive w.redis (k := .bidItems) (by simp) (by simp)).sets
  obtain ⟨hcurrent, hsold⟩ := s.fresh hstarted
  -- nothing is on offer before the start, so nothing has to be closed
  have hopened : s.opened = [] := by simp [Sale.opened, hcurrent, hsold]
  refine ⟨rfl, lists_popActive h.queue, strings_popActive h.queue, ?_, ?_, ?_, ?_, ?_⟩
  · rw [hopened, (sameAt_popActive w.redis (k := .expiredBidItems) (by simp) (by simp)).sets,
      h.expired, hsold]
  · rw [hopened]
    simp
  · exact fun lot hlot => (h.pending lot hlot).of_sameAt (hitem _)
      (by rw [hitems]; exact (h.pending lot hlot).absent)
  · exact h.data.of_sameAt (fun _ _ => sameAt_popActive _ (by simp) (by simp))
      h.data.loadable (by rw [hitems]; exact h.data.zero)
  · rw [hopened]
    simp

/-- A hand-over: the lot on offer is closed at some time. -/
theorem Refines.handed_close {s : Sale BidSequence} {w : World} (h : Refines s w)
    (hwf : WellFormed s.lots) {lot : BidSequence} (hcurrent : s.current = some lot)
    (d : Date) (n : ℕ) (item : BidItem) {row : BidItem}
    (hrow : w.db.bidItems lot.bidItemId = some row) :
    Handed s { w with
      redis := expire (popActive w.redis) lot.bidItemId d
      db := CommonDao.setRow w.db lot.bidItemId (CommonDao.closedRow row item)
      reads := n } := by
  have hsame : ∀ k : Key, k ≠ .bidItemSequenceIds → k ≠ .activeBidItemId →
      k ≠ .expiredBidItems → k ≠ .bidItem lot.bidItemId →
      Store.SameAt k (expire (popActive w.redis) lot.bidItemId d) w.redis :=
    fun k hq ha he hi => (sameAt_expire he hi d).trans (sameAt_popActive _ hq ha)
  have hitems : (expire (popActive w.redis) lot.bidItemId d).sets .bidItems =
      w.redis.sets .bidItems := (hsame .bidItems (by simp) (by simp) (by simp) (by simp)).sets
  have hlot : lot ∈ s.opened := Sale.mem_opened_of_current hcurrent
  refine ⟨?_, ?_, ?_, ?_, ?_, ?_, ?_, ?_⟩
  · rw [h.startFlag, Sale.started_of_current hcurrent]
    rfl
  · -- closing the item leaves the queue and the active id as the pop left them
    rw [(sameAt_expire (by simp) (by simp) d).lists]
    exact lists_popActive h.queue
  · rw [(sameAt_expire (by simp) (by simp) d).strings]
    exact strings_popActive h.queue
  · -- the lot on sale was not closed before, so it comes first in the set of expired items
    have hnew : .long lot.bidItemId ∉ w.redis.sets .expiredBidItems := by
      rw [h.expired]
      simp only [List.mem_reverse, List.mem_map, lotText, Text.long.injEq, not_exists, not_and]
      exact fun lot' hlot' => Sale.current_not_sold hwf.nodup hcurrent hlot'
    have hinsert : (expire (popActive w.redis) lot.bidItemId d).sets .expiredBidItems =
        (w.redis.sets .expiredBidItems).insert (.long lot.bidItemId) :=
      Store.sets_sadd (popActive w.redis) .expiredBidItems (.long lot.bidItemId)
    rw [hinsert, List.insert_of_not_mem hnew, h.expired]
    simp [Sale.opened, hcurrent, lotText]
  · -- an item that is closed stays in the cache
    intro lot' hlot'
    have hpop : Cached (popActive w.redis) lot'.bidItemId :=
      (h.opened lot' hlot').of_sameAt (sameAt_popActive _ (by simp) (by simp)) (fun _ ht => ht)
    by_cases heq : lot'.bidItemId = lot.bidItemId
    · rw [heq] at hpop ⊢
      exact hpop.expire d
    · exact hpop.of_sameAt (sameAt_expire (by simp) (by simpa using heq) d) (fun _ ht => ht)
  · -- a waiting lot is another one than that on sale, so its keys are not written
    intro lot' hlot'
    have hne : lot.bidItemId ≠ lot'.bidItemId :=
      Sale.opened_not_waiting hwf.nodup hlot hlot'
    exact (h.pending lot' hlot').of_sameAt
      (hsame _ (by simp) (by simp) (by simp) (by simpa using hne.symm))
      (by rw [hitems]; exact (h.pending lot' hlot').absent)
  · refine h.data.of_sameAt (fun _ _ => hsame _ (by simp) (by simp) (by simp) (by simp)) ?_
      (by rw [hitems]; exact h.data.zero)
    intro lot' hlot'
    exact (h.data.loadable lot' hlot').of_terms
      (CommonDao.map_terms_setRow (CommonDao.closedRow row item) hrow rfl _) rfl
  · -- the row of this lot has just been closed, those of the others were closed before
    intro lot' hlot'
    by_cases heq : lot'.bidItemId = lot.bidItemId
    · rw [heq]
      exact CommonDao.ended_setRow_closed _ _ _ _
    · have hsold : lot' ∈ s.sold := by
        rw [Sale.opened, hcurrent, Option.toList_some, List.mem_append,
          List.mem_singleton] at hlot'
        exact hlot'.resolve_right (fun h' => heq (h' ▸ rfl))
      exact (h.ended lot' hsold).setRow_of_ne heq _

/-! ## Out of the middle of a tick -/

/-- The queue was empty: the sale is over. -/
theorem Handed.refines_over {s : Sale BidSequence} {w : World} (h : Handed s w)
    (hwaiting : s.waiting = []) : Refines s.advance w := by
  have hopened : s.advance.opened = s.opened := by
    rw [Sale.opened_advance, hwaiting]
    simp
  refine ⟨h.startFlag, h.queue, h.active, h.expired, ?_, ?_, ?_, h.ended⟩
  · rw [hopened]
    exact h.opened
  · -- no lot waits any more
    intro lot hlot
    simp [Sale.advance, hwaiting] at hlot
  · rw [Sale.advance_lots]
    exact h.data

/-- The next lot is opened: its item is stored and its row is the loaded one. -/
theorem Handed.refines_open {env : Env} {s : Sale BidSequence} {w : World} (h : Handed s w)
    (hwf : WellFormed s.lots) {lot : BidSequence} (hnext : s.waiting.head? = some lot)
    {item : BidItem} {r : Redis} {db : Db} {t : ℕ}
    (hopen : Opening env w lot.bidItemId lot.bidspan lot.sequenceId item r db t) (n : ℕ) :
    Refines s.advance { w with redis := r, db := db, reads := n } := by
  obtain ⟨rest, hwaiting⟩ : ∃ rest, s.waiting = lot :: rest := by
    cases hw : s.waiting with
    | nil => simp [hw] at hnext
    | cons x xs => exact ⟨xs, by simpa [hw] using hnext⟩
  have hlot : lot ∈ s.waiting := by simp [hwaiting]
  obtain ⟨row, loaded, hloaded, hitem⟩ := hopen.loaded
  have hstored := hopen.stored
  have hfresh := h.pending lot hlot
  have hsub : ∀ x ∈ w.redis.sets .bidItems, x ∈ r.sets .bidItems := fun x hx => by
    rw [hstored.bidItems]
    exact List.mem_insert_of_mem hx
  -- the other lots of the line are different items
  have hrest : ∀ lot' ∈ rest, lot'.bidItemId ≠ lot.bidItemId := by
    have hnodup := hwf.nodup
    rw [Sale.lots, hwaiting, List.map_append, List.nodup_append, List.map_cons,
      List.nodup_cons] at hnodup
    intro lot' hlot' heq
    exact hnodup.2.1.1 (heq ▸ List.mem_map_of_mem hlot')
  refine ⟨h.startFlag, ?_, ?_, ?_, ?_, ?_, ?_, ?_⟩
  -- the opening writes keys of the item only, so the queue, the active id and the expired items
  -- are those of the hand-over
  · rw [(hstored.same .bidItemSequenceIds (fun hk => hk)).lists]
    exact h.queue
  · rw [(hstored.same .activeBidItemId (fun hk => hk)).strings]
    exact h.active
  · rw [(hstored.same .expiredBidItems (fun hk => hk)).sets]
    exact h.expired
  · intro lot' hlot'
    rw [Sale.opened_advance, hnext, Option.toList_some, List.mem_append,
      List.mem_singleton] at hlot'
    rcases hlot' with hlot' | rfl
    · have hne : lot'.bidItemId ≠ lot.bidItemId := Sale.opened_not_waiting hwf.nodup hlot' hlot
      exact (h.opened lot' hlot').of_sameAt (hstored.same _ hne) hsub
    · -- the new lot was absent, so every field is the one that was stored
      subst hitem
      exact Cached.of_stored hstored hfresh hloaded.bidItemId rfl rfl
  · intro lot' hlot'
    have hlot'' : lot' ∈ rest := by simpa [Sale.advance, hwaiting] using hlot'
    have hold := h.pending lot' (by simp [hwaiting, hlot''])
    have hne := hrest lot' hlot''
    refine hold.of_sameAt (hstored.same _ hne) ?_
    rw [hstored.bidItems, List.mem_insert_iff, not_or]
    exact ⟨by simpa using hne, hold.absent⟩
  · rw [Sale.advance_lots]
    refine h.data.of_sameAt (fun _ _ => hstored.same _ (fun hk => hk)) ?_ ?_
    · exact fun lot' hlot' => (h.data.loadable lot' hlot').of_terms (hopen.terms_eq _)
        hloaded.autoBids
    · rw [hstored.bidItems, List.mem_insert_iff, not_or]
      have hne := hwf.ne_zero lot (Sale.mem_lots_of_waiting hlot)
      exact ⟨by simpa using hne.symm, h.data.zero⟩
  · intro lot' hlot'
    have hopened : lot' ∈ s.opened := hlot'
    have hne : lot'.bidItemId ≠ lot.bidItemId := Sale.opened_not_waiting hwf.nodup hopened hlot
    obtain ⟨row', hrow', hend⟩ := h.ended lot' hopened
    refine ⟨row', ?_, hend⟩
    rw [hloaded.rows, Function.update_of_ne hne]
    exact hrow'

/-! ## Reading the sale off the cache -/

/-- The active item, if the key names one. -/
def activeItem (r : Redis) : Option ℤ :=
  match r.strings .activeBidItemId with
  | some (.long id) => if id = 0 then none else some id
  | _ => none

theorem Refines.active_of_current {s : Sale BidSequence} {w : World} (h : Refines s w)
    {lot : BidSequence} (hcurrent : s.current = some lot) :
    w.redis.strings .activeBidItemId = some (.long lot.bidItemId) := by
  rw [h.active, Sale.started_of_current hcurrent, if_pos rfl, hcurrent]
  rfl

theorem Refines.activeId_eq {s : Sale BidSequence} {w : World} (h : Refines s w)
    {lot : BidSequence} (hcurrent : s.current = some lot) :
    activeId w.redis = lot.bidItemId := by
  simp [activeId, h.active_of_current hcurrent]

/-- The active item of the cache is the lot on offer, if there is one. -/
theorem Refines.activeItem_eq {s : Sale BidSequence} {w : World} (h : Refines s w)
    (hwf : WellFormed s.lots) : activeItem w.redis = s.current.map BidSequence.bidItemId := by
  unfold activeItem
  cases hcurrent : s.current with
  | none =>
    rw [h.active, hcurrent]
    cases s.started <;> rfl
  | some lot =>
    have hne := hwf.ne_zero lot (Sale.mem_lots_of_opened (Sale.mem_opened_of_current hcurrent))
    simp [h.active_of_current hcurrent, hne]

theorem Refines.mem_expired {s : Sale BidSequence} {w : World} (h : Refines s w) (t : Text) :
    t ∈ w.redis.sets .expiredBidItems ↔ t ∈ (s.sold.map BidSequence.bidItemId).map Text.long := by
  rw [h.expired, List.mem_reverse, List.map_map]
  rfl

end Bidding.Model
