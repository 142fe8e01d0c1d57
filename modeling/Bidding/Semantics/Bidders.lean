import Bidding.Semantics.CacheWrites

/-!
# Bidders in the Cache

An item's bidders are kept as a set of names and one hash for each name. The first write of a
bidder's hash wins, and a bidder without a name is not written at all.

## Key Results

- **`StoredBidders`**: what storing an item leaves under the keys of its bidders.
- **`run_setBidItem_bidders`**: storing an item leaves that behind, besides `Stored`.
- **`entries_cachedBidders`**: what is read back for a set of different names.
-/

namespace Bidding.Model

/-- What the cache keeps of a bidder. -/
def Bidder.entry (b : Bidder) : Option String × Bool × ℚ :=
  (b.bidderName, b.isAutoBid, b.currentBidAmount)

namespace RedisCacheService

open Bidding.Effects Bidding.Effects.Action Bidding.KeyValue Bidding.Collections

variable (env : Env) (w : World)

/-! ## Writing -/

/-- The text under which a bidder is stored. -/
def nameText (b : Bidder) : Option Text := b.bidderName.map Text.str

/-- The text that `setBidder` has for a field. -/
def bidderCell (attr : Attr) (b : Bidder) : Option Text :=
  match attr with
  | .bidderName => nameText b
  | .autoBid => some (.bool b.isAutoBid)
  | .bidAmount => some (.double b.currentBidAmount)
  | _ => none

/-- The store after a bidder was stored. -/
def storeBidder (id : ℤ) (r : Redis) (b : Bidder) : Redis :=
  match nameText b with
  | none => r
  | some t =>
    (((r.sadd (.bidders id) t).hsetnx (.bidder id t) .bidderName t).hsetnx (.bidder id t) .autoBid
      (.bool b.isAutoBid)).hsetnx (.bidder id t) .bidAmount (.double b.currentBidAmount)

/-- Storing a bidder writes the entry of that name; a bidder without a name is skipped. -/
theorem run_setBidder (id : ℤ) (b : Bidder) :
    run (handle env) (setBidder id b) w =
      (.ok (), { w with redis := storeBidder id w.redis b }) := by
  unfold setBidder storeBidder nameText
  rw [run_guarded]
  cases b.bidderName with
  | none => rfl
  | some name => rfl

/-- Storing the bidders of an item, best first. -/
theorem run_setBidders (id : ℤ) (item : BidItem) :
    run (handle env) (setBidders id item) w = (.ok (), { w with
      redis := item.sortBidders.currentBiddersList.foldl (storeBidder id) w.redis }) := by
  unfold setBidders
  generalize item.sortBidders.currentBiddersList = l
  -- the loop only touches the cache
  have hfold : ∀ w : World, l.foldl (fun (t : World) b =>
      { t with redis := storeBidder id t.redis b }) w =
      { w with redis := l.foldl (storeBidder id) w.redis } := by
    induction l with
    | nil => exact fun _ => rfl
    | cons b bs ih => exact fun w => ih { w with redis := storeBidder id w.redis b }
  rw [← hfold]
  exact run_forEach (fun b _ t => run_setBidder env t id b) w

section StoreBidder

variable {id : ℤ} {r : Redis} {b : Bidder}

/-- The names in the cache after a bidder is stored. -/
theorem mem_storeBidder {t : Text} :
    t ∈ (storeBidder id r b).sets (.bidders id) ↔
      t ∈ r.sets (.bidders id) ∨ nameText b = some t := by
  unfold storeBidder
  cases nameText b with
  | none => simp
  | some t' =>
    simp only [Store.sets_hsetnx, Store.sets_sadd, List.mem_insert_iff, Option.some.injEq]
    rw [or_comm, eq_comm]

/-- No name is listed twice. -/
theorem nodup_storeBidder (h : (r.sets (.bidders id)).Nodup) :
    ((storeBidder id r b).sets (.bidders id)).Nodup := by
  unfold storeBidder
  cases nameText b with
  | none => exact h
  | some t =>
    simp only [Store.sets_hsetnx, Store.sets_sadd]
    exact h.insert

/-- What was there stays; otherwise the bidder of that name is written. -/
theorem hashes_storeBidder (t : Text) (attr : Attr) :
    (storeBidder id r b).hashes (.bidder id t) attr = (r.hashes (.bidder id t) attr).or
      (if nameText b = some t then bidderCell attr b else none) := by
  unfold storeBidder
  cases hname : nameText b with
  | none => simp
  | some t' =>
    by_cases ht : t' = t
    · -- the fields of that name are written one after the other, each if it is not there
      subst ht
      have hsadd : (r.sadd (.bidders id) t').hashes = r.hashes := rfl
      simp only [Store.hashes_hsetnx, Option.or_assoc, if_true, hsadd]
      congr 1
      cases attr <;> simp [bidderCell, hname]
    · have hkey : Key.bidder id t ≠ Key.bidder id t' := fun h => ht (Key.bidder.inj h).2.symm
      rw [((Store.sameAt_hsetnx _ hkey _ _).trans ((Store.sameAt_hsetnx _ hkey _ _).trans
        ((Store.sameAt_hsetnx _ hkey _ _).trans (Store.sameAt_sadd _ (by simp) _)))).hashes]
      simp [ht]

end StoreBidder

/-- What storing a list of bidders leaves behind. -/
structure StoredBidders (id : ℤ) (bidders : List Bidder) (r r' : Redis) : Prop where
  members : ∀ t, t ∈ r'.sets (.bidders id) ↔
    t ∈ r.sets (.bidders id) ∨ ∃ b ∈ bidders, nameText b = some t
  nodup : (r.sets (.bidders id)).Nodup → (r'.sets (.bidders id)).Nodup
  hash : ∀ t attr, r'.hashes (.bidder id t) attr = (r.hashes (.bidder id t) attr).or
    ((bidders.find? (fun b => nameText b = some t)).bind (bidderCell attr))

/-- Storing the bidders one by one; of two with one name the first counts. -/
theorem storedBidders_foldl (id : ℤ) (bidders : List Bidder) (r : Redis) :
    StoredBidders id bidders r (bidders.foldl (storeBidder id) r) := by
  induction bidders generalizing r with
  | nil => exact ⟨by simp, fun h => h, by simp⟩
  | cons b bs ih =>
    have hrest := ih (storeBidder id r b)
    refine ⟨fun t => ?_, fun h => hrest.nodup (nodup_storeBidder h), fun t attr => ?_⟩
    · rw [List.foldl_cons, hrest.members, mem_storeBidder, or_assoc]
      simp only [List.exists_mem_cons_iff]
    · rw [List.foldl_cons, hrest.hash, hashes_storeBidder, Option.or_assoc]
      congr 1
      by_cases hname : nameText b = some t
      · rw [List.find?_cons_of_pos (by simp [hname]), if_pos hname]
        -- every cell of a bidder with a name has a text, or no bidder has one
        cases attr <;> simp [bidderCell, hname]
      · rw [List.find?_cons_of_neg (by simp [hname]), if_neg hname, Option.none_or]

/-- The keys of an item's bidders. -/
def BidderKey (id : ℤ) (k : Key) : Prop := k = .bidders id ∨ ∃ t, k = .bidder id t

/-- Only the keys of the bidders matter. -/
theorem StoredBidders.congr {id : ℤ} {bidders : List Bidder} {r r' s s' : Redis}
    (h : StoredBidders id bidders r r') (hr : ∀ k, BidderKey id k → Store.SameAt k r s)
    (hr' : ∀ k, BidderKey id k → Store.SameAt k r' s') : StoredBidders id bidders s s' := by
  have hset := (hr _ (.inl rfl)).sets
  have hset' := (hr' _ (.inl rfl)).sets
  refine ⟨fun t => ?_, fun hnodup => ?_, fun t attr => ?_⟩
  · rw [← hset, ← hset']
    exact h.members t
  · rw [← hset] at hnodup
    rw [← hset']
    exact h.nodup hnodup
  · rw [← (hr _ (.inr ⟨t, rfl⟩)).hashes, ← (hr' _ (.inr ⟨t, rfl⟩)).hashes]
    exact h.hash t attr

/-- Storing an item with a start time leaves the same store whatever the clock and the server
    order, with what is left of its bidders. -/
theorem exists_setBidItem (id : ℤ) {item : BidItem} {d : Date}
    (hstart : item.bidStartTime = some d) :
    ∃ r, (∀ env, run (handle env) (setBidItem id item) w = (.ok (), { w with redis := r })) ∧
      Stored id item w.redis r ∧
      StoredBidders id item.sortBidders.currentBiddersList w.redis r := by
  -- the run step by step: fields, bidders, category
  obtain ⟨texts, htexts⟩ := bidItemCells_ok hstart
  let r₁ := texts.foldl (fun r c => r.hsetnx (.bidItem id) c.1 c.2)
    (w.redis.sadd .bidItems (.long id))
  let r₂ := item.sortBidders.currentBiddersList.foldl (storeBidder id) r₁
  obtain ⟨r₃, hcategory, hsame⟩ : ∃ r₃, (∀ env, run (handle env) (setCategory id item.category)
      { w with redis := r₂ } = (.ok (), { w with redis := r₃ })) ∧
      ∀ k, BidderKey id k → Store.SameAt k r₂ r₃ := by
    cases item.category with
    | none => exact ⟨r₂, fun _ => rfl, fun _ _ => Store.SameAt.refl _ _⟩
    | some c =>
      refine ⟨_, fun env => run_guarded_ok (run_sadd env _ _ _), fun k hk => ?_⟩
      apply (Store.sameAt_sadd _ _ _).symm
      rcases hk with rfl | ⟨t, rfl⟩ <;> simp
  have hsteps : ∀ env, run (handle env) (setBidItem id item) w =
      (.ok (), { w with redis := r₃ }) := by
    intro env
    refine run_guarded_ok ?_
    rw [run_bind_ok (run_sadd env w _ _), htexts, run_bind_ok (run_writeCells env _ id texts),
      run_bind_ok (run_setBidders env _ id item)]
    exact hcategory env
  -- what is stored of the fields is known for one environment, and the run is the same for all
  obtain ⟨r, n, hrun, hstored⟩ := run_setBidItem (Env.still 0) w id hstart
  have hr : r = r₃ := congrArg (fun out => out.2.redis) (hrun.symm.trans (hsteps _))
  rw [hr] at hstored
  refine ⟨r₃, hsteps, hstored, ?_⟩
  apply (storedBidders_foldl id item.sortBidders.currentBiddersList r₁).congr _ hsame
  intro k hk
  apply (Store.sameAt_foldl_hsetnx _ _ texts).trans (Store.sameAt_sadd _ _ _)
  · rcases hk with rfl | ⟨t, rfl⟩ <;> simp
  · rcases hk with rfl | ⟨t, rfl⟩ <;> simp

/-- Storing an item with a start time, with what is left of its bidders. -/
theorem run_setBidItem_bidders (id : ℤ) {item : BidItem} {d : Date}
    (hstart : item.bidStartTime = some d) :
    ∃ r n, run (handle env) (setBidItem id item) w =
      (.ok (), { w with redis := r, reads := w.reads + n }) ∧ Stored id item w.redis r ∧
      StoredBidders id item.sortBidders.currentBiddersList w.redis r := by
  obtain ⟨r, hrun, hstored⟩ := exists_setBidItem w id hstart
  exact ⟨r, 0, hrun env, hstored⟩

/-- Writing cells stops at the first one without a text. -/
theorem run_writeCells_error (id : ℤ) (texts : List (Attr × Text)) (attr : Attr) (e : Exn)
    (cells : List (Attr × Except Exn Text)) :
    run (handle env) (forEach (texts.map (fun c => (c.1, Except.ok c.2)) ++
        (attr, .error e) :: cells) (writeCell id)) w =
      (.error e, { w with
        redis := texts.foldl (fun r c => r.hsetnx (.bidItem id) c.1 c.2) w.redis }) := by
  induction texts generalizing w with
  | nil => rfl
  | cons c cs ih => exact ih { w with redis := w.redis.hsetnx (.bidItem id) c.1 c.2 }

/-- The cache has no key of the item. -/
structure Absent (r : Redis) (id : ℤ) : Prop where
  hash : ∀ attr, r.hashes (.bidItem id) attr = none
  bidders : r.sets (.bidders id) = []
  bidder : ∀ t attr, r.hashes (.bidder id t) attr = none

/-- Storing an item without a start time stops before the start time: fields in front of it are
    written, and none of the bidders. -/
theorem exists_setBidItem_of_no_start {id : ℤ} {item : BidItem}
    (hstart : item.bidStartTime = none) (habsent : Absent w.redis id) :
    ∃ r, (∀ env, run (handle env) (setBidItem id item) w = (.ok (), { w with redis := r })) ∧
      .long id ∈ r.sets .bidItems ∧ Readable (r.hashes (.bidItem id)) ∧
      r.hashes (.bidItem id) .bidItemId = some (valueOf item.bidItemId) ∧
      r.sets (.bidders id) = [] := by
  -- the cells in front of the start time have texts, and that of the start time has none
  obtain ⟨texts, attr, cells, hcells⟩ : ∃ (texts : List (Attr × Text)) (attr : Attr)
      (cells : List (Attr × Except Exn Text)), bidItemCells item =
        ((.bidItemId, valueOf item.bidItemId) :: texts).map (fun c => (c.1, Except.ok c.2)) ++
          (attr, .error .nullPointer) :: cells := by
    unfold bidItemCells
    rw [hstart]
    exact ⟨[(.name, _), (.location, _), (.city, _), (.zone, _), (.minBidPrice, _),
      (.minBidIncrement, _)], .bidStartTime, _, rfl⟩
  let written := (Attr.bidItemId, valueOf item.bidItemId) :: texts
  let r := written.foldl (fun r c => r.hsetnx (.bidItem id) c.1 c.2)
    (w.redis.sadd .bidItems (.long id))
  have hhash : ∀ attr, r.hashes (.bidItem id) attr =
      (written.find? (fun c => c.1 = attr)).map Prod.snd := by
    intro attr
    rw [Store.hashes_foldl_hsetnx]
    show (w.redis.hashes (.bidItem id) attr).or _ = _
    rw [habsent.hash, Option.none_or]
  refine ⟨r, ?_, ?_, ?_, hhash .bidItemId, ?_⟩
  · intro env
    have hbody := run_writeCells_error env { w with redis := w.redis.sadd .bidItems (.long id) } id
      written attr .nullPointer cells
    rw [← hcells] at hbody
    unfold setBidItem
    rw [run_guarded, run_bind_ok (run_sadd env w _ _), run_bind_error hbody]
  · rw [(Store.sameAt_foldl_hsetnx _ (by simp) written).sets, Store.sets_sadd]
    exact List.mem_insert_self
  · -- each text that was written is the text of its cell
    intro attr
    rw [hhash]
    cases hfind : written.find? (fun c => c.1 = attr) with
    | none => exact fits_none attr
    | some c =>
      have hattr : c.1 = attr := by simpa using List.find?_some hfind
      have hmem : (attr, Except.ok c.2) ∈ bidItemCells item := by
        rw [hcells, ← hattr]
        exact List.mem_append_left _ (List.mem_map_of_mem (List.mem_of_find?_eq_some hfind))
      rw [Option.map_some, ← cellText_of_mem hmem]
      exact fits_cellText item attr
  · -- the bidders come after the cells, so that none is written
    rw [(Store.sameAt_foldl_hsetnx _ (by simp) written).sets]
    exact habsent.bidders

/-! ## Reading -/

/-- The item that is read from a store, its first bidder at the clock reading `n`. -/
def readBack (r : Redis) (id : ℤ) (n : ℕ) : BidItem :=
  { cachedItem r id with
    currentBiddersList :=
      cachedBidders env r id (env.order.members (r.sets (.bidders id))) n [] }

/-- A cached item whose fields all parse and that knows its id is read as `readBack`. -/
theorem run_getBidItem_readBack {id : ℤ} (hmem : .long id ∈ w.redis.sets .bidItems)
    (hread : Readable (w.redis.hashes (.bidItem id)))
    (hid : w.redis.hashes (.bidItem id) .bidItemId = some (.long id)) :
    run (handle env) (getBidItem id) w = (.ok (some (readBack env w.redis id w.reads)),
      { w with reads := w.reads + bidderCount w.redis id }) := by
  have hitem : (cachedItem w.redis id).bidItemId.getD 0 = id := by
    simp only [cachedItem, hid]
    rfl
  have hget := run_getBidItem_bidders env w id hmem hread
  rw [cachedBiddersOf, hitem] at hget
  exact hget

/-- A bidder of a new name is added at the end. -/
theorem putBidder_of_new {l : List Bidder} {b : Bidder}
    (h : ∀ b' ∈ l, b'.bidderName ≠ b.bidderName) : putBidder l b = l ++ [b] := by
  unfold putBidder
  rw [List.findIdx?_eq_none_iff.mpr (fun b' hb' => by simp [h b' hb'])]

/-- Bidders of different names, none of them in the list, are read back one by one, each with
    the time of its reading. -/
theorem cachedBidders_eq {r : Redis} {id : ℤ} {names : List Text} (n : ℕ)
    (bidders : List Bidder) (hnames : names.Nodup)
    (hstr : ∀ t ∈ names, ∃ s, t = .str s ∧ r.hashes (.bidder id t) .bidderName = some t)
    (hnew : ∀ b ∈ bidders, ∀ t ∈ names, b.bidderName ≠ some t.render) :
    cachedBidders env r id names n bidders =
      bidders ++ (names.zipIdx n).map (fun p => cachedBidder r id p.1 (env.clock p.2)) := by
  induction names generalizing n bidders with
  | nil => simp [cachedBidders]
  | cons t names ih =>
    obtain ⟨s, rfl, hname⟩ := hstr t List.mem_cons_self
    have hread : (cachedBidder r id (.str s) (env.clock n)).bidderName = some s := by
      simp only [cachedBidder, hname]
      rfl
    -- the name is new, so the entry is appended
    have hput : putBidder bidders (cachedBidder r id (.str s) (env.clock n)) =
        bidders ++ [cachedBidder r id (.str s) (env.clock n)] := by
      apply putBidder_of_new
      intro b hb
      rw [hread]
      exact hnew b hb (.str s) List.mem_cons_self
    obtain ⟨hfresh, hrest⟩ := List.nodup_cons.mp hnames
    rw [cachedBidders, hput, ih _ _ hrest (fun t ht => hstr t (List.mem_cons_of_mem _ ht))]
    · simp
    · intro b hb t ht
      rcases List.mem_append.mp hb with hb | hb
      · exact hnew b hb t (List.mem_cons_of_mem _ ht)
      · rw [List.mem_singleton.mp hb, hread]
        obtain ⟨s', rfl, -⟩ := hstr t (List.mem_cons_of_mem _ ht)
        intro heq
        apply hfresh
        have hs : s = s' := Option.some.inj heq
        rwa [hs]

/-- What is read back of them, the times apart. -/
theorem entries_cachedBidders {r : Redis} {id : ℤ} {names : List Text} (n : ℕ)
    (bidders : List Bidder) (hnames : names.Nodup)
    (hstr : ∀ t ∈ names, ∃ s, t = .str s ∧ r.hashes (.bidder id t) .bidderName = some t)
    (hnew : ∀ b ∈ bidders, ∀ t ∈ names, b.bidderName ≠ some t.render) :
    (cachedBidders env r id names n bidders).map Bidder.entry =
      bidders.map Bidder.entry ++ names.map (fun t => (cachedBidder r id t 0).entry) := by
  rw [cachedBidders_eq env n bidders hnames hstr hnew, List.map_append, List.map_map]
  congr 1
  have hentry : (Bidder.entry ∘ fun p : Text × ℕ => cachedBidder r id p.1 (env.clock p.2)) =
      (fun t => (cachedBidder r id t 0).entry) ∘ Prod.fst := rfl
  rw [hentry, ← List.map_map, List.zipIdx_map_fst]

end RedisCacheService

end Bidding.Model
