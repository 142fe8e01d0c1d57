import Bidding.Semantics.Bidders

/-!
# Storing an Item and Reading It Back

`setBidItem` prints the attributes of an item into a hash, `getBidItem` parses them. An item
of which the cache has nothing comes back as it was, with two exceptions: the text of a false
auto-bid flag is not blank and is read as true, and a bidder without a name is not stored.

## Key Results

- **`registered_setCategories`**: what `setCategories` leaves for each category.
- **`agrees_attributes`**: the attributes that are not null come back.
- **`entries_roundTrip`**: the bidders that have a name come back.
- **`roundTrip_iff`**: an item comes back exactly if its flag is set and its bidders have names.
-/

namespace Bidding.Model

open Bidding.Effects Bidding.Effects.Action Bidding.KeyValue Bidding.Collections
open RedisCacheService

/-! ## Agreement of two items -/

/-- The second item has the attribute of the first, if that is not null. -/
def AgreesOn {α : Type} (get : BidItem → Option α) (item item' : BidItem) : Prop :=
  ∀ a, get item = some a → get item' = some a

/-- The attributes that are stored as fields of the item's hash, the auto-bid flag apart. -/
structure AgreesAttributes (item item' : BidItem) : Prop where
  bidItemId : AgreesOn BidItem.bidItemId item item'
  name : AgreesOn BidItem.name item item'
  location : AgreesOn BidItem.location item item'
  city : AgreesOn BidItem.city item item'
  zone : AgreesOn BidItem.zone item item'
  minBidPrice : AgreesOn BidItem.minBidPrice item item'
  minBidIncrement : AgreesOn BidItem.minBidIncrement item item'
  bidStartTime : AgreesOn BidItem.bidStartTime item item'
  bidEndTime : AgreesOn BidItem.bidEndTime item item'
  initialStartTime : AgreesOn BidItem.initialStartTime item item'
  timeExtAfterBid : AgreesOn BidItem.timeExtAfterBid item item'
  statusCode : AgreesOn BidItem.statusCode item item'
  lastUpDateTime : AgreesOn BidItem.lastUpDateTime item item'
  createdTime : AgreesOn BidItem.createdTime item item'
  currentMarketPrice : AgreesOn BidItem.currentMarketPrice item item'
  autobidid : AgreesOn BidItem.autobidid item item'
  amountAutoBid : AgreesOn BidItem.amountAutoBid item item'
  currency : AgreesOn BidItem.currency item item'
  auctionId : AgreesOn BidItem.auctionId item item'
  autoBidderName : AgreesOn BidItem.autoBidderName item item'
  currentAutoBidId : AgreesOn BidItem.currentAutoBidId item item'
  bidSpan : item'.bidSpan = item.bidSpan
  seqId : item'.seqId = item.seqId

/-- The items agree in all that is stored: attributes, flag, category and bidders. -/
structure Agrees (item item' : BidItem) : Prop where
  attributes : AgreesAttributes item item'
  autoBidFlag : item'.autoBidFlag = item.autoBidFlag
  category : item'.category = item.category
  bidders : ∀ e, e ∈ item'.currentBiddersList.map Bidder.entry ↔
    e ∈ item.currentBiddersList.map Bidder.entry

/-- Storing the item and reading it back gives an item that agrees with it. -/
def RoundTrip (env : Env) (w : World) (id : ℤ) (item : BidItem) : Prop :=
  ∃ item' w', run (handle env) (do setBidItem id item; getBidItem id : Act _) w =
    (.ok (some item'), w') ∧ Agrees item item'

/-! ## What is assumed of the item and the cache -/

/-- The cache has the category. -/
structure Registered (r : Redis) (c : Category) : Prop where
  categoryName : r.hashes (.category (valueOf c.categoryId)) .categoryName =
    c.categoryName.map Text.str
  categoryId : r.hashes (.category (valueOf c.categoryId)) .categoryId =
    some (valueOf c.categoryId)

/-- A date that is null or a whole second. -/
def WholeSecond (d : Option Date) : Prop := ∀ t, d = some t → ofSecond (secondOf t) = t

/-- The times of the item are whole seconds. -/
structure WholeSeconds (item : BidItem) : Prop where
  bidStartTime : WholeSecond item.bidStartTime
  bidEndTime : WholeSecond item.bidEndTime
  lastUpDateTime : WholeSecond item.lastUpDateTime
  createdTime : WholeSecond item.createdTime

/-! ## Categories -/

section Categories

variable (env : Env)

/-- The store after a category was stored. -/
def storeCategory (r : Redis) (c : Category) (name : String) : Redis :=
  ((r.sadd .categories (valueOf c.categoryId)).hset (.category (valueOf c.categoryId))
    .categoryName (.str name)).hset (.category (valueOf c.categoryId)) .categoryId
    (valueOf c.categoryId)

/-- Storing a category with a name. -/
theorem run_setCategoryEntry (w : World) {c : Category} {name : String}
    (hname : c.categoryName = some name) :
    run (handle env) (setCategoryEntry c) w =
      (.ok (), { w with redis := storeCategory w.redis c name }) := by
  unfold setCategoryEntry notNull
  rw [hname]
  rfl

/-- A category with a name is registered when it is stored, and stays so when one of another
    id is. -/
theorem registered_storeCategory {r : Redis} {c : Category} {name : String}
    (hname : c.categoryName = some name) : Registered (storeCategory r c name) c := by
  constructor <;> simp [storeCategory, hname]

/-- Storing a category leaves those with other ids. -/
theorem Registered.storeCategory_of_ne {r : Redis} {c c' : Category} (name : String)
    (h : Registered r c) (hne : valueOf c.categoryId ≠ valueOf c'.categoryId) :
    Registered (storeCategory r c' name) c := by
  have hkey : Key.category (valueOf c.categoryId) ≠ .category (valueOf c'.categoryId) :=
    fun heq => hne (Key.category.inj heq)
  have hsame : Store.SameAt (.category (valueOf c.categoryId)) (storeCategory r c' name) r :=
    (Store.sameAt_hset _ hkey _ _).trans ((Store.sameAt_hset _ hkey _ _).trans
      (Store.sameAt_sadd _ (by simp) _))
  constructor
  · rw [hsame.hashes, h.categoryName]
  · rw [hsame.hashes, h.categoryId]

/-- `setCategories` registers every category of a list with different ids and with names. -/
theorem registered_setCategories (w : World) {categories : List Category}
    (hids : (categories.map (fun c => valueOf c.categoryId)).Nodup)
    (hnames : ∀ c ∈ categories, c.categoryName ≠ none) :
    ∃ r, run (handle env) (setCategories categories) w = (.ok (), { w with redis := r }) ∧
      ∀ c ∈ categories, Registered r c := by
  suffices h : ∀ w : World, ∃ r, run (handle env) (forEach categories setCategoryEntry) w =
      (.ok (), { w with redis := r }) ∧ (∀ c ∈ categories, Registered r c) ∧
      ∀ c, valueOf c.categoryId ∉ categories.map (fun c => valueOf c.categoryId) →
        Registered w.redis c → Registered r c by
    obtain ⟨r, hrun, hall, -⟩ := h w
    exact ⟨r, run_guarded_ok hrun, hall⟩
  -- the categories stored so far stay registered while the rest is stored
  induction categories with
  | nil => exact fun w => ⟨w.redis, rfl, by simp, fun _ _ h => h⟩
  | cons c cs ih =>
    intro w
    obtain ⟨hc, hids⟩ := List.nodup_cons.mp hids
    obtain ⟨name, hname⟩ := Option.ne_none_iff_exists'.mp (hnames c List.mem_cons_self)
    obtain ⟨r, hrun, hall, hkeep⟩ := ih hids (fun c' hc' => hnames c' (List.mem_cons_of_mem _ hc'))
      { w with redis := storeCategory w.redis c name }
    refine ⟨r, (run_bind_ok (run_setCategoryEntry env w hname)).trans hrun, ?_, ?_⟩
    · rw [List.forall_mem_cons]
      exact ⟨hkeep c hc (registered_storeCategory hname), hall⟩
    · intro c' hc' hregistered
      rw [List.map_cons, List.mem_cons, not_or] at hc'
      exact hkeep c' hc'.2 (hregistered.storeCategory_of_ne name hc'.1)

/-- A registered category is read back. -/
theorem Registered.cachedCategory_eq {r : Redis} {c : Category} (h : Registered r c) :
    cachedCategory r (valueOf c.categoryId) = c := by
  obtain ⟨id, name⟩ := c
  have hname := h.categoryName
  have hid := h.categoryId
  simp only at hname hid
  simp only [cachedCategory, hname, hid, Option.map_map]
  congr 1
  · cases id <;> rfl
  · cases name <;> rfl

end Categories

/-! ## Attributes -/

section Attributes

variable {item item' : BidItem} {hash : Attr → Option Text} (attr : Attr)

/-- A number comes back as it was written. -/
theorem agreesOn_long {get : BidItem → Option ℤ} {text : Option ℤ → Text}
    (htext : ∀ n, text (some n) = .long n) (hcell : hash attr = some (text (get item)))
    (hget : get item' = some (valueOr 0 (parseLongOrZero (hash attr)))) :
    AgreesOn get item item' := by
  intro n hn
  rw [hget, hcell, hn, htext]
  rfl

/-- A price comes back as it was written. -/
theorem agreesOn_price {get : BidItem → Option ℚ} {dflt : Text}
    (hcell : hash attr = some (priceOr dflt (get item)))
    (hget : get item' = some (valueOr 0 (parsePriceOrZero (hash attr)))) :
    AgreesOn get item item' := by
  intro q hq
  rw [hget, hcell, hq]
  rfl

theorem agreesOn_string {get : BidItem → Option String}
    (hcell : hash attr = some (orEmpty (get item)))
    (hget : get item' = (hash attr).map Text.render) : AgreesOn get item item' := by
  intro s hs
  rw [hget, hcell, hs]
  rfl

/-- A date comes back if it is a whole second: the format has no more. -/
theorem agreesOn_date {get : BidItem → Option Date} (hwhole : WholeSecond (get item))
    (hcell : hash attr = some (dateOrEmpty (get item)))
    (hget : get item' = valueOr none (parseDateOrNull (hash attr))) :
    AgreesOn get item item' := by
  intro d hd
  rw [hget, hcell, hd]
  exact congrArg some (hwhole d hd)

end Attributes

/-- The attributes that are not null come back. -/
theorem agrees_attributes {r : Redis} {id : ℤ} {item : BidItem} (bidders : List Bidder)
    (hseconds : WholeSeconds item)
    (hhash : ∀ attr, r.hashes (.bidItem id) attr = cellText item attr) :
    AgreesAttributes item { cachedItem r id with currentBiddersList := bidders } where
  bidItemId := agreesOn_long .bidItemId (fun _ => rfl) (hhash _) rfl
  name := agreesOn_string .name (hhash _) rfl
  location := agreesOn_string .location (hhash _) rfl
  city := agreesOn_string .city (hhash _) rfl
  zone := agreesOn_string .zone (hhash _) rfl
  minBidPrice := agreesOn_price .minBidPrice (hhash _) rfl
  minBidIncrement := agreesOn_price .minBidIncrement (hhash _) rfl
  -- written without a null check, unlike the other dates
  bidStartTime := by
    intro d hd
    have hcell : cellText item .bidStartTime = some (Text.format d) := by
      simp only [cellText, bidItemCells, hd]
      rfl
    simp only [cachedItem, hhash, hcell]
    exact congrArg some (hseconds.bidStartTime d hd)
  bidEndTime := agreesOn_date .bidEndTime hseconds.bidEndTime (hhash _) rfl
  initialStartTime := agreesOn_long .initialStartTime (fun _ => rfl) (hhash _) rfl
  timeExtAfterBid := agreesOn_long .timeExtAfterBid (fun _ => rfl) (hhash _) rfl
  statusCode := agreesOn_string .statusCode (hhash _) rfl
  lastUpDateTime := agreesOn_date .lastUpDateTime hseconds.lastUpDateTime (hhash _) rfl
  createdTime := agreesOn_date .createdTime hseconds.createdTime (hhash _) rfl
  currentMarketPrice := agreesOn_price .currentMarketPrice (hhash _) rfl
  autobidid := agreesOn_long .autobidid (fun _ => rfl) (hhash _) rfl
  amountAutoBid := agreesOn_price .autoBidAmount (hhash _) rfl
  currency := agreesOn_string .currency (hhash _) rfl
  auctionId := agreesOn_long .auctionId (fun _ => rfl) (hhash _) rfl
  autoBidderName := agreesOn_string .autoBidderName (hhash _) rfl
  currentAutoBidId := agreesOn_long .currentAutoBidId (fun _ => rfl) (hhash _) rfl
  bidSpan := by
    simp only [cachedItem, hhash]
    rfl
  seqId := by
    simp only [cachedItem, hhash]
    rfl

/-! ## Bidders -/

section Bidders

variable {r r' : Redis} {id : ℤ} {bidders : List Bidder}

/-- With different names a bidder is the one that is found under its name. -/
theorem find_nameText (hnames : (bidders.map Bidder.bidderName).Nodup) {b : Bidder}
    (hb : b ∈ bidders) {t : Text} (ht : nameText b = some t) :
    bidders.find? (fun b => nameText b = some t) = some b := by
  cases hfind : bidders.find? (fun b => nameText b = some t) with
  | none =>
    have hnone := List.find?_eq_none.mp hfind b hb
    simp [ht] at hnone
  | some b' =>
    have hb' := List.mem_of_find?_eq_some hfind
    have ht' : nameText b' = some t := by simpa using List.find?_some hfind
    -- the text of a name determines the name
    have hinj : Function.Injective (Option.map Text.str) :=
      Option.map_injective fun _ _ h => Text.str.inj h
    rw [List.inj_on_of_nodup_map hnames hb' hb (hinj (ht'.trans ht.symm))]

/-- What is read for a bidder that was stored. -/
theorem entry_cachedBidder (hstored : StoredBidders id bidders r r') (habsent : Absent r id)
    (hnames : (bidders.map Bidder.bidderName).Nodup) {b : Bidder} (hb : b ∈ bidders) {t : Text}
    (ht : nameText b = some t) : (cachedBidder r' id t 0).entry = b.entry := by
  have hhash : ∀ attr, r'.hashes (.bidder id t) attr = bidderCell attr b := by
    intro attr
    rw [hstored.hash, habsent.bidder, find_nameText hnames hb ht]
    rfl
  simp only [cachedBidder, Bidder.entry, hhash, bidderCell, nameText]
  cases b.bidderName <;> cases b.isAutoBid <;> rfl

/-- The names that the server has for the item. -/
theorem mem_storedNames (hstored : StoredBidders id bidders r r') (habsent : Absent r id)
    {names : List Text} (hperm : names.Perm (r'.sets (.bidders id))) {t : Text} :
    t ∈ names ↔ ∃ b ∈ bidders, nameText b = some t := by
  rw [hperm.mem_iff, hstored.members, habsent.bidders]
  simp

theorem nodup_storedNames (hstored : StoredBidders id bidders r r') (habsent : Absent r id)
    {names : List Text} (hperm : names.Perm (r'.sets (.bidders id))) : names.Nodup := by
  rw [hperm.nodup_iff]
  apply hstored.nodup
  rw [habsent.bidders]
  exact List.nodup_nil

/-- Each stored name is in the hash of its bidder. -/
theorem name_storedNames (hstored : StoredBidders id bidders r r') (habsent : Absent r id)
    (hnames : (bidders.map Bidder.bidderName).Nodup)
    {names : List Text} (hperm : names.Perm (r'.sets (.bidders id))) {t : Text} (ht : t ∈ names) :
    ∃ s, t = .str s ∧ r'.hashes (.bidder id t) .bidderName = some t := by
  obtain ⟨b, hb, hname⟩ := (mem_storedNames hstored habsent hperm).mp ht
  obtain ⟨s, -, rfl⟩ := Option.map_eq_some_iff.mp hname
  refine ⟨s, rfl, ?_⟩
  rw [hstored.hash, habsent.bidder, find_nameText hnames hb hname]
  exact hname

/-- The bidders that have a name come back. -/
theorem entries_roundTrip (env : Env) (hstored : StoredBidders id bidders r r')
    (habsent : Absent r id)
    (hnames : (bidders.map Bidder.bidderName).Nodup) (n : ℕ)
    (e : Option String × Bool × ℚ) :
    e ∈ (cachedBidders env r' id (env.order.members (r'.sets (.bidders id))) n []).map
        Bidder.entry ↔
      ∃ b ∈ bidders, b.bidderName ≠ none ∧ b.entry = e := by
  have hperm := env.order.members_perm (r'.sets (.bidders id))
  -- the bidders are read back one for each name, in the order of the server
  rw [entries_cachedBidders env n [] (nodup_storedNames hstored habsent hperm)
    (fun t => name_storedNames hstored habsent hnames hperm)
    (fun b hb => absurd hb List.not_mem_nil)]
  simp only [List.map_nil, List.nil_append, List.mem_map,
    mem_storedNames hstored habsent hperm]
  constructor
  · intro h
    rcases h with ⟨t, ⟨b, hb, ht⟩, rfl⟩
    refine ⟨b, hb, ?_, (entry_cachedBidder hstored habsent hnames hb ht).symm⟩
    intro hnone
    simp [nameText, hnone] at ht
  · intro h
    rcases h with ⟨b, hb, hname, rfl⟩
    obtain ⟨s, hs⟩ := Option.ne_none_iff_exists'.mp hname
    have ht : nameText b = some (.str s) := by rw [nameText, hs, Option.map_some]
    exact ⟨.str s, ⟨b, hb, ht⟩, entry_cachedBidder hstored habsent hnames hb ht⟩

end Bidders

/-! ## The round trip -/

/-- What comes back of an item of which the cache had nothing; the store in between is the same
    whatever the clock and the server order. -/
theorem exists_roundTrip (w : World) {id : ℤ} {item : BidItem} {d : Date}
    (hid : item.bidItemId = some id) (hstart : item.bidStartTime = some d)
    (habsent : Absent w.redis id) :
    ∃ r, (∀ env, ∃ w', run (handle env) (do setBidItem id item; getBidItem id : Act _) w =
        (.ok (some (readBack env r id w.reads)), w')) ∧
      (∀ attr, r.hashes (.bidItem id) attr = cellText item attr) ∧
      Stored id item w.redis r ∧
      StoredBidders id item.sortBidders.currentBiddersList w.redis r := by
  obtain ⟨r, hset, hstored, hbidders⟩ := exists_setBidItem w id hstart
  have hhash : ∀ attr, r.hashes (.bidItem id) attr = cellText item attr := by
    intro attr
    rw [hstored.hash, habsent.hash, Option.none_or]
  -- what was written can be parsed again, so the read throws nothing
  have hread : Readable (r.hashes (.bidItem id)) := by
    intro attr
    rw [hhash]
    exact fits_cellText item attr
  have hmem : .long id ∈ r.sets .bidItems := by
    rw [hstored.bidItems]
    exact List.mem_insert_self
  have hitem : r.hashes (.bidItem id) .bidItemId = some (.long id) :=
    (hhash .bidItemId).trans (congrArg (fun n => some (valueOf n)) hid)
  refine ⟨r, ?_, hhash, hstored, hbidders⟩
  intro env
  have hget := run_getBidItem_readBack env { w with redis := r } hmem hread hitem
  exact ⟨_, (run_bind_ok (hset env)).trans hget⟩

/-- What comes back of an item of which the cache had nothing. -/
theorem run_roundTrip (env : Env) (w : World) {id : ℤ} {item : BidItem} {d : Date}
    (hid : item.bidItemId = some id) (hstart : item.bidStartTime = some d)
    (habsent : Absent w.redis id) :
    ∃ r w' n, run (handle env) (do setBidItem id item; getBidItem id : Act _) w =
        (.ok (some (readBack env r id n)), w') ∧
      (∀ attr, r.hashes (.bidItem id) attr = cellText item attr) ∧
      Stored id item w.redis r ∧
      StoredBidders id item.sortBidders.currentBiddersList w.redis r := by
  obtain ⟨r, hrun, hrest⟩ := exists_roundTrip w hid hstart habsent
  obtain ⟨w', hrun⟩ := hrun env
  exact ⟨r, w', w.reads, hrun, hrest⟩

/-- Whatever the flag was, its text is not blank. -/
theorem autoBidFlag_readBack (env : Env) {r : Redis} {id : ℤ} {item : BidItem} (n : ℕ)
    (hhash : ∀ attr, r.hashes (.bidItem id) attr = cellText item attr) :
    (readBack env r id n).autoBidFlag = true := by
  simp only [readBack, cachedItem, hhash]
  rfl

/-- **An item of which the cache has nothing comes back as it was exactly if its auto-bid flag
    is set and all its bidders have names.** -/
theorem roundTrip_iff (env : Env) (w : World) {id : ℤ} {item : BidItem} {c : Category}
    (hid : item.bidItemId = some id) (hstart : item.bidStartTime ≠ none)
    (hcategory : item.category = some c) (hregistered : Registered w.redis c)
    (hseconds : WholeSeconds item)
    (hnames : (item.currentBiddersList.map Bidder.bidderName).Nodup)
    (habsent : Absent w.redis id) :
    RoundTrip env w id item ↔
      item.autoBidFlag = true ∧ ∀ b ∈ item.currentBiddersList, b.bidderName ≠ none := by
  obtain ⟨d, hd⟩ := Option.ne_none_iff_exists'.mp hstart
  obtain ⟨r, w', n, hrun, hhash, hstored, hbidders⟩ := run_roundTrip env w hid hd habsent
  have hperm : item.sortBidders.currentBiddersList.Perm item.currentBiddersList :=
    sort_perm compareBidders _
  have hentries := entries_roundTrip env hbidders habsent
    ((hperm.map _).nodup_iff.mpr hnames) n
  have hflag := autoBidFlag_readBack env n hhash
  -- the category is read back by its id, from a hash that storing the item does not touch
  have hcat : (cachedItem r id).category = item.category := by
    have hcell : cellText item .categoryId = some (valueOf c.categoryId) := by
      simp only [cellText, bidItemCells, hcategory]
      rfl
    have hsame := hstored.same (.category (valueOf c.categoryId)) (fun h => h)
    have hregistered' : Registered r c := by
      constructor
      · rw [hsame.hashes, hregistered.categoryName]
      · rw [hsame.hashes, hregistered.categoryId]
    simp only [cachedItem, hhash, hcell, Option.map_some, hregistered'.cachedCategory_eq, hcategory]
  constructor
  · intro h
    obtain ⟨item', t, hrun', hagrees⟩ := h
    obtain ⟨rfl, rfl⟩ : _ = item' ∧ _ = t := by
      have hout := hrun.symm.trans hrun'
      simpa using hout
    refine ⟨hagrees.autoBidFlag.symm.trans hflag, fun b hb hnone => ?_⟩
    -- what comes back has a name, so a bidder without one is missing
    have hmem := (hagrees.bidders b.entry).mpr (List.mem_map_of_mem hb)
    obtain ⟨b', -, hname, hentry⟩ := (hentries b.entry).mp hmem
    apply hname
    rw [← hnone]
    exact congrArg Prod.fst hentry
  · intro h
    obtain ⟨htrue, hall⟩ := h
    refine ⟨_, w', hrun, agrees_attributes _ hseconds hhash, hflag.trans htrue.symm, hcat, ?_⟩
    intro e
    apply (hentries e).trans
    rw [List.mem_map]
    constructor
    · intro he
      rcases he with ⟨b, hb, -, rfl⟩
      exact ⟨b, hperm.mem_iff.mp hb, rfl⟩
    · intro he
      rcases he with ⟨b, hb, rfl⟩
      exact ⟨b, hperm.mem_iff.mpr hb, hall b hb, rfl⟩

/-- An item of a category, with one bidder. -/
def copperItem (autoBidFlag : Bool) : BidItem :=
  { BidItem.new with
    bidItemId := some 11
    auctionId := some 1
    bidStartTime := some 0
    category := some ⟨some 5, some "Copper"⟩
    autoBidFlag := autoBidFlag
    currentBiddersList := [⟨some "bidder1", 100, true, 0, none⟩] }

/-- A cache that has the category and nothing else. -/
def copperWorld : World :=
  { World.initial .empty with
    redis := storeCategory Store.empty ⟨some 5, some "Copper"⟩ "Copper" }

/-- The only date of the item is a whole second. -/
theorem wholeSeconds_copperItem (autoBidFlag : Bool) : WholeSeconds (copperItem autoBidFlag) where
  bidStartTime := by
    intro d hd
    cases hd
    rfl
  bidEndTime := by
    intro d hd
    cases hd
  lastUpDateTime := by
    intro d hd
    cases hd
  createdTime := by
    intro d hd
    cases hd

/-- The cache has nothing of item `11`. -/
theorem absent_copperWorld : Absent copperWorld.redis 11 := ⟨fun _ => rfl, rfl, fun _ _ => rfl⟩

/-- With the flag set the item comes back. -/
theorem roundTrip_copperItem : RoundTrip (Env.still 0) copperWorld 11 (copperItem true) :=
  (roundTrip_iff (Env.still 0) copperWorld rfl (by simp [copperItem]) rfl
    (registered_storeCategory rfl) (wholeSeconds_copperItem true) (by decide)
    absent_copperWorld).mpr ⟨rfl, by decide⟩

/-- Without it the item comes back with the flag set. -/
theorem copperItem_flag_lost : ¬ RoundTrip (Env.still 0) copperWorld 11 (copperItem false) := by
  intro h
  obtain ⟨item', t, hrun, hagrees⟩ := h
  have hid : (copperItem false).bidItemId = some 11 := rfl
  obtain ⟨r, w', n, hrun', hhash, -⟩ := run_roundTrip (Env.still 0) copperWorld hid rfl
    absent_copperWorld
  obtain ⟨rfl, -⟩ : _ = item' ∧ _ = t := by simpa using hrun'.symm.trans hrun
  have hflag := hagrees.autoBidFlag
  rw [autoBidFlag_readBack _ n hhash] at hflag
  cases hflag

end Bidding.Model
