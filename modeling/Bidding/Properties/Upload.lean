import Mathlib.Data.List.Basic
import Mathlib.Tactic.NormNum
import Bidding.Model.FileUpload

/-!
# The Auctions of an Upload

A turn of the upload's loop creates an auction and then stores the item of the row in it, with
the item's lot. So a sheet with several rows makes several auctions, each with one item.

## Key Results

- **`saveRow_eq`**: what one turn adds to the tables.
- **`saveRows_uploaded`**: what the whole loop adds: an auction, an item and a lot for each row.
- **`oneAuction_iff`**: an upload makes one auction exactly if the sheet has one row.
-/

namespace Bidding.Model.FileUpload

/-- An item and a lot as they are read from a row. -/
abbrev Draft := BidItemEntity × ItemLotEntity

/-- The drafts of rows, from the one with number `i`: a sheet is well formed if they can be
    read. -/
def readRows (clock : ℕ → Moments) : ℕ → List (Option SheetRow) → Except Exn (List Draft)
  | _, [] => .ok []
  | i, row :: rows => do
    let draft ← readRow (clock i) row
    let drafts ← readRows clock (i + 1) rows
    .ok (draft :: drafts)

/-- An item up to the ids that saving gives it. -/
def unsavedItem (item : BidItemEntity) : BidItemEntity :=
  { item with bidItemId := 0, auctionId := none }

/-- A lot up to the ids that saving gives it. -/
def unsavedLot (lot : ItemLotEntity) : ItemLotEntity := { lot with lotId := 0, bidItemId := 0 }

/-- The tables with one more auction, the item of a draft in it and the lot of the item. -/
def Tables.add (db : Tables) (auction : CreateAuctionEntity) (id : ℤ) (draft : Draft) :
    Tables where
  auctions := db.auctions ++ [auction]
  bidItems := db.bidItems ++
    [{ draft.1 with bidItemId := id, auctionId := some auction.auctionId }]
  itemLots := db.itemLots ++ [{ draft.2 with bidItemId := id, lotId := id }]

section Loop

variable {gens : Generators} {clock : ℕ → Moments} {sheetName : String}

/-- The tables after one turn: the id of the item is taken after the auction has been saved. -/
theorem saveRow_eq {moments : Moments} {row : Option SheetRow} {draft : Draft} (db : Tables)
    (hread : readRow moments row = .ok draft) :
    ∃ auction : CreateAuctionEntity, ∃ id,
      auction.auctionId ∉ db.auctions.map CreateAuctionEntity.auctionId ∧
      id ∉ db.bidItems.map BidItemEntity.bidItemId ∧
      saveRow gens sheetName moments row db = .ok (db.add auction id draft) := by
  let auction : CreateAuctionEntity :=
    { newAuction sheetName moments with auctionId := gens.nextAuctionId db }
  let id := gens.nextBidItemId { db with auctions := db.auctions ++ [auction] }
  use auction, id, gens.auctionId_fresh db,
    gens.bidItemId_fresh { db with auctions := db.auctions ++ [auction] }
  unfold saveRow
  rw [hread]
  rfl

/-- What the loop adds to the tables: for each row an auction, an item in it and a lot of the
    item, in the order of the rows. -/
structure Uploaded (drafts : List Draft) (before after : Tables)
    (auctions : List CreateAuctionEntity) (items : List BidItemEntity)
    (lots : List ItemLotEntity) : Prop where
  auctions_eq : after.auctions = before.auctions ++ auctions
  items_eq : after.bidItems = before.bidItems ++ items
  lots_eq : after.itemLots = before.itemLots ++ lots
  own_auction : items.map BidItemEntity.auctionId = auctions.map (fun a => some a.auctionId)
  item_content : items.map unsavedItem = drafts.map (fun draft => unsavedItem draft.1)
  lot_content : lots.map unsavedLot = drafts.map (fun draft => unsavedLot draft.2)
  lot_item : lots.map ItemLotEntity.bidItemId = items.map BidItemEntity.bidItemId
  ids_new : ∀ id ∈ items.map BidItemEntity.bidItemId,
    id ∉ before.bidItems.map BidItemEntity.bidItemId
  ids_nodup : (items.map BidItemEntity.bidItemId).Nodup

/-- No rows change nothing. -/
theorem uploaded_nil (db : Tables) : Uploaded [] db db [] [] [] where
  auctions_eq := (List.append_nil _).symm
  items_eq := (List.append_nil _).symm
  lots_eq := (List.append_nil _).symm
  own_auction := rfl
  item_content := rfl
  lot_content := rfl
  lot_item := rfl
  ids_new := by simp
  ids_nodup := List.nodup_nil

/-- One more row before the others. -/
theorem Uploaded.cons {drafts : List Draft} {draft : Draft} {before after : Tables}
    {auctions : List CreateAuctionEntity} {items : List BidItemEntity}
    {lots : List ItemLotEntity} {auction : CreateAuctionEntity} {id : ℤ}
    (hid : id ∉ before.bidItems.map BidItemEntity.bidItemId)
    (h : Uploaded drafts (before.add auction id draft) after auctions items lots) :
    Uploaded (draft :: drafts) before after (auction :: auctions)
      ({ draft.1 with bidItemId := id, auctionId := some auction.auctionId } :: items)
      ({ draft.2 with bidItemId := id, lotId := id } :: lots) where
  auctions_eq := by simpa [Tables.add] using h.auctions_eq
  items_eq := by simpa [Tables.add] using h.items_eq
  lots_eq := by simpa [Tables.add] using h.lots_eq
  own_auction := congrArg (some auction.auctionId :: ·) h.own_auction
  item_content := by
    rw [List.map_cons, List.map_cons, h.item_content]
    rfl
  lot_content := by
    rw [List.map_cons, List.map_cons, h.lot_content]
    rfl
  lot_item := congrArg (id :: ·) h.lot_item
  ids_new := by
    intro i hi
    rcases List.mem_cons.mp hi with rfl | hi
    · exact hid
    · intro hmem
      apply h.ids_new i hi
      rw [Tables.add, List.map_append]
      exact List.mem_append_left _ hmem
  ids_nodup := by
    apply List.nodup_cons.mpr
    constructor
    · -- the ids of the later rows are new in tables that have this one
      intro hmem
      apply h.ids_new id hmem
      simp [Tables.add]
    · exact h.ids_nodup

/-- Rows that can all be read are all saved. -/
theorem saveRows_uploaded {rows : List (Option SheetRow)} {drafts : List Draft} {i : ℕ}
    (before : Tables) (hread : readRows clock i rows = .ok drafts) :
    ∃ after auctions items lots, saveRows gens clock sheetName i rows before = .ok after ∧
      Uploaded drafts before after auctions items lots := by
  induction rows generalizing i drafts before with
  | nil =>
    cases hread
    exact ⟨before, [], [], [], rfl, uploaded_nil before⟩
  | cons row rows ih =>
    cases hrow : readRow (clock i) row with
    | error e =>
      rw [readRows, hrow] at hread
      cases hread
    | ok draft =>
      cases hrest : readRows clock (i + 1) rows with
      | error e =>
        rw [readRows, hrow, hrest] at hread
        cases hread
      | ok rest =>
        rw [readRows, hrow, hrest] at hread
        cases hread
        -- the first row is saved into the tables, and the rest after it
        obtain ⟨auction, id, -, hid, hsave⟩ :=
          @saveRow_eq gens sheetName (clock i) row draft before hrow
        obtain ⟨after, auctions, items, lots, hafter, h⟩ :=
          ih (before.add auction id draft) hrest
        have hrun : saveRows gens clock sheetName i (row :: rows) before = .ok after := by
          rw [saveRows, hsave]
          exact hafter
        exact ⟨after, _, _, _, hrun, h.cons hid⟩

end Loop

/-- One upload makes one auction: with all its items, in the order of the rows, and a lot for
    each of them. -/
structure OneAuction (drafts : List Draft) (before after : Tables)
    (auction : CreateAuctionEntity) (items : List BidItemEntity)
    (lots : List ItemLotEntity) : Prop where
  auctions_eq : after.auctions = before.auctions ++ [auction]
  items_eq : after.bidItems = before.bidItems ++ items
  lots_eq : after.itemLots = before.itemLots ++ lots
  item_content : items.map unsavedItem = drafts.map (fun draft => unsavedItem draft.1)
  in_auction : ∀ item ∈ items, item.auctionId = some auction.auctionId
  lot_item : lots.map ItemLotEntity.bidItemId = items.map BidItemEntity.bidItemId
  ids_nodup : (items.map BidItemEntity.bidItemId).Nodup

/-- Of the well-formed sheets exactly those with one row make one auction. -/
theorem oneAuction_iff (gens : Generators) {clock : ℕ → Moments} {sheet : Sheet}
    {drafts : List Draft} (before : Tables) (hread : readRows clock 1 sheet.rows = .ok drafts) :
    (∃ after auction items lots, saveAuctionData gens clock sheet before = .ok after ∧
      OneAuction drafts before after auction items lots) ↔ drafts.length = 1 := by
  obtain ⟨after, auctions, items, lots, hsave, h⟩ :=
    @saveRows_uploaded gens clock sheet.sheetName sheet.rows drafts 1 before hread
  -- there are as many auctions as rows
  have hlen : auctions.length = drafts.length := by
    have hown := congrArg List.length h.own_auction
    have hcontent := congrArg List.length h.item_content
    simp only [List.length_map] at hown hcontent
    rw [← hown, hcontent]
  constructor
  · rintro ⟨after', auction, items', lots', hsave', hone⟩
    have heq : after' = after := by
      have hboth : Except.ok after' = (Except.ok after : Except Exn Tables) :=
        hsave'.symm.trans hsave
      exact Except.ok.inj hboth
    subst heq
    -- what the upload has added is the one auction
    have hauctions : auctions = [auction] :=
      List.append_cancel_left (h.auctions_eq.symm.trans hone.auctions_eq)
    rw [← hlen, hauctions, List.length_singleton]
  · intro hsingle
    obtain ⟨auction, rfl⟩ := List.length_eq_one_iff.mp (hlen.trans hsingle)
    use after, auction, items, lots, hsave
    apply OneAuction.mk h.auctions_eq h.items_eq h.lots_eq h.item_content _ h.lot_item h.ids_nodup
    intro item hitem
    have hmem : item.auctionId ∈ items.map BidItemEntity.auctionId := List.mem_map_of_mem hitem
    rw [h.own_auction] at hmem
    exact List.mem_singleton.mp hmem

/-! ## Sheets with one and with two rows -/

/-- An id after all that are in use. -/
def idAfter (ids : List ℤ) : ℤ := 1 + ids.foldr max 0

/-- The next id is new. -/
theorem idAfter_not_mem (ids : List ℤ) : idAfter ids ∉ ids := by
  -- no id is above the maximum
  have hle : ∀ l : List ℤ, ∀ i ∈ l, i ≤ l.foldr max 0 := by
    intro l
    induction l with
    | nil => simp
    | cons a l ih =>
      intro i hi
      rcases List.mem_cons.mp hi with rfl | hi
      · exact le_max_left _ _
      · exact (ih i hi).trans (le_max_right _ _)
  intro hmem
  have h := hle ids _ hmem
  unfold idAfter at h
  omega

/-- Generators that count. -/
def counting : Generators where
  nextAuctionId db := idAfter (db.auctions.map CreateAuctionEntity.auctionId)
  nextBidItemId db := idAfter (db.bidItems.map BidItemEntity.bidItemId ++
    db.itemLots.map ItemLotEntity.lotId)
  auctionId_fresh _ := idAfter_not_mem _
  bidItemId_fresh _ hmem := idAfter_not_mem _ (List.mem_append_left _ hmem)
  lotId_fresh _ hmem := idAfter_not_mem _ (List.mem_append_right _ hmem)

/-- A row with a text or a number in each column, as the upload reads them. -/
def fullRow (name : String) : Option SheetRow :=
  some ([.number 1, .blank, .blank, .number 7, .text name, .text "none", .text "1", .text "3-5",
    .number 20, .text "North", .number 100, .number 90, .number 5, .number 30, .text "INR",
    .text "Yard", .text "Pune"].map some)

/-- A clock that stands still. -/
def noon : ℕ → Moments := fun _ => ⟨0, 0, 0⟩

def noTables : Tables := ⟨[], [], []⟩

/-- The drafts of a sheet with one row. -/
def singleDrafts : List Draft := (readRows noon 1 [fullRow "Coil"]).toOption.getD []

/-- One row makes one auction, with its item and its lot. -/
theorem oneAuction_single :
    ∃ after auction items lots,
      saveAuctionData counting noon ⟨"Steel", [fullRow "Coil"]⟩ noTables = .ok after ∧
      OneAuction singleDrafts noTables after auction items lots ∧
      after.auctions.map (fun a => (a.auctionId, a.name)) = [(1, "Steel")] ∧
      after.bidItems.map (fun e => (e.bidItemId, e.auctionId, e.name, e.minBidPrice)) =
        [(1, some 1, "Coil", 90)] ∧
      after.itemLots.map (fun lot => (lot.lotId, lot.bidItemId, lot.quantity)) = [(1, 1, 20)] := by
  have hread : readRows noon 1 [fullRow "Coil"] = .ok singleDrafts := rfl
  obtain ⟨after, auction, items, lots, hsave, hone⟩ :=
    (@oneAuction_iff counting noon ⟨"Steel", [fullRow "Coil"]⟩ singleDrafts noTables hread).mpr
      (by decide +kernel)
  have hevaluated : saveAuctionData counting noon ⟨"Steel", [fullRow "Coil"]⟩ noTables = .ok _ :=
    rfl
  cases hsave.symm.trans hevaluated
  exact ⟨_, auction, items, lots, hsave, hone, by decide +kernel, by decide +kernel,
    by decide +kernel⟩

/-- Two rows make two auctions, each with one item. -/
theorem twoRows_two_auctions :
    ∃ after, saveAuctionData counting noon ⟨"Steel", [fullRow "Coil", fullRow "Rod"]⟩ noTables =
        .ok after ∧
      after.auctions.map (fun a => (a.auctionId, a.name)) = [(1, "Steel"), (2, "Steel")] ∧
      after.bidItems.map (fun e => (e.bidItemId, e.auctionId, e.name)) =
        [(1, some 1, "Coil"), (2, some 2, "Rod")] ∧
      after.itemLots.map (fun lot => (lot.lotId, lot.bidItemId)) = [(1, 1), (2, 2)] :=
  ⟨_, rfl, by decide +kernel, by decide +kernel, by decide +kernel⟩

end Bidding.Model.FileUpload
