import Bidding.Semantics.Footprint

/-!
# Loading and Closing Items in the Database

What `CommonDao.getBidItem` changes in an item and in its row, when it succeeds, and what
`CommonDao.updateBidItem` does to the row of a closed item.

## Key Results

- **`getBidItem_ok_iff`**: loading succeeds exactly when the row exists and the prices that
  the auto-bids need are there; this depends on nothing that a sale changes.
- **`Loadable.of_terms`**: so an item stays loadable while its terms stay.
-/

namespace Bidding.Model.CommonDao

open Bidding.Effects Bidding.Collections

/-! ## Resolution of the auto-bids -/

/-- The prices that the resolution of `autoBids` computes with are not `null`. -/
def Resolvable (minBidPrice minBidIncrement : Option ℚ) (autoBids : List AutoBids) : Prop :=
  match autoBids with
  | [] => True
  | [_] => minBidPrice.isSome ∧ minBidIncrement.isSome
  | _ :: _ :: _ =>
    match sort compareAutoBids autoBids with
    | a0 :: a1 :: _ => a1.bidAmount = a0.bidAmount ∨ minBidIncrement.isSome
    | _ => True

/-- The attributes that the resolution may change. -/
structure AutoBidChange (item resolved : BidItem) : Prop where
  eq : resolved = { item with
    autoBidFlag := resolved.autoBidFlag
    amountAutoBid := resolved.amountAutoBid
    currentAutoBidId := resolved.currentAutoBidId
    autoBidderName := resolved.autoBidderName
    currentMarketPrice := resolved.currentMarketPrice
    currentBiddersList := resolved.currentBiddersList }

/-- Adding the other auto-bids changes the list of bidders only. -/
theorem AutoBidChange.addOthers {item resolved : BidItem} (h : AutoBidChange item resolved)
    (times : ℕ → Date) (i : ℕ) (l : List AutoBids) :
    AutoBidChange item (CommonDao.addOthers times i l resolved) := by
  induction l generalizing i resolved with
  | nil => exact h
  | cons a rest ih =>
    have hadd : AutoBidChange item
        (resolved.addBidder (autoBidder a a.bidAmount none (times i))) := by
      constructor
      rw [h.eq]
      rfl
    exact ih hadd _

theorem unboxAdd_ok_iff (a b : Option ℚ) :
    (∃ q, unboxAdd a b = .ok q) ↔ a.isSome ∧ b.isSome := by
  cases a <;> cases b <;> simp [unboxAdd]

/-- The resolution succeeds exactly when its prices are there, and changes only the
    auto-bid attributes. -/
theorem resolveAutoBids_ok_iff (times : ℕ → Date) (item : BidItem) (autoBids : List AutoBids) :
    (∃ r, resolveAutoBids times item autoBids = .ok r) ↔
      Resolvable item.minBidPrice item.minBidIncrement autoBids := by
  rcases autoBids with _ | ⟨a, _ | ⟨b, rest⟩⟩
  · -- without auto-bids nothing is added up
    unfold resolveAutoBids Resolvable
    dsimp only
    split <;> simp
  · unfold resolveAutoBids Resolvable
    rw [← unboxAdd_ok_iff]
    cases unboxAdd item.minBidPrice item.minBidIncrement <;> simp [bind, Except.bind]
  · unfold resolveAutoBids Resolvable
    dsimp only
    -- only the sorted list matters, and it is cased on by both sides
    generalize sort compareAutoBids (a :: b :: rest) = sorted
    rcases sorted with _ | ⟨a0, _ | ⟨a1, others⟩⟩
    · exact iff_of_true ⟨_, rfl⟩ trivial
    · exact iff_of_true ⟨_, rfl⟩ trivial
    · unfold openingPrice
      by_cases hamount : a1.bidAmount = a0.bidAmount
      · simp [hamount, bind, Except.bind]
      · cases item.minBidIncrement <;> simp [hamount, unboxAdd, bind, Except.bind]

/-- The resolution changes only the auto-bid attributes. -/
theorem resolveAutoBids_change {times : ℕ → Date} {item resolved : BidItem}
    {autoBids : List AutoBids} (h : resolveAutoBids times item autoBids = .ok resolved) :
    AutoBidChange item resolved := by
  unfold resolveAutoBids at h
  split at h
  · split at h <;> (cases h; exact ⟨rfl⟩)
  · -- a single auto-bid: the minimum price plus the increment
    cases hprice : unboxAdd item.minBidPrice item.minBidIncrement with
    | error e => simp [hprice, bind, Except.bind] at h
    | ok price =>
      simp only [hprice, bind, Except.bind, Except.ok.injEq] at h
      subst h
      exact ⟨rfl⟩
  · split at h
    · rename_i a0 a1 rest _
      -- several: the price of the leader, then the entries of the others
      cases hprice : openingPrice item a0 a1 with
      | error e => simp [hprice, bind, Except.bind] at h
      | ok price =>
        simp only [hprice, bind, Except.bind, Except.ok.injEq] at h
        subst h
        exact AutoBidChange.addOthers ⟨rfl⟩ _ _ _
    · cases h
      exact ⟨rfl⟩

/-! ## Loading -/

/-- The attributes of a row on which a sale rests and which it never changes. -/
def terms (row : BidItem) : Option ℚ × Option ℚ × Option ℤ :=
  (row.minBidPrice, row.minBidIncrement, row.timeExtAfterBid)

/-- The item can be loaded by `CommonDaoImpl.getBidItem`, at any time. -/
def Loadable (db : Db) (id : ℤ) : Prop :=
  ∀ times, ∃ out, getBidItem times db id = .ok out

/-- A row is loaded exactly if it is there and its auto-bids can be resolved. -/
theorem getBidItem_ok_iff (times : ℕ → Date) (db : Db) (id : ℤ) :
    (∃ out, getBidItem times db id = .ok out) ↔
      ∃ row, db.bidItems id = some row ∧
        Resolvable row.minBidPrice row.minBidIncrement (activeAutoBids db id) := by
  unfold getBidItem
  cases db.bidItems id with
  | none => simp
  | some row =>
    have hres := resolveAutoBids_ok_iff times { row.persistent with bidItemId := some id }
      (activeAutoBids db id)
    simp only [Option.some.injEq, exists_eq_left']
    refine Iff.trans ?_ hres
    cases resolveAutoBids times { row.persistent with bidItemId := some id }
      (activeAutoBids db id) <;> simp [bind, Except.bind]

/-- An item stays loadable while the terms of its row and the auto-bids stay. -/
theorem Loadable.of_terms {db db' : Db} {id : ℤ} (h : Loadable db id)
    (hterms : (db'.bidItems id).map terms = (db.bidItems id).map terms)
    (hauto : db'.autoBids = db.autoBids) : Loadable db' id := by
  intro times
  obtain ⟨row, hrow, hres⟩ := (getBidItem_ok_iff times db id).mp (h times)
  rw [hrow, Option.map_some, Option.map_eq_some_iff] at hterms
  obtain ⟨row', hrow', heq⟩ := hterms
  simp only [terms, Prod.mk.injEq] at heq
  refine (getBidItem_ok_iff times db' id).mpr ⟨row', hrow', ?_⟩
  simpa only [activeAutoBids, hauto, heq.1, heq.2.1] using hres

/-- What a load returns and leaves behind. -/
structure Loaded (db : Db) (id : ℤ) (row item : BidItem) (db' : Db) : Prop where
  row_eq : db.bidItems id = some row
  bidItemId : item.bidItemId = some id
  terms_eq : terms item = terms row
  rows : db'.bidItems = Function.update db.bidItems id (some item.persistent)
  auctions : db'.auctions = db.auctions
  bidSequence : db'.bidSequence = db.bidSequence
  autoBids : db'.autoBids = db.autoBids

theorem saveAutoBidResultToBids_fst (item : BidItem) (now : Date) :
    (saveAutoBidResultToBids item now).1 = item.sortBidders.sortBidders.sortBidders := by
  unfold saveAutoBidResultToBids
  dsimp only
  split <;> rfl

/-- The row and the resolution of the auto-bids behind an item that was loaded. -/
theorem exists_resolved_of_getBidItem {times : ℕ → Date} {db db' : Db} {id : ℤ} {item : BidItem}
    (h : getBidItem times db id = .ok (item, db')) :
    ∃ row resolved, db.bidItems id = some row ∧
      resolveAutoBids times { row.persistent with bidItemId := some id } (activeAutoBids db id) =
        .ok resolved ∧
      item = (saveAutoBidResultToBids resolved (times (activeAutoBids db id).length)).1 ∧
      db' = flush { db with bids := db.bids ++
        (saveAutoBidResultToBids resolved (times (activeAutoBids db id).length)).2 } id item := by
  unfold getBidItem at h
  cases hrow : db.bidItems id with
  | none => simp [hrow] at h
  | some row =>
    simp only [hrow] at h
    cases hres : resolveAutoBids times { row.persistent with bidItemId := some id }
        (activeAutoBids db id) with
    | error e => simp [hres, bind, Except.bind] at h
    | ok resolved =>
      simp only [hres, bind, Except.bind, Except.ok.injEq, Prod.mk.injEq] at h
      obtain ⟨rfl, rfl⟩ := h
      exact ⟨row, resolved, rfl, hres, rfl, rfl⟩

/-- A load writes the row of the item and appends bids; all other tables stay. -/
theorem getBidItem_loaded {times : ℕ → Date} {db db' : Db} {id : ℤ} {item : BidItem}
    (h : getBidItem times db id = .ok (item, db')) : ∃ row, Loaded db id row item db' := by
  obtain ⟨row, resolved, hrow, hres, rfl, rfl⟩ := exists_resolved_of_getBidItem h
  have hchange := (resolveAutoBids_change hres).eq
  refine ⟨row, hrow, ?_, ?_, ?_, rfl, rfl, rfl⟩
  · rw [saveAutoBidResultToBids_fst, hchange]
    rfl
  · rw [saveAutoBidResultToBids_fst, hchange]
    rfl
  · rfl

/-! ## Closing -/

/-- The tables with another row for an item. -/
def setRow (db : Db) (id : ℤ) (row : BidItem) : Db :=
  { db with bidItems := Function.update db.bidItems id (some row) }

/-- The row of a closed item. -/
def closedRow (row item : BidItem) : BidItem :=
  { row with
    bidStartTime := item.bidStartTime
    bidEndTime := item.bidEndTime
    lastUpDateTime := item.lastUpDateTime
    currentMarketPrice := item.currentMarketPrice
    statusCode := some "END" }

theorem updateBidItem_ok {db : Db} {item row : BidItem} {id : ℤ}
    (hid : item.bidItemId = some id) (hrow : db.bidItems id = some row) :
    updateBidItem db (some item) = .ok (setRow db id (closedRow row item)) := by
  simp only [updateBidItem, hid, hrow]
  rfl

/-- An update changes the row of the item only. -/
theorem updateBidItem_eq {db db' : Db} {item : Option BidItem}
    (h : updateBidItem db item = .ok db') : ∃ id row, db' = setRow db id row := by
  unfold updateBidItem at h
  split at h
  · cases h
  · split at h
    · cases h
    · split at h
      · cases h
      · cases h
        exact ⟨_, _, rfl⟩

/-- The row of an item says that its sale is over. -/
def Ended (db : Db) (id : ℤ) : Prop :=
  ∃ row, db.bidItems id = some row ∧ row.statusCode = some "END"

section SetRow

variable {db : Db} {id : ℤ} {row : BidItem}

theorem bidItems_setRow_self (db : Db) (id : ℤ) (row : BidItem) :
    (setRow db id row).bidItems id = some row :=
  Function.update_self ..

theorem bidItems_setRow_of_ne {id' : ℤ} (h : id' ≠ id) (row : BidItem) :
    (setRow db id row).bidItems id' = db.bidItems id' :=
  Function.update_of_ne h ..

/-- A change of a row that keeps its terms changes no terms. -/
theorem map_terms_setRow (row' : BidItem) (hrow : db.bidItems id = some row)
    (hterms : terms row' = terms row) (id' : ℤ) :
    ((setRow db id row').bidItems id').map terms = (db.bidItems id').map terms := by
  by_cases h : id' = id
  · rw [h, bidItems_setRow_self, hrow, Option.map_some, Option.map_some, hterms]
  · rw [bidItems_setRow_of_ne h]

theorem Ended.setRow_of_ne {id' : ℤ} (hended : Ended db id') (h : id' ≠ id) (row : BidItem) :
    Ended (setRow db id row) id' := by
  unfold Ended
  rwa [bidItems_setRow_of_ne h]

theorem ended_setRow_closed (db : Db) (id : ℤ) (row item : BidItem) :
    Ended (setRow db id (closedRow row item)) id :=
  ⟨_, bidItems_setRow_self .., rfl⟩

end SetRow

end Bidding.Model.CommonDao
