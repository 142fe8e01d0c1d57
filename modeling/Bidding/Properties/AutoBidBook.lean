import Bidding.Properties.AutoBidRows
import Bidding.Properties.Standings

/-!
# Does a Lot Open with What the Bidders Ordered?

For the bidders the table of auto-bids is a book of orders: at most one for each item and bidder,
which a new order replaces and a cancellation takes out. The table keeps all rows and marks the
ones that count. Here the calls on the table are shown to be the operations on the book, and the
list of bidders with which `getBidItem` opens an item to be the page of that item in the book.

## Architecture

- **`Desk`**: the abstract model, a book and the number of the last order.
- **`Booked`**: what the table says about the book; **`Kept`** is the part of the tables that no
  call changes.

## Key Results

- **`Booked.serve`**: a call on the table is an operation on the book.
- **`perm_getBidItem`**: the bidders of an item that is loaded, in terms of its live rows.
- **`opening_of_calls`**: after every sequence of calls an item opens with the orders of the book.

A cancellation needs the number of an order only, so anyone can cancel any order of the book.
-/

namespace Bidding.Model.BidderDao

open Bidding.Collections Bidding.Effects

/-! ## The book -/

/-- An order of the book: its number and the amount up to which it bids. -/
structure Order where
  number : ℤ
  amount : ℚ
  deriving DecidableEq

/-- The orders by item and bidder. -/
abbrev Book := ℤ → String → Option Order

/-- The book, and the number that was given last. -/
structure Desk where
  book : Book
  issued : ℤ

namespace Desk

/-- Nobody has ordered anything. -/
def empty : Desk where
  book _ _ := none
  issued := 0

/-- A new order. It replaces the orders for the item of all bidders whose names count as the
    same. -/
def place (desk : Desk) (same : String → Bool) (bidItemId : ℤ) (bidderName : String)
    (amount : ℚ) : Desk where
  book item name :=
    if item = bidItemId then
      if name = bidderName then some ⟨desk.issued + 1, amount⟩
      else if same name then none
      else desk.book item name
    else desk.book item name
  issued := desk.issued + 1

/-- The order of a number is taken out, whoever it is of. -/
def cancel (desk : Desk) (number : ℤ) : Desk :=
  { desk with book := fun item name => (desk.book item name).filter (·.number ≠ number) }

/-- The operation of a call, if the call is accepted. -/
def step (fold : Char → Char) (accepted : AutoBidCall → Bool) (desk : Desk)
    (call : AutoBidCall) : Desk :=
  if accepted call then
    match call with
    | .save userName _ bidItemId bidAmount _ =>
      desk.place (equalsIgnoreCase fold · userName) bidItemId userName bidAmount
    | .delete _ _ autoBidId => desk.cancel autoBidId
    | .afterDoBid userName bidItemId bidAmount _ =>
      desk.place (· = userName) bidItemId userName bidAmount
  else desk

end Desk

/-- The calls that the tables accept: the item and the auction are there, and it is no manual
    bid. -/
def accepts (db : Db) : AutoBidCall → Bool
  | .save _ _ bidItemId _ auctionId =>
    (db.bidItems bidItemId).isSome && (db.auctions auctionId).isSome
  | .delete _ _ _ => true
  | .afterDoBid _ bidItemId _ bidType =>
    bidType ≠ 1 && (db.bidItems bidItemId).isSome &&
      (((db.bidItems bidItemId).bind BidItem.auctionId).bind db.auctions).isSome

/-! ## The table as a book -/

/-- The order of a row. -/
def orderOf (a : AutoBids) : Order := ⟨a.autoBidId, a.bidAmount⟩

/-- A live row of an item and a bidder with some order. -/
def Holds (rows : List AutoBids) (bidItemId : ℤ) (bidderName : String) (order : Order) : Prop :=
  ∃ a ∈ rows, a.bidStatus = "A" ∧ a.bidItemId = bidItemId ∧ a.bidderName = bidderName ∧
    orderOf a = order

/-- What no call changes: the auctions, and of the items all but the id of the last auto-bid. -/
structure Kept (db db' : Db) : Prop where
  auctions : db'.auctions = db.auctions
  bidItems : ∀ id, (db'.bidItems id).map (fun item => { item with currentAutoBidId := none }) =
    (db.bidItems id).map (fun item => { item with currentAutoBidId := none })

/-- The live rows are the orders of the book, and the next id is the next number. -/
structure Booked (db : Db) (desk : Desk) : Prop where
  replaced : Replaced db.autoBids
  book : ∀ item name order,
    desk.book item name = some order ↔ Holds db.autoBids item name order
  next : nextAutoBidId db = desk.issued + 1

/-! ## The operations -/

/-- A row that is live after a deactivation was live before and was not selected. -/
theorem mem_deactivate_live {selected : AutoBids → Bool} {rows : List AutoBids} {a : AutoBids} :
    a ∈ deactivate selected rows ∧ a.bidStatus = "A" ↔
      a ∈ rows ∧ a.bidStatus = "A" ∧ selected a = false := by
  unfold deactivate
  rw [List.mem_map]
  constructor
  · rintro ⟨⟨a₀, ha₀, rfl⟩, hlive⟩
    -- a row that was selected is not live
    split at hlive
    · exact absurd hlive (show "I" ≠ "A" by decide)
    · rename_i hnot
      rw [if_neg hnot]
      exact ⟨ha₀, hlive, Bool.eq_false_iff.mpr hnot⟩
  · rintro ⟨ha, hlive, hnot⟩
    exact ⟨⟨a, ha, by simp [hnot]⟩, hlive⟩

/-- The orders that are left when rows are deactivated. -/
theorem holds_deactivate {selected : AutoBids → Bool} {rows : List AutoBids} {item : ℤ}
    {name : String} {order : Order} :
    Holds (deactivate selected rows) item name order ↔
      ∃ a ∈ rows, selected a = false ∧ a.bidStatus = "A" ∧ a.bidItemId = item ∧
        a.bidderName = name ∧ orderOf a = order := by
  constructor
  · rintro ⟨a, ha, hlive, hrow⟩
    obtain ⟨ha, hlive, hnot⟩ := mem_deactivate_live.mp ⟨ha, hlive⟩
    exact ⟨a, ha, hnot, hlive, hrow⟩
  · rintro ⟨a, ha, hnot, hlive, hrow⟩
    obtain ⟨ha, hlive⟩ := mem_deactivate_live.mpr ⟨ha, hlive, hnot⟩
    exact ⟨a, ha, hlive, hrow⟩

/-- The orders with a further live row. -/
theorem holds_append_iff {rows : List AutoBids} {row : AutoBids} (hlive : row.bidStatus = "A")
    {item : ℤ} {name : String} {order : Order} :
    Holds (rows ++ [row]) item name order ↔ Holds rows item name order ∨
      row.bidItemId = item ∧ row.bidderName = name ∧ orderOf row = order := by
  unfold Holds
  simp only [List.mem_append, List.mem_singleton, or_and_right, exists_or, exists_eq_left, hlive,
    true_and]

/-- The largest id of a table with a further row. -/
theorem nextAutoBidId_append {db db' : Db} {selected : AutoBids → Bool} {row : AutoBids}
    (hrows : db'.autoBids = deactivate selected db.autoBids ++ [row])
    (hid : row.autoBidId = nextAutoBidId db) : nextAutoBidId db' = nextAutoBidId db + 1 := by
  -- deactivating rows keeps their ids
  have hids : (deactivate selected db.autoBids).map AutoBids.autoBidId =
      db.autoBids.map AutoBids.autoBidId := by
    unfold deactivate
    rw [List.map_map]
    apply List.map_congr_left
    intro a _
    simp only [Function.comp_apply]
    split <;> rfl
  unfold nextAutoBidId at hid ⊢
  rw [hrows, List.map_append, hids, List.map_singleton, List.foldl_append, List.foldl_cons,
    List.foldl_nil, hid, max_eq_right (by omega)]

/-- Deactivating rows issues no id. -/
theorem nextAutoBidId_deactivate {db db' : Db} {selected : AutoBids → Bool}
    (hrows : db'.autoBids = deactivate selected db.autoBids) :
    nextAutoBidId db' = nextAutoBidId db := by
  unfold nextAutoBidId deactivate at *
  rw [hrows, List.map_map]
  congr 2
  apply List.map_congr_left
  intro a _
  simp only [Function.comp_apply]
  split <;> rfl

/-- Deleting an auto-bid cancels its order. -/
theorem Booked.cancel {db : Db} {desk : Desk} (h : Booked db desk) (autoBidId : ℤ) :
    Booked (deleteAutoBid db autoBidId) (desk.cancel autoBidId) := by
  refine ⟨h.replaced.deactivated _, fun item name order => ?_, ?_⟩
  · -- in the table the row of that id is deactivated, in the book the order of that number is
    -- taken out
    show (desk.book item name).filter _ = some order ↔ Holds (deactivate _ _) item name order
    rw [holds_deactivate, Option.filter_eq_some_iff, h.book]
    constructor
    · rintro ⟨⟨a, ha, hlive, hitem, hname, rfl⟩, hother⟩
      exact ⟨a, ha, decide_eq_false (of_decide_eq_true hother), hlive, hitem, hname, rfl⟩
    · rintro ⟨a, ha, hother, hlive, hitem, hname, rfl⟩
      exact ⟨⟨a, ha, hlive, hitem, hname, rfl⟩, decide_eq_true (of_decide_eq_false hother)⟩
  · rw [nextAutoBidId_deactivate rfl]
    exact h.next

/-- The orders after a new row: those of the rows that are not selected, and its own. -/
theorem holds_place_iff {desk : Desk} {rows : List AutoBids}
    (hbook : ∀ item name order, desk.book item name = some order ↔ Holds rows item name order)
    (same : String → Bool) (row : AutoBids) (hlive : row.bidStatus = "A")
    (hid : row.autoBidId = desk.issued + 1) (hsame : same row.bidderName = true) (item : ℤ)
    (name : String) (order : Order) :
    (desk.place same row.bidItemId row.bidderName row.bidAmount).book item name = some order ↔
      Holds (deactivate (fun a => a.bidItemId = row.bidItemId && same a.bidderName) rows ++ [row])
        item name order := by
  rw [holds_append_iff hlive, holds_deactivate]
  -- an order that is neither placed nor replaced stays
  have hkept (hnew : ¬ (row.bidItemId = item ∧ row.bidderName = name))
      (hnot : ¬ (item = row.bidItemId ∧ same name = true)) :
      desk.book item name = some order ↔
        (∃ a ∈ rows, (decide (a.bidItemId = row.bidItemId) && same a.bidderName) = false ∧
          a.bidStatus = "A" ∧ a.bidItemId = item ∧ a.bidderName = name ∧ orderOf a = order) ∨
        row.bidItemId = item ∧ row.bidderName = name ∧ orderOf row = order := by
    rw [hbook, or_iff_left fun hrow => hnew ⟨hrow.1, hrow.2.1⟩]
    refine exists_congr fun a => and_congr_right fun _ => ⟨fun hrow => ⟨?_, hrow⟩, And.right⟩
    obtain ⟨-, rfl, rfl, -⟩ := hrow
    simpa using hnot
  simp only [Desk.place]
  by_cases hitem : item = row.bidItemId
  · subst hitem
    rw [if_pos rfl]
    by_cases hname : name = row.bidderName
    · subst hname
      rw [if_pos rfl, or_iff_right]
      · simp [orderOf, hid]
      · -- the old order of the bidder is replaced
        rintro ⟨a, -, hnot, -, hitem, hname, -⟩
        simp [hitem, hname, hsame] at hnot
    · rw [if_neg hname]
      by_cases hother : same name = true
      · -- so is the order of a bidder whose name is taken for the same
        rw [if_pos hother]
        refine iff_of_false (by simp) ?_
        rintro (⟨a, -, hnot, -, hitem, rfl, -⟩ | ⟨-, hrow, -⟩)
        · simp [hitem, hother] at hnot
        · exact hname hrow.symm
      · rw [if_neg hother]
        exact hkept (fun h => hname h.2.symm) fun h => hother h.2
  · rw [if_neg hitem]
    exact hkept (fun h => hitem h.1.symm) fun h => hitem h.1

/-- A row that a call has added is the new order of the book. -/
theorem Booked.place {db db' : Db} {desk : Desk} (h : Booked db desk) {same : String → Bool}
    {now : Date} {userName : String} {bidItemId : ℤ} {bidAmount : ℚ}
    (hsame : same userName = true)
    (hrows : db'.autoBids =
      deactivate (fun a => a.bidItemId = bidItemId && same a.bidderName) db.autoBids ++
        [⟨nextAutoBidId db, bidItemId, bidAmount, now, "A", userName⟩]) :
    Booked db' (desk.place same bidItemId userName bidAmount) := by
  refine ⟨?_, fun item name order => ?_, ?_⟩
  · rw [hrows]
    refine h.replaced.step (.saved _ _ rfl (fun a ha => lt_nextAutoBidId ha) ?_)
    intro a hitem hname
    simp [hitem, hname, hsame]
  · rw [hrows]
    exact holds_place_iff h.book same ⟨_, _, _, now, _, _⟩ rfl h.next hsame item name order
  · rw [nextAutoBidId_append hrows rfl, h.next]
    rfl

/-! ## The calls -/

theorem Kept.refl (db : Db) : Kept db db := ⟨rfl, fun _ => rfl⟩

/-- An item keeps its columns. -/
theorem Kept.exists_row {db db' : Db} (h : Kept db db') {id : ℤ} {row : BidItem}
    (hrow : db.bidItems id = some row) :
    ∃ last, db'.bidItems id = some { row with currentAutoBidId := last } := by
  have hitem := h.bidItems id
  rw [hrow] at hitem
  obtain ⟨row', hrow', hsame⟩ := Option.map_eq_some_iff.mp hitem
  refine ⟨row'.currentAutoBidId, hrow'.trans (congrArg some ?_)⟩
  have hrestore := congrArg (fun item : BidItem =>
    { item with currentAutoBidId := row'.currentAutoBidId }) hsame
  exact hrestore

theorem Kept.isSome {db db' : Db} (h : Kept db db') (id : ℤ) :
    (db'.bidItems id).isSome = (db.bidItems id).isSome := by
  simpa using congrArg Option.isSome (h.bidItems id)

theorem Kept.auctionId {db db' : Db} (h : Kept db db') (id : ℤ) :
    (db'.bidItems id).bind BidItem.auctionId = (db.bidItems id).bind BidItem.auctionId := by
  have hitem := congrArg (fun item => item.bind BidItem.auctionId) (h.bidItems id)
  simpa [Option.bind_map, Function.comp_def] using hitem

/-- What the tables accept does not change. -/
theorem Kept.accepts_eq {db db' : Db} (h : Kept db db') : accepts db' = accepts db := by
  funext call
  cases call <;> simp only [accepts, h.isSome, h.auctionId, h.auctions]

/-- No row is made without an item and an auction. -/
theorem exists_error_initializeAutoBid {db : Db} {bidItemId : ℤ} {auctionId : Option ℤ}
    (h : ((db.bidItems bidItemId).isSome && (auctionId.bind db.auctions).isSome) = false)
    (now : Date) (userName : String) (bidAmount : ℚ) :
    ∃ exn, initializeAutoBid now db userName bidItemId bidAmount auctionId = .error exn := by
  cases hrow : initializeAutoBid now db userName bidItemId bidAmount auctionId with
  | error exn => exact ⟨exn, rfl⟩
  | ok row =>
    obtain ⟨hitem, hauction, -⟩ := initializeAutoBid_ok_iff.mp hrow
    rw [hitem, hauction] at h
    cases h

/-- A call that the tables do not accept changes nothing. -/
theorem serve_of_not_accepted {fold : Char → Char} {db : Db} (now : Date) {call : AutoBidCall}
    (h : accepts db call = false) : serve fold db (now, call) = db := by
  cases call with
  | delete userName categoryId autoBidId => cases h
  | save userName categoryId bidItemId bidAmount auctionId =>
    have hmissing : ((db.bidItems bidItemId).isSome &&
        ((some auctionId).bind db.auctions).isSome) = false := h
    obtain ⟨exn, hrow⟩ := exists_error_initializeAutoBid hmissing now userName bidAmount
    simp only [serve, AutoBidCall.run, saveAutoBid, hrow, bind, Except.bind]
  | afterDoBid userName bidItemId bidAmount bidType =>
    simp only [serve, AutoBidCall.run, saveAutoBidOrBidsAfterDoBid]
    by_cases htype : bidType = 1
    · -- a bid of type 1 fails before the tables are looked at
      rw [if_pos htype]
    · simp only [accepts, htype, ne_eq, not_false_eq_true, decide_true, Bool.true_and] at h
      obtain ⟨exn, hrow⟩ := exists_error_initializeAutoBid h now userName bidAmount
      simp only [if_neg htype, hrow, bind, Except.bind]

/-- A save that the tables accept, under the names that count as the bidder's. -/
theorem serve_save {fold : Char → Char} {db : Db} (now : Date) {userName : String}
    {categoryId bidItemId : ℤ} {bidAmount : ℚ} {auctionId : ℤ}
    (h : accepts db (.save userName categoryId bidItemId bidAmount auctionId) = true) :
    serve fold db (now, .save userName categoryId bidItemId bidAmount auctionId) = { db with
      autoBids := deactivate
        (fun a => a.bidItemId = bidItemId && equalsIgnoreCase fold a.bidderName userName)
        db.autoBids ++ [⟨nextAutoBidId db, bidItemId, bidAmount, now, "A", userName⟩]
      bidItems := Function.update db.bidItems bidItemId ((db.bidItems bidItemId).map
        (fun item => { item with currentAutoBidId := some (nextAutoBidId db) })) } := by
  obtain ⟨hitem, hauction⟩ := Bool.and_eq_true_iff.mp h
  have hrow : initializeAutoBid now db userName bidItemId bidAmount (some auctionId) = .ok _ :=
    initializeAutoBid_ok_iff.mpr ⟨hitem, hauction, rfl⟩
  simp only [serve, AutoBidCall.run, saveAutoBid, hrow]
  rfl

/-- A save after a bid compares the names exactly. -/
theorem serve_afterDoBid {fold : Char → Char} {db : Db} (now : Date) {userName : String}
    {bidItemId : ℤ} {bidAmount : ℚ} {bidType : ℤ}
    (h : accepts db (.afterDoBid userName bidItemId bidAmount bidType) = true) :
    serve fold db (now, .afterDoBid userName bidItemId bidAmount bidType) = { db with
      autoBids := deactivate (fun a => a.bidItemId = bidItemId && a.bidderName = userName)
        db.autoBids ++ [⟨nextAutoBidId db, bidItemId, bidAmount, now, "A", userName⟩] } := by
  simp only [accepts, Bool.and_eq_true, decide_eq_true_eq] at h
  obtain ⟨⟨htype, hitem⟩, hauction⟩ := h
  have hrow : initializeAutoBid now db userName bidItemId bidAmount
      ((db.bidItems bidItemId).bind BidItem.auctionId) = .ok _ :=
    initializeAutoBid_ok_iff.mpr ⟨hitem, hauction, rfl⟩
  simp only [serve, AutoBidCall.run, saveAutoBidOrBidsAfterDoBid, if_neg htype, hrow]
  rfl

/-- A call on the table is an operation on the book. -/
theorem Booked.serve {fold : Char → Char} {db₀ db : Db} {desk : Desk} (hkept : Kept db₀ db)
    (h : Booked db desk) (e : Date × AutoBidCall) :
    Kept db₀ (serve fold db e) ∧
      Booked (serve fold db e) (desk.step fold (accepts db₀) e.2) := by
  obtain ⟨now, call⟩ := e
  rw [← hkept.accepts_eq]
  unfold Desk.step
  cases haccepts : accepts db call with
  -- what the tables do not accept, the desk does not either
  | false =>
    rw [serve_of_not_accepted now haccepts]
    exact ⟨hkept, h⟩
  | true =>
    rw [if_pos rfl]
    cases call with
    | delete userName categoryId autoBidId => exact ⟨⟨hkept.auctions, hkept.bidItems⟩, h.cancel _⟩
    | save userName categoryId bidItemId bidAmount auctionId =>
      rw [serve_save now haccepts]
      refine ⟨⟨hkept.auctions, fun id => ?_⟩, h.place ?_ rfl⟩
      · -- the call also writes the row of the item, but not what opening it reads
        rw [← hkept.bidItems id]
        by_cases hid : id = bidItemId
        · subst hid
          simp [Function.comp_def]
        · simp only [Function.update_of_ne hid]
      · exact decide_eq_true rfl
    | afterDoBid userName bidItemId bidAmount bidType =>
      rw [serve_afterDoBid now haccepts]
      exact ⟨⟨hkept.auctions, hkept.bidItems⟩, h.place (decide_eq_true rfl) rfl⟩

/-- The tables after a sequence of calls, and the book after its operations. -/
theorem Booked.run (fold : Char → Char) {db : Db} (hempty : db.autoBids = [])
    (calls : List (Date × AutoBidCall)) :
    Kept db (calls.foldl (BidderDao.serve fold) db) ∧
      Booked (calls.foldl (BidderDao.serve fold) db)
        ((calls.map Prod.snd).foldl (Desk.step fold (accepts db)) Desk.empty) := by
  apply run_simulates (R := fun db' desk => Kept db db' ∧ Booked db' desk)
  · intro db' desk e h
    exact h.2.serve h.1 e
  · refine ⟨Kept.refl db, ⟨by rw [hempty]; exact ⟨.nil, .nil⟩, fun item name order => ?_, ?_⟩⟩
    · simp [Holds, hempty, Desk.empty]
    · simp [nextAutoBidId, hempty, Desk.empty]

/-! ## Opening an item -/

/-- A bidder of the list and the amount of the order: the leader has it as a maximum, the others
    bid it at once. -/
def ordered (b : Bidder) : Option String × ℚ :=
  (b.bidderName, b.autoBidMaxAnount.getD b.currentBidAmount)

theorem map_ordered_otherBidders (times : ℕ → Date) (i : ℕ) (l : List AutoBids) :
    (CommonDao.otherBidders times i l).map ordered =
      l.map fun a => (some a.bidderName, a.bidAmount) := by
  induction l generalizing i with
  | nil => rfl
  | cons a rest ih => simp [CommonDao.otherBidders, CommonDao.autoBidder, ordered, ih]

/-- With an increment the opening price can be computed. -/
theorem exists_openingPrice {item : BidItem} {increment : ℚ}
    (hincrement : item.minBidIncrement = some increment) (a0 a1 : AutoBids) :
    ∃ price, CommonDao.openingPrice item a0 a1 = .ok price := by
  unfold CommonDao.openingPrice
  split
  · exact ⟨_, rfl⟩
  · rw [hincrement]
    exact ⟨_, rfl⟩

/-- Several auto-bids: the first one in the order of the comparator leads, the others follow. -/
theorem perm_resolveAutoBids_several (times : ℕ → Date) {item : BidItem}
    {autoBids : List AutoBids} {increment : ℚ} (hnew : item.currentBiddersList = [])
    (hincrement : item.minBidIncrement = some increment)
    (hnames : (autoBids.map AutoBids.bidderName).Nodup) (hseveral : 2 ≤ autoBids.length) :
    ∃ resolved, CommonDao.resolveAutoBids times item autoBids = .ok resolved ∧
      (resolved.currentBiddersList.map ordered).Perm
        (autoBids.map fun a => (some a.bidderName, a.bidAmount)) := by
  have hperm := sort_perm CommonDao.compareAutoBids autoBids
  -- the sort keeps all auto-bids, so there are two in front
  obtain ⟨a0, a1, rest, hsort⟩ :
      ∃ a0 a1 rest, sort CommonDao.compareAutoBids autoBids = a0 :: a1 :: rest := by
    rw [← hperm.length_eq] at hseveral
    rcases hsort : sort CommonDao.compareAutoBids autoBids with _ | ⟨a0, _ | ⟨a1, rest⟩⟩
    · simp [hsort] at hseveral
    · simp [hsort] at hseveral
    · exact ⟨a0, a1, rest, rfl⟩
  rw [hsort] at hperm
  obtain ⟨price, hprice⟩ := exists_openingPrice hincrement a0 a1
  let leader := CommonDao.autoBidder a0 price (some a0.bidAmount) (times 0)
  let led : BidItem := ({ CommonDao.recordAutoBid item a0 with
    currentMarketPrice := some price } : BidItem).addBidder leader
  have hled : led.currentBiddersList = [leader] := by
    simp [led, BidItem.addBidder, CommonDao.recordAutoBid, hnew, putBidder]
  have hresolve : CommonDao.resolveAutoBids times item autoBids =
      .ok (CommonDao.addOthers times 1 (a1 :: rest) led) := by
    rcases autoBids with _ | ⟨b0, _ | ⟨b1, bs⟩⟩
    · simp at hseveral
    · simp at hseveral
    · simp only [CommonDao.resolveAutoBids, hsort, hprice]
      rfl
  refine ⟨_, hresolve, ?_⟩
  rw [CommonDao.currentBiddersList_addOthers, hled]
  · rw [List.singleton_append, List.map_cons, map_ordered_otherBidders]
    exact hperm.map fun a => (some a.bidderName, a.bidAmount)
  · -- the names are distinct, so nobody's entry is replaced by a later one
    have hnodup := (hperm.map AutoBids.bidderName).nodup_iff.mpr hnames
    have hsome := hnodup.map (Option.some_injective String)
    rw [hled]
    simpa [leader, CommonDao.autoBidder, Function.comp_def] using hsome

/-- The bidders of an item after its auto-bids have been resolved. -/
theorem perm_resolveAutoBids (times : ℕ → Date) {item : BidItem} {autoBids : List AutoBids}
    {minimum increment : ℚ} (hnew : item.currentBiddersList = [])
    (hminimum : item.minBidPrice = some minimum)
    (hincrement : item.minBidIncrement = some increment)
    (hnames : (autoBids.map AutoBids.bidderName).Nodup) :
    ∃ resolved, CommonDao.resolveAutoBids times item autoBids = .ok resolved ∧
      (resolved.currentBiddersList.map ordered).Perm
        (autoBids.map fun a => (some a.bidderName, a.bidAmount)) := by
  match autoBids, hnames with
  | [], _ =>
    simp only [CommonDao.resolveAutoBids]
    split
    · exact ⟨_, rfl, by simp only [hnew]; exact .nil⟩
    · exact ⟨_, rfl, by simp only [hnew]; exact .nil⟩
  -- a single auto-bid is entered with its own amount
  | [a], _ =>
    simp only [CommonDao.resolveAutoBids, hminimum, hincrement, CommonDao.unboxAdd]
    refine ⟨_, rfl, ?_⟩
    simp [BidItem.addBidder, CommonDao.recordAutoBid, hnew, putBidder, CommonDao.autoBidder,
      ordered]
  | b0 :: b1 :: bs, hnames =>
    exact perm_resolveAutoBids_several times hnew hincrement hnames (by simp)

/-- The bidders of an item that is loaded are those of its live rows. -/
theorem perm_getBidItem (times : ℕ → Date) {db : Db} {id : ℤ} {row : BidItem}
    {minimum increment : ℚ} (hrow : db.bidItems id = some row)
    (hminimum : row.minBidPrice = some minimum)
    (hincrement : row.minBidIncrement = some increment)
    (hnames : ((CommonDao.activeAutoBids db id).map AutoBids.bidderName).Nodup) :
    ∃ item db', CommonDao.getBidItem times db id = .ok (item, db') ∧
      (item.currentBiddersList.map ordered).Perm
        ((CommonDao.activeAutoBids db id).map fun a => (some a.bidderName, a.bidAmount)) := by
  let loaded : BidItem := { row.persistent with bidItemId := some id }
  have hnew : loaded.currentBiddersList = [] := rfl
  obtain ⟨resolved, hresolve, hperm⟩ := perm_resolveAutoBids times hnew hminimum hincrement hnames
  have hload : CommonDao.getBidItem times db id = .ok
      (let out := CommonDao.saveAutoBidResultToBids resolved
        (times (CommonDao.activeAutoBids db id).length)
      (out.1, CommonDao.flush { db with bids := db.bids ++ out.2 } id out.1)) := by
    simp only [loaded] at hresolve
    unfold CommonDao.getBidItem
    simp only [hrow, hresolve]
    rfl
  refine ⟨_, _, hload, ?_⟩
  -- recording the result sorts the list
  have hsorted (item : BidItem) : (item.sortBidders.currentBiddersList.map ordered).Perm
      (item.currentBiddersList.map ordered) := (sort_perm _ _).map _
  have hrecorded : (CommonDao.saveAutoBidResultToBids resolved
      (times (CommonDao.activeAutoBids db id).length)).1 =
      resolved.sortBidders.sortBidders.sortBidders := by
    unfold CommonDao.saveAutoBidResultToBids
    dsimp only
    split <;> rfl
  rw [hrecorded]
  exact ((hsorted _).trans (hsorted _)).trans ((hsorted _).trans hperm)

/-- No bidder has two live rows for an item. -/
theorem Replaced.nodup_activeAutoBids {db : Db} (h : Replaced db.autoBids) (id : ℤ) :
    ((CommonDao.activeAutoBids db id).map AutoBids.bidderName).Nodup := by
  apply List.pairwise_map.mpr
  refine List.Pairwise.imp_of_mem ?_ (h.inactive.filter _)
  intro a b ha hb hreplaced hname
  obtain ⟨hitem, hlive⟩ := Bool.and_eq_true_iff.mp (List.mem_filter.mp ha).2
  have hitem' := (Bool.and_eq_true_iff.mp (List.mem_filter.mp hb).2).1
  have hinactive := hreplaced ((of_decide_eq_true hitem).trans (of_decide_eq_true hitem').symm)
    hname
  rw [of_decide_eq_true hlive] at hinactive
  exact absurd hinactive (by decide)

/-- The live rows of an item are its orders. -/
theorem mem_activeAutoBids_iff {db : Db} {id : ℤ} {name : String} {amount : ℚ} :
    (some name, amount) ∈ (CommonDao.activeAutoBids db id).map
        (fun a => (some a.bidderName, a.bidAmount)) ↔
      ∃ number, Holds db.autoBids id name ⟨number, amount⟩ := by
  simp only [CommonDao.activeAutoBids, List.mem_map, List.mem_filter, Bool.and_eq_true,
    decide_eq_true_eq, Prod.mk.injEq, Option.some.injEq, Holds, orderOf, Order.mk.injEq]
  constructor
  · rintro ⟨a, ⟨ha, hitem, hlive⟩, hname, hamount⟩
    exact ⟨a.autoBidId, a, ha, hlive, hitem, hname, rfl, hamount⟩
  · rintro ⟨number, a, ha, hlive, hitem, hname, -, hamount⟩
    exact ⟨a, ⟨ha, hitem, hlive⟩, hname, hamount⟩

/-- **After every sequence of calls on an empty table, an item opens with exactly the orders of
    the book**: one entry for each bidder with an order for the item, with the amount of that
    order. -/
theorem opening_of_calls (fold : Char → Char) (times : ℕ → Date) {db : Db} {id : ℤ}
    {row : BidItem} {minimum increment : ℚ} (hempty : db.autoBids = [])
    (hrow : db.bidItems id = some row) (hminimum : row.minBidPrice = some minimum)
    (hincrement : row.minBidIncrement = some increment) (calls : List (Date × AutoBidCall)) :
    ∃ item db', CommonDao.getBidItem times (calls.foldl (serve fold) db) id = .ok (item, db') ∧
      (item.currentBiddersList.map Bidder.bidderName).Nodup ∧
      ∀ name amount, (some name, amount) ∈ item.currentBiddersList.map ordered ↔
        ∃ number, ((calls.map Prod.snd).foldl (Desk.step fold (accepts db)) Desk.empty).book id
          name = some ⟨number, amount⟩ := by
  obtain ⟨hkept, hbooked⟩ := Booked.run fold hempty calls
  obtain ⟨last, hrow'⟩ := hkept.exists_row hrow
  have hnames := hbooked.replaced.nodup_activeAutoBids id
  obtain ⟨item, db', hload, hperm⟩ := perm_getBidItem times hrow' hminimum hincrement hnames
  refine ⟨item, db', hload, ?_, fun name amount => ?_⟩
  · -- the first components of the entries are the names
    have hfirst := hperm.map Prod.fst
    rw [List.map_map, List.map_map] at hfirst
    apply hfirst.nodup_iff.mpr
    have hsome := hnames.map (Option.some_injective String)
    rwa [List.map_map] at hsome
  · rw [hperm.mem_iff, mem_activeAutoBids_iff]
    exact exists_congr fun number => (hbooked.book id name ⟨number, amount⟩).symm

/-- An item with a minimum of `50` and an increment of `10`, and no auto-bid. -/
def pricedItems : Db :=
  { noAutoBids with
    bidItems := fun _ => some { BidItem.new with
      auctionId := some 1
      minBidPrice := some 50
      minBidIncrement := some 10 } }

/-- Two orders; the first one is replaced, and the second one is cancelled by the other bidder. -/
def replacedAndCancelled : List (Date × AutoBidCall) :=
  [(0, .save "bidder1" 1 11 100 1), (1, .save "bidder2" 1 11 120 1),
    (2, .afterDoBid "bidder1" 11 150 2), (3, .delete "bidder1" 1 2)]

theorem opening_replacedAndCancelled :
    (∃ item db', CommonDao.getBidItem (fun n => n)
        (replacedAndCancelled.foldl (serve Char.toLower) pricedItems) 11 = .ok (item, db') ∧
      (item.currentBiddersList.map Bidder.bidderName).Nodup ∧
      ∀ name amount, (some name, amount) ∈ item.currentBiddersList.map ordered ↔
        ∃ number, ((replacedAndCancelled.map Prod.snd).foldl
          (Desk.step Char.toLower (accepts pricedItems)) Desk.empty).book 11 name =
            some ⟨number, amount⟩) ∧
      ["bidder1", "bidder2"].map (((replacedAndCancelled.map Prod.snd).foldl
        (Desk.step Char.toLower (accepts pricedItems)) Desk.empty).book 11) =
          [some ⟨3, 150⟩, none] :=
  ⟨opening_of_calls Char.toLower (fun n => n) rfl rfl rfl rfl replacedAndCancelled,
    by decide +kernel⟩

end Bidding.Model.BidderDao
