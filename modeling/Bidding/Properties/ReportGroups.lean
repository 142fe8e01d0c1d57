import Mathlib.Tactic.NormNum
import Bidding.Model.MarketLists
import Bidding.Semantics.ReportRows

/-!
# One Entry for an Item in the Reports

The rows of a query come item by item, the best bidder first. The loop of the Summary-1 report and
of the observer's closed list makes one entry of the rows of an item, with its three best bidders.
The last entry is added by a test for the last record. The closed list tests with the number of
its records. The report leaves the active item out and tests with the number of all rows, so that
the last entry is lost when the active item has rows.

## Key Results

- **`itemEntries`**: the entries that the rows of a query give, in terms of their columns.
- **`fillBidsList_eq`**: what the loop computes, for any size in its test.
- **`processSummary1ReportList_iff`**: when the report has all entries.
- **`getBidsListForClosedMarket_eq`**: the closed list has all entries.
- **`fillBidsList_closedEntries`**: the list with all attributes of a bid agrees with the entries
  of the page `/closed`.
-/

namespace Bidding.Model.Reports

open Bidding.Collections

/-! ## The entries of some rows -/

/-- A row of a query, with the item it is about. -/
structure ItemRow extends Row where
  item : ReportItem
  deriving DecidableEq

/-- The item is in the row, or is found by the id in the row. -/
def ItemRow.Found (getBidItem : ℤ → Option ReportItem) (row : ItemRow) : Prop :=
  row.bidItem = some row.item ∨
    row.bidItem = none ∧ row.bidItemId.bind getBidItem = some row.item

instance (getBidItem : ℤ → Option ReportItem) (row : ItemRow) :
    Decidable (row.Found getBidItem) :=
  inferInstanceAs (Decidable (_ ∨ _))

/-- The entry of `item` from its rows: the columns of the first row, the bidder and amount of the
    second and of the third, which are absent if there are no such rows. Texts are trimmed. -/
def entryAs (item : ReportItem) (g : List ItemRow) : Bids where
  bidId := g[0]?.bind (·.bidId)
  bidItem := item
  bidderName := g[0]?.bind (·.bidderName.map trim)
  currency := g[0]?.bind (·.currency.map trim)
  bidTime := g[0]?.bind (·.bidTime)
  bidStatus := g[0]?.bind (·.bidStatus.map trim)
  comments := g[0]?.bind (·.comments.map trim)
  bidAmount := g[0]?.bind (·.bidAmount)
  bidAmount2 := g[1]?.bind (·.bidAmount)
  bidAmount3 := g[2]?.bind (·.bidAmount)
  bidderName2 := g[1]?.bind (·.bidderName.map trim)
  bidderName3 := g[2]?.bind (·.bidderName.map trim)
  salesPrice := none
  totalSalesPrice := none

/-- The entry of an item with the rows `g`. -/
def itemEntry (g : List ItemRow) : Option Bids :=
  g.head?.map (fun first => entryAs first.item g)

/-- One entry for each item, in the order of first appearance. -/
def itemEntries (rows : List ItemRow) : List Bids :=
  (groups (fun row => row.item.id) rows).filterMap itemEntry

/-! ## The entries of some bids -/

/-- The bid that is made of a row. -/
def ItemRow.bids (row : ItemRow) : Bids := entryAs row.item [row]

/-- The entry of an item, in terms of the bids that have been made of its rows. -/
def entry (g : List Bids) : Option Bids :=
  g.head?.map (fun first => { first with
    bidderName2 := g[1]?.bind Bids.bidderName
    bidAmount2 := g[1]?.bind Bids.bidAmount
    bidderName3 := g[2]?.bind Bids.bidderName
    bidAmount3 := g[2]?.bind Bids.bidAmount })

/-- One entry for each item, in terms of the bids. -/
def entries (rows : List Bids) : List Bids := (groups Bids.itemId rows).filterMap entry

theorem entry_map_bids (g : List ItemRow) : entry (g.map ItemRow.bids) = itemEntry g := by
  rcases g with _ | ⟨first, _ | ⟨second, _ | ⟨third, g⟩⟩⟩
  · rfl
  · rfl
  · rfl
  · rfl

theorem entries_map_bids (rows : List ItemRow) :
    entries (rows.map ItemRow.bids) = itemEntries rows := by
  unfold entries itemEntries
  rw [groups_map, List.filterMap_map]
  exact List.filterMap_congr fun g _ => entry_map_bids g

/-- A row whose item is found is read as its bids. -/
theorem ItemRow.Found.toBids {getBidItem : ℤ → Option ReportItem} {row : ItemRow}
    (h : row.Found getBidItem) : toBids getBidItem row.toRow = .ok row.bids := by
  have hitem : itemOf getBidItem row.toRow = .ok row.item := by
    unfold itemOf
    -- the row has its item, or the item is loaded by its id
    rcases h with hbidItem | ⟨hnone, hbyId⟩
    · rw [hbidItem]
    · rw [hnone, hbyId]
  unfold Reports.toBids
  rw [hitem]
  rfl

theorem mapM_toBids {getBidItem : ℤ → Option ReportItem} {rows : List ItemRow}
    (h : ∀ row ∈ rows, row.Found getBidItem) :
    (rows.map ItemRow.toRow).mapM (toBids getBidItem) = .ok (rows.map ItemRow.bids) := by
  rw [List.mapM_map]
  exact mapM_eq_ok fun row hrow => (h row hrow).toBids

/-- A bid that has been read from a row and not been changed since. -/
structure Fresh (bids : Bids) : Prop where
  amount2 : bids.bidAmount2 = none
  amount3 : bids.bidAmount3 = none
  name2 : bids.bidderName2 = none
  name3 : bids.bidderName3 = none

theorem fresh_bids (row : ItemRow) : Fresh row.bids := ⟨rfl, rfl, rfl, rfl⟩

/-! ## The loop -/

/-- The object of an item after its further rows: what the turns have set in the first one. -/
def withNext (b : Bids) : List Bids → Bids
  | [] => b
  | [c] => addBidder 0 c b
  | c :: d :: _ => addBidder 1 d (addBidder 0 c b)

/-- The next row of an item is added at its place, if there is one left. -/
theorem withNext_append (b : Bids) (g : List Bids) (a : Bids) :
    withNext b (g ++ [a]) = addBidder g.length a (withNext b g) := by
  cases g with
  | nil => rfl
  | cons c g =>
    cases g with
    | nil => rfl
    | cons d g => simp [withNext, addBidder]

/-- The entry of a group is its first row with the next ones added. -/
theorem Fresh.entry_eq {b : Bids} (h : Fresh b) (g : List Bids) :
    entry (b :: g) = some (withNext b g) := by
  cases b
  obtain ⟨rfl, rfl, rfl, rfl⟩ := h
  cases g with
  | nil => rfl
  | cons c g =>
    cases g with
    | nil => rfl
    | cons d g => rfl

/-- The object that the loop adds for a group. -/
def collect : List Bids → Option Bids
  | [] => none
  | b :: g => some (withNext b g)

/-- Collecting the groups of fresh rows gives their entries. -/
theorem filterMap_collect {rows : List Bids} (h : ∀ b ∈ rows, Fresh b) :
    (groups Bids.itemId rows).filterMap collect = entries rows := by
  unfold entries
  apply List.filterMap_congr
  intro g hg
  obtain ⟨k, -, rfl⟩ := List.mem_map.mp hg
  -- only the first row of a group has to be fresh
  cases hfilter : rows.filter (fun a => a.itemId = k) with
  | nil => rfl
  | cons b g =>
    have hb : b ∈ rows := by
      apply List.mem_of_mem_filter
      rw [hfilter]
      exact List.mem_cons_self
    exact ((h b hb).entry_eq g).symm

/-- What holds after a turn: the groups before have been added to `t`, and `bidPrevObj` is the
    object of the open group, whose further rows `j` counts. -/
structure Loop.Open (t : List Bids) (b : Bids) (g : List Bids) (s : Loop) : Prop where
  bidsList : s.bidsList = t
  bidItemID : s.bidItemID = some b.itemId
  i : s.i ≠ 0
  j : s.j = g.length
  bidPrevObj : s.bidPrevObj = some (withNext b g)

/-- Every turn counts one record. -/
theorem Loop.turn_recordCounter (s : Loop) (bids : Bids) :
    (s.turn bids).recordCounter = s.recordCounter + 1 := by
  unfold Loop.turn
  dsimp only
  split <;> split
  · rfl
  · split <;> rfl
  · rfl
  · split <;> rfl

theorem Loop.open_first (t : List Bids) (b : Bids) : ((Loop.start t).turn b).Open t b [] := by
  have hturn : (Loop.start t).turn b = ⟨some b.itemId, 1, 0, some b, 1, t⟩ := by
    simp [Loop.start, Loop.turn]
  rw [hturn]
  exact ⟨rfl, rfl, one_ne_zero, rfl, rfl⟩

/-- A row of the same item is added to the open group. -/
theorem Loop.Open.same {t g : List Bids} {a b : Bids} {s : Loop} (h : s.Open t b g)
    (hkey : a.itemId = b.itemId) : (s.turn a).Open t b (g ++ [a]) := by
  have hturn : s.turn a = { s with
      recordCounter := s.recordCounter + 1
      bidPrevObj := s.bidPrevObj.map (addBidder s.j a)
      j := s.j + 1
      i := s.i + 1 } := by
    simp [Loop.turn, h.i, h.bidItemID, hkey]
  have hcount : s.j + 1 = (g ++ [a]).length := by
    rw [h.j, List.length_append, List.length_singleton]
  have hprev : s.bidPrevObj.map (addBidder s.j a) = some (withNext b (g ++ [a])) := by
    rw [h.bidPrevObj, h.j, withNext_append]
    rfl
  rw [hturn]
  exact ⟨h.bidsList, h.bidItemID, Nat.succ_ne_zero _, hcount, hprev⟩

/-- A row of another item closes the group and opens its own. -/
theorem Loop.Open.next {t g : List Bids} {a b : Bids} {s : Loop} (h : s.Open t b g)
    (hkey : a.itemId ≠ b.itemId) :
    (s.turn a).Open (t ++ (collect (b :: g)).toList) a [] := by
  have hne : ¬ b.itemId = a.itemId := fun heq => hkey heq.symm
  have hturn : s.turn a = { s with
      recordCounter := s.recordCounter + 1
      bidsList := s.bidsList ++ s.bidPrevObj.toList
      j := 0
      bidItemID := some a.itemId
      bidPrevObj := some a
      i := s.i + 1 } := by
    simp [Loop.turn, Loop.add, h.i, h.bidItemID, hne]
  have hadd : s.bidsList ++ s.bidPrevObj.toList = t ++ (collect (b :: g)).toList := by
    rw [h.bidsList, h.bidPrevObj]
    rfl
  rw [hturn]
  exact ⟨hadd, rfl, Nat.succ_ne_zero _, rfl, rfl⟩

theorem controlBreak_turn :
    ControlBreak Bids.itemId (fun t g => t ++ (collect g).toList) Loop.turn
      (fun t b g s => s.Open t b g) where
  same h hkey := h.same hkey
  next h hkey := h.next hkey

/-- The groups are collected in their order. -/
theorem foldl_collect (gs : List (List Bids)) (t : List Bids) :
    gs.foldl (fun t g => t ++ (collect g).toList) t = t ++ gs.filterMap collect := by
  induction gs generalizing t with
  | nil => simp
  | cons g gs ih =>
    rw [List.foldl_cons, ih, List.append_assoc]
    cases hg : collect g <;> simp [hg]

/-- The loop adds all entries if its test knows the number of rows; if the test has a larger
    number, it never adds the last entry. -/
theorem fillBidsList_eq {rows : List Bids} {size : ℕ} (bidsList : List Bids)
    (hfresh : ∀ b ∈ rows, Fresh b) (hrows : Contiguous Bids.itemId rows)
    (hsize : rows.length ≤ size) :
    fillBidsList size rows bidsList =
      bidsList ++ if rows.length = size then entries rows else (entries rows).dropLast := by
  unfold fillBidsList
  have hstart : (Loop.start bidsList).recordCounter + rows.length ≤ size := by
    show 0 + rows.length ≤ size
    omega
  rw [foldl_counted Loop.turn_recordCounter hstart, ← filterMap_collect hfresh]
  have hzero : (Loop.start bidsList).recordCounter + rows.length = rows.length :=
    Nat.zero_add _
  rw [hzero]
  cases rows with
  | nil => simp [Loop.start]
  | cons a rows =>
    -- after the last row its group is still open, and only the test for the last record adds it
    obtain ⟨gs, b, g, hgroups, hopen⟩ :=
      controlBreak_turn.foldl_rows (Loop.open_first bidsList a) hrows
    rw [foldl_collect] at hopen
    have hlast : (groups Bids.itemId (a :: rows)).filterMap collect =
        gs.filterMap collect ++ [withNext b g] := by
      rw [hgroups, List.filterMap_append]
      rfl
    rw [hlast, List.dropLast_concat]
    -- the counter reaches the size only if every row was counted
    by_cases hlen : (a :: rows).length = size
    · rw [if_pos ⟨List.cons_ne_nil a rows, hlen⟩, if_pos hlen]
      show _ ++ _ = _
      rw [hopen.bidsList, hopen.bidPrevObj, List.append_assoc]
      rfl
    · rw [if_neg (fun h => hlen h.2), if_neg hlen, hopen.bidsList]

/-- Only no rows have no entries. -/
theorem entries_eq_nil_iff {rows : List Bids} : entries rows = [] ↔ rows = [] := by
  constructor
  · intro h
    cases rows with
    | nil => rfl
    | cons a rows =>
      -- the group of the first row has an entry
      have hgroup : (a :: rows).filter (fun b => b.itemId = a.itemId) ∈
          groups Bids.itemId (a :: rows) := by
        apply List.mem_map.mpr
        exact ⟨a.itemId, List.mem_eraseDups.mpr (by simp), rfl⟩
      have hnone := List.filterMap_eq_nil_iff.mp h _ hgroup
      rw [List.filter_cons, if_pos (by simp)] at hnone
      simp [entry] at hnone
  · rintro rfl
    rfl

/-! ## The Summary-1 report -/

/-- The rows of the items that are not on sale. -/
def others (activeId : ℤ) (rows : List ItemRow) : List ItemRow :=
  rows.filter (fun row => row.item.id ≠ activeId)

namespace ReportDao

section Summary1

variable {getBidItem : ℤ → Option ReportItem} {activeId : ℤ} {rows : List ItemRow}

theorem length_others_eq_iff :
    (others activeId rows).length = rows.length ↔ ∀ row ∈ rows, row.item.id ≠ activeId := by
  unfold others
  rw [List.length_filter_eq_length_iff]
  simp

/-- The test for the last record compares with the size of all rows. It succeeds if no row was
    left out; otherwise the last entry is not added. -/
theorem processSummary1ReportList_eq (bidsList : List Bids)
    (hfound : ∀ row ∈ rows, row.Found getBidItem)
    (hrows : Contiguous (fun row => row.item.id) rows) :
    processSummary1ReportList getBidItem activeId (rows.map ItemRow.toRow) bidsList =
      .ok (bidsList ++ if ∀ row ∈ rows, row.item.id ≠ activeId then
        itemEntries (others activeId rows) else (itemEntries (others activeId rows)).dropLast) := by
  have hkept : (rows.map ItemRow.bids).filter (fun bids => bids.itemId ≠ activeId) =
      (others activeId rows).map ItemRow.bids := List.filter_map
  have hfresh : ∀ b ∈ (others activeId rows).map ItemRow.bids, Fresh b := by
    intro b hb
    obtain ⟨row, -, rfl⟩ := List.mem_map.mp hb
    exact fresh_bids row
  have hcontiguous : Contiguous Bids.itemId ((others activeId rows).map ItemRow.bids) :=
    contiguous_map.mpr (hrows.filter_key (fun id => id ≠ activeId))
  -- the size is that of all rows, the counter that of the rows that are kept
  have hlen : ((others activeId rows).map ItemRow.bids).length ≤
      (rows.map ItemRow.toRow).length := by
    rw [List.length_map, List.length_map]
    exact List.length_filter_le _ _
  have hresult : processSummary1ReportList getBidItem activeId (rows.map ItemRow.toRow) bidsList =
      .ok (fillBidsList (rows.map ItemRow.toRow).length
        ((others activeId rows).map ItemRow.bids) bidsList) := by
    unfold processSummary1ReportList
    rw [mapM_toBids hfound, ← hkept]
    rfl
  rw [hresult, fillBidsList_eq bidsList hfresh hcontiguous hlen, entries_map_bids]
  simp only [List.length_map, length_others_eq_iff]

theorem itemEntries_eq_nil_iff : itemEntries rows = [] ↔ rows = [] := by
  rw [← entries_map_bids, entries_eq_nil_iff, List.map_eq_nil_iff]

/-- The report has one entry for each item but the active one, with the bidders and amounts of
    the item's first three rows, exactly if no row, or every row, is one of the active item.
    Otherwise the last entry is missing. -/
theorem processSummary1ReportList_iff (bidsList : List Bids)
    (hfound : ∀ row ∈ rows, row.Found getBidItem)
    (hrows : Contiguous (fun row => row.item.id) rows) :
    processSummary1ReportList getBidItem activeId (rows.map ItemRow.toRow) bidsList =
        .ok (bidsList ++ itemEntries (others activeId rows)) ↔
      (∀ row ∈ rows, row.item.id ≠ activeId) ∨ ∀ row ∈ rows, row.item.id = activeId := by
  rw [processSummary1ReportList_eq bidsList hfound hrows, Except.ok.injEq,
    List.append_cancel_left_eq]
  by_cases hall : ∀ row ∈ rows, row.item.id ≠ activeId
  · rw [if_pos hall]
    exact iff_of_true rfl (.inl hall)
  · rw [if_neg hall, or_iff_right hall]
    -- a list without its last element is itself only if it is empty
    have hdrop : ∀ l : List Bids, l.dropLast = l ↔ l = [] := by
      intro l
      constructor
      · intro h
        have := congrArg List.length h
        rw [List.length_dropLast] at this
        apply List.eq_nil_of_length_eq_zero
        omega
      · rintro rfl
        rfl
    rw [hdrop, itemEntries_eq_nil_iff, others, List.filter_eq_nil_iff]
    simp

end Summary1

end ReportDao

/-- An item without lots. -/
def lotlessItem (id : ℤ) : ReportItem where
  toBidItem := { BidItem.new with bidItemId := some id }
  id := id
  id_eq := rfl
  itemLots := []

/-- A row of a bidder's highest bid on an item. -/
def bidRow (item : ReportItem) (bidderName : String) (bidAmount : ℚ) : ItemRow where
  bidId := some 1
  bidItem := some item
  bidderName := some bidderName
  currency := none
  bidTime := none
  bidStatus := none
  comments := none
  bidAmount := some bidAmount
  bidItemId := some item.id
  item := item

/-- Four bidders on the first item, one on the second. -/
def twoItems : List ItemRow :=
  [bidRow (lotlessItem 1) "A " 20, bidRow (lotlessItem 1) "B" 10, bidRow (lotlessItem 1) "C" 9,
    bidRow (lotlessItem 1) "D" 8, bidRow (lotlessItem 2) "C" 5]

/-- The item of an entry and its three bidders with their amounts. -/
def ranks (bids : Bids) : ℤ × List (Option String × Option ℚ) :=
  (bids.itemId, [(bids.bidderName, bids.bidAmount), (bids.bidderName2, bids.bidAmount2),
    (bids.bidderName3, bids.bidAmount3)])

namespace ReportDao

/-- While neither item is on sale, both are in the report. -/
theorem processSummary1ReportList_twoItems :
    ∃ bidsList, processSummary1ReportList (fun _ => none) 0 (twoItems.map ItemRow.toRow) [] =
        .ok bidsList ∧
      bidsList.map ranks =
        [(1, [(some "A", some 20), (some "B", some 10), (some "C", some 9)]),
          (2, [(some "C", some 5), (none, none), (none, none)])] := by
  refine ⟨_, (processSummary1ReportList_iff [] (by decide +kernel) (by decide +kernel)).mpr
    (.inl (by decide +kernel)), ?_⟩
  decide +kernel

/-- While the first item is on sale, the second one is not in the report. -/
theorem twoItems_entry_lost :
    (∀ row ∈ twoItems, row.Found (fun _ => none)) ∧
      Contiguous (fun row => row.item.id) twoItems ∧
      processSummary1ReportList (fun _ => none) 1 (twoItems.map ItemRow.toRow) [] = .ok [] ∧
      (itemEntries (others 1 twoItems)).map ranks =
        [(2, [(some "C", some 5), (none, none), (none, none)])] :=
  ⟨by decide +kernel, by decide +kernel, by rfl, by decide +kernel⟩

end ReportDao

/-! ## The closed list -/

namespace ObserverDao

/-- A row of the query of the closed items, with the item it is about and the item's number in
    the sequence. -/
structure ClosedItemRow extends ItemRow where
  number : ℤ
  deriving DecidableEq

/-- The row as the query returns it. -/
def ClosedItemRow.toClosedRow (row : ClosedItemRow) : ClosedRow :=
  { toRow := row.toRow, sequenceId := some row.number }

/-- The entry of an item with the rows `g`, of which the first three count. The rows set the
    number in the one object of the item, so that the number is that of the last row. -/
def closedEntry (g : List ClosedItemRow) : Option Bids :=
  g.head?.bind fun first => g.getLast?.map fun last =>
    entryAs { first.item with seqId := last.number } ((g.take 3).map ClosedItemRow.toItemRow)

section Closed

variable {getBidItem : ℤ → Option ReportItem} {rows : List ClosedItemRow}

/-- The rows as bids with numbers. -/
def readRows (rows : List ClosedItemRow) : List (Bids × ℤ) :=
  rows.map (fun row => (row.bids, row.number))

/-- Closed rows whose items are found are all read, with their numbers. -/
theorem mapM_toClosedBids (h : ∀ row ∈ rows, row.Found getBidItem) :
    (rows.map ClosedItemRow.toClosedRow).mapM (toClosedBids getBidItem) = .ok (readRows rows) := by
  rw [List.mapM_map]
  apply mapM_eq_ok
  intro row hrow
  show (toBids getBidItem row.toRow >>= _) = _
  rw [(h row hrow).toBids]
  rfl

/-- The bids of the rows, each with the last number of its item. -/
def numberedBids (rows : List ClosedItemRow) : List Bids :=
  rows.map (fun row => setSeqId (seqIdOf (readRows rows) row.item.id) row.bids)

/-- The rows of an item give its entry. -/
theorem entry_numberedBids {k : ℤ} :
    entry ((rows.filter (fun row => row.item.id = k)).map
        (fun row => setSeqId (seqIdOf (readRows rows) row.item.id) row.bids)) =
      closedEntry (rows.filter (fun row => row.item.id = k)) := by
  -- the rows of an item set its number in the same object, so the last one decides
  have hnumber : seqIdOf (readRows rows) k =
      ((rows.filter (fun row => row.item.id = k)).getLast?.map (·.number)).getD 0 := by
    have hfilter : (readRows rows).filter (fun row => row.1.itemId = k) =
        (rows.filter (fun row => row.item.id = k)).map (fun row => (row.bids, row.number)) :=
      List.filter_map
    unfold seqIdOf
    rw [hfilter, List.getLast?_map, Option.map_map]
    rfl
  have hkey : ∀ row ∈ rows.filter (fun row => row.item.id = k), row.item.id = k :=
    fun row hrow => of_decide_eq_true (List.mem_filter.mp hrow).2
  generalize rows.filter (fun row => row.item.id = k) = g at hnumber hkey
  cases g with
  | nil => rfl
  | cons first g =>
    obtain ⟨last, hlast⟩ : ∃ last, (first :: g).getLast? = some last :=
      ⟨_, List.getLast?_eq_some_getLast (List.cons_ne_nil first g)⟩
    rw [hlast] at hnumber
    have hfirst : seqIdOf (readRows rows) first.item.id = last.number := by
      rw [hkey first List.mem_cons_self]
      exact hnumber
    unfold closedEntry entry
    rw [hlast]
    simp only [List.map_cons, List.head?_cons, Option.bind_some, Option.map_some, hfirst]
    rcases g with _ | ⟨second, _ | ⟨third, g⟩⟩
    · rfl
    · rfl
    · rfl

/-- The entries of the numbered bids, group by group. -/
theorem entries_numberedBids :
    entries (numberedBids rows) =
      (groups (fun row => row.item.id) rows).filterMap closedEntry := by
  unfold entries numberedBids
  rw [groups_map, List.filterMap_map]
  apply List.filterMap_congr
  intro g hg
  obtain ⟨k, -, rfl⟩ := List.mem_map.mp hg
  exact entry_numberedBids

/-- The closed list has one entry for each item, in the order of first appearance, with the bid
    data of the item's first row and the bidders and amounts of its second and third. The entry
    has the number of the item, if its rows agree on it, and no rows give no entries. -/
theorem getBidsListForClosedMarket_eq (hfound : ∀ row ∈ rows, row.Found getBidItem)
    (hrows : Contiguous (fun row => row.item.id) rows) :
    getBidsListForClosedMarket getBidItem (rows.map ClosedItemRow.toClosedRow) =
        .ok ((groups (fun row => row.item.id) rows).filterMap closedEntry) ∧
      (∀ id number, (∀ row ∈ rows, row.item.id = id → row.number = number) →
        ∀ bids ∈ (groups (fun row => row.item.id) rows).filterMap closedEntry,
          bids.itemId = id → bids.bidItem.seqId = number) ∧
      getBidsListForClosedMarket getBidItem [] = .ok [] := by
  have hfresh : ∀ b ∈ numberedBids rows, Fresh b := by
    intro b hb
    obtain ⟨row, -, rfl⟩ := List.mem_map.mp hb
    exact ⟨rfl, rfl, rfl, rfl⟩
  have hcontiguous : Contiguous Bids.itemId (numberedBids rows) := contiguous_map.mpr hrows
  have hlen : (numberedBids rows).length = (rows.map ClosedItemRow.toClosedRow).length := by
    rw [numberedBids, List.length_map, List.length_map]
  have hresult : getBidsListForClosedMarket getBidItem (rows.map ClosedItemRow.toClosedRow) =
      .ok (fillBidsList (rows.map ClosedItemRow.toClosedRow).length (numberedBids rows) []) := by
    unfold getBidsListForClosedMarket
    rw [mapM_toClosedBids hfound]
    show Except.ok (fillBidsList _ ((readRows rows).map _) []) = _
    rw [readRows, List.map_map]
    rfl
  refine ⟨?_, ?_, rfl⟩
  · rw [hresult, fillBidsList_eq [] hfresh hcontiguous hlen.le, if_pos hlen, List.nil_append,
      entries_numberedBids]
  · intro id number hsame bids hbids hid
    obtain ⟨g, hg, hentry⟩ := List.mem_filterMap.mp hbids
    obtain ⟨k, -, rfl⟩ := List.mem_map.mp hg
    -- the entry has the number of a row of the item
    obtain ⟨first, hfirst, hentry⟩ := Option.bind_eq_some_iff.mp hentry
    obtain ⟨last, hlast, rfl⟩ := Option.map_eq_some_iff.mp hentry
    obtain ⟨-, hfirstId⟩ := List.mem_filter.mp (List.mem_of_mem_head? hfirst)
    obtain ⟨hmem, hlastId⟩ := List.mem_filter.mp (List.mem_of_getLast? hlast)
    have hk : first.item.id = id := hid
    exact hsame last hmem
      ((of_decide_eq_true hlastId).trans ((of_decide_eq_true hfirstId).symm.trans hk))

end Closed

/-- The rows of the items, with their numbers in the sequence. -/
def twoClosed : List ClosedItemRow :=
  twoItems.map (fun row => { toItemRow := row, number := 10 * row.item.id })

/-- The fourth bidder of the first item is in no entry, and the items have their numbers. -/
theorem getBidsListForClosedMarket_twoClosed :
    ∃ bidsList, getBidsListForClosedMarket (fun _ => none)
        (twoClosed.map ClosedItemRow.toClosedRow) = .ok bidsList ∧
      bidsList.map (fun bids => (bids.bidItem.seqId, ranks bids)) =
        [(10, 1, [(some "A", some 20), (some "B", some 10), (some "C", some 9)]),
          (20, 2, [(some "C", some 5), (none, none), (none, none)])] := by
  refine ⟨_, (@getBidsListForClosedMarket_eq (fun _ => none) twoClosed (by decide +kernel)
    (by decide +kernel)).1, ?_⟩
  decide +kernel

end ObserverDao

/-! ## The entries of the page -/

/-- What the page shows of an entry: the item and its three best bidders. -/
abbrev Shown := BidItem × List (Option String × Option ℚ)

/-- What an object of the list shows. -/
def shown (bids : Bids) : Shown :=
  (bids.bidItem.toBidItem, [(bids.bidderName, bids.bidAmount),
    (bids.bidderName2, bids.bidAmount2), (bids.bidderName3, bids.bidAmount3)])

/-- What an entry of the page `/closed` shows; a bidder that is absent is shown as `null`. -/
def shownEntry (e : Model.ObserverDao.ClosedEntry) : Shown :=
  (e.bidItem, (e.best ++ [(none, none), (none, none)]).take 3)

/-- The row of the page's query. -/
def bidderRow (bids : Bids) : Model.ObserverDao.BidderRow :=
  ⟨bids.bidItem.toBidItem, bids.bidItem.seqId, bids.bidderName, bids.bidAmount⟩

section Page

open Model.ObserverDao (ClosedEntry fillEntries)

/-- The entry of the page is that of the rows `b :: g`. -/
structure OfRows (b : Bids) (g : List Bids) (e : ClosedEntry) : Prop where
  bidItem : e.bidItem = b.bidItem.toBidItem
  best : e.best = ((b :: g).take 3).map (fun c => (c.bidderName, c.bidAmount))

theorem ofRows_ofRow (b : Bids) : OfRows b [] (ClosedEntry.ofRow (bidderRow b)) := ⟨rfl, rfl⟩

/-- A further row is added to both. -/
theorem OfRows.addRow {b : Bids} {g : List Bids} {e : ClosedEntry} (h : OfRows b g e) (a : Bids) :
    OfRows b (g ++ [a]) (e.addRow (bidderRow a)) := by
  unfold ClosedEntry.addRow
  cases g with
  | nil => simp [h.best, OfRows.mk, h.bidItem, bidderRow]
  | cons c g =>
    cases g with
    | nil => simp [h.best, OfRows.mk, h.bidItem, bidderRow]
    | cons d g =>
      -- three rows are in the entry already
      rw [if_neg (by simp [h.best])]
      apply OfRows.mk h.bidItem
      rw [h.best]
      simp

/-- Both show the same item, bidders and amounts. -/
theorem OfRows.shown_eq {b : Bids} {g : List Bids} {e : ClosedEntry} (h : OfRows b g e)
    (hb : Fresh b) : shown (withNext b g) = shownEntry e := by
  unfold shown shownEntry
  rw [h.bidItem, h.best]
  cases b
  obtain ⟨rfl, rfl, rfl, rfl⟩ := hb
  cases g with
  | nil => rfl
  | cons c g =>
    cases g with
    | nil => rfl
    | cons d g => rfl

/-- Both compare the item of the next row in the same way. -/
theorem OfRows.id_eq_iff {b : Bids} {g : List Bids} {e : ClosedEntry} (h : OfRows b g e)
    (a : Bids) : e.bidItem.bidItemId = (bidderRow a).bidItem.bidItemId ↔ a.itemId = b.itemId := by
  have ha : (bidderRow a).bidItem.bidItemId = some a.itemId := a.bidItem.id_eq
  have hb : e.bidItem.bidItemId = some b.itemId := by
    rw [h.bidItem]
    exact b.bidItem.id_eq
  rw [ha, hb, Option.some.injEq]
  exact eq_comm

/-- From a state with an open group the two loops go on alike. -/
theorem Loop.Open.map_shown {rows t g : List Bids} {b : Bids} {s : Loop} {e : ClosedEntry}
    (h : s.Open t b g) (he : OfRows b g e) (hb : Fresh b) (hrows : ∀ a ∈ rows, Fresh a) :
    (rows.foldl Loop.turn s).add.bidsList.map shown =
      t.map shown ++ (fillEntries e (rows.map bidderRow)).map shownEntry := by
  induction rows generalizing t b g s e with
  | nil =>
    show (s.bidsList ++ s.bidPrevObj.toList).map shown = _
    rw [h.bidsList, h.bidPrevObj, List.map_append]
    show _ ++ [shown (withNext b g)] = _ ++ [shownEntry e]
    rw [he.shown_eq hb]
  | cons a rows ih =>
    have hrest : ∀ c ∈ rows, Fresh c := fun c hc => hrows c (List.mem_cons_of_mem a hc)
    rw [List.foldl_cons, List.map_cons, fillEntries]
    -- the group stays open in both loops, or is closed in both
    by_cases hkey : a.itemId = b.itemId
    · rw [if_pos ((he.id_eq_iff a).mpr hkey)]
      exact ih (h.same hkey) (he.addRow a) hb hrest
    · rw [if_neg (fun heq => hkey ((he.id_eq_iff a).mp heq)), List.map_cons,
        ih (h.next hkey) (ofRows_ofRow a) (hrows a List.mem_cons_self) hrest, List.map_append,
        ← he.shown_eq hb]
      simp [collect]

/-- The list with all attributes of a bid shows what the entries of the page `/closed` show. -/
theorem fillBidsList_closedEntries {rows : List Bids} (hrows : ∀ a ∈ rows, Fresh a) :
    (fillBidsList rows.length rows []).map shown =
      (Model.ObserverDao.getBidsListForClosedMarket (rows.map bidderRow)).map shownEntry := by
  unfold fillBidsList
  rw [foldl_counted Loop.turn_recordCounter (Nat.zero_add _).le]
  cases rows with
  | nil => rfl
  | cons a rows =>
    rw [if_pos ⟨List.cons_ne_nil a rows, Nat.zero_add _⟩, List.foldl_cons]
    exact (Loop.open_first [] a).map_shown (ofRows_ofRow a) (hrows a List.mem_cons_self)
      (fun c hc => hrows c (List.mem_cons_of_mem a hc))

end Page

end Bidding.Model.Reports
