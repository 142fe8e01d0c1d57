import Bidding.Collections.Paging
import Bidding.Collections.StableSort
import Bidding.Model.MarketLists

/-!
# Rows of the Market Queries

What the queries behind the lists return: which items, in which order, how often, and what the
loop over the rows makes of them.

## Key Results

- **`mem_marketQuery`**, **`mem_closedQueryIn`**: the items that the lists show.
- **`ordered_marketQuery`**: the rows come in the order of the sequence, copies side by side.
- **`foldl_listRow`**: the loop lists every row once.
-/

namespace Bidding.Model

open Bidding.Collections

/-- The sequence of an auction has pairwise distinct items and pairwise distinct numbers. -/
structure DistinctLots (db : Db) (auctionId : ℤ) : Prop where
  items : ((CommonDao.getCurrentBidSequence db auctionId).map BidSequence.bidItemId).Nodup
  numbers : ((CommonDao.getCurrentBidSequence db auctionId).map BidSequence.sequenceId).Nodup

/-- The rows of an auction with the same item, or with the same number, are the same. -/
theorem DistinctLots.eq_of_item {db : Db} {auctionId : ℤ} (h : DistinctLots db auctionId)
    {s s' : BidSequence} (hs : s ∈ CommonDao.getCurrentBidSequence db auctionId)
    (hs' : s' ∈ CommonDao.getCurrentBidSequence db auctionId)
    (heq : s.bidItemId = s'.bidItemId) : s = s' :=
  List.inj_on_of_nodup_map h.items hs hs' heq

theorem DistinctLots.eq_of_number {db : Db} {auctionId : ℤ} (h : DistinctLots db auctionId)
    {s s' : BidSequence} (hs : s ∈ CommonDao.getCurrentBidSequence db auctionId)
    (hs' : s' ∈ CommonDao.getCurrentBidSequence db auctionId)
    (heq : s.sequenceId = s'.sequenceId) : s = s' :=
  List.inj_on_of_nodup_map h.numbers hs hs' heq

namespace BidderDao

/-! ## Which items are listed -/

/-- The user may see the lot: its item passes the filter and is in one of the user's
    categories in the auction. -/
def mayShow (db : Db) (userName : String) (auctionId : ℤ) (categoryId : Option ℤ)
    (bidSeq : BidSequence) : Bool :=
  match getBidItem db bidSeq.bidItemId with
  | none => false
  | some bidItem => inCategory categoryId bidItem &&
      db.bidderCategories.any (isMapped userName auctionId bidItem)

section Rows

variable {db : Db} {vo : CommonVO} {categoryId : Option ℤ} {row : BidItem × BidSequence}
  {s : BidSequence}

theorem joinAutoBids_ne_nil (bidItemId : ℤ) : joinAutoBids db bidItemId ≠ [] := by
  unfold joinAutoBids
  split
  · simp
  · rename_i hne
    simpa using hne

/-- The rows of a lot in the market list. -/
theorem mem_marketRows :
    row ∈ marketRows db vo categoryId s ↔
      row.2 = s ∧ getBidItem db s.bidItemId = some row.1 ∧
        mayShow db vo.userName vo.auctionId categoryId s = true := by
  unfold marketRows mayShow
  cases hitem : getBidItem db s.bidItemId with
  | none => simp
  | some bidItem =>
    by_cases hfilter : inCategory categoryId bidItem = true
    · -- the join has a row to show the item with
      obtain ⟨joined, hjoined⟩ := List.exists_mem_of_ne_nil _ (@joinAutoBids_ne_nil db s.bidItemId)
      simp only [hfilter, if_true, List.mem_flatMap, List.mem_map, List.mem_filter, Bool.true_and,
        List.any_eq_true, Option.some.injEq]
      constructor
      · rintro ⟨-, -, c, hc, rfl⟩
        exact ⟨rfl, rfl, c, hc⟩
      · rintro ⟨hs, hrow, c, hc⟩
        exact ⟨joined, hjoined, c, hc, Prod.ext hrow hs.symm⟩
    · simp [hfilter]

/-- The rows of a lot in the closed list. -/
theorem mem_closedRows :
    row ∈ closedRows db vo s ↔
      row.2 = s ∧ getBidItem db s.bidItemId = some row.1 ∧
        mayShow db vo.userName vo.auctionId none s = true := by
  unfold closedRows mayShow inCategory
  cases hitem : getBidItem db s.bidItemId with
  | none => simp
  | some bidItem =>
    simp only [List.mem_map, List.mem_filter, Option.all_none, Bool.true_and, List.any_eq_true,
      Option.some.injEq]
    constructor
    · rintro ⟨c, hc, rfl⟩
      exact ⟨rfl, rfl, c, hc⟩
    · rintro ⟨hs, hrow, c, hc⟩
      exact ⟨c, hc, Prod.ext hrow hs.symm⟩

/-- The rows that the sequence of the auction gives within a bound. -/
theorem mem_boundedSequence {bound : BidSequence → Bool} :
    s ∈ sort compareSequence (db.bidSequence.filter (fun s => s.auctionId = vo.auctionId &&
        (vo.sequenceId = 0 || bound s))) ↔
      s ∈ CommonDao.getCurrentBidSequence db vo.auctionId ∧
        (vo.sequenceId = 0 ∨ bound s = true) := by
  rw [(sort_perm compareSequence _).mem_iff]
  simp [CommonDao.getCurrentBidSequence, and_assoc]

/-- The rows of the market list are those of the lots behind the active one. -/
theorem mem_marketQuery :
    row ∈ marketQuery db vo categoryId ↔
      row.2 ∈ CommonDao.getCurrentBidSequence db vo.auctionId ∧
        (vo.sequenceId = 0 ∨ vo.sequenceId < row.2.sequenceId) ∧
        getBidItem db row.2.bidItemId = some row.1 ∧
        mayShow db vo.userName vo.auctionId categoryId row.2 = true := by
  unfold marketQuery
  simp only [List.mem_flatMap, mem_boundedSequence, mem_marketRows, decide_eq_true_eq]
  constructor
  · rintro ⟨s, ⟨hs, hbound⟩, rfl, hitem, hshow⟩
    exact ⟨hs, hbound, hitem, hshow⟩
  · rintro ⟨hs, hbound, hitem, hshow⟩
    exact ⟨row.2, ⟨hs, hbound⟩, rfl, hitem, hshow⟩

theorem mayShow_filter (hitem : getBidItem db s.bidItemId = some row.1) :
    mayShow db vo.userName vo.auctionId categoryId s = true ↔
      inCategory categoryId row.1 = true ∧
        mayShow db vo.userName vo.auctionId none s = true := by
  simp [mayShow, hitem, inCategory]

/-- The rows of the closed list are those of the lots in front of the active one. -/
theorem mem_closedQueryIn :
    row ∈ closedQueryIn db vo categoryId ↔
      row.2 ∈ CommonDao.getCurrentBidSequence db vo.auctionId ∧
        (vo.sequenceId = 0 ∨ row.2.sequenceId < vo.sequenceId) ∧
        getBidItem db row.2.bidItemId = some row.1 ∧
        mayShow db vo.userName vo.auctionId categoryId row.2 = true := by
  unfold closedQueryIn
  simp only [List.mem_filter, List.mem_flatMap, mem_boundedSequence, mem_closedRows,
    decide_eq_true_eq]
  constructor
  · rintro ⟨⟨s, ⟨hs, hbound⟩, rfl, hitem, hshow⟩, hfilter⟩
    exact ⟨hs, hbound, hitem, (mayShow_filter hitem).mpr ⟨hfilter, hshow⟩⟩
  · rintro ⟨hs, hbound, hitem, hshow⟩
    obtain ⟨hfilter, hshow⟩ := (mayShow_filter hitem).mp hshow
    exact ⟨⟨row.2, ⟨hs, hbound⟩, rfl, hitem, hshow⟩, hfilter⟩

/-- A lot that the user may see has an item. -/
theorem getBidItem_of_mayShow {userName : String} {auctionId : ℤ}
    (h : mayShow db userName auctionId categoryId s = true) :
    ∃ item, getBidItem db s.bidItemId = some item := by
  unfold mayShow at h
  cases hitem : getBidItem db s.bidItemId with
  | none => simp [hitem] at h
  | some item => exact ⟨item, rfl⟩

/-- Without a filter the list of the closed items is the one of the closed market. -/
theorem getBidItemsForCategoryForClosedMarket_none (db : Db) (vo : CommonVO) :
    getBidItemsForCategoryForClosedMarket db vo none =
      getBidItemsForCategoryForClosedMarketForBidder db vo := by
  simp [getBidItemsForCategoryForClosedMarket, getBidItemsForCategoryForClosedMarketForBidder,
    closedQueryIn, closedQuery, inCategory]

end Rows

/-! ## The order of the rows -/

/-- The sequence is sorted by the numbers. -/
theorem pairwise_sort_compareSequence (l : List BidSequence) :
    (sort compareSequence l).Pairwise (fun s s' => s.sequenceId ≤ s'.sequenceId) := by
  apply sort_pairwise
  · intro s s' s'' h h'
    exact h.trans h'
  · intro s _ s' _ h
    unfold compareSequence at h
    omega
  · intro s _ s' _ h
    unfold compareSequence at h
    omega

/-- The number of a row. -/
def number (row : BidItem × BidSequence) : ℤ := row.2.sequenceId

section Order

variable {db : Db} {vo : CommonVO} {categoryId : Option ℤ}

/-- Rows of one item are the same row. -/
theorem marketQuery_eq_of_item (h : DistinctLots db vo.auctionId) {row row' : BidItem × BidSequence}
    (hrow : row ∈ marketQuery db vo categoryId) (hrow' : row' ∈ marketQuery db vo categoryId)
    (heq : row.2.bidItemId = row'.2.bidItemId) : row = row' := by
  obtain ⟨hs, -, hitem, -⟩ := mem_marketQuery.mp hrow
  obtain ⟨hs', -, hitem', -⟩ := mem_marketQuery.mp hrow'
  have hsame : row.2 = row'.2 := h.eq_of_item hs hs' heq
  rw [hsame, hitem'] at hitem
  exact Prod.ext (Option.some.inj hitem).symm hsame

/-- The rows come in the order of the numbers, the copies of a row side by side. -/
theorem ordered_marketQuery (h : DistinctLots db vo.auctionId) :
    Ordered number (marketQuery db vo categoryId) where
  sorted := by
    unfold marketQuery
    apply List.pairwise_flatMap.mpr
    constructor
    · -- the rows of one lot have its number
      intro s _
      apply List.pairwise_of_forall_mem_list
      intro row hrow row' hrow'
      rw [number, number, (mem_marketRows.mp hrow).1, (mem_marketRows.mp hrow').1]
    · apply (pairwise_sort_compareSequence _).imp
      intro s s' hle row hrow row' hrow'
      rw [number, number, (mem_marketRows.mp hrow).1, (mem_marketRows.mp hrow').1]
      exact hle
  same := by
    intro row hrow row' hrow' heq
    have hs := (mem_marketQuery.mp hrow).1
    have hs' := (mem_marketQuery.mp hrow').1
    exact marketQuery_eq_of_item h hrow hrow' (congrArg BidSequence.bidItemId
      (h.eq_of_number hs hs' heq))

end Order

/-! ## The loop over the rows -/

section Loop

variable {db : Db} {userName : String}

/-- The id of an item is the key of its row. -/
theorem bidItemId_of_getBidItem {id : ℤ} {item : BidItem} (h : getBidItem db id = some item) :
    item.bidItemId = some id := by
  unfold getBidItem at h
  obtain ⟨_, -, hitem⟩ := Option.map_eq_some_iff.mp h
  rw [← hitem]

/-- An entry keeps the id of its item. -/
theorem listed_bidItemId {row : BidItem × BidSequence}
    (hitem : getBidItem db row.2.bidItemId = some row.1) :
    (listed db userName row).bidItemId = some row.2.bidItemId := by
  have hid := bidItemId_of_getBidItem hitem
  unfold listed
  dsimp only
  split <;> exact hid

@[simp] theorem listed_seqId (row : BidItem × BidSequence) :
    (listed db userName row).seqId = row.2.sequenceId := by
  unfold listed
  dsimp only
  split <;> rfl

@[simp] theorem listed_bidSpan (row : BidItem × BidSequence) :
    (listed db userName row).bidSpan = row.2.bidspan := by
  unfold listed
  dsimp only
  split <;> rfl

/-- The rows come from the tables, and rows of one item are the same row. -/
structure FromTables (db : Db) (rows : List (BidItem × BidSequence)) : Prop where
  item : ∀ row ∈ rows, getBidItem db row.2.bidItemId = some row.1
  same : ∀ row ∈ rows, ∀ row' ∈ rows, row.2.bidItemId = row'.2.bidItemId → row = row'

theorem FromTables.of_subset {rows rows' : List (BidItem × BidSequence)} (h : FromTables db rows)
    (hsub : rows' ⊆ rows) : FromTables db rows' where
  item row hrow := h.item row (hsub hrow)
  same row hrow row' hrow' := h.same row (hsub hrow) row' (hsub hrow')

/-- One turn of the loop, when the list shows the rows `done`. -/
theorem listRow_map {done : List (BidItem × BidSequence)} {row : BidItem × BidSequence}
    (h : FromTables db (row :: done)) :
    listRow db userName (done.map (listed db userName)) row =
      (if row ∈ done then done else done ++ [row]).map (listed db userName) := by
  have hid : ∀ row' ∈ row :: done,
      (listed db userName row').bidItemId = (listed db userName row).bidItemId ↔ row' = row := by
    intro row' hrow'
    rw [listed_bidItemId (h.item row' hrow'), listed_bidItemId (h.item row List.mem_cons_self)]
    constructor
    · intro heq
      exact h.same row' hrow' row List.mem_cons_self (Option.some.inj heq)
    · rintro rfl
      rfl
  -- the list contains the item exactly if the row was listed before
  have hany : ((done.map (listed db userName)).any
      (fun i => decide (i.bidItemId = (listed db userName row).bidItemId))) = true ↔
        row ∈ done := by
    simp only [List.any_eq_true, List.mem_map, decide_eq_true_eq]
    constructor
    · rintro ⟨_, ⟨row', hrow', rfl⟩, heq⟩
      exact (hid row' (List.mem_cons_of_mem row hrow')).mp heq ▸ hrow'
    · intro hrow
      exact ⟨_, ⟨row, hrow, rfl⟩, rfl⟩
  unfold listRow
  by_cases hrow : row ∈ done
  · -- the same object again: the entry stays as it is
    rw [if_pos (hany.mpr hrow), if_pos hrow, List.map_map]
    apply List.map_congr_left
    intro row' hrow'
    simp only [Function.comp_apply]
    split
    · rename_i heq
      rw [(hid row' (List.mem_cons_of_mem row hrow')).mp heq]
    · rfl
  · rw [if_neg (fun hcontains => hrow (hany.mp hcontains)), if_neg hrow, List.map_append]
    rfl

/-- The loop lists every row once, in the order of the first copies. -/
theorem foldl_listRow_map (rows done : List (BidItem × BidSequence))
    (h : FromTables db (done ++ rows)) :
    rows.foldl (listRow db userName) (done.map (listed db userName)) =
      (done ++ (rows.filter (fun row => row ∉ done)).eraseDups).map (listed db userName) := by
  induction rows generalizing done with
  | nil => simp
  | cons row rows ih =>
    have hrow : FromTables db (row :: done) := h.of_subset (by
      intro row' hrow'
      rcases List.mem_cons.mp hrow' with rfl | hrow'
      · simp
      · exact List.mem_append_left _ hrow')
    rw [List.foldl_cons, listRow_map hrow]
    by_cases hdone : row ∈ done
    · -- a copy of a row that was listed adds nothing
      rw [if_pos hdone, ih done (h.of_subset ((List.Sublist.refl done).append
        (List.sublist_cons_self row rows)).subset)]
      simp [hdone]
    · -- a new row is listed, and its later copies are left out
      rw [if_neg hdone, ih (done ++ [row]) (by simpa using h)]
      simp only [List.mem_append, List.mem_singleton, List.filter_cons, hdone, not_false_eq_true,
        decide_true, if_true, List.eraseDups_cons, List.filter_filter, List.append_assoc,
        List.cons_append, List.nil_append]
      congr 4
      apply List.filter_congr
      intro row' _
      by_cases hsame : row' = row <;> simp [hsame, hdone]

theorem foldl_listRow {rows : List (BidItem × BidSequence)} (h : FromTables db rows) :
    rows.foldl (listRow db userName) [] = rows.eraseDups.map (listed db userName) := by
  have hall : rows.foldl (listRow db userName) ([].map (listed db userName)) = _ :=
    foldl_listRow_map rows [] (by simpa using h)
  simpa using hall

end Loop

end BidderDao

end Bidding.Model
