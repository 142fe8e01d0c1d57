import Bidding.Effects.Runs
import Bidding.Model.BidderDao

/-!
# The Two Records of Who Won

An observer's decision on a closed item writes the item's own row and, unless it is a
rejection, a row of `closedbids`. The closed market derives the winner from the first, the
bidder's report from the second.

## Key Results

- **`markedWon_iff`**, **`hasWon_iff`**: what the two readers look at.
- **`winnersAgree_iff`**: along a sequence of decisions the two agree exactly if every decision
  is in line with the approvals before it.
-/

namespace Bidding.Model

open Bidding.Effects Bidding.Collections BidderDao ObserverDao

/-! ## The two readers -/

/-- The closed market of the user marks the item as won, on some page. -/
def MarkedWon (db : Db) (userName : String) (id : ℤ) : Prop :=
  ∃ vo : CommonVO, vo.userName = userName ∧
    ∃ item ∈ getBidItemsForCategoryForClosedMarketForBidder db vo,
      item.bidItemId = some id ∧ item.status = some "Won"

/-- The item is among the won items of the user. -/
def HasWon (db : Db) (userName : String) (id : ℤ) : Prop :=
  ∃ item ∈ getWonBids db userName, item.bidItemId = some id

/-- The two readers agree on every item and user, and at most one user has won an item. -/
structure WinnersAgree (db : Db) : Prop where
  agree : ∀ id userName, MarkedWon db userName id ↔ HasWon db userName id
  unique : ∀ id u v, MarkedWon db u id → MarkedWon db v id → u = v

/-- The closed market of the user lists the item: the item is in the sequence of an auction in
    which the user is mapped to its category. -/
def Listed (db : Db) (userName : String) (id : ℤ) : Prop :=
  ∃ item, getBidItem db id = some item ∧ ∃ s ∈ db.bidSequence, s.bidItemId = id ∧
    ∃ c ∈ db.bidderCategories, isMapped userName s.auctionId item c = true

/-- The name in the item's row. -/
def winnerName (db : Db) (id : ℤ) : Option String := (db.bidItems id).bind BidItem.bidderName

theorem getBidItem_eq_some_iff {db : Db} {id : ℤ} {item : BidItem} :
    getBidItem db id = some item ↔ ∃ row, db.bidItems id = some row ∧
      { row.persistent with bidItemId := some id } = item :=
  Option.map_eq_some_iff

/-- An item of the database carries its id, no status, and the name of its row. -/
theorem getBidItem_fields {db : Db} {id : ℤ} {item : BidItem} (h : getBidItem db id = some item) :
    item.bidItemId = some id ∧ item.status = none ∧ item.bidderName = winnerName db id := by
  obtain ⟨row, hrow, rfl⟩ := getBidItem_eq_some_iff.mp h
  refine ⟨rfl, rfl, ?_⟩
  rw [winnerName, hrow]
  rfl

/-- An entry of a page of the closed market is an item that is listed. -/
theorem mem_closedQuery {db : Db} {vo : CommonVO} {entry : BidItem × BidSequence}
    (h : entry ∈ closedQuery db vo) :
    getBidItem db entry.2.bidItemId = some entry.1 ∧
      Listed db vo.userName entry.2.bidItemId := by
  have hrows := List.mem_of_mem_drop (List.mem_of_mem_take h)
  -- a row of the page is a lot of the auction joined with a mapping of the user
  obtain ⟨s, hs, hentry⟩ := List.mem_flatMap.mp hrows
  have hs := List.mem_filter.mp ((sort_perm compareSequence _).mem_iff.mp hs)
  simp only [Bool.and_eq_true, decide_eq_true_eq] at hs
  obtain ⟨hmem, hauction, -⟩ := hs
  unfold closedRows at hentry
  cases hitem : getBidItem db s.bidItemId with
  | none => simp [hitem] at hentry
  | some item =>
    simp only [hitem, List.mem_map, List.mem_filter] at hentry
    obtain ⟨c, ⟨hc, hmapped⟩, rfl⟩ := hentry
    refine ⟨hitem, item, hitem, s, hmem, rfl, c, hc, ?_⟩
    rw [hauction]
    exact hmapped

/-- An item that is listed is on the page that shows the whole sequence of its auction. -/
theorem Listed.mem_closedQuery {db : Db} {userName : String} {id : ℤ}
    (h : Listed db userName id) :
    ∃ vo item s, vo.userName = userName ∧ getBidItem db id = some item ∧
      (item, s) ∈ closedQuery db vo := by
  obtain ⟨item, hitem, s, hs, rfl, c, hc, hmapped⟩ := h
  let sequence := db.bidSequence.filter (fun s' => s'.auctionId = s.auctionId &&
    ((0 : ℤ) = 0 || s'.sequenceId < 0))
  -- a page as long as the result shows all of it
  let rows := (sort compareSequence sequence).flatMap
    (closedRows db ⟨userName, s.auctionId, 0, 0, 0⟩)
  refine ⟨⟨userName, s.auctionId, 0, 0, rows.length⟩, item, s, rfl, hitem, ?_⟩
  have hall : closedQuery db ⟨userName, s.auctionId, 0, 0, rows.length⟩ = rows :=
    List.take_length
  rw [hall]
  apply List.mem_flatMap.mpr
  refine ⟨s, ?_, ?_⟩
  · rw [(sort_perm compareSequence sequence).mem_iff]
    simp [sequence, hs]
  · simp only [closedRows, hitem, List.mem_map, List.mem_filter]
    exact ⟨c, ⟨hc, hmapped⟩, trivial⟩

/-- What the closed market looks at: the name in the item's row, if the item is listed. -/
theorem markedWon_iff {db : Db} {userName : String} {id : ℤ} :
    MarkedWon db userName id ↔ winnerName db id = some userName ∧ Listed db userName id := by
  constructor
  · intro h
    rcases h with ⟨vo, rfl, item, hmem, hid, hwon⟩
    obtain ⟨entry, hentry, rfl⟩ := List.mem_map.mp hmem
    obtain ⟨hitem, hlisted⟩ := mem_closedQuery hentry
    obtain ⟨hid', hstatus, hname⟩ := getBidItem_fields hitem
    obtain rfl : entry.2.bidItemId = id := Option.some.inj (hid'.symm.trans hid)
    refine ⟨?_, hlisted⟩
    rw [← hname]
    -- an item of another bidder keeps its status, which a load leaves empty
    by_contra hne
    simp only [markWon, if_neg hne, hstatus] at hwon
    cases hwon
  · intro h
    rcases h with ⟨hname, hlisted⟩
    obtain ⟨vo, item, s, rfl, hitem, hentry⟩ := hlisted.mem_closedQuery
    obtain ⟨hid, -, hname'⟩ := getBidItem_fields hitem
    refine ⟨vo, rfl, _, List.mem_map_of_mem hentry, hid, ?_⟩
    exact if_pos (hname'.trans hname)

/-- The item was approved for the bidder. -/
def ApprovedFor (db : Db) (id : ℤ) (userName : String) : Prop :=
  ∃ c ∈ db.closedBids, c.bidItemId = id ∧ c.bidderName = some userName

/-- What the report looks at: the rows of `closedbids`. -/
theorem hasWon_iff {db : Db} {userName : String} {id : ℤ} :
    HasWon db userName id ↔ (db.bidItems id).isSome ∧ ApprovedFor db id userName := by
  constructor
  · intro h
    rcases h with ⟨item, hmem, hid⟩
    -- a closed bid of the user whose item still has a row
    obtain ⟨c, hc, hitem⟩ := List.mem_filterMap.mp hmem
    simp only [List.mem_filter, decide_eq_true_eq] at hc
    obtain rfl : c.bidItemId = id :=
      Option.some.inj ((getBidItem_fields hitem).1.symm.trans hid)
    obtain ⟨row, hrow, -⟩ := getBidItem_eq_some_iff.mp hitem
    exact ⟨Option.isSome_iff_exists.mpr ⟨row, hrow⟩, c, hc.1, rfl, hc.2⟩
  · intro h
    rcases h with ⟨hsome, c, hc, rfl, hname⟩
    obtain ⟨row, hrow⟩ := Option.isSome_iff_exists.mp hsome
    refine ⟨{ row.persistent with bidItemId := some c.bidItemId }, ?_, rfl⟩
    apply List.mem_filterMap.mpr
    refine ⟨c, List.mem_filter.mpr ⟨hc, decide_eq_true hname⟩, ?_⟩
    exact getBidItem_eq_some_iff.mpr ⟨row, hrow, rfl⟩

/-! ## Decisions -/

/-- A decision in its transaction, with the name of the observer. -/
def serveDecision (db : Db) (decision : ObserverVO × String) : Db :=
  match getH1Approved db decision.1 decision.2 with
  | .ok db' => db'
  | .error _ => db

/-- A decision on an existing item is in line with what was approved before: all earlier
    approvals of the item are for the bidder it names, and it names one whose closed market
    lists the item exactly if it is an approval or follows one. -/
def InLine (db : Db) (decision : ObserverVO × String) : Prop :=
  (db.bidItems decision.1.bidItemId).isSome →
    (∀ u, ApprovedFor db decision.1.bidItemId u → decision.1.bidderName = some u) ∧
    ∀ u, decision.1.bidderName = some u →
      (Listed db u decision.1.bidItemId ↔
        decision.1.bidStatus ≠ .rejected ∨ ApprovedFor db decision.1.bidItemId u)

section Decisions

variable {db : Db} {vo : ObserverVO} {userName : String} {bidItem : BidItem}

/-- A decision writes the item and, unless it is a rejection, a closed bid. -/
theorem serveDecision_of_some (hrow : db.bidItems vo.bidItemId = some bidItem) :
    serveDecision db (vo, userName) = { db with
      bidItems := Function.update db.bidItems vo.bidItemId (some { bidItem with
        isProcessed := some vo.bidStatus
        bidderName := vo.bidderName })
      closedBids := db.closedBids ++ closeBids vo userName } := by
  simp only [serveDecision, getH1Approved, hrow]

theorem serveDecision_of_none (hrow : db.bidItems vo.bidItemId = none) :
    serveDecision db (vo, userName) = db := by
  simp only [serveDecision, getH1Approved, hrow]

/-- An approval is recorded; a rejection is not. -/
theorem approvedFor_serveDecision (hrow : db.bidItems vo.bidItemId = some bidItem) (id : ℤ)
    (u : String) :
    ApprovedFor (serveDecision db (vo, userName)) id u ↔
      ApprovedFor db id u ∨
        (vo.bidStatus ≠ .rejected ∧ vo.bidItemId = id ∧ vo.bidderName = some u) := by
  rw [serveDecision_of_some hrow]
  unfold ApprovedFor closeBids
  by_cases hstatus : vo.bidStatus = .rejected
  · simp [hstatus]
  · simp only [if_neg hstatus, List.mem_append, List.mem_singleton, or_and_right, exists_or,
      exists_eq_left]
    simp only [ne_eq, hstatus, not_false_eq_true, true_and]

/-- A decision changes neither the sequence, nor the mappings, nor the item's category. -/
theorem listed_serveDecision (hrow : db.bidItems vo.bidItemId = some bidItem) (id : ℤ)
    (u : String) : Listed (serveDecision db (vo, userName)) u id ↔ Listed db u id := by
  rw [serveDecision_of_some hrow]
  unfold Listed getBidItem
  by_cases hid : id = vo.bidItemId
  · subst hid
    simp only [Function.update_self, hrow, Option.map_some, Option.some.injEq, exists_eq_left']
    exact Iff.rfl
  · simp only [Function.update_of_ne hid]

/-- The name of the item is that of the last decision, whatever its status. -/
theorem winnerName_serveDecision (hrow : db.bidItems vo.bidItemId = some bidItem) (id : ℤ) :
    winnerName (serveDecision db (vo, userName)) id =
      if id = vo.bidItemId then vo.bidderName else winnerName db id := by
  rw [serveDecision_of_some hrow]
  unfold winnerName
  by_cases hid : id = vo.bidItemId
  · subst hid
    simp
  · simp [hid]

/-- A decision neither adds nor removes a row. -/
theorem isSome_serveDecision (hrow : db.bidItems vo.bidItemId = some bidItem) (id : ℤ) :
    ((serveDecision db (vo, userName)).bidItems id).isSome = (db.bidItems id).isSome := by
  rw [serveDecision_of_some hrow]
  by_cases hid : id = vo.bidItemId
  · subst hid
    simp [hrow]
  · simp [hid]

/-- The two readers on the item of a decision agree exactly if the decision is in line. -/
theorem agree_decided_iff (hrow : db.bidItems vo.bidItemId = some bidItem) :
    (∀ u, MarkedWon (serveDecision db (vo, userName)) u vo.bidItemId ↔
        HasWon (serveDecision db (vo, userName)) u vo.bidItemId) ↔
      InLine db (vo, userName) := by
  have hsome : (db.bidItems vo.bidItemId).isSome := Option.isSome_iff_exists.mpr ⟨_, hrow⟩
  simp only [markedWon_iff, hasWon_iff, winnerName_serveDecision hrow, if_true,
    listed_serveDecision hrow, isSome_serveDecision hrow, hsome, true_and,
    approvedFor_serveDecision hrow, InLine, true_imp_iff]
  constructor
  · intro h
    constructor
    · intro u happroved
      exact ((h u).mpr (.inl happroved)).1
    -- once the name is the winner's, both sides lose it and the statuses are left
    · intro u hname
      have hu := h u
      simp only [hname, true_and, and_true] at hu
      rw [hu]
      exact or_comm
  · intro h u
    obtain ⟨hbefore, hlisted⟩ := h
    constructor
    · intro hu
      rcases (hlisted u hu.1).mp hu.2 with hstatus | happroved
      · exact .inr ⟨hstatus, hu.1⟩
      · exact .inl happroved
    · intro hu
      rcases hu with happroved | ⟨hstatus, hname⟩
      · have hname := hbefore u happroved
        exact ⟨hname, (hlisted u hname).mpr (.inr happroved)⟩
      · exact ⟨hname, (hlisted u hname).mpr (.inl hstatus)⟩

end Decisions

/-- At most one user is marked as the winner of an item. -/
theorem markedWon_unique {db : Db} {id : ℤ} {u v : String} (hu : MarkedWon db u id)
    (hv : MarkedWon db v id) : u = v :=
  Option.some.inj ((markedWon_iff.mp hu).1.symm.trans (markedWon_iff.mp hv).1)

/-- One decision keeps the agreement exactly if it is in line. -/
theorem winnersAgree_serveDecision {db : Db} (h : WinnersAgree db)
    (decision : ObserverVO × String) :
    WinnersAgree (serveDecision db decision) ↔ InLine db decision := by
  obtain ⟨vo, userName⟩ := decision
  cases hrow : db.bidItems vo.bidItemId with
  | none =>
    -- the decision throws, and the tables are as before
    rw [serveDecision_of_none hrow]
    apply iff_of_true h
    intro hsome
    simp [hrow] at hsome
  | some bidItem =>
    rw [← agree_decided_iff hrow]
    constructor
    · intro hnew
      exact hnew.agree vo.bidItemId
    · intro hnew
      refine ⟨fun id u => ?_, fun id u v hu hv => markedWon_unique hu hv⟩
      -- only the item of the decision is written
      by_cases hid : id = vo.bidItemId
      · rw [hid]
        exact hnew u
      · have hold := h.agree id u
        have hid' : ¬ vo.bidItemId = id := fun heq => hid heq.symm
        rw [markedWon_iff, hasWon_iff] at hold ⊢
        simpa [winnerName_serveDecision hrow, listed_serveDecision hrow,
          isSome_serveDecision hrow, approvedFor_serveDecision hrow, hid, hid'] using hold

/-- **Along a sequence of decisions the two records of who won agree exactly if every decision
    is in line with the approvals before it.** -/
theorem winnersAgree_iff (db : Db) (decisions : List (ObserverVO × String))
    (hclosed : db.closedBids = [])
    (hitems : ∀ id row, db.bidItems id = some row → row.bidderName = none) :
    Along serveDecision (fun db decision => WinnersAgree (serveDecision db decision)) db
        decisions ↔
      Along serveDecision InLine db decisions := by
  have hstart : WinnersAgree db := by
    refine ⟨fun id u => ?_, fun id u v hu hv => markedWon_unique hu hv⟩
    -- at first no item has a name and no bid is closed
    apply iff_of_false
    · intro hmarked
      obtain ⟨row, hrow, hname⟩ := Option.bind_eq_some_iff.mp (markedWon_iff.mp hmarked).1
      rw [hitems id row hrow] at hname
      cases hname
    · intro hwon
      obtain ⟨c, hc, -⟩ := (hasWon_iff.mp hwon).2
      simp [hclosed] at hc
  exact Along.congr (fun db decision h => winnersAgree_serveDecision h decision)
    (fun _ _ _ hnew => hnew) hstart

/-- One item in the sequence of auction `1`, and a bidder who is mapped to its category. -/
def oneClosedItem : Db :=
  { Db.empty with
    bidItems := fun id => if id = 11 then
      some { BidItem.new with category := some ⟨some 5, none⟩ } else none
    bidSequence := [⟨1, 11, 1, 60⟩]
    bidderCategories := [⟨1, 5, "bidder1"⟩, ⟨1, 5, "bidder2"⟩] }

/-- No item has a name before the first decision. -/
theorem oneClosedItem_undecided (id : ℤ) (row : BidItem)
    (h : oneClosedItem.bidItems id = some row) : row.bidderName = none := by
  simp only [oneClosedItem] at h
  split at h
  · cases h
    rfl
  · cases h

theorem listed_oneClosedItem : Listed oneClosedItem "bidder2" 11 := by
  refine ⟨_, rfl, ⟨1, 11, 1, 60⟩, by decide, rfl, ⟨1, 5, "bidder2"⟩, by decide, by decide⟩

/-- The item is first rejected without a name, then approved for the second bidder, and a later
    rejection still names that bidder. -/
theorem winnersAgree_threeDecisions :
    Along serveDecision (fun db decision => WinnersAgree (serveDecision db decision))
      oneClosedItem [(⟨11, some 100, none, .rejected⟩, "observer"),
        (⟨11, some 90, some "bidder2", .h2⟩, "observer"),
        (⟨11, some 90, some "bidder2", .rejected⟩, "observer")] := by
  refine (winnersAgree_iff oneClosedItem _ rfl oneClosedItem_undecided).mpr
    ⟨fun _ => ⟨?_, fun u hname => ?_⟩, fun _ => ⟨?_, fun u hname => ?_⟩,
      fun _ => ⟨?_, fun u hname => ?_⟩, trivial⟩
  -- before the second decision nothing is approved
  · rintro u ⟨c, hc, -⟩
    cases hc
  · cases hname
  · rintro u ⟨c, hc, -⟩
    cases hc
  · obtain rfl : "bidder2" = u := Option.some.inj hname
    exact iff_of_true ((listed_serveDecision rfl 11 _).mpr listed_oneClosedItem)
      (.inl (by decide))
  -- the last decision names the bidder for whom the item was approved
  · rintro u ⟨c, hc, -, hname⟩
    obtain rfl := List.mem_singleton.mp hc
    exact hname
  · obtain rfl : "bidder2" = u := Option.some.inj hname
    refine iff_of_true ?_ (.inr ⟨⟨11, .h2, some 90, some "bidder2", "observer"⟩, ?_, rfl, rfl⟩)
    · exact (listed_serveDecision rfl 11 _).mpr
        ((listed_serveDecision rfl 11 _).mpr listed_oneClosedItem)
    · decide +kernel

/-- The item is approved for `bidder1` and then for `bidder2`: it stays among the won items of
    `bidder1`, whose closed market does not mark it. -/
theorem secondApproval_disagrees :
    let db := [((⟨11, some 100, some "bidder1", .h1⟩ : ObserverVO), "observer"),
      (⟨11, some 90, some "bidder2", .h2⟩, "observer")].foldl serveDecision oneClosedItem
    HasWon db "bidder1" 11 ∧ HasWon db "bidder2" 11 ∧ ¬ MarkedWon db "bidder1" 11 ∧
      ¬ WinnersAgree db := by
  intro db
  have hwon : HasWon db "bidder1" 11 :=
    hasWon_iff.mpr ⟨by decide, ⟨11, .h1, some 100, some "bidder1", "observer"⟩,
      by decide +kernel, rfl, rfl⟩
  have hwon' : HasWon db "bidder2" 11 :=
    hasWon_iff.mpr ⟨by decide, ⟨11, .h2, some 90, some "bidder2", "observer"⟩,
      by decide +kernel, rfl, rfl⟩
  have hnot : ¬ MarkedWon db "bidder1" 11 := by
    intro hmarked
    have hname := (markedWon_iff.mp hmarked).1
    exact absurd hname (by decide +kernel)
  exact ⟨hwon, hwon', hnot, fun h => hnot ((h.agree 11 "bidder1").mpr hwon)⟩

end Bidding.Model
