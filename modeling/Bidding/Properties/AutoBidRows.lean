import Bidding.Effects.Runs
import Bidding.Model.BidderDao

/-!
# The Table of Auto-Bids

What sequences of calls by bidders make of the table `autobids`: whose rows they touch, and
which rows are live (status `A`).

## Architecture

- **`TableStep`**: the two things a call can do to the rows: set the status of some of them to
  `I`, or do so and add a new row after them. Every result of this module is derived from it.
- **`serve`**: a call in its transaction; a call that throws changes nothing.

## Key Results

- **`othersUntouched_iff`**: the requests of one user leave the rows of all others alone exactly
  if they name no live row of another user.
- **`oneLive_autoBid`**: at most one row is live for each item and bidder.
-/

namespace Bidding.Model.BidderDao

open Bidding.Effects

/-! ## Calls and their transactions -/

/-- The calls that write the table. -/
inductive AutoBidCall where
  /-- `saveAutoBid` -/
  | save (userName : String) (categoryId bidItemId : ℤ) (bidAmount : ℚ) (auctionId : ℤ)
  /-- `deleteAutoBid` -/
  | delete (userName : String) (categoryId autoBidId : ℤ)
  /-- `saveAutoBidOrBidsAfterDoBid` -/
  | afterDoBid (userName : String) (bidItemId : ℤ) (bidAmount : ℚ) (bidType : ℤ)
  deriving DecidableEq

/-- Execute a call at some time. -/
def AutoBidCall.run (fold : Char → Char) (now : Date) (db : Db) : AutoBidCall → Except Exn Db
  | .save userName _ bidItemId bidAmount auctionId =>
    saveAutoBid fold now db userName bidItemId bidAmount auctionId
  | .delete _ _ autoBidId => .ok (deleteAutoBid db autoBidId)
  | .afterDoBid userName bidItemId bidAmount bidType =>
    saveAutoBidOrBidsAfterDoBid now db userName bidItemId bidAmount bidType

/-- A call in its transaction. -/
def serve (fold : Char → Char) (db : Db) (e : Date × AutoBidCall) : Db :=
  match e.2.run fold e.1 db with
  | .ok db' => db'
  | .error _ => db

/-! ## What a call does to the rows -/

/-- What a call does to the rows. A new row is live, has an id above all others, and no other
    row of its item and its bidder stays live. -/
inductive TableStep (rows : List AutoBids) : List AutoBids → Prop where
  | deactivated (selected : AutoBids → Bool) : TableStep rows (deactivate selected rows)
  | saved (selected : AutoBids → Bool) (row : AutoBids) (live : row.bidStatus = "A")
      (above : ∀ a ∈ rows, a.autoBidId < row.autoBidId)
      (replaces : ∀ a, a.bidItemId = row.bidItemId → a.bidderName = row.bidderName →
        selected a = true) :
      TableStep rows (deactivate selected rows ++ [row])

theorem TableStep.refl (rows : List AutoBids) : TableStep rows rows := by
  have hnone : deactivate (fun _ => false) rows = rows := by simp [deactivate]
  have hstep : TableStep rows (deactivate (fun _ => false) rows) := .deactivated _
  rwa [hnone] at hstep

/-- The id of a new row is above all others. -/
theorem lt_nextAutoBidId {db : Db} {a : AutoBids} (ha : a ∈ db.autoBids) :
    a.autoBidId < nextAutoBidId db := by
  -- the largest id, as the loop computes it
  have hle : ∀ (l : List ℤ) (m : ℤ), m ≤ l.foldl max m ∧ ∀ n ∈ l, n ≤ l.foldl max m := by
    intro l
    induction l with
    | nil => intro m; simp
    | cons x l ih =>
      intro m
      obtain ⟨hstart, hall⟩ := ih (max m x)
      refine ⟨(le_max_left m x).trans hstart, fun n hn => ?_⟩
      rcases List.mem_cons.mp hn with rfl | hn
      · exact (le_max_right m n).trans hstart
      · exact hall n hn
  exact Int.lt_add_one_of_le ((hle _ 0).2 _ (List.mem_map_of_mem ha))

/-- The new row of a call, and what it took to make it. -/
theorem initializeAutoBid_ok_iff {now : Date} {db : Db} {userName : String} {bidItemId : ℤ}
    {bidAmount : ℚ} {auctionId : Option ℤ} {row : AutoBids} :
    initializeAutoBid now db userName bidItemId bidAmount auctionId = .ok row ↔
      (db.bidItems bidItemId).isSome ∧ (auctionId.bind db.auctions).isSome ∧
        row = ⟨nextAutoBidId db, bidItemId, bidAmount, now, "A", userName⟩ := by
  unfold initializeAutoBid
  cases db.bidItems bidItemId <;> cases auctionId.bind db.auctions <;> simp [eq_comm]

section Calls

variable (fold : Char → Char) (db : Db)

/-- A successful save of one of the two kinds. -/
theorem tableStep_saved {now : Date} {userName : String} {bidItemId : ℤ} {bidAmount : ℚ}
    {auctionId : Option ℤ} {row : AutoBids} {selected : AutoBids → Bool}
    (hrow : initializeAutoBid now db userName bidItemId bidAmount auctionId = .ok row)
    (hselected : ∀ a, a.bidItemId = bidItemId → a.bidderName = userName → selected a = true) :
    TableStep db.autoBids (deactivate selected db.autoBids ++ [row]) := by
  obtain ⟨-, -, rfl⟩ := initializeAutoBid_ok_iff.mp hrow
  apply TableStep.saved
  · rfl
  · intro a ha
    exact lt_nextAutoBidId ha
  · exact hselected

/-- Every call is a step of the table. -/
theorem tableStep_serve (e : Date × AutoBidCall) :
    TableStep db.autoBids (serve fold db e).autoBids := by
  obtain ⟨now, call⟩ := e
  cases call with
  | save userName categoryId bidItemId bidAmount auctionId =>
    simp only [serve, AutoBidCall.run, saveAutoBid]
    cases hrow : initializeAutoBid now db userName bidItemId bidAmount (some auctionId) with
    | error e => exact TableStep.refl _
    | ok row =>
      apply tableStep_saved db hrow
      intro a hitem hname
      -- a name is equal to itself, whatever the case of its letters
      simp [hitem, hname, equalsIgnoreCase]
  | delete userName categoryId autoBidId => exact .deactivated _
  | afterDoBid userName bidItemId bidAmount bidType =>
    simp only [serve, AutoBidCall.run, saveAutoBidOrBidsAfterDoBid]
    by_cases htype : bidType = 1
    · -- a bid of type 1 fails
      rw [if_pos htype]
      exact TableStep.refl _
    · rw [if_neg htype]
      cases hrow : initializeAutoBid now db userName bidItemId bidAmount
          ((db.bidItems bidItemId).bind BidItem.auctionId) with
      | error e =>
        exact TableStep.refl _
      | ok row =>
        apply tableStep_saved db hrow
        intro a hitem hname
        simp [hitem, hname]

end Calls

/-! ## The rows of other users -/

section Others

variable {userName : String}

/-- The requests of a bidder on the table, with the auction id that the service has then. -/
inductive AutoBidRequest where
  | saveAutoBid (bidItemId : ℤ) (autoBidAmount : ℚ) (categoryId auctionId : ℤ)
  | deleteAutoBid (autoBidId categoryId : ℤ)
  deriving DecidableEq

/-- The call that the controller makes of a request. -/
def AutoBidRequest.call (userName : String) : AutoBidRequest → AutoBidCall
  | .saveAutoBid bidItemId autoBidAmount categoryId auctionId =>
    .save userName categoryId bidItemId autoBidAmount auctionId
  | .deleteAutoBid autoBidId categoryId => .delete userName categoryId autoBidId

/-- A request of the user. -/
def serveUser (fold : Char → Char) (userName : String) (db : Db) (e : Date × AutoBidRequest) :
    Db :=
  serve fold db (e.1, e.2.call userName)

/-- The rows of all other users. -/
def others (userName : String) (rows : List AutoBids) : List AutoBids :=
  rows.filter (fun a => a.bidderName ≠ userName)

/-- After the requests of the user the rows of all others are as before. -/
def OthersUntouched (fold : Char → Char) (userName : String) (db : Db)
    (requests : List (Date × AutoBidRequest)) : Prop :=
  others userName (requests.foldl (serveUser fold userName) db).autoBids =
    others userName db.autoBids

/-- The request names no live row of another user: a save, unless it fails, finds none under
    a name that differs in case only, and a deletion does not have the id of one. -/
def NamesNoOther (fold : Char → Char) (userName : String) (db : Db) :
    Date × AutoBidRequest → Prop
  | (_, .saveAutoBid bidItemId _ _ auctionId) =>
    (db.bidItems bidItemId).isSome → (db.auctions auctionId).isSome →
      ∀ a ∈ db.autoBids, a.bidItemId = bidItemId →
        equalsIgnoreCase fold a.bidderName userName = true →
        a.bidderName = userName ∨ a.bidStatus = "I"
  | (_, .deleteAutoBid autoBidId _) =>
    ∀ a ∈ db.autoBids, a.autoBidId = autoBidId → a.bidderName = userName ∨ a.bidStatus = "I"

/-- Deactivating rows and looking at those of others commute. -/
theorem others_deactivate (selected : AutoBids → Bool) (rows : List AutoBids) :
    others userName (deactivate selected rows) = deactivate selected (others userName rows) := by
  simp only [others, deactivate, List.filter_map]
  congr 1
  apply List.filter_congr
  intro a _
  simp only [Function.comp_apply]
  split <;> rfl

theorem others_append_own (rows : List AutoBids) {row : AutoBids} (h : row.bidderName = userName) :
    others userName (rows ++ [row]) = others userName rows := by
  simp [others, h]

/-- Nothing changes if every row that is selected is inactive already. -/
theorem deactivate_eq_self_iff {selected : AutoBids → Bool} {rows : List AutoBids} :
    deactivate selected rows = rows ↔
      ∀ a ∈ rows, selected a = true → a.bidStatus = "I" := by
  -- a row stays as it is if it is not selected or inactive already
  have hrow : ∀ a : AutoBids, (if selected a then { a with bidStatus := "I" } else a) = a ↔
      (selected a = true → a.bidStatus = "I") := by
    intro a
    by_cases ha : selected a = true
    · simp only [ha, if_true, true_imp_iff]
      constructor
      · intro h
        exact (congrArg AutoBids.bidStatus h).symm
      · intro h
        rw [← h]
    · simp [ha]
  have hmap : deactivate selected rows = rows ↔
      rows.map (fun a => if selected a then { a with bidStatus := "I" } else a) = rows.map id := by
    rw [List.map_id]
    rfl
  rw [hmap, List.map_inj_left]
  exact forall₂_congr fun a _ => hrow a

/-- Number of rows that are not inactive. -/
def liveCount (rows : List AutoBids) : ℕ := rows.countP (fun a => a.bidStatus ≠ "I")

theorem liveCount_cons (a : AutoBids) (rows : List AutoBids) :
    liveCount (a :: rows) = liveCount rows + if a.bidStatus = "I" then 0 else 1 := by
  by_cases ha : a.bidStatus = "I" <;> simp [liveCount, ha]

/-- Deactivating rows leaves fewer live ones, unless it changes nothing. -/
theorem liveCount_deactivate (selected : AutoBids → Bool) (rows : List AutoBids) :
    liveCount (deactivate selected rows) ≤ liveCount rows ∧
      (liveCount (deactivate selected rows) = liveCount rows →
        deactivate selected rows = rows) := by
  induction rows with
  | nil => simp [deactivate]
  | cons a rows ih =>
    obtain ⟨hle, heq⟩ := ih
    have hcons : deactivate selected (a :: rows) =
        (if selected a then { a with bidStatus := "I" } else a) :: deactivate selected rows := rfl
    rw [hcons, liveCount_cons, liveCount_cons]
    by_cases hlive : selected a = true ∧ a.bidStatus ≠ "I"
    · -- one live row less
      simp only [hlive.1, if_true, hlive.2, if_false]
      exact ⟨by omega, fun h => by omega⟩
    · -- the first row stays as it is
      have hsame : (if selected a then { a with bidStatus := "I" } else a) = a := by
        by_cases ha : selected a = true
        · have hstatus : a.bidStatus = "I" := by
            by_contra h
            exact hlive ⟨ha, h⟩
          rw [if_pos ha, ← hstatus]
        · rw [if_neg ha]
      rw [hsame]
      exact ⟨by omega, fun h => by rw [heq (Nat.add_right_cancel h)]⟩

/-- A request of the user does to the rows of others at most that it deactivates some. -/
theorem others_serveUser (fold : Char → Char) (userName : String) (db : Db)
    (e : Date × AutoBidRequest) :
    ∃ selected, others userName (serveUser fold userName db e).autoBids =
        deactivate selected (others userName db.autoBids) ∧
      (NamesNoOther fold userName db e ↔
        ∀ a ∈ others userName db.autoBids, selected a = true → a.bidStatus = "I") := by
  obtain ⟨now, request⟩ := e
  -- a row that is not the user's is one of the others
  have hothers : ∀ p : AutoBids → Prop,
      (∀ a ∈ db.autoBids, p a → a.bidderName = userName ∨ a.bidStatus = "I") ↔
        ∀ a ∈ others userName db.autoBids, p a → a.bidStatus = "I" := by
    intro p
    simp only [others, List.mem_filter, decide_eq_true_eq, and_imp]
    refine forall₂_congr fun a _ => ?_
    by_cases ha : a.bidderName = userName <;> simp [ha]
  cases request with
  | deleteAutoBid autoBidId categoryId =>
    refine ⟨fun a => a.autoBidId = autoBidId, others_deactivate _ _, ?_⟩
    simp only [NamesNoOther, decide_eq_true_eq]
    exact hothers _
  | saveAutoBid bidItemId autoBidAmount categoryId auctionId =>
    cases hrow : initializeAutoBid now db userName bidItemId autoBidAmount (some auctionId) with
    | error e =>
      -- the save fails, so it selects nothing
      refine ⟨fun _ => false, ?_, ?_⟩
      · simp [serveUser, serve, AutoBidRequest.call, AutoBidCall.run, saveAutoBid, hrow, bind,
          Except.bind, deactivate]
      · refine iff_of_true (fun hitem hauction => ?_) (by simp)
        have hauction' : ((some auctionId).bind db.auctions).isSome := hauction
        rw [initializeAutoBid_ok_iff.mpr ⟨hitem, hauction', rfl⟩] at hrow
        cases hrow
    | ok row =>
      obtain ⟨hitem, hauction, rfl⟩ := initializeAutoBid_ok_iff.mp hrow
      refine ⟨fun a => a.bidItemId = bidItemId && equalsIgnoreCase fold a.bidderName userName,
        ?_, ?_⟩
      · simp only [serveUser, serve, AutoBidRequest.call, AutoBidCall.run, saveAutoBid, hrow, bind,
          Except.bind]
        have hown : (⟨nextAutoBidId db, bidItemId, autoBidAmount, now, "A", userName⟩ :
            AutoBids).bidderName = userName := rfl
        rw [others_append_own _ hown]
        exact others_deactivate _ _
      · have hauction' : (db.auctions auctionId).isSome := hauction
        simp only [NamesNoOther, hitem, hauction', true_imp_iff, Bool.and_eq_true,
          decide_eq_true_eq]
        rw [← hothers]
        simp only [and_imp]

/-- **The requests of a user leave the rows of all others alone exactly if none of them names a
    live row of another user.** -/
theorem othersUntouched_iff (fold : Char → Char) (userName : String) (db : Db)
    (requests : List (Date × AutoBidRequest)) :
    OthersUntouched fold userName db requests ↔
      Along (serveUser fold userName) (NamesNoOther fold userName) db requests := by
  -- the rows of others that are live get fewer along a run
  have hcount : ∀ (requests : List (Date × AutoBidRequest)) (db : Db),
      liveCount (others userName (requests.foldl (serveUser fold userName) db).autoBids) ≤
        liveCount (others userName db.autoBids) := by
    intro requests
    induction requests with
    | nil => intro db; exact le_rfl
    | cons e es ih =>
      intro db
      obtain ⟨selected, hstep, -⟩ := others_serveUser fold userName db e
      refine (ih _).trans ?_
      rw [hstep]
      exact (liveCount_deactivate selected _).1
  unfold OthersUntouched
  induction requests generalizing db with
  | nil => simp [Along]
  | cons e es ih =>
    obtain ⟨selected, hstep, hnames⟩ := others_serveUser fold userName db e
    rw [List.foldl_cons, Along, hnames, ← deactivate_eq_self_iff, ← hstep]
    constructor
    · intro hfinal
      -- a row that the first request deactivates never becomes live again
      have hle := hcount es (serveUser fold userName db e)
      rw [hfinal, hstep] at hle
      have hsame := (liveCount_deactivate selected _).2
        (Nat.le_antisymm (liveCount_deactivate selected _).1 hle)
      rw [← hstep] at hsame
      exact ⟨hsame, (ih _).mp (hfinal.trans hsame.symm)⟩
    · intro h
      exact ((ih _).mpr h.2).trans h.1

/-- A table with one live row, of `bidder2`. -/
def oneAutoBid : Db := { Db.empty with autoBids := [⟨7, 11, 100, 0, "A", "bidder2"⟩] }

/-- `bidder1` deletes the auto-bid of `bidder2`. -/
theorem deleteAutoBid_of_other :
    (serveUser Char.toLower "bidder1" oneAutoBid (0, .deleteAutoBid 7 1)).autoBids =
        [⟨7, 11, 100, 0, "I", "bidder2"⟩] ∧
      ¬ OthersUntouched Char.toLower "bidder1" oneAutoBid [(0, .deleteAutoBid 7 1)] := by
  constructor
  · decide +kernel
  · unfold OthersUntouched
    decide +kernel

end Others

/-! ## Live rows -/

section Live

variable {fold : Char → Char}

/-- The rows of one bidder for one item, in the order of their creation. -/
def rowsOf (rows : List AutoBids) (bidItemId : ℤ) (bidderName : String) : List AutoBids :=
  rows.filter (fun a => a.bidItemId = bidItemId && a.bidderName = bidderName)

theorem mem_rowsOf {rows : List AutoBids} {bidItemId : ℤ} {bidderName : String} {a : AutoBids} :
    a ∈ rowsOf rows bidItemId bidderName ↔
      a ∈ rows ∧ a.bidItemId = bidItemId ∧ a.bidderName = bidderName := by
  simp [rowsOf]

/-- The amount that a call saves for a bidder and an item. -/
def AutoBidCall.saves (bidItemId : ℤ) (bidderName : String) : AutoBidCall → Option ℚ
  | .save userName _ id bidAmount _ | .afterDoBid userName id bidAmount _ =>
    if id = bidItemId ∧ userName = bidderName then some bidAmount else none
  | .delete _ _ _ => none

/-- The amount of the last successful save for a bidder and an item. -/
def lastSave (fold : Char → Char) (bidItemId : ℤ) (bidderName : String) :
    Db → List (Date × AutoBidCall) → Option ℚ
  | _, [] => none
  | db, e :: es =>
    (lastSave fold bidItemId bidderName (serve fold db e) es).or
      (match e.2.run fold e.1 db with
        | .ok _ => e.2.saves bidItemId bidderName
        | .error _ => none)

/-- A row that is inactive stays so. -/
def NoRevival (rows rows' : List AutoBids) : Prop :=
  ∀ a ∈ rows, a.bidStatus = "I" → ∀ b ∈ rows', b.autoBidId = a.autoBidId → b.bidStatus = "I"

/-- At most one row of a bidder for an item is live: the newest one, with the amount that was
    saved last. -/
def OneLive (rows : List AutoBids) (bidItemId : ℤ) (bidderName : String)
    (lastAmount : Option ℚ) : Prop :=
  ((rowsOf rows bidItemId bidderName).filter (fun a => a.bidStatus = "A")).length ≤ 1 ∧
    ∀ a ∈ rowsOf rows bidItemId bidderName, a.bidStatus = "A" →
      (rowsOf rows bidItemId bidderName).getLast? = some a ∧ lastAmount = some a.bidAmount

/-- What holds of the table after every sequence of calls: ids ascend, and a row is inactive
    once its bidder has a newer one for its item. -/
structure Replaced (rows : List AutoBids) : Prop where
  ids : rows.Pairwise (fun a b => a.autoBidId < b.autoBidId)
  inactive : rows.Pairwise (fun a b => a.bidItemId = b.bidItemId →
    a.bidderName = b.bidderName → a.bidStatus = "I")

/-- Deactivating rows keeps the order of the ids and the replaced rows inactive. -/
theorem Replaced.deactivated {rows : List AutoBids} (h : Replaced rows)
    (selected : AutoBids → Bool) : Replaced (deactivate selected rows) := by
  constructor
  · -- the ids are not touched
    apply List.pairwise_map.mpr
    apply h.ids.imp
    intro a b hab
    split <;> split <;> exact hab
  · apply List.pairwise_map.mpr
    apply h.inactive.imp
    intro a b hab
    split
    · intro _ _
      rfl
    · split <;> exact hab

/-- A step replaces all older rows of the same bidder and item. -/
theorem Replaced.step {rows rows' : List AutoBids} (h : Replaced rows)
    (hstep : TableStep rows rows') : Replaced rows' := by
  cases hstep with
  | deactivated selected => exact h.deactivated selected
  | saved selected row live above replaces =>
    have hold := h.deactivated selected
    constructor
    · apply List.pairwise_append.mpr
      refine ⟨hold.ids, List.pairwise_singleton _ _, ?_⟩
      intro a ha b hb
      obtain ⟨a₀, ha₀, rfl⟩ := List.mem_map.mp ha
      rw [List.mem_singleton.mp hb]
      split <;> exact above a₀ ha₀
    · apply List.pairwise_append.mpr
      refine ⟨hold.inactive, List.pairwise_singleton _ _, ?_⟩
      intro a ha b hb
      obtain ⟨a₀, ha₀, rfl⟩ := List.mem_map.mp ha
      rw [List.mem_singleton.mp hb]
      -- an old row of the same bidder and item was selected
      intro hitem hname
      split
      · rfl
      · rename_i hnot
        rw [if_neg hnot] at hitem hname
        exact absurd (replaces a₀ hitem hname) hnot

/-- No two rows have the same id. -/
theorem Replaced.eq_of_id {rows : List AutoBids} (h : Replaced rows) {a b : AutoBids}
    (ha : a ∈ rows) (hb : b ∈ rows) (hid : a.autoBidId = b.autoBidId) : a = b := by
  have hnodup : (rows.map AutoBids.autoBidId).Nodup :=
    List.pairwise_map.mpr (h.ids.imp (fun hlt => ne_of_lt hlt))
  exact List.inj_on_of_nodup_map hnodup ha hb hid

/-- No row becomes live again. -/
theorem Replaced.noRevival {rows rows' : List AutoBids} (h : Replaced rows)
    (hstep : TableStep rows rows') : NoRevival rows rows' := by
  intro a ha hinactive b hb hid
  -- an old row with the id of `a` is `a`, and deactivating it changes nothing
  have hold : ∀ selected, b ∈ deactivate selected rows → b.bidStatus = "I" := by
    intro selected hb
    obtain ⟨c, hc, rfl⟩ := List.mem_map.mp hb
    split
    · rfl
    · rename_i hnot
      rw [if_neg hnot] at hid
      rw [h.eq_of_id hc ha hid]
      exact hinactive
  cases hstep with
  | deactivated selected => exact hold selected hb
  | saved selected row live above replaces =>
    rcases List.mem_append.mp hb with hb | hb
    · exact hold selected hb
    · rw [List.mem_singleton.mp hb] at hid
      exact absurd hid (ne_of_gt (above a ha))

/-- Of the rows of one bidder for one item, all but the last one are inactive. -/
theorem Replaced.pairwise_rowsOf {rows : List AutoBids} (h : Replaced rows) (bidItemId : ℤ)
    (bidderName : String) :
    (rowsOf rows bidItemId bidderName).Pairwise (fun a _ => a.bidStatus = "I") := by
  have hpair := h.inactive.filter (fun a => a.bidItemId = bidItemId && a.bidderName = bidderName)
  refine List.Pairwise.imp_of_mem ?_ hpair
  intro a b ha hb hab
  obtain ⟨-, hitem, hname⟩ := mem_rowsOf.mp ha
  obtain ⟨-, hitem', hname'⟩ := mem_rowsOf.mp hb
  exact hab (hitem.trans hitem'.symm) (hname.trans hname'.symm)

/-- The newest row of a bidder for an item is the only one that can be live. -/
theorem Replaced.oneLive {rows : List AutoBids} (h : Replaced rows) (bidItemId : ℤ)
    (bidderName : String) :
    OneLive rows bidItemId bidderName
      ((rowsOf rows bidItemId bidderName).getLast?.map AutoBids.bidAmount) := by
  have hpair := h.pairwise_rowsOf bidItemId bidderName
  constructor
  · have hlive := hpair.filter (fun a => a.bidStatus = "A")
    have hall : ∀ a ∈ (rowsOf rows bidItemId bidderName).filter
        (fun a => a.bidStatus = "A"), a.bidStatus = "A" := by
      intro a ha
      simpa using (List.mem_filter.mp ha).2
    -- two live rows would make the first one inactive
    rcases hlist : (rowsOf rows bidItemId bidderName).filter
        (fun a => a.bidStatus = "A") with _ | ⟨a, _ | ⟨b, rest⟩⟩
    · simp [hlist]
    · simp [hlist]
    · rw [hlist] at hlive hall
      have hinactive := List.rel_of_pairwise_cons hlive List.mem_cons_self
      rw [hall a List.mem_cons_self] at hinactive
      exact absurd hinactive (by decide)
  · -- a live row has no later one of the same bidder and item
    intro a ha hlive
    obtain ⟨before, after, hsplit⟩ := List.append_of_mem ha
    rw [hsplit] at hpair
    cases after with
    | nil => simp [hsplit]
    | cons b after =>
      have hinactive := List.rel_of_pairwise_cons (List.pairwise_append.mp hpair).2.1
        (List.mem_cons_self (a := b))
      rw [hlive] at hinactive
      exact absurd hinactive (by decide)

/-! ### The amount of the newest row -/

/-- The amount of the newest row of a bidder for an item. -/
def newestAmount (bidItemId : ℤ) (bidderName : String) (rows : List AutoBids) : Option ℚ :=
  (rowsOf rows bidItemId bidderName).getLast?.map AutoBids.bidAmount

/-- Deactivating rows does not change the newest amount. -/
theorem newestAmount_deactivate (bidItemId : ℤ) (bidderName : String)
    (selected : AutoBids → Bool) (rows : List AutoBids) :
    newestAmount bidItemId bidderName (deactivate selected rows) =
      newestAmount bidItemId bidderName rows := by
  have hrows : rowsOf (deactivate selected rows) bidItemId bidderName =
      deactivate selected (rowsOf rows bidItemId bidderName) := by
    simp only [rowsOf, deactivate, List.filter_map]
    congr 1
    apply List.filter_congr
    intro a _
    simp only [Function.comp_apply]
    split <;> rfl
  rw [newestAmount, hrows, deactivate, List.getLast?_map, Option.map_map]
  congr 1
  funext a
  simp only [Function.comp_apply]
  split <;> rfl

/-- A new row has the newest amount of its bidder and item. -/
theorem newestAmount_append (bidItemId : ℤ) (bidderName : String) (rows : List AutoBids)
    (row : AutoBids) :
    newestAmount bidItemId bidderName (rows ++ [row]) =
      (if row.bidItemId = bidItemId ∧ row.bidderName = bidderName then some row.bidAmount
        else none).or (newestAmount bidItemId bidderName rows) := by
  unfold newestAmount rowsOf
  by_cases hrow : row.bidItemId = bidItemId ∧ row.bidderName = bidderName
  · simp [hrow.1, hrow.2]
  · have hnot : (row.bidItemId = bidItemId && row.bidderName = bidderName : Bool) = false := by
      simpa using hrow
    simp [hrow, hnot]

/-- A call that saves an amount makes it the newest one; no other call changes the newest
    amount. -/
theorem newestAmount_serve (bidItemId : ℤ) (bidderName : String) (db : Db)
    (e : Date × AutoBidCall) :
    newestAmount bidItemId bidderName (serve fold db e).autoBids =
      (match e.2.run fold e.1 db with
        | .ok _ => e.2.saves bidItemId bidderName
        | .error _ => none).or (newestAmount bidItemId bidderName db.autoBids) := by
  obtain ⟨now, call⟩ := e
  unfold serve
  cases hrun : call.run fold now db with
  | error e => rfl
  | ok db' =>
    cases call with
    -- a deletion keeps the amount, though the row is not live any more
    | delete userName categoryId autoBidId =>
      obtain rfl := Except.ok.inj hrun
      exact newestAmount_deactivate _ _ _ _
    | save userName categoryId id bidAmount auctionId =>
      cases hrow : initializeAutoBid now db userName id bidAmount (some auctionId) with
      | error e => simp [AutoBidCall.run, saveAutoBid, hrow, bind, Except.bind] at hrun
      | ok row =>
        simp only [AutoBidCall.run, saveAutoBid, hrow, bind, Except.bind, Except.ok.injEq] at hrun
        obtain ⟨-, -, rfl⟩ := initializeAutoBid_ok_iff.mp hrow
        rw [← hrun, newestAmount_append, newestAmount_deactivate]
        rfl
    | afterDoBid userName id bidAmount bidType =>
      -- a bid of type 1 fails before any row is written
      by_cases htype : bidType = 1
      · simp [AutoBidCall.run, saveAutoBidOrBidsAfterDoBid, htype] at hrun
      · cases hrow : initializeAutoBid now db userName id bidAmount
            ((db.bidItems id).bind BidItem.auctionId) with
        | error e =>
          simp [AutoBidCall.run, saveAutoBidOrBidsAfterDoBid, htype, hrow, bind,
            Except.bind] at hrun
        | ok row =>
          simp only [AutoBidCall.run, saveAutoBidOrBidsAfterDoBid, htype, if_false, hrow, bind,
            Except.bind, Except.ok.injEq] at hrun
          obtain ⟨-, -, rfl⟩ := initializeAutoBid_ok_iff.mp hrow
          rw [← hrun, newestAmount_append, newestAmount_deactivate]
          rfl

/-- The newest amount is the one that was saved last. -/
theorem newestAmount_run (fold : Char → Char) (bidItemId : ℤ) (bidderName : String)
    (calls : List (Date × AutoBidCall)) (db : Db) :
    newestAmount bidItemId bidderName (calls.foldl (serve fold) db).autoBids =
      (lastSave fold bidItemId bidderName db calls).or
        (newestAmount bidItemId bidderName db.autoBids) := by
  induction calls generalizing db with
  | nil => rfl
  | cons e es ih =>
    rw [List.foldl_cons, ih, newestAmount_serve, lastSave, Option.or_assoc]

/-- **From an empty table, after every sequence of calls, each bidder has at most one live
    auto-bid for each item**: the newest one, with the amount of the last save; and no row
    becomes live again. -/
theorem oneLive_autoBid (fold : Char → Char) (db : Db) (hempty : db.autoBids = [])
    (calls : List (Date × AutoBidCall)) :
    (∀ bidItemId bidderName, OneLive (calls.foldl (serve fold) db).autoBids bidItemId bidderName
        (lastSave fold bidItemId bidderName db calls)) ∧
      Along (serve fold) (fun db e => NoRevival db.autoBids (serve fold db e).autoBids) db
        calls := by
  have hstart : Replaced db.autoBids := by
    rw [hempty]
    exact ⟨List.Pairwise.nil, List.Pairwise.nil⟩
  have hstep : ∀ db e, Replaced db.autoBids → Replaced (serve fold db e).autoBids :=
    fun db e h => h.step (tableStep_serve fold db e)
  constructor
  · intro bidItemId bidderName
    have hrun : Replaced (calls.foldl (serve fold) db).autoBids :=
      run_inv (I := fun db : Db => Replaced db.autoBids) hstep hstart calls
    -- the newest amount is that of the last save that succeeded
    have hlast := newestAmount_run fold bidItemId bidderName calls db
    rw [hempty] at hlast
    have hnone : newestAmount bidItemId bidderName [] = none := rfl
    rw [hnone, Option.or_none] at hlast
    rw [← hlast]
    exact hrun.oneLive bidItemId bidderName
  · apply along_of_inv (I := fun db : Db => Replaced db.autoBids) _ hstart
    intro db e h
    exact ⟨h.noRevival (tableStep_serve fold db e), hstep db e h⟩

/-- Tables in which every item and every auction is found, and no auto-bid. -/
def noAutoBids : Db :=
  { Db.empty with
    bidItems := fun _ => some { BidItem.new with auctionId := some 1 }
    auctions := fun _ => some ⟨.running, "1", none, none, 0⟩ }

/-- Two saves for one bidder and one item, of the two kinds. -/
def twoSaves : List (Date × AutoBidCall) :=
  [(0, .save "bidder1" 1 11 100 1), (1, .afterDoBid "bidder1" 11 120 2)]

theorem oneLive_twoSaves :
    (twoSaves.foldl (serve Char.toLower) noAutoBids).autoBids.length = 2 ∧
      OneLive (twoSaves.foldl (serve Char.toLower) noAutoBids).autoBids 11 "bidder1"
        (some 120) := by
  have hlive := (oneLive_autoBid Char.toLower noAutoBids rfl twoSaves).1 11 "bidder1"
  have hlast : lastSave Char.toLower 11 "bidder1" noAutoBids twoSaves = some 120 := by
    decide +kernel
  rw [hlast] at hlive
  exact ⟨by decide +kernel, hlive⟩

end Live

end Bidding.Model.BidderDao
