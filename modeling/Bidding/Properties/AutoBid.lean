import Bidding.Semantics.Dao

/-!
# The Charge of the Opening Auto-Bid

When an item is loaded, its stored auto-bids are resolved: the first one after sorting leads,
at the second one's amount plus the increment. The sum is not capped at the leader's own
maximum, a single auto-bid is charged the minimum price plus the increment whatever its
maximum, and a second row of the leader replaces the leader's entry.

## Key Results

- **`amounts_addOthers`**: what the entry of a bidder says after the other rows were added.
- **`notOvercharged_inOrder`**: when the leader of the sorted rows is not charged more than the
  leader's maximum. What that means for the rows as they are stored is the subject of
  `OpeningCharge`.
-/

namespace Bidding.Model

open Bidding.Collections

namespace CommonDao

/-- Neither the price nor the entry of the recorded bidder exceeds the recorded maximum. -/
def NotOvercharged (item : BidItem) : Prop :=
  ∃ maximum price, item.amountAutoBid = some maximum ∧ item.currentMarketPrice = some price ∧
    price ≤ maximum ∧
      ∀ b ∈ item.currentBiddersList, b.bidderName = item.autoBidderName →
        b.currentBidAmount ≤ maximum

/-- The last one of some rows that is of the given bidder. -/
def lastOf (name : String) (autoBids : List AutoBids) : Option AutoBids :=
  (autoBids.filter (fun a => a.bidderName = name)).getLast?

/-- The leader's maximum covers what the resolution charges. The auto-bids are in the order
    of the sort. -/
def CoveredInOrder (minBidPrice minBidIncrement : Option ℚ) : List AutoBids → Prop
  | [] => True
  | [a] => ∀ price increment, minBidPrice = some price → minBidIncrement = some increment →
      price + increment ≤ a.bidAmount
  | a0 :: a1 :: rest =>
    (a1.bidAmount = a0.bidAmount ∨
      ∀ increment, minBidIncrement = some increment → a1.bidAmount + increment ≤ a0.bidAmount) ∧
    ∀ a, lastOf a0.bidderName (a1 :: rest) = some a → a.bidAmount ≤ a0.bidAmount

/-! ## The entry of a bidder -/

/-- The entries of one bidder in a list of bidders. -/
def entriesOf (name : Option String) (l : List Bidder) : List Bidder :=
  l.filter (fun b => b.bidderName = name)

/-- A bidder takes the place of the first entry of the name. -/
theorem putBidder_cons (x : Bidder) (l : List Bidder) (b : Bidder) :
    putBidder (x :: l) b =
      if x.bidderName = b.bidderName then b :: l else x :: putBidder l b := by
  unfold putBidder
  rw [List.findIdx?_cons]
  by_cases h : x.bidderName = b.bidderName
  · simp [h]
  · simp only [h, decide_false, Bool.false_eq_true, if_false]
    cases l.findIdx? (fun b' => decide (b'.bidderName = b.bidderName)) <;> simp

/-- A bidder with one entry at most has one entry at most afterwards, the new one if there is
    a new one. -/
theorem entriesOf_putBidder {name : Option String} {l : List Bidder} (b : Bidder)
    (hl : (entriesOf name l).length ≤ 1) :
    entriesOf name (putBidder l b) = if b.bidderName = name then [b] else entriesOf name l := by
  induction l with
  | nil => simp [putBidder, entriesOf, List.filter_cons]
  | cons x l ih =>
    rw [putBidder_cons]
    by_cases hx : x.bidderName = name
    -- the head is the name's one entry, so the rest has none
    · have hrest : entriesOf name l = [] := by
        simpa [entriesOf, List.filter_cons, hx] using hl
      rw [hrest] at ih
      have ih := ih (Nat.zero_le 1)
      -- either the new entry takes the place of the head, or it goes further
      by_cases hb : x.bidderName = b.bidderName
      · rw [if_pos hb, if_pos (hb.symm.trans hx), entriesOf, List.filter_cons,
          if_pos (by simp [hb.symm.trans hx])]
        exact congrArg (b :: ·) hrest
      · have hne : ¬ b.bidderName = name := fun h => hb (hx.trans h.symm)
        rw [if_neg hne] at ih
        rw [if_neg hb, if_neg hne, entriesOf, entriesOf, List.filter_cons, List.filter_cons,
          if_pos (by simp [hx]), if_pos (by simp [hx])]
        exact congrArg (x :: ·) (ih.trans hrest.symm)
    · -- the head belongs to somebody else
      have hskip : ∀ l', entriesOf name (x :: l') = entriesOf name l' := by
        intro l'
        simp [entriesOf, hx]
      rw [hskip] at hl ⊢
      by_cases hb : x.bidderName = b.bidderName
      · have hne : ¬ b.bidderName = name := fun h => hx (hb.trans h)
        rw [if_pos hb, if_neg hne, entriesOf, List.filter_cons, if_neg (by simpa using hne)]
        rfl
      · rw [if_neg hb, hskip]
        exact ih hl

/-- The last auto-bid of a name, seen from the front. -/
theorem lastOf_cons (name : String) (a : AutoBids) (l : List AutoBids) :
    lastOf name (a :: l) =
      (lastOf name l).or (if a.bidderName = name then some a else none) := by
  unfold lastOf
  rw [List.filter_cons]
  by_cases h : a.bidderName = name
  · rw [if_pos (decide_eq_true h), if_pos h]
    cases l.filter (fun a => decide (a.bidderName = name)) with
    | nil => rfl
    | cons y ys => rw [List.getLast?_cons_cons, List.getLast?_cons, Option.some_or]
  · simp [h]

/-- The amounts of a bidder after the loop over the other auto-bids. -/
theorem amounts_addOthers (name : String) (times : ℕ → Date) (l : List AutoBids) (i : ℕ)
    (item : BidItem) (hone : (entriesOf (some name) item.currentBiddersList).length ≤ 1) :
    (entriesOf (some name) (addOthers times i l item).currentBiddersList).map
        Bidder.currentBidAmount =
      match lastOf name l with
      | some a => [a.bidAmount]
      | none => (entriesOf (some name) item.currentBiddersList).map Bidder.currentBidAmount := by
  induction l generalizing i item with
  | nil => rfl
  | cons a l ih =>
    have hput := entriesOf_putBidder (autoBidder a a.bidAmount none (times i)) hone
    -- the induction needs that there is still one entry at most
    have hone' : (entriesOf (some name)
        (item.addBidder (autoBidder a a.bidAmount none (times i))).currentBiddersList).length ≤
          1 := by
      refine (congrArg List.length hput).trans_le ?_
      split
      · exact le_rfl
      · exact hone
    unfold addOthers
    rw [ih _ _ hone', lastOf_cons]
    cases lastOf name l with
    | some a' => rfl
    | none =>
      refine (congrArg (List.map _) hput).trans ?_
      by_cases h : a.bidderName = name
      · simp [h, autoBidder]
      · simp [h, autoBidder]

/-! ## What the resolution charges -/

/-- The other auto-bids change the list of bidders only. -/
theorem addOthers_eq (times : ℕ → Date) (l : List AutoBids) (i : ℕ) (item : BidItem) :
    addOthers times i l item =
      { item with currentBiddersList := (addOthers times i l item).currentBiddersList } := by
  induction l generalizing i item with
  | nil => rfl
  | cons a l ih =>
    unfold addOthers
    rw [ih]
    rfl

/-- The condition in terms of the amounts of the recorded bidder. -/
theorem notOvercharged_of_recorded {item : BidItem} {maximum price : ℚ} {name : String}
    (hmax : item.amountAutoBid = some maximum) (hprice : item.currentMarketPrice = some price)
    (hname : item.autoBidderName = some name) :
    NotOvercharged item ↔ price ≤ maximum ∧
      ∀ q ∈ (entriesOf (some name) item.currentBiddersList).map Bidder.currentBidAmount,
        q ≤ maximum := by
  unfold NotOvercharged entriesOf
  simp only [hmax, hprice, hname, Option.some.injEq, exists_and_left, exists_eq_left',
    List.forall_mem_map, List.mem_filter, decide_eq_true_eq, and_imp]

theorem notOvercharged_sortBidders (item : BidItem) :
    NotOvercharged item.sortBidders ↔ NotOvercharged item := by
  unfold NotOvercharged BidItem.sortBidders
  simp only [(sort_perm compareBidders item.currentBiddersList).mem_iff]

/-- One auto-bid. -/
theorem notOvercharged_single {times : ℕ → Date} {item resolved : BidItem} {a : AutoBids}
    (hnew : item.currentBiddersList = []) (h : resolveAutoBids times item [a] = .ok resolved) :
    NotOvercharged resolved ↔ CoveredInOrder item.minBidPrice item.minBidIncrement [a] := by
  unfold resolveAutoBids at h
  -- without a minimum price the sum cannot be computed
  cases hprice : item.minBidPrice with
  | none => simp [hprice, unboxAdd, bind, Except.bind] at h
  | some price =>
    cases hincrement : item.minBidIncrement with
    | none => simp [hprice, hincrement, unboxAdd, bind, Except.bind] at h
    | some increment =>
      simp only [hprice, hincrement, unboxAdd, bind, Except.bind, Except.ok.injEq] at h
      subst h
      rw [notOvercharged_of_recorded rfl rfl rfl]
      simp [CoveredInOrder, BidItem.addBidder, recordAutoBid, hnew, putBidder, entriesOf,
        autoBidder]

/-- Two auto-bids or more, in the order of the sort. -/
theorem notOvercharged_several (times : ℕ → Date) {item : BidItem} {a0 a1 : AutoBids}
    {rest : List AutoBids} {price : ℚ} (hnew : item.currentBiddersList = [])
    (hprice : openingPrice item a0 a1 = .ok price) :
    NotOvercharged (addOthers times 1 (a1 :: rest)
        (({ recordAutoBid item a0 with currentMarketPrice := some price } : BidItem).addBidder
          (autoBidder a0 price (some a0.bidAmount) (times 0)))) ↔
      CoveredInOrder item.minBidPrice item.minBidIncrement (a0 :: a1 :: rest) := by
  -- the leader is entered first, with the opening price
  have hentries : entriesOf (some a0.bidderName)
      (({ recordAutoBid item a0 with currentMarketPrice := some price } : BidItem).addBidder
        (autoBidder a0 price (some a0.bidAmount) (times 0))).currentBiddersList =
      [autoBidder a0 price (some a0.bidAmount) (times 0)] := by
    simp [BidItem.addBidder, recordAutoBid, hnew, putBidder, entriesOf, autoBidder]
  have hamounts := amounts_addOthers a0.bidderName times (a1 :: rest) 1
    (({ recordAutoBid item a0 with currentMarketPrice := some price } : BidItem).addBidder
      (autoBidder a0 price (some a0.bidAmount) (times 0))) (by rw [hentries]; exact le_rfl)
  rw [hentries] at hamounts
  -- the opening price is the common amount of the first two, or one increment above the second
  have hcap : price ≤ a0.bidAmount ↔ a1.bidAmount = a0.bidAmount ∨
      ∀ increment, item.minBidIncrement = some increment →
        a1.bidAmount + increment ≤ a0.bidAmount := by
    unfold openingPrice at hprice
    split at hprice
    · rename_i heq
      obtain rfl := Except.ok.inj hprice
      exact iff_of_true Rat.le_refl (.inl heq)
    · rename_i hne
      cases hincrement : item.minBidIncrement with
      | none => simp [hincrement, unboxAdd] at hprice
      | some increment =>
        simp only [hincrement, unboxAdd, Except.ok.injEq] at hprice
        simp [hne, ← hprice]
  rw [addOthers_eq, @notOvercharged_of_recorded _ a0.bidAmount price a0.bidderName rfl rfl rfl,
    hamounts, CoveredInOrder, ← hcap]
  refine and_congr_right fun hle => ?_
  -- a further auto-bid of the leader would overwrite that entry
  cases lastOf a0.bidderName (a1 :: rest) with
  | none => simpa [autoBidder] using hle
  | some a => simp

/-- Any number of auto-bids. -/
theorem notOvercharged_resolved {times : ℕ → Date} {item resolved : BidItem}
    {autoBids : List AutoBids} (hnew : item.currentBiddersList = []) (hbids : autoBids ≠ [])
    (h : resolveAutoBids times item autoBids = .ok resolved) :
    NotOvercharged resolved ↔
      CoveredInOrder item.minBidPrice item.minBidIncrement (sort compareAutoBids autoBids) := by
  match autoBids with
  | [] => exact absurd rfl hbids
  | [a] => exact notOvercharged_single hnew h
  | b0 :: b1 :: bs =>
    unfold resolveAutoBids at h
    -- the sort loses no auto-bid, so there are two in front
    have hlength : (sort compareAutoBids (b0 :: b1 :: bs)).length = bs.length + 2 :=
      length_sort ..
    match hsort : sort compareAutoBids (b0 :: b1 :: bs) with
    | [] => simp [hsort] at hlength
    | [_] => simp [hsort] at hlength
    | a0 :: a1 :: rest =>
      simp only [hsort] at h
      cases hprice : openingPrice item a0 a1 with
      | error e => simp [hprice, bind, Except.bind] at h
      | ok price =>
        simp only [hprice, bind, Except.bind, Except.ok.injEq] at h
        subst h
        exact notOvercharged_several times hnew hprice

/-- A load with auto-bids, in terms of the rows in the order of the sort. -/
theorem notOvercharged_inOrder {times : ℕ → Date} {db db' : Db} {id : ℤ} {row item : BidItem}
    (hrow : db.bidItems id = some row) (hbids : activeAutoBids db id ≠ [])
    (h : getBidItem times db id = .ok (item, db')) :
    NotOvercharged item ↔ CoveredInOrder row.minBidPrice row.minBidIncrement
      (sort compareAutoBids (activeAutoBids db id)) := by
  obtain ⟨row', resolved, hrow', hres, rfl, -⟩ := exists_resolved_of_getBidItem h
  obtain rfl : row = row' := Option.some.inj (hrow.symm.trans hrow')
  rw [saveAutoBidResultToBids_fst, notOvercharged_sortBidders, notOvercharged_sortBidders,
    notOvercharged_sortBidders]
  have hresolved := notOvercharged_resolved (by rfl) hbids hres
  exact hresolved

/-- Tables with one item, `1`, and some auto-bids for it. -/
def autoBidDb (minBidPrice minBidIncrement : ℚ) (autoBids : List AutoBids) : Db :=
  { Db.empty with
    bidItems := fun _ => some { BidItem.new with
      minBidPrice := some minBidPrice
      minBidIncrement := some minBidIncrement }
    autoBids := autoBids }

/-- Maxima of `200` and `100`, and an increment of `10`. -/
def spacedAutoBids : List AutoBids :=
  [⟨1, 1, 100, 0, "A", "bidder1"⟩, ⟨2, 1, 200, 0, "A", "bidder2"⟩]

end CommonDao

end Bidding.Model
