import Bidding.Properties.AutoBidWinner

/-!
# What the Opening Auto-Bid Charges

The leader of two or more auto-bids is charged the second amount plus the increment, and a
single auto-bid the minimum price plus the increment. The query for the rows does not order
them, and the sort finds amounts less than one apart equal, so who leads among such amounts is
up to the database. What can be said for every order of the rows is a condition on the amounts
alone.

## Key Results

- **`notOvercharged_iff`**: the lists of auto-bids whose leader is not charged more than the
  leader's maximum, in whatever order the rows come; and the same for one load, if the two
  highest amounts stand apart from the lower ones.
- **`closeAutoBids_overcharged`**: a leader with a maximum of `105` is charged `110`.
-/

namespace Bidding.Model

open Bidding.Collections

namespace CommonDao

/-! ## The condition -/

/-- The maximum of `top` covers what it is charged against `others`: no other amount is less
    than one below it, and it is shared, or one increment or more above all others. -/
def CoversOthers (increment : ℚ) (top : AutoBids) (others : List AutoBids) : Prop :=
  (∀ a ∈ others, a.bidAmount = top.bidAmount ∨ a.bidAmount + 1 ≤ top.bidAmount) ∧
    ((∃ a ∈ others, a.bidAmount = top.bidAmount) ∨
      ∀ a ∈ others, a.bidAmount + increment ≤ top.bidAmount)

/-- The maximum of the leader covers what the resolution charges. -/
def Covered (minimum increment : ℚ) : List AutoBids → Prop
  | [] => True
  | [a] => minimum + increment ≤ a.bidAmount
  | a :: b :: l => ∃ top ∈ a :: b :: l, CoversOthers increment top ((a :: b :: l).erase top)

instance (increment : ℚ) (top : AutoBids) (others : List AutoBids) :
    Decidable (CoversOthers increment top others) :=
  inferInstanceAs (Decidable ((∀ a ∈ others, _ ∨ _) ∧ ((∃ a ∈ others, _) ∨ ∀ a ∈ others, _)))

instance Covered.decidable (minimum increment : ℚ) :
    (l : List AutoBids) → Decidable (Covered minimum increment l)
  | [] => isTrue trivial
  | [a] => inferInstanceAs (Decidable (minimum + increment ≤ a.bidAmount))
  | a :: b :: l => inferInstanceAs (Decidable (∃ top ∈ a :: b :: l, _))

theorem covered_iff_of_two {minimum increment : ℚ} {l : List AutoBids} (h : 2 ≤ l.length) :
    Covered minimum increment l ↔ ∃ top ∈ l, CoversOthers increment top (l.erase top) := by
  rcases l with _ | ⟨a, _ | ⟨b, l⟩⟩
  · simp at h
  · simp at h
  · exact Iff.rfl

/-- The order of the other rows is irrelevant. -/
theorem CoversOthers.perm {increment : ℚ} {top : AutoBids} {others others' : List AutoBids}
    (h : CoversOthers increment top others) (hperm : others'.Perm others) :
    CoversOthers increment top others' := by
  refine ⟨fun a ha => h.1 a (hperm.mem_iff.mp ha), ?_⟩
  rcases h.2 with ⟨a, ha, hsame⟩ | hall
  · exact .inl ⟨a, hperm.mem_iff.mpr ha, hsame⟩
  · exact .inr fun a ha => hall a (hperm.mem_iff.mp ha)

/-! ## The rows in the order of the sort -/

section Orders

variable {minimum increment : ℚ} {l : List AutoBids} {a0 a1 : AutoBids} {rest : List AutoBids}

theorem mem_of_lastOf {name : String} {a : AutoBids} (h : lastOf name l = some a) : a ∈ l :=
  (List.mem_filter.mp (List.mem_of_getLast? h)).1

/-- The amount that covers the charge is the highest one. -/
theorem CoversOthers.le {top : AutoBids} {others : List AutoBids}
    (h : CoversOthers increment top others) {a : AutoBids} (ha : a ∈ top :: others) :
    a.bidAmount ≤ top.bidAmount := by
  rcases List.mem_cons.mp ha with rfl | ha
  · exact le_rfl
  · rcases h.1 a ha with hsame | hlower
    · exact hsame.le
    · linarith

/-- The sort puts a row of the highest amount in front, and behind it the rows of that amount
    before the lower ones. -/
theorem CoversOthers.front {top : AutoBids} {others : List AutoBids}
    (h : CoversOthers increment top others) {l' : List AutoBids}
    (hperm : l'.Perm (top :: others)) (hsort : sort compareAutoBids l' = a0 :: a1 :: rest) :
    a0.bidAmount = top.bidAmount ∧
      ((a1 :: rest).map AutoBids.bidAmount).Perm (others.map AutoBids.bidAmount) ∧
      (a1 :: rest).Pairwise
        (fun a b => top.bidAmount ≤ b.bidAmount → top.bidAmount ≤ a.bidAmount) := by
  have hsorted : (a0 :: a1 :: rest).Perm (top :: others) :=
    (hsort ▸ sort_perm compareAutoBids l').trans hperm
  -- the sort tells the highest amount from all lower ones
  have hsplit : (sort compareAutoBids l').Pairwise
      (fun a b => top.bidAmount ≤ b.bidAmount → top.bidAmount ≤ a.bidAmount) := by
    apply sort_splits
    intro c hc hlower
    rcases List.mem_cons.mp (hperm.mem_iff.mp hc) with rfl | hc
    · exact absurd hlower (lt_irrefl _)
    · exact (h.1 c hc).resolve_left hlower.ne
  rw [hsort] at hsplit
  have hfirst : a0.bidAmount = top.bidAmount :=
    le_antisymm (h.le (hsorted.mem_iff.mp List.mem_cons_self))
      (le_head hsplit (hsorted.mem_iff.mpr List.mem_cons_self) le_rfl)
  refine ⟨hfirst, ?_, (List.pairwise_cons.mp hsplit).2⟩
  -- the first row need not be `top`, but the amounts behind it are those behind `top`
  have hall := hsorted.map AutoBids.bidAmount
  rw [List.map_cons, List.map_cons (a := top), hfirst] at hall
  exact hall.cons_inv

/-- If the amounts cover the charge, every order of the rows is resolved without an
    overcharge. -/
theorem coveredInOrder_of_coversOthers {top : AutoBids} (htop : top ∈ l)
    (h : CoversOthers increment top (l.erase top)) {l' : List AutoBids} (hperm : l'.Perm l)
    (hsort : sort compareAutoBids l' = a0 :: a1 :: rest) :
    CoveredInOrder (some minimum) (some increment) (a0 :: a1 :: rest) := by
  have hothers : l'.Perm (top :: l.erase top) := hperm.trans (List.perm_cons_erase htop)
  obtain ⟨hfirst, hamounts, hsplit⟩ := h.front hothers hsort
  have hmax : ∀ a ∈ a1 :: rest, a.bidAmount ≤ top.bidAmount := by
    intro a ha
    obtain ⟨b, hb, hamount⟩ := List.mem_map.mp (hamounts.mem_iff.mp (List.mem_map_of_mem ha))
    rw [← hamount]
    exact h.le (List.mem_cons_of_mem top hb)
  constructor
  · rcases h.2 with ⟨a, ha, hsame⟩ | hall
    · -- another row shares the highest amount, so the second row has it as well
      obtain ⟨d, hd, hamount⟩ := List.mem_map.mp
        (hamounts.mem_iff.mpr (List.mem_map_of_mem ha))
      have hsecond := le_head hsplit hd
        (by rw [hamount, hsame] : top.bidAmount ≤ d.bidAmount)
      left
      rw [hfirst]
      exact le_antisymm (hmax a1 List.mem_cons_self) hsecond
    · right
      intro increment' hincrement
      obtain rfl := Option.some.inj hincrement
      -- the second row has the amount of one of the others, which is an increment below
      obtain ⟨b, hb, hamount⟩ := List.mem_map.mp
        (hamounts.mem_iff.mp (List.mem_map_of_mem (List.mem_cons_self (a := a1))))
      rw [← hamount, hfirst]
      exact hall b hb
  · intro a ha
    rw [hfirst]
    exact hmax a (mem_of_lastOf ha)

/-- If the two highest rows are resolved without an overcharge, and no row is less than one
    below the first, the amounts cover the charge. -/
theorem covered_of_front (hperm : (a0 :: a1 :: rest).Perm l)
    (hsecond : ∀ a ∈ rest, a.bidAmount ≤ a1.bidAmount)
    (hapart : ∀ a ∈ a1 :: rest, a.bidAmount = a0.bidAmount ∨ a.bidAmount + 1 ≤ a0.bidAmount)
    (h : CoveredInOrder (some minimum) (some increment) (a0 :: a1 :: rest)) :
    Covered minimum increment l := by
  have htwo : 2 ≤ l.length := by
    rw [← hperm.length_eq]
    simp
  have herase : (l.erase a0).Perm (a1 :: rest) := by
    have h := hperm.erase a0
    rw [List.erase_cons_head] at h
    exact h.symm
  apply (covered_iff_of_two htwo).mpr
  refine ⟨a0, hperm.mem_iff.mp List.mem_cons_self, CoversOthers.perm ⟨hapart, ?_⟩ herase⟩
  -- the charge is the second amount plus the increment, unless the two are the same
  rcases h.1 with hsame | hroom
  · exact .inl ⟨a1, List.mem_cons_self, hsame⟩
  · right
    have hroom := hroom increment rfl
    intro a ha
    rcases List.mem_cons.mp ha with rfl | ha
    · exact hroom
    · have hle := hsecond a ha
      linarith

/-- If every order of the rows is resolved without an overcharge, no row is less than one below
    a highest one: put first, such a row would lead, at more than its own amount. -/
theorem apart_of_coveredInOrder (hincrement : 0 ≤ increment)
    (h : ∀ l', l'.Perm l →
      CoveredInOrder (some minimum) (some increment) (sort compareAutoBids l'))
    {top : AutoBids} (htop : top ∈ l) (hmax : ∀ a ∈ l, a.bidAmount ≤ top.bidAmount)
    {c : AutoBids} (hc : c ∈ l) (hlower : c.bidAmount ≠ top.bidAmount) :
    c.bidAmount + 1 ≤ top.bidAmount := by
  by_contra hnear
  have hlt : c.bidAmount < top.bidAmount := lt_of_le_of_ne (hmax c hc) hlower
  have hperm : (c :: descend (l.erase c)).Perm l :=
    ((descend_perm _).cons c).trans (List.perm_cons_erase hc).symm
  -- the difference of less than one is truncated to zero, so the sort leaves the row in front
  have hchain : (c :: descend (l.erase c)).IsChain (fun a b => compareAutoBids a b ≤ 0) := by
    apply isChain_cons _ (isChain_of_descending (descending_descend _))
    intro a ha
    have hle := hmax a (List.mem_of_mem_erase ((descend_perm _).mem_iff.mp ha))
    linarith
  have hcovered := h _ hperm
  rw [sort_eq_self hchain] at hcovered
  have hothers : top ∈ descend (l.erase c) := by
    apply (descend_perm _).mem_iff.mpr
    apply (List.mem_erase_of_ne _).mpr htop
    rintro rfl
    exact hlower rfl
  have hdescending := descending_descend (l.erase c)
  rcases hrest : descend (l.erase c) with _ | ⟨d, ds⟩
  · rw [hrest] at hothers
    exact absurd hothers List.not_mem_nil
  · -- the second row is as high as `top`
    rw [hrest] at hothers hcovered hdescending
    have hsecond : top.bidAmount ≤ d.bidAmount := by
      rcases List.mem_cons.mp hothers with rfl | hmem
      · exact le_rfl
      · exact (List.pairwise_cons.mp hdescending).1 top hmem
    rcases hcovered.1 with hsame | hroom
    · linarith
    · have hroom := hroom increment rfl
      linarith

/-- The rows that are resolved without an overcharge in every order. -/
theorem forall_coveredInOrder_iff (hincrement : 0 ≤ increment) (hne : l ≠ []) :
    (∀ l', l'.Perm l →
      CoveredInOrder (some minimum) (some increment) (sort compareAutoBids l')) ↔
      Covered minimum increment l := by
  rcases l with _ | ⟨a, _ | ⟨b, l⟩⟩
  · exact absurd rfl hne
  · -- a single row has one order, and is its own sort
    constructor
    · intro h
      exact h [a] (List.Perm.refl _) minimum increment rfl rfl
    · intro h l' hperm
      obtain rfl := List.perm_singleton.mp hperm
      intro price increment' hprice hincrement'
      obtain rfl := Option.some.inj hprice
      obtain rfl := Option.some.inj hincrement'
      exact h
  · have htwo : 2 ≤ (a :: b :: l).length := by simp
    constructor
    · intro h
      -- the rows in descending order are the order that shows the amounts
      have hdescending := descending_descend (a :: b :: l)
      have hperm := descend_perm (a :: b :: l)
      have hcovered := h _ hperm
      rw [sort_eq_self (isChain_of_descending hdescending)] at hcovered
      rcases hfront : descend (a :: b :: l) with _ | ⟨a0, _ | ⟨a1, rest⟩⟩
      · simpa [hfront] using hperm.length_eq
      · simpa [hfront] using hperm.length_eq
      · rw [hfront] at hdescending hperm hcovered
        obtain ⟨hfirst, hothers⟩ := List.pairwise_cons.mp hdescending
        have hmax : ∀ c ∈ a :: b :: l, c.bidAmount ≤ a0.bidAmount := by
          intro c hc
          rcases List.mem_cons.mp (hperm.mem_iff.mpr hc) with rfl | hc
          · exact le_rfl
          · exact hfirst c hc
        apply covered_of_front hperm (List.pairwise_cons.mp hothers).1 _ hcovered
        intro c hc
        by_cases hsame : c.bidAmount = a0.bidAmount
        · exact .inl hsame
        · exact .inr (apart_of_coveredInOrder hincrement h
            (hperm.mem_iff.mp List.mem_cons_self) hmax
            (hperm.mem_iff.mp (List.mem_cons_of_mem a0 hc)) hsame)
    · -- any other order has the same two highest amounts in front
      intro h l' hperm
      obtain ⟨top, htop, hcovers⟩ := h
      obtain ⟨a0, a1, rest, hsort⟩ := sort_several (htwo.trans_eq hperm.length_eq.symm)
      rw [hsort]
      exact coveredInOrder_of_coversOthers htop hcovers hperm hsort

/-- One order of the rows, if the two highest amounts stand apart. -/
theorem coveredInOrder_iff_of_clear (hincrement : 0 ≤ increment) (hne : l ≠ [])
    (hclear : Clear l) {l' : List AutoBids} (hperm : l'.Perm l) :
    CoveredInOrder (some minimum) (some increment) (sort compareAutoBids l') ↔
      Covered minimum increment l := by
  constructor
  · intro h
    by_cases htwo : 2 ≤ l.length
    · obtain ⟨a0, a1, rest, hsort⟩ := sort_several (htwo.trans_eq hperm.length_eq.symm)
      -- with two clear amounts every order has the same front, so one load decides
      obtain ⟨hmax, hsecond⟩ := (hclear.perm hperm).front hsort
      have hsorted : (a0 :: a1 :: rest).Perm l := (hsort ▸ sort_perm _ _).trans hperm
      rw [hsort] at h
      apply covered_of_front hsorted hsecond _ h
      intro c hc
      have hc := hsorted.mem_iff.mp (List.mem_cons_of_mem a0 hc)
      have hnone : l.countP (fun a => a0.bidAmount < a.bidAmount) = 0 := by
        apply List.countP_eq_zero.mpr
        intro a ha
        simpa using hmax a (hperm.mem_iff.mpr ha)
      rcases (hmax c (hperm.mem_iff.mpr hc)).eq_or_lt with hsame | hlower
      · exact .inl hsame
      · exact .inr (hclear a0 (hsorted.mem_iff.mp List.mem_cons_self) (by omega) c hc hlower)
    · -- the only order of a single row
      have hlength : l.length = 1 := by
        have := List.length_pos_iff.mpr hne
        omega
      obtain ⟨a, rfl⟩ := List.length_eq_one_iff.mp hlength
      obtain rfl := List.perm_singleton.mp hperm
      exact h minimum increment rfl rfl
  · intro h
    exact (forall_coveredInOrder_iff hincrement hne).mpr h l' hperm

end Orders

/-! ## The loads -/

/-- A load of an item with prices and auto-bids returns, and what it charges is known from the
    rows in the order of the sort. -/
theorem getBidItem_charges (times : ℕ → Date) {db : Db} {id : ℤ} {row : BidItem}
    {minimum increment : ℚ} (hrow : db.bidItems id = some row)
    (hminimum : row.minBidPrice = some minimum) (hincrement : row.minBidIncrement = some increment)
    (hne : activeAutoBids db id ≠ []) :
    ∃ item db', getBidItem times db id = .ok (item, db') ∧
      (NotOvercharged item ↔ CoveredInOrder (some minimum) (some increment)
        (sort compareAutoBids (activeAutoBids db id))) := by
  -- with both prices no branch of the resolution reads a null
  have hresolvable : Resolvable row.minBidPrice row.minBidIncrement (activeAutoBids db id) := by
    unfold Resolvable
    rw [hminimum, hincrement]
    split
    · trivial
    · exact ⟨rfl, rfl⟩
    · split
      · exact .inr rfl
      · trivial
  obtain ⟨⟨item, db'⟩, hload⟩ := (getBidItem_ok_iff times db id).mpr ⟨row, hrow, hresolvable⟩
  refine ⟨item, db', hload, ?_⟩
  rw [notOvercharged_inOrder hrow hne hload, hminimum, hincrement]

/-- **The leading auto-bid is not charged more than its own maximum, in whatever order the
    database returns the rows, exactly when the amounts cover the charge**: the minimum price
    plus the increment for a single auto-bid; for several, no amount less than one below the
    highest, which is shared or an increment above all others. If the two highest amounts are
    one or more above all lower ones, that decides every single load as well. -/
theorem notOvercharged_iff (times : ℕ → Date) {id : ℤ} {minimum increment : ℚ}
    {l : List AutoBids} (hincrement : 0 ≤ increment) (hactive : ActiveFor id l) (hne : l ≠ []) :
    ((∀ db row, db.bidItems id = some row → row.minBidPrice = some minimum →
        row.minBidIncrement = some increment → (activeAutoBids db id).Perm l →
        ∃ item db', getBidItem times db id = .ok (item, db') ∧ NotOvercharged item) ↔
      Covered minimum increment l) ∧
    (Clear l → ∀ db row, db.bidItems id = some row → row.minBidPrice = some minimum →
        row.minBidIncrement = some increment → (activeAutoBids db id).Perm l →
        ∃ item db', getBidItem times db id = .ok (item, db') ∧
          (NotOvercharged item ↔ Covered minimum increment l)) := by
  have hrows : ∀ l' : List AutoBids, l'.Perm l → l' ≠ [] :=
    fun l' hperm h => hne ((h ▸ hperm).symm.eq_nil)
  constructor
  · rw [← forall_coveredInOrder_iff hincrement hne]
    constructor
    · intro h l' hperm
      -- every order of the rows is the table of some database
      have hl' := hactive.activeAutoBids hperm minimum increment
      obtain ⟨item, db', hload, hcharges⟩ := @getBidItem_charges times
        (autoBidDb minimum increment l') id _ minimum increment rfl rfl rfl
        (by rw [hl']; exact hrows l' hperm)
      obtain ⟨item', db'', hload', hok⟩ := h (autoBidDb minimum increment l') _ rfl rfl rfl
        (by rw [hl']; exact hperm)
      obtain ⟨rfl, -⟩ := Prod.mk.inj (Except.ok.inj (hload.symm.trans hload'))
      rw [hl'] at hcharges
      exact hcharges.mp hok
    · intro h db row hrow hminimum hincrement' hperm
      obtain ⟨item, db', hload, hcharges⟩ :=
        getBidItem_charges times hrow hminimum hincrement' (hrows _ hperm)
      exact ⟨item, db', hload, hcharges.mpr (h _ hperm)⟩
  · intro hclear db row hrow hminimum hincrement' hperm
    obtain ⟨item, db', hload, hcharges⟩ :=
      getBidItem_charges times hrow hminimum hincrement' (hrows _ hperm)
    exact ⟨item, db', hload,
      hcharges.trans (coveredInOrder_iff_of_clear hincrement hne hclear hperm)⟩

/-- With these rows, a minimum of `50` and an increment of `10`, the leader has a maximum of `200`
    and is charged `110`. -/
def ChargesSecond (rows : List AutoBids) : Prop :=
  ∃ item db', getBidItem (fun _ => 0) (autoBidDb 50 10 rows) 1 = .ok (item, db') ∧
    item.amountAutoBid = some 200 ∧ item.currentMarketPrice = some 110 ∧ NotOvercharged item

/-- Maxima of `200` and `100` cover an increment of `10`: the price is `110`, whichever row
    comes first. -/
theorem notOvercharged_spacedAutoBids :
    ChargesSecond spacedAutoBids ∧ ChargesSecond spacedAutoBids.reverse := by
  have hactive : ActiveFor 1 spacedAutoBids := by
    unfold ActiveFor
    decide +kernel
  have hcharges : ∀ rows : List AutoBids, rows.Perm spacedAutoBids →
      (getBidItem (fun _ => 0) (autoBidDb 50 10 rows) 1).map
        (fun out => (out.1.amountAutoBid, out.1.currentMarketPrice)) =
          .ok (some 200, some 110) → ChargesSecond rows := by
    intro rows hperm hvalue
    obtain ⟨item, db', hload, hok⟩ := (@notOvercharged_iff (fun _ => 0) 1 50 10 spacedAutoBids
      (by decide) hactive (by decide)).1.mpr (by decide +kernel)
      (autoBidDb 50 10 rows) _ rfl rfl rfl (by rw [hactive.activeAutoBids hperm]; exact hperm)
    simp only [hload, Except.map, Except.ok.injEq, Prod.mk.injEq] at hvalue
    exact ⟨item, db', hload, hvalue.1, hvalue.2, hok⟩
  exact ⟨hcharges _ (List.Perm.refl _) (by decide +kernel),
    hcharges _ (List.reverse_perm _) (by decide +kernel)⟩

/-- Maxima of `105` and `100`, and an increment of `10`. -/
def closeAutoBids : List AutoBids :=
  [⟨1, 1, 100, 0, "A", "bidder1"⟩, ⟨2, 1, 105, 0, "A", "bidder2"⟩]

/-- The winner of these two, with a maximum of `105`, is charged `110`. -/
theorem closeAutoBids_overcharged :
    ∃ item db', getBidItem (fun _ => 0) (autoBidDb 50 10 closeAutoBids) 1 = .ok (item, db') ∧
      item.amountAutoBid = some 105 ∧ item.currentMarketPrice = some 110 ∧
      ¬ NotOvercharged item := by
  have hvalue : (getBidItem (fun _ => 0) (autoBidDb 50 10 closeAutoBids) 1).map
      (fun out => (out.1.amountAutoBid, out.1.currentMarketPrice)) = .ok (some 105, some 110) := by
    decide +kernel
  cases hload : getBidItem (fun _ => 0) (autoBidDb 50 10 closeAutoBids) 1 with
  | error e => simp [hload, Except.map] at hvalue
  | ok out =>
    simp only [hload, Except.map, Except.ok.injEq, Prod.mk.injEq] at hvalue
    obtain ⟨hmax, hprice⟩ := hvalue
    refine ⟨out.1, out.2, rfl, hmax, hprice, ?_⟩
    -- `105` and `100` are not an increment apart
    rintro ⟨maximum, price, hmax', hprice', hle, -⟩
    obtain rfl := Option.some.inj (hmax.symm.trans hmax')
    obtain rfl := Option.some.inj (hprice.symm.trans hprice')
    exact absurd hle (by decide +kernel)

end CommonDao

end Bidding.Model
