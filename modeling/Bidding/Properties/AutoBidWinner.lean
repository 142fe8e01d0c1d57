import Mathlib.Data.List.MinMax
import Mathlib.Data.List.Sort
import Bidding.Properties.Standings

/-!
# Which Auto-Bid Opens as Leader

Two or more active auto-bids are sorted, and the first two of the result decide the leader and
the opening price. The comparator cuts the difference of two amounts to a whole number, so it
finds two amounts less than one apart equal; and it compares the boxes of the amounts, so it
never looks at the times of two rows with the same amount. In both cases the order in which the
database returns the rows decides.

## Key Results

- **`highestLeads_iff`**: the lists of which the two highest auto-bids decide, in whatever order
  the rows come.
- **`firstComeLeads_iff`**: the lists of which the earliest of the highest auto-bids leads.
-/

namespace Bidding.Model

open Bidding.Collections

namespace CommonDao

/-! ## The comparator and its sort -/

/-- An auto-bid moves in front of another one when it is higher by one or more. -/
theorem compareAutoBids_pos {a b : AutoBids} :
    0 < compareAutoBids a b ↔ a.bidAmount + 1 ≤ b.bidAmount := by
  unfold compareAutoBids
  rw [doubleToInt_pos]
  exact le_sub_iff_add_le'

/-- The rows stand by descending amount. -/
def Descending (l : List AutoBids) : Prop :=
  l.Pairwise (fun a b => b.bidAmount ≤ a.bidAmount)

/-- Some rows by descending amount. -/
def descend (l : List AutoBids) : List AutoBids :=
  l.insertionSort (fun a b => b.bidAmount ≤ a.bidAmount)

theorem descend_perm (l : List AutoBids) : (descend l).Perm l :=
  List.perm_insertionSort _ l

theorem descending_descend (l : List AutoBids) : Descending (descend l) := by
  have htotal : Std.Total (fun a b : AutoBids => b.bidAmount ≤ a.bidAmount) :=
    ⟨fun a b => le_total b.bidAmount a.bidAmount⟩
  have htrans : IsTrans AutoBids (fun a b => b.bidAmount ≤ a.bidAmount) :=
    ⟨fun a b c hab hbc => hbc.trans hab⟩
  exact List.pairwise_insertionSort _ l

/-- Rows in descending order are in order for the comparator. -/
theorem isChain_of_descending {l : List AutoBids} (h : Descending l) :
    l.IsChain (fun a b => compareAutoBids a b ≤ 0) := by
  apply List.Pairwise.isChain
  apply h.imp
  intro a b hab
  apply Int.not_lt.mp
  rw [compareAutoBids_pos]
  linarith

/-- A row in front of others that are higher by less than one keeps its place. -/
theorem isChain_cons {c : AutoBids} {l : List AutoBids}
    (hc : ∀ a ∈ l, a.bidAmount < c.bidAmount + 1)
    (h : l.IsChain (fun a b => compareAutoBids a b ≤ 0)) :
    (c :: l).IsChain (fun a b => compareAutoBids a b ≤ 0) := by
  apply h.cons
  intro a ha
  apply Int.not_lt.mp
  rw [compareAutoBids_pos]
  exact not_le.mpr (hc a (List.mem_of_mem_head? ha))

/-- An amount that the comparator tells from all lower ones splits the sorted rows: no row from
    that amount on stands behind a lower one. -/
theorem sort_splits {l : List AutoBids} {amount : ℚ}
    (hapart : ∀ c ∈ l, c.bidAmount < amount → c.bidAmount + 1 ≤ amount) :
    (sort compareAutoBids l).Pairwise (fun a b => amount ≤ b.bidAmount → amount ≤ a.bidAmount) := by
  apply sort_pairwise
  · intro a b c hab hbc hc
    exact hab (hbc hc)
  · intro a ha b hb hcmp hamount
    rw [compareAutoBids_pos] at hcmp
    -- a lower row is lower by one, which the comparator sees
    by_contra hlower
    have hone := hapart a ha (not_le.mp hlower)
    exact hcmp (hone.trans hamount)
  · intro a ha b hb hcmp hamount
    rw [compareAutoBids_pos] at hcmp
    linarith

/-! ## What the load records -/

/-- The item records this auto-bid as the leading one. -/
def Records (item : BidItem) (a : AutoBids) : Prop :=
  item.autoBidderName = some a.bidderName ∧ item.amountAutoBid = some a.bidAmount ∧
    item.currentAutoBidId = some a.autoBidId

/-- The price that a leader opens with against the next auto-bid. -/
def opening (increment leader second : ℚ) : ℚ :=
  if second = leader then leader else second + increment

/-- All rows are active auto-bids for one item. -/
def ActiveFor (id : ℤ) (l : List AutoBids) : Prop :=
  ∀ a ∈ l, a.bidItemId = id ∧ a.bidStatus = "A"

/-- All of these rows are the live ones of the item. -/
theorem ActiveFor.activeAutoBids {id : ℤ} {l l' : List AutoBids} (h : ActiveFor id l)
    (hperm : l'.Perm l) (minBidPrice minBidIncrement : ℚ) :
    activeAutoBids (autoBidDb minBidPrice minBidIncrement l') id = l' := by
  apply List.filter_eq_self.mpr
  intro a ha
  obtain ⟨hid, hstatus⟩ := h a (hperm.mem_iff.mp ha)
  simp [hid, hstatus]

/-- The first row after the sort is recorded, with its price against the second. -/
theorem resolveAutoBids_several (times : ℕ → Date) {item : BidItem} {autoBids : List AutoBids}
    {a0 a1 : AutoBids} {rest : List AutoBids} {increment : ℚ}
    (hincrement : item.minBidIncrement = some increment)
    (hsort : sort compareAutoBids autoBids = a0 :: a1 :: rest) :
    ∃ resolved, resolveAutoBids times item autoBids = .ok resolved ∧ Records resolved a0 ∧
      resolved.currentMarketPrice = some (opening increment a0.bidAmount a1.bidAmount) := by
  have hprice : openingPrice item a0 a1 = .ok (opening increment a0.bidAmount a1.bidAmount) := by
    unfold openingPrice opening
    rw [hincrement]
    split
    · rfl
    · rfl
  -- fewer than two auto-bids cannot be sorted into two
  have hlength := length_sort compareAutoBids autoBids
  rw [hsort] at hlength
  rcases autoBids with _ | ⟨b0, _ | ⟨b1, bs⟩⟩
  · cases hlength
  · cases hlength
  · let price := opening increment a0.bidAmount a1.bidAmount
    let led : BidItem :=
      ({ recordAutoBid item a0 with currentMarketPrice := some price } : BidItem).addBidder
        (autoBidder a0 price (some a0.bidAmount) (times 0))
    refine ⟨addOthers times 1 (a1 :: rest) led, ?_, ?_⟩
    · simp only [resolveAutoBids, hsort, hprice]
      rfl
    · rw [addOthers_eq]
      exact ⟨⟨rfl, rfl, rfl⟩, rfl⟩

/-- A load with two or more auto-bids records the first one after the sort, and opens with the
    price of the first against the second. -/
theorem getBidItem_several (times : ℕ → Date) {db : Db} {id : ℤ} {row : BidItem}
    {a0 a1 : AutoBids} {rest : List AutoBids} {increment : ℚ} (hrow : db.bidItems id = some row)
    (hincrement : row.minBidIncrement = some increment)
    (hsort : sort compareAutoBids (activeAutoBids db id) = a0 :: a1 :: rest) :
    ∃ item db', getBidItem times db id = .ok (item, db') ∧ Records item a0 ∧
      item.currentMarketPrice = some (opening increment a0.bidAmount a1.bidAmount) := by
  let loaded : BidItem := { row.persistent with bidItemId := some id }
  have hloaded : loaded.minBidIncrement = some increment := hincrement
  obtain ⟨resolved, hres, hrecords, hprice⟩ := resolveAutoBids_several times hloaded hsort
  simp only [loaded] at hres
  let out := saveAutoBidResultToBids resolved (times (activeAutoBids db id).length)
  have hout : out.1 = resolved.sortBidders.sortBidders.sortBidders :=
    saveAutoBidResultToBids_fst ..
  refine ⟨out.1, flush { db with bids := db.bids ++ out.2 } id out.1, ?_, ?_⟩
  · unfold getBidItem
    simp only [hrow, hres]
    rfl
  · rw [hout]
    exact ⟨hrecords, hprice⟩

/-- The load of an item whose rows come in an order that the sort keeps. -/
theorem ActiveFor.load (times : ℕ → Date) {id : ℤ} {l l' : List AutoBids} (h : ActiveFor id l)
    (hperm : l'.Perm l) {a0 a1 : AutoBids} {rest : List AutoBids} (increment : ℚ)
    (hsort : sort compareAutoBids l' = a0 :: a1 :: rest) :
    ∃ item db', getBidItem times (autoBidDb 0 increment l') id = .ok (item, db') ∧
      Records item a0 ∧
      item.currentMarketPrice = some (opening increment a0.bidAmount a1.bidAmount) := by
  apply getBidItem_several times rfl rfl
  rw [h.activeAutoBids hperm]
  exact hsort

/-- The first two of two rows or more. -/
theorem sort_several {l : List AutoBids} (h : 2 ≤ l.length) :
    ∃ a0 a1 rest, sort compareAutoBids l = a0 :: a1 :: rest := by
  have hlength := length_sort compareAutoBids l
  rcases hsort : sort compareAutoBids l with _ | ⟨a0, _ | ⟨a1, rest⟩⟩
  · rw [hsort] at hlength
    simp only [List.length_nil] at hlength
    omega
  · rw [hsort] at hlength
    simp only [List.length_singleton] at hlength
    omega
  · exact ⟨a0, a1, rest, rfl⟩

/-! ## The highest auto-bid -/

/-- The recorded auto-bid is the highest of the list, and the price is the one it opens with
    against the highest of the others. -/
def HighestLeads (increment : ℚ) (l : List AutoBids) (item : BidItem) : Prop :=
  ∃ winner second others, (winner :: second :: others).Perm l ∧ Records item winner ∧
    (∀ a ∈ l, a.bidAmount ≤ winner.bidAmount) ∧ (∀ a ∈ others, a.bidAmount ≤ second.bidAmount) ∧
    item.currentMarketPrice = some (opening increment winner.bidAmount second.bidAmount)

/-- The two highest amounts of the list are each one or more above all lower ones: so is every
    amount that at most one row exceeds. -/
def Clear (l : List AutoBids) : Prop :=
  ∀ d ∈ l, l.countP (fun a => d.bidAmount < a.bidAmount) ≤ 1 →
    ∀ c ∈ l, c.bidAmount < d.bidAmount → c.bidAmount + 1 ≤ d.bidAmount

instance (l : List AutoBids) : Decidable (Clear l) :=
  inferInstanceAs (Decidable (∀ d ∈ l, _ → ∀ c ∈ l, _ → _))

theorem Clear.perm {l l' : List AutoBids} (h : Clear l) (hperm : l'.Perm l) : Clear l' := by
  intro d hd hcount c hc
  rw [hperm.countP_eq] at hcount
  exact h d (hperm.mem_iff.mp hd) hcount c (hperm.mem_iff.mp hc)

/-- A highest one of some rows. -/
theorem exists_highest {l : List AutoBids} (h : l ≠ []) :
    ∃ d ∈ l, ∀ a ∈ l, a.bidAmount ≤ d.bidAmount := by
  cases hd : l.argmax AutoBids.bidAmount with
  | none => exact absurd (List.argmax_eq_none.mp hd) h
  | some d => exact ⟨d, List.argmax_mem hd, fun a ha => List.le_of_mem_argmax ha hd⟩

/-- Where no row from an amount on stands behind a lower one, and there is such a row, the first
    one is such a row. -/
theorem le_head {amount : ℚ} {a d : AutoBids} {l : List AutoBids}
    (h : (a :: l).Pairwise (fun a b => amount ≤ b.bidAmount → amount ≤ a.bidAmount))
    (hd : d ∈ a :: l) (hamount : amount ≤ d.bidAmount) : amount ≤ a.bidAmount := by
  rcases List.mem_cons.mp hd with rfl | hd
  · exact hamount
  · exact (List.pairwise_cons.mp h).1 d hd hamount

/-- The sort puts the two highest auto-bids of a clear list in front. -/
theorem Clear.front {l : List AutoBids} (h : Clear l) {a0 a1 : AutoBids} {rest : List AutoBids}
    (hsort : sort compareAutoBids l = a0 :: a1 :: rest) :
    (∀ a ∈ l, a.bidAmount ≤ a0.bidAmount) ∧ ∀ a ∈ rest, a.bidAmount ≤ a1.bidAmount := by
  have hperm : (a0 :: a1 :: rest).Perm l := hsort ▸ sort_perm compareAutoBids l
  constructor
  · -- nothing is above the highest amount
    have hne : l ≠ [] := List.ne_nil_of_mem (hperm.mem_iff.mp List.mem_cons_self)
    obtain ⟨d, hd, hmax⟩ := exists_highest hne
    have hcount : l.countP (fun a => d.bidAmount < a.bidAmount) = 0 := by
      apply List.countP_eq_zero.mpr
      intro a ha
      simpa using hmax a ha
    have hsplit := sort_splits (h d hd (by omega))
    rw [hsort] at hsplit
    have hfirst := le_head hsplit (hperm.mem_iff.mpr hd) le_rfl
    intro a ha
    exact (hmax a ha).trans hfirst
  · -- only the first row can be above the highest amount of the others
    obtain ⟨d, hd, hmax⟩ := exists_highest (List.cons_ne_nil a1 rest)
    have hcount : l.countP (fun a => d.bidAmount < a.bidAmount) ≤ 1 := by
      rw [← hperm.countP_eq, List.countP_cons]
      have hothers : (a1 :: rest).countP (fun a => d.bidAmount < a.bidAmount) = 0 := by
        apply List.countP_eq_zero.mpr
        intro a ha
        simpa using hmax a ha
      rw [hothers]
      split
      · exact le_rfl
      · exact Nat.zero_le 1
    have hsplit := sort_splits (h d (hperm.mem_iff.mp (List.mem_cons_of_mem a0 hd)) hcount)
    rw [hsort] at hsplit
    have hsecond := le_head (List.pairwise_cons.mp hsplit).2 hd le_rfl
    intro a ha
    exact (hmax a (List.mem_cons_of_mem a1 ha)).trans hsecond

/-- An order of the rows that the sort leaves as it is if `c` is less than one below `d`: the
    rows above `d`, then `c`, then all others. -/
def misleading (l : List AutoBids) (d c : AutoBids) : List AutoBids :=
  descend (l.filter (fun a => d.bidAmount < a.bidAmount)) ++
    c :: descend ((l.filter (fun a => a.bidAmount ≤ d.bidAmount)).erase c)

section Misleading

variable {l : List AutoBids} {d c : AutoBids}

theorem mem_above {a : AutoBids}
    (h : a ∈ descend (l.filter (fun a => d.bidAmount < a.bidAmount))) :
    d.bidAmount < a.bidAmount := by
  have hmem := (descend_perm _).mem_iff.mp h
  simpa using (List.mem_filter.mp hmem).2

/-- The misleading order has the same rows. -/
theorem misleading_perm (hc : c ∈ l) (hlow : c.bidAmount < d.bidAmount) :
    (misleading l d c).Perm l := by
  -- the lower row is one of those up to `d`
  have hmem : c ∈ l.filter (fun a => a.bidAmount ≤ d.bidAmount) := by
    apply List.mem_filter.mpr
    exact ⟨hc, by simpa using hlow.le⟩
  have hrest := ((descend_perm _).cons c).trans (List.perm_cons_erase hmem).symm
  exact ((descend_perm _).append hrest).trans (filter_above_perm _ d.bidAmount l)

/-- The sort leaves the misleading order as it is. -/
theorem sort_misleading (hlow : c.bidAmount < d.bidAmount)
    (hnear : d.bidAmount < c.bidAmount + 1) :
    sort compareAutoBids (misleading l d c) = misleading l d c := by
  apply sort_eq_self
  apply List.isChain_append.mpr
  refine ⟨isChain_of_descending (descending_descend _), ?_, ?_⟩
  · -- the lower row stands before `d`, less than one below it
    apply isChain_cons _ (isChain_of_descending (descending_descend _))
    intro a ha
    have hmem := List.mem_of_mem_erase ((descend_perm _).mem_iff.mp ha)
    have hle : a.bidAmount ≤ d.bidAmount := by simpa using (List.mem_filter.mp hmem).2
    linarith
  · intro u hu b hb
    obtain rfl : c = b := by simpa using hb
    have habove := mem_above (List.mem_of_mem_getLast? hu)
    apply Int.not_lt.mp
    rw [compareAutoBids_pos]
    linarith

end Misleading

/-- What the recorded row and the price say about the first two of the sorted rows, when the
    increment is zero. -/
theorem HighestLeads.front {l : List AutoBids} {item : BidItem} {a0 a1 : AutoBids}
    {rest : List AutoBids} (h : HighestLeads 0 l item) (hperm : (a0 :: a1 :: rest).Perm l)
    (hrecords : Records item a0)
    (hprice : item.currentMarketPrice = some (opening 0 a0.bidAmount a1.bidAmount)) :
    (∀ a ∈ l, a.bidAmount ≤ a0.bidAmount) ∧ ∀ a ∈ rest, a.bidAmount ≤ a1.bidAmount := by
  obtain ⟨winner, second, others, hperm', hrecords', hmax, hnext, hprice'⟩ := h
  have hwinner : winner.bidAmount = a0.bidAmount :=
    Option.some.inj (hrecords'.2.1.symm.trans hrecords.2.1)
  -- without an increment the price is the second amount
  have hplain : ∀ x y : ℚ, opening 0 x y = y := by
    intro x y
    unfold opening
    split
    · rename_i heq
      exact heq.symm
    · exact add_zero y
  have hsecond : second.bidAmount = a1.bidAmount := by
    have heq := Option.some.inj (hprice'.symm.trans hprice)
    rwa [hplain, hplain] at heq
  rw [hwinner] at hmax
  refine ⟨hmax, ?_⟩
  -- the recorded row may be another one of the same amount, so the others agree in amounts only
  have hamounts := (hperm.trans hperm'.symm).map AutoBids.bidAmount
  simp only [List.map_cons, hwinner] at hamounts
  have hothers := hamounts.cons_inv
  intro a ha
  have hmem := hothers.mem_iff.mp (List.mem_cons_of_mem _ (List.mem_map_of_mem ha))
  rw [← hsecond]
  rcases List.mem_cons.mp hmem with hamount | hmem
  · exact le_of_eq hamount
  · obtain ⟨b, hb, hamount⟩ := List.mem_map.mp hmem
    rw [← hamount]
    exact hnext b hb

/-- The first two rows of an order that the sort leaves as it is are not the highest ones. -/
theorem misleading_front {l : List AutoBids} {d c a0 a1 : AutoBids} {rest : List AutoBids}
    (hd : d ∈ l) (hcount : l.countP (fun a => d.bidAmount < a.bidAmount) ≤ 1)
    (hlow : c.bidAmount < d.bidAmount) (hfront : misleading l d c = a0 :: a1 :: rest)
    (hmax : ∀ a ∈ l, a.bidAmount ≤ a0.bidAmount) :
    ∃ a ∈ rest, a1.bidAmount < a.bidAmount := by
  have hlength : (descend (l.filter (fun a => d.bidAmount < a.bidAmount))).length ≤ 1 := by
    rw [(descend_perm _).length_eq, ← List.countP_eq_length_filter]
    exact hcount
  have hlater : d ∈ descend ((l.filter (fun a => a.bidAmount ≤ d.bidAmount)).erase c) := by
    apply (descend_perm _).mem_iff.mpr
    have hne : d ≠ c := by
      rintro rfl
      exact lt_irrefl _ hlow
    apply (List.mem_erase_of_ne hne).mpr
    exact List.mem_filter.mpr ⟨hd, by simp⟩
  unfold misleading at hfront
  rcases habove : descend (l.filter (fun a => d.bidAmount < a.bidAmount)) with _ | ⟨u, _ | ⟨v, vs⟩⟩
  · -- no row is above `d`: the front row is the lower `c`
    rw [habove] at hfront
    obtain rfl : c = a0 := (List.cons.inj hfront).1
    exact absurd (hmax d hd) (not_le.mpr hlow)
  · rw [habove] at hfront
    obtain ⟨-, hrest⟩ := List.cons.inj hfront
    obtain ⟨rfl, rfl⟩ := List.cons.inj hrest
    exact ⟨d, hlater, hlow⟩
  · -- two rows above `d` are excluded by the count
    rw [habove] at hlength
    simp only [List.length_cons] at hlength
    omega

/-- **The two highest auto-bids decide, in whatever order the database returns the rows,
    exactly when the two highest amounts are each one or more above all lower ones.** Amounts
    closer than that are equal for the comparator. -/
theorem highestLeads_iff (times : ℕ → Date) {id : ℤ} {l : List AutoBids}
    (hactive : ActiveFor id l) (htwo : 2 ≤ l.length) :
    (∀ db row increment, db.bidItems id = some row → row.minBidIncrement = some increment →
      (activeAutoBids db id).Perm l →
      ∃ item db', getBidItem times db id = .ok (item, db') ∧ HighestLeads increment l item) ↔
      Clear l := by
  constructor
  · -- a row that the comparator cannot tell from `d` can be put before it
    intro h d hd hcount c hc hlow
    by_contra hnear
    have hperm := misleading_perm hc hlow
    obtain ⟨a0, a1, rest, hsort⟩ := sort_several (htwo.trans_eq hperm.length_eq.symm)
    have hfront := hsort
    rw [sort_misleading hlow (not_le.mp hnear)] at hfront
    -- an increment of zero lets the price tell the second amount
    obtain ⟨item, db', hload, hrecords, hprice⟩ := hactive.load times hperm 0 hsort
    obtain ⟨item', db'', hload', hleads⟩ := h (autoBidDb 0 0 (misleading l d c)) _ 0 rfl rfl
      (by rw [hactive.activeAutoBids hperm]; exact hperm)
    obtain ⟨rfl, rfl⟩ := Prod.mk.inj (Except.ok.inj (hload.symm.trans hload'))
    obtain ⟨hmax, hnext⟩ := hleads.front (hfront ▸ hperm) hrecords hprice
    obtain ⟨a, ha, hhigher⟩ := misleading_front hd hcount hlow hfront hmax
    exact absurd (hnext a ha) (not_le.mpr hhigher)
  · intro hclear db row increment hrow hincrement hperm
    obtain ⟨a0, a1, rest, hsort⟩ := sort_several (htwo.trans_eq hperm.length_eq.symm)
    obtain ⟨item, db', hload, hrecords, hprice⟩ :=
      getBidItem_several times hrow hincrement hsort
    obtain ⟨hmax, hnext⟩ := (hclear.perm hperm).front hsort
    have hsorted : (a0 :: a1 :: rest).Perm l := (hsort ▸ sort_perm _ _).trans hperm
    refine ⟨item, db', hload, a0, a1, rest, hsorted, hrecords, ?_, hnext, hprice⟩
    intro a ha
    exact hmax a (hperm.mem_iff.mpr ha)

/-- Auto-bids whose maxima are far enough apart: the highest one leads in every load. -/
theorem highestLeads_spacedAutoBids :
    Clear spacedAutoBids ∧ ∀ db row increment, db.bidItems 1 = some row →
      row.minBidIncrement = some increment → (activeAutoBids db 1).Perm spacedAutoBids →
      ∃ item db', getBidItem (fun _ => 0) db 1 = .ok (item, db') ∧
        HighestLeads increment spacedAutoBids item := by
  have hclear : Clear spacedAutoBids := by decide +kernel
  have hactive : ActiveFor 1 spacedAutoBids := by
    unfold ActiveFor
    decide +kernel
  exact ⟨hclear, (highestLeads_iff (fun _ => 0) hactive (by decide)).mpr hclear⟩

/-- Maxima of `100.00` and `100.50`, the lower one first. -/
def halfAutoBids : List AutoBids :=
  [⟨1, 1, 100, 0, "A", "bidder1"⟩, ⟨2, 1, 100 + 1 / 2, 0, "A", "bidder2"⟩]

/-- The lower one of these two leads, and is charged `110.50`. -/
theorem halfAutoBids_lower_leads :
    ∃ item db', getBidItem (fun _ => 0) (autoBidDb 50 10 halfAutoBids) 1 = .ok (item, db') ∧
      item.autoBidderName = some "bidder1" ∧ item.amountAutoBid = some 100 ∧
      item.currentMarketPrice = some (110 + 1 / 2) ∧ ¬ HighestLeads 10 halfAutoBids item := by
  have hvalue : (getBidItem (fun _ => 0) (autoBidDb 50 10 halfAutoBids) 1).map
      (fun out => (out.1.autoBidderName, out.1.amountAutoBid, out.1.currentMarketPrice)) =
        .ok (some "bidder1", some 100, some (110 + 1 / 2)) := by
    decide +kernel
  cases hload : getBidItem (fun _ => 0) (autoBidDb 50 10 halfAutoBids) 1 with
  | error e => simp [hload, Except.map] at hvalue
  | ok out =>
    simp only [hload, Except.map, Except.ok.injEq, Prod.mk.injEq] at hvalue
    obtain ⟨hname, hamount, hprice⟩ := hvalue
    refine ⟨out.1, out.2, rfl, hname, hamount, hprice, ?_⟩
    intro hleads
    obtain ⟨winner, second, others, -, hrecords, hmax, -⟩ := hleads
    have hwinner := Option.some.inj (hrecords.2.1.symm.trans hamount)
    -- the other row is higher by a half
    have hhigher := hmax ⟨2, 1, 100 + 1 / 2, 0, "A", "bidder2"⟩ (by decide +kernel)
    rw [hwinner] at hhigher
    exact absurd hhigher (by decide +kernel)

/-! ## Equal auto-bids -/

/-- No auto-bid of the list is higher. -/
def Highest (l : List AutoBids) (a : AutoBids) : Prop :=
  ∀ b ∈ l, b.bidAmount ≤ a.bidAmount

/-- Of the highest auto-bids of the list, the one that came first. -/
def FirstCome (l : List AutoBids) (a : AutoBids) : Prop :=
  Highest l a ∧ ∀ b ∈ l, b.bidAmount = a.bidAmount → a.bidTime ≤ b.bidTime

/-- The amounts of two sorted orders of the same rows are the same. -/
theorem amounts_sort {l l' : List AutoBids} (hwhole : ∀ a ∈ l, ∃ n : ℤ, a.bidAmount = n)
    (hperm : l'.Perm l) :
    (sort compareAutoBids l').map AutoBids.bidAmount =
      (sort compareAutoBids l).map AutoBids.bidAmount := by
  have hsorted : ∀ rows : List AutoBids, rows.Perm l →
      ((sort compareAutoBids rows).map AutoBids.bidAmount).Pairwise (fun x y => y ≤ x) := by
    intro rows hrows
    apply List.pairwise_map.mpr
    exact sort_compareAutoBids (fun a ha => hwhole a (hrows.mem_iff.mp ha))
  have hsame := ((sort_perm compareAutoBids l').trans hperm).trans
    (sort_perm compareAutoBids l).symm
  -- two descending lists of the same numbers are equal
  apply List.Perm.eq_of_pairwise _ (hsorted l' hperm) (hsorted l (List.Perm.refl l))
    (hsame.map AutoBids.bidAmount)
  intro x y _ _ hxy hyx
  exact le_antisymm hyx hxy

/-- Whichever of the highest auto-bids comes first from the database, leads. -/
theorem load_highest (times : ℕ → Date) {id : ℤ} {l : List AutoBids} (hactive : ActiveFor id l)
    (htwo : 2 ≤ l.length) {a : AutoBids} (ha : a ∈ l) (hhighest : Highest l a) :
    ∃ l' item db', l'.Perm l ∧ getBidItem times (autoBidDb 0 0 l') id = .ok (item, db') ∧
      Records item a := by
  -- the order in which the database returns this row first
  let l' := a :: descend (l.erase a)
  have hperm : l'.Perm l := ((descend_perm _).cons a).trans (List.perm_cons_erase ha).symm
  have hsort : sort compareAutoBids l' = l' := by
    apply sort_eq_self
    apply isChain_cons _ (isChain_of_descending (descending_descend _))
    intro b hb
    have hle := hhighest b (List.mem_of_mem_erase ((descend_perm _).mem_iff.mp hb))
    linarith
  obtain ⟨a0, a1, rest, hfront⟩ := sort_several (htwo.trans_eq hperm.length_eq.symm)
  obtain ⟨item, db', hload, hrecords, -⟩ := hactive.load times hperm 0 hfront
  rw [hsort] at hfront
  obtain rfl : a = a0 := (List.cons.inj hfront).1
  exact ⟨l', item, db', hperm, hload, hrecords⟩

/-- **The first of the highest auto-bids leads, and the leader and the price do not depend on
    the order of the rows, exactly when only one row has the highest amount.** The time of an
    auto-bid decides nothing. -/
theorem firstComeLeads_iff (times : ℕ → Date) {id : ℤ} {l : List AutoBids}
    (hactive : ActiveFor id l) (htwo : 2 ≤ l.length)
    (hwhole : ∀ a ∈ l, ∃ n : ℤ, a.bidAmount = n) (hids : (l.map AutoBids.autoBidId).Nodup) :
    (∀ row increment, row.minBidIncrement = some increment →
      ∃ winner ∈ l, ∃ price, FirstCome l winner ∧
        ∀ db, db.bidItems id = some row → (activeAutoBids db id).Perm l →
          ∃ item db', getBidItem times db id = .ok (item, db') ∧ Records item winner ∧
            item.currentMarketPrice = some price) ↔
      ∀ a ∈ l, ∀ b ∈ l, Highest l a → Highest l b → a = b := by
  constructor
  · intro h
    let row : BidItem := { BidItem.new with minBidPrice := some 0, minBidIncrement := some 0 }
    obtain ⟨winner, hwinner, price, -, hload⟩ := h row 0 rfl
    -- any highest row leads when it is returned first, so the winner is each of them
    have honly : ∀ a ∈ l, Highest l a → a = winner := by
      intro a ha hhighest
      obtain ⟨l', item, db', hperm, hload', hrecords⟩ :=
        load_highest times hactive htwo ha hhighest
      obtain ⟨item', db'', hload'', hrecords', -⟩ := hload (autoBidDb 0 0 l') rfl
        (by rw [hactive.activeAutoBids hperm]; exact hperm)
      obtain ⟨rfl, rfl⟩ := Prod.mk.inj (Except.ok.inj (hload'.symm.trans hload''))
      have hid := Option.some.inj (hrecords.2.2.symm.trans hrecords'.2.2)
      exact List.inj_on_of_nodup_map hids ha hwinner hid
    intro a ha b hb ha' hb'
    exact (honly a ha ha').trans (honly b hb hb').symm
  · intro hone row increment hincrement
    obtain ⟨a0, a1, rest, hsort⟩ := sort_several htwo
    obtain ⟨winner, hwinner, hhighest⟩ :=
      exists_highest (List.ne_nil_of_length_pos (Nat.lt_of_lt_of_le Nat.zero_lt_two htwo))
    refine ⟨winner, hwinner, opening increment winner.bidAmount a1.bidAmount, ⟨hhighest, ?_⟩, ?_⟩
    · intro b hb hamount
      have hb' : Highest l b := fun c hc => (hhighest c hc).trans_eq hamount.symm
      rw [hone b hb winner hwinner hb' hhighest]
    · intro db hrow hperm
      obtain ⟨b0, b1, rest', hsort'⟩ := sort_several (htwo.trans_eq hperm.length_eq.symm)
      obtain ⟨item, db', hload, hrecords, hprice⟩ :=
        getBidItem_several times hrow hincrement hsort'
      have hperm' : (b0 :: b1 :: rest').Perm l := (hsort' ▸ sort_perm _ _).trans hperm
      -- the front row is a highest one, so it is the winner; the second amount is always the same
      have hfront : Highest l b0 := by
        intro c hc
        have hsorted := sort_compareAutoBids (l := activeAutoBids db id)
          (fun a ha => hwhole a (hperm.mem_iff.mp ha))
        rw [hsort'] at hsorted
        rcases List.mem_cons.mp (hperm'.mem_iff.mpr hc) with rfl | hc
        · exact le_rfl
        · exact (List.pairwise_cons.mp hsorted).1 c hc
      have hsecond : b1.bidAmount = a1.bidAmount := by
        have hamounts := amounts_sort hwhole hperm
        rw [hsort, hsort'] at hamounts
        simp only [List.map_cons, List.cons.injEq] at hamounts
        exact hamounts.2.1
      obtain rfl := hone b0 (hperm'.mem_iff.mp List.mem_cons_self) winner hwinner hfront hhighest
      rw [hsecond] at hprice
      exact ⟨item, db', hload, hrecords, hprice⟩

theorem firstComeLeads_spacedAutoBids :
    (∀ a ∈ spacedAutoBids, ∃ n : ℤ, a.bidAmount = n) ∧
    ∀ row increment, row.minBidIncrement = some increment →
      ∃ winner ∈ spacedAutoBids, ∃ price, FirstCome spacedAutoBids winner ∧
        ∀ db, db.bidItems 1 = some row → (activeAutoBids db 1).Perm spacedAutoBids →
          ∃ item db', getBidItem (fun _ => 0) db 1 = .ok (item, db') ∧ Records item winner ∧
            item.currentMarketPrice = some price := by
  have hactive : ActiveFor 1 spacedAutoBids := by
    unfold ActiveFor
    decide +kernel
  have hwhole : ∀ a ∈ spacedAutoBids, ∃ n : ℤ, a.bidAmount = n := by
    intro a ha
    exact ⟨a.bidAmount.num, ((Rat.den_eq_one_iff _).mp
      ((by decide +kernel : ∀ a ∈ spacedAutoBids, a.bidAmount.den = 1) a ha)).symm⟩
  have hone : ∀ a ∈ spacedAutoBids, ∀ b ∈ spacedAutoBids,
      Highest spacedAutoBids a → Highest spacedAutoBids b → a = b := by
    unfold Highest
    decide +kernel
  exact ⟨hwhole, (firstComeLeads_iff (fun _ => 0) hactive (by decide) hwhole (by decide)).mpr hone⟩

/-- Two maxima of `100`, the later one first. -/
def lateAutoBids : List AutoBids :=
  [⟨2, 1, 100, 2000, "A", "bidder2"⟩, ⟨1, 1, 100, 1000, "A", "bidder1"⟩]

/-- The later one of these two leads; with the rows in the other order the earlier one does. -/
theorem lateAutoBids_later_leads :
    (∃ item db', getBidItem (fun _ => 0) (autoBidDb 0 10 lateAutoBids) 1 = .ok (item, db') ∧
      Records item ⟨2, 1, 100, 2000, "A", "bidder2"⟩) ∧
    ¬ FirstCome lateAutoBids ⟨2, 1, 100, 2000, "A", "bidder2"⟩ ∧
    ∃ item db', getBidItem (fun _ => 0) (autoBidDb 0 10 lateAutoBids.reverse) 1 =
        .ok (item, db') ∧ Records item ⟨1, 1, 100, 1000, "A", "bidder1"⟩ := by
  have hactive : ActiveFor 1 lateAutoBids := by
    unfold ActiveFor
    decide +kernel
  -- equal amounts stay in the order of the rows
  have hsort : sort compareAutoBids lateAutoBids = lateAutoBids := by decide +kernel
  have hsort' : sort compareAutoBids lateAutoBids.reverse = lateAutoBids.reverse := by
    decide +kernel
  obtain ⟨item, db', hload, hrecords, -⟩ :=
    hactive.load (fun _ => 0) (List.Perm.refl _) 10 hsort
  obtain ⟨item', db'', hload', hrecords', -⟩ :=
    hactive.load (fun _ => 0) (List.reverse_perm _) 10 hsort'
  refine ⟨⟨item, db', hload, hrecords⟩, ?_, item', db'', hload', hrecords'⟩
  intro hfirst
  have htime := hfirst.2 ⟨1, 1, 100, 1000, "A", "bidder1"⟩ (by decide +kernel) rfl
  exact absurd htime (by decide)

end CommonDao

end Bidding.Model
