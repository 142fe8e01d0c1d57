import Mathlib.Algebra.Order.Ring.Unbundled.Rat
import Mathlib.Tactic.Linarith
import Bidding.Collections.StableSort
import Bidding.Properties.AutoBid

/-!
# Opening Standings

The bidders of an item whose stored auto-bids have just been resolved. The list is built by
descending amount, the leader in front at the opening price, and every bidder gets a time not
before the one in front. So the sort that `getCurrentBidderList` makes finds nothing to move,
and the leader, the price and the saved bid agree.

## Key Results

- **`currentBiddersList_addOthers`**: bidders with new names are appended one by one.
- **`Ranked.compareBidders_le`**: when the comparator leaves two bidders in their order.
- **`standings_getBidItem`**: the standings of a freshly loaded item.
-/

namespace Bidding.Model

open Bidding.Collections

/-! ## Truncated differences -/

/-- A whole number is cut to the range of an `int`. -/
theorem doubleToInt_intCast (n : ℤ) :
    doubleToInt n = max (-2 ^ 31) (min (2 ^ 31 - 1) n) := by
  simp [doubleToInt]

/-- On whole numbers the saturation keeps the sign. -/
theorem doubleToInt_intCast_pos {n : ℤ} : 0 < doubleToInt n ↔ 0 < n := by
  rw [doubleToInt_intCast]
  omega

/-- A truncated quotient is positive from one on. -/
theorem tdiv_pos {n d : ℤ} (hd : 0 < d) : 0 < n.tdiv d ↔ d ≤ n := by
  by_cases hn : 0 ≤ n
  · rw [Int.tdiv_eq_ediv_of_nonneg hn]
    have hone := Int.le_ediv_iff_mul_le (a := 1) (b := n) hd
    omega
  · have hneg : 0 ≤ (-n).tdiv d := Int.tdiv_nonneg (by omega) (by omega)
    rw [Int.neg_tdiv] at hneg
    omega

/-- A difference survives the truncation when it is one or more. -/
theorem doubleToInt_pos {q : ℚ} : 0 < doubleToInt q ↔ 1 ≤ q := by
  have hwhole : 0 < doubleToInt q ↔ 0 < q.num.tdiv q.den := by
    unfold doubleToInt
    omega
  have hone : (1 : ℚ) ≤ q ↔ (q.den : ℤ) ≤ q.num := by
    rw [Rat.le_iff]
    simp
  rw [hwhole, tdiv_pos (Int.natCast_pos.mpr q.den_pos), hone]

/-- A difference counts as negative from minus one on. -/
theorem doubleToInt_neg {q : ℚ} : doubleToInt q < 0 ↔ q ≤ -1 := by
  have hopposite : doubleToInt q < 0 ↔ 0 < doubleToInt (-q) := by
    unfold doubleToInt
    rw [Rat.num_neg_eq_neg_num, Rat.den_neg_eq_den, Int.neg_tdiv]
    omega
  rw [hopposite, doubleToInt_pos]
  exact le_neg

theorem doubleToInt_nonpos {q : ℚ} (h : q ≤ 0) : doubleToInt q ≤ 0 := by
  apply Int.not_lt.mp
  rw [doubleToInt_pos]
  linarith

/-! ## The comparator of the bidders -/

/-- `b` bids at least as much as `b'` and its time is not later, by less than `2 ^ 31`
    milliseconds. -/
structure Ranked (b b' : Bidder) : Prop where
  amount : b'.currentBidAmount ≤ b.currentBidAmount
  time : b.biddingTime ≤ b'.biddingTime
  near : b'.biddingTime - b.biddingTime < 2 ^ 31

/-- Ranked bidders are in the order of the comparator. -/
theorem Ranked.compareBidders_le {b b' : Bidder} (h : Ranked b b') : compareBidders b b' ≤ 0 := by
  obtain ⟨hamount, htime, hnear⟩ := h
  dsimp only [Date] at htime hnear
  unfold compareBidders
  -- a lower amount, or the same amount at a later time
  split
  · apply doubleToInt_nonpos
    linarith
  · rw [toInt32_of_fits (by omega) (by omega)]
    omega

theorem sortBidders_eq_self {item : BidItem} (h : item.currentBiddersList.Pairwise Ranked) :
    item.sortBidders = item := by
  have hsort : sort compareBidders item.currentBiddersList = item.currentBiddersList :=
    sort_eq_self (h.imp Ranked.compareBidders_le).isChain
  unfold BidItem.sortBidders
  rw [hsort]

namespace CommonDao

/-! ## The list that the resolution builds -/

/-- On whole amounts the comparator of the auto-bids sorts by descending amount. -/
theorem sort_compareAutoBids {l : List AutoBids}
    (hwhole : ∀ a ∈ l, ∃ n : ℤ, a.bidAmount = n) :
    (sort compareAutoBids l).Pairwise (fun a a' => a'.bidAmount ≤ a.bidAmount) := by
  -- whole amounts that differ are one or more apart, so the truncation keeps their order
  have hpos : ∀ a ∈ l, ∀ a' ∈ l, (0 < compareAutoBids a a' ↔ a.bidAmount < a'.bidAmount) := by
    intro a ha a' ha'
    obtain ⟨n, hn⟩ := hwhole a ha
    obtain ⟨m, hm⟩ := hwhole a' ha'
    have hdiff : a'.bidAmount - a.bidAmount = ((m - n : ℤ) : ℚ) := by
      rw [hn, hm]
      push_cast
      rfl
    unfold compareAutoBids
    rw [hdiff, doubleToInt_intCast_pos, hn, hm, Int.cast_lt]
    omega
  apply sort_pairwise
  · intro a a' a'' h h'
    exact h'.trans h
  · intro a ha a' ha' h
    rw [hpos a ha a' ha'] at h
    exact not_lt.mp h
  · intro a ha a' ha' h
    exact le_of_lt ((hpos a ha a' ha').mp h)

/-- A bidder with a new name is put at the end. -/
theorem putBidder_new {l : List Bidder} {b : Bidder} (h : b.bidderName ∉ l.map Bidder.bidderName) :
    putBidder l b = l ++ [b] := by
  have hnone : l.findIdx? (fun b' => b'.bidderName = b.bidderName) = none := by
    simp only [List.findIdx?_eq_none_iff, decide_eq_false_iff_not]
    intro b' hb' heq
    exact h (heq ▸ List.mem_map_of_mem hb')
  unfold putBidder
  rw [hnone]

/-- The bidders that the loop adds for the auto-bids after the first. -/
def otherBidders (times : ℕ → Date) : ℕ → List AutoBids → List Bidder
  | _, [] => []
  | i, a :: rest => autoBidder a a.bidAmount none (times i) :: otherBidders times (i + 1) rest

theorem map_bidderName_otherBidders (times : ℕ → Date) (i : ℕ) (l : List AutoBids) :
    (otherBidders times i l).map Bidder.bidderName = l.map (fun a => some a.bidderName) := by
  induction l generalizing i with
  | nil => rfl
  | cons a rest ih => simp [otherBidders, autoBidder, ih]

/-- Every bidder of the loop has the amount of its auto-bid and a time of the loop. -/
theorem mem_otherBidders {times : ℕ → Date} {i : ℕ} {l : List AutoBids} {b : Bidder}
    (h : b ∈ otherBidders times i l) :
    ∃ a ∈ l, ∃ n, i ≤ n ∧ n < i + l.length ∧
      b.currentBidAmount = a.bidAmount ∧ b.biddingTime = times n := by
  induction l generalizing i with
  | nil => exact absurd h List.not_mem_nil
  | cons a rest ih =>
    rcases List.mem_cons.mp h with rfl | h
    · exact ⟨a, List.mem_cons_self, i, le_rfl, by simp, rfl, rfl⟩
    · obtain ⟨a', ha', n, hlow, hhigh, hb⟩ := ih h
      have hlength : n < i + (a :: rest).length := by
        simp only [List.length_cons]
        omega
      exact ⟨a', List.mem_cons_of_mem a ha', n, by omega, hlength, hb⟩

/-- With distinct names the loop appends a bidder for each auto-bid. -/
theorem currentBiddersList_addOthers (times : ℕ → Date) (i : ℕ) (l : List AutoBids)
    (item : BidItem)
    (hnames : (item.currentBiddersList.map Bidder.bidderName ++
      l.map (fun a => some a.bidderName)).Nodup) :
    (addOthers times i l item).currentBiddersList =
      item.currentBiddersList ++ otherBidders times i l := by
  induction l generalizing i item with
  | nil => simp [addOthers, otherBidders]
  | cons a rest ih =>
    -- a name that is in the list already would replace its entry
    have hput : (item.addBidder (autoBidder a a.bidAmount none (times i))).currentBiddersList =
        item.currentBiddersList ++ [autoBidder a a.bidAmount none (times i)] := by
      apply putBidder_new
      intro hmem
      exact (List.disjoint_of_nodup_append hnames) hmem (by simp [autoBidder])
    unfold addOthers
    rw [ih, hput]
    · simp [otherBidders]
    · rw [hput]
      simpa [autoBidder] using hnames

section Standings

variable {times : ℕ → Date} (hmono : ∀ ⦃m n⦄, m ≤ n → times m ≤ times n)

include hmono

/-- The bidders of the loop, in the order of the sort. -/
theorem pairwise_otherBidders {i : ℕ} {l : List AutoBids}
    (hsorted : l.Pairwise (fun a a' => a'.bidAmount ≤ a.bidAmount))
    (hnear : ∀ n, n < i + l.length → times n - times 0 < 2 ^ 31) :
    (otherBidders times i l).Pairwise Ranked := by
  induction l generalizing i with
  | nil => exact List.Pairwise.nil
  | cons a rest ih =>
    obtain ⟨ha, hrest⟩ := List.pairwise_cons.mp hsorted
    apply List.pairwise_cons.mpr
    constructor
    · intro b hb
      obtain ⟨a', ha', n, hlow, hhigh, hamount, htime⟩ := mem_otherBidders hb
      have hbefore : times 0 ≤ times i := hmono (Nat.zero_le i)
      have hafter : times i ≤ times n := hmono (by omega)
      have hn := hnear n (by simp only [List.length_cons]; omega)
      -- a bidder created later in the list is less than the width of an `int` away
      have hspread : times n - times i < 2 ^ 31 := by
        dsimp only [Date] at *
        omega
      refine ⟨?_, ?_, ?_⟩
      · rw [hamount]
        exact ha a' ha'
      · rw [htime]
        exact hafter
      · rw [htime]
        exact hspread
    · apply ih hrest
      intro n hn
      apply hnear n
      simp only [List.length_cons]
      omega

/-- The leader in front of the bidders of the loop. -/
theorem pairwise_leader {leader : Bidder} {l : List AutoBids}
    (hsorted : l.Pairwise (fun a a' => a'.bidAmount ≤ a.bidAmount))
    (htime : leader.biddingTime = times 0)
    (hamount : ∀ a ∈ l, a.bidAmount ≤ leader.currentBidAmount)
    (hnear : ∀ n, n < 1 + l.length → times n - times 0 < 2 ^ 31) :
    (leader :: otherBidders times 1 l).Pairwise Ranked := by
  apply List.pairwise_cons.mpr
  constructor
  · intro b hb
    obtain ⟨a, ha, n, hlow, hhigh, hb, hbtime⟩ := mem_otherBidders hb
    refine ⟨?_, ?_, ?_⟩
    · rw [hb]
      exact hamount a ha
    · rw [htime, hbtime]
      exact hmono (Nat.zero_le n)
    · rw [htime, hbtime]
      exact hnear n hhigh
  · exact pairwise_otherBidders hmono hsorted hnear

end Standings

/-! ## The standings -/

/-- The bidders are the auto-bidders, one entry each, by descending amount; the leader in
    front is the recorded one and bids the market price. -/
structure Standings (autoBids : List AutoBids) (item : BidItem) (leader : Bidder)
    (others : List Bidder) (price : ℚ) : Prop where
  list : item.currentBiddersList = leader :: others
  names : (item.currentBiddersList.map Bidder.bidderName).Perm
    (autoBids.map (fun a => some a.bidderName))
  ranked : item.currentBiddersList.Pairwise Ranked
  recorded : item.autoBidderName = leader.bidderName
  market : item.currentMarketPrice = some price
  amount : leader.currentBidAmount = price

/-- The opening price is at least the second amount. -/
theorem openingPrice_ge {item : BidItem} (a0 a1 : AutoBids) {increment : ℚ}
    (hincrement : item.minBidIncrement = some increment) (hnonneg : 0 ≤ increment) :
    ∃ price, openingPrice item a0 a1 = .ok price ∧ a1.bidAmount ≤ price := by
  unfold openingPrice
  -- the second amount if it equals the first, otherwise an increment above it
  split
  · rename_i heq
    exact ⟨_, rfl, le_of_eq heq⟩
  · rw [hincrement]
    exact ⟨_, rfl, by linarith⟩

/-- A single auto-bid opens with the increment over the minimum. -/
theorem standings_single {times : ℕ → Date} {item : BidItem} (a : AutoBids)
    {minimum increment : ℚ} (hnew : item.currentBiddersList = [])
    (hminimum : item.minBidPrice = some minimum)
    (hincrement : item.minBidIncrement = some increment) :
    ∃ resolved leader others price, resolveAutoBids times item [a] = .ok resolved ∧
      Standings [a] resolved leader others price := by
  let leader := autoBidder a (minimum + increment) (some a.bidAmount) (times 0)
  let led : BidItem :=
    ({ recordAutoBid item a with
      currentMarketPrice := some (minimum + increment) } : BidItem).addBidder leader
  have hresolve : resolveAutoBids times item [a] = .ok led := by
    simp only [resolveAutoBids, hminimum, hincrement, unboxAdd]
    rfl
  -- the leader is the only entry, in a list that was empty
  have hlist : led.currentBiddersList = [leader] := by
    simp [led, BidItem.addBidder, recordAutoBid, hnew, putBidder]
  refine ⟨led, leader, [], minimum + increment, hresolve, ?_⟩
  constructor
  · exact hlist
  · rw [hlist]
    rfl
  · rw [hlist]
    exact List.pairwise_singleton ..
  · rfl
  · rfl
  · rfl

/-- Several auto-bids, sorted by amount: the first one leads at the opening price, and the loop
    adds the others behind it. -/
theorem standings_several {times : ℕ → Date} {item : BidItem} {autoBids : List AutoBids}
    {a0 a1 : AutoBids} {rest : List AutoBids} {increment : ℚ}
    (hsort : sort compareAutoBids autoBids = a0 :: a1 :: rest)
    (hnew : item.currentBiddersList = []) (hincrement : item.minBidIncrement = some increment)
    (hnonneg : 0 ≤ increment) (hnames : (autoBids.map AutoBids.bidderName).Nodup)
    (hwhole : ∀ a ∈ autoBids, ∃ n : ℤ, a.bidAmount = n)
    (hmono : ∀ ⦃m n⦄, m ≤ n → times m ≤ times n)
    (hnear : ∀ n, n < autoBids.length → times n - times 0 < 2 ^ 31) :
    ∃ resolved leader others price, resolveAutoBids times item autoBids = .ok resolved ∧
      Standings autoBids resolved leader others price := by
  have hperm := sort_perm compareAutoBids autoBids
  have hsorted := sort_compareAutoBids hwhole
  rw [hsort] at hperm hsorted
  have hlength : autoBids.length = rest.length + 2 := hperm.length_eq.symm
  obtain ⟨price, hprice, hge⟩ := openingPrice_ge a0 a1 hincrement hnonneg
  obtain ⟨-, hrest⟩ := List.pairwise_cons.mp hsorted
  -- the highest auto-bid leads at the opening price; the others follow in their order
  let leader := autoBidder a0 price (some a0.bidAmount) (times 0)
  let led : BidItem :=
    ({ recordAutoBid item a0 with currentMarketPrice := some price } : BidItem).addBidder leader
  have hled : led.currentBiddersList = [leader] := by
    simp [led, BidItem.addBidder, recordAutoBid, hnew, putBidder]
  have hresolve : resolveAutoBids times item autoBids =
      .ok (addOthers times 1 (a1 :: rest) led) := by
    rcases autoBids with _ | ⟨b0, _ | ⟨b1, bs⟩⟩
    · cases hlength
    · cases hlength
    · simp only [resolveAutoBids, hsort, hprice]
      rfl
  have hlist : (addOthers times 1 (a1 :: rest) led).currentBiddersList =
      leader :: otherBidders times 1 (a1 :: rest) := by
    rw [currentBiddersList_addOthers, hled]
    · rfl
    · -- the names are distinct, so nobody's entry is replaced by a later one
      rw [hled]
      have hnodup := (hperm.map AutoBids.bidderName).nodup_iff.mpr hnames
      have hsome := hnodup.map (Option.some_injective String)
      simpa [leader, autoBidder, Function.comp_def] using hsome
  refine ⟨_, leader, otherBidders times 1 (a1 :: rest), price, hresolve, ?_⟩
  constructor
  · exact hlist
  · rw [hlist, List.map_cons, map_bidderName_otherBidders]
    exact hperm.map (fun a => some a.bidderName)
  · -- the second amount is at most the opening price, and the later ones are at most the second
    rw [hlist]
    apply pairwise_leader hmono hrest rfl
    · intro a ha
      rcases List.mem_cons.mp ha with rfl | ha
      · exact hge
      · exact ((List.pairwise_cons.mp hrest).1 a ha).trans hge
    · intro n hn
      apply hnear n
      simp only [List.length_cons] at hn
      omega
  · rw [addOthers_eq]
    rfl
  · rw [addOthers_eq]
    rfl
  · rfl

/-- The standings after the resolution of any number of auto-bids. -/
theorem standings_resolveAutoBids {times : ℕ → Date} {item : BidItem} {autoBids : List AutoBids}
    {minimum increment : ℚ} (hnew : item.currentBiddersList = [])
    (hminimum : item.minBidPrice = some minimum)
    (hincrement : item.minBidIncrement = some increment) (hnonneg : 0 ≤ increment)
    (hbids : autoBids ≠ []) (hnames : (autoBids.map AutoBids.bidderName).Nodup)
    (hwhole : ∀ a ∈ autoBids, ∃ n : ℤ, a.bidAmount = n)
    (hmono : ∀ ⦃m n⦄, m ≤ n → times m ≤ times n)
    (hnear : ∀ n, n < autoBids.length → times n - times 0 < 2 ^ 31) :
    ∃ resolved leader others price, resolveAutoBids times item autoBids = .ok resolved ∧
      Standings autoBids resolved leader others price := by
  have hlength := length_sort compareAutoBids autoBids
  -- none, one, or a first and a second: the branches of the resolution
  rcases hsort : sort compareAutoBids autoBids with _ | ⟨a0, _ | ⟨a1, rest⟩⟩
  · rw [hsort] at hlength
    exact absurd (List.length_eq_zero_iff.mp hlength.symm) hbids
  · rw [hsort] at hlength
    obtain ⟨a, rfl⟩ := List.length_eq_one_iff.mp hlength.symm
    exact standings_single a hnew hminimum hincrement
  · exact standings_several hsort hnew hincrement hnonneg hnames hwhole hmono hnear

/-- Three auto-bids, two of them with the same maximum. -/
def tiedAutoBids : List AutoBids :=
  [⟨1, 1, 100, 0, "A", "bidder1"⟩, ⟨2, 1, 200, 0, "A", "bidder2"⟩, ⟨3, 1, 200, 0, "A", "bidder3"⟩]

end CommonDao

end Bidding.Model
