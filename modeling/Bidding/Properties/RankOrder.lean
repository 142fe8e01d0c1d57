import Bidding.Collections.Comparator
import Bidding.Properties.LivePush

/-!
# The Order of the Ranks

The two comparators by which bidders are ranked narrow the difference of two amounts, and of
two times, to a 32-bit number. Amounts less than one apart then compare equal, and times `2 ^ 31`
milliseconds or more apart can compare the wrong way round. On a range of amounts and times in
which neither happens both comparators are lawful and rank a higher amount, and an earlier bid
of the same amount and kind, first; on every other range both fail.

## Key Results

- **`orders_iff`**: the ranges of amounts and times on which the comparators order the bidders.
-/

namespace Bidding.Model

open Bidding.Collections CometPusher

/-! ## Narrowed differences -/

theorem toInt32_pos {n : ℤ} : 0 < toInt32 n ↔ 0 < n % 2 ^ 32 ∧ n % 2 ^ 32 < 2 ^ 31 := by
  unfold toInt32
  rw [Int.bmod_def]
  split <;> omega

theorem toInt32_neg {n : ℤ} : toInt32 n < 0 ↔ 2 ^ 31 ≤ n % 2 ^ 32 := by
  unfold toInt32
  rw [Int.bmod_def]
  split <;> omega

/-- The narrowing keeps the order of two amounts and times: a higher amount is higher by one or
    more, and of equal amounts a later time is later by less than `2 ^ 31` milliseconds, up to
    multiples of `2 ^ 32`. -/
structure KeepsOrder (p p' : ℚ × Date) : Prop where
  amount : p.1 < p'.1 → p.1 + 1 ≤ p'.1
  time : p.1 = p'.1 → p.2 < p'.2 → 0 < (p'.2 - p.2) % 2 ^ 32 ∧ (p'.2 - p.2) % 2 ^ 32 < 2 ^ 31

/-- The narrowing keeps the order within a range of amounts and times. -/
def Spaced (S : Set (ℚ × Date)) : Prop :=
  ∀ p ∈ S, ∀ p' ∈ S, KeepsOrder p p'

/-- Amounts one or more apart are ordered by their truncated difference. -/
theorem KeepsOrder.amount_neg {p p' : ℚ × Date} (h : KeepsOrder p' p) :
    doubleToInt (p'.1 - p.1) < 0 ↔ p'.1 < p.1 := by
  rw [doubleToInt_neg]
  constructor
  · intro hle
    linarith
  · intro hlt
    have hone := h.amount hlt
    linarith

theorem KeepsOrder.amount_pos {p p' : ℚ × Date} (h : KeepsOrder p p') :
    0 < doubleToInt (p'.1 - p.1) ↔ p.1 < p'.1 := by
  rw [doubleToInt_pos]
  constructor
  · intro hle
    linarith
  · intro hlt
    have hone := h.amount hlt
    linarith

/-- Times less than `2 ^ 31` apart are ordered by their narrowed difference. -/
theorem KeepsOrder.time_neg {p p' : ℚ × Date} (h : KeepsOrder p p') (h' : KeepsOrder p' p)
    (hamount : p.1 = p'.1) : toInt32 (p.2 - p'.2) < 0 ↔ p.2 < p'.2 := by
  have hlater := h.time hamount
  have hearlier := h'.time hamount.symm
  rw [toInt32_neg]
  dsimp only [Date] at *
  omega

theorem KeepsOrder.time_pos {p p' : ℚ × Date} (h : KeepsOrder p p') (h' : KeepsOrder p' p)
    (hamount : p.1 = p'.1) : 0 < toInt32 (p.2 - p'.2) ↔ p'.2 < p.2 := by
  have hlater := h.time hamount
  have hearlier := h'.time hamount.symm
  rw [toInt32_pos]
  dsimp only [Date] at *
  omega

/-! ## Bidders in the order of their ranks -/

/-- The amount and the time of a bidder. -/
def standing (b : Bidder) : ℚ × Date := (b.currentBidAmount, b.biddingTime)

/-- The comparator is lawful on the bidders within a range, and finds a bidder with a higher
    amount, and one with the same amount and kind of bid and an earlier time, less. -/
structure Orders (cmp : Bidder → Bidder → ℤ) (S : Set (ℚ × Date)) : Prop where
  lawful : Lawful cmp (fun b => standing b ∈ S)
  amount : ∀ x y, standing x ∈ S → standing y ∈ S → y.currentBidAmount < x.currentBidAmount →
    cmp x y < 0
  time : ∀ x y, standing x ∈ S → standing y ∈ S → x.currentBidAmount = y.currentBidAmount →
    x.isAutoBid = y.isAutoBid → x.biddingTime < y.biddingTime → cmp x y < 0

/-- The order that a comparator goes by: amount, then the place of the kind of bid, then time. -/
def RanksBefore (kind : Bool → ℕ) (x y : Bidder) : Prop :=
  y.currentBidAmount < x.currentBidAmount ∨
    x.currentBidAmount = y.currentBidAmount ∧
      (kind x.isAutoBid < kind y.isAutoBid ∨
        kind x.isAutoBid = kind y.isAutoBid ∧ x.biddingTime < y.biddingTime)

theorem RanksBefore.trans {kind : Bool → ℕ} {x y z : Bidder} (h : RanksBefore kind x y)
    (h' : RanksBefore kind y z) : RanksBefore kind x z := by
  unfold RanksBefore at *
  grind

theorem RanksBefore.split {kind : Bool → ℕ} {x z : Bidder} (y : Bidder) (h : RanksBefore kind x z) :
    RanksBefore kind x y ∨ RanksBefore kind y z := by
  unfold RanksBefore at *
  grind

/-- A comparator that goes by the amount first orders the bidders of a range if it tells their
    kinds and times apart where the amounts are equal. -/
theorem orders_of_before {cmp : Bidder → Bidder → ℤ} {S : Set (ℚ × Date)} (kind : Bool → ℕ)
    (hneg : ∀ x y, standing x ∈ S → standing y ∈ S → (cmp x y < 0 ↔ RanksBefore kind x y))
    (hpos : ∀ x y, standing x ∈ S → standing y ∈ S → (0 < cmp x y ↔ RanksBefore kind y x)) :
    Orders cmp S := by
  constructor
  · exact Lawful.of_before hneg hpos (fun _ _ _ => RanksBefore.trans)
      (fun _ y _ => RanksBefore.split y)
  · intro x y hx hy hamount
    exact (hneg x y hx hy).mpr (.inl hamount)
  · intro x y hx hy hamount hkind htime
    exact (hneg x y hx hy).mpr (.inr ⟨hamount, .inr ⟨congrArg kind hkind, htime⟩⟩)

/-! ## The two comparators -/

section Comparators

variable {x y : Bidder} (h : KeepsOrder (standing x) (standing y))
  (h' : KeepsOrder (standing y) (standing x))

include h h'

/-- The comparator ranks by amount and time where the narrowing keeps the order. -/
theorem compareBidders_neg : compareBidders x y < 0 ↔ RanksBefore (fun _ => 0) x y := by
  unfold compareBidders RanksBefore
  -- the times are only compared if the amounts are the same
  split
  · rename_i hne
    have hamount := h'.amount_neg
    simp only [standing] at hamount
    rw [hamount]
    simp [hne.symm]
  · rename_i heq
    have heq : x.currentBidAmount = y.currentBidAmount := (not_not.mp heq).symm
    have htime := h.time_neg h' heq
    simp only [standing] at htime
    rw [htime]
    simp [heq]

theorem compareBidders_pos : 0 < compareBidders x y ↔ RanksBefore (fun _ => 0) y x := by
  unfold compareBidders RanksBefore
  split
  · rename_i hne
    have hamount := h.amount_pos
    simp only [standing] at hamount
    rw [hamount]
    simp [hne]
  · rename_i heq
    have heq : y.currentBidAmount = x.currentBidAmount := not_not.mp heq
    have htime := h.time_pos h' heq.symm
    simp only [standing] at htime
    rw [htime]
    simp [heq]

end Comparators

/-- Automatic bids before manual ones. -/
def autoFirst (isAutoBid : Bool) : ℕ := if isAutoBid then 0 else 1

/-- On bids of the same kind the second comparator is the first one. -/
theorem compareBiddersExt_eq {x y : Bidder} (h : x.currentBidAmount = y.currentBidAmount →
    x.isAutoBid = y.isAutoBid) : compareBiddersExt x y = compareBidders x y := by
  unfold compareBiddersExt compareBidders
  by_cases hamount : y.currentBidAmount = x.currentBidAmount
  · simp [hamount, h hamount.symm]
  · simp [hamount]

theorem before_eq {x y : Bidder} (h : x.currentBidAmount = y.currentBidAmount →
    x.isAutoBid = y.isAutoBid) : RanksBefore autoFirst x y ↔ RanksBefore (fun _ => 0) x y := by
  unfold RanksBefore
  by_cases hamount : x.currentBidAmount = y.currentBidAmount
  · simp [hamount, h hamount]
  · simp [hamount]

/-- On an automatic and a manual bid of the same amount it answers ten, with the sign of their
    places. -/
theorem compareBiddersExt_kinds {x y : Bidder} (hamount : x.currentBidAmount = y.currentBidAmount)
    (hkind : x.isAutoBid ≠ y.isAutoBid) :
    (compareBiddersExt x y < 0 ↔ RanksBefore autoFirst x y) ∧
      (0 < compareBiddersExt x y ↔ RanksBefore autoFirst y x) := by
  unfold compareBiddersExt RanksBefore autoFirst
  cases hx : x.isAutoBid <;> cases hy : y.isAutoBid <;> simp_all

section Comparators

variable {x y : Bidder} (h : KeepsOrder (standing x) (standing y))
  (h' : KeepsOrder (standing y) (standing x))

include h h'

/-- The other comparator puts auto-bids first among bids of the same amount. -/
theorem compareBiddersExt_neg : compareBiddersExt x y < 0 ↔ RanksBefore autoFirst x y := by
  -- the two comparators differ on bids of the same amount and different kinds only
  by_cases hkind : x.currentBidAmount = y.currentBidAmount → x.isAutoBid = y.isAutoBid
  · rw [compareBiddersExt_eq hkind, before_eq hkind]
    exact compareBidders_neg h h'
  · obtain ⟨hamount, hne⟩ := Classical.not_imp.mp hkind
    exact (compareBiddersExt_kinds hamount hne).1

theorem compareBiddersExt_pos : 0 < compareBiddersExt x y ↔ RanksBefore autoFirst y x := by
  by_cases hkind : x.currentBidAmount = y.currentBidAmount → x.isAutoBid = y.isAutoBid
  · rw [compareBiddersExt_eq hkind, before_eq (fun hamount => (hkind hamount.symm).symm)]
    exact compareBidders_pos h h'
  · obtain ⟨hamount, hne⟩ := Classical.not_imp.mp hkind
    exact (compareBiddersExt_kinds hamount hne).2

end Comparators

/-! ## Where the comparators order the bidders -/

/-- A bidder with a given amount and time. -/
def bidderAt (p : ℚ × Date) : Bidder where
  bidderName := none
  currentBidAmount := p.1
  isAutoBid := false
  biddingTime := p.2
  autoBidMaxAnount := none

@[simp] theorem standing_bidderAt (p : ℚ × Date) : standing (bidderAt p) = p := rfl

theorem compareBidders_bidderAt (p p' : ℚ × Date) :
    compareBidders (bidderAt p) (bidderAt p') =
      if p'.1 ≠ p.1 then doubleToInt (p'.1 - p.1) else toInt32 (p.2 - p'.2) := rfl

/-- A comparator that goes by amount and time on bids of the same kind can order the bidders of
    a range only if the narrowing keeps the order there. -/
theorem spaced_of_orders {cmp : Bidder → Bidder → ℤ} {S : Set (ℚ × Date)}
    (hcmp : ∀ x y, x.isAutoBid = y.isAutoBid → cmp x y = compareBidders x y)
    (h : Orders cmp S) : Spaced S := by
  intro p hp p' hp'
  constructor
  · intro hlt
    -- two bidders at the two standings, of the same kind
    have hless := h.amount (bidderAt p') (bidderAt p) hp' hp hlt
    rw [hcmp (bidderAt p') (bidderAt p) rfl, compareBidders_bidderAt, if_pos (ne_of_lt hlt),
      doubleToInt_neg] at hless
    linarith
  · intro hamount hlt
    have hless := h.time (bidderAt p) (bidderAt p') hp hp' hamount rfl hlt
    -- the swapped comparison has the other sign, which rules out the value `-2 ^ 31`
    have hgreater : 0 < cmp (bidderAt p') (bidderAt p) := by
      apply h.lawful.pos_of_neg _ _ hless
      · simpa using hp
      · simpa using hp'
    rw [hcmp (bidderAt p') (bidderAt p) rfl, compareBidders_bidderAt,
      if_neg (not_not.mpr hamount), toInt32_pos] at hgreater
    exact hgreater

/-- **Both comparators are lawful, and rank a higher amount and an earlier bid of the same amount
    and kind first, exactly on the ranges of amounts and times within which different amounts
    are one or more apart and different times of bids of the same amount are less than
    `2 ^ 31` milliseconds apart, up to multiples of `2 ^ 32`.** -/
theorem orders_iff (S : Set (ℚ × Date)) :
    (Orders compareBidders S ↔ Spaced S) ∧ (Orders compareBiddersExt S ↔ Spaced S) := by
  constructor
  · constructor
    · exact spaced_of_orders (fun _ _ _ => rfl)
    · intro h
      apply orders_of_before (fun _ => 0)
      · exact fun x y hx hy => compareBidders_neg (h _ hx _ hy) (h _ hy _ hx)
      · exact fun x y hx hy => compareBidders_pos (h _ hx _ hy) (h _ hy _ hx)
  · constructor
    · exact spaced_of_orders (fun x y hkind => compareBiddersExt_eq (fun _ => hkind))
    · intro h
      apply orders_of_before autoFirst
      · exact fun x y hx hy => compareBiddersExt_neg (h _ hx _ hy) (h _ hy _ hx)
      · exact fun x y hx hy => compareBiddersExt_pos (h _ hx _ hy) (h _ hy _ hx)

/-- Amounts of `2`, `1.5` and `1` at the same time: the middle one compares equal to both, and
    the first less than the last. And of two bids of the same amount, `2 ^ 31` milliseconds
    apart, each compares less than the other. -/
theorem orders_violated :
    (∀ cmp ∈ [compareBidders, compareBiddersExt],
      cmp (bidderAt (2, 0)) (bidderAt (3 / 2, 0)) = 0 ∧
      cmp (bidderAt (3 / 2, 0)) (bidderAt (1, 0)) = 0 ∧
      cmp (bidderAt (2, 0)) (bidderAt (1, 0)) < 0 ∧
      cmp (bidderAt (1, 0)) (bidderAt (1, 2 ^ 31)) < 0 ∧
      cmp (bidderAt (1, 2 ^ 31)) (bidderAt (1, 0)) < 0) ∧
    ¬ Orders compareBidders Set.univ ∧ ¬ Orders compareBiddersExt Set.univ := by
  have hvalues : ∀ cmp ∈ [compareBidders, compareBiddersExt],
      cmp (bidderAt (2, 0)) (bidderAt (3 / 2, 0)) = 0 ∧
      cmp (bidderAt (3 / 2, 0)) (bidderAt (1, 0)) = 0 ∧
      cmp (bidderAt (2, 0)) (bidderAt (1, 0)) < 0 ∧
      cmp (bidderAt (1, 0)) (bidderAt (1, 2 ^ 31)) < 0 ∧
      cmp (bidderAt (1, 2 ^ 31)) (bidderAt (1, 0)) < 0 := by
    decide +kernel
  have hnot : ∀ cmp ∈ [compareBidders, compareBiddersExt], ¬ Orders cmp Set.univ := by
    intro cmp hcmp h
    have hless := h.amount (bidderAt (2, 0)) (bidderAt (3 / 2, 0)) trivial trivial
      (by decide +kernel)
    -- the lower amount should compare greater, not equal
    have hequal := (hvalues cmp hcmp).1
    omega
  exact ⟨hvalues, hnot _ (by simp), hnot _ (by simp)⟩

end Bidding.Model
