import Mathlib.Data.Int.Notation

/-!
# Lawful Comparators

The contract of a comparator that answers a signed number: swapping the arguments turns the
sign, "greater" is transitive, and elements that compare equal compare alike with every other
one. A comparator whose sign reflects a strict weak order keeps the contract.
-/

namespace Bidding.Collections

variable {α : Type}

/-- The contract of a comparator, on the elements that satisfy `P`. -/
structure Lawful (cmp : α → α → ℤ) (P : α → Prop) : Prop where
  swap : ∀ x y, P x → P y → (cmp x y).sign = -(cmp y x).sign
  trans : ∀ x y z, P x → P y → P z → 0 < cmp x y → 0 < cmp y z → 0 < cmp x z
  congr : ∀ x y z, P x → P y → P z → cmp x y = 0 → (cmp x z).sign = (cmp y z).sign

theorem sign_eq_iff {m n : ℤ} : m.sign = n.sign ↔ ((m < 0 ↔ n < 0) ∧ (0 < m ↔ 0 < n)) := by
  rcases Int.lt_trichotomy m 0 with hm | rfl | hm <;>
    rcases Int.lt_trichotomy n 0 with hn | rfl | hn <;>
    simp [Int.sign_eq_one_of_pos, Int.sign_eq_neg_one_of_neg, *] <;> omega

/-- Greater one way is less the other way. -/
theorem Lawful.pos_of_neg {cmp : α → α → ℤ} {P : α → Prop} (h : Lawful cmp P) {x y : α}
    (hx : P x) (hy : P y) (hneg : cmp x y < 0) : 0 < cmp y x := by
  have hswap := h.swap x y hx hy
  rw [Int.sign_eq_neg_one_of_neg hneg] at hswap
  apply Int.sign_eq_one_iff_pos.mp
  omega

/-- A comparator whose sign reflects a strict weak order is lawful. -/
theorem Lawful.of_before {cmp : α → α → ℤ} {P : α → Prop} {before : α → α → Prop}
    (hneg : ∀ x y, P x → P y → (cmp x y < 0 ↔ before x y))
    (hpos : ∀ x y, P x → P y → (0 < cmp x y ↔ before y x))
    (htrans : ∀ x y z, before x y → before y z → before x z)
    (hsplit : ∀ x y z, before x z → before x y ∨ before y z) : Lawful cmp P := by
  constructor
  · intro x y hx hy
    -- swapping the arguments swaps "before" and "after"
    rw [← Int.sign_neg, sign_eq_iff]
    have hneg' := hneg y x hy hx
    have hpos' := hpos y x hy hx
    have hxy := hneg x y hx hy
    have hyx := hpos x y hx hy
    constructor
    · rw [hxy, ← hpos']
      omega
    · rw [hyx, ← hneg']
      omega
  · intro x y z hx hy hz hxy hyz
    -- "greater" is "before" read the other way round
    rw [hpos x y hx hy] at hxy
    rw [hpos y z hy hz] at hyz
    rw [hpos x z hx hz]
    exact htrans z y x hyz hxy
  · intro x y z hx hy hz hxy
    have hnot : ¬ before x y := by
      rw [← hneg x y hx hy]
      omega
    have hnot' : ¬ before y x := by
      rw [← hpos x y hx hy]
      omega
    -- neither of `x` and `y` is before the other, so both are on the same side of `z`
    rw [sign_eq_iff, hneg x z hx hz, hneg y z hy hz, hpos x z hx hz, hpos y z hy hz]
    constructor
    · constructor
      · exact fun h => (hsplit x y z h).resolve_left hnot
      · exact fun h => (hsplit y x z h).resolve_left hnot'
    · constructor
      · exact fun h => (hsplit z y x h).resolve_right hnot'
      · exact fun h => (hsplit z x y h).resolve_right hnot

end Bidding.Collections
