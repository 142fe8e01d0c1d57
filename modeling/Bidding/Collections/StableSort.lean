import Mathlib.Order.Lattice
import Bidding.Collections.Sort

/-!
# Sorting by an Order

The sort of `Sort` with a comparator that decides a transitive relation on the elements of the
list, or that compares keys in a linear order. The relation need not be the comparator's own:
it may also speak of elements that compare equal, as long as the list has them in that order
before.

## Key Results

- **`sort_pairwise_of_stable`**, **`sort_pairwise`**: the result is in order.
- **`sort_filter`**: the elements of one key keep the order in which they were.
-/

namespace Bidding.Collections

variable {α : Type}

/-! ## A transitive relation -/

section Order

variable {cmp : α → α → ℤ} {r : α → α → Prop} (htrans : ∀ x y z, r x y → r y z → r x z)

include htrans

/-- Putting `x` into its place keeps the sorted part in order. -/
theorem insertRev_pairwise {x : α} {l : List α}
    (hle : ∀ y ∈ l, ¬ 0 < cmp y x → r y x) (hgt : ∀ y ∈ l, 0 < cmp y x → r x y)
    (hl : l.Pairwise (fun y z => r z y)) :
    (insertRev cmp x l).Pairwise (fun y z => r z y) := by
  induction l with
  | nil => exact List.pairwise_singleton _ x
  | cons y ys ih =>
    obtain ⟨hy, hys⟩ := List.pairwise_cons.mp hl
    unfold insertRev
    split
    · -- `x` goes further, past `y`
      rename_i hlt
      apply List.pairwise_cons.mpr
      constructor
      · intro z hz
        rcases List.mem_cons.mp ((insertRev_perm cmp x ys).mem_iff.mp hz) with rfl | hz
        · exact hgt y List.mem_cons_self hlt
        · exact hy z hz
      · exact ih (fun z hz => hle z (List.mem_cons_of_mem y hz))
          (fun z hz => hgt z (List.mem_cons_of_mem y hz)) hys
    · rename_i hlt
      -- `x` stays here: `y` is before it, and so is everything before `y`
      have hyx := hle y List.mem_cons_self hlt
      apply List.pairwise_cons.mpr
      constructor
      · intro z hz
        rcases List.mem_cons.mp hz with rfl | hz
        · exact hyx
        · exact htrans z y x (hy z hz) hyx
      · exact hl

/-- Insertion sorts a short list by the relation. -/
theorem insertionSort_pairwise {l : List α}
    (hle : l.Pairwise (fun x y => cmp x y ≤ 0 → r x y))
    (hgt : l.Pairwise (fun x y => 0 < cmp x y → r y x)) : (insertionSort cmp l).Pairwise r := by
  -- every element of the rest is compared with the sorted part only
  have hfold : ∀ (rest sorted : List α),
      (∀ x ∈ sorted, ∀ y ∈ rest, (cmp x y ≤ 0 → r x y) ∧ (0 < cmp x y → r y x)) →
      rest.Pairwise (fun x y => cmp x y ≤ 0 → r x y) →
      rest.Pairwise (fun x y => 0 < cmp x y → r y x) →
      sorted.Pairwise (fun y z => r z y) →
      (rest.foldl (fun sorted x => insertRev cmp x sorted) sorted).Pairwise
        (fun y z => r z y) := by
    intro rest
    induction rest with
    | nil => intro sorted _ _ _ hsorted; exact hsorted
    | cons x xs ih =>
      intro sorted hcross hle hgt hsorted
      obtain ⟨hlex, hle⟩ := List.pairwise_cons.mp hle
      obtain ⟨hgtx, hgt⟩ := List.pairwise_cons.mp hgt
      apply ih _ _ hle hgt
      · exact insertRev_pairwise htrans
          (fun y hy h => (hcross y hy x List.mem_cons_self).1 (Int.not_lt.mp h))
          (fun y hy => (hcross y hy x List.mem_cons_self).2) hsorted
      · intro y hy z hz
        rcases List.mem_cons.mp ((insertRev_perm cmp x sorted).mem_iff.mp hy) with rfl | hy
        · exact ⟨hlex z hz, hgtx z hz⟩
        · exact hcross y hy z (List.mem_cons_of_mem x hz)
  exact List.pairwise_reverse.mpr
    (hfold l [] (fun _ hx => absurd hx List.not_mem_nil) hle hgt List.Pairwise.nil)

/-- Sorted halves are merged into a sorted list. -/
theorem merge_pairwise {left right : List α} (hleft : left.Pairwise r)
    (hright : right.Pairwise r) (hle : ∀ x ∈ left, ∀ y ∈ right, cmp x y ≤ 0 → r x y)
    (hgt : ∀ x ∈ left, ∀ y ∈ right, 0 < cmp x y → r y x) :
    (left.merge right (fun x y => cmp x y ≤ 0)).Pairwise r := by
  induction left generalizing right with
  | nil => simpa using hright
  | cons x xs ih =>
    induction right with
    | nil => simpa using hleft
    | cons y ys ihy =>
      obtain ⟨hx, hxs⟩ := List.pairwise_cons.mp hleft
      obtain ⟨hy, hys⟩ := List.pairwise_cons.mp hright
      rw [List.cons_merge_cons]
      split
      · rename_i hxy
        -- `x` is before the head of the other half, and so before all of it
        have hxy : r x y := hle x List.mem_cons_self y List.mem_cons_self (of_decide_eq_true hxy)
        apply List.pairwise_cons.mpr
        constructor
        · intro z hz
          rcases List.mem_merge.mp hz with hz | hz
          · exact hx z hz
          · rcases List.mem_cons.mp hz with rfl | hz
            · exact hxy
            · exact htrans x y z hxy (hy z hz)
        · exact ih hxs hright (fun x' hx' => hle x' (List.mem_cons_of_mem x hx'))
            (fun x' hx' => hgt x' (List.mem_cons_of_mem x hx'))
      · rename_i hxy
        -- `y` is before the head of the left half, and so before all of it
        have hyx : r y x :=
          hgt x List.mem_cons_self y List.mem_cons_self (by simpa using hxy)
        apply List.pairwise_cons.mpr
        constructor
        · intro z hz
          rcases List.mem_merge.mp hz with hz | hz
          · rcases List.mem_cons.mp hz with rfl | hz
            · exact hyx
            · exact htrans y x z hyx (hx z hz)
          · exact hy z hz
        · exact ihy hys (fun x' hx' y' hy' => hle x' hx' y' (List.mem_cons_of_mem y hy'))
            (fun x' hx' y' hy' => hgt x' hx' y' (List.mem_cons_of_mem y hy'))

/-- Halves of which the last element of the left one comes before the first of the right one. -/
theorem append_pairwise {left right : List α} (hleft : left.Pairwise r) (hright : right.Pairwise r)
    (hbetween : ∀ x ∈ left.getLast?, ∀ y ∈ right.head?, r x y) :
    (left ++ right).Pairwise r := by
  apply List.pairwise_append.mpr
  refine ⟨hleft, hright, fun x hx y hy => ?_⟩
  obtain ⟨init, last, rfl⟩ :=
    (List.eq_nil_or_concat' left).resolve_left (List.ne_nil_of_mem hx)
  obtain ⟨first, rest, rfl⟩ := List.exists_cons_of_ne_nil (List.ne_nil_of_mem hy)
  have hlast : r last first := hbetween last (by simp) first (by simp)
  -- the last element of the left half and the first of the right one are in between
  have hx' : r x first := by
    rcases List.mem_append.mp hx with hx | hx
    · exact htrans _ _ _ ((List.pairwise_append.mp hleft).2.2 x hx last (by simp)) hlast
    · obtain rfl : x = last := by simpa using hx
      exact hlast
  rcases List.mem_cons.mp hy with rfl | hy
  · exact hx'
  · exact htrans _ _ _ hx' ((List.pairwise_cons.mp hright).1 y hy)

/-- The sort is stable: it sorts by every transitive relation that the comparator decides, but
    for elements that compare equal and are in this relation before. -/
theorem sort_pairwise_of_stable {l : List α} (hle : l.Pairwise (fun x y => cmp x y ≤ 0 → r x y))
    (hgt : l.Pairwise (fun x y => 0 < cmp x y → r y x)) : (sort cmp l).Pairwise r := by
  induction l using sort_induction cmp with
  | hshort l heq =>
    rw [heq]
    exact insertionSort_pairwise htrans hle hgt
  | hjoin l₁ l₂ heq ih₁ ih₂ =>
    obtain ⟨hle₁, hle₂, hle⟩ := List.pairwise_append.mp hle
    obtain ⟨hgt₁, hgt₂, hgt⟩ := List.pairwise_append.mp hgt
    have hs₁ := ih₁ hle₁ hgt₁
    have hs₂ := ih₂ hle₂ hgt₂
    have hcross : ∀ x ∈ sort cmp l₁, ∀ y ∈ sort cmp l₂, cmp x y ≤ 0 → r x y :=
      fun x hx y hy => hle x ((sort_perm cmp l₁).mem_iff.mp hx) y
        ((sort_perm cmp l₂).mem_iff.mp hy)
    rw [heq]
    rcases joinHalves_cases cmp (sort cmp l₁) (sort cmp l₂) with ⟨hlast, h⟩ | h
    · rw [h]
      apply append_pairwise htrans hs₁ hs₂
      intro x hx y hy
      exact hcross x (List.mem_of_getLast? hx) y (List.mem_of_mem_head? hy) (hlast x hx y hy)
    · rw [h]
      exact merge_pairwise htrans hs₁ hs₂ hcross fun x hx y hy =>
        hgt x ((sort_perm cmp l₁).mem_iff.mp hx) y ((sort_perm cmp l₂).mem_iff.mp hy)

/-- A comparator that decides a transitive relation on the elements sorts by it. -/
theorem sort_pairwise {l : List α} (hle : ∀ x ∈ l, ∀ y ∈ l, ¬ 0 < cmp x y → r x y)
    (hgt : ∀ x ∈ l, ∀ y ∈ l, 0 < cmp x y → r y x) : (sort cmp l).Pairwise r := by
  apply sort_pairwise_of_stable htrans
  · exact List.pairwise_of_forall_mem_list fun x hx y hy h => hle x hx y hy (Int.not_lt.mpr h)
  · exact List.pairwise_of_forall_mem_list hgt

end Order

/-! ## Keys -/

section Keys

variable {κ : Type} [LinearOrder κ] {key : α → κ} {cmp : α → α → ℤ}

variable (key) in
/-- The elements above a key, and those up to it. -/
theorem filter_above_perm (k : κ) (l : List α) :
    (l.filter (k < key ·) ++ l.filter (key · ≤ k)).Perm l := by
  have hrest : l.filter (fun x => !decide (k < key x)) = l.filter (key · ≤ k) := by
    apply List.filter_congr
    intro x _
    rw [← decide_not, decide_eq_decide]
    exact not_lt
  rw [← hrest]
  exact List.filter_append_perm _ l

variable (key) in
/-- The elements of a key and those below it are the ones up to it. -/
theorem filter_upTo_perm (k : κ) (l : List α) :
    (l.filter (key · = k) ++ l.filter (key · < k)).Perm (l.filter (key · ≤ k)) := by
  have hequal : l.filter (key · = k) =
      (l.filter (key · ≤ k)).filter (key · = k) := by
    rw [List.filter_filter]
    apply List.filter_congr
    intro x _
    rw [← Bool.decide_and, decide_eq_decide]
    exact ⟨fun h => ⟨h, h.le⟩, fun h => h.1⟩
  have hbelow : l.filter (key · < k) =
      (l.filter (key · ≤ k)).filter (fun x => !decide (key x = k)) := by
    rw [List.filter_filter]
    apply List.filter_congr
    intro x _
    rw [← decide_not, ← Bool.decide_and, decide_eq_decide]
    exact ⟨fun h => ⟨h.ne, h.le⟩, fun h => lt_of_le_of_ne h.2 h.1⟩
  rw [hequal, hbelow]
  exact List.filter_append_perm _ _

/-- An element that is put into its place passes no element of its own key. -/
theorem insertRev_filter {x : α} {l : List α} (hgt : ∀ y ∈ l, 0 < cmp y x → key x < key y)
    (k : κ) : (insertRev cmp x l).filter (key · = k) = (x :: l).filter (key · = k) := by
  induction l with
  | nil => rfl
  | cons y ys ih =>
    unfold insertRev
    split
    · rename_i hlt
      rw [List.filter_cons, ih (fun z hz => hgt z (List.mem_cons_of_mem y hz)),
        List.filter_cons, List.filter_cons, List.filter_cons]
      -- an element that `x` passes has another key
      by_cases hx : key x = k
      · have hy : ¬ key y = k := fun hy =>
          absurd (hgt y List.mem_cons_self hlt) (by rw [hx, hy]; exact lt_irrefl k)
        simp [hx, hy]
      · simp [hx]
    · rfl

/-- Insertion keeps the order of the elements of each key. -/
theorem insertionSort_filter {l : List α}
    (hgt : ∀ x ∈ l, ∀ y ∈ l, 0 < cmp x y → key y < key x) (k : κ) :
    (insertionSort cmp l).filter (key · = k) = l.filter (key · = k) := by
  -- the sorted part is kept last element first, like the rest that has been read
  have hfold : ∀ (rest sorted : List α), (∀ x ∈ rest, x ∈ l) → (∀ x ∈ sorted, x ∈ l) →
      (rest.foldl (fun sorted x => insertRev cmp x sorted) sorted).filter (key · = k) =
        (rest.reverse ++ sorted).filter (key · = k) := by
    intro rest
    induction rest with
    | nil => intro sorted _ _; rfl
    | cons x xs ih =>
      intro sorted hrest hsorted
      have hx := hrest x List.mem_cons_self
      rw [List.foldl_cons, ih _ (fun y hy => hrest y (List.mem_cons_of_mem x hy)),
        List.filter_append, insertRev_filter (fun y hy => hgt y (hsorted y hy) x hx),
        ← List.filter_append, List.reverse_cons, List.append_assoc, List.singleton_append]
      intro y hy
      rcases List.mem_cons.mp ((insertRev_perm cmp x sorted).mem_iff.mp hy) with rfl | hy
      · exact hx
      · exact hsorted y hy
  have hall := hfold l [] (fun _ hx => hx) (fun _ hx => absurd hx List.not_mem_nil)
  unfold insertionSort
  rw [List.filter_reverse, hall, List.append_nil, List.filter_reverse, List.reverse_reverse]

/-- Merging takes all elements of a key from the left half before those from the right one. -/
theorem merge_filter {left right : List α} (hleft : left.Pairwise (key · ≤ key ·))
    (hgt : ∀ x ∈ left, ∀ y ∈ right, 0 < cmp x y → key y < key x) (k : κ) :
    (left.merge right (fun x y => cmp x y ≤ 0)).filter (key · = k) =
      left.filter (key · = k) ++ right.filter (key · = k) := by
  induction left generalizing right with
  | nil => simp
  | cons x xs ih =>
    induction right with
    | nil => simp
    | cons y ys ihy =>
      obtain ⟨hx, hxs⟩ := List.pairwise_cons.mp hleft
      rw [List.cons_merge_cons]
      split
      · rw [List.filter_cons, ih hxs fun x' hx' => hgt x' (List.mem_cons_of_mem x hx'),
          List.filter_cons (x := x)]
        split
        · rfl
        · rfl
      · rename_i hxy
        have hlt : key y < key x :=
          hgt x List.mem_cons_self y List.mem_cons_self (by simpa using hxy)
        rw [List.filter_cons, ihy fun x' hx' y' hy' => hgt x' hx' y' (List.mem_cons_of_mem y hy'),
          List.filter_cons (x := y)]
        split
        · -- the left half has no element of this key any more
          rename_i hk
          have hnone : (x :: xs).filter (key · = k) = [] := by
            apply List.filter_eq_nil_iff.mpr
            intro z hz hkz
            have hkz : key z = key y := (of_decide_eq_true hkz).trans (of_decide_eq_true hk).symm
            rcases List.mem_cons.mp hz with rfl | hz
            · exact hlt.ne hkz.symm
            · exact absurd (hlt.trans_le (hx z hz)) (by rw [hkz]; exact lt_irrefl _)
          rw [hnone]
          rfl
        · rfl

/-- A comparator of keys sorts by the keys. -/
theorem sort_pairwise_key {l : List α} (hcmp : ∀ x ∈ l, ∀ y ∈ l, cmp x y ≤ 0 ↔ key x ≤ key y) :
    (sort cmp l).Pairwise (fun x y => key x ≤ key y) := by
  apply sort_pairwise
  · intro x y z hxy hyz
    exact le_trans hxy hyz
  · intro x hx y hy h
    exact (hcmp x hx y hy).mp (Int.not_lt.mp h)
  · intro x hx y hy h
    exact (lt_of_not_ge fun hkey => absurd ((hcmp x hx y hy).mpr hkey) (Int.not_le.mpr h)).le

/-- A comparator of keys leaves the elements of each key in the order in which they were. -/
theorem sort_filter {l : List α} (hcmp : ∀ x ∈ l, ∀ y ∈ l, cmp x y ≤ 0 ↔ key x ≤ key y) (k : κ) :
    (sort cmp l).filter (key · = k) = l.filter (key · = k) := by
  have hgt : ∀ x ∈ l, ∀ y ∈ l, 0 < cmp x y → key y < key x :=
    fun x hx y hy h => lt_of_not_ge fun hkey =>
      absurd ((hcmp x hx y hy).mpr hkey) (Int.not_le.mpr h)
  induction l using sort_induction cmp with
  | hshort l heq =>
    rw [heq]
    exact insertionSort_filter hgt k
  | hjoin l₁ l₂ heq ih₁ ih₂ =>
    have hmem₁ : ∀ x ∈ l₁, x ∈ l₁ ++ l₂ := fun x hx => List.mem_append.mpr (.inl hx)
    have hmem₂ : ∀ x ∈ l₂, x ∈ l₁ ++ l₂ := fun x hx => List.mem_append.mpr (.inr hx)
    have hcmp₁ := fun x hx y hy => hcmp x (hmem₁ x hx) y (hmem₁ y hy)
    have h₁ := ih₁ hcmp₁ fun x hx y hy => hgt x (hmem₁ x hx) y (hmem₁ y hy)
    have h₂ := ih₂ (fun x hx y hy => hcmp x (hmem₂ x hx) y (hmem₂ y hy))
      fun x hx y hy => hgt x (hmem₂ x hx) y (hmem₂ y hy)
    rw [heq, List.filter_append, ← h₁, ← h₂]
    -- side by side the halves keep all elements in order; merged they keep those of a key
    rcases joinHalves_cases cmp (sort cmp l₁) (sort cmp l₂) with ⟨-, h⟩ | h
    · rw [h, List.filter_append]
    · rw [h]
      apply merge_filter (sort_pairwise_key hcmp₁)
      intro x hx y hy
      exact hgt x (hmem₁ x ((sort_perm cmp l₁).mem_iff.mp hx)) y
        (hmem₂ y ((sort_perm cmp l₂).mem_iff.mp hy))

end Keys

end Bidding.Collections
