import Mathlib.Data.List.Chain
import Mathlib.Data.Int.Notation

/-!
# Sorting by a Comparator

The stable sort of a list by a comparator that answers a signed number, as the merge sort of
the Java 6 class library: a list of fewer than seven elements is sorted by insertion, every
element moving to the left past the elements that compare greater than it; a longer one is
split in the middle, and its sorted halves are put side by side, or merged if the last element
of the left half compares greater than the first of the right one. Nothing is assumed of the
comparator, so the result is also defined for one that is not an order.

## Architecture

- **`insertionSort`**, **`joinHalves`**: the sort of a short list, and how two sorted halves are
  put together.
- **`sort_induction`**: what holds of short lists and is kept when halves are put together holds
  of every list.

## Key Results

- **`sort_perm`**, **`sort_map`**: the sort rearranges, and commutes with images.
- **`sort_isChain`**, **`sort_eq_self_iff`**: what is known of the result if the comparator is
  only antisymmetric.

That the result is in order if the comparator is one of an order is shown in `StableSort`.
-/

namespace Bidding.Collections

variable {α β : Type}

/-! ## The sort -/

/-- Put `x` into the sorted part, which is kept last element first. -/
def insertRev (cmp : α → α → ℤ) (x : α) : List α → List α
  | [] => [x]
  | y :: ys => if 0 < cmp y x then y :: insertRev cmp x ys else x :: y :: ys

/-- The sort of a short list. -/
def insertionSort (cmp : α → α → ℤ) (l : List α) : List α :=
  (l.foldl (fun sorted x => insertRev cmp x sorted) []).reverse

/-- Put two sorted halves together. -/
def joinHalves (cmp : α → α → ℤ) (left right : List α) : List α :=
  match left.getLast?, right.head? with
  | some x, some y =>
    if cmp x y ≤ 0 then left ++ right else left.merge right (fun x y => cmp x y ≤ 0)
  | _, _ => left ++ right

/-- Sort a list whose length is at most the fuel. -/
def sortHalves (cmp : α → α → ℤ) : ℕ → List α → List α
  | 0, l => insertionSort cmp l
  | fuel + 1, l =>
    if l.length < 7 then insertionSort cmp l
    else joinHalves cmp (sortHalves cmp fuel (l.take (l.length / 2)))
      (sortHalves cmp fuel (l.drop (l.length / 2)))

/-- Sort a list by a comparator. -/
def sort (cmp : α → α → ℤ) (l : List α) : List α :=
  sortHalves cmp l.length l

/-- What the fuel is does not matter, if it is enough. -/
theorem sortHalves_eq_sort (cmp : α → α → ℤ) {fuel : ℕ} {l : List α} (h : l.length ≤ fuel) :
    sortHalves cmp fuel l = sort cmp l := by
  have henough : ∀ fuel fuel' (l : List α), l.length ≤ fuel → l.length ≤ fuel' →
      sortHalves cmp fuel l = sortHalves cmp fuel' l := by
    intro fuel
    induction fuel with
    | zero =>
      intro fuel' l hl _
      -- an empty list needs no fuel
      have hshort : l.length < 7 := by omega
      cases fuel' with
      | zero => rfl
      | succ fuel' => rw [sortHalves, sortHalves, if_pos hshort]
    | succ fuel ih =>
      intro fuel' l hl hl'
      cases fuel' with
      | zero =>
        have hshort : l.length < 7 := by omega
        rw [sortHalves, sortHalves, if_pos hshort]
      | succ fuel' =>
        rw [sortHalves, sortHalves]
        split
        · rfl
        · -- both halves of a list that is not short are shorter than the list
          rw [ih fuel' (l.take _) (by rw [List.length_take]; omega)
              (by rw [List.length_take]; omega),
            ih fuel' (l.drop _) (by rw [List.length_drop]; omega)
              (by rw [List.length_drop]; omega)]
  exact henough fuel l.length l h le_rfl

/-- The sort of a list that is not short. -/
theorem sort_eq_joinHalves (cmp : α → α → ℤ) {l : List α} (h : 7 ≤ l.length) :
    sort cmp l = joinHalves cmp (sort cmp (l.take (l.length / 2)))
      (sort cmp (l.drop (l.length / 2))) := by
  obtain ⟨n, hn⟩ : ∃ n, l.length = n + 1 := ⟨l.length - 1, by omega⟩
  rw [sort, hn, sortHalves, ← hn, if_neg (by omega),
    sortHalves_eq_sort cmp (by rw [List.length_take]; omega),
    sortHalves_eq_sort cmp (by rw [List.length_drop]; omega)]

/-- What holds of short lists, and of a list whose sort is put together from the sorts of its
    halves if it holds of the halves, holds of every list. -/
theorem sort_induction (cmp : α → α → ℤ) {P : List α → Prop}
    (hshort : ∀ l, sort cmp l = insertionSort cmp l → P l)
    (hjoin : ∀ l₁ l₂, sort cmp (l₁ ++ l₂) = joinHalves cmp (sort cmp l₁) (sort cmp l₂) →
      P l₁ → P l₂ → P (l₁ ++ l₂)) (l : List α) : P l := by
  induction hn : l.length using Nat.strong_induction_on generalizing l with
  | _ n ih =>
    by_cases h : l.length < 7
    · apply hshort
      unfold sort
      cases hl : l.length with
      | zero => rfl
      | succ m => rw [sortHalves, if_pos h]
    · -- both halves of a long list are shorter than the list
      have hsplit := List.take_append_drop (l.length / 2) l
      have heq := sort_eq_joinHalves cmp (Nat.not_lt.mp h)
      have hleft : (l.take (l.length / 2)).length < n := by rw [List.length_take]; omega
      have hright : (l.drop (l.length / 2)).length < n := by rw [List.length_drop]; omega
      have hall := hjoin (l.take (l.length / 2)) (l.drop (l.length / 2)) (by rw [hsplit, heq])
        (ih _ hleft _ rfl) (ih _ hright _ rfl)
      rwa [hsplit] at hall

/-! ## The elements -/

/-- Putting an element into its place loses and doubles nothing. -/
theorem insertRev_perm (cmp : α → α → ℤ) (x : α) (l : List α) :
    (insertRev cmp x l).Perm (x :: l) := by
  induction l with
  | nil => exact List.Perm.refl _
  | cons y ys ih =>
    unfold insertRev
    split
    · exact (ih.cons y).trans (List.Perm.swap x y ys)
    · exact List.Perm.refl _

/-- Insertion rearranges a short list. -/
theorem insertionSort_perm (cmp : α → α → ℤ) (l : List α) : (insertionSort cmp l).Perm l := by
  -- over the rest of the list, with the part that is sorted so far
  have hfold : ∀ (rest sorted : List α),
      (rest.foldl (fun sorted x => insertRev cmp x sorted) sorted).Perm (rest ++ sorted) := by
    intro rest
    induction rest with
    | nil => intro sorted; exact List.Perm.refl _
    | cons x xs ih =>
      intro sorted
      refine (ih _).trans ?_
      exact ((insertRev_perm cmp x sorted).append_left xs).trans List.perm_middle
  have hall := hfold l []
  rw [List.append_nil] at hall
  exact (List.reverse_perm _).trans hall

theorem insertRev_sublist (cmp : α → α → ℤ) (x : α) (l : List α) :
    l.Sublist (insertRev cmp x l) := by
  induction l with
  | nil => exact List.nil_sublist _
  | cons y ys ih =>
    unfold insertRev
    split
    · exact ih.cons_cons y
    · exact List.sublist_cons_self x (y :: ys)

/-- Sorting further elements by insertion keeps those in their order that are sorted. -/
theorem insertionSort_sublist (cmp : α → α → ℤ) (l l' : List α) :
    (insertionSort cmp l).Sublist (insertionSort cmp (l ++ l')) := by
  unfold insertionSort
  rw [List.foldl_append]
  apply List.Sublist.reverse
  apply List.foldlRecOn (motive := fun sorted => List.Sublist _ sorted) l' _ (List.Sublist.refl _)
  intro sorted h x _
  exact h.trans (insertRev_sublist cmp x sorted)

/-- The two ways in which sorted halves are put together. -/
theorem joinHalves_cases (cmp : α → α → ℤ) (left right : List α) :
    ((∀ x ∈ left.getLast?, ∀ y ∈ right.head?, cmp x y ≤ 0) ∧
      joinHalves cmp left right = left ++ right) ∨
    joinHalves cmp left right = left.merge right (fun x y => cmp x y ≤ 0) := by
  unfold joinHalves
  split
  · rename_i x y hx hy
    split
    · rename_i hle
      left
      refine ⟨fun x' hx' y' hy' => ?_, rfl⟩
      obtain rfl := Option.some.inj (hx.symm.trans hx')
      obtain rfl := Option.some.inj (hy.symm.trans hy')
      exact hle
    · exact .inr rfl
  · -- one of the halves is empty, and there is nothing to compare
    rename_i hnone
    left
    exact ⟨fun x hx y hy => (hnone x y hx hy).elim, rfl⟩

theorem joinHalves_perm (cmp : α → α → ℤ) (left right : List α) :
    (joinHalves cmp left right).Perm (left ++ right) := by
  rcases joinHalves_cases cmp left right with ⟨-, h⟩ | h
  · rw [h]
  · rw [h]
    exact List.merge_perm_append _

/-- Sorting keeps the elements, with their multiplicities. -/
theorem sort_perm (cmp : α → α → ℤ) (l : List α) : (sort cmp l).Perm l := by
  induction l using sort_induction cmp with
  | hshort l h =>
    rw [h]
    exact insertionSort_perm cmp l
  | hjoin l₁ l₂ h ih₁ ih₂ =>
    rw [h]
    exact (joinHalves_perm cmp _ _).trans (ih₁.append ih₂)

@[simp] theorem length_sort (cmp : α → α → ℤ) (l : List α) :
    (sort cmp l).length = l.length :=
  (sort_perm cmp l).length_eq

/-! ## Images -/

theorem insertRev_map (cmp : β → β → ℤ) (f : α → β) (x : α) (l : List α) :
    insertRev cmp (f x) (l.map f) = (insertRev (fun y z => cmp (f y) (f z)) x l).map f := by
  induction l with
  | nil => rfl
  | cons y ys ih =>
    rw [List.map_cons, insertRev, insertRev]
    split
    · rw [List.map_cons, ih]
    · rfl

/-- Insertion only looks at what the comparator answers. -/
theorem insertionSort_map (cmp : β → β → ℤ) (f : α → β) (l : List α) :
    insertionSort cmp (l.map f) = (insertionSort (fun x y => cmp (f x) (f y)) l).map f := by
  have hfold : ∀ (rest sorted : List α),
      (rest.map f).foldl (fun sorted x => insertRev cmp x sorted) (sorted.map f) =
        (rest.foldl (fun sorted x => insertRev (fun y z => cmp (f y) (f z)) x sorted)
          sorted).map f := by
    intro rest
    induction rest with
    | nil => intro sorted; rfl
    | cons x xs ih =>
      intro sorted
      rw [List.map_cons, List.foldl_cons, insertRev_map, ih, List.foldl_cons]
  have hall := hfold l []
  unfold insertionSort
  rw [List.map_nil] at hall
  rw [hall, List.map_reverse]

/-- Merging only looks at what the comparator answers. -/
theorem merge_map (cmp : β → β → ℤ) (f : α → β) (left right : List α) :
    (left.map f).merge (right.map f) (fun x y => cmp x y ≤ 0) =
      (left.merge right (fun x y => cmp (f x) (f y) ≤ 0)).map f := by
  induction left generalizing right with
  | nil => simp
  | cons x xs ih =>
    induction right with
    | nil => simp
    | cons y ys ihy =>
      rw [List.map_cons, List.map_cons, List.cons_merge_cons, List.cons_merge_cons]
      -- both merges take from the same half, since they compare the same images
      split
      · rw [List.map_cons, ← ih (y :: ys), List.map_cons]
      · rw [List.map_cons, ← ihy, List.map_cons]

theorem joinHalves_map (cmp : β → β → ℤ) (f : α → β) (left right : List α) :
    joinHalves cmp (left.map f) (right.map f) =
      (joinHalves (fun x y => cmp (f x) (f y)) left right).map f := by
  unfold joinHalves
  rw [List.getLast?_map, List.head?_map]
  cases left.getLast? with
  | none => exact List.map_append.symm
  | some x =>
    cases right.head? with
    | none => exact List.map_append.symm
    | some y =>
      show (if cmp (f x) (f y) ≤ 0 then _ else _) =
        List.map f (if cmp (f x) (f y) ≤ 0 then _ else _)
      split
      · exact List.map_append.symm
      · exact merge_map cmp f left right

/-- The images are sorted as the elements are by the comparator of their images. -/
theorem sort_map (cmp : β → β → ℤ) (f : α → β) (l : List α) :
    sort cmp (l.map f) = (sort (fun x y => cmp (f x) (f y)) l).map f := by
  have hfuel : ∀ fuel (l : List α), sortHalves cmp fuel (l.map f) =
      (sortHalves (fun x y => cmp (f x) (f y)) fuel l).map f := by
    intro fuel
    induction fuel with
    | zero => exact insertionSort_map cmp f
    | succ fuel ih =>
      intro l
      rw [sortHalves, sortHalves, List.length_map]
      split
      · exact insertionSort_map cmp f l
      · rw [← joinHalves_map, ← ih, ← ih, List.map_take, List.map_drop]
  rw [sort, hfuel, List.length_map, sort]

/-! ## Lists that stay as they are -/

/-- Insertion leaves a chain as it is. -/
theorem insertionSort_eq_self {cmp : α → α → ℤ} {l : List α}
    (h : l.IsChain (fun x y => cmp x y ≤ 0)) : insertionSort cmp l = l := by
  -- the next element is compared with the last of the sorted part, and stays behind it
  have hfold : ∀ (rest sorted : List α),
      (sorted.reverse ++ rest).IsChain (fun x y => cmp x y ≤ 0) →
      rest.foldl (fun sorted x => insertRev cmp x sorted) sorted = rest.reverse ++ sorted := by
    intro rest
    induction rest with
    | nil => intro sorted _; rfl
    | cons x xs ih =>
      intro sorted hchain
      have hins : insertRev cmp x sorted = x :: sorted := by
        cases sorted with
        | nil => rfl
        | cons y ys =>
          have hyx : cmp y x ≤ 0 := by
            rw [List.reverse_cons, List.append_assoc] at hchain
            exact (List.isChain_append_cons_cons.mp hchain).2.1
          exact if_neg (Int.not_lt.mpr hyx)
      rw [List.foldl_cons, hins, ih (x :: sorted) (by simpa using hchain)]
      simp
  have hall := hfold l [] (by simpa using h)
  unfold insertionSort
  rw [hall]
  simp

/-- Halves that form a chain are put side by side. -/
theorem joinHalves_eq_append {cmp : α → α → ℤ} {left right : List α}
    (h : (left ++ right).IsChain (fun x y => cmp x y ≤ 0)) :
    joinHalves cmp left right = left ++ right := by
  obtain ⟨-, -, hbetween⟩ := List.isChain_append.mp h
  unfold joinHalves
  split
  · rename_i x y hx hy
    exact if_pos (hbetween x hx y hy)
  · rfl

/-- A list in which no element compares greater than the next one stays as it is. -/
theorem sort_eq_self {cmp : α → α → ℤ} {l : List α} (h : l.IsChain (fun x y => cmp x y ≤ 0)) :
    sort cmp l = l := by
  induction l using sort_induction cmp with
  | hshort l heq => exact heq.trans (insertionSort_eq_self h)
  | hjoin l₁ l₂ heq ih₁ ih₂ =>
    obtain ⟨h₁, h₂, -⟩ := List.isChain_append.mp h
    rw [heq, ih₁ h₁, ih₂ h₂]
    exact joinHalves_eq_append h

section Antisymmetric

variable {cmp : α → α → ℤ} (hanti : ∀ x y, 0 < cmp x y → cmp y x ≤ 0)

include hanti

/-- An element that is put into its place is between neighbours that do not compare greater and
    less. -/
theorem insertRev_isChain (x : α) {l : List α} (hl : l.IsChain (fun y z => cmp z y ≤ 0)) :
    (insertRev cmp x l).IsChain (fun y z => cmp z y ≤ 0) := by
  induction l with
  | nil => exact List.isChain_singleton x
  | cons y ys ih =>
    obtain ⟨hy, hys⟩ := List.isChain_cons.mp hl
    unfold insertRev
    split
    · rename_i hlt
      apply List.isChain_cons.mpr
      constructor
      · intro z hz
        -- what follows `y` now is `x` or what followed it before
        cases ys with
        | nil =>
          obtain rfl : x = z := by simpa [insertRev] using hz
          exact hanti y x hlt
        | cons u us =>
          unfold insertRev at hz
          split at hz
          · exact hy z hz
          · obtain rfl : x = z := by simpa using hz
            exact hanti y x hlt
      · exact ih hys
    · rename_i hlt
      exact hl.cons (fun z hz => by
        obtain rfl : y = z := by simpa using hz
        exact Int.not_lt.mp hlt)

theorem insertionSort_isChain (l : List α) :
    (insertionSort cmp l).IsChain (fun x y => cmp x y ≤ 0) := by
  apply List.isChain_reverse.mpr
  apply List.foldlRecOn (motive := List.IsChain (fun y z => cmp z y ≤ 0)) l _ List.isChain_nil
  intro sorted h x _
  exact insertRev_isChain hanti x h

/-- Chains are merged into a chain. -/
theorem merge_isChain {left right : List α} (hleft : left.IsChain (fun x y => cmp x y ≤ 0))
    (hright : right.IsChain (fun x y => cmp x y ≤ 0)) :
    (left.merge right (fun x y => cmp x y ≤ 0)).IsChain (fun x y => cmp x y ≤ 0) := by
  induction left generalizing right with
  | nil => simpa using hright
  | cons x xs ih =>
    induction right with
    | nil => simpa using hleft
    | cons y ys ihy =>
      rw [List.cons_merge_cons]
      split
      · rename_i hxy
        have hxy : cmp x y ≤ 0 := of_decide_eq_true hxy
        apply List.isChain_cons.mpr
        refine ⟨fun z hz => ?_, ih (List.isChain_cons.mp hleft).2 hright⟩
        -- what is taken after `x` is `y` or what followed `x` in its half
        cases xs with
        | nil =>
          obtain rfl : y = z := by simpa using hz
          exact hxy
        | cons u us =>
          rw [List.cons_merge_cons] at hz
          split at hz
          · exact (List.isChain_cons.mp hleft).1 z (by simpa using hz)
          · obtain rfl : y = z := by simpa using hz
            exact hxy
      · rename_i hxy
        -- `y` is taken first; `x` does not compare greater the other way round
        have hxy : 0 < cmp x y := by simpa using hxy
        apply List.isChain_cons.mpr
        refine ⟨fun z hz => ?_, ihy (List.isChain_cons.mp hright).2⟩
        cases ys with
        | nil =>
          obtain rfl : x = z := by simpa using hz
          exact hanti x y hxy
        | cons u us =>
          rw [List.cons_merge_cons] at hz
          split at hz
          · obtain rfl : x = z := by simpa using hz
            exact hanti x y hxy
          · exact (List.isChain_cons.mp hright).1 z (by simpa using hz)

/-- The result of the sort, for a comparator that never finds two elements greater than one
    another. -/
theorem sort_isChain (l : List α) : (sort cmp l).IsChain (fun x y => cmp x y ≤ 0) := by
  induction l using sort_induction cmp with
  | hshort l heq =>
    rw [heq]
    exact insertionSort_isChain hanti l
  | hjoin l₁ l₂ heq ih₁ ih₂ =>
    rw [heq]
    rcases joinHalves_cases cmp (sort cmp l₁) (sort cmp l₂) with ⟨hle, h⟩ | h
    · rw [h]
      exact List.isChain_append.mpr ⟨ih₁, ih₂, hle⟩
    · rw [h]
      exact merge_isChain hanti ih₁ ih₂

/-- The lists that stay as they are are the chains. -/
theorem sort_eq_self_iff {l : List α} :
    sort cmp l = l ↔ l.IsChain (fun x y => cmp x y ≤ 0) := by
  constructor
  · intro h
    rw [← h]
    exact sort_isChain hanti l
  · exact sort_eq_self

/-- The results of the sort are the chains: which one it is depends on the order before. -/
theorem forall_sort_iff {l : List α} {P : List α → Prop} :
    (∀ l', l'.Perm l → P (sort cmp l')) ↔
      ∀ s, s.Perm l → s.IsChain (fun x y => cmp x y ≤ 0) → P s := by
  constructor
  · intro h s hs hchain
    -- a chain is its own sort
    have := h s hs
    rwa [sort_eq_self hchain] at this
  · intro h l' hl'
    exact h _ ((sort_perm cmp l').trans hl') (sort_isChain hanti l')

end Antisymmetric

end Bidding.Collections
