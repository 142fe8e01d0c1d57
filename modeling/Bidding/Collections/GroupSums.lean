import Mathlib.Algebra.BigOperators.Group.Finset.Piecewise

/-!
# Sums by Groups

A sum over rows that is added up group by group. The groups are listed by their keys, in any
order.

## Key Results

- **`sum_groups`**: the sums of the groups add up to the sum of all rows.
- **`sum_map_filterMap`**: a sum over the values that a map has for listed keys.
-/

namespace Bidding.Collections

variable {α β κ M : Type} [DecidableEq κ] [AddCommMonoid M]

/-- A summand for one of the keys. -/
theorem sum_map_single {keys : List κ} (hnodup : keys.Nodup) {k : κ} (hk : k ∈ keys) (m : M) :
    (keys.map fun k' => if k = k' then m else 0).sum = m := by
  rw [← List.sum_toFinset _ hnodup, Finset.sum_ite_eq]
  exact if_pos (List.mem_toFinset.mpr hk)

/-- The sums of the groups add up to the sum of all rows. -/
theorem sum_groups (key : α → κ) (f : α → M) {keys : List κ} (hnodup : keys.Nodup) {l : List α}
    (hkeys : ∀ a ∈ l, key a ∈ keys) :
    (keys.map fun k => ((l.filter fun a => key a = k).map f).sum).sum = (l.map f).sum := by
  induction l with
  | nil => simp
  | cons a l ih =>
    -- the first row is counted in the group of its key
    have hsplit : (fun k => (((a :: l).filter fun b => key b = k).map f).sum) = fun k =>
        (if key a = k then f a else 0) + ((l.filter fun b => key b = k).map f).sum := by
      funext k
      by_cases hk : key a = k <;> simp [hk]
    rw [hsplit, List.sum_map_add, sum_map_single hnodup (hkeys a List.mem_cons_self),
      ih fun b hb => hkeys b (List.mem_cons_of_mem a hb), List.map_cons, List.sum_cons]

omit [DecidableEq κ] in
/-- A sum over the values that a map has for the listed keys. -/
theorem sum_map_filterMap (m : κ → Option β) (f : β → M) (keys : List κ) :
    ((keys.filterMap m).map f).sum = (keys.map fun k => ((m k).map f).getD 0).sum := by
  induction keys with
  | nil => rfl
  | cons k keys ih =>
    cases hk : m k with
    | none => simp [hk, ih]
    | some b => simp [hk, ih]

end Bidding.Collections
