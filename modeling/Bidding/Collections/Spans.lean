import Mathlib.Algebra.Order.BigOperators.Group.List
import Mathlib.Algebra.Order.Ring.Int
import Mathlib.Data.Int.Notation
import Mathlib.Data.List.Chain
import Mathlib.Algebra.BigOperators.Group.List.Basic

/-!
# Schedules of Spans

Entries follow each other in the order of their keys, each for its span: an entry begins when
the spans of all entries before it are over. A list of some of the entries is annotated with
running sums of the spans.

## Key Results

- **`spansBefore_eq_add_iff`**: an entry begins when another one ends exactly if no entry is
  between them.
- **`accurate_iff`**: when the running sums are the beginnings.
-/

namespace Bidding.Collections

section Spans

variable {α : Type} (key span : α → ℤ)

/-- The spans of the entries with a key below `k`. -/
def spansBefore (entries : List α) (k : ℤ) : ℤ :=
  ((entries.filter (fun x => key x < k)).map span).sum

variable {key span} {entries : List α}

theorem sum_filter_eq (p : α → Bool) (entries : List α) :
    ((entries.filter p).map span).sum = (entries.map (fun x => if p x then span x else 0)).sum := by
  induction entries with
  | nil => rfl
  | cons x entries ih =>
    by_cases hx : p x = true <;> simp [hx, ih]

/-- The only entry with the key of `x` is `x`. -/
theorem sum_key_eq (hkeys : (entries.map key).Nodup) {x : α} (hx : x ∈ entries) :
    (entries.map (fun y => if key y = key x then span y else 0)).sum = span x := by
  induction entries with
  | nil => cases hx
  | cons y entries ih =>
    obtain ⟨hy, hrest⟩ := List.nodup_cons.mp hkeys
    rw [List.map_cons, List.sum_cons]
    rcases List.mem_cons.mp hx with rfl | hx
    · -- no later entry has the key of the first one again
      have hzero : (entries.map (fun y => if key y = key x then span y else 0)).sum = 0 := by
        apply List.sum_eq_zero
        intro s hs
        obtain ⟨z, hz, rfl⟩ := List.mem_map.mp hs
        have hne : key z ≠ key x := fun heq => hy (heq ▸ List.mem_map_of_mem hz)
        simp [hne]
      simp [hzero]
    · have hne : key y ≠ key x := fun heq => hy (heq ▸ List.mem_map_of_mem hx)
      rw [if_neg hne, ih hrest hx, zero_add]

/-- The entries before `k` are those before `x`, `x` itself and those between `x` and `k`. -/
theorem spansBefore_eq_add (hkeys : (entries.map key).Nodup) {x : α} (hx : x ∈ entries) {k : ℤ}
    (hk : key x < k) :
    spansBefore key span entries k = spansBefore key span entries (key x) + span x +
      ((entries.filter (fun y => key x < key y && key y < k)).map span).sum := by
  have hself := (@sum_key_eq α key span entries hkeys x hx).symm
  unfold spansBefore
  rw [sum_filter_eq, sum_filter_eq, sum_filter_eq, hself, ← List.sum_map_add, ← List.sum_map_add]
  congr 1
  apply List.map_congr_left
  intro y _
  -- each entry is counted in exactly one of the three sums
  rcases lt_trichotomy (key y) (key x) with hlt | heq | hgt
  · have hk' : key y < k := by omega
    have hne : key y ≠ key x := by omega
    have hle : ¬ key x < key y := by omega
    simp [hlt, hk', hne, hle]
  · simp [heq, hk]
  · have hne : key y ≠ key x := by omega
    have hle : ¬ key y < key x := by omega
    simp [hgt, hne, hle]

/-- The entries between `x` and `k` have no spans exactly if there are none. -/
theorem spansBefore_eq_add_iff (hkeys : (entries.map key).Nodup)
    (hpos : ∀ y ∈ entries, 0 < span y) {x : α} (hx : x ∈ entries) {k : ℤ} (hk : key x < k) :
    spansBefore key span entries (key x) + span x = spansBefore key span entries k ↔
      ∀ y ∈ entries, ¬ (key x < key y ∧ key y < k) := by
  rw [spansBefore_eq_add hkeys hx hk]
  have hnonneg : ∀ s ∈ (entries.filter (fun y => key x < key y && key y < k)).map span,
      0 < s := by
    intro s hs
    obtain ⟨y, hy, rfl⟩ := List.mem_map.mp hs
    exact hpos y (List.mem_filter.mp hy).1
  constructor
  · intro hsum y hy hbetween
    have hmem : span y ∈ (entries.filter (fun y => key x < key y && key y < k)).map span :=
      List.mem_map_of_mem (List.mem_filter.mpr ⟨hy, by simpa using hbetween⟩)
    -- an entry between them would have a span of its own
    have hzero := List.all_zero_of_le_zero_le_of_sum_eq_zero
      (fun s hs => (hnonneg s hs).le) (by omega) hmem
    have hspan := hpos y hy
    omega
  · intro hnone
    have hnil : entries.filter (fun y => key x < key y && key y < k) = [] := by
      apply List.filter_eq_nil_iff.mpr
      intro y hy
      simpa using hnone y hy
    simp [hnil]

end Spans

section RunningSums

variable {α : Type} (key span : α → ℤ) (p : α → Bool) (entries : List α)

/-- The running sums from `c` over the rows are the beginnings of those rows that are
    entries. -/
def Accurate : ℤ → List α → Prop
  | _, [] => True
  | c, x :: rows =>
    (p x = true → c = spansBefore key span entries (key x)) ∧ Accurate (c + span x) rows

variable {key span p entries}

theorem accurate_cons {c : ℤ} {x : α} {rows : List α} :
    Accurate key span p entries c (x :: rows) ↔
      (p x = true → c = spansBefore key span entries (key x)) ∧
        Accurate key span p entries (c + span x) rows := Iff.rfl

/-- The running sums are right exactly if the first one of an entry is, and no entry is between
    two that follow each other in the list. -/
theorem accurate_iff (hkeys : (entries.map key).Nodup) (hpos : ∀ y ∈ entries, 0 < span y)
    {rows : List α} (hsorted : rows.Pairwise (fun x y => key x < key y))
    (hmem : ∀ x ∈ rows, p x = true → x ∈ entries)
    (hup : ∀ x ∈ rows, ∀ y ∈ rows, key x < key y → p x = true → p y = true) (c : ℤ) :
    Accurate key span p entries c rows ↔
      ∀ first, (rows.filter p).head? = some first →
        c + ((rows.filter (fun x => !p x)).map span).sum =
            spansBefore key span entries (key first) ∧
          (rows.filter p).IsChain
            (fun x y => ∀ z ∈ entries, ¬ (key x < key z ∧ key z < key y)) := by
  induction rows generalizing c with
  | nil => simp [Accurate]
  | cons x rows ih =>
    obtain ⟨hx, hrest⟩ := List.pairwise_cons.mp hsorted
    have ih' := ih hrest (fun y hy => hmem y (List.mem_cons_of_mem x hy))
      (fun y hy z hz => hup y (List.mem_cons_of_mem x hy) z (List.mem_cons_of_mem x hz))
      (c + span x)
    rw [accurate_cons, ih']
    by_cases hpx : p x = true
    · -- from here on all rows are entries
      have hall : ∀ y ∈ rows, p y = true := fun y hy =>
        hup x List.mem_cons_self y (List.mem_cons_of_mem x hy) (hx y hy) hpx
      have hfilter : rows.filter p = rows := List.filter_eq_self.mpr hall
      have hnone : rows.filter (fun x => !p x) = [] := by
        apply List.filter_eq_nil_iff.mpr
        intro y hy
        simp [hall y hy]
      simp only [List.filter_cons, hpx, if_true, hfilter, hnone, List.head?_cons,
        Option.some.injEq, forall_eq', Bool.not_true, Bool.false_eq_true, if_false, List.map_nil,
        List.sum_nil, add_zero, forall_true_left]
      cases rows with
      | nil => simp
      | cons y rows =>
        have hstep := spansBefore_eq_add_iff hkeys hpos (hmem x List.mem_cons_self hpx)
          (hx y List.mem_cons_self)
        simp only [List.head?_cons, Option.some.injEq, forall_eq', List.isChain_cons_cons]
        constructor
        · rintro ⟨rfl, hbegin, hchain⟩
          exact ⟨rfl, hstep.mp hbegin, hchain⟩
        · rintro ⟨rfl, hbetween, hchain⟩
          exact ⟨rfl, hstep.mpr hbetween, hchain⟩
    · -- a row that is no entry only adds its span to the start
      simp only [List.filter_cons, hpx, Bool.false_eq_true, if_false, Bool.not_false, if_true,
        List.map_cons, List.sum_cons, false_implies, true_and]
      simp only [add_assoc]

end RunningSums

end Bidding.Collections
