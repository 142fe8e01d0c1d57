import Mathlib.Data.List.Basic
import Mathlib.Data.List.Destutter
import Mathlib.Data.Int.Notation

/-!
# Pages of a List of Rows

A list of rows is shown page by page, and on each page a row that is repeated is shown once.
The rows are in order, and rows of the same rank are the same row, so that the copies of a row
stand side by side.

## Key Results

- **`flatMap_page_of_le`**: enough pages show all rows.
- **`pairwise_pages_iff`**: the pages together show every row once, in order, exactly if no
  page ends between two copies of one row.
- **`destutter_flatMap`**: rows that come in blocks, one block for a key, give one entry for
  each block.
-/

namespace Bidding.Collections

variable {α : Type}

/-- The rows of the `k`-th page. -/
def page (size k : ℕ) (rows : List α) : List α := (rows.drop (k * size)).take size

theorem page_sublist (size k : ℕ) (rows : List α) : (page size k rows).Sublist rows :=
  (List.take_sublist _ _).trans (List.drop_sublist _ _)

/-- The first pages show the first rows. -/
theorem flatMap_page (size n : ℕ) (rows : List α) :
    (List.range n).flatMap (fun k => page size k rows) = rows.take (n * size) := by
  induction n with
  | zero => simp
  | succ n ih =>
    -- the last of the pages is added behind the others
    rw [List.range_succ, List.flatMap_append, ih, Nat.succ_mul, List.take_add]
    simp [page]

theorem flatMap_page_of_le {size n : ℕ} {rows : List α} (h : rows.length ≤ n * size) :
    (List.range n).flatMap (fun k => page size k rows) = rows := by
  rw [flatMap_page, List.take_of_length_le h]

/-- The pages after the first one are the pages of the rows after it. -/
theorem flatMap_range_succ {β : Type} (size n : ℕ) (rows : List α) (f : List α → List β) :
    (List.range (n + 1)).flatMap (fun k => f (page size k rows)) =
      f (rows.take size) ++
        (List.range n).flatMap (fun k => f (page size k (rows.drop size))) := by
  rw [List.range_succ_eq_map, List.flatMap_cons, List.flatMap_map]
  have hnext : ∀ k, page size (k + 1) rows = page size k (rows.drop size) := by
    intro k
    unfold page
    rw [List.drop_drop, Nat.succ_mul, Nat.add_comm]
  simp only [Nat.succ_eq_add_one, hnext]
  simp [page]

/-- The rows are in order of their rank, and rows of the same rank are the same row. -/
structure Ordered (rank : α → ℤ) (rows : List α) : Prop where
  sorted : rows.Pairwise (fun x y => rank x ≤ rank y)
  same : ∀ x ∈ rows, ∀ y ∈ rows, rank x = rank y → x = y

theorem Ordered.sublist {rank : α → ℤ} {rows rows' : List α} (h : Ordered rank rows)
    (hsub : rows'.Sublist rows) : Ordered rank rows' where
  sorted := h.sorted.sublist hsub
  same x hx y hy := h.same x (hsub.subset hx) y (hsub.subset hy)

section Boundaries

variable {rank : α → ℤ} {rows : List α}

/-- No page ends between two copies of one row. -/
def Unbroken (size : ℕ) (rows : List α) : Prop :=
  ∀ k x y, rows[k * size + (size - 1)]? = some x → rows[(k + 1) * size]? = some y → x ≠ y

/-- No page is broken if the first is not and none of the rows behind it. -/
theorem unbroken_iff (size : ℕ) (rows : List α) :
    Unbroken size rows ↔
      (∀ x y, rows[size - 1]? = some x → rows[size]? = some y → x ≠ y) ∧
        Unbroken size (rows.drop size) := by
  -- page `k + 1` of the rows is page `k` of the rows after the first page
  have hfirst : ∀ k, size + (k * size + (size - 1)) = (k + 1) * size + (size - 1) := by
    intro k
    rw [Nat.succ_mul]
    omega
  have hsecond : ∀ k, size + (k + 1) * size = (k + 1 + 1) * size := by
    intro k
    rw [Nat.succ_mul (k + 1)]
    omega
  constructor
  · intro h
    constructor
    · intro x y hx hy
      exact h 0 x y (by simpa using hx) (by simpa using hy)
    · intro k x y hx hy
      rw [List.getElem?_drop] at hx hy
      rw [hfirst] at hx
      rw [hsecond] at hy
      exact h (k + 1) x y hx hy
  · rintro ⟨hzero, hrest⟩ k x y hx hy
    cases k with
    | zero => exact hzero x y (by simpa using hx) (by simpa using hy)
    | succ k =>
      apply hrest k x y
      · rw [List.getElem?_drop, hfirst]
        exact hx
      · rw [List.getElem?_drop, hsecond]
        exact hy

/-- Two parts of the rows are apart exactly if the last row of the first and the first row of
    the second differ. -/
theorem apart_iff (h : Ordered rank rows) {size : ℕ} (hsize : 0 < size) :
    (∀ x ∈ rows.take size, ∀ y ∈ rows.drop size, rank x < rank y) ↔
      ∀ x y, rows[size - 1]? = some x → rows[size]? = some y → x ≠ y := by
  constructor
  · -- a row on both sides of the end of the page would be before itself
    rintro hlt x y hx hy rfl
    have hfirst : x ∈ rows.take size := by
      apply List.mem_of_getElem? (i := size - 1)
      rw [List.getElem?_take_of_lt (by omega)]
      exact hx
    have hsecond : x ∈ rows.drop size := by
      apply List.mem_of_getElem? (i := 0)
      rw [List.getElem?_drop]
      exact hy
    have hself := hlt x hfirst x hsecond
    omega
  · intro hne x hx y hy
    -- the two rows at the end of the page lie between the given ones
    have hdrop : 0 < (rows.drop size).length := List.length_pos_of_mem hy
    rw [List.length_drop] at hdrop
    obtain ⟨i, hi, rfl⟩ := List.mem_iff_getElem.mp hx
    obtain ⟨j, hj, rfl⟩ := List.mem_iff_getElem.mp hy
    simp only [List.length_take, List.length_drop] at hi hj
    rw [List.getElem_take, List.getElem_drop]
    have hsorted := List.pairwise_iff_getElem.mp h.sorted
    have hle : ∀ a b (ha : a < rows.length) (hb : b < rows.length), a ≤ b →
        rank rows[a] ≤ rank rows[b] := by
      intro a b ha hb hab
      rcases Nat.lt_or_eq_of_le hab with hlt | rfl
      · exact hsorted a b ha hb hlt
      · exact Int.le_refl _
    have hlow := hle i (size - 1) (by omega) (by omega) (by omega)
    have hmid := hle (size - 1) size (by omega) (by omega) (by omega)
    have hhigh := hle size (size + j) (by omega) (by omega) (by omega)
    have hrank : rank rows[size - 1] ≠ rank rows[size] := by
      intro heq
      apply hne rows[size - 1] rows[size]
      · exact List.getElem?_eq_getElem (by omega)
      · exact List.getElem?_eq_getElem (by omega)
      · exact h.same _ (List.getElem_mem _) _ (List.getElem_mem _) heq
    omega

end Boundaries

section Once

variable [BEq α] [LawfulBEq α] {rank : α → ℤ} {rows : List α}

/-- The rows of one page, each shown once. -/
theorem pairwise_eraseDups {l : List α} (h : Ordered rank l) :
    l.eraseDups.Pairwise (fun x y => rank x < rank y) := by
  match l, h with
  | [], _ => simp
  | x :: xs, h =>
    rw [List.eraseDups_cons]
    have hsub : (xs.filter (fun b => !(b == x))).Sublist xs := List.filter_sublist
    apply List.pairwise_cons.mpr
    constructor
    · intro y hy
      rw [List.mem_eraseDups, List.mem_filter] at hy
      -- what is left behind `x` is another row, and so of another rank
      have hne : y ≠ x := by simpa using hy.2
      have hle : rank x ≤ rank y := (List.pairwise_cons.mp h.sorted).1 y hy.1
      have hrank : rank x ≠ rank y := fun heq =>
        hne (h.same x List.mem_cons_self y (List.mem_cons_of_mem x hy.1) heq).symm
      omega
    · exact pairwise_eraseDups (h.sublist (hsub.trans (List.sublist_cons_self x xs)))
termination_by l.length
decreasing_by
  simp only [List.length_cons]
  have := hsub.length_le
  omega

theorem mem_flatMap_eraseDups {size n : ℕ} (hn : rows.length ≤ n * size) {x : α} :
    x ∈ (List.range n).flatMap (fun k => (page size k rows).eraseDups) ↔ x ∈ rows := by
  have hall : x ∈ (List.range n).flatMap (fun k => page size k rows) ↔ x ∈ rows := by
    rw [flatMap_page_of_le hn]
  rw [← hall]
  simp only [List.mem_flatMap, List.mem_eraseDups]

/-- The pages together show every row once and in order exactly if no page ends between two
    copies of one row. -/
theorem pairwise_pages_iff {size n : ℕ} (hsize : 0 < size) (h : Ordered rank rows)
    (hn : rows.length ≤ n * size) :
    ((List.range n).flatMap (fun k => (page size k rows).eraseDups)).Pairwise
        (fun x y => rank x < rank y) ↔ Unbroken size rows := by
  induction n generalizing rows with
  | zero =>
    have hnil : rows = [] := by
      apply List.eq_nil_of_length_eq_zero
      omega
    subst hnil
    simp [Unbroken]
  | succ n ih =>
    -- the first page is taken off; the pages behind it are those of the other rows
    have hrest : (rows.drop size).length ≤ n * size := by
      rw [List.length_drop]
      rw [Nat.succ_mul] at hn
      omega
    have hdrop := h.sublist (List.drop_sublist size rows)
    rw [flatMap_range_succ size n rows List.eraseDups, List.pairwise_append,
      ih hdrop hrest, unbroken_iff size rows, ← apart_iff h hsize]
    simp only [List.mem_eraseDups, mem_flatMap_eraseDups hrest,
      pairwise_eraseDups (h.sublist (List.take_sublist size rows)), true_and]
    exact and_comm

end Once

section Blocks

variable {β : Type} [DecidableEq β] {key : α → β} {block : α → List β}

/-- A block of copies of the last entry adds nothing. -/
theorem destutter'_append_of_forall_eq {a : β} {l : List β} (h : ∀ b ∈ l, b = a) (rest : List β) :
    (l ++ rest).destutter' (· ≠ ·) a = rest.destutter' (· ≠ ·) a := by
  induction l with
  | nil => rfl
  | cons b l ih =>
    have hb : b = a := h b List.mem_cons_self
    rw [List.cons_append, List.destutter'_cons_neg _ (fun hne => hne hb.symm)]
    exact ih (fun c hc => h c (List.mem_cons_of_mem b hc))

/-- After an entry of another key, each block that is not empty adds one entry. -/
theorem destutter'_flatMap {l : List α} (hblock : ∀ x ∈ l, ∀ b ∈ block x, b = key x)
    (hkeys : (l.map key).Nodup) {a : β} (ha : a ∉ l.map key) :
    (l.flatMap block).destutter' (· ≠ ·) a =
      a :: (l.filter (fun x => !(block x).isEmpty)).map key := by
  induction l generalizing a with
  | nil => rfl
  | cons x l ih =>
    obtain ⟨hx, hrest⟩ := List.nodup_cons.mp hkeys
    have ih' := fun {a : β} (ha : a ∉ l.map key) =>
      ih (fun y hy => hblock y (List.mem_cons_of_mem x hy)) hrest ha
    rw [List.map_cons, List.mem_cons, not_or] at ha
    rw [List.flatMap_cons, List.filter_cons]
    cases hbx : block x with
    -- an empty block adds nothing
    | nil => simpa using ih' ha.2
    | cons b bs =>
      have hall : ∀ c ∈ b :: bs, c = key x := fun c hc => hblock x List.mem_cons_self c (hbx ▸ hc)
      have hb : b = key x := hall b List.mem_cons_self
      subst hb
      -- the first entry of the block is kept, its copies are not
      rw [List.cons_append, List.destutter'_cons_pos _ ha.1,
        destutter'_append_of_forall_eq (fun c hc => hall c (List.mem_cons_of_mem _ hc)), ih' hx]
      simp

/-- Rows that come in blocks, one block for a key, give one entry for each block that is not empty.
    -/
theorem destutter_flatMap {l : List α} (hblock : ∀ x ∈ l, ∀ b ∈ block x, b = key x)
    (hkeys : (l.map key).Nodup) :
    (l.flatMap block).destutter (· ≠ ·) =
      (l.filter (fun x => !(block x).isEmpty)).map key := by
  induction l with
  | nil => rfl
  | cons x l ih =>
    obtain ⟨hx, hrest⟩ := List.nodup_cons.mp hkeys
    have hblock' := fun y hy => hblock y (List.mem_cons_of_mem x hy)
    rw [List.flatMap_cons, List.filter_cons]
    cases hbx : block x with
    | nil => simpa using ih hblock' hrest
    | cons b bs =>
      have hall : ∀ c ∈ b :: bs, c = key x := fun c hc => hblock x List.mem_cons_self c (hbx ▸ hc)
      have hb : b = key x := hall b List.mem_cons_self
      subst hb
      rw [List.cons_append, List.destutter_cons',
        destutter'_append_of_forall_eq (fun c hc => hall c (List.mem_cons_of_mem _ hc)),
        destutter'_flatMap hblock' hrest hx]
      simp

end Blocks

end Bidding.Collections
