import Mathlib

/-!
# Windows That Tile the Rows

The rows of a list, by their numbers, are cut into windows of one size, the last of which may
reach beyond the rows. Windows are numbered from one.

## Key Results

- **`tiles_window`**: as many windows as the rounded-up quotient tile the rows.
- **`Tiles.congr`**: another family of windows that is the same on these numbers tiles them too.
-/

namespace Bidding.Collections

/-- Every row is in exactly one of the windows, and no window is without rows. -/
structure Tiles {ι α : Type} (windows : ι → Set α) (numbers : Set ι) (rows : Set α) : Prop where
  disjoint : numbers.PairwiseDisjoint windows
  covers : rows ⊆ ⋃ p ∈ numbers, windows p
  inhabited : ∀ p ∈ numbers, (windows p ∩ rows).Nonempty

/-- Windows that are the same on the given numbers tile the same rows. -/
theorem Tiles.congr {ι α : Type} {windows windows' : ι → Set α} {numbers : Set ι} {rows : Set α}
    (h : Tiles windows numbers rows) (hsame : ∀ p ∈ numbers, windows' p = windows p) :
    Tiles windows' numbers rows where
  disjoint p hp q hq hne := by
    show Disjoint (windows' p) (windows' q)
    rw [hsame p hp, hsame q hq]
    exact h.disjoint hp hq hne
  covers i hi := by
    obtain ⟨p, hp, hmem⟩ := Set.mem_iUnion₂.mp (h.covers hi)
    apply Set.mem_iUnion₂.mpr
    exact ⟨p, hp, (hsame p hp).symm ▸ hmem⟩
  inhabited p hp := by
    rw [hsame p hp]
    exact h.inhabited p hp

/-- The rows of the `p`-th window. -/
def window (size p : ℤ) : Set ℤ := Set.Ico ((p - 1) * size) ((p - 1) * size + size)

/-- The number of a row, divided by the size, gives its window. -/
theorem mem_window_iff {size p i : ℤ} (hsize : 0 < size) :
    i ∈ window size p ↔ i / size = p - 1 :=
  (Int.ediv_eq_iff_of_pos hsize).symm

theorem mem_window_ediv {size i : ℤ} (hsize : 0 < size) : i ∈ window size (i / size + 1) := by
  rw [mem_window_iff hsize]
  ring

/-- A window that is counted starts at a row. -/
theorem start_lt_of_le {size n p : ℤ} (hsize : 0 < size) (hp : p ≤ (n + size - 1) / size) :
    (p - 1) * size < n := by
  have hmul := (Int.le_ediv_iff_mul_le hsize).mp hp
  rw [Int.sub_mul]
  omega

/-- The window of a row is counted. -/
theorem ediv_add_one_le {size n i : ℤ} (hsize : 0 < size) (hi : i < n) :
    i / size + 1 ≤ (n + size - 1) / size := by
  rw [Int.le_ediv_iff_mul_le hsize, Int.add_mul]
  have hle := Int.ediv_mul_le i hsize.ne'
  omega

/-- As many windows as the rounded-up quotient tile the rows. -/
theorem tiles_window {size : ℤ} (hsize : 0 < size) (n : ℤ) :
    Tiles (window size) (Set.Icc 1 ((n + size - 1) / size)) (Set.Ico 0 n) where
  disjoint p _ q _ hne := by
    apply Set.disjoint_left.mpr
    intro i hp hq
    -- a row has one quotient only
    rw [mem_window_iff hsize] at hp hq
    omega
  covers i hi := by
    have hnonneg := Int.ediv_nonneg hi.1 hsize.le
    apply Set.mem_iUnion₂.mpr
    exact ⟨i / size + 1, ⟨by omega, ediv_add_one_le hsize hi.2⟩, mem_window_ediv hsize⟩
  inhabited p hp := by
    -- the first row of the window
    have hstart : 0 ≤ (p - 1) * size := Int.mul_nonneg (by have := hp.1; omega) hsize.le
    exact ⟨(p - 1) * size, ⟨le_refl _, by omega⟩, hstart, start_lt_of_le hsize hp.2⟩

end Bidding.Collections
