import Mathlib.Data.List.Basic

/-!
# Tables Filled Row by Row

A grid is a list of rows of one length. A table with as many columns is filled by adding cells one
after the other, so that the place of a cell is its row times the number of columns plus its
column. Cells that have no value may be left out, which moves all later ones.

## Key Results

- **`getElem?_flatten_of_length`**: the place of a cell of a grid.
- **`find?_zipIdx`**: the cell with a given number.
- **`reproduces_filterMap_iff`**: if each row ends with a value, the table that leaves out the cells
  without a value shows the grid exactly if there are no such cells.
-/

namespace Bidding.Collections

variable {α β : Type} {rows : List (List α)} {n : ℕ}

/-- The cell in row `r` and column `c`. -/
def cellAt (rows : List (List α)) (r c : ℕ) : Option α := rows[r]?.bind (fun row => row[c]?)

/-- The cell in row `r` and column `c` has the number `n * r + c`. -/
theorem getElem?_flatten_of_length (hrows : ∀ row ∈ rows, row.length = n) {c : ℕ} (hc : c < n)
    (r : ℕ) : rows.flatten[n * r + c]? = cellAt rows r c := by
  induction rows generalizing r with
  | nil => simp [cellAt]
  | cons row rows ih =>
    have hlen : row.length = n := hrows row List.mem_cons_self
    rw [List.flatten_cons]
    cases r with
    | zero =>
      rw [List.getElem?_append_left (by omega)]
      simp [cellAt]
    | succ r =>
      -- the cells of the first row are skipped
      rw [List.getElem?_append_right (by rw [hlen, Nat.mul_succ]; omega)]
      have hplace : n * (r + 1) + c - row.length = n * r + c := by
        rw [hlen, Nat.mul_succ]
        omega
      rw [hplace, ih (fun row hrow => hrows row (List.mem_cons_of_mem _ hrow))]
      simp [cellAt]

/-- A grid has as many cells as rows times columns. -/
theorem length_flatten_of_length (hrows : ∀ row ∈ rows, row.length = n) :
    rows.flatten.length = n * rows.length := by
  induction rows with
  | nil => rfl
  | cons row rows ih =>
    rw [List.flatten_cons, List.length_append, hrows row List.mem_cons_self,
      ih (fun row hrow => hrows row (List.mem_cons_of_mem _ hrow)), List.length_cons, Nat.mul_succ,
      Nat.add_comm]

/-- A cell is found by its number. -/
theorem find?_zipIdx (l : List α) (n i : ℕ) :
    (l.zipIdx n).find? (fun p => p.2 = i) =
      if n ≤ i then l[i - n]?.map (fun a => (a, i)) else none := by
  induction l generalizing n with
  | nil => simp
  | cons a l ih =>
    rw [List.zipIdx_cons, List.find?_cons]
    rcases Nat.lt_trichotomy n i with hlt | rfl | hgt
    · -- the cell is behind the first one
      have hsub : i - n = i - (n + 1) + 1 := by omega
      have hne : n ≠ i := by omega
      rw [ih, if_pos (show n + 1 ≤ i from hlt), if_pos (Nat.le_of_lt hlt), hsub,
        List.getElem?_cons_succ]
      simp [hne]
    · simp
    · -- the numbers start behind the one that is looked for
      have hne : n ≠ i := by omega
      rw [ih, if_neg (show ¬ n + 1 ≤ i by omega), if_neg (show ¬ n ≤ i by omega)]
      simp [hne]

/-- A place of a table shows a value, or is empty where there is none. -/
def Shows (empty : β) : Option β → Option β → Prop
  | some value, place => place = some value
  | none, place => place = none ∨ place = some empty

/-- A table with `n` columns shows, in the place of each cell of the grid, its value. -/
def Reproduces (value : α → Option β) (empty : β) (n : ℕ) (rows : List (List α))
    (table : List β) : Prop :=
  ∀ r c cell, c < n → cellAt rows r c = some cell → Shows empty (value cell) table[n * r + c]?

section Filling

variable {value : α → Option β}

/-- Where every entry has a value, each keeps its place. -/
theorem getElem?_filterMap_of_isSome {l : List α} (h : ∀ a ∈ l, (value a).isSome) (i : ℕ) :
    (l.filterMap value)[i]? = l[i]?.bind value := by
  induction l generalizing i with
  | nil => rfl
  | cons a l ih =>
    obtain ⟨v, hv⟩ := Option.isSome_iff_exists.mp (h a List.mem_cons_self)
    rw [List.filterMap_cons_some hv]
    cases i with
    | zero => exact hv.symm
    | succ i => exact ih (fun b hb => h b (List.mem_cons_of_mem a hb)) i

/-- The last cell of a grid ends its last row. -/
theorem exists_last_cell (hn : 0 < n) (hrows : ∀ row ∈ rows, row.length = n) (hne : rows ≠ []) :
    ∃ row ∈ rows, ∃ cell, row.getLast? = some cell ∧
      cellAt rows (rows.length - 1) (n - 1) = some cell := by
  have hrow : rows.getLast hne ∈ rows := List.getLast_mem hne
  have hlen := hrows _ hrow
  -- a row has a cell, since there is a column
  have hcells : rows.getLast hne ≠ [] := by
    intro hnil
    rw [hnil] at hlen
    simp at hlen
    omega
  have hlast := List.getLast?_eq_some_getLast hcells
  apply Exists.intro (rows.getLast hne)
  apply And.intro hrow
  apply Exists.intro _
  apply And.intro hlast
  unfold cellAt
  rw [← List.getLast?_eq_getElem?, List.getLast?_eq_some_getLast hne, Option.bind_some, ← hlen,
    ← List.getLast?_eq_getElem?]
  exact hlast

/-- If each row ends with a value, the table that leaves out the cells without a value shows the
    grid exactly if there are no such cells. -/
theorem reproduces_filterMap_iff (empty : β) (hn : 0 < n)
    (hrows : ∀ row ∈ rows, row.length = n)
    (hlast : ∀ row ∈ rows, ∀ cell, row.getLast? = some cell → (value cell).isSome) :
    Reproduces value empty n rows (rows.flatten.filterMap value) ↔
      ∀ row ∈ rows, ∀ cell ∈ row, (value cell).isSome := by
  rw [← List.forall_mem_flatten]
  constructor
  · -- a cell that is left out makes the table shorter, and the last place is missing
    intro hshows
    rw [← List.filterMap_length_eq_length]
    apply Nat.le_antisymm (List.length_filterMap_le _ _)
    rw [length_flatten_of_length hrows]
    by_cases hne : rows = []
    · simp [hne]
    obtain ⟨row, hrow, cell, hcell, hat⟩ := exists_last_cell hn hrows hne
    obtain ⟨v, hv⟩ := Option.isSome_iff_exists.mp (hlast row hrow cell hcell)
    -- the last place is taken, so the table is as long as the grid
    have hplace := hshows _ _ cell (by omega) hat
    rw [hv] at hplace
    have hlt := (List.getElem?_eq_some_iff.mp hplace).1
    have hcount : n * rows.length = n * (rows.length - 1) + n := by
      rw [← Nat.mul_succ, Nat.succ_eq_add_one, Nat.sub_add_cancel (List.length_pos_iff.mpr hne)]
    omega
  · -- no cell is left out, so each one keeps its place
    intro hall r c cell hc hat
    rw [getElem?_filterMap_of_isSome hall, getElem?_flatten_of_length hrows hc, hat,
      Option.bind_some]
    have hcell : cell ∈ rows.flatten := by
      rw [← getElem?_flatten_of_length hrows hc] at hat
      exact List.mem_of_getElem? hat
    obtain ⟨v, hv⟩ := Option.isSome_iff_exists.mp (hall cell hcell)
    rw [hv]
    rfl

end Filling

end Bidding.Collections
