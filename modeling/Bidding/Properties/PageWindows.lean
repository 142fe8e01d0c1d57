import Mathlib
import Bidding.Collections.Tiling
import Bidding.Model.MarketLists

/-!
# The Windows of the Pages

A handler counts the rows of a list, sets the page that is asked for and fetches ten rows from
`curPage * pageSize` on. The page that is set exists, and the windows of all pages tile the rows.
All this is computed with `int`s, and nothing overflows up to the largest number of rows.

## Key Results

- **`getPageCount_eq_ceil`**: the number of pages is the quotient, rounded up.
- **`setCurrentPage_clamps`**: the current page exists, and is the one asked for if that exists.
- **`firstResult_eq`**: the start of a window does not overflow.
- **`windows_tile_rows`**: the windows of the pages tile the rows.
-/

namespace Bidding.Model.NavigationInfo

open Bidding.Collections

variable (info : NavigationInfo)

/-- What the handlers do with the number of rows and the page that is asked for. -/
def onPage (rowCount page : ℤ) : NavigationInfo :=
  (info.setRowCount rowCount).setCurrentPage page

/-- The rows that a handler fetches for the current page. -/
def fetched : Set ℤ := Set.Ico info.firstResult (info.firstResult + pageSize)

/-- `(int) Math.ceil((double) rowCount / pageSize)` -/
theorem getPageCount_eq_ceil : info.getPageCount = ⌈(info.rowCount : ℚ) / pageSize⌉ := by
  symm
  rw [Int.ceil_eq_iff, lt_div_iff₀ (by norm_num [pageSize]), div_le_iff₀ (by norm_num [pageSize])]
  have hlow : (info.getPageCount - 1) * 10 < info.rowCount := by
    unfold getPageCount
    omega
  have hhigh : info.rowCount ≤ info.getPageCount * 10 := by
    unfold getPageCount
    omega
  unfold pageSize
  exact ⟨by exact_mod_cast hlow, by exact_mod_cast hhigh⟩

/-- The page that is set exists, and is the one asked for if that exists. -/
theorem setCurrentPage_clamps (page : ℤ) :
    1 ≤ (info.setCurrentPage page).currentPage ∧
      (info.setCurrentPage page).currentPage ≤ max 1 info.getPageCount ∧
      (1 ≤ page → page ≤ info.getPageCount → (info.setCurrentPage page).currentPage = page) := by
  unfold setCurrentPage
  dsimp only
  -- the page before the last check: one, the last page, or the one asked for
  split_ifs <;> omega

/-- The product of `int`s does not overflow: the largest one is `2147483640`. -/
theorem firstResult_eq (hmax : info.rowCount < 2 ^ 31) (page : ℤ) :
    (info.setCurrentPage page).firstResult =
      ((info.setCurrentPage page).curPage * pageSize : ℕ) := by
  have hclamps := info.setCurrentPage_clamps page
  unfold getPageCount at hclamps
  unfold firstResult curPage pageSize
  rw [toInt32_of_fits (by omega) (by omega)]
  rfl

/-- The window of a page starts after the windows before it. -/
theorem firstResult_setCurrentPage (hmax : info.rowCount < 2 ^ 31) {p : ℤ} (hp : 1 ≤ p)
    (hpages : p ≤ info.getPageCount) :
    (info.setCurrentPage p).firstResult = (p - 1) * pageSize := by
  have hpage := (info.setCurrentPage_clamps p).2.2 hp hpages
  rw [info.firstResult_eq hmax]
  unfold curPage pageSize
  rw [hpage]
  omega

/-- For every number of rows that an `int` can hold: the page count is the quotient rounded up, the
    page that is set exists, the windows of the pages tile the rows, and each starts at
    `(p - 1) * pageSize`. -/
theorem windows_tile_rows {rowCount : ℤ} (hmax : rowCount < 2 ^ 31) :
    (info.setRowCount rowCount).getPageCount = ⌈(rowCount : ℚ) / pageSize⌉ ∧
      (∀ page : ℤ, 1 ≤ (info.onPage rowCount page).currentPage ∧
        (info.onPage rowCount page).currentPage ≤ max 1 (info.setRowCount rowCount).getPageCount ∧
        (1 ≤ page → page ≤ (info.setRowCount rowCount).getPageCount →
          (info.onPage rowCount page).currentPage = page)) ∧
      Tiles (fun p => (info.onPage rowCount p).fetched)
        (Set.Icc 1 (info.setRowCount rowCount).getPageCount) (Set.Ico 0 rowCount) ∧
      ∀ p ∈ Set.Icc 1 (info.setRowCount rowCount).getPageCount,
        (info.onPage rowCount p).firstResult = (p - 1) * pageSize := by
  let counted := info.setRowCount rowCount
  have hstart : ∀ p ∈ Set.Icc 1 counted.getPageCount,
      (info.onPage rowCount p).firstResult = (p - 1) * pageSize :=
    fun p hp => counted.firstResult_setCurrentPage hmax hp.1 hp.2
  have htiles : Tiles (window pageSize) (Set.Icc 1 counted.getPageCount) (Set.Ico 0 rowCount) := by
    have hcount : counted.getPageCount = (rowCount + (pageSize : ℤ) - 1) / (pageSize : ℤ) := by
      show (rowCount + 9) / 10 = (rowCount + 10 - 1) / 10
      omega
    rw [hcount]
    exact tiles_window (by decide) rowCount
  -- the rows that a page fetches are the window of its number
  have hfetched : ∀ p ∈ Set.Icc 1 counted.getPageCount,
      (info.onPage rowCount p).fetched = window pageSize p := by
    intro p hp
    unfold fetched window
    rw [hstart p hp]
  exact ⟨counted.getPageCount_eq_ceil, counted.setCurrentPage_clamps, htiles.congr hfetched,
    hstart⟩

/-- Twenty-one rows have three pages. -/
theorem windows_tile_twentyOne :
    Tiles (fun p => (new.onPage 21 p).fetched) (Set.Icc 1 3) (Set.Ico 0 21) :=
  (windows_tile_rows new (by decide : (21 : ℤ) < 2 ^ 31)).2.2.1

end Bidding.Model.NavigationInfo
