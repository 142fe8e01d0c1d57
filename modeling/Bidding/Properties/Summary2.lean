import Mathlib.Tactic.NormNum
import Bidding.Semantics.ReportRows

/-!
# Totals of a Category

Four passes fill the records of the Summary-2 report, each over the rows of its own query. A pass
keeps running totals for the category it is in and puts the record into the map when the category
changes. The pass over the sold lots puts a record only if it has a category, and begins its
totals again only then: a new record without a category has no sold lot, so that the totals are
zero anyway.

## Key Results

- **`Pass.loop_apply`**: what a pass that counts all rows does to the record of a category.
- **`SalePass.foldl_apply`**: the same for the pass over the sold lots.
- **`getReportSummary2_read`**: the four passes together, in terms of what they read of the
  items. What that means for the items is shown in `CategoryTotals`.
-/

namespace Bidding.Model.Reports.ReportSummary2Dao

open Bidding.Collections

/-! ## Passes that count all rows -/

/-- The sum of the quantities of rows. -/
def quantities (g : List LotRow) : ℤ := (g.map LotRow.quantity).sum

/-- What the pass over all lots makes of the record of a category with the rows `g`. -/
def totalUpdate (set : Setter) (v : Option ReportSummary2) (g : List LotRow) :
    Option ReportSummary2 :=
  match g.head? with
  | none => v
  | some first => some (set (Pass.named first .new) g.length (quantities g))

/-- What a pass over unsold lots makes of the record of a category with the rows `g`. -/
def unsoldUpdate (set : Setter) (v : Option ReportSummary2) (g : List LotRow) :
    Option ReportSummary2 :=
  match g.getLast? with
  | none => v
  | some last => some (set (Pass.named last (v.getD .new)) g.length (quantities g))

/-- A setter that depends on nothing that the pass has set before. -/
structure Overwrites (set : Setter) : Prop where
  twice : ∀ r l q l' q', set (set r l q) l' q' = set r l' q'
  named : ∀ r l q l' q' a c,
    set (Pass.named a (set (Pass.named c r) l q)) l' q' = set (Pass.named a r) l' q'

theorem overwrites_forSale : Overwrites setForSale := ⟨by intros; rfl, by intros; rfl⟩

theorem overwrites_unsoldBidded : Overwrites setUnsoldBidded := ⟨by intros; rfl, by intros; rfl⟩

theorem overwrites_unsoldUnBidded : Overwrites setUnsoldUnBidded :=
  ⟨by intros; rfl, by intros; rfl⟩

theorem quantities_append (b : LotRow) (g : List LotRow) (a : LotRow) :
    quantities (b :: (g ++ [a])) = quantities (b :: g) + a.quantity := by
  simp [quantities, add_assoc]

namespace Pass

/-- What holds after a turn: the categories before are in the map `t`, the totals are those of
    the open group, and the record is what `update` makes of it. -/
structure Open (update : Option ReportSummary2 → List LotRow → Option ReportSummary2)
    (t : Summary2Map) (b : LotRow) (g : List LotRow) (s : Pass) : Prop where
  reportSummary2Map : s.reportSummary2Map = t
  categoryId : s.categoryId = some b.categoryId
  counter : s.counter ≠ 0
  lots : s.lots = (b :: g).length
  quantity : s.quantity = quantities (b :: g)
  prev : s.reportSummary2Prev = update (t b.categoryId) (b :: g)

theorem put_counter (s : Pass) : s.put.counter = s.counter := by
  unfold Pass.put
  split <;> rfl

/-- Putting the record of the open group is the update of its category. -/
theorem Open.put_map {update : Option ReportSummary2 → List LotRow → Option ReportSummary2}
    {t : Summary2Map} {b : LotRow} {g : List LotRow} {s : Pass} (h : s.Open update t b g) :
    s.put.reportSummary2Map = Collections.put LotRow.categoryId update t (b :: g) := by
  unfold Pass.put
  rw [h.categoryId]
  show Function.update s.reportSummary2Map b.categoryId s.reportSummary2Prev = _
  rw [h.reportSummary2Map, h.prev]
  rfl

/-- A row that opens a group: the totals begin with it. -/
theorem open_single {update : Option ReportSummary2 → List LotRow → Option ReportSummary2}
    {t : Summary2Map} {a : LotRow} {n : ℕ} {record : Option ReportSummary2}
    (hrecord : record = update (t a.categoryId) [a]) :
    (Pass.mk (n + 1) (0 + 1) (0 + a.quantity) (some a.categoryId) record t).Open update t a [] where
  reportSummary2Map := rfl
  categoryId := rfl
  counter := Nat.succ_ne_zero n
  lots := by simp
  quantity := by simp [quantities]
  prev := hrecord

/-- A row that joins the open group is counted in its totals. -/
theorem Open.count {update : Option ReportSummary2 → List LotRow → Option ReportSummary2}
    {t : Summary2Map} {a b : LotRow} {g : List LotRow} {s : Pass} {set : Setter}
    {record : ReportSummary2} (h : s.Open update t b g)
    (hrecord : some (set record (b :: (g ++ [a])).length (quantities (b :: (g ++ [a])))) =
      update (t b.categoryId) (b :: (g ++ [a]))) :
    Open update t b (g ++ [a]) { s.count set a record with counter := s.counter + 1 } := by
  have hlots : s.lots + 1 = (b :: (g ++ [a])).length := by
    rw [h.lots]
    simp
  have hquantity : s.quantity + a.quantity = quantities (b :: (g ++ [a])) := by
    rw [h.quantity, quantities_append]
  -- the setter overwrites the totals of the rows before
  have hprev : some (set record (s.lots + 1) (s.quantity + a.quantity)) =
      update (t b.categoryId) (b :: (g ++ [a])) := by
    rw [hlots, hquantity, hrecord]
  exact ⟨h.reportSummary2Map, h.categoryId, Nat.succ_ne_zero _, hlots, hquantity, hprev⟩

/-- A pass whose turns keep the invariant updates each category with its rows. -/
theorem loop_apply {update : Option ReportSummary2 → List LotRow → Option ReportSummary2}
    {turn : Pass → LotRow → Pass} {start : Pass} {rows : List LotRow}
    (hcount : ∀ s row, (turn s row).counter = s.counter + 1) (hnil : ∀ v, update v [] = v)
    (hbreak : ControlBreak LotRow.categoryId (Collections.put LotRow.categoryId update) turn
      (fun t b g s => s.Open update t b g))
    (hstart : start.counter = 0)
    (hfirst : ∀ row, (turn start row).Open update start.reportSummary2Map row [])
    (hrows : Contiguous LotRow.categoryId rows) (k : ℤ) :
    (loop turn rows start).reportSummary2Map k =
      update (start.reportSummary2Map k) (rows.filter (fun row => row.categoryId = k)) := by
  have hlen : start.counter + rows.length = rows.length := by
    rw [hstart, Nat.zero_add]
  unfold loop
  rw [foldl_counted hcount hlen.le, hlen]
  cases rows with
  | nil => simp [hnil]
  | cons a rows =>
    -- the last category is still open after the loop, and is put when the counter reaches the size
    obtain ⟨gs, b, g, hgroups, hopen⟩ := hbreak.foldl_rows (hfirst a) hrows
    rw [if_pos ⟨List.cons_ne_nil a rows, rfl⟩, hopen.put_map]
    rw [← foldl_put hnil start.reportSummary2Map k, hgroups, List.foldl_append]
    rfl

section Turns

variable {set : Setter}

theorem unsoldTurn_counter (s : Pass) (row : LotRow) :
    (unsoldTurn set s row).counter = s.counter + 1 := by
  unfold unsoldTurn
  dsimp only
  split <;> split <;> try split
  all_goals simp [count, put_counter]

theorem totalTurn_counter (s : Pass) (row : LotRow) :
    (totalTurn set s row).counter = s.counter + 1 := by
  unfold totalTurn
  dsimp only
  split <;> split <;> try split
  all_goals simp [count, put_counter]

/-- The first row of the unsold pass opens its category. -/
theorem unsoldTurn_first (t : Summary2Map) (row : LotRow) :
    (unsoldTurn set ⟨0, 0, 0, none, none, t⟩ row).Open (unsoldUpdate set) t row [] := by
  have hturn : unsoldTurn set ⟨0, 0, 0, none, none, t⟩ row =
      ⟨1, 0 + 1, 0 + row.quantity, some row.categoryId,
        some (set (named row (fetch t row.categoryId)) (0 + 1) (0 + row.quantity)), t⟩ := by
    simp [unsoldTurn, count]
  rw [hturn]
  apply open_single
  simp [unsoldUpdate, fetch, quantities]

/-- The unsold pass is a control break on the category. -/
theorem controlBreak_unsoldTurn (hset : Overwrites set) :
    ControlBreak LotRow.categoryId (Collections.put LotRow.categoryId (unsoldUpdate set))
      (unsoldTurn set) (fun t b g s => s.Open (unsoldUpdate set) t b g) where
  same := by
    intro t b g s a h hkey
    obtain ⟨last, hlast⟩ : ∃ last, (b :: g).getLast? = some last :=
      ⟨_, List.getLast?_eq_some_getLast (List.cons_ne_nil b g)⟩
    have hprev : s.reportSummary2Prev = some (set (named last ((t b.categoryId).getD .new))
        (b :: g).length (quantities (b :: g))) := by
      rw [h.prev, unsoldUpdate, hlast]
    have hid : s.categoryId = some a.categoryId := by rw [h.categoryId, hkey]
    have hturn : unsoldTurn set s a = { s.count set a (named a (s.reportSummary2Prev.getD
        (fetch s.reportSummary2Map a.categoryId))) with counter := s.counter + 1 } := by
      simp [unsoldTurn, h.counter, hid, count]
    -- the record takes its name from every row, so the last one names it
    have hend : (b :: (g ++ [a])).getLast? = some a := by
      rw [← List.cons_append, List.getLast?_concat]
    rw [hturn]
    apply h.count
    rw [hprev, Option.getD_some, hset.named, unsoldUpdate, hend]
  next := by
    intro t b g s a h hkey
    have hne : ¬ b.categoryId = a.categoryId := fun heq => hkey heq.symm
    have hturn : unsoldTurn set s a =
        ⟨s.counter + 1, 0 + 1, 0 + a.quantity, some a.categoryId,
          some (set (named a (fetch s.put.reportSummary2Map a.categoryId)) (0 + 1)
            (0 + a.quantity)), s.put.reportSummary2Map⟩ := by
      simp [unsoldTurn, h.counter, h.categoryId, hne, count, Pass.put]
    rw [hturn, h.put_map]
    apply open_single
    simp [unsoldUpdate, fetch, quantities]

/-- The first row of the pass of all lots opens its category. -/
theorem totalTurn_first (t : Summary2Map) (row : LotRow) :
    (totalTurn set ⟨0, 0, 0, none, some .new, t⟩ row).Open (totalUpdate set) t row [] := by
  have hturn : totalTurn set ⟨0, 0, 0, none, some .new, t⟩ row =
      ⟨1, 0 + 1, 0 + row.quantity, some row.categoryId,
        some (set (named row .new) (0 + 1) (0 + row.quantity)), t⟩ := by
    simp [totalTurn, count]
  rw [hturn]
  apply open_single
  simp [totalUpdate, quantities]

/-- The pass of all lots is a control break on the category, with a new record for each. -/
theorem controlBreak_totalTurn (hset : Overwrites set) :
    ControlBreak LotRow.categoryId (Collections.put LotRow.categoryId (totalUpdate set))
      (totalTurn set) (fun t b g s => s.Open (totalUpdate set) t b g) where
  same := by
    intro t b g s a h hkey
    -- the record is named by the first row of the category only
    have hprev : s.reportSummary2Prev =
        some (set (named b .new) (b :: g).length (quantities (b :: g))) := h.prev
    have hid : s.categoryId = some a.categoryId := by rw [h.categoryId, hkey]
    have hturn : totalTurn set s a =
        { s.count set a (s.reportSummary2Prev.getD .new) with counter := s.counter + 1 } := by
      simp [totalTurn, h.counter, hid, count]
    rw [hturn]
    apply h.count
    rw [hprev, Option.getD_some, hset.twice]
    rfl
  next := by
    intro t b g s a h hkey
    have hne : ¬ b.categoryId = a.categoryId := fun heq => hkey heq.symm
    have hturn : totalTurn set s a =
        ⟨s.counter + 1, 0 + 1, 0 + a.quantity, some a.categoryId,
          some (set (named a .new) (0 + 1) (0 + a.quantity)), s.put.reportSummary2Map⟩ := by
      simp [totalTurn, h.counter, h.categoryId, hne, count, Pass.put]
    rw [hturn, h.put_map]
    apply open_single
    simp [totalUpdate, quantities]

end Turns

end Pass

/-! ## The pass over the sold lots -/

/-- The quantities and prices of the sold lots among rows. -/
def sales (g : List SaleRow) : List (ℤ × ℚ) := g.filterMap SaleRow.sold

/-- The quantity of sales. -/
def soldQuantity (l : List (ℤ × ℚ)) : ℤ := (l.map Prod.fst).sum

/-- The amount of sales. -/
def soldAmount (l : List (ℤ × ℚ)) : ℚ := (l.map Prod.snd).sum

theorem soldQuantity_append (l : List (ℤ × ℚ)) (sale : ℤ × ℚ) :
    soldQuantity (l ++ [sale]) = soldQuantity l + sale.1 := by
  simp [soldQuantity]

theorem soldAmount_append (l : List (ℤ × ℚ)) (sale : ℤ × ℚ) :
    soldAmount (l ++ [sale]) = soldAmount l + sale.2 := by
  simp [soldAmount]

/-- A record of the category `k` after its sales. -/
def withSales (k : ℤ) (record : ReportSummary2) (l : List (ℤ × ℚ)) : ReportSummary2 :=
  if l = [] then record
  else { record with
    categoryId := some k
    totalActualSoldLots := some l.length
    totalActualSoldQunatity := some (soldQuantity l)
    totalActualSoldAmount := some (soldAmount l) }

/-- A record without a category has no sales. -/
theorem sales_eq_nil_of_categoryId {k : ℤ} {record : ReportSummary2} {l : List (ℤ × ℚ)}
    (h : (withSales k record l).categoryId = none) : l = [] := by
  by_contra hne
  rw [withSales, if_neg hne] at h
  cases h

/-- What the pass makes of the record of a category with the rows `g`. -/
def saleUpdate (v : Option ReportSummary2) (g : List SaleRow) : Option ReportSummary2 :=
  match g.head? with
  | none => v
  | some first =>
    if (withSales first.categoryId (v.getD .new) (sales g)).categoryId = none then v
    else some (setAverage (withSales first.categoryId (v.getD .new) (sales g)))

namespace SalePass

/-- What holds after a turn: the categories before are in the map `t`, and the totals and the
    record are those of the sales of the open group. -/
structure Open (t : Summary2Map) (b : SaleRow) (g : List SaleRow) (s : SalePass) : Prop where
  reportSummary2Map : s.reportSummary2Map = t
  categoryId : s.categoryId = some b.categoryId
  counter : s.counter ≠ 0
  lots : s.totalLots = (sales (b :: g)).length
  quantity : s.totalLotsQuantity = soldQuantity (sales (b :: g))
  amount : s.totalActualSoldAmount = soldAmount (sales (b :: g))
  prev : s.reportSummary2Prev =
    some (withSales b.categoryId (fetch t b.categoryId) (sales (b :: g)))

theorem sell_counter (s : SalePass) (row : SaleRow) (record : ReportSummary2) :
    (s.sell row record).counter = s.counter := by
  unfold sell
  split <;> rfl

theorem sell_categoryId (s : SalePass) (row : SaleRow) (record : ReportSummary2) :
    (s.sell row record).categoryId = s.categoryId := by
  unfold sell
  split <;> rfl

/-- The running totals are those of the sales `l`. -/
structure Totals (l : List (ℤ × ℚ)) (s : SalePass) : Prop where
  lots : s.totalLots = l.length
  quantity : s.totalLotsQuantity = soldQuantity l
  amount : s.totalActualSoldAmount = soldAmount l

/-- A row of the category `k`, after the sales `l` of the category. -/
theorem sell_spec {s : SalePass} {l : List (ℤ × ℚ)} {row : SaleRow} {k : ℤ}
    {record : ReportSummary2} (h : s.Totals l) (hk : s.categoryId = some k) :
    (s.sell row (withSales k record l)).Totals (l ++ row.sold.toList) ∧
      (s.sell row (withSales k record l)).reportSummary2Prev =
        some (withSales k record (l ++ row.sold.toList)) ∧
      (s.sell row (withSales k record l)).categoryId = some k ∧
      (s.sell row (withSales k record l)).counter = s.counter ∧
      (s.sell row (withSales k record l)).reportSummary2Map = s.reportSummary2Map := by
  -- a row that is not sold only fetches the record
  cases hsold : row.sold with
  | none =>
    have hsell : s.sell row (withSales k record l) =
        { s with reportSummary2Prev := some (withSales k record l) } := by
      rw [sell, hsold]
    rw [hsell, Option.toList_none, List.append_nil]
    exact ⟨⟨h.lots, h.quantity, h.amount⟩, rfl, hk, rfl, rfl⟩
  | some sale =>
    obtain ⟨quantity, price⟩ := sale
    have hlots : s.totalLots + 1 = (l ++ [(quantity, price)]).length := by
      rw [h.lots]
      simp
    have hquantity : s.totalLotsQuantity + quantity = soldQuantity (l ++ [(quantity, price)]) := by
      rw [h.quantity, soldQuantity_append]
    have hamount : s.totalActualSoldAmount + price = soldAmount (l ++ [(quantity, price)]) := by
      rw [h.amount, soldAmount_append]
    -- the record of the sales before is overwritten
    have hrecord : withSales k record (l ++ [(quantity, price)]) =
        { withSales k record l with
          categoryId := some k
          totalActualSoldLots := some (l ++ [(quantity, price)]).length
          totalActualSoldQunatity := some (soldQuantity (l ++ [(quantity, price)]))
          totalActualSoldAmount := some (soldAmount (l ++ [(quantity, price)])) } := by
      unfold withSales
      rw [if_neg (by simp)]
      split <;> rfl
    have hsell : s.sell row (withSales k record l) =
        { s with
          totalLots := (l ++ [(quantity, price)]).length
          totalLotsQuantity := soldQuantity (l ++ [(quantity, price)])
          totalActualSoldAmount := soldAmount (l ++ [(quantity, price)])
          reportSummary2Prev := some (withSales k record (l ++ [(quantity, price)])) } := by
      rw [sell, hsold, hrecord, ← hlots, ← hquantity, ← hamount, hk]
    rw [hsell]
    exact ⟨⟨rfl, rfl, rfl⟩, rfl, hk, rfl, rfl⟩

/-- A state in the category of a row, with no sales yet: the row opens its group. -/
theorem open_single {s : SalePass} {a : SaleRow} (h : s.Totals []) {n : ℕ} :
    Open s.reportSummary2Map a []
      { ({ s with categoryId := some a.categoryId } : SalePass).sell a
          (fetch s.reportSummary2Map a.categoryId) with counter := n + 1 } := by
  have hstart : ({ s with categoryId := some a.categoryId } : SalePass).Totals [] :=
    ⟨h.lots, h.quantity, h.amount⟩
  have hspec := @sell_spec { s with categoryId := some a.categoryId } [] a a.categoryId
    (fetch s.reportSummary2Map a.categoryId) hstart rfl
  -- without sales the record is as it was fetched
  have hnone : withSales a.categoryId (fetch s.reportSummary2Map a.categoryId) [] =
      fetch s.reportSummary2Map a.categoryId := if_pos rfl
  have hsales : sales [a] = [] ++ a.sold.toList := by
    cases hsold : a.sold <;> simp [sales, hsold]
  rw [hnone] at hspec
  obtain ⟨htotals, hprev, hid, -, hmap⟩ := hspec
  rw [← hsales] at htotals hprev
  exact ⟨hmap, hid, Nat.succ_ne_zero n, htotals.lots, htotals.quantity, htotals.amount, hprev⟩

theorem Open.totals {t : Summary2Map} {b : SaleRow} {g : List SaleRow} {s : SalePass}
    (h : s.Open t b g) : s.Totals (sales (b :: g)) := ⟨h.lots, h.quantity, h.amount⟩

/-- Putting the record of the open group is the update of its category, and the totals are zero
    after it. -/
theorem Open.put_spec {t : Summary2Map} {b : SaleRow} {g : List SaleRow} {s : SalePass}
    (h : s.Open t b g) :
    s.put.reportSummary2Map = Collections.put SaleRow.categoryId saleUpdate t (b :: g) ∧
      s.put.Totals [] ∧ s.put.counter = s.counter := by
  have hmap : Collections.put SaleRow.categoryId saleUpdate t (b :: g) =
      Function.update t b.categoryId (saleUpdate (t b.categoryId) (b :: g)) := rfl
  unfold SalePass.put
  rw [h.categoryId, h.prev, hmap]
  dsimp only
  split
  · rename_i hsome
    have hupdate : saleUpdate (t b.categoryId) (b :: g) =
        some (setAverage (withSales b.categoryId (fetch t b.categoryId) (sales (b :: g)))) :=
      if_neg hsome
    rw [hupdate, h.reportSummary2Map]
    exact ⟨rfl, ⟨rfl, rfl, rfl⟩, rfl⟩
  · -- a record without a category: there are no sales, and the map stays
    rename_i hnone
    have hid := not_not.mp hnone
    have hsales : sales (b :: g) = [] := sales_eq_nil_of_categoryId hid
    have hupdate : saleUpdate (t b.categoryId) (b :: g) = t b.categoryId := if_pos hid
    have htotals := h.totals
    rw [hsales] at htotals
    rw [hupdate, Function.update_eq_self]
    exact ⟨h.reportSummary2Map, htotals, rfl⟩

/-- Every turn counts one row. -/
theorem turn_counter (s : SalePass) (row : SaleRow) : (turn s row).counter = s.counter + 1 := by
  have hput : ∀ s : SalePass, s.put.counter = s.counter := by
    intro s
    unfold SalePass.put
    split
    · split <;> rfl
    · rfl
  unfold turn
  dsimp only
  split <;> split <;> try split
  all_goals simp [sell_counter, hput]

/-- The first row opens its category. -/
theorem turn_first (t : Summary2Map) (row : SaleRow) :
    (turn ⟨0, 0, 0, 0, none, none, t⟩ row).Open t row [] := by
  have hturn : turn ⟨0, 0, 0, 0, none, none, t⟩ row =
      { (⟨0, 0, 0, 0, some row.categoryId, none, t⟩ : SalePass).sell row
          (fetch t row.categoryId) with counter := 0 + 1 } := by
    simp [turn, sell_categoryId, sell_counter]
  rw [hturn]
  exact @open_single ⟨0, 0, 0, 0, none, none, t⟩ row ⟨rfl, rfl, rfl⟩ 0

/-- The pass over the sold lots is a control break on the category. -/
theorem controlBreak_turn :
    ControlBreak SaleRow.categoryId (Collections.put SaleRow.categoryId saleUpdate) turn
      (fun t b g s => s.Open t b g) where
  same := by
    intro t b g s a h hkey
    have hid : s.categoryId = some a.categoryId := by rw [h.categoryId, hkey]
    have hturn : turn s a = { s.sell a (withSales b.categoryId (fetch t b.categoryId)
        (sales (b :: g))) with counter := s.counter + 1 } := by
      simp [turn, h.counter, hid, h.prev, sell_counter]
    obtain ⟨htotals, hprev, hcat, -, hmap⟩ := @sell_spec s (sales (b :: g)) a b.categoryId
      (fetch t b.categoryId) h.totals h.categoryId
    have hsales : sales (b :: (g ++ [a])) = sales (b :: g) ++ a.sold.toList := by
      rw [← List.cons_append, sales, List.filterMap_append]
      cases hsold : a.sold <;> simp [sales, hsold]
    rw [← hsales] at htotals hprev
    rw [h.reportSummary2Map] at hmap
    rw [hturn]
    exact ⟨hmap, hcat, Nat.succ_ne_zero _, htotals.lots, htotals.quantity, htotals.amount, hprev⟩
  next := by
    intro t b g s a h hkey
    have hne : ¬ b.categoryId = a.categoryId := fun heq => hkey heq.symm
    -- the totals start again at zero, whether or not the old category had sales
    obtain ⟨hmap, htotals, hcounter⟩ := h.put_spec
    have hturn : turn s a =
        { ({ s.put with categoryId := some a.categoryId } : SalePass).sell a
            (fetch s.put.reportSummary2Map a.categoryId) with counter := s.counter + 1 } := by
      simp [turn, h.counter, h.categoryId, hne, sell_counter, hcounter]
    rw [hturn, ← hmap]
    exact open_single htotals

/-- The pass updates each category with its rows. -/
theorem foldl_apply {rows : List SaleRow} (t : Summary2Map)
    (hrows : Contiguous SaleRow.categoryId rows) (k : ℤ) :
    (rows.foldl (fun s row =>
      if (turn s row).counter = rows.length then (turn s row).put else turn s row)
      ⟨0, 0, 0, 0, none, none, t⟩).reportSummary2Map k =
      saleUpdate (t k) (rows.filter (fun row => row.categoryId = k)) := by
  have hlen : (⟨0, 0, 0, 0, none, none, t⟩ : SalePass).counter + rows.length = rows.length :=
    Nat.zero_add _
  rw [foldl_counted turn_counter hlen.le, hlen]
  cases rows with
  | nil => rfl
  | cons a rows =>
    obtain ⟨gs, b, g, hgroups, hopen⟩ := controlBreak_turn.foldl_rows (turn_first t a) hrows
    have hnil : ∀ v, saleUpdate v [] = v := fun _ => rfl
    rw [if_pos ⟨List.cons_ne_nil a rows, rfl⟩, hopen.put_spec.1, ← foldl_put hnil t k, hgroups,
      List.foldl_append]
    rfl

end SalePass

/-! ## The four passes -/

/-- The number of rows, unset if there are none. -/
def lotsOf (g : List LotRow) : Option ℤ := if g = [] then none else some g.length

/-- The quantity of rows, unset if there are none. -/
def quantityOf (g : List LotRow) : Option ℤ := if g = [] then none else some (quantities g)

/-- The amount divided by the quantity, unset if one of them is zero. -/
def averageOf (l : List (ℤ × ℚ)) : Option ℚ :=
  if soldAmount l ≠ 0 ∧ soldQuantity l ≠ 0 then some (soldAmount l / soldQuantity l) else none

@[simp] theorem averageOf_nil : averageOf [] = none := if_neg (fun h => h.1 rfl)

/-- The average is set from the totals of the sales. -/
theorem setAverage_withSales {k : ℤ} {record : ReportSummary2} {l : List (ℤ × ℚ)}
    (hrecord : record.avergeAmount = none) (hl : l ≠ []) :
    setAverage (withSales k record l) =
      { withSales k record l with avergeAmount := averageOf l } := by
  rw [withSales, if_neg hl, setAverage, averageOf]
  dsimp only
  split
  · rfl
  · rw [← hrecord]

/-- The record of a category `k` whose rows in the four lists are `forSale`, `closed`, `bidded`
    and `unBidded`: there is one if there is a row in the first, third or fourth list or a sold
    one in the second. A field without rows is unset. -/
def totalsOf (k : ℤ) (forSale : List LotRow) (closed : List SaleRow)
    (bidded unBidded : List LotRow) : Option ReportSummary2 :=
  if forSale = [] ∧ sales closed = [] ∧ bidded = [] ∧ unBidded = [] then none
  else some {
    categoryId := some k
    categoryName :=
      ((unBidded.getLast?.or bidded.getLast?).or forSale.head?).bind LotRow.categoryName
    totalLotsForSale := lotsOf forSale
    totalLotsquantityForSale := quantityOf forSale
    totalActualSoldLots := if sales closed = [] then none else some (sales closed).length
    totalActualSoldQunatity :=
      if sales closed = [] then none else some (soldQuantity (sales closed))
    totalActualSoldAmount :=
      if sales closed = [] then none else some (soldAmount (sales closed))
    avergeAmount := averageOf (sales closed)
    totalUnsoldBiddedLots := lotsOf bidded
    totalUnsoldBiddedQuantity := quantityOf bidded
    totalUnsoldUnBiddedLots := lotsOf unBidded
    totalUnsoldUnBiddedQuantity := quantityOf unBidded }

section Passes

variable {k : ℤ} {forSale bidded unBidded : List LotRow} {closed : List SaleRow}

/-- The first pass sets the lots for sale. -/
theorem totalUpdate_totalsOf (hk : ∀ row ∈ forSale, row.categoryId = k) :
    totalUpdate setForSale none forSale = totalsOf k forSale [] [] [] := by
  cases forSale with
  | nil => rfl
  | cons b g =>
    have hb : b.categoryId = k := hk b List.mem_cons_self
    simp [totalUpdate, totalsOf, setForSale, Pass.named, ReportSummary2.new, lotsOf, quantityOf,
      sales, hb]

/-- The second pass adds the sales. -/
theorem saleUpdate_totalsOf (hk : ∀ row ∈ closed, row.categoryId = k) :
    saleUpdate (totalsOf k forSale [] [] []) closed = totalsOf k forSale closed [] [] := by
  cases closed with
  | nil => rfl
  | cons b g =>
    have hb : b.categoryId = k := hk b List.mem_cons_self
    have hsales : sales [] = [] := rfl
    unfold saleUpdate
    rw [List.head?_cons]
    dsimp only
    rw [hb]
    by_cases hnone : sales (b :: g) = []
    · -- no lot of the category is sold: the record stays as it is
      rw [hnone, withSales, if_pos rfl]
      by_cases hsale : forSale = []
      · simp [totalsOf, hsale, hsales, hnone, ReportSummary2.new]
      · simp [totalsOf, hsale, hsales, hnone, setAverage]
    · have hrecord : ((totalsOf k forSale [] [] []).getD .new).avergeAmount = none := by
        unfold totalsOf
        split
        · rfl
        · exact averageOf_nil
      rw [setAverage_withSales hrecord hnone, withSales, if_neg hnone, if_neg (by simp)]
      by_cases hsale : forSale = []
      · simp [totalsOf, hsale, hsales, hnone, ReportSummary2.new, lotsOf, quantityOf]
      · simp [totalsOf, hsale, hsales, hnone]

/-- The third pass adds the unsold lots with bids. -/
theorem unsoldUpdate_bidded (hk : ∀ row ∈ bidded, row.categoryId = k) :
    unsoldUpdate setUnsoldBidded (totalsOf k forSale closed [] []) bidded =
      totalsOf k forSale closed bidded [] := by
  unfold unsoldUpdate
  cases hlast : bidded.getLast? with
  | none => rw [List.getLast?_eq_none_iff.mp hlast]
  | some last =>
    have hne : bidded ≠ [] := fun h => by simp [h] at hlast
    have hid : last.categoryId = k := hk last (List.mem_of_getLast? hlast)
    -- the category may be one that the passes before have not seen
    by_cases hbefore : forSale = [] ∧ sales closed = []
    · simp [totalsOf, hbefore, hne, hlast, hid, setUnsoldBidded, Pass.named, ReportSummary2.new,
        lotsOf, quantityOf]
    · simp [totalsOf, hbefore, hne, hlast, hid, setUnsoldBidded, Pass.named, lotsOf, quantityOf]

/-- The fourth pass adds the unsold lots without bids. -/
theorem unsoldUpdate_unBidded (hk : ∀ row ∈ unBidded, row.categoryId = k) :
    unsoldUpdate setUnsoldUnBidded (totalsOf k forSale closed bidded []) unBidded =
      totalsOf k forSale closed bidded unBidded := by
  unfold unsoldUpdate
  cases hlast : unBidded.getLast? with
  | none => rw [List.getLast?_eq_none_iff.mp hlast]
  | some last =>
    have hne : unBidded ≠ [] := fun h => by simp [h] at hlast
    have hid : last.categoryId = k := hk last (List.mem_of_getLast? hlast)
    by_cases hbefore : forSale = [] ∧ sales closed = [] ∧ bidded = []
    · simp [totalsOf, hbefore, hne, hlast, hid, setUnsoldUnBidded, Pass.named,
        ReportSummary2.new, lotsOf, quantityOf]
    · simp [totalsOf, hbefore, hne, hlast, hid, setUnsoldUnBidded, Pass.named, lotsOf, quantityOf]

end Passes

/-- The rows of a category. -/
def lotsIn (k : ℤ) (rows : List LotRow) : List LotRow :=
  rows.filter (fun row => row.categoryId = k)

/-- The rows of a category in the second list. -/
def closedIn (k : ℤ) (rows : List SaleRow) : List SaleRow :=
  rows.filter (fun row => row.categoryId = k)

theorem categoryId_of_mem_lotsIn {k : ℤ} {rows : List LotRow} {row : LotRow}
    (h : row ∈ lotsIn k rows) : row.categoryId = k :=
  of_decide_eq_true (List.mem_filter.mp h).2

/-- The first pass, category by category. -/
theorem getTotalSalesDataSummary2_eq {objectsList : List ReportItem} {rows : List LotRow}
    (hread : objectsList.mapM lotRow = .ok rows) (hrows : Contiguous LotRow.categoryId rows)
    (t : Summary2Map) :
    getTotalSalesDataSummary2 objectsList t =
      .ok (fun k => totalUpdate setForSale (t k) (lotsIn k rows)) := by
  unfold getTotalSalesDataSummary2
  rw [hread]
  apply congrArg Except.ok
  funext k
  exact Pass.loop_apply Pass.totalTurn_counter (fun _ => rfl)
    (Pass.controlBreak_totalTurn overwrites_forSale) rfl (Pass.totalTurn_first t) hrows k

/-- The passes over the unsold lots, category by category. -/
theorem getUnsoldDataSummary2_eq {set : Setter} (hset : Overwrites set)
    {objectsList : List ReportItem} {rows : List LotRow}
    (hread : objectsList.mapM lotRow = .ok rows) (hrows : Contiguous LotRow.categoryId rows)
    (t : Summary2Map) :
    getUnsoldDataSummary2 set objectsList t =
      .ok (fun k => unsoldUpdate set (t k) (lotsIn k rows)) := by
  unfold getUnsoldDataSummary2
  rw [hread]
  apply congrArg Except.ok
  funext k
  exact Pass.loop_apply Pass.unsoldTurn_counter (fun _ => rfl)
    (Pass.controlBreak_unsoldTurn hset) rfl (Pass.unsoldTurn_first t) hrows k

/-- The pass over the closed lots, category by category. -/
theorem getActualSalesDataSummary2_eq {objectsList : List ReportItem} {rows : List SaleRow}
    (hread : objectsList.mapM saleRow = .ok rows) (hrows : Contiguous SaleRow.categoryId rows)
    (t : Summary2Map) :
    getActualSalesDataSummary2 objectsList t =
      .ok (fun k => saleUpdate (t k) (closedIn k rows)) := by
  unfold getActualSalesDataSummary2
  rw [hread]
  apply congrArg Except.ok
  funext k
  exact SalePass.foldl_apply t hrows k

/-- The four passes, each on the map that the one before has left, in terms of what they read. -/
theorem getReportSummary2_read {totalSale actualSold unsoldBidded unsoldUnBidded : List ReportItem}
    {forSale bidded unBidded : List LotRow} {closed : List SaleRow}
    (hforSale : totalSale.mapM lotRow = .ok forSale)
    (hclosed : actualSold.mapM saleRow = .ok closed)
    (hbidded : unsoldBidded.mapM lotRow = .ok bidded)
    (hunBidded : unsoldUnBidded.mapM lotRow = .ok unBidded)
    (cforSale : Contiguous LotRow.categoryId forSale)
    (cclosed : Contiguous SaleRow.categoryId closed)
    (cbidded : Contiguous LotRow.categoryId bidded)
    (cunBidded : Contiguous LotRow.categoryId unBidded) :
    getReportSummary2 totalSale actualSold unsoldBidded unsoldUnBidded =
      .ok (fun k => totalsOf k (lotsIn k forSale) (closedIn k closed) (lotsIn k bidded)
        (lotsIn k unBidded)) := by
  have htotal := getTotalSalesDataSummary2_eq hforSale cforSale (fun _ => none)
  have hactual := getActualSalesDataSummary2_eq hclosed cclosed
  have hwith := getUnsoldDataSummary2_eq overwrites_unsoldBidded hbidded cbidded
  have hwithout := getUnsoldDataSummary2_eq overwrites_unsoldUnBidded hunBidded cunBidded
  simp only [getReportSummary2, getUnsoldBiddedDataSummary2, getUnsoldUnBiddedDataSummary2, htotal,
    hactual, hwith, hwithout, bind, Except.bind]
  -- for one category, each pass adds its part to the totals
  apply congrArg Except.ok
  funext k
  have hcin : ∀ row ∈ closedIn k closed, row.categoryId = k :=
    fun row h => of_decide_eq_true (List.mem_filter.mp h).2
  rw [totalUpdate_totalsOf fun _ => categoryId_of_mem_lotsIn, saleUpdate_totalsOf hcin,
    unsoldUpdate_bidded fun _ => categoryId_of_mem_lotsIn,
    unsoldUpdate_unBidded fun _ => categoryId_of_mem_lotsIn]

end Bidding.Model.Reports.ReportSummary2Dao
