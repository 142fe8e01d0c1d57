import Mathlib.Data.Prod.Lex
import Bidding.Model.CometPusher
import Bidding.Properties.Standings

/-!
# Live Push and Page

The pushed rank comes from a list that was sorted once more, automatic bids before manual
ones of the same amount, and the pushed mode from the name recorded on the item. The page
takes the rank from the list sorted by amount and time only, and the mode from the bidder's
own entry.

The comparators find amounts less than one apart equal, and cut the difference of two times to
32 bits, so the order in which the bidders are listed decides among such bids. The list comes
from a set of the cache, in any order; what can be said for every order is a condition on the
bids alone.

## Key Results

- **`sort_compareBiddersExt_eq_self_iff`**: when the second sort changes nothing.
- **`indexOf_eq_iff`**: two arrangements of the same bidders give every name the same place
  only if they are equal.
- **`forall_isChain_autoFirst_iff`**: the bids that the second sort leaves as they are in
  whatever order they were listed.
- **`isChain_autoFirst_iff`**: the lists that it leaves as they are, if the comparators tell
  the bids apart.
- **`pushed_eq_page_iff`**: the exact condition under which push and page agree.
-/

namespace Bidding.Model

open Bidding.Collections CometPusher

/-! ## The two sorts -/

theorem doubleToInt_swap {p q : ℚ} (h : 0 < doubleToInt (p - q)) : doubleToInt (q - p) ≤ 0 := by
  apply doubleToInt_nonpos
  by_contra hlt
  have hneg : doubleToInt (p - q) ≤ 0 := doubleToInt_nonpos (by linarith)
  omega

theorem toInt32_swap {m n : ℤ} (h : 0 < toInt32 (m - n)) : toInt32 (n - m) ≤ 0 := by
  unfold toInt32 at h ⊢
  rw [Int.bmod_def] at h ⊢
  split at h <;> split <;> omega

/-- The first comparator does not order two bids both ways. -/
theorem compareBidders_swap (x y : Bidder) (h : 0 < compareBidders x y) :
    compareBidders y x ≤ 0 := by
  unfold compareBidders at h ⊢
  split at h
  · rename_i hne
    rw [if_pos (Ne.symm hne)]
    exact doubleToInt_swap h
  · rename_i heq
    rw [if_neg (fun hne => heq (Ne.symm hne))]
    exact toInt32_swap h

/-- Nor does the second one. -/
theorem compareBiddersExt_swap (x y : Bidder) (h : 0 < compareBiddersExt x y) :
    compareBiddersExt y x ≤ 0 := by
  unfold compareBiddersExt at h ⊢
  split at h
  · rename_i hne
    rw [if_pos (Ne.symm hne)]
    exact doubleToInt_swap h
  · rename_i heq
    rw [if_neg (fun hne => heq (Ne.symm hne))]
    -- between an automatic and a manual bid only one direction is positive
    split at h
    · rename_i hauto
      rw [if_pos (Ne.symm hauto)]
      cases hx : x.isAutoBid <;> cases hy : y.isAutoBid <;> simp_all
    · rename_i hauto
      rw [if_neg (fun hne => hauto (Ne.symm hne))]
      exact toInt32_swap h

/-- `x` may stand directly before `y`: it is not a manual bid before an automatic one of the
    same amount. -/
def AutoFirst (x y : Bidder) : Prop :=
  x.currentBidAmount = y.currentBidAmount → y.isAutoBid = true → x.isAutoBid = true

/-- On neighbours in the first order, the second comparator asks for automatic bids first. -/
theorem compareBiddersExt_le_iff {x y : Bidder} (h : compareBidders x y ≤ 0) :
    compareBiddersExt x y ≤ 0 ↔ AutoFirst x y := by
  unfold compareBidders at h
  unfold compareBiddersExt AutoFirst
  by_cases hamount : y.currentBidAmount = x.currentBidAmount
  · rw [if_neg (not_not.mpr hamount)] at h ⊢
    cases hx : x.isAutoBid <;> cases hy : y.isAutoBid <;> simp [hamount, h]
  · rw [if_pos hamount] at h ⊢
    exact iff_of_true h (fun heq => absurd heq.symm hamount)

theorem isChain_iff_of_isChain {α : Type} {p q r : α → α → Prop} {l : List α}
    (hl : l.IsChain p) (h : ∀ x y, p x y → (q x y ↔ r x y)) : l.IsChain q ↔ l.IsChain r := by
  simp only [List.isChain_iff_getElem] at hl ⊢
  exact forall_congr' fun i => forall_congr' fun hi => h _ _ (hl i hi)

theorem sort_compareBiddersExt_eq_self_iff (l : List Bidder) :
    sort compareBiddersExt (sort compareBidders l) = sort compareBidders l ↔
      (sort compareBidders l).IsChain AutoFirst := by
  rw [sort_eq_self_iff compareBiddersExt_swap]
  exact isChain_iff_of_isChain (sort_isChain compareBidders_swap l)
    (fun x y => compareBiddersExt_le_iff)

/-! ## Bids in any order -/

/-- Every automatic bid came before every manual one of the same amount. -/
def AutoEarlier (l : List Bidder) : Prop :=
  ∀ x ∈ l, ∀ y ∈ l, x.currentBidAmount = y.currentBidAmount → x.isAutoBid = false →
    y.isAutoBid = true → 0 < toInt32 (x.biddingTime - y.biddingTime)

theorem compareBidders_le_of_lt {x y : Bidder} (h : y.currentBidAmount < x.currentBidAmount) :
    compareBidders x y ≤ 0 := by
  unfold compareBidders
  rw [if_pos h.ne]
  exact doubleToInt_nonpos (by linarith)

theorem compareBidders_of_amount {x y : Bidder} (h : x.currentBidAmount = y.currentBidAmount) :
    compareBidders x y = toInt32 (x.biddingTime - y.biddingTime) := by
  unfold compareBidders
  rw [if_neg (not_not.mpr h.symm)]

/-- In an order that the first sort leaves as it is. -/
theorem AutoEarlier.isChain {l : List Bidder} (h : AutoEarlier l) {s : List Bidder}
    (hperm : s.Perm l) (hs : s.IsChain (fun x y => compareBidders x y ≤ 0)) :
    s.IsChain AutoFirst := by
  rw [List.isChain_iff_getElem] at hs ⊢
  intro i hi hamount hauto
  by_contra hmanual
  have hpos := h s[i] (hperm.mem_iff.mp (List.getElem_mem _)) s[i + 1]
    (hperm.mem_iff.mp (List.getElem_mem _)) hamount (by simpa using hmanual) hauto
  rw [← compareBidders_of_amount hamount] at hpos
  exact absurd (hs i hi) (Int.not_le.mpr hpos)

/-- Some bids in an order that the first sort leaves as it is, `x` before `y`. -/
theorem exists_path {group : List Bidder} {x y : Bidder} (hx : x ∈ group)
    (hy : y ∈ group.erase x) (hxy : compareBidders x y ≤ 0) :
    ∃ s : List Bidder, s.Perm group ∧ s.IsChain (fun x y => compareBidders x y ≤ 0) ∧
      [x, y].Sublist s := by
  -- the others are inserted one after the other into `x, y`
  have hgroup : ([x, y] ++ (group.erase x).erase y).Perm group :=
    ((List.perm_cons_erase hy).symm.cons x).trans (List.perm_cons_erase hx).symm
  refine ⟨insertionSort compareBidders ([x, y] ++ (group.erase x).erase y),
    (insertionSort_perm compareBidders _).trans hgroup,
    insertionSort_isChain compareBidders_swap _, ?_⟩
  have hkept := insertionSort_sublist compareBidders [x, y] ((group.erase x).erase y)
  rwa [insertionSort_eq_self (by simpa using hxy)] at hkept

/-- All bids in an order that the first sort leaves as it is, those of one amount as given. -/
theorem exists_isChain_around {l s : List Bidder} {amount : ℚ}
    (hs : s.Perm (l.filter (fun b => b.currentBidAmount = amount)))
    (hchain : s.IsChain (fun x y => compareBidders x y ≤ 0)) :
    ∃ above below, (above ++ (s ++ below)).Perm l ∧
      (above ++ (s ++ below)).IsChain (fun x y => compareBidders x y ≤ 0) := by
  have hamount : ∀ b ∈ s, b.currentBidAmount = amount := by
    intro b hb
    simpa using (List.mem_filter.mp (hs.mem_iff.mp hb)).2
  have habove : ∀ b ∈ sort compareBidders (l.filter (fun b => amount < b.currentBidAmount)),
      amount < b.currentBidAmount := by
    intro b hb
    simpa using (List.mem_filter.mp ((sort_perm _ _).mem_iff.mp hb)).2
  have hbelow : ∀ b ∈ sort compareBidders (l.filter (fun b => b.currentBidAmount < amount)),
      b.currentBidAmount < amount := by
    intro b hb
    simpa using (List.mem_filter.mp ((sort_perm _ _).mem_iff.mp hb)).2
  refine ⟨sort compareBidders (l.filter (fun b => amount < b.currentBidAmount)),
    sort compareBidders (l.filter (fun b => b.currentBidAmount < amount)), ?_, ?_⟩
  · -- the bids are split by their amount into those above, at and below
    have hupTo := (hs.append (sort_perm compareBidders _)).trans
      (filter_upTo_perm Bidder.currentBidAmount amount l)
    exact ((sort_perm _ _).append hupTo).trans (filter_above_perm _ amount l)
  · -- across the borders the amounts descend
    apply List.isChain_append.mpr
    refine ⟨sort_isChain compareBidders_swap _, List.isChain_append.mpr
      ⟨hchain, sort_isChain compareBidders_swap _, ?_⟩, ?_⟩
    · intro x hx y hy
      apply compareBidders_le_of_lt
      rw [hamount x (List.mem_of_getLast? hx)]
      exact hbelow y (List.mem_of_mem_head? hy)
    · intro x hx y hy
      apply compareBidders_le_of_lt
      have hgt := habove x (List.mem_of_getLast? hx)
      rcases List.mem_append.mp (List.mem_of_mem_head? hy) with hy | hy
      · rw [hamount y hy]
        exact hgt
      · exact (hbelow y hy).trans hgt

/-- In a chain of bids of one amount the automatic ones come first. -/
theorem pairwise_of_isChain_autoFirst {s : List Bidder} {amount : ℚ}
    (hamount : ∀ b ∈ s, b.currentBidAmount = amount) (h : s.IsChain AutoFirst) :
    s.Pairwise (fun x y => y.isAutoBid = true → x.isAutoBid = true) := by
  have htrans : IsTrans Bidder (fun x y => y.isAutoBid = true → x.isAutoBid = true) :=
    ⟨fun x y z hxy hyz hz => hxy (hyz hz)⟩
  apply List.isChain_iff_pairwise.mp
  rw [List.isChain_iff_getElem] at h ⊢
  intro i hi
  exact h i hi ((hamount _ (List.getElem_mem _)).trans (hamount _ (List.getElem_mem _)).symm)

/-- The second sort changes nothing, in whatever order the bidders are listed, exactly when
    every automatic bid came before every manual one of the same amount. -/
theorem forall_isChain_autoFirst_iff {l : List Bidder} :
    (∀ l', l'.Perm l → (sort compareBidders l').IsChain AutoFirst) ↔ AutoEarlier l := by
  rw [forall_sort_iff compareBidders_swap]
  constructor
  · -- a manual bid that is not later could be listed before the automatic one
    intro h x hx y hy hsame hmanual hauto
    by_contra hle
    rw [← compareBidders_of_amount hsame] at hle
    let group := l.filter (fun b => b.currentBidAmount = x.currentBidAmount)
    have hxg : x ∈ group := List.mem_filter.mpr ⟨hx, by simp⟩
    have hyg : y ∈ group.erase x := by
      apply (List.mem_erase_of_ne _).mpr (List.mem_filter.mpr ⟨hy, by simp [hsame]⟩)
      rintro rfl
      rw [hmanual] at hauto
      cases hauto
    obtain ⟨s, hperm, hchain, hsub⟩ := exists_path hxg hyg (Int.not_lt.mp hle)
    obtain ⟨above, below, hall, hallchain⟩ := exists_isChain_around hperm hchain
    -- the order is kept by the first sort, and has `x` before `y` among the bids of one amount
    have hfirst := h _ hall hallchain
    have hs : s.IsChain AutoFirst :=
      (List.isChain_append.mp (List.isChain_append.mp hfirst).2.1).1
    have hpairs := (pairwise_of_isChain_autoFirst (fun b hb => by
      simpa using (List.mem_filter.mp (hperm.mem_iff.mp hb)).2) hs).sublist hsub
    have hx' := (List.pairwise_pair.mp hpairs) hauto
    rw [hmanual] at hx'
    cases hx'
  · intro h s hperm hchain
    exact h.isChain hperm hchain

/-! ## Bids that the comparators tell apart -/

/-- Different amounts are one or more apart, and the times of equal ones less than 25 days. -/
structure Distinguished (l : List Bidder) : Prop where
  amounts : ∀ x ∈ l, ∀ y ∈ l, x.currentBidAmount < y.currentBidAmount →
    x.currentBidAmount + 1 ≤ y.currentBidAmount
  times : ∀ x ∈ l, ∀ y ∈ l, x.currentBidAmount = y.currentBidAmount →
    x.biddingTime - y.biddingTime < 2 ^ 31

/-- Two bids of one amount, `x` listed before `y`: an automatic one came before a manual one, or
    at the same time if it is also listed before it. -/
def InStep (x y : Bidder) : Prop :=
  x.currentBidAmount = y.currentBidAmount →
    (x.isAutoBid = false → y.isAutoBid = true → y.biddingTime < x.biddingTime) ∧
      (x.isAutoBid = true → y.isAutoBid = false → x.biddingTime ≤ y.biddingTime)

/-- The place of a bid: the higher amount first, then the earlier time. -/
def placeKey (b : Bidder) : ℚᵒᵈ ×ₗ ℤ :=
  toLex (OrderDual.toDual b.currentBidAmount, b.biddingTime)

/-- The order of places: by descending amount, then by ascending time. -/
theorem placeKey_le_iff {x y : Bidder} :
    placeKey x ≤ placeKey y ↔ y.currentBidAmount < x.currentBidAmount ∨
      x.currentBidAmount = y.currentBidAmount ∧ x.biddingTime ≤ y.biddingTime := by
  unfold placeKey
  rw [Prod.Lex.toLex_le_toLex]
  rfl

theorem placeKey_eq_iff {x y : Bidder} :
    placeKey x = placeKey y ↔
      x.currentBidAmount = y.currentBidAmount ∧ x.biddingTime = y.biddingTime := by
  unfold placeKey
  simp

section Distinguished

variable {l : List Bidder}

/-- The first comparator compares the places. -/
theorem Distinguished.compareBidders_le_iff (h : Distinguished l) {x y : Bidder} (hx : x ∈ l)
    (hy : y ∈ l) : compareBidders x y ≤ 0 ↔ placeKey x ≤ placeKey y := by
  rw [placeKey_le_iff]
  -- different amounts differ by one, and times fit into an `int`
  rcases lt_trichotomy x.currentBidAmount y.currentBidAmount with hlt | heq | hgt
  · have hone := h.amounts x hx y hy hlt
    have hpos : 0 < compareBidders x y := by
      unfold compareBidders
      rw [if_pos hlt.ne', doubleToInt_pos]
      linarith
    exact iff_of_false (Int.not_le.mpr hpos) (by simp [hlt.le, hlt.ne])
  · have hxy := h.times x hx y hy heq
    have hyx := h.times y hy x hx heq.symm
    have hlow : -2 ^ 31 ≤ x.biddingTime - y.biddingTime := by linarith
    rw [compareBidders_of_amount heq, toInt32_of_fits hlow hxy]
    simp [heq]
  · exact iff_of_true (compareBidders_le_of_lt hgt) (.inl hgt)

/-- A relation between bids of one place, place by place. -/
theorem pairwise_iff_forall_key {R : Bidder → Bidder → Prop} :
    l.Pairwise (fun x y => placeKey x = placeKey y → R x y) ↔
      ∀ k, (l.filter (placeKey · = k)).Pairwise R := by
  simp only [List.pairwise_filter]
  simp only [List.pairwise_iff_getElem, decide_eq_true_eq]
  constructor
  · intro h k i j hi hj hij hki hkj
    exact h i j hi hj hij (hki.trans hkj.symm)
  · intro h i j hi hj hij hkey
    exact h _ i j hi hj hij hkey rfl

/-- In bids by descending amount those of one amount stand together, so that neighbours tell
    which come first. -/
theorem isChain_autoFirst_iff_pairwise {s : List Bidder}
    (hs : s.Pairwise (fun x y => placeKey x ≤ placeKey y)) :
    s.IsChain AutoFirst ↔ s.Pairwise AutoFirst := by
  refine ⟨fun h => ?_, List.Pairwise.isChain⟩
  -- with the amounts included the relation is transitive
  have htrans : IsTrans Bidder (fun x y => y.currentBidAmount < x.currentBidAmount ∨
      x.currentBidAmount = y.currentBidAmount ∧ (y.isAutoBid = true → x.isAutoBid = true)) := by
    refine ⟨fun x y z hxy hyz => ?_⟩
    rcases hxy with hxy | ⟨hxy, hauto⟩
    · rcases hyz with hyz | ⟨hyz, -⟩
      · exact .inl (hyz.trans hxy)
      · exact .inl (hyz ▸ hxy)
    · rcases hyz with hyz | ⟨hyz, hauto'⟩
      · exact .inl (hxy ▸ hyz)
      · exact .inr ⟨hxy.trans hyz, fun hz => hauto (hauto' hz)⟩
  have hchain : s.IsChain (fun x y => y.currentBidAmount < x.currentBidAmount ∨
      x.currentBidAmount = y.currentBidAmount ∧ (y.isAutoBid = true → x.isAutoBid = true)) := by
    apply (isChain_iff_of_isChain hs.isChain _).mp h
    intro x y hkey
    rcases placeKey_le_iff.mp hkey with hlt | ⟨heq, -⟩
    · exact iff_of_true (fun heq => absurd heq hlt.ne') (.inl hlt)
    · simp [AutoFirst, heq]
  apply (List.isChain_iff_pairwise.mp hchain).imp
  intro x y hxy hamount
  exact (hxy.resolve_left fun hlt => hlt.ne hamount.symm).2

/-- Of an automatic and a manual bid of one amount, the automatic one is not the later one. -/
def AutoNotLater (x y : Bidder) : Prop :=
  x.currentBidAmount = y.currentBidAmount →
    (x.isAutoBid = false → y.isAutoBid = true → y.biddingTime ≤ x.biddingTime) ∧
      (x.isAutoBid = true → y.isAutoBid = false → x.biddingTime ≤ y.biddingTime)

theorem AutoNotLater.symm {x y : Bidder} (h : AutoNotLater x y) : AutoNotLater y x :=
  fun hamount => ⟨fun hy hx => (h hamount.symm).2 hx hy, fun hy hx => (h hamount.symm).1 hx hy⟩

/-- Bids are in step if the times are, and the list decides between bids of one time. -/
theorem inStep_iff {x y : Bidder} :
    InStep x y ↔ AutoNotLater x y ∧
      (placeKey x = placeKey y → y.isAutoBid = true → x.isAutoBid = true) := by
  rw [placeKey_eq_iff]
  constructor
  · intro h
    refine ⟨fun hamount => ⟨fun hx hy => ((h hamount).1 hx hy).le, (h hamount).2⟩, ?_⟩
    rintro ⟨hamount, htime⟩ hy
    by_contra hx
    exact absurd ((h hamount).1 (by simpa using hx) hy) (by rw [htime]; exact lt_irrefl _)
  · intro h hamount
    refine ⟨fun hx hy => ?_, (h.1 hamount).2⟩
    -- at the same time the automatic bid would have to be listed first
    refine lt_of_le_of_ne ((h.1 hamount).1 hx hy) fun htime => ?_
    have hx' := h.2 ⟨hamount, htime.symm⟩ hy
    rw [hx] at hx'
    cases hx'

/-- In bids by descending amount and ascending time, the automatic ones of an amount come first
    exactly if the bids are in step. -/
theorem autoFirst_iff_inStep {x y : Bidder} (h : placeKey x ≤ placeKey y) :
    AutoFirst x y ↔ InStep x y := by
  have htime : x.currentBidAmount = y.currentBidAmount → x.biddingTime ≤ y.biddingTime :=
    fun hamount => ((placeKey_le_iff.mp h).resolve_left fun hlt => hlt.ne hamount.symm).2
  constructor
  · intro hauto hamount
    refine ⟨fun hx hy => ?_, fun _ _ => htime hamount⟩
    have hx' := hauto hamount hy
    rw [hx] at hx'
    cases hx'
  · intro hstep hamount hy
    by_contra hx
    exact absurd ((hstep hamount).1 (by simpa using hx) hy) (not_lt.mpr (htime hamount))

/-- The second sort changes nothing exactly when the bids are listed in step. -/
theorem Distinguished.isChain_autoFirst_iff (h : Distinguished l) :
    (sort compareBidders l).IsChain AutoFirst ↔ l.Pairwise InStep := by
  have hcmp : ∀ x ∈ l, ∀ y ∈ l, compareBidders x y ≤ 0 ↔ placeKey x ≤ placeKey y :=
    fun x hx y hy => h.compareBidders_le_iff hx hy
  have hsorted := sort_pairwise_key hcmp
  -- the sort keeps which bids there are, and the order of those of one amount and time
  have hnotLater : (sort compareBidders l).Pairwise AutoNotLater ↔ l.Pairwise AutoNotLater :=
    List.Perm.pairwise_iff AutoNotLater.symm (sort_perm compareBidders l)
  have htied : (sort compareBidders l).Pairwise
        (fun x y => placeKey x = placeKey y → y.isAutoBid = true → x.isAutoBid = true) ↔
      l.Pairwise
        (fun x y => placeKey x = placeKey y → y.isAutoBid = true → x.isAutoBid = true) := by
    simp only [pairwise_iff_forall_key, sort_filter hcmp]
  calc (sort compareBidders l).IsChain AutoFirst
      ↔ (sort compareBidders l).Pairwise AutoFirst := isChain_autoFirst_iff_pairwise hsorted
    _ ↔ (sort compareBidders l).Pairwise InStep :=
      ⟨hsorted.imp₂ fun _ _ hkey => (autoFirst_iff_inStep hkey).mp,
        hsorted.imp₂ fun _ _ hkey => (autoFirst_iff_inStep hkey).mpr⟩
    _ ↔ l.Pairwise InStep := by
      have hsplit : ∀ bids : List Bidder, bids.Pairwise InStep ↔ bids.Pairwise AutoNotLater ∧
          bids.Pairwise
            (fun x y => placeKey x = placeKey y → y.isAutoBid = true → x.isAutoBid = true) :=
        fun bids => (List.Pairwise.iff fun _ _ => inStep_iff).trans List.pairwise_and_iff
      rw [hsplit, hsplit, hnotLater, htied]

end Distinguished

/-! ## Places of names -/

section Places

variable {l l' : List Bidder}

/-- The place of a name is that of its entry. -/
theorem indexOf_eq_iff_getElem (hdistinct : (l.map Bidder.bidderName).Nodup) {name : String}
    {i : ℕ} : indexOf l name = i ↔ ∃ b, l[i]? = some b ∧ b.bidderName = some name := by
  unfold indexOf
  constructor
  · intro h
    split at h
    · rename_i j hj
      obtain rfl : j = i := by exact_mod_cast h
      obtain ⟨hlt, hname, -⟩ := List.findIdx?_eq_some_iff_getElem.mp hj
      exact ⟨l[j], List.getElem?_eq_getElem hlt, by simpa using hname⟩
    · omega
  · rintro ⟨b, hb, hname⟩
    obtain ⟨hi, rfl⟩ := List.getElem?_eq_some_iff.mp hb
    have hfind : l.findIdx? (fun b => decide (b.bidderName = some name)) = some i := by
      apply List.findIdx?_eq_some_iff_getElem.mpr
      refine ⟨hi, by simpa using hname, ?_⟩
      intro j hj hname'
      have hsame : (l.map Bidder.bidderName)[j]? = (l.map Bidder.bidderName)[i]? := by
        simp [hi, hj.trans hi, hname, of_decide_eq_true hname']
      have hlength : j < (l.map Bidder.bidderName).length := by simpa using hj.trans hi
      exact absurd ((List.getElem?_inj hlength hdistinct).mp hsame) (Nat.ne_of_lt hj)
    rw [hfind]

/-- Two lists of the same bidders are equal if every name has the same place. -/
theorem eq_of_indexOf_eq (hperm : l'.Perm l) (hnamed : ∀ b ∈ l, b.bidderName ≠ none)
    (hdistinct : (l.map Bidder.bidderName).Nodup)
    (h : ∀ name, indexOf l' name = indexOf l name) : l' = l := by
  have hdistinct' : (l'.map Bidder.bidderName).Nodup := (hperm.map _).nodup_iff.mpr hdistinct
  apply List.ext_getElem?
  intro i
  cases hb : l[i]? with
  | none =>
    have hlength := hperm.length_eq
    simp only [List.getElem?_eq_none_iff] at hb ⊢
    omega
  | some b =>
    -- the entry at this place has a name, and the other list has the same entry there
    have hmem := List.mem_of_getElem? hb
    obtain ⟨name, hname⟩ := Option.ne_none_iff_exists'.mp (hnamed b hmem)
    have hplace : indexOf l name = i := (indexOf_eq_iff_getElem hdistinct).mpr ⟨b, hb, hname⟩
    rw [← h name] at hplace
    obtain ⟨b', hb', hname'⟩ := (indexOf_eq_iff_getElem hdistinct').mp hplace
    have hmem' : b' ∈ l := hperm.mem_iff.mp (List.mem_of_getElem? hb')
    rw [hb']
    exact congrArg some (List.inj_on_of_nodup_map hdistinct hmem' hmem (hname'.trans hname.symm))

/-- Two arrangements of the same bidders give every name the same place only if they are
    equal. -/
theorem indexOf_eq_iff (hperm : l'.Perm l) (hnamed : ∀ b ∈ l, b.bidderName ≠ none)
    (hdistinct : (l.map Bidder.bidderName).Nodup) :
    (∀ name, indexOf l' name = indexOf l name) ↔ l' = l := by
  constructor
  · exact eq_of_indexOf_eq hperm hnamed hdistinct
  · rintro rfl name
    rfl

end Places

/-! ## Push and page -/

/-- The bidder of that name has an automatic bid in the list. -/
def BidsByAuto (l : List Bidder) (name : String) : Prop :=
  ∃ b ∈ l, b.bidderName = some name ∧ b.isAutoBid = true

/-- The pushed rank and mode are those of the page, for every bidder and every open page. -/
def PushAgrees (item : BidItem) : Prop :=
  ∀ sessions, ∃ pushes, setBidDisplay item sessions = .ok pushes ∧
    ∀ push ∈ pushes, (push.2.rank, push.2.mode) = BidderController.rankAndMode item push.1

/-- On an item with an auto-bid the recorded bidder is the one bidder whose entry is
    automatic. -/
def ModesAligned (item : BidItem) : Prop :=
  item.autoBidFlag = true →
    ∀ name, item.autoBidderName = some name ↔ BidsByAuto item.currentBiddersList name

section Page

variable {item : BidItem}

/-- The mode on the page is that of the bidder's entry. -/
theorem rankAndMode_eq (hdistinct : (item.currentBiddersList.map Bidder.bidderName).Nodup)
    (name : String) [Decidable (BidsByAuto item.currentBiddersList name)] :
    BidderController.rankAndMode item name =
      (indexOf item.sortBidders.currentBiddersList name + 1,
        if item.autoBidFlag = true ∧ BidsByAuto item.currentBiddersList name then .auto
        else .manual) := by
  have hperm : item.sortBidders.currentBiddersList.Perm item.currentBiddersList := sort_perm ..
  have hnodup : (item.sortBidders.currentBiddersList.map Bidder.bidderName).Nodup :=
    (hperm.map Bidder.bidderName).nodup_iff.mpr hdistinct
  have hentry : (0 < indexOf item.sortBidders.currentBiddersList name + 1 ∧
      (item.sortBidders.currentBiddersList[(indexOf item.sortBidders.currentBiddersList name +
        1 - 1).toNat]?).any Bidder.isAutoBid) ↔ BidsByAuto item.currentBiddersList name := by
    rw [Int.add_sub_cancel, Option.any_eq_true]
    constructor
    · rintro ⟨hpos, b, hb, hauto⟩
      -- a positive rank is the place of an entry with this name
      obtain ⟨i, hi⟩ := Int.eq_ofNat_of_zero_le (by omega :
        0 ≤ indexOf item.sortBidders.currentBiddersList name)
      obtain ⟨b', hb', hname⟩ := (indexOf_eq_iff_getElem hnodup).mp hi
      rw [hi, Int.toNat_natCast, hb'] at hb
      obtain rfl := Option.some.inj hb
      exact ⟨b', hperm.mem_iff.mp (List.mem_of_getElem? hb'), hname, hauto⟩
    · rintro ⟨b, hb, hname, hauto⟩
      obtain ⟨i, hi⟩ := List.getElem?_of_mem (hperm.mem_iff.mpr hb)
      rw [(indexOf_eq_iff_getElem hnodup).mpr ⟨b, hi, hname⟩, Int.toNat_natCast]
      exact ⟨by omega, b, hi, hauto⟩
  unfold BidderController.rankAndMode
  simp only [hentry]
  split <;> rfl

/-- The pair that is pushed for a name. -/
theorem message_eq (id : ℤ) (bidders : List Bidder) (name : String) :
    ((message id item bidders name).rank, (message id item bidders name).mode) =
      (indexOf bidders name + 1,
        if item.autoBidFlag = true ∧ item.autoBidderName = some name then .auto else .manual) := by
  unfold message
  by_cases hflag : item.autoBidFlag = true
  · by_cases hname : item.autoBidderName = some name <;> simp [hflag, hname]
  · simp [hflag]

theorem mode_eq_iff {flag p q : Prop} [Decidable (flag ∧ p)] [Decidable (flag ∧ q)] :
    (if flag ∧ p then BidMode.auto else .manual) = (if flag ∧ q then BidMode.auto else .manual) ↔
      (flag → (p ↔ q)) := by
  by_cases hflag : flag
  · by_cases hp : p <;> by_cases hq : q <;> simp [hflag, hp, hq]
  · simp [hflag]

/-- The updates are those for the names of the sessions that are valid. -/
theorem setBidDisplay_agrees_iff {id : ℤ} (hid : item.bidItemId = some id)
    (page : String → ℤ × BidMode) :
    (∀ sessions, ∃ pushes, setBidDisplay item sessions = .ok pushes ∧
        ∀ push ∈ pushes, (push.2.rank, push.2.mode) = page push.1) ↔
      ∀ name, (indexOf (sort compareBiddersExt item.sortBidders.currentBiddersList) name + 1,
        if item.autoBidFlag = true ∧ item.autoBidderName = some name then BidMode.auto
        else .manual) = page name := by
  simp only [← message_eq id]
  unfold setBidDisplay
  rw [hid]
  constructor
  · intro h name
    -- one valid session is enough to see the update for a name
    obtain ⟨pushes, hpushes, hall⟩ := h [⟨false, some name⟩]
    obtain rfl := Except.ok.inj hpushes
    exact hall (name, message id item (sort compareBiddersExt
      item.sortBidders.currentBiddersList) name) (by simp)
  · intro h sessions
    refine ⟨_, rfl, fun push hpush => ?_⟩
    obtain ⟨session, -, hsession⟩ := List.mem_filterMap.mp hpush
    split at hsession
    · cases hsession
    · obtain ⟨name, -, rfl⟩ := Option.map_eq_some_iff.mp hsession
      exact h name

open Classical in
/-- Push and page agree if the second sort changes nothing and the modes are aligned. -/
theorem pushAgrees_iff {id : ℤ} (hid : item.bidItemId = some id)
    (hnamed : ∀ b ∈ item.currentBiddersList, b.bidderName ≠ none)
    (hdistinct : (item.currentBiddersList.map Bidder.bidderName).Nodup) :
    PushAgrees item ↔
      (sort compareBidders item.currentBiddersList).IsChain AutoFirst ∧ ModesAligned item := by
  have hperm : item.sortBidders.currentBiddersList.Perm item.currentBiddersList := sort_perm ..
  have hnamed' : ∀ b ∈ item.sortBidders.currentBiddersList, b.bidderName ≠ none :=
    fun b hb => hnamed b (hperm.mem_iff.mp hb)
  have hdistinct' := (hperm.map Bidder.bidderName).nodup_iff.mpr hdistinct
  unfold PushAgrees ModesAligned
  rw [setBidDisplay_agrees_iff hid]
  simp only [rankAndMode_eq hdistinct, Prod.mk.injEq, mode_eq_iff, add_left_inj]
  rw [forall_and, indexOf_eq_iff (sort_perm ..) hnamed' hdistinct']
  constructor
  · rintro ⟨hranks, hmodes⟩
    exact ⟨(sort_compareBiddersExt_eq_self_iff _).mp hranks, fun hflag name => hmodes name hflag⟩
  · rintro ⟨hranks, hmodes⟩
    exact ⟨(sort_compareBiddersExt_eq_self_iff _).mpr hranks, fun name hflag => hmodes hflag name⟩

theorem modesAligned_perm {bidders : List Bidder} (h : bidders.Perm item.currentBiddersList) :
    ModesAligned { item with currentBiddersList := bidders } ↔ ModesAligned item := by
  unfold ModesAligned BidsByAuto
  simp only [h.mem_iff]

/-- **The pushed rank and mode are those of the page, in whatever order the bidders are listed,
    exactly if every automatic bid came before every manual one of the same amount and the modes
    are aligned.** If the comparators tell the bids apart, push and page agree for one list
    exactly if its bids are in step and the modes are aligned. -/
theorem pushed_eq_page_iff {id : ℤ} (hid : item.bidItemId = some id)
    (hnamed : ∀ b ∈ item.currentBiddersList, b.bidderName ≠ none)
    (hdistinct : (item.currentBiddersList.map Bidder.bidderName).Nodup) :
    ((∀ bidders, bidders.Perm item.currentBiddersList →
        PushAgrees { item with currentBiddersList := bidders }) ↔
      AutoEarlier item.currentBiddersList ∧ ModesAligned item) ∧
    (Distinguished item.currentBiddersList →
      (PushAgrees item ↔ item.currentBiddersList.Pairwise InStep ∧ ModesAligned item)) := by
  constructor
  · have hagrees : ∀ bidders : List Bidder, bidders.Perm item.currentBiddersList →
        (PushAgrees { item with currentBiddersList := bidders } ↔
          (sort compareBidders bidders).IsChain AutoFirst ∧ ModesAligned item) := by
      intro bidders hperm
      rw [← modesAligned_perm hperm]
      apply @pushAgrees_iff { item with currentBiddersList := bidders } id hid
      · exact fun b hb => hnamed b (hperm.mem_iff.mp hb)
      · exact (hperm.map Bidder.bidderName).nodup_iff.mpr hdistinct
    rw [← forall_isChain_autoFirst_iff]
    constructor
    · intro h
      exact ⟨fun bidders hperm => ((hagrees bidders hperm).mp (h bidders hperm)).1,
        ((hagrees _ (List.Perm.refl _)).mp (h _ (List.Perm.refl _))).2⟩
    · intro h bidders hperm
      exact (hagrees bidders hperm).mpr ⟨h.1 bidders hperm, h.2⟩
  · intro hapart
    rw [pushAgrees_iff hid hnamed hdistinct, hapart.isChain_autoFirst_iff]

end Page

/-- Item `1` with an auto-bid of `bidder2`, and its bidders. -/
def displayedItem (bidders : List Bidder) : BidItem :=
  { BidItem.new with
    bidItemId := some 1
    autoBidFlag := true
    amountAutoBid := some 200
    autoBidderName := some "bidder2"
    currentBiddersList := bidders }

/-- A manual bid of the same amount as the automatic one came later, one of another amount
    earlier. -/
def apartBidders : List Bidder :=
  [⟨some "bidder1", 100, false, 3000, none⟩, ⟨some "bidder2", 100, true, 2000, some 200⟩,
    ⟨some "bidder3", 90, false, 1000, none⟩]

/-- These bidders may be listed in any order; as they are listed, `bidder1` is told rank 2 in
    both ways. -/
theorem pushed_eq_page_apartBidders :
    (∀ bidders, bidders.Perm apartBidders → PushAgrees (displayedItem bidders)) ∧
      setBidDisplay (displayedItem apartBidders) [⟨false, some "bidder1"⟩] =
        .ok [("bidder1", ⟨1, 2, .manual, 0⟩)] ∧
      BidderController.rankAndMode (displayedItem apartBidders) "bidder1" = (2, .manual) := by
  refine ⟨?_, by decide +kernel⟩
  have hearlier : AutoEarlier apartBidders := by
    unfold AutoEarlier
    decide +kernel
  have hmodes : ModesAligned (displayedItem apartBidders) := by
    intro _ name
    simp [displayedItem, BidsByAuto, apartBidders]
  exact (@pushed_eq_page_iff (displayedItem apartBidders) 1 rfl (by decide) (by decide)).1.mpr
    ⟨hearlier, hmodes⟩

/-- The manual bid of the same amount came first. -/
def tiedBidders : List Bidder :=
  [⟨some "bidder1", 100, false, 1000, none⟩, ⟨some "bidder2", 100, true, 2000, some 200⟩]

/-- On the page `bidder1` is first; the push says second. -/
theorem tiedBidders_pushed_ne_page :
    setBidDisplay (displayedItem tiedBidders) [⟨false, some "bidder1"⟩] =
        .ok [("bidder1", ⟨1, 2, .manual, 0⟩)] ∧
      BidderController.rankAndMode (displayedItem tiedBidders) "bidder1" = (1, .manual) := by
  decide +kernel

end Bidding.Model
