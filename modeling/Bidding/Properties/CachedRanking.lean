import Mathlib.Logic.Equiv.Basic
import Bidding.Properties.RoundTrip
import Bidding.Properties.Standings

/-!
# Rankings across the Cache

The cache keeps the names of an item's bidders as a set, with their amounts and without the
times of their bids. Reading the item back makes a new bidder for every name, in the order of
the server's answer and with the time of the reading, so bidders of the same amount are ranked
by the answer of the server and not by who bid first.

## Key Results

- **`ranking_eq_of_entries`**: whole amounts that differ decide the ranking alone.
- **`rankingSurvives_iff`**: the items whose ranking survives every order of the server.
-/

namespace Bidding.Model

open Bidding.Effects Bidding.Effects.Action Bidding.KeyValue Bidding.Collections
open RedisCacheService

/-- The names of the bidders in the order of `getCurrentBidderList`. -/
def ranking (bidders : List Bidder) : List (Option String) :=
  (sort compareBidders bidders).map Bidder.bidderName

/-- Storing the item and reading it back gives an item with the same ranking. -/
def RankingSurvives (env : Env) (w : World) (id : ℤ) (item : BidItem) : Prop :=
  ∃ item' w', run (handle env) (do setBidItem id item; getBidItem id : Act _) w =
    (.ok (some item'), w') ∧ ranking item'.currentBiddersList = ranking item.currentBiddersList

/-! ## Rankings and amounts -/

/-- The amounts are whole numbers. -/
def WholeAmounts (bidders : List Bidder) : Prop :=
  ∀ b ∈ bidders, ∃ n : ℤ, b.currentBidAmount = n

theorem perm_ranking (bidders : List Bidder) :
    (ranking bidders).Perm (bidders.map Bidder.bidderName) :=
  (sort_perm compareBidders bidders).map Bidder.bidderName

/-- On whole amounts the bidders are sorted by descending amount, whatever the times. -/
theorem sort_compareBidders {bidders : List Bidder} (hwhole : WholeAmounts bidders) :
    (sort compareBidders bidders).Pairwise
      (fun b b' => b'.currentBidAmount ≤ b.currentBidAmount) := by
  -- the difference of whole amounts survives the cut to an `int`
  have hpos : ∀ b ∈ bidders, ∀ b' ∈ bidders, b'.currentBidAmount ≠ b.currentBidAmount →
      (0 < compareBidders b b' ↔ b.currentBidAmount < b'.currentBidAmount) := by
    intro b hb b' hb' hne
    obtain ⟨n, hn⟩ := hwhole b hb
    obtain ⟨m, hm⟩ := hwhole b' hb'
    have hdiff : b'.currentBidAmount - b.currentBidAmount = ((m - n : ℤ) : ℚ) := by
      rw [hn, hm]
      push_cast
      rfl
    unfold compareBidders
    rw [if_pos hne, hdiff, doubleToInt_intCast_pos, hn, hm, Int.cast_lt]
    omega
  apply sort_pairwise
  · intro b b' b'' h h'
    exact h'.trans h
  · intro b hb b' hb' hcmp
    by_cases hne : b'.currentBidAmount = b.currentBidAmount
    · exact le_of_eq hne
    · rw [hpos b hb b' hb' hne] at hcmp
      exact not_lt.mp hcmp
  · intro b hb b' hb' hcmp
    by_cases hne : b'.currentBidAmount = b.currentBidAmount
    · exact le_of_eq hne.symm
    · exact le_of_lt ((hpos b hb b' hb' hne).mp hcmp)

/-- Two lists with the same entries, of different whole amounts, have the same ranking. -/
theorem ranking_eq_of_entries {l l' : List Bidder}
    (hperm : (l'.map Bidder.entry).Perm (l.map Bidder.entry)) (hwhole : WholeAmounts l)
    (hdistinct : (l.map Bidder.currentBidAmount).Nodup) : ranking l' = ranking l := by
  have hwhole' : WholeAmounts l' := by
    intro b hb
    obtain ⟨b', hb', hentry⟩ := List.mem_map.mp (hperm.mem_iff.mp (List.mem_map_of_mem hb))
    obtain ⟨n, hn⟩ := hwhole b' hb'
    exact ⟨n, (congrArg (fun e => e.2.2) hentry).symm.trans hn⟩
  -- two lists of entries in descending order, of which no two have the same amount
  have hentries : (sort compareBidders l').map Bidder.entry =
      (sort compareBidders l).map Bidder.entry := by
    have hsorted : ∀ bidders, WholeAmounts bidders →
        ((sort compareBidders bidders).map Bidder.entry).Pairwise
          (fun e e' => e'.2.2 ≤ e.2.2) := by
      intro bidders hbidders
      exact List.pairwise_map.mpr (sort_compareBidders hbidders)
    have hsame := (((sort_perm compareBidders l').map Bidder.entry).trans hperm).trans
      ((sort_perm compareBidders l).map Bidder.entry).symm
    apply List.Perm.eq_of_pairwise _ (hsorted l' hwhole') (hsorted l hwhole) hsame
    intro e e' he he' hle hle'
    have hmem := hsame.mem_iff.mp he
    obtain ⟨b, hb, rfl⟩ := List.mem_map.mp hmem
    obtain ⟨b', hb', rfl⟩ := List.mem_map.mp he'
    have hb := (sort_perm compareBidders l).mem_iff.mp hb
    have hb' := (sort_perm compareBidders l).mem_iff.mp hb'
    rw [List.inj_on_of_nodup_map hdistinct hb hb' (le_antisymm hle' hle)]
  have hnames := congrArg (List.map Prod.fst) hentries
  rw [List.map_map, List.map_map] at hnames
  exact hnames

/-- Bidders of the same amounts and times are sorted alike. -/
theorem compareBidders_congr {x y x' y' : Bidder}
    (hx : x'.currentBidAmount = x.currentBidAmount) (hxt : x'.biddingTime = x.biddingTime)
    (hy : y'.currentBidAmount = y.currentBidAmount) (hyt : y'.biddingTime = y.biddingTime) :
    compareBidders x' y' = compareBidders x y := by
  unfold compareBidders
  rw [hx, hxt, hy, hyt]

/-- Swapping two elements of a list without repetition only rearranges it. -/
theorem map_swap_perm {α : Type} [DecidableEq α] {l : List α} (hnodup : l.Nodup) {a b : α}
    (ha : a ∈ l) (hb : b ∈ l) : (l.map (Equiv.swap a b)).Perm l := by
  have hsub : l.map (Equiv.swap a b) ⊆ l := by
    intro c hc
    obtain ⟨u, hu, rfl⟩ := List.mem_map.mp hc
    rw [Equiv.swap_apply_def]
    split
    · exact hb
    · split
      · exact ha
      · exact hu
  apply (List.subperm_of_subset (hnodup.map (Equiv.injective _)) hsub).perm_of_length_le
  rw [List.length_map]

/-! ## What is read back -/

section Stored

variable {r r' : Redis} {id : ℤ} {bidders : List Bidder} (hstored : StoredBidders id bidders r r')
  (habsent : Absent r id) (hnames : (bidders.map Bidder.bidderName).Nodup)

include hstored habsent hnames

/-- The bidders that are read back when the server answers the names in a given order. -/
theorem readBack_bidders (env : Env) (n : ℕ) {names : List Text}
    (hperm : names.Perm (r'.sets (.bidders id)))
    (hanswer : env.order.members (r'.sets (.bidders id)) = names) :
    (readBack env r' id n).currentBiddersList =
      (names.zipIdx n).map (fun p => cachedBidder r' id p.1 (env.clock p.2)) := by
  show cachedBidders env r' id (env.order.members (r'.sets (.bidders id))) n [] = _
  rw [hanswer, cachedBidders_eq env n [] (nodup_storedNames hstored habsent hperm)
    (fun t => name_storedNames hstored habsent hnames hperm)
    (fun b hb => absurd hb List.not_mem_nil), List.nil_append]

/-- A bidder that is read back has its name. -/
theorem bidderName_cachedBidder {names : List Text} (hperm : names.Perm (r'.sets (.bidders id)))
    {t : Text} (ht : t ∈ names) (d : Date) :
    (cachedBidder r' id t d).bidderName = some t.render := by
  obtain ⟨s, rfl, hname⟩ := name_storedNames hstored habsent hnames hperm ht
  simp only [cachedBidder, hname]
  rfl

/-- Different texts are read back as different names. -/
theorem eq_of_bidderName {names : List Text} (hperm : names.Perm (r'.sets (.bidders id)))
    {t t' : Text} (ht : t ∈ names) (ht' : t' ∈ names) {d d' : Date}
    (h : (cachedBidder r' id t d).bidderName = (cachedBidder r' id t' d').bidderName) :
    t = t' := by
  rw [bidderName_cachedBidder hstored habsent hnames hperm ht,
    bidderName_cachedBidder hstored habsent hnames hperm ht'] at h
  obtain ⟨s, rfl, -⟩ := name_storedNames hstored habsent hnames hperm ht
  obtain ⟨s', rfl, -⟩ := name_storedNames hstored habsent hnames hperm ht'
  exact congrArg Text.str (Option.some.inj h)

/-- The entries come back if all bidders have names. -/
theorem perm_entries_readBack (env : Env) (n : ℕ)
    (hnamed : ∀ b ∈ bidders, b.bidderName ≠ none) :
    ((readBack env r' id n).currentBiddersList.map Bidder.entry).Perm
      (bidders.map Bidder.entry) := by
  have hperm := env.order.members_perm (r'.sets (.bidders id))
  -- distinct names make distinct entries
  have hentryNodup : (bidders.map Bidder.entry).Nodup := by
    have hfst : bidders.map Bidder.bidderName = (bidders.map Bidder.entry).map Prod.fst := by
      rw [List.map_map]
      rfl
    rw [hfst] at hnames
    exact hnames.of_map
  -- both lists are without repetition, so the same members make a permutation
  apply (List.perm_ext_iff_of_nodup _ hentryNodup).mpr
  · intro e
    have hmem := entries_roundTrip env hstored habsent hnames n e
    apply hmem.trans
    rw [List.mem_map]
    constructor
    · intro h
      obtain ⟨b, hb, -, he⟩ := h
      exact ⟨b, hb, he⟩
    · intro h
      obtain ⟨b, hb, he⟩ := h
      exact ⟨b, hb, hnamed b hb, he⟩
  · rw [readBack_bidders hstored habsent hnames env n hperm rfl, List.map_map]
    apply List.Nodup.of_map Prod.fst
    rw [List.map_map]
    have hrender : (Prod.fst ∘ Bidder.entry ∘ fun p : Text × ℕ =>
        cachedBidder r' id p.1 (env.clock p.2)) =
        (fun t => (cachedBidder r' id t 0).bidderName) ∘ Prod.fst := rfl
    rw [hrender, ← List.map_map, List.zipIdx_map_fst]
    apply (nodup_storedNames hstored habsent hperm).map_on
    intro t ht t' ht' heq
    exact eq_of_bidderName hstored habsent hnames hperm ht ht' heq

/-- The amount that is read back for a name. -/
theorem currentBidAmount_cachedBidder {b : Bidder} (hb : b ∈ bidders) {t : Text}
    (ht : nameText b = some t) (d : Date) :
    (cachedBidder r' id t d).currentBidAmount = b.currentBidAmount :=
  congrArg (fun e => e.2.2) (entry_cachedBidder hstored habsent hnames hb ht)

/-- Two names of one amount that a server answers in each other's place are ranked in each
    other's place. So a ranking that no order changes has one name for each amount. -/
theorem nameText_eq_of_amount (env : Env) (n : ℕ) {expected : List (Option String)}
    (h : ∀ order, ranking (readBack { env with order := order } r' id n).currentBiddersList =
      expected) {x y : Bidder} (hx : x ∈ bidders) (hy : y ∈ bidders)
    (hamount : x.currentBidAmount = y.currentBidAmount) {tx ty : Text}
    (htx : nameText x = some tx) (hty : nameText y = some ty) : tx = ty := by
  let names := r'.sets (.bidders id)
  let swap := Equiv.swap tx ty
  have hperm : names.Perm (r'.sets (.bidders id)) := List.Perm.refl _
  have hmem : tx ∈ names := (mem_storedNames hstored habsent hperm).mpr ⟨x, hx, htx⟩
  have hmem' : ty ∈ names := (mem_storedNames hstored habsent hperm).mpr ⟨y, hy, hty⟩
  have hswapped : (names.map swap).Perm names :=
    map_swap_perm (nodup_storedNames hstored habsent hperm) hmem hmem'
  -- the bidders under the two answers, place by place
  let read (p : Text × ℕ) : Bidder := cachedBidder r' id p.1 (env.clock p.2)
  let read' (p : Text × ℕ) : Bidder := cachedBidder r' id (swap p.1) (env.clock p.2)
  have hplain : ranking ((names.zipIdx n).map read) = expected := by
    rw [← h (env.order.answering hperm), readBack_bidders hstored habsent hnames
      { env with order := env.order.answering hperm } n hperm
      (ServerOrder.members_answering env.order hperm)]
  have hother : ranking ((names.zipIdx n).map read') = expected := by
    rw [← h (env.order.answering hswapped), readBack_bidders hstored habsent hnames
      { env with order := env.order.answering hswapped } n hswapped
      (ServerOrder.members_answering env.order hswapped), List.zipIdx_map, List.map_map]
    rfl
  -- both names stand for the same amount, so the comparator sees no difference
  have hamounts : ∀ t d, (cachedBidder r' id (swap t) d).currentBidAmount =
      (cachedBidder r' id t d).currentBidAmount := by
    intro t d
    have hxt := currentBidAmount_cachedBidder hstored habsent hnames hx htx d
    have hyt := currentBidAmount_cachedBidder hstored habsent hnames hy hty d
    rw [Equiv.swap_apply_def]
    split
    · rename_i ht
      rw [hyt, ht, hxt, hamount]
    · split
      · rename_i ht
        rw [hxt, ht, hyt, hamount]
      · rfl
  have hcmp : (fun p q => compareBidders (read' p) (read' q)) =
      fun p q => compareBidders (read p) (read q) := by
    funext p q
    exact compareBidders_congr (hamounts p.1 _) rfl (hamounts q.1 _) rfl
  -- both are the same rearrangement of the places, so the names at each place are the same
  unfold ranking at hplain hother
  rw [sort_map, List.map_map] at hplain
  rw [sort_map, hcmp, List.map_map] at hother
  have hplaces := List.map_inj_left.mp (hother.trans hplain.symm)
  obtain ⟨p, hp, hfst⟩ : ∃ p ∈ names.zipIdx n, p.1 = tx := by
    rw [← List.zipIdx_map_fst n names] at hmem
    exact List.mem_map.mp hmem
  have hname := hplaces p ((sort_perm _ _).mem_iff.mpr hp)
  simp only [Function.comp_apply, read, read', hfst, swap, Equiv.swap_apply_left] at hname
  exact (eq_of_bidderName hstored habsent hnames hperm hmem' hmem hname).symm

end Stored

/-! ## Rankings that survive -/

/-- Without a start time no bidder is stored. -/
theorem rankingSurvives_of_no_start (env : Env) (w : World) {id : ℤ} {item : BidItem}
    (hid : item.bidItemId = some id) (hstart : item.bidStartTime = none)
    (habsent : Absent w.redis id) :
    RankingSurvives env w id item ↔ item.currentBiddersList = [] := by
  obtain ⟨r, hset, hmem, hread, hitem, hbidders⟩ :=
    exists_setBidItem_of_no_start w hstart habsent
  rw [hid] at hitem
  obtain ⟨t, hrun⟩ : ∃ t, run (handle env) (do setBidItem id item; getBidItem id : Act _) w =
      (.ok (some (readBack env r id w.reads)), t) := by
    have hget := run_getBidItem_readBack env { w with redis := r } hmem hread hitem
    exact ⟨_, (run_bind_ok (hset env)).trans hget⟩
  -- no name was stored, so no bidder is read back
  have hempty : (readBack env r id w.reads).currentBiddersList = [] := by
    have hnone : env.order.members (r.sets (.bidders id)) = [] := by
      rw [hbidders]
      exact (env.order.members_perm []).eq_nil
    show cachedBidders env r id (env.order.members (r.sets (.bidders id))) w.reads [] = []
    rw [hnone]
    rfl
  constructor
  · intro h
    obtain ⟨item', w', hrun', hranking⟩ := h
    obtain ⟨rfl, -⟩ : _ = item' ∧ t = w' := by simpa using hrun.symm.trans hrun'
    rw [hempty] at hranking
    have hlength := (perm_ranking item.currentBiddersList).length_eq
    rw [← hranking, List.length_map] at hlength
    exact List.length_eq_zero_iff.mp hlength.symm
  · intro h
    refine ⟨_, _, hrun, ?_⟩
    rw [hempty, h]

/-- **The ranking of an item of which the cache has nothing survives the cache, in whatever
    order the server answers, exactly when there is no bidder, or the item has a start time, all
    bidders have names and no two of them bid the same amount.** -/
theorem rankingSurvives_iff (env : Env) (w : World) {id : ℤ} {item : BidItem}
    (hid : item.bidItemId = some id) (habsent : Absent w.redis id)
    (hnames : (item.currentBiddersList.map Bidder.bidderName).Nodup)
    (hwhole : WholeAmounts item.currentBiddersList) :
    (∀ order, RankingSurvives { env with order := order } w id item) ↔
      item.currentBiddersList = [] ∨ (item.bidStartTime ≠ none ∧
        (∀ b ∈ item.currentBiddersList, b.bidderName ≠ none) ∧
        (item.currentBiddersList.map Bidder.currentBidAmount).Nodup) := by
  cases hstart : item.bidStartTime with
  | none =>
    -- the store stops at the missing date, before the bidders
    simp only [rankingSurvives_of_no_start _ w hid hstart habsent, ne_eq, not_true, false_and,
      or_false]
    exact ⟨fun h => h env.order, fun h _ => h⟩
  | some d =>
    obtain ⟨r, hrun, -, -, hstored⟩ := exists_roundTrip w hid hstart habsent
    have hperm : item.sortBidders.currentBiddersList.Perm item.currentBiddersList :=
      sort_perm compareBidders _
    have hnames' := (hperm.map Bidder.bidderName).nodup_iff.mpr hnames
    -- the item that comes back is the one that is stored, whatever the order of the server
    have hsurvives : ∀ env, RankingSurvives env w id item ↔
        ranking (readBack env r id w.reads).currentBiddersList =
          ranking item.currentBiddersList := by
      intro env
      obtain ⟨w', hrun⟩ := hrun env
      constructor
      · intro h
        obtain ⟨item', t, hrun', hranking⟩ := h
        obtain ⟨rfl, -⟩ : _ = item' ∧ _ = t := by simpa using hrun.symm.trans hrun'
        exact hranking
      · exact fun h => ⟨_, w', hrun, h⟩
    simp only [hsurvives]
    constructor
    · intro h
      have hnamed : ∀ b ∈ item.currentBiddersList, b.bidderName ≠ none := by
        intro b hb hnone
        -- what comes back has a name
        have hmem : (none : Option String) ∈ ranking item.currentBiddersList := by
          rw [(perm_ranking _).mem_iff, ← hnone]
          exact List.mem_map_of_mem hb
        rw [← h env.order, (perm_ranking _).mem_iff, readBack_bidders hstored habsent hnames' _ _
          (env.order.members_perm _) rfl] at hmem
        obtain ⟨b', hb', hname⟩ := List.mem_map.mp hmem
        obtain ⟨p, hp, rfl⟩ := List.mem_map.mp hb'
        rw [bidderName_cachedBidder hstored habsent hnames' (env.order.members_perm _)
          (List.fst_mem_of_mem_zipIdx hp)] at hname
        cases hname
      refine .inr ⟨by simp, hnamed, ?_⟩
      -- bidders with the same amount can be answered in either order, so they are one bidder
      apply (List.nodup_map_iff_inj_on hnames.of_map).mpr
      intro x hx y hy hamount
      obtain ⟨sx, hsx⟩ := Option.ne_none_iff_exists'.mp (hnamed x hx)
      obtain ⟨sy, hsy⟩ := Option.ne_none_iff_exists'.mp (hnamed y hy)
      have htext := nameText_eq_of_amount hstored habsent hnames' env w.reads h
        (hperm.mem_iff.mpr hx) (hperm.mem_iff.mpr hy) hamount
        (congrArg (Option.map Text.str) hsx) (congrArg (Option.map Text.str) hsy)
      apply List.inj_on_of_nodup_map hnames hx hy
      rw [hsx, hsy, Text.str.inj htext]
    · -- with names and different amounts every order gives the same ranking
      intro h order
      have hgood : (∀ b ∈ item.currentBiddersList, b.bidderName ≠ none) ∧
          (item.currentBiddersList.map Bidder.currentBidAmount).Nodup := by
        rcases h with h | h
        · rw [h]
          exact ⟨fun b hb => absurd hb List.not_mem_nil, List.nodup_nil⟩
        · exact h.2
      have hentries := perm_entries_readBack hstored habsent hnames'
        { env with order := order } w.reads (fun b hb => hgood.1 b (hperm.mem_iff.mp hb))
      exact ranking_eq_of_entries (hentries.trans (hperm.map Bidder.entry)) hwhole hgood.2

/-- An item with two bidders. -/
def twoBidders (amount amount' : ℚ) : BidItem :=
  { BidItem.new with
    bidItemId := some 11
    bidStartTime := some 0
    currentBiddersList := [⟨some "bidder1", amount, false, 1000, none⟩,
      ⟨some "bidder2", amount', false, 2000, none⟩] }

theorem absent_initial (db : Db) (id : ℤ) : Absent (World.initial db).redis id :=
  ⟨fun _ => rfl, rfl, fun _ _ => rfl⟩

theorem rankingSurvives_twoBidders :
    WholeAmounts (twoBidders 100 200).currentBiddersList ∧
    ∀ order, RankingSurvives { Env.still 0 with order := order } (World.initial .empty) 11
      (twoBidders 100 200) := by
  have hwhole : WholeAmounts (twoBidders 100 200).currentBiddersList := by
    intro b hb
    exact ⟨b.currentBidAmount.num, ((Rat.den_eq_one_iff _).mp ((by decide +kernel :
      ∀ b ∈ (twoBidders 100 200).currentBiddersList, b.currentBidAmount.den = 1) b hb)).symm⟩
  refine ⟨hwhole, (rankingSurvives_iff (Env.still 0) _ rfl (absent_initial _ 11) (by decide)
    hwhole).mpr (.inr ⟨by simp [twoBidders], by decide, by decide +kernel⟩)⟩

/-- Two bids of the same amount, of which the second came a second later. The server answers
    the name that was stored last first, and the later bid is ranked before the earlier one. -/
theorem twoBidders_ranking_lost :
    ranking (twoBidders 100 100).currentBiddersList = [some "bidder1", some "bidder2"] ∧
    (run (handle (Env.still 0)) (do setBidItem 11 (twoBidders 100 100); getBidItem 11 : Act _)
      (World.initial .empty)).1.map (Option.map (fun item => ranking item.currentBiddersList)) =
        .ok (some [some "bidder2", some "bidder1"]) ∧
    ¬ RankingSurvives (Env.still 0) (World.initial .empty) 11 (twoBidders 100 100) := by
  have hbefore : ranking (twoBidders 100 100).currentBiddersList =
      [some "bidder1", some "bidder2"] := by decide +kernel
  have hafter : (run (handle (Env.still 0)) (do setBidItem 11 (twoBidders 100 100); getBidItem 11 :
      Act _) (World.initial .empty)).1.map
        (Option.map (fun item => ranking item.currentBiddersList)) =
        .ok (some [some "bidder2", some "bidder1"]) := by decide +kernel
  refine ⟨hbefore, hafter, ?_⟩
  intro h
  obtain ⟨item', w', hrun, hranking⟩ := h
  rw [hrun] at hafter
  rw [hbefore] at hranking
  simp [Except.map, hranking] at hafter

end Bidding.Model
