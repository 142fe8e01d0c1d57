import Bidding.Effects.Runs
import Bidding.Model.MarketPage

/-!
# Countdowns After an Extension

An extension of the lot on sale delays all later lots, so that every countdown of the market list
should grow by the same number of seconds. `displayTimes` computes that number, `diff`, in its
first turn, but each turn begins with `diff = 0`: only the first countdown changes, and the gap to
the second one shrinks by the extension.

## Key Results

- **`snd_extend`**: what a turn does to the seconds of a lot; `diff` plays no part.
- **`Running.timeSpans_step`**: a run sets the first countdown and counts down the others.
- **`extension_shifts_iff`**: all countdowns are shifted exactly if there was nothing to shift, and
  the gaps stay exactly as long as no pushed value differs from the first countdown.
-/

namespace Bidding.Model.MarketPage

open Bidding.Effects

/-- The array `timeSpans`. -/
def Page.timeSpans (page : Page) : List ℤ := page.lots.map Lot.timeSpan

/-- The differences of consecutive countdowns. -/
def gaps : List ℤ → List ℤ
  | t :: u :: ts => (u - t) :: gaps (u :: ts)
  | _ => []

/-- A run of `displayTimes`: the value pushed before it, or `0`, and the clock during it. -/
structure Run where
  ex : ℤ
  clock : ℕ → ℤ

/-- The page after a push and the run that finds it. -/
def Page.step (page : Page) (run : Run) : Page :=
  displayTimes run.clock (pushBidExtendTime page run.ex)

/-! ## A turn -/

/-- Only the first countdown takes the pushed value. -/
theorem snd_extend (page : Page) (ex : ℤ) (i : ℕ) (ts : ℤ) :
    (extend page ex i ts).2 = if i = 0 ∧ ex > 0 then ex else ts := by
  unfold extend
  by_cases hfirst : i = 0 ∧ ex > 0
  · simp only [if_pos hfirst]
  · -- `diff` has just been set to zero
    simp only [if_neg hfirst, Int.add_zero]

theorem lLCount_extend (page : Page) (ex : ℤ) (i : ℕ) (ts : ℤ) :
    (extend page ex i ts).1.lLCount = page.lLCount := by
  unfold extend
  by_cases hfirst : i = 0 ∧ ex > 0
  · simp only [if_pos hfirst]
  · simp only [if_neg hfirst]

section Turns

variable (clock : ℕ → ℤ) (ex : ℤ)

/-- A turn with seconds left: they are counted down, and the page is not refreshed. -/
theorem turn_of_pos (page : Page) (i : ℕ) (lot : Lot)
    (hpos : 0 < if i = 0 ∧ ex > 0 then ex else lot.timeSpan) :
    (turn clock ex page i lot).1.lLCount = page.lLCount ∧
      (turn clock ex page i lot).2.timeSpan =
        (if i = 0 ∧ ex > 0 then ex else lot.timeSpan) - 1 := by
  have hsnd := snd_extend page ex i lot.timeSpan
  -- the page is refreshed only by a countdown that has run out
  have hshown : ¬ (extend page ex i lot.timeSpan).2 ≤ 0 := by
    rw [hsnd]
    omega
  unfold turn
  dsimp only
  rw [if_neg hshown, hsnd]
  exact ⟨lLCount_extend page ex i lot.timeSpan, rfl⟩

/-- The turns after the first one do not look at the pushed value. -/
theorem turns_succ (page : Page) (i : ℕ) {lots : List Lot}
    (hpos : ∀ t ∈ lots.map Lot.timeSpan, 0 < t) :
    (turns clock ex page (i + 1) lots).1.lLCount = page.lLCount ∧
      (turns clock ex page (i + 1) lots).2.map Lot.timeSpan =
        (lots.map Lot.timeSpan).map (· - 1) := by
  induction lots generalizing page i with
  | nil => exact ⟨rfl, rfl⟩
  | cons lot lots ih =>
    rw [List.map_cons, List.forall_mem_cons] at hpos
    -- the pushed value is for the index `0` only
    have hlater : ¬ (i + 1 = 0 ∧ ex > 0) := fun h => Nat.succ_ne_zero i h.1
    obtain ⟨hcount, hspan⟩ := turn_of_pos clock ex page (i + 1) lot
      (by rw [if_neg hlater]; exact hpos.1)
    rw [if_neg hlater] at hspan
    obtain ⟨hcounts, hspans⟩ := ih (turn clock ex page (i + 1) lot).1 (i + 1) hpos.2
    apply And.intro (hcounts.trans hcount)
    show (turn clock ex page (i + 1) lot).2.timeSpan :: _ = _
    rw [hspan, hspans]
    rfl

end Turns

/-! ## A run of the script -/

/-- A page that counts down: it is not tired of refreshing, and every lot has seconds left. -/
structure Running (page : Page) : Prop where
  live : page.lLCount ≤ 5
  pos : ∀ t ∈ page.timeSpans, 0 < t

/-- A run sets the first countdown to the pushed value, if there is one, and counts down. -/
theorem Running.timeSpans_step {page : Page} {t : ℤ} {ts : List ℤ} (h : Running page)
    (hspans : page.timeSpans = t :: ts) (run : Run) :
    (page.step run).lLCount = page.lLCount ∧
      (page.step run).timeSpans = ((if run.ex > 0 then run.ex else t) - 1) :: ts.map (· - 1) := by
  obtain ⟨lot, lots, hlots, rfl, rfl⟩ := List.map_eq_cons_iff.mp hspans
  have hpos := h.pos
  rw [hspans, List.forall_mem_cons] at hpos
  have hsame : (if 0 = 0 ∧ run.ex > 0 then run.ex else lot.timeSpan) =
      if run.ex > 0 then run.ex else lot.timeSpan := by simp
  have hfirst : 0 < if 0 = 0 ∧ run.ex > 0 then run.ex else lot.timeSpan := by
    rw [hsame]
    split <;> omega
  let pushed := pushBidExtendTime page run.ex
  obtain ⟨hcount, hspan⟩ := turn_of_pos run.clock run.ex pushed 0 lot hfirst
  obtain ⟨hcounts, hrest⟩ := turns_succ run.clock run.ex
    (turn run.clock run.ex pushed 0 lot).1 0 hpos.2
  -- the script runs on, because it has not given up on refreshing
  have hstep : page.step run =
      let turned := turns run.clock run.ex pushed 0 (lot :: lots)
      { turned.1 with lots := turned.2, extn := 0, timer := true } := by
    unfold Page.step displayTimes
    have hlive : ¬ pushed.lLCount > 5 := Int.not_lt.mpr h.live
    rw [if_neg hlive, ← hlots]
    rfl
  rw [hstep]
  apply And.intro (hcounts.trans hcount)
  show (turn run.clock run.ex pushed 0 lot).2.timeSpan :: _ = _
  rw [hspan, hsame, hrest]

/-! ## Gaps -/

/-- Counting all countdowns down keeps the gaps. -/
theorem gaps_map_sub_one (ts : List ℤ) : gaps (ts.map (· - 1)) = gaps ts := by
  induction ts with
  | nil => rfl
  | cons t ts ih =>
    cases ts with
    | nil => rfl
    | cons u ts =>
      show (u - 1 - (t - 1)) :: gaps ((u :: ts).map (· - 1)) = (u - t) :: gaps (u :: ts)
      rw [ih]
      congr 1
      omega

/-- The first gap is the only one that a run can change. -/
theorem Running.gaps_step_iff {page : Page} {t u : ℤ} {ts : List ℤ} (h : Running page)
    (hspans : page.timeSpans = t :: u :: ts) (run : Run) :
    gaps (page.step run).timeSpans = gaps page.timeSpans ↔
      (if run.ex > 0 then run.ex else t) = t := by
  rw [(h.timeSpans_step hspans run).2, hspans]
  show (u - 1 - ((if run.ex > 0 then run.ex else t) - 1)) :: gaps ((u :: ts).map (· - 1)) =
    (u - t) :: gaps (u :: ts) ↔ _
  rw [gaps_map_sub_one, List.cons.injEq, and_iff_left rfl]
  omega

/-! ## Runs of pushes and ticks -/

/-- What is assumed of a run: no countdown has reached zero, and the pushed value is `0` or not
    less than the first countdown. -/
structure Admissible (page : Page) (run : Run) : Prop where
  pos : ∀ t ∈ page.timeSpans, 0 < t
  push : run.ex = 0 ∨ ∀ t, page.timeSpans.head? = some t → t ≤ run.ex

/-- The pushed value changes nothing: it is `0` or the first countdown itself. -/
def Idle (page : Page) (run : Run) : Prop :=
  run.ex = 0 ∨ page.timeSpans.head? = some run.ex

/-- A push is idle if it leaves the first countdown. -/
theorem Admissible.idle_iff {page : Page} {run : Run} (h : Admissible page run) {t : ℤ}
    {ts : List ℤ} (hspans : page.timeSpans = t :: ts) :
    Idle page run ↔ (if run.ex > 0 then run.ex else t) = t := by
  have hpos := h.pos t (hspans ▸ List.mem_cons_self)
  have hpush := h.push
  unfold Idle
  rw [hspans, List.head?_cons] at hpush ⊢
  rw [Option.some.injEq]
  have hle : run.ex = 0 ∨ t ≤ run.ex := hpush.imp_right (fun hall => hall t rfl)
  split <;> omega

/-- What holds between the runs, as long as the gaps are what they were. -/
structure Kept (g : List ℤ) (page : Page) : Prop where
  live : page.lLCount ≤ 5
  lots : ∃ t u ts, page.timeSpans = t :: u :: ts
  gaps : gaps page.timeSpans = g

theorem Kept.step {g : List ℤ} {page : Page} {run : Run} (h : Kept g page)
    (hadm : Admissible page run) (hgaps : MarketPage.gaps (page.step run).timeSpans = g) :
    Kept g (page.step run) := by
  obtain ⟨t, u, ts, hspans⟩ := h.lots
  obtain ⟨hcount, hnext⟩ := Running.timeSpans_step ⟨h.live, hadm.pos⟩ hspans run
  exact ⟨hcount ▸ h.live, ⟨_, _, _, hnext⟩, hgaps⟩

/-- The gaps never change exactly if every push is idle. -/
theorem Kept.along_iff {g : List ℤ} {page : Page} (h : Kept g page) {runs : List Run}
    (hadm : Along Page.step Admissible page runs) :
    Along Page.step (fun p run => MarketPage.gaps (p.step run).timeSpans = g) page runs ↔
      Along Page.step Idle page runs := by
  apply hadm.congr_of (I := Kept g) _ _ h
  · intro p run hkept hadm
    obtain ⟨t, u, ts, hspans⟩ := hkept.lots
    rw [hadm.idle_iff hspans, ← hkept.gaps]
    exact Running.gaps_step_iff ⟨hkept.live, hadm.pos⟩ hspans run
  · exact fun p run hkept hadm hgaps => hkept.step hadm hgaps

/-- With two lots or more, a run shifts every countdown by what was pushed exactly if that is
    nothing, and over runs the gaps never change exactly if no push ever shifts anything. -/
theorem extension_shifts_iff {page : Page} {t₀ t₁ : ℤ} {rest : List ℤ} (h : Running page)
    (hspans : page.timeSpans = t₀ :: t₁ :: rest) :
    (∀ run : Run, t₀ ≤ run.ex →
      ((page.step run).timeSpans = page.timeSpans.map (fun t => t + (run.ex - t₀) - 1) ↔
        run.ex = t₀)) ∧
    ∀ runs, Along Page.step Admissible page runs →
      (Along Page.step (fun p run => gaps (p.step run).timeSpans = gaps page.timeSpans) page runs ↔
        Along Page.step Idle page runs) := by
  constructor
  · intro run hex
    have hpos := h.pos t₀ (hspans ▸ List.mem_cons_self)
    rw [(h.timeSpans_step hspans run).2, hspans, if_pos (by omega)]
    constructor
    · -- the second countdown is not shifted
      intro hshift
      simp only [List.map_cons, List.cons.injEq] at hshift
      omega
    · intro heq
      simp [heq]
  · intro runs hadm
    exact Kept.along_iff ⟨h.live, ⟨t₀, t₁, rest, hspans⟩, rfl⟩ hadm

/-- Two lots, with ten and with twenty seconds left. -/
def twoLots : Page := setTimeLefts (setTimeLefts Page.new 10 1) 20 2

/-- A push of the ten seconds that the first lot has anyway; over three runs, of which the last
    pushes the eight seconds that are left then, the gap stays. -/
theorem idle_push_counts_down :
    (twoLots.step ⟨10, fun _ => 0⟩).timeSpans = [10, 20].map (fun t => t + (10 - 10) - 1) ∧
      Along Page.step (fun p run => gaps (p.step run).timeSpans = [10]) twoLots
        [⟨10, fun _ => 0⟩, ⟨0, fun _ => 0⟩, ⟨8, fun _ => 0⟩] := by
  have hall := extension_shifts_iff (⟨by decide, by decide⟩ : Running twoLots) rfl
  refine ⟨(hall.1 ⟨10, fun _ => 0⟩ (by decide)).mpr rfl, (hall.2 _ ?_).mpr ?_⟩
  · -- the pushes are what the first countdown has at that time
    refine ⟨⟨by decide, .inr ?_⟩, ⟨by decide, .inl rfl⟩, ⟨by decide, .inr ?_⟩, trivial⟩
    · intro t ht
      exact Int.le_of_eq (Option.some.inj ht).symm
    · intro t ht
      exact Int.le_of_eq (Option.some.inj ht).symm
  · exact ⟨.inr rfl, .inl rfl, .inr rfl, trivial⟩

/-- An extension to thirty seconds: the second lot is not shifted, and is now before the first. -/
theorem extension_leaves_second_lot :
    (twoLots.step ⟨30, fun _ => 0⟩).timeSpans = [29, 19] ∧
      twoLots.timeSpans.map (fun t => t + (30 - 10) - 1) = [29, 39] ∧
      gaps twoLots.timeSpans = [10] ∧
      gaps (twoLots.step ⟨30, fun _ => 0⟩).timeSpans = [-10] :=
  ⟨rfl, rfl, rfl, rfl⟩

end Bidding.Model.MarketPage
