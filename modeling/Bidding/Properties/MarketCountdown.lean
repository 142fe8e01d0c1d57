import Bidding.Collections.Spans
import Bidding.Semantics.MarketPages

/-!
# Countdowns of the Upcoming Items

The pages of upcoming items show at each item the seconds until it is opened, as a running sum
of the spans of the listed items. The scheduler opens the lots of the whole sequence one after
the other. The two agree if nothing of the sequence is left out of the list; lots that the user
does not see, lots outside the filter, and the lots of earlier pages, for which the page takes
the span of its own first item, are left out.

## Key Results

- **`predicts_iff`**: when the countdowns of a page are the seconds until the lots are opened.
-/

namespace Bidding.Model

open Bidding.Effects Bidding.Effects.Action Bidding.Collections BidderDao

/-- The lots of the auction that are still to come, whoever may see them. -/
def lotsToCome (db : Db) (auctionId : ℤ) (phase : Phase) : List BidSequence :=
  (CommonDao.getCurrentBidSequence db auctionId).filter (fun s => phase.upcoming s.sequenceId)

/-- The seconds from the end of the item on sale, or from the start, until the lot of this
    number is opened. -/
def opensAfter (db : Db) (auctionId : ℤ) (phase : Phase) (number : ℤ) : ℤ :=
  spansBefore BidSequence.sequenceId BidSequence.bidspan (lotsToCome db auctionId phase) number

/-- The upcoming items of a page are shown with the seconds until they are opened. -/
def Predicts (viewer : Viewer) (env : Env) (w : World) (name : String) (auctionId : ℤ)
    (category : Option ℤ) (phase : Phase) (n : ℤ) : Prop :=
  ∀ left, viewer.startsAt env w auctionId phase = some left →
    ∀ item ∈ shownOn env w (viewer.marketItems name category) n,
      phase.upcoming item.seqId = true →
        item.timeLeft = left + opensAfter w.db auctionId phase item.seqId

/-- The lots on a page. -/
def lotsOnPage (db : Db) (name : String) (auctionId : ℤ) (category : Option ℤ) (phase : Phase)
    (n : ℤ) : List BidSequence :=
  let rows := upcomingRows db name auctionId category phase
  (page NavigationInfo.pageSize (navigation rows.length n).curPage rows).eraseDups.map Prod.snd

/-- What the page adds for the pages before it. -/
def estimate (db : Db) (name : String) (auctionId : ℤ) (category : Option ℤ) (phase : Phase)
    (n : ℤ) : ℤ :=
  let curPage := (navigation (upcomingRows db name auctionId category phase).length n).curPage
  match lotsOnPage db name auctionId category phase n with
  | [] => 0
  | first :: _ =>
    if 0 < curPage then curPage * NavigationInfo.pageSize * first.bidspan else 0

/-- The page leaves no lot out: the estimate, with the listed lots that are not upcoming, is
    the spans of the lots before the first upcoming one of the page, and no lot is between two
    that follow each other on it. -/
def LeavesNoneOut (db : Db) (name : String) (auctionId : ℤ) (category : Option ℤ) (phase : Phase)
    (n : ℤ) : Prop :=
  let lots := lotsOnPage db name auctionId category phase n
  let upcoming := lots.filter (fun s => phase.upcoming s.sequenceId)
  ∀ first, upcoming.head? = some first →
    estimate db name auctionId category phase n +
        ((lots.filter (fun s => !phase.upcoming s.sequenceId)).map BidSequence.bidspan).sum =
      opensAfter db auctionId phase first.sequenceId ∧
    upcoming.IsChain (fun s next => ∀ lot ∈ lotsToCome db auctionId phase,
      ¬ (s.sequenceId < lot.sequenceId ∧ lot.sequenceId < next.sequenceId))

section Countdown

variable {env : Env} {w : World} {name : String} {auctionId : ℤ} {category : Option ℤ}
  {phase : Phase} {viewer : Viewer}

/-- The lots behind an upcoming one are upcoming. -/
theorem Phase.upcoming_of_lt {number number' : ℤ} (h : number < number')
    (hupcoming : phase.upcoming number = true) : phase.upcoming number' = true := by
  cases phase with
  | notStarted => rfl
  | onSale bidItemId seqId =>
    simp only [Phase.upcoming, decide_eq_true_eq] at hupcoming ⊢
    omega
  | ended => cases hupcoming

/-- The countdowns of listed items are the running sums of their spans. -/
theorem forall_countdown_iff {db : Db} (left : ℤ) (rows : List (BidItem × BidSequence)) (c : ℤ) :
    (∀ item ∈ BidderController.countdown (left + c) (rows.map (listed db name)),
      phase.upcoming item.seqId = true →
        item.timeLeft = left + opensAfter w.db auctionId phase item.seqId) ↔
      Accurate BidSequence.sequenceId BidSequence.bidspan
        (fun s => phase.upcoming s.sequenceId) (lotsToCome w.db auctionId phase) c
        (rows.map Prod.snd) := by
  induction rows generalizing c with
  | nil => simp [BidderController.countdown, Accurate]
  -- the countdown of a lot is the sum of the spans before it on the page
  | cons row rows ih =>
    simp only [List.map_cons, BidderController.countdown, List.mem_cons, forall_eq_or_imp,
      listed_bidSpan, add_assoc]
    rw [ih, accurate_cons]
    apply and_congr_left'
    have hseqId : (BidderController.withPrice (listed db name row)).seqId = row.2.sequenceId :=
      listed_seqId row
    rw [hseqId]
    apply imp_congr_right
    intro _
    constructor
    · intro h
      exact Int.add_left_cancel h
    · intro h
      rw [h]
      rfl

/-- The lots of a page are in the order of the sequence. -/
theorem pairwise_lotsOnPage (hd : DistinctLots w.db auctionId) (n : ℤ) :
    (lotsOnPage w.db name auctionId category phase n).Pairwise
      (fun s s' => s.sequenceId < s'.sequenceId) := by
  have hord : Ordered number (upcomingRows w.db name auctionId category phase) :=
    ordered_marketQuery hd
  apply List.pairwise_map.mpr
  exact pairwise_eraseDups (hord.sublist (page_sublist _ _ _))

/-- The lots of a page are lots of the auction. -/
theorem mem_of_mem_lotsOnPage {n : ℤ} {s : BidSequence}
    (h : s ∈ lotsOnPage w.db name auctionId category phase n) :
    s ∈ CommonDao.getCurrentBidSequence w.db auctionId := by
  obtain ⟨row, hrow, rfl⟩ := List.mem_map.mp h
  have hmem := (page_sublist _ _ _).subset (List.mem_eraseDups.mp hrow)
  exact (mem_marketQuery.mp hmem).1

/-- What a page shows, with its estimate for the pages before it. -/
theorem shownOn_eq_countdown (h : Stands w.redis auctionId phase)
    (hd : DistinctLots w.db auctionId) {left : ℤ}
    (hleft : viewer.startsAt env w auctionId phase = some left) (n : ℤ) :
    ∃ rows : List (BidItem × BidSequence),
      rows.map Prod.snd = lotsOnPage w.db name auctionId category phase n ∧
      shownOn env w (viewer.marketItems name category) n =
        BidderController.countdown (left + estimate w.db name auctionId category phase n)
          (rows.map (listed w.db name)) := by
  refine ⟨_, rfl, ?_⟩
  rw [shownOn_marketItems h, hleft]
  dsimp only [upcomingPage]
  rw [pageItems_eq hd]
  unfold BidderController.withCountdown estimate lotsOnPage
  dsimp only [Option.getD_some]
  cases (page NavigationInfo.pageSize
    (navigation (upcomingRows w.db name auctionId category phase).length n).curPage
    (upcomingRows w.db name auctionId category phase)).eraseDups with
  | nil => rfl
  | cons row rows =>
    simp only [List.map_cons, listed_bidSpan]
    congr 1
    -- for the pages before, the first span of the page is taken for every row
    split <;> simp

/-- **The countdowns of a page of upcoming items are the seconds until the lots are opened
    exactly if the page, when it shows a list, leaves no lot out.** -/
theorem predicts_iff (viewer : Viewer) (env : Env) (w : World) (name : String)
    (category : Option ℤ) {auctionId : ℤ} {phase : Phase} (h : Stands w.redis auctionId phase)
    (hd : DistinctLots w.db auctionId)
    (hpos : ∀ lot ∈ CommonDao.getCurrentBidSequence w.db auctionId, 0 < lot.bidspan) (n : ℤ) :
    Predicts viewer env w name auctionId category phase n ↔
      ((viewer.startsAt env w auctionId phase).isSome = true →
        LeavesNoneOut w.db name auctionId category phase n) := by
  have hlots : ∀ s ∈ lotsToCome w.db auctionId phase,
      s ∈ CommonDao.getCurrentBidSequence w.db auctionId :=
    fun s hs => (List.mem_filter.mp hs).1
  -- with positive spans a lot that is left out makes a later sum too small
  have hexact : ∀ c, Accurate BidSequence.sequenceId BidSequence.bidspan
      (fun s => phase.upcoming s.sequenceId) (lotsToCome w.db auctionId phase) c
      (lotsOnPage w.db name auctionId category phase n) ↔ _ := fun c =>
    accurate_iff (hd.numbers.sublist (List.filter_sublist.map _))
      (fun s hs => hpos s (hlots s hs)) (pairwise_lotsOnPage hd n)
      (fun s hs hupcoming => List.mem_filter.mpr ⟨mem_of_mem_lotsOnPage hs, hupcoming⟩)
      (fun s _ s' _ hlt hupcoming => Phase.upcoming_of_lt hlt hupcoming) c
  unfold Predicts
  cases hleft : viewer.startsAt env w auctionId phase with
  | none => simp
  | some left =>
    obtain ⟨rows, hrows, hshown⟩ := @shownOn_eq_countdown env w name auctionId category phase
      viewer h hd left hleft n
    simp only [Option.some.injEq, forall_eq', Option.isSome_some, forall_true_left]
    rw [hshown, forall_countdown_iff, hrows, hexact]
    rfl

end Countdown

/-- Two lots that `bidder1` may both see, a minute before the start. -/
theorem predicts_copperHall :
    Predicts .observer (Env.still 0) (copperHall [⟨1, 11, 1, 60⟩, ⟨1, 12, 2, 30⟩] []) "bidder1" 1
      none .notStarted 1 :=
  (predicts_iff .observer (Env.still 0) _ "bidder1" none (stands_copperHall _ _)
    ⟨by decide +kernel, by decide +kernel⟩ (by decide +kernel) 1).mpr (by
      intro _ first hfirst
      have hpage : lotsOnPage (copperHall [⟨1, 11, 1, 60⟩, ⟨1, 12, 2, 30⟩] []).db "bidder1" 1 none
          .notStarted 1 = [⟨1, 11, 1, 60⟩, ⟨1, 12, 2, 30⟩] := by decide +kernel
      rw [hpage] at hfirst ⊢
      cases hfirst
      exact ⟨by decide +kernel, by decide +kernel⟩)

/-- The first of two lots is hidden from `bidder1`, a minute before the start. -/
def hiddenHall : World := { copperHall [] [] with db := hiddenDb }

theorem stands_hiddenHall : Stands hiddenHall.redis 1 .notStarted := ⟨rfl, rfl⟩

theorem opensAfter_hiddenHall : opensAfter hiddenHall.db 1 .notStarted 2 = 60 := by
  decide +kernel

/-- Both pages show the second lot with the `60` seconds to the start. -/
theorem shown_hiddenHall (viewer : Viewer) :
    viewer.startsAt (Env.still 0) hiddenHall 1 .notStarted = some 60 ∧
      ∃ item ∈ shownOn (Env.still 0) hiddenHall (viewer.marketItems "bidder1" none) 1,
        item.seqId = 2 ∧ item.timeLeft = 60 := by
  cases viewer <;> exact ⟨by decide +kernel, by decide +kernel⟩

/-- The second lot is opened `120` seconds later, and both pages say `60`. -/
theorem hiddenHall_not_predicts :
    Stands hiddenHall.redis 1 .notStarted ∧ DistinctLots hiddenHall.db 1 ∧
      opensAfter hiddenHall.db 1 .notStarted 2 = 60 ∧
      ¬ Predicts .bidder (Env.still 0) hiddenHall "bidder1" 1 none .notStarted 1 ∧
      ¬ Predicts .observer (Env.still 0) hiddenHall "bidder1" 1 none .notStarted 1 := by
  have hnot : ∀ viewer : Viewer,
      ¬ Predicts viewer (Env.still 0) hiddenHall "bidder1" 1 none .notStarted 1 := by
    intro viewer h
    obtain ⟨hstart, item, hitem, hseqId, htimeLeft⟩ := shown_hiddenHall viewer
    have hpredicted := h 60 hstart item hitem rfl
    rw [hseqId, opensAfter_hiddenHall, htimeLeft] at hpredicted
    omega
  exact ⟨stands_hiddenHall, ⟨by decide +kernel, by decide +kernel⟩, opensAfter_hiddenHall,
    hnot .bidder, hnot .observer⟩

end Bidding.Model
