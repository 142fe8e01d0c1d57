import Mathlib.Data.Int.Notation
import Mathlib.Data.Nat.Notation

/-!
# The Script of the Market List

The page `bidder_marketlist.jsp` keeps the seconds that are left for each listed lot. Its function
`displayTimes` shows them and counts them down, once a second. When the lot on sale is extended,
`CometPusher.pushBidExtendTime` writes its new number of seconds into the field `extn` of the open
pages, where the next run of `displayTimes` finds it.

## Modelling choices

- The arrays `timeSpans` and `bidItemIds` are filled together, by `setTimeLefts`: they are one list
  here.
- The variable `diff` is not declared, so that it is one of the page: both functions write it. The
  others of that kind, `i`, `ts` and `ex`, are only read in the turn that sets them.
- `refreshPage` reads the clock, which is given for each turn of the loop.
- A reload is noted; the run goes on to its end.
-/

namespace Bidding.Model.MarketPage

/-- An entry of `timeSpans`, with that of `bidItemIds`. -/
structure Lot where
  timeSpan : ℤ
  bidItemId : ℤ
  deriving DecidableEq

/-- The page in the browser: the variables of the script, the texts of the countdowns, the hidden
    fields, whether it is being reloaded and whether `displayTimes` will run again. -/
structure Page where
  lots : List Lot
  diff : ℤ
  countdown : ℤ → String
  extn : ℤ
  lLTime : ℤ
  lLCount : ℤ
  reloaded : Bool
  timer : Bool

/-- The page as it is loaded, before the lots. -/
def Page.new : Page where
  lots := []
  diff := 0
  countdown _ := ""
  extn := 0
  lLTime := 0
  lLCount := 0
  reloaded := false
  timer := false

/-- `setTimeLefts` -/
def setTimeLefts (page : Page) (remain bidItemId : ℤ) : Page :=
  { page with lots := page.lots ++ [⟨remain, bidItemId⟩] }

/-- `Util.setValue("extn", timeLeft)` of `pushBidExtendTime` -/
def pushBidExtendTime (page : Page) (timeLeft : ℤ) : Page := { page with extn := timeLeft }

/-- `toHourAndMinuteAndSecond` -/
def toHourAndMinuteAndSecond (x : ℤ) : String :=
  toString (x / 3600) ++ ":" ++ toString (x.tmod 3600 / 60) ++ ":" ++ toString (x.tmod 60)

/-- `document.getElementById("countdown" + bidItemId).innerHTML = text` -/
def setCountdown (page : Page) (bidItemId : ℤ) (text : String) : Page :=
  { page with countdown := fun id => if id = bidItemId then text else page.countdown id }

/-- `refreshPage` -/
def refreshPage (page : Page) (currentTime : ℤ) : Page :=
  let diff := currentTime - page.lLTime
  if diff < 15000 then
    -- a reload within fifteen seconds of the last one is counted, and not done
    { page with diff := diff, lLCount := page.lLCount + 1, lLTime := currentTime }
  else
    { page with diff := diff, lLTime := currentTime, reloaded := true }

/-- The first half of a turn: `diff` and the seconds of the lot. -/
def extend (page : Page) (ex : ℤ) (i : ℕ) (ts : ℤ) : Page × ℤ :=
  let page := { page with diff := 0 }
  if i = 0 ∧ ex > 0 then
    let diff := ex - ts
    ({ page with diff := if diff < 0 then 0 else diff }, ex)
  else
    -- `diff` is zero again: the shift of the first lot does not reach the others
    (page, ts + page.diff)

/-- A turn of the loop in `displayTimes`. -/
def turn (clock : ℕ → ℤ) (ex : ℤ) (page : Page) (i : ℕ) (lot : Lot) : Page × Lot :=
  let extended := extend page ex i lot.timeSpan
  if extended.2 ≤ 0 then
    (refreshPage extended.1 (clock i), { lot with timeSpan := extended.2 })
  else
    (setCountdown extended.1 lot.bidItemId (toHourAndMinuteAndSecond extended.2),
      { lot with timeSpan := extended.2 - 1 })

/-- The turns from the `i`-th on. -/
def turns (clock : ℕ → ℤ) (ex : ℤ) : Page → ℕ → List Lot → Page × List Lot
  | page, _, [] => (page, [])
  | page, i, lot :: lots =>
    let turned := turn clock ex page i lot
    let rest := turns clock ex turned.1 (i + 1) lots
    (rest.1, turned.2 :: rest.2)

/-- `displayTimes` -/
def displayTimes (clock : ℕ → ℤ) (page : Page) : Page :=
  if page.lLCount > 5 then
    -- after six reloads that were not done the script stops
    { page with timer := false }
  else
    let turned := turns clock page.extn page 0 page.lots
    { turned.1 with lots := turned.2, extn := 0, timer := true }

end Bidding.Model.MarketPage
