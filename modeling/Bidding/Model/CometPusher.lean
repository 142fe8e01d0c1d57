import Bidding.Model.CommonDao

/-!
# The Active Page of a Bidder

The rank and the bid mode of a bidder on the item on sale, computed twice: by the request
`/active` when the page is rendered, and by `CometPusher.setBidDisplay` when a bid is
published and the open pages are updated.

## Modelling choices

- A script session is an open page: its user's name, if it has one, and whether it has been
  invalidated. The updates of the price, the bidder's name and the countdown, which
  `setBidDisplay` sends to this and other pages, are left out.
- Both sort the item's list in its place; nothing reads it afterwards.
-/

namespace Bidding.Model

open Bidding.Collections

/-- The bid mode of a bidder, `1` or `2`. -/
inductive BidMode where
  | manual
  | auto
  deriving DecidableEq, Repr

/-- `bidders.indexOf(bidder)` for a bidder of that name. -/
def indexOf (bidders : List Bidder) (name : String) : ℤ :=
  match bidders.findIdx? (fun b => b.bidderName = some name) with
  | some i => i
  | none => -1

namespace BidderController

/-- The rank and the mode that `/active` puts into `bidItemWithRanks` and
    `bidItemWithAutoBidFlag` for an item on the page. -/
def rankAndMode (item : BidItem) (name : String) : ℤ × BidMode :=
  let bidders := item.sortBidders.currentBiddersList
  let rank := indexOf bidders name + 1
  -- the mode of the page is that of the bidder's own entry
  if item.autoBidFlag ∧ 0 < rank ∧ (bidders[(rank - 1).toNat]?).any Bidder.isAutoBid then
    (rank, .auto)
  else
    (rank, .manual)

end BidderController

namespace CometPusher

/-- `BidderAmountExtComparator.compare` -/
def compareBiddersExt (o1 o2 : Bidder) : ℤ :=
  if o2.currentBidAmount ≠ o1.currentBidAmount then
    doubleToInt (o2.currentBidAmount - o1.currentBidAmount)
  -- of two bids of the same amount the auto-bid is the higher one
  else if o1.isAutoBid ≠ o2.isAutoBid then
    let a := if o1.isAutoBid then 10 else 0
    let b := if o2.isAutoBid then 10 else 0
    b - a
  else
    toInt32 (o1.biddingTime - o2.biddingTime)

/-- A page of a bidder that is open. -/
structure ScriptSession where
  invalidated : Bool
  userName : Option String
  deriving DecidableEq

/-- The argument of the script `update(...)`. -/
structure Update where
  bidItemId : ℤ
  rank : ℤ
  mode : BidMode
  amountAutoBid : ℚ
  deriving DecidableEq

/-- The message for one bidder; `bidders` is the list after both sorts. -/
def message (bidItemId : ℤ) (item : BidItem) (bidders : List Bidder) (actualBidderName : String) :
    Update :=
  let rank := indexOf bidders actualBidderName
  let amountAutoBid := item.amountAutoBid.getD 0
  if item.autoBidFlag then
    -- the mode that is pushed is that of the leading auto-bid
    if item.autoBidderName = some actualBidderName then
      ⟨bidItemId, rank + 1, .auto, amountAutoBid⟩
    else
      ⟨bidItemId, rank + 1, .manual, 0⟩
  else
    ⟨bidItemId, rank + 1, .manual, 0⟩

/-- The updates that `setBidDisplay` sends to the active pages of the bidders, with the name
    each one is for. An item without id is a null dereference. -/
def setBidDisplay (item : BidItem) (allScriptSessions : List ScriptSession) :
    Except Exn (List (String × Update)) :=
  match item.bidItemId with
  | none => .error .nullPointer
  | some bidItemId =>
    -- `getCurrentBidderList` has sorted the list before it is sorted again
    let bidders := sort compareBiddersExt item.sortBidders.currentBiddersList
    .ok (allScriptSessions.filterMap (fun scriptSession =>
      if scriptSession.invalidated then none
      else scriptSession.userName.map (fun actualBidderName =>
        (actualBidderName, message bidItemId item bidders actualBidderName))))

end CometPusher

end Bidding.Model
