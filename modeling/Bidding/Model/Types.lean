import Mathlib.Algebra.Group.Int.Defs
import Mathlib.Algebra.Group.Nat.Defs
import Mathlib.Data.Rat.Defs
import Bidding.KeyValue.Store

/-!
# Data of the Auction Application

The Java values that the scheduler, the cache and the data-access layer exchange, the
texts and keys under which the cache stores them, and the database rows they come from.

## Modelling choices

- A reference that may be `null` is an `Option`.
- A `java.util.Date` is its number of milliseconds; prices are exact decimals (`ℚ`).
- A text in the cache is kept together with the kind of value it was printed from
  (`Text`), so that printing and parsing back is exact. Parsing a text of another kind is
  the exception that the Java parser throws.
- The date format of the cache, `yyMMddHHmmssZ`, keeps whole seconds.
-/

namespace Bidding.Model

/-! ## Exceptions, dates and machine integers -/

/-- The exceptions that the modelled code can meet. -/
inductive Exn where
  | nullPointer
  | numberFormat
  | parse
  | jedis
  | illegalArgument
  | runtime
  deriving DecidableEq, Repr

/-- A `java.util.Date`: milliseconds since 1970. -/
abbrev Date := ℤ

/-- `TimeUnit.MILLISECONDS.toSeconds`, which rounds towards zero. -/
def toSeconds (d : Date) : ℤ := d.tdiv 1000

/-- The second in which a date lies: what the text of a date keeps. -/
def secondOf (d : Date) : ℤ := d / 1000

/-- The date that the text of a second is parsed to. -/
def ofSecond (s : ℤ) : Date := s * 1000

/-- `Calendar.add(Calendar.SECOND, n)` -/
def addSeconds (d : Date) (n : ℤ) : Date := d + n * 1000

/-- The value of a 32-bit `int` computation. -/
def toInt32 (n : ℤ) : ℤ := n.bmod (2 ^ 32)

theorem toInt32_of_fits {n : ℤ} (hlow : -2 ^ 31 ≤ n) (hhigh : n < 2 ^ 31) : toInt32 n = n := by
  unfold toInt32
  rw [Int.bmod_eq_of_le] <;> omega

/-- `(int) d` for a floating-point `d`: round towards zero, then saturate. -/
def doubleToInt (q : ℚ) : ℤ := max (-2 ^ 31) (min (2 ^ 31 - 1) (q.num.tdiv q.den))

/-! ## Texts, keys and fields of the cache -/

/-- A text stored in the cache, with the kind of value it was printed from. -/
inductive Text where
  | str (s : String)
  | long (n : ℤ)
  | double (q : ℚ)
  | date (second : ℤ)
  | bool (b : Bool)
  deriving DecidableEq

namespace Text

/-- The characters of a text. -/
def render : Text → String
  | .str s => s
  | .long n => toString n
  | .double q => toString q
  | .date s => toString s
  | .bool b => toString b

/-- `SimpleDateFormat.format` with the pattern `yyMMddHHmmssZ`. -/
def format (d : Date) : Text := .date (secondOf d)

/-- `Long.parseLong` and `Integer.parseInt`; a `null` argument is a format error too. -/
def parseLong : Option Text → Except Exn ℤ
  | some (.long n) => .ok n
  | _ => .error .numberFormat

/-- `Double.parseDouble` -/
def parseDouble : Option Text → Except Exn ℚ
  | some (.double q) => .ok q
  | some (.long n) => .ok n
  | _ => .error .numberFormat

/-- `sdf.parse` -/
def parseDate : Option Text → Except Exn Date
  | some (.date s) => .ok (ofSecond s)
  | _ => .error .parse

/-- `s == null || s.equals("null") || s.length() == 0` -/
def isBlank : Option Text → Bool
  | none => true
  | some t => t = .str "null" || t = .str ""

end Text

/-- The keys of the cache (`RedisConstants`), each with the text it stands for. -/
inductive Key where
  /-- `::BIDITEMS::` -/
  | bidItems
  /-- `BIDITEM::<id>` -/
  | bidItem (id : ℤ)
  /-- `::BIDDERS::<id>` -/
  | bidders (id : ℤ)
  /-- `BIDDER::<id>::<name>` -/
  | bidder (id : ℤ) (name : Text)
  /-- `::CATEGORIES::` -/
  | categories
  /-- `::CATEGORIES::<id>` -/
  | categoryItems (id : Option ℤ)
  /-- `CATEGORY::<id>` -/
  | category (id : Text)
  /-- `RedisConstants.BID_CATEGORY` with the id -/
  | bidCategory (id : Option ℤ)
  /-- `::BIDITEMID::SEQUENCE::` -/
  | bidItemIdSequence
  /-- `BIDSEQUENCE::<id>` -/
  | bidSequence (id : ℤ)
  /-- `BIDITEM::SEQUENCE::IDS` -/
  | bidItemSequenceIds
  /-- `ACTIVE::BIDITEM::ID` -/
  | activeBidItemId
  /-- `::AUCTIONID::` -/
  | auctionId
  /-- `::EXPIRED::BIDITEMS::` -/
  | expiredBidItems
  /-- `::BIDID::` -/
  | bidId
  /-- `::AUTOBIDID::` -/
  | autoBidId
  deriving DecidableEq

/-- The hash fields of the cache (`RedisConstants.ATTR_*` and the fields of a bidder). -/
inductive Attr where
  | bidItemId | name | location | city | zone | minBidPrice | minBidIncrement
  | bidStartTime | bidEndTime | initialStartTime | timeExtAfterBid | statusCode | winnerId
  | lastUpDateTime | createdTime | currentMarketPrice | isAutoBid | autobidid
  | autoBidAmount | currency | categoryId | auctionId | autoBidderName
  | currentAutoBidId | bidSpan | seqId | sequenceId | categoryName
  | bidderName | autoBid | bidAmount
  deriving DecidableEq

/-! ## Items and bidders -/

/-- `common.form.Category` -/
structure Category where
  categoryId : Option ℤ
  categoryName : Option String
  deriving DecidableEq

/-- `common.bean.Bidder`. Two bidders are equal in Java when their names are. -/
structure Bidder where
  bidderName : Option String
  currentBidAmount : ℚ
  isAutoBid : Bool
  biddingTime : Date
  autoBidMaxAnount : Option ℚ
  deriving DecidableEq

/-- The decisions of an observer on a closed item (`BiddingConstants`). -/
inductive BidStatus where
  | h1
  | h2
  | h3
  | hold
  | rejected
  deriving DecidableEq, Repr

/-- `common.form.BidItem`, with the attributes that the cache, the scheduler, the auto-bid
    resolution and the closed market use. -/
structure BidItem where
  bidItemId : Option ℤ
  name : Option String
  location : Option String
  city : Option String
  zone : Option String
  minBidPrice : Option ℚ
  minBidIncrement : Option ℚ
  bidStartTime : Option Date
  bidEndTime : Option Date
  initialStartTime : Option ℤ
  timeExtAfterBid : Option ℤ
  statusCode : Option String
  lastUpDateTime : Option Date
  createdTime : Option Date
  currentMarketPrice : Option ℚ
  currency : Option String
  autobidid : Option ℤ
  category : Option Category
  auctionId : Option ℤ
  autoBidderName : Option String
  currentAutoBidId : Option ℤ
  isProcessed : Option BidStatus
  bidderName : Option String
  -- transient attributes, which have no column
  autoBidFlag : Bool
  amountAutoBid : Option ℚ
  currentBiddersList : List Bidder
  bidSpan : ℤ
  seqId : ℤ
  timeLeft : ℤ
  status : Option String
  deriving DecidableEq

namespace BidItem

/-- `new BidItem()` -/
def new : BidItem where
  bidItemId := none
  name := some ""
  location := some ""
  city := some ""
  zone := some ""
  minBidPrice := none
  minBidIncrement := none
  bidStartTime := none
  bidEndTime := none
  initialStartTime := none
  timeExtAfterBid := none
  statusCode := none
  lastUpDateTime := none
  createdTime := none
  currentMarketPrice := none
  currency := none
  autobidid := none
  category := none
  auctionId := none
  autoBidderName := none
  currentAutoBidId := none
  isProcessed := none
  bidderName := none
  autoBidFlag := false
  amountAutoBid := none
  currentBiddersList := []
  bidSpan := 0
  seqId := 0
  timeLeft := 0
  status := none

/-! ### Setters, used where the cache is read -/

def setBidItemId (v : Option ℤ) (item : BidItem) : BidItem := { item with bidItemId := v }

def setName (v : Option String) (item : BidItem) : BidItem := { item with name := v }

def setLocation (v : Option String) (item : BidItem) : BidItem := { item with location := v }

def setCity (v : Option String) (item : BidItem) : BidItem := { item with city := v }

def setZone (v : Option String) (item : BidItem) : BidItem := { item with zone := v }

def setMinBidPrice (v : Option ℚ) (item : BidItem) : BidItem := { item with minBidPrice := v }

def setMinBidIncrement (v : Option ℚ) (item : BidItem) : BidItem :=
  { item with minBidIncrement := v }

def setBidStartTime (v : Option Date) (item : BidItem) : BidItem := { item with bidStartTime := v }

def setBidEndTime (v : Option Date) (item : BidItem) : BidItem := { item with bidEndTime := v }

def setInitialStartTime (v : Option ℤ) (item : BidItem) : BidItem :=
  { item with initialStartTime := v }

def setTimeExtAfterBid (v : Option ℤ) (item : BidItem) : BidItem :=
  { item with timeExtAfterBid := v }

def setStatusCode (v : Option String) (item : BidItem) : BidItem := { item with statusCode := v }

def setLastUpDateTime (v : Option Date) (item : BidItem) : BidItem :=
  { item with lastUpDateTime := v }

def setCreatedTime (v : Option Date) (item : BidItem) : BidItem := { item with createdTime := v }

def setCurrentMarketPrice (v : Option ℚ) (item : BidItem) : BidItem :=
  { item with currentMarketPrice := v }

def setAutoBidFlag (v : Bool) (item : BidItem) : BidItem := { item with autoBidFlag := v }

def setAutobidid (v : Option ℤ) (item : BidItem) : BidItem := { item with autobidid := v }

def setAmountAutoBid (v : Option ℚ) (item : BidItem) : BidItem := { item with amountAutoBid := v }

def setCurrency (v : Option String) (item : BidItem) : BidItem := { item with currency := v }

def setCategory (v : Option Category) (item : BidItem) : BidItem := { item with category := v }

def setAuctionId (v : Option ℤ) (item : BidItem) : BidItem := { item with auctionId := v }

def setAutoBidderName (v : Option String) (item : BidItem) : BidItem :=
  { item with autoBidderName := v }

def setCurrentAutoBidId (v : Option ℤ) (item : BidItem) : BidItem :=
  { item with currentAutoBidId := v }

def setBidSpan (v : ℤ) (item : BidItem) : BidItem := { item with bidSpan := v }

def setSeqId (v : ℤ) (item : BidItem) : BidItem := { item with seqId := v }

/-- The attributes of an item that its database row has: what a load returns and what the
    flush of a loaded item writes back. -/
def persistent (item : BidItem) : BidItem :=
  { item with
    autoBidFlag := false
    amountAutoBid := none
    currentBiddersList := []
    bidSpan := 0
    seqId := 0
    timeLeft := 0
    status := none }

/-- `BidItem.getTimeLeft` at the time `now`. An item without an end time answers its field;
    otherwise a missing last-update time or extension is a null dereference. -/
def timeLeftAt (item : BidItem) (now : Date) : Except Exn ℤ :=
  match item.bidEndTime, item.lastUpDateTime, item.timeExtAfterBid with
  | none, _, _ => .ok item.timeLeft
  | some bidEndTime, some lastUpDateTime, some timeExtAfterBid =>
    let bEndTime := toSeconds bidEndTime
    let lUpdateTime := toSeconds lastUpDateTime
    let currTime := toSeconds now
    if lUpdateTime > bEndTime - timeExtAfterBid then
      .ok (currTime - lUpdateTime + timeExtAfterBid)
    else
      .ok (if bEndTime - currTime > 0 then bEndTime - currTime else 0)
  | some _, _, _ => .error .nullPointer

end BidItem

/-! ## Database rows -/

/-- A row of `autobids`. -/
structure AutoBids where
  autoBidId : ℤ
  bidItemId : ℤ
  bidAmount : ℚ
  bidTime : Date
  bidStatus : String
  bidderName : String
  deriving DecidableEq

/-- A row of `bidsequence`. -/
structure BidSequence where
  auctionId : ℤ
  bidItemId : ℤ
  sequenceId : ℤ
  bidspan : ℤ
  deriving DecidableEq

/-- A row of `bids`, as `saveAutoBidResultToBids` writes it. -/
structure Bid where
  bidItemId : Option ℤ
  auctionId : Option ℤ
  bidAmount : Option ℚ
  comments : String
  bidType : ℤ
  bidTime : Date
  bidderName : Option String
  status : String
  currency : String
  deriving DecidableEq

/-- A row of `biddercategory`, with the name of its user. -/
structure BidderCategory where
  auctionId : ℤ
  categoryId : ℤ
  username : String
  deriving DecidableEq

/-- A row of `closedbids`. -/
structure CloseBids where
  bidItemId : ℤ
  bidStatus : BidStatus
  bidAmount : Option ℚ
  bidderName : Option String
  observerName : String
  deriving DecidableEq

/-- The values of `auction.status`. -/
inductive AuctionStatus where
  | start
  | running
  | ended
  | closed
  | terminated
  deriving DecidableEq, Repr

/-- A row of `auction`. -/
structure Auction where
  status : AuctionStatus
  isApproved : String
  auctionStartTime : Option Date
  auctionEndTime : Option Date
  lastUpdateTime : Date
  deriving DecidableEq

/-- The tables that the modelled code reads and writes. -/
structure Db where
  bidItems : ℤ → Option BidItem
  auctions : ℤ → Option Auction
  bidSequence : List BidSequence
  autoBids : List AutoBids
  categories : List Category
  bids : List Bid
  bidderCategories : List BidderCategory
  closedBids : List CloseBids
  maxBidId : Option ℤ
  maxAutoBidId : Option ℤ

/-- Tables without rows. -/
def Db.empty : Db where
  bidItems _ := none
  auctions _ := none
  bidSequence := []
  autoBids := []
  categories := []
  bids := []
  bidderCategories := []
  closedBids := []
  maxBidId := none
  maxAutoBidId := none

end Bidding.Model
