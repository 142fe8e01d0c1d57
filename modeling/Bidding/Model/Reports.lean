import Mathlib.Algebra.Order.Ring.Unbundled.Rat
import Bidding.Model.Types

/-!
# The Reports of an Observer

The loops behind the observer's reports: `processSummary1ReportList` of `ReportDaoImpl` and
`getBidsListForClosedMarket` of `ObserverDaoImpl`, which make one entry of the rows of an item,
and the four passes of `ReportSummary2DaoImpl`, which fill the totals of a category; the sales
prices of the entries, and the totals that `ReportController` shows below the two reports.

## Modelling choices

- A query gives the rows of its result; what it selects and how it sorts is not modelled here.
- An item of a row is a managed object, so that its id is there. The rows of one item share the
  object.
- The loops read a row before they use it, and the lists and maps they fill are local to the
  call: a row that cannot be read is an exception of the call, wherever in the loop it is met.
- Quantities and amounts are exact.
-/

namespace Bidding.Model.Reports

/-! ## Items and their lots -/

/-- `common.form.ItemLot` -/
structure ItemLot where
  lotId : Option ℤ
  bidItemId : Option ℤ
  name : Option String
  lengthRange : Option String
  actualLengh : Option String
  quantity : Option ℤ
  unit : Option String
  currency : Option String
  remark : Option String
  zone : Option String
  lotNo : Option String
  deriving DecidableEq

/-- An item as a query of a report returns it: it has been stored, so that it has an id, and its
    lots are attached. -/
structure ReportItem extends BidItem where
  id : ℤ
  id_eq : bidItemId = some id
  itemLots : List ItemLot
  deriving DecidableEq

/-- `getTotalQuantity`, which fails on a lot without a quantity. -/
def ReportItem.getTotalQuantity (item : ReportItem) : Except Exn ℤ :=
  item.itemLots.foldlM (fun total itemLot =>
    match itemLot.quantity with
    | none => .error .nullPointer
    | some quantity => .ok (total + quantity)) 0

/-- `getUnit`: the unit of the first lot. -/
def ReportItem.getUnit (item : ReportItem) : Option String :=
  item.itemLots.head?.bind ItemLot.unit

/-! ## Rows and bids -/

/-- `String.trim`, which drops the characters up to the blank at both ends. -/
def trim (s : String) : String :=
  let dropBlanks := List.dropWhile (fun c : Char => c ≤ ' ')
  String.ofList (dropBlanks (dropBlanks s.toList).reverse).reverse

/-- An `Object[]` of the queries on bids. The outer join leaves the bid's own item `null` where
    there is no bid; the id of the joined item is a column of its own. -/
structure Row where
  bidId : Option ℤ
  bidItem : Option ReportItem
  bidderName : Option String
  currency : Option String
  bidTime : Option Date
  bidStatus : Option String
  comments : Option String
  bidAmount : Option ℚ
  bidItemId : Option ℤ
  deriving DecidableEq

/-- A row of the query of the closed items, which also has the number in the sequence. -/
structure ClosedRow extends Row where
  sequenceId : Option ℤ
  deriving DecidableEq

/-- `common.form.Bids`, with the attributes that the reports set. -/
structure Bids where
  bidId : Option ℤ
  bidItem : ReportItem
  bidderName : Option String
  currency : Option String
  bidTime : Option Date
  bidStatus : Option String
  comments : Option String
  bidAmount : Option ℚ
  bidAmount2 : Option ℚ
  bidAmount3 : Option ℚ
  bidderName2 : Option String
  bidderName3 : Option String
  salesPrice : Option ℚ
  totalSalesPrice : Option ℚ
  deriving DecidableEq

/-- The id of the item of a bid. -/
def Bids.itemId (bids : Bids) : ℤ := bids.bidItem.id

section Reading

-- the query by id
variable (getBidItem : ℤ → Option ReportItem)

/-- The item of a row. One that is not found is dereferenced later in the call. -/
def itemOf (row : Row) : Except Exn ReportItem :=
  match row.bidItem with
  | some bidItem => .ok bidItem
  | none =>
    match row.bidItemId.bind getBidItem with
    | none => .error .nullPointer
    | some bidItem => .ok bidItem

/-- `new Bids()` with the attributes of a row. -/
def toBids (row : Row) : Except Exn Bids := do
  let bidItem ← itemOf getBidItem row
  .ok {
    bidId := row.bidId
    bidItem := bidItem
    bidderName := row.bidderName.map trim
    currency := row.currency.map trim
    bidTime := row.bidTime
    bidStatus := row.bidStatus.map trim
    comments := row.comments.map trim
    bidAmount := row.bidAmount
    bidAmount2 := none
    bidAmount3 := none
    bidderName2 := none
    bidderName3 := none
    salesPrice := none
    totalSalesPrice := none }

/-- A row of the closed items with its number: `setSeqId` unboxes it. -/
def toClosedBids (row : ClosedRow) : Except Exn (Bids × ℤ) := do
  let bids ← toBids getBidItem row.toRow
  match row.sequenceId with
  | none => .error .nullPointer
  | some sequenceId => .ok (bids, sequenceId)

end Reading

/-! ## One entry for an item -/

/-- The variables of the loop that makes the entries. -/
structure Loop where
  bidItemID : Option ℤ
  i : ℕ
  j : ℕ
  bidPrevObj : Option Bids
  recordCounter : ℕ
  bidsList : List Bids

/-- The variables before the loop. -/
def Loop.start (bidsList : List Bids) : Loop := ⟨none, 0, 0, none, 0, bidsList⟩

/-- Another row of the item of `bidPrevObj`: the second and the third row are kept. -/
def addBidder (j : ℕ) (bids bidPrevObj : Bids) : Bids :=
  if j = 0 then
    { bidPrevObj with bidAmount2 := bids.bidAmount, bidderName2 := bids.bidderName }
  else if j = 1 then
    { bidPrevObj with bidAmount3 := bids.bidAmount, bidderName3 := bids.bidderName }
  else bidPrevObj

/-- `bidsList.add(bidPrevObj)` -/
def Loop.add (s : Loop) : Loop := { s with bidsList := s.bidsList ++ s.bidPrevObj.toList }

/-- One turn of the loop, up to the test for the last record. -/
def Loop.turn (s : Loop) (bids : Bids) : Loop :=
  let s := { s with recordCounter := s.recordCounter + 1 }
  let s :=
    if s.i = 0 then { s with bidItemID := some bids.itemId, bidPrevObj := some bids } else s
  let s :=
    -- the tests of the source one after the other; the first turn fails both
    if s.i ≠ 0 ∧ s.bidItemID = some bids.itemId then
      { s with bidPrevObj := s.bidPrevObj.map (addBidder s.j bids), j := s.j + 1 }
    else if s.bidItemID ≠ some bids.itemId then
      { s.add with j := 0, bidItemID := some bids.itemId, bidPrevObj := some bids }
    else s
  { s with i := s.i + 1 }

/-- The loop over `bidsListO`; `size` is the size of the list that the test for the last record
    uses. -/
def fillBidsList (size : ℕ) (bidsListO bidsList : List Bids) : List Bids :=
  (bidsListO.foldl (fun s bids =>
    -- the last entry is added by this test, or not at all
    if (s.turn bids).recordCounter = size then (s.turn bids).add else s.turn bids)
    (Loop.start bidsList)).bidsList

namespace ReportDao

/-- `processSummary1ReportList`: the active item is left out, the test for the last record uses
    the size of all rows. -/
def processSummary1ReportList (getBidItem : ℤ → Option ReportItem) (activeId : ℤ)
    (objectsList : List Row) (bidsList : List Bids) : Except Exn (List Bids) := do
  let rows ← objectsList.mapM (toBids getBidItem)
  let bidsListO := rows.filter (fun bids => bids.itemId ≠ activeId)
  .ok (fillBidsList objectsList.length bidsListO bidsList)

/-- A lot that was awarded: the price, and the price of the whole quantity if there is one. -/
def award (bid : Bids) (totalQuantity : ℤ) (amount : Option ℚ) : Bids :=
  { bid with
    salesPrice := amount
    totalSalesPrice :=
      match amount with
      | some amount => some (totalQuantity * amount)
      | none => bid.totalSalesPrice }

/-- One turn of `getBidsSalesPrice`. The quantity is computed for every decision. -/
def setSalesPrice (bid : Bids) : Except Exn Bids :=
  match bid.bidItem.isProcessed with
  | none => .ok bid
  | some lotsStatus => do
    let totalQuantity ← bid.bidItem.getTotalQuantity
    match lotsStatus with
    | .h1 => .ok (award bid totalQuantity bid.bidAmount)
    | .h2 => .ok (award bid totalQuantity bid.bidAmount2)
    | .h3 => .ok (award bid totalQuantity bid.bidAmount3)
    -- a price is shown, but it is not part of the total
    | .rejected | .hold => .ok { bid with salesPrice := bid.bidAmount }

/-- `getBidsSalesPrice` -/
def getBidsSalesPrice (bidsList : List Bids) : Except Exn (List Bids) :=
  bidsList.mapM setSalesPrice

/-- `getReportSummary1`, from the result of its query on -/
def getReportSummary1 (getBidItem : ℤ → Option ReportItem) (activeId : ℤ)
    (objectsList : List Row) : Except Exn (List Bids) := do
  let bidsList ← processSummary1ReportList getBidItem activeId objectsList []
  getBidsSalesPrice bidsList

end ReportDao

namespace ObserverDao

/-- The number that an item has after all rows have been read: the rows of one item set it in the
    same object, so that the last one counts. -/
def seqIdOf (rows : List (Bids × ℤ)) (id : ℤ) : ℤ :=
  ((rows.filter (fun row => row.1.itemId = id)).getLast?.map Prod.snd).getD 0

/-- A bid whose item has a number of the sequence. -/
def setSeqId (seqId : ℤ) (bids : Bids) : Bids :=
  { bids with bidItem := { bids.bidItem with seqId := seqId } }

/-- `getBidsListForClosedMarket` -/
def getBidsListForClosedMarket (getBidItem : ℤ → Option ReportItem)
    (objectsList : List ClosedRow) : Except Exn (List Bids) := do
  let rows ← objectsList.mapM (toClosedBids getBidItem)
  let bidsListO := rows.map (fun row => setSeqId (seqIdOf rows row.1.itemId) row.1)
  .ok (fillBidsList objectsList.length bidsListO [])

end ObserverDao

/-! ## Totals of a category -/

/-- `common.dto.ReportSummary2` -/
structure ReportSummary2 where
  categoryId : Option ℤ
  categoryName : Option String
  totalLotsForSale : Option ℤ
  totalLotsquantityForSale : Option ℤ
  totalActualSoldLots : Option ℤ
  totalActualSoldQunatity : Option ℤ
  totalActualSoldAmount : Option ℚ
  avergeAmount : Option ℚ
  totalUnsoldBiddedLots : Option ℤ
  totalUnsoldBiddedQuantity : Option ℤ
  totalUnsoldUnBiddedLots : Option ℤ
  totalUnsoldUnBiddedQuantity : Option ℤ
  deriving DecidableEq

/-- `new ReportSummary2()` -/
def ReportSummary2.new : ReportSummary2 :=
  ⟨none, none, none, none, none, none, none, none, none, none, none, none⟩

/-- `Map<Long, ReportSummary2>` -/
abbrev Summary2Map := ℤ → Option ReportSummary2

/-- The record of a category in the map, or a new one. -/
def fetch (reportSummary2Map : Summary2Map) (categoryId : ℤ) : ReportSummary2 :=
  (reportSummary2Map categoryId).getD .new

/-- `bidItem.getCategory()` with its id -/
def categoryOf (bidItem : ReportItem) : Except Exn (ℤ × Option String) :=
  match bidItem.category with
  | none => .error .nullPointer
  | some category =>
    match category.categoryId with
    | none => .error .nullPointer
    | some categoryId => .ok (categoryId, category.categoryName)

/-- What a turn of a pass that counts all rows reads of its item. -/
structure LotRow where
  categoryId : ℤ
  categoryName : Option String
  quantity : ℤ
  deriving DecidableEq

def lotRow (bidItem : ReportItem) : Except Exn LotRow := do
  let (categoryId, categoryName) ← categoryOf bidItem
  let quantity ← bidItem.getTotalQuantity
  .ok ⟨categoryId, categoryName, quantity⟩

/-- What a turn of the pass over the sold lots reads of its item: the quantity and the price of
    one that is sold. -/
structure SaleRow where
  categoryId : ℤ
  sold : Option (ℤ × ℚ)
  deriving DecidableEq

/-- `lotsStatus` is `H1`, `H2` or `H3`. -/
def isSold (lotsStatus : Option BidStatus) : Bool :=
  lotsStatus = some .h1 || lotsStatus = some .h2 || lotsStatus = some .h3

def saleRow (bidItem : ReportItem) : Except Exn SaleRow := do
  let (categoryId, _) ← categoryOf bidItem
  if isSold bidItem.isProcessed then do
    let quantity ← bidItem.getTotalQuantity
    match bidItem.currentMarketPrice with
    | none => .error .nullPointer
    -- the market price, whichever bidder the lot was awarded to
    | some price => .ok ⟨categoryId, some (quantity, price)⟩
  else .ok ⟨categoryId, none⟩

namespace ReportSummary2Dao

/-- The variables of a pass that counts all rows. -/
structure Pass where
  counter : ℕ
  lots : ℤ
  quantity : ℤ
  categoryId : Option ℤ
  reportSummary2Prev : Option ReportSummary2
  reportSummary2Map : Summary2Map

/-- A setter of the number of lots and of their quantity. -/
abbrev Setter := ReportSummary2 → ℤ → ℤ → ReportSummary2

namespace Pass

/-- The row is counted in the running totals, which are set in a record. -/
def count (set : Setter) (s : Pass) (row : LotRow) (record : ReportSummary2) : Pass :=
  { s with
    lots := s.lots + 1
    quantity := s.quantity + row.quantity
    reportSummary2Prev := some (set record (s.lots + 1) (s.quantity + row.quantity)) }

/-- `reportSummary2Map.put(categoryId, reportSummary2Prev)` -/
def put (s : Pass) : Pass :=
  match s.categoryId with
  | none => s
  | some categoryId =>
    { s with
      reportSummary2Map := Function.update s.reportSummary2Map categoryId s.reportSummary2Prev }

/-- The record with the id and the name of the category of a row. -/
def named (row : LotRow) (record : ReportSummary2) : ReportSummary2 :=
  { record with categoryId := some row.categoryId, categoryName := row.categoryName }

/-- One turn of the passes over the unsold lots, up to the test for the last row. -/
def unsoldTurn (set : Setter) (s : Pass) (row : LotRow) : Pass :=
  let s :=
    if s.counter = 0 then
      { s with categoryId := some row.categoryId }.count set row
        (named row (fetch s.reportSummary2Map row.categoryId))
    else s
  let s :=
    if s.counter ≠ 0 ∧ s.categoryId = some row.categoryId then
      s.count set row
        (named row (s.reportSummary2Prev.getD (fetch s.reportSummary2Map row.categoryId)))
    else if s.categoryId ≠ some row.categoryId then
      -- the record of the category before is finished
      let s := s.put
      { s with categoryId := some row.categoryId, lots := 0, quantity := 0 }.count set row
        (named row (fetch s.reportSummary2Map row.categoryId))
    else s
  { s with counter := s.counter + 1 }

/-- One turn of the pass over all lots, which begins a new record for each group and sets its
    name at the first row only. -/
def totalTurn (set : Setter) (s : Pass) (row : LotRow) : Pass :=
  let s :=
    if s.counter = 0 then
      { s with categoryId := some row.categoryId }.count set row
        (named row (s.reportSummary2Prev.getD .new))
    else s
  let s :=
    if s.counter ≠ 0 ∧ s.categoryId = some row.categoryId then
      s.count set row (s.reportSummary2Prev.getD .new)
    else if s.categoryId ≠ some row.categoryId then
      { s.put with categoryId := some row.categoryId, lots := 0, quantity := 0 }.count set row
        -- the record of an earlier group of the same category is replaced
        (named row .new)
    else s
  { s with counter := s.counter + 1 }

/-- A pass over rows: at the last one the record is put into the map. -/
def loop (turn : Pass → LotRow → Pass) (rows : List LotRow) (start : Pass) : Pass :=
  rows.foldl (fun s row =>
    if (turn s row).counter = rows.length then (turn s row).put else turn s row) start

end Pass

/-- The pass over unsold lots, with the fields it sets. -/
def getUnsoldDataSummary2 (set : Setter) (objectsList : List ReportItem)
    (reportSummary2Map : Summary2Map) : Except Exn Summary2Map := do
  let rows ← objectsList.mapM lotRow
  .ok (Pass.loop (Pass.unsoldTurn set) rows
    ⟨0, 0, 0, none, none, reportSummary2Map⟩).reportSummary2Map

/-- `setTotalUnsoldBiddedLots` and `setTotalUnsoldBiddedQuantity` -/
def setUnsoldBidded : Setter := fun record lots quantity =>
  { record with totalUnsoldBiddedLots := some lots, totalUnsoldBiddedQuantity := some quantity }

/-- `setTotalUnsoldUnBiddedLots` and `setTotalUnsoldUnBiddedQuantity` -/
def setUnsoldUnBidded : Setter := fun record lots quantity =>
  { record with
    totalUnsoldUnBiddedLots := some lots
    totalUnsoldUnBiddedQuantity := some quantity }

/-- `setTotalLotsForSale` and `setTotalLotsquantityForSale` -/
def setForSale : Setter := fun record lots quantity =>
  { record with totalLotsForSale := some lots, totalLotsquantityForSale := some quantity }

/-- `getUnsoldBiddedDataSummary2` -/
def getUnsoldBiddedDataSummary2 : List ReportItem → Summary2Map → Except Exn Summary2Map :=
  getUnsoldDataSummary2 setUnsoldBidded

/-- `getUnsoldUnBiddedDataSummary2` -/
def getUnsoldUnBiddedDataSummary2 : List ReportItem → Summary2Map → Except Exn Summary2Map :=
  getUnsoldDataSummary2 setUnsoldUnBidded

/-- `getTotalSalesDataSummary2` -/
def getTotalSalesDataSummary2 (objectsList : List ReportItem) (reportSummary2Map : Summary2Map) :
    Except Exn Summary2Map := do
  let rows ← objectsList.mapM lotRow
  .ok (Pass.loop (Pass.totalTurn setForSale) rows
    ⟨0, 0, 0, none, some .new, reportSummary2Map⟩).reportSummary2Map

/-- The variables of the pass over the sold lots. -/
structure SalePass where
  counter : ℕ
  totalLots : ℤ
  totalLotsQuantity : ℤ
  totalActualSoldAmount : ℚ
  categoryId : Option ℤ
  reportSummary2Prev : Option ReportSummary2
  reportSummary2Map : Summary2Map

/-- The average, if there are an amount and a quantity that are not zero. -/
def setAverage (record : ReportSummary2) : ReportSummary2 :=
  match record.totalActualSoldAmount, record.totalActualSoldQunatity with
  | some actAmt, some actQuan =>
    if actAmt ≠ 0 ∧ actQuan ≠ 0 then { record with avergeAmount := some (actAmt / actQuan) }
    else record
  | _, _ => record

namespace SalePass

/-- A row of a record's category: only a sold one counts. -/
def sell (s : SalePass) (row : SaleRow) (record : ReportSummary2) : SalePass :=
  match row.sold with
  | none => { s with reportSummary2Prev := some record }
  | some (quantity, price) =>
    { s with
      totalLots := s.totalLots + 1
      totalLotsQuantity := s.totalLotsQuantity + quantity
      totalActualSoldAmount := s.totalActualSoldAmount + price
      reportSummary2Prev := some { record with
        categoryId := s.categoryId
        totalActualSoldLots := some (s.totalLots + 1)
        totalActualSoldQunatity := some (s.totalLotsQuantity + quantity)
        totalActualSoldAmount := some (s.totalActualSoldAmount + price) } }

/-- The record is put into the map if it has a category, which a new record without a sold lot
    has not; the totals begin again then. -/
def put (s : SalePass) : SalePass :=
  match s.categoryId, s.reportSummary2Prev with
  | some categoryId, some record =>
    if record.categoryId ≠ none then
      { s with
        totalLots := 0
        totalLotsQuantity := 0
        totalActualSoldAmount := 0
        reportSummary2Map :=
          Function.update s.reportSummary2Map categoryId (some (setAverage record)) }
    else s
  | _, _ => s

/-- One turn of the pass, up to the test for the last row. -/
def turn (s : SalePass) (row : SaleRow) : SalePass :=
  let s :=
    if s.counter = 0 then
      { s with categoryId := some row.categoryId }.sell row
        (fetch s.reportSummary2Map row.categoryId)
    else s
  let s :=
    if s.counter ≠ 0 ∧ s.categoryId = some row.categoryId then
      s.sell row (s.reportSummary2Prev.getD (fetch s.reportSummary2Map row.categoryId))
    else if s.categoryId ≠ some row.categoryId then
      let s := s.put
      { s with categoryId := some row.categoryId }.sell row
        (fetch s.reportSummary2Map row.categoryId)
    else s
  { s with counter := s.counter + 1 }

end SalePass

/-- `getActualSalesDataSummary2`. After the last row the totals are not used any more. -/
def getActualSalesDataSummary2 (objectsList : List ReportItem)
    (reportSummary2Map : Summary2Map) : Except Exn Summary2Map := do
  let rows ← objectsList.mapM saleRow
  .ok (rows.foldl (fun s row =>
    if (SalePass.turn s row).counter = rows.length then (SalePass.turn s row).put
    else SalePass.turn s row)
    ⟨0, 0, 0, 0, none, none, reportSummary2Map⟩).reportSummary2Map

/-- The four passes of `getReportSummary2`, over the results of its queries. -/
def getReportSummary2 (totalSale actualSold unsoldBidded unsoldUnBidded : List ReportItem) :
    Except Exn Summary2Map := do
  let reportSummary2Map ← getTotalSalesDataSummary2 totalSale (fun _ => none)
  let reportSummary2Map ← getActualSalesDataSummary2 actualSold reportSummary2Map
  let reportSummary2Map ← getUnsoldBiddedDataSummary2 unsoldBidded reportSummary2Map
  getUnsoldUnBiddedDataSummary2 unsoldUnBidded reportSummary2Map

end ReportSummary2Dao

/-! ## Totals of the pages -/

/-- `common.form.ReportsTotal` -/
structure ReportsTotal where
  totalQuantity : ℤ
  totalBidAmount1 : ℚ
  totalBidAmount2 : ℚ
  totalBidAmount3 : ℚ
  finalTotalSalesPrice : ℚ
  deriving DecidableEq

/-- `common.dto.TotalReportSummary2` -/
structure TotalReportSummary2 where
  grandTotalLotsForSale : ℤ
  grandTotalLotsquantityForSale : ℤ
  grandTotalActualSoldLots : ℤ
  grandTotalActualSoldQunatity : ℤ
  grandTotalActualSoldAmount : ℚ
  avergeTotalAmount : ℚ
  grandTUnsoldUnBiddedLots : ℤ
  grandTotalUnsoldUnBiddedQuantity : ℤ
  deriving DecidableEq

namespace ReportController

/-- One turn of `getReportsTotal`. -/
def addBids (total : ReportsTotal) (bids : Bids) : Except Exn ReportsTotal := do
  let quantity ← bids.bidItem.getTotalQuantity
  .ok {
    totalQuantity := total.totalQuantity + quantity
    totalBidAmount1 := total.totalBidAmount1 + bids.bidAmount.getD 0
    totalBidAmount2 := total.totalBidAmount2 + bids.bidAmount2.getD 0
    totalBidAmount3 := total.totalBidAmount3 + bids.bidAmount3.getD 0
    finalTotalSalesPrice := total.finalTotalSalesPrice + bids.totalSalesPrice.getD 0 }

/-- `getReportsTotal` -/
def getReportsTotal (bidsList : List Bids) : Except Exn ReportsTotal :=
  bidsList.foldlM addBids ⟨0, 0, 0, 0, 0⟩

/-- One turn of `getReportsSummary2Total`. The totals of the lots without bids are added up from
    the lots with bids. -/
def addReportSummary2 (total : TotalReportSummary2) (reportSummary2 : ReportSummary2) :
    TotalReportSummary2 where
  grandTotalLotsForSale :=
    total.grandTotalLotsForSale + reportSummary2.totalLotsForSale.getD 0
  grandTotalLotsquantityForSale :=
    total.grandTotalLotsquantityForSale + reportSummary2.totalLotsquantityForSale.getD 0
  grandTotalActualSoldLots :=
    total.grandTotalActualSoldLots + reportSummary2.totalActualSoldLots.getD 0
  grandTotalActualSoldQunatity :=
    total.grandTotalActualSoldQunatity + reportSummary2.totalActualSoldQunatity.getD 0
  grandTotalActualSoldAmount :=
    total.grandTotalActualSoldAmount + reportSummary2.totalActualSoldAmount.getD 0
  -- the averages are added up, not weighted
  avergeTotalAmount := total.avergeTotalAmount + reportSummary2.avergeAmount.getD 0
  grandTUnsoldUnBiddedLots :=
    total.grandTUnsoldUnBiddedLots + reportSummary2.totalUnsoldBiddedLots.getD 0
  grandTotalUnsoldUnBiddedQuantity :=
    total.grandTotalUnsoldUnBiddedQuantity + reportSummary2.totalUnsoldBiddedQuantity.getD 0

/-- `getReportsSummary2Total` -/
def getReportsSummary2Total (reportSummary2List : List ReportSummary2) : TotalReportSummary2 :=
  reportSummary2List.foldl addReportSummary2 ⟨0, 0, 0, 0, 0, 0, 0, 0⟩

end ReportController

end Bidding.Model.Reports
