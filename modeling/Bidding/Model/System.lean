import Bidding.Effects.Faults
import Bidding.Model.CommonDao

/-!
# The System

Everything the modelled Java code can reach: the cache server, the tables, the clock, the
fields of the one `BidItemsCacheService` object, the timers it has started, the bidding
engine and its on/off switch. A method is an `Act`: a program over `Cmd` that may throw.

## Architecture

- **`Cmd`** / **`Answer`**: the calls that leave a method, and their results. A connection
  to the cache and a cache command may answer with an exception.
- **`World`**: what these calls read and change.
- **`Env`**: what the code does not control: the clock, the server's own choices, and the
  bidding engine, which is a compiled library.
- **`handle`**: the semantics in which no call to the cache or the database fails.
- **`redisFault`**: which calls can fail, and how, in the semantics with one fault.
-/

namespace Bidding.Model

open Bidding.Effects

/-- The cache. -/
abbrev Redis := KeyValue.Store Key Attr Text

/-- A cache command. -/
abbrev RedisCmd := KeyValue.Command Key Attr Text

/-- A bid handed to the bidding engine. -/
structure BidCall where
  bidderName : String
  auctionId : Option ℤ
  bidItemId : ℤ
  bidAmount : ℚ
  currency : Option String
  statusCode : Option String
  bidType : ℤ
  comments : String
  autoBidAmount : ℚ
  deriving DecidableEq

/-! ## Calls -/

/-- The methods of the data-access object. -/
inductive DaoCall where
  | getBidItem (bidItemId : ℤ)
  | updateBidItem (bidItem : Option BidItem)
  | flush (bidItem : BidItem)
  | getActualAuctionStartTime (auctionId : ℤ)
  | setActualAuctionStartTime (auctionId : ℤ) (actualAuctionStartTime : Date)
  | setAuctionEndTime (auctionId : ℤ) (auctionEndTime : Date)
  | closeAuction (auctionId : ℤ)
  | isValidAuction (auctionId : ℤ)
  | getCurrentBidSequence (auctionId : ℤ)
  | queryCategories
  | getCategoryList (userName : String) (auctionId : ℤ)
  | getMaxBidId
  | getMaxAutoBidId
  /-- the tables at the begin of a transaction -/
  | begin
  /-- the end of a transaction that failed -/
  | rollback (saved : Db)

/-- What a method of the data-access object returns. -/
def DaoCall.Result : DaoCall → Type
  | .getBidItem _ => Except Exn BidItem
  | .updateBidItem _ => Except Exn Unit
  | .getActualAuctionStartTime _ => Option Date
  | .isValidAuction _ => Except Exn Bool
  | .getCurrentBidSequence _ => List BidSequence
  | .queryCategories => List Category
  | .getCategoryList _ _ => List BidderCategory
  | .getMaxBidId | .getMaxAutoBidId => ℤ
  | .begin => Db
  | .flush _ | .setActualAuctionStartTime _ _ | .setAuctionEndTime _ _ | .closeAuction _
  | .rollback _ => Unit

/-- Reads and writes of the fields of `BidItemsCacheService`. -/
inductive FieldCall where
  | getStartFlag
  | setStartFlag (startFlag : Bool)
  | getAuctionId
  | setAuctionId (auctionId : ℤ)
  | getAuctionStartTime
  | setAuctionStartTime (auctionStartTime : Date)

/-- What a field access returns. -/
def FieldCall.Result : FieldCall → Type
  | .getStartFlag => Bool
  | .getAuctionId => ℤ
  | .getAuctionStartTime => Option Date
  | .setStartFlag _ | .setAuctionId _ | .setAuctionStartTime _ => Unit

/-- A connection of the pool. -/
abbrev Connection := ℕ

/-- The calls that leave a method. -/
inductive Cmd where
  /-- `redis.connect()` -/
  | connect
  /-- `redis.close(jedis)`, where `jedis` is `null` unless connected -/
  | close (jedis : Option Connection)
  /-- a command on the connection -/
  | redis (command : RedisCmd)
  /-- `new Date()`, `Calendar.getInstance()`, `System.currentTimeMillis()` -/
  | now
  | dao (call : DaoCall)
  | field (call : FieldCall)
  /-- `new BidItemScheduler()` and `scheduler.start(startTime)` -/
  | startTimer (startTime : Date)
  /-- `KilimEngineGenerator.getAuctioneer().stopAuction()` -/
  | stopAuction
  /-- `KilimEngineGenerator.getAuctioneer().restart()` -/
  | restart
  /-- `BidderFactory.create().call(bid)` -/
  | engineBid (bid : BidCall)

/-- What a call returns. -/
def Answer : Cmd → Type
  | .connect => Except Exn Connection
  | .redis c => Except Exn (KeyValue.Reply c)
  | .now => Date
  | .dao c => c.Result
  | .field c => c.Result
  | .close _ | .startTimer _ | .stopAuction | .restart | .engineBid _ => Unit

/-- A method. -/
abbrev Act (α : Type) := Action Cmd Answer Exn α

/-! ## State and environment -/

/-- What the calls read and change. -/
structure World where
  redis : Redis
  db : Db
  /-- `BidItemsCacheService.startFlag` -/
  startFlag : Bool
  /-- `BidItemsCacheService.auctionId` -/
  auctionId : ℤ
  /-- `BidItemsCacheService.auctionStartTime` -/
  auctionStartTime : Option Date
  /-- start times of the timers, in the order in which they were started -/
  timers : List Date
  /-- whether the bidding engine takes bids -/
  auctioneer : Bool
  /-- number of clock readings so far -/
  reads : ℕ
  /-- the auctions for which `setAuctionEndTime` was executed, latest first -/
  endTimesSet : List ℤ

/-- What the code does not control. -/
structure Env where
  /-- the `n`-th clock reading -/
  clock : ℕ → Date
  clock_mono : ∀ ⦃m n⦄, m ≤ n → clock m ≤ clock n
  /-- the choices of the cache server -/
  order : KeyValue.ServerOrder Text
  /-- what the engine, switched on or off, does to the cache for a bid at some time -/
  engine : Bool → BidCall → Date → Redis → Redis

/-- An environment with a given clock, a plain server and an engine that does nothing. -/
def Env.idle (clock : ℕ → Date) (clock_mono : ∀ ⦃m n⦄, m ≤ n → clock m ≤ clock n) : Env where
  clock := clock
  clock_mono := clock_mono
  order := KeyValue.ServerOrder.plain
  engine _ _ _ r := r

/-- Such an environment whose clock stands still. -/
def Env.still (d : Date) : Env := Env.idle (fun _ => d) (fun _ _ _ => Int.le_refl d)

/-- The world when the application has started: an empty cache and no auction loaded. -/
def World.initial (db : Db) : World where
  redis := KeyValue.Store.empty
  db := db
  startFlag := true
  auctionId := 0
  auctionStartTime := none
  timers := []
  auctioneer := true
  reads := 0
  endTimesSet := []

/-! ## Semantics without failures -/

/-- The `n`-th clock reading after the present one. -/
def Env.times (env : Env) (w : World) (n : ℕ) : Date := env.clock (w.reads + n)

/-- Answer a call to the data-access object. -/
def handleDao (env : Env) : (c : DaoCall) → World → c.Result × World
  | .getBidItem id, w =>
    match CommonDao.getBidItem (env.times w) w.db id with
    | .ok (item, db) =>
      -- the resolution of the auto-bids reads the clock and writes the item and a bid
      (.ok item, { w with db, reads := w.reads + CommonDao.clockReads w.db id })
    | .error e => (.error e, w)
  | .updateBidItem item, w =>
    match CommonDao.updateBidItem w.db item with
    | .ok db => (.ok (), { w with db })
    | .error e => (.error e, w)
  | .flush item, w =>
    match item.bidItemId with
    | some id => ((), { w with db := CommonDao.flush w.db id item })
    -- an item without an id is not managed
    | none => ((), w)
  | .getActualAuctionStartTime id, w => (CommonDao.getActualAuctionStartTime w.db id, w)
  | .setActualAuctionStartTime id d, w =>
    ((), { w with
      db := CommonDao.setActualAuctionStartTime w.db id d (env.times w 0)
      reads := w.reads + 1 })
  | .setAuctionEndTime id d, w =>
    ((), { w with
      db := CommonDao.setAuctionEndTime w.db id d (env.times w 0)
      reads := w.reads + 1
      endTimesSet := id :: w.endTimesSet })
  | .closeAuction id, w =>
    ((), { w with
      db := CommonDao.closeAuction w.db id (env.times w 0) (env.times w 1)
      reads := w.reads + 2 })
  | .isValidAuction id, w => (CommonDao.isValidAuction w.db id, w)
  | .getCurrentBidSequence id, w => (CommonDao.getCurrentBidSequence w.db id, w)
  | .queryCategories, w => (w.db.categories, w)
  | .getCategoryList name id, w => (CommonDao.getCategoryList w.db name id, w)
  | .getMaxBidId, w => (CommonDao.getMaxBidId w.db, w)
  | .getMaxAutoBidId, w => (CommonDao.getMaxAutoBidId w.db, w)
  | .begin, w => (w.db, w)
  | .rollback saved, w => ((), { w with db := saved })

/-- Answer a field access. -/
def handleField : (c : FieldCall) → World → c.Result × World
  | .getStartFlag, w => (w.startFlag, w)
  | .setStartFlag b, w => ((), { w with startFlag := b })
  | .getAuctionId, w => (w.auctionId, w)
  | .setAuctionId id, w => ((), { w with auctionId := id })
  | .getAuctionStartTime, w => (w.auctionStartTime, w)
  | .setAuctionStartTime d, w => ((), { w with auctionStartTime := some d })

/-- Answer a call; no call to the cache or the database fails, and which connection of the pool
    is leased makes no difference. -/
def handle (env : Env) : Handler Cmd Answer World
  | .connect, w => (.ok 0, w)
  | .close _, w => ((), w)
  | .redis c, w =>
    let out := KeyValue.exec env.order c w.redis
    (.ok out.1, { w with redis := out.2 })
  | .now, w => (env.times w 0, { w with reads := w.reads + 1 })
  | .dao c, w => handleDao env c w
  | .field c, w => handleField c w
  | .startTimer d, w => ((), { w with timers := w.timers ++ [d] })
  | .stopAuction, w => ((), { w with auctioneer := false })
  | .restart, w => ((), { w with auctioneer := true })
  | .engineBid bid, w =>
    ((), { w with
      -- what the engine does to the cache is a parameter of the model
      redis := env.engine w.auctioneer bid (env.times w 0) w.redis
      reads := w.reads + 1 })

/-- The calls that can fail in the semantics with one fault: a connection and a cache
    command. A failing command has no effect. -/
def redisFault : (c : Cmd) → Option (Answer c)
  | .connect => some (.error .jedis)
  | .redis _ => some (.error .jedis)
  | .close _ | .now | .dao _ | .field _ | .startTimer _ | .stopAuction | .restart
  | .engineBid _ => none

/-! ## The calls as methods -/

/-- `new Date()` -/
def now : Act Date := Action.perform .now .ok

/-- `redis.connect()` -/
def connect : Act Connection := Action.perform .connect id

/-- `redis.close(jedis)` -/
def close (jedis : Option Connection) : Act Unit := Action.perform (.close jedis) .ok

/-- A command on the connection. -/
def redis (c : RedisCmd) : Act (KeyValue.Reply c) := Action.perform (.redis c) id

/-- A call to the data-access object that returns normally. -/
def dao (c : DaoCall) : Act c.Result := Action.perform (.dao c) .ok

/-- A field access. -/
def field (c : FieldCall) : Act c.Result := Action.perform (.field c) .ok

namespace Dao

/-- `commonDao.getBidItem` -/
def getBidItem (bidItemId : ℤ) : Act BidItem :=
  Action.perform (.dao (.getBidItem bidItemId)) (fun (r : Except Exn BidItem) => r)

/-- `commonDao.updateBidItem` -/
def updateBidItem (bidItem : Option BidItem) : Act Unit :=
  Action.perform (.dao (.updateBidItem bidItem)) (fun (r : Except Exn Unit) => r)

/-- `commonDao.isValidAuction` -/
def isValidAuction (auctionId : ℤ) : Act Bool :=
  Action.perform (.dao (.isValidAuction auctionId)) (fun (r : Except Exn Bool) => r)

/-- The commit of a transaction with a managed item. -/
def flush (bidItem : BidItem) : Act Unit := dao (.flush bidItem)

/-- `commonDao.getActualAuctionStartTime` -/
def getActualAuctionStartTime (auctionId : ℤ) : Act (Option Date) :=
  dao (.getActualAuctionStartTime auctionId)

/-- `commonDao.setActualAuctionStartTime` -/
def setActualAuctionStartTime (auctionId : ℤ) (startTime : Date) : Act Unit :=
  dao (.setActualAuctionStartTime auctionId startTime)

/-- `commonDao.setAuctionEndTime` -/
def setAuctionEndTime (auctionId : ℤ) (endTime : Date) : Act Unit :=
  dao (.setAuctionEndTime auctionId endTime)

/-- `commonDao.closeAuction` -/
def closeAuction (auctionId : ℤ) : Act Unit := dao (.closeAuction auctionId)

/-- `commonDao.getCurrentBidSequence` -/
def getCurrentBidSequence (auctionId : ℤ) : Act (List BidSequence) :=
  dao (.getCurrentBidSequence auctionId)

/-- The query of `commonDao.getCategoryList`. -/
def queryCategories : Act (List Category) := dao .queryCategories

/-- `commonDao.getCategoryList(userName, auctionId)` -/
def getCategoryList (userName : String) (auctionId : ℤ) : Act (List BidderCategory) :=
  dao (.getCategoryList userName auctionId)

/-- `commonDao.getMaxBidId` -/
def getMaxBidId : Act ℤ := dao .getMaxBidId

/-- `commonDao.getMaxAutoBidId` -/
def getMaxAutoBidId : Act ℤ := dao .getMaxAutoBidId

end Dao

namespace Field

/-- The field `startFlag`. -/
def getStartFlag : Act Bool := field .getStartFlag

/-- `startFlag = b;` -/
def setStartFlag (b : Bool) : Act Unit := field (.setStartFlag b)

/-- The field `auctionId`. -/
def getAuctionId : Act ℤ := field .getAuctionId

/-- `setAuctionId` of the service. -/
def setAuctionId (auctionId : ℤ) : Act Unit := field (.setAuctionId auctionId)

/-- The field `auctionStartTime`. -/
def getAuctionStartTime : Act (Option Date) := field .getAuctionStartTime

/-- `setAuctionStartTime` of the service. -/
def setAuctionStartTime (d : Date) : Act Unit := field (.setAuctionStartTime d)

end Field

/-- The frame of most methods on the cache: connect and run `body` in a `try` block whose
    `catch` only logs, close the connection, and return `onFailure` if something threw. -/
def guarded {α : Type} (onFailure : α) (body : Act α) : Act α := do
  match ← Action.attempt connect with
  | .error _ => do
    -- `finally` runs without a connection as well
    close none
    pure onFailure
  | .ok jedis =>
    match ← Action.attempt body with
    | .error _ => do
      close (some jedis)
      pure onFailure
    | .ok a => do
      close (some jedis)
      pure a

/-- `guarded` for a method that returns from inside its `try` block: a normal return does
    not close the connection. -/
def unclosed {α : Type} (onFailure : α) (body : Act α) : Act α := do
  match ← Action.attempt connect with
  | .error _ => do
    close none
    pure onFailure
  | .ok jedis =>
    match ← Action.attempt body with
    | .error _ => do
      close (some jedis)
      pure onFailure
    | .ok a => pure a

/-- `@Transactional`: an exception undoes the database changes on its way out. -/
def transactional {α : Type} (body : Act α) : Act α := do
  let saved : Db ← dao .begin
  match ← Action.attempt body with
  | .ok a => pure a
  | .error e => do
    -- the cache is not part of the transaction
    let _ ← dao (.rollback saved)
    Action.throw e

end Bidding.Model
