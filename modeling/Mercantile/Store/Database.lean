import Mercantile.Snapshot
import Mercantile.Store.Basic
import Mercantile.Validation

/-!
A store in two tables. One has a single row with the snapshot of the world beside its clock; the other
is the append-only history of trades, each under its own identifier. The columns are signed words, so
counters and identifiers from `2 ^ 63` on do not fit. A commit is one transaction: whatever stops it
leaves both tables as they were. A snapshot is checked whenever it is read.
-/

namespace Mercantile

structure WorldRow where
  currentTick : Int64
  lockVersion : Int64
  lastAdvancedAt : Option Timestamp
  snapshot : Json

structure Database where
  world : Option WorldRow
  trades : List Trade

namespace Database

def empty : Database := ⟨none, []⟩

/-- A word as a column holds it. -/
def column (c : Column) (n : UInt64) : Except StoreError Int64 :=
  match Int64.ofInt? n.toNat with
  | some v => .ok v
  | none => .error (.outOfRange c)

def rowOf (w : World) : Except StoreError WorldRow := do
  let tick ← column .currentTick w.clock.currentTick
  let version ← column .lockVersion w.clock.lockVersion
  return ⟨tick, version, w.clock.lastAdvancedAt, encode w⟩

def checkTrade (t : Trade) : Except StoreError Unit := do
  let _ ← column .tradeId t.id.val
  let _ ← column .tradeTick t.tick
  let _ ← column .tradeRegion t.region.val
  let _ ← column .tradeItem t.item.val
  let _ ← column .tradeQuantity t.quantity
  let _ ← column .tradeBuyer t.buyer.val
  let _ ← column .tradeSeller t.seller.val
  let _ ← column .tradeBuyOrder t.buyOrder.val
  let _ ← column .tradeSellOrder t.sellOrder.val

/-- The history with one more trade, whose identifier has to be new. -/
def appendTrade (ts : List Trade) (t : Trade) : Except StoreError (List Trade) := do
  checkTrade t
  if ts.any (·.id = t.id) then throw .database
  return ts ++ [t]

/-- Stores the first world, with the trades it remembers as the start of the history. -/
def init (db : Database) (w : World) : Except StoreError Database := do
  if db.world.isSome then throw .alreadyInitialized
  let row ← rowOf w
  let trades ← w.trades.foldlM appendTrade db.trades
  return ⟨some row, trades⟩

/-- The stored world, if it is sound enough to be used. -/
def read (db : Database) : Except StoreError World :=
  match db.world with
  | none => .error .uninitialized
  | some row =>
    match decode? (α := World) row.snapshot with
    | none => .error .serialization
    | some w =>
      match w.check with
      | .ok () => .ok w
      | .error e => .error (.invalidSnapshot e)

def versionOf (v : Int64) : Except StoreError UInt64 :=
  if v < 0 then .error (.outOfRange .lockVersion) else .ok (UInt64.ofNat v.toInt.toNat)

/-- Stores `next` and appends `trades`, if the stored lock version is `expected`. -/
def commit (db : Database) (expected : UInt64) (next : World) (trades : List Trade) :
    Except StoreError (CommitOutcome × Database) := do
  let row ← rowOf next
  let version ← column .lockVersion expected
  match db.world with
  | none => throw .uninitialized
  | some old =>
    if old.lockVersion = version then
      return (.committed, ⟨some row, ← trades.foldlM appendTrade db.trades⟩)
    else
      return (.conflict (← versionOf old.lockVersion), db)

instance : WorldStore Database where
  read := read
  compareAndSwap db expected next := db.commit expected next []
  commitBatch db expected batch := db.commit expected batch.next batch.trades

end Database

namespace Coded

instance : Coded WorldRow where
  encode r := .obj [("current_tick", encode r.currentTick), ("lock_version", encode r.lockVersion),
    ("last_advanced_at", encode r.lastAdvancedAt), ("snapshot", r.snapshot)]
  decode? j := do
    let [tick, version, advanced, snapshot] ← j.record?
      ["current_tick", "lock_version", "last_advanced_at", "snapshot"] | none
    return ⟨← needed tick, ← needed version, ← optional advanced, ← snapshot⟩

instance : Coded Database where
  encode db := .obj [("world_state", encode db.world), ("trades", encode db.trades)]
  decode? j := do
    let [world, trades] ← j.record? ["world_state", "trades"] | none
    return ⟨← optional world, ← needed trades⟩

end Coded

end Mercantile
