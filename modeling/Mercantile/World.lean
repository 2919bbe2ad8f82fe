import Mercantile.Inventory
import Mercantile.Roster
import Mercantile.Timestamp

/-!
The world: every entity, the stocks, the clock and the sequence of identifiers, as one value. The rosters
are meant to be in ascending order of identifiers, which `World` itself does not demand: a snapshot is
checked when it is loaded.
-/

namespace Mercantile

/-- Simulated time, and the number of commits by which concurrent writers notice each other. -/
structure Clock where
  currentTick : Tick
  lockVersion : UInt64
  /-- When ticks were last computed, in real time. -/
  lastAdvancedAt : Option Timestamp
deriving DecidableEq

structure World where
  clock : Clock
  regions : Roster Region
  items : Roster Item
  recipes : Roster Recipe
  companies : Roster Company
  buildings : Roster Building
  jobs : Roster Job
  orders : Roster Order
  /-- Recent trades only; the history is with the store. -/
  trades : Roster Trade
  shipments : Roster Shipment
  contracts : Roster Contract
  /-- At most one for a company. -/
  allocations : Roster Allocation
  inventory : Inventory
  /-- Money that pays for contracts without a buyer; no company owns it. -/
  marketPool : Cents
  /-- The last identifier handed out. -/
  nextId : UInt64
deriving DecidableEq

namespace World

def empty : World :=
  { clock := ⟨0, 0, none⟩, regions := [], items := [], recipes := [], companies := [], buildings := [],
    jobs := [], orders := [], trades := [], shipments := [], contracts := [], allocations := [],
    inventory := .empty, marketPool := 0, nextId := 0 }

instance : Inhabited World := ⟨empty⟩

def allocateId (kind : EntityKind) : Action World (Id kind) :=
  .transact fun w => do
    let n ← orOverflow (w.nextId.add? 1) .idSequence
    return (⟨n⟩, { w with nextId := n })

def modifyCompany (w : World) (i : CompanyId) (f : Company → Company) : World :=
  { w with companies := w.companies.modify i f }

def modifyJob (w : World) (i : JobId) (f : Job → Job) : World :=
  { w with jobs := w.jobs.modify i f }

def modifyOrder (w : World) (i : OrderId) (f : Order → Order) : World :=
  { w with orders := w.orders.modify i f }

def modifyShipment (w : World) (i : ShipmentId) (f : Shipment → Shipment) : World :=
  { w with shipments := w.shipments.modify i f }

def modifyContract (w : World) (i : ContractId) (f : Contract → Contract) : World :=
  { w with contracts := w.contracts.modify i f }

def addStock (k : StockKey) (q : Quantity) : Action World Unit :=
  .update fun w => do return { w with inventory := ← w.inventory.add k q }

def removeStock (k : StockKey) (q : Quantity) : Action World Unit :=
  .update fun w => do return { w with inventory := ← w.inventory.remove k q }

def allocationFor? (w : World) (company : CompanyId) : Option Allocation :=
  w.allocations.get? company

/-- Stores an allocation in place of the one the company had. -/
def putAllocation (w : World) (a : Allocation) : World :=
  { w with allocations := w.allocations.put a }

def ordersOf (w : World) (company : CompanyId) : List Order :=
  w.orders.filter (·.company = company)

/-- A trade of the `window` ticks that end with `now`, or of a later tick. -/
def isRecent (now : Tick) (window : UInt64) (t : Trade) : Bool :=
  window ≠ 0 && now.subSat (window - 1) ≤ t.tick

/-- Drops the trades before the `window` ticks that end with `now`. -/
def retainRecentTrades (w : World) (now : Tick) (window : UInt64) : World :=
  { w with trades := w.trades.filter (isRecent now window) }

def openOrderCount (w : World) : Nat := w.orders.countP (·.isOpen)

def botCount (w : World) : Nat := w.companies.countP (·.isBot)

/-- Adds up amounts from the first to the last; there is no sum once one step does not fit. -/
def checkedSum (cs : List Cents) : Option Cents := cs.foldlM Int64.add? 0

def sumCash? (w : World) : Option Cents := checkedSum (w.companies.map (·.cash))

def sumReserved? (w : World) : Option Cents := checkedSum (w.companies.map (·.reserved))

/-- All money that companies hold, the quantity that a tick conserves. -/
def ledgerTotal? (w : World) : Option Cents := do
  (← w.sumCash?).add? (← w.sumReserved?)

/-- Takes the next number of the sequence while a world is set up; the last number is given out again
and again. -/
def nextFree (w : World) : UInt64 := w.nextId.addSat 1

def addRegion (w : World) (name : String) : RegionId × World :=
  let id : RegionId := ⟨w.nextFree⟩
  (id, { w with nextId := w.nextFree, regions := w.regions ++ [⟨id, name⟩] })

def addItem (w : World) (name : String) : ItemId × World :=
  let id : ItemId := ⟨w.nextFree⟩
  (id, { w with nextId := w.nextFree, items := w.items ++ [⟨id, name⟩] })

def addCompany (w : World) (name : String) (cash : Cents) (isBot : Bool) : CompanyId × World :=
  let id : CompanyId := ⟨w.nextFree⟩
  (id, { w with nextId := w.nextFree, companies := w.companies ++ [⟨id, name, cash, 0, isBot⟩] })

def addBuilding (w : World) (company : CompanyId) (region : RegionId) (kind : String)
    (capacity : UInt32) : BuildingId × World :=
  let id : BuildingId := ⟨w.nextFree⟩
  let b : Building := ⟨id, company, region, kind, .active, capacity⟩
  (id, { w with nextId := w.nextFree, buildings := w.buildings ++ [b] })

def addRecipe (w : World) (name buildingKind : String) (inputs : List RecipeInput)
    (outputItem : ItemId) (outputQuantity : Quantity) (workRequired : UInt32) : RecipeId × World :=
  let id : RecipeId := ⟨w.nextFree⟩
  let r : Recipe := ⟨id, name, buildingKind, inputs, outputItem, outputQuantity, workRequired⟩
  (id, { w with nextId := w.nextFree, recipes := w.recipes ++ [r] })

end World

end Mercantile
