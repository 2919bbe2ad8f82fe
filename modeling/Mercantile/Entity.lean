import Mercantile.Id
import Mercantile.Word

/-!
The things of the economy and the states that they pass through. Money is in cents, goods in whole
units, and a thing refers to another by its identifier.
-/

namespace Mercantile

/-- A trading party. Fees may take its cash below zero. -/
structure Company where
  id : CompanyId
  name : String
  cash : Cents
  /-- Cash set aside for open buy orders and for contracts as buyer. -/
  reserved : Cents
  /-- Bots receive cash from outside every tick. -/
  isBot : Bool
deriving DecidableEq

structure Region where
  id : RegionId
  name : String
deriving DecidableEq

structure Item where
  id : ItemId
  name : String
deriving DecidableEq

inductive BuildingStatus
  | active
  | inactive
deriving DecidableEq

structure Building where
  id : BuildingId
  company : CompanyId
  region : RegionId
  /-- Matched against the kind that a recipe asks for. -/
  kind : String
  status : BuildingStatus
  /-- How many unfinished jobs it takes. -/
  capacity : UInt32
deriving DecidableEq

/-- One line of a recipe: units drawn per tick and per unit of the job. -/
structure RecipeInput where
  item : ItemId
  quantity : Quantity
deriving DecidableEq

/-- How inputs become an output. -/
structure Recipe where
  id : RecipeId
  name : String
  buildingKind : String
  inputs : List RecipeInput
  outputItem : ItemId
  outputQuantity : Quantity
  /-- Progress at which a job is complete. -/
  workRequired : UInt32
deriving DecidableEq

inductive JobState
  | queued
  | running
  | blocked
  | completed
  | cancelled
deriving DecidableEq

/-- A batch of a recipe under work in a building. -/
structure Job where
  id : JobId
  company : CompanyId
  building : BuildingId
  region : RegionId
  recipe : RecipeId
  /-- Scales the inputs and the output of the recipe. -/
  quantity : Quantity
  progress : UInt32
  state : JobState
  createdTick : Tick
deriving DecidableEq

inductive OrderSide
  | buy
  | sell
deriving DecidableEq

inductive OrderStatus
  | unfilled
  | partiallyFilled
  | filled
  | cancelled
deriving DecidableEq

/-- A limit order on the market of an item in a region. -/
structure Order where
  id : OrderId
  company : CompanyId
  region : RegionId
  item : ItemId
  side : OrderSide
  /-- Limit per unit. -/
  price : Cents
  quantity : Quantity
  remaining : Quantity
  status : OrderStatus
  createdTick : Tick
deriving DecidableEq

structure Trade where
  id : TradeId
  tick : Tick
  region : RegionId
  item : ItemId
  price : Cents
  quantity : Quantity
  buyer : CompanyId
  seller : CompanyId
  buyOrder : OrderId
  sellOrder : OrderId
deriving DecidableEq

inductive ShipmentStatus
  | inTransit
  | delivered
  | cancelled
deriving DecidableEq

/-- Goods on their way; they left the origin when the shipment was created. -/
structure Shipment where
  id : ShipmentId
  company : CompanyId
  origin : RegionId
  destination : RegionId
  item : ItemId
  quantity : Quantity
  status : ShipmentStatus
  createdTick : Tick
  etaTick : Tick
deriving DecidableEq

inductive ContractStatus
  | unfulfilled
  | partiallyFulfilled
  | fulfilled
  | cancelled
deriving DecidableEq

/-- A standing agreement to deliver. Without a buyer the market pool pays. -/
structure Contract where
  id : ContractId
  seller : CompanyId
  buyer : Option CompanyId
  region : RegionId
  item : ItemId
  quantity : Quantity
  fulfilled : Quantity
  price : Cents
  status : ContractStatus
  createdTick : Tick
deriving DecidableEq

/-- How a company splits its workforce, in percent. -/
structure Allocation where
  company : CompanyId
  operations : UInt8
  research : UInt8
  logistics : UInt8
  corporate : UInt8
deriving DecidableEq

/-- A job that the scheduler still looks at. -/
def JobState.isActive : JobState → Bool
  | .queued | .running | .blocked => true
  | .completed | .cancelled => false

def OrderStatus.isOpen : OrderStatus → Bool
  | .unfilled | .partiallyFilled => true
  | .filled | .cancelled => false

def ContractStatus.isOpen : ContractStatus → Bool
  | .unfulfilled | .partiallyFulfilled => true
  | .fulfilled | .cancelled => false

/-- An order that can still trade. -/
def Order.isOpen (o : Order) : Bool := o.status.isOpen && o.remaining ≠ 0

/-- The status that the remaining quantity implies after a fill. -/
def Order.fillStatus (o : Order) : OrderStatus :=
  if o.remaining = 0 then .filled
  else if o.remaining < o.quantity then .partiallyFilled
  else .unfilled

def Contract.outstanding (c : Contract) : Quantity := c.quantity.subSat c.fulfilled

/-- The split of a company that never chose one. -/
def Allocation.even (company : CompanyId) : Allocation := ⟨company, 25, 25, 25, 25⟩

def Allocation.percentages (a : Allocation) : List UInt8 :=
  [a.operations, a.research, a.logistics, a.corporate]

/-!
The names of the states, as they stand in messages and in snapshots.
-/

def BuildingStatus.name : BuildingStatus → String
  | .active => "Active"
  | .inactive => "Inactive"

def JobState.name : JobState → String
  | .queued => "Queued"
  | .running => "Running"
  | .blocked => "Blocked"
  | .completed => "Completed"
  | .cancelled => "Cancelled"

def OrderSide.name : OrderSide → String
  | .buy => "Buy"
  | .sell => "Sell"

def OrderStatus.name : OrderStatus → String
  | .unfilled => "Open"
  | .partiallyFilled => "PartiallyFilled"
  | .filled => "Filled"
  | .cancelled => "Cancelled"

def ShipmentStatus.name : ShipmentStatus → String
  | .inTransit => "InTransit"
  | .delivered => "Delivered"
  | .cancelled => "Cancelled"

def ContractStatus.name : ContractStatus → String
  | .unfulfilled => "Open"
  | .partiallyFulfilled => "PartiallyFulfilled"
  | .fulfilled => "Fulfilled"
  | .cancelled => "Cancelled"

end Mercantile
