import Mercantile.Ledger
import Mercantile.Workforce

/-!
Shipments between regions. The goods leave the origin when a shipment is created and reach the
destination in the first tick that is not before its time of arrival. Delivery costs a fee by the unit,
divided by the company's logistics multiplier, which leaves the companies' ledgers.
-/

namespace Mercantile

structure ShipmentRequest where
  company : CompanyId
  origin : RegionId
  destination : RegionId
  item : ItemId
  quantity : Quantity
  transit : Tick
deriving DecidableEq

def ShipmentRequest.stockKey (r : ShipmentRequest) : StockKey := ⟨r.company, r.origin, r.item⟩

/-- Whether a shipment could leave, and when it would arrive. -/
def planShipment (w : World) (r : ShipmentRequest) (cfg : LogisticsConfig) : Except Failure Tick := do
  if r.quantity = 0 then throw (.invalidRequest .shipmentQuantity)
  if r.origin = r.destination then throw (.invalidRequest .shipmentRoute)
  let least := max cfg.minTransitTicks 1
  if r.transit < least then throw (.invalidRequest (.transitTooShort least r.transit))
  let _ ← w.companies.require r.company
  let _ ← w.regions.require r.origin
  let _ ← w.regions.require r.destination
  let _ ← w.items.require r.item
  let available := w.inventory.quantity r.stockKey
  if available < r.quantity then
    throw (.insufficientInventory r.company r.origin r.item r.quantity available)
  orOverflow (w.clock.currentTick.add? r.transit) .shipmentEta

def createShipment (r : ShipmentRequest) (cfg : LogisticsConfig) : Action World ShipmentId := do
  let eta ← Action.observe (planShipment · r cfg)
  World.removeStock r.stockKey r.quantity
  let id ← World.allocateId .shipment
  modify fun w =>
    let s : Shipment := ⟨id, r.company, r.origin, r.destination, r.item, r.quantity, .inTransit,
      w.clock.currentTick, eta⟩
    { w with shipments := w.shipments ++ [s] }
  return id

def cancellableShipment (w : World) (id : ShipmentId) : Except Failure Shipment := do
  let s ← w.shipments.require id
  if s.status ≠ .inTransit then throw (.invalidState (.cancelShipment id s.status))
  return s

/-- Cancels a shipment on its way; its goods are back at the origin at once. -/
def cancelShipment (id : ShipmentId) : Action World Unit := do
  let s ← Action.observe (cancellableShipment · id)
  World.addStock ⟨s.company, s.origin, s.item⟩ s.quantity
  modify fun w => w.modifyShipment id fun s => { s with status := .cancelled }

/-- The fee for a delivery, rounded down to a cent. -/
def deliveryFee (cfg : LogisticsConfig) (quantity : Quantity) (logistics : Decimal) :
    Except Failure Cents :=
  orOverflow (do
    let gross ← Decimal.mul? cfg.feePerUnit.toInt quantity.toNat
    let fee ← Decimal.div? gross logistics
    Int64.ofInt? fee.floor) .deliveryFee

def Shipment.isDue (tick : Tick) (s : Shipment) : Bool := s.status = .inTransit && s.etaTick ≤ tick

/-- Delivers one shipment and charges its fee, if there is one. -/
def deliverShipment (multipliers : MultiplierTable) (cfg : LogisticsConfig) (s : Shipment) :
    Action Account ShipmentId := do
  Account.onWorld (World.addStock ⟨s.company, s.destination, s.item⟩ s.quantity)
  let fee ← deliveryFee cfg s.quantity (multipliers.of s.company).logistics
  if 0 < fee then Ledger.charge s.company fee
  Account.onWorld (modify fun w => w.modifyShipment s.id fun s => { s with status := .delivered })
  return s.id

def advanceShipments (tick : Tick) (multipliers : MultiplierTable) (cfg : LogisticsConfig) :
    Action Account (List ShipmentId) := do
  let due := (← get).world.shipments.filter (·.isDue tick)
  due.mapM (deliverShipment multipliers cfg)

end Mercantile
