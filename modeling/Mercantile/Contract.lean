import Mercantile.Ledger

/-!
Standing contracts. A contract with a buyer sets aside its whole value when it is made, and every
delivery is paid from that; one without a buyer is paid from the market pool, which lies outside the
companies' ledgers. Once a tick each open contract delivers what it can.
-/

namespace Mercantile

structure ContractRequest where
  seller : CompanyId
  /-- Who pays; the market pool if there is nobody. -/
  buyer : Option CompanyId
  region : RegionId
  item : ItemId
  quantity : Quantity
  price : Cents
deriving DecidableEq

/-- Whether a contract could be made, and what its buyer would have to set aside. -/
def planContract (w : World) (r : ContractRequest) : Except Failure Cents := do
  if r.price ≤ 0 ∨ r.quantity = 0 then throw (.invalidRequest .contractTerms)
  if r.buyer = some r.seller then throw (.invalidRequest .contractParties)
  let _ ← w.companies.require r.seller
  let _ ← w.regions.require r.region
  let _ ← w.items.require r.item
  let total ← notional r.price r.quantity
  match r.buyer with
  | some buyer =>
    let b ← w.companies.require buyer
    if b.cash < total then throw (.insufficientFunds buyer total b.cash)
    return total
  | none => return 0

def backContract (r : ContractRequest) (amount : Cents) : Action World Unit :=
  match r.buyer with
  | some buyer => Ledger.reserve buyer amount
  | none => pure ()

def createContract (r : ContractRequest) : Action World ContractId := do
  let amount ← Action.observe (planContract · r)
  backContract r amount
  let id ← World.allocateId .contract
  modify fun w =>
    let c : Contract := ⟨id, r.seller, r.buyer, r.region, r.item, r.quantity, 0, r.price,
      .unfulfilled, w.clock.currentTick⟩
    { w with contracts := w.contracts ++ [c] }
  return id

def cancellableContract (w : World) (id : ContractId) : Except Failure Contract := do
  let c ← w.contracts.require id
  if !c.status.isOpen then throw (.invalidState (.cancelContract id c.status))
  return c

/-- Gives back what the undelivered part of a contract holds. -/
def releaseContract (c : Contract) : Action World Unit :=
  match c.buyer with
  | some buyer => do
    let amount ← notional c.price c.outstanding
    Ledger.release buyer amount
  | none => pure ()

def cancelContract (id : ContractId) : Action World Unit := do
  let c ← Action.observe (cancellableContract · id)
  releaseContract c
  modify fun w => w.modifyContract id fun c => { c with status := .cancelled }

structure ContractDelivery where
  contract : ContractId
  tick : Tick
  quantity : Quantity
  value : Cents
deriving DecidableEq

def Contract.sellerStock (c : Contract) : StockKey := ⟨c.seller, c.region, c.item⟩

/-- How many units the market pool can pay for; there is no answer at a price of zero. -/
def affordable (pool price : Cents) : Except Failure Quantity :=
  if price = 0 then .error .undefined
  else .ok ((UInt64.ofNat? (Int.toNat (max pool.toInt 0 / price.toInt))).getD 0)

def deliverable (w : World) (c : Contract) : Except Failure Quantity := do
  let quantity := min c.outstanding (w.inventory.quantity c.sellerStock)
  match c.buyer with
  | some _ => return quantity
  | none => return min quantity (← affordable w.marketPool c.price)

def payFromPool (c : Contract) (value : Cents) : Action Account Unit := do
  Account.onWorld do
    modify fun w => { w with marketPool := w.marketPool - value }
    Ledger.changeCash c.seller (·.add? value) .sellerCash
  Account.onFlows (CashFlows.recordInflow value)

/-- Pays for a delivery and brings the goods to the buyer, if there is one. -/
def payDelivery (c : Contract) (quantity : Quantity) (value : Cents) : Action Account Unit :=
  match c.buyer with
  | some buyer => Account.onWorld do
    let _ ← Ledger.settle buyer c.seller c.price c.price quantity
    World.addStock ⟨buyer, c.region, c.item⟩ quantity
  | none => payFromPool c value

def Contract.deliver (c : Contract) (quantity : Quantity) : Contract :=
  let c := { c with fulfilled := c.fulfilled + quantity }
  { c with status := if c.outstanding = 0 then .fulfilled else .partiallyFulfilled }

/-- Delivers what one contract can deliver, if that is anything. -/
def settleContract (tick : Tick) (id : ContractId) : Action Account (Option ContractDelivery) := do
  let w := (← get).world
  let c ← w.contracts.require id
  let quantity ← deliverable w c
  if quantity = 0 then return none
  let value ← notional c.price quantity
  Account.onWorld (World.removeStock c.sellerStock quantity)
  payDelivery c quantity value
  Account.onWorld (modify fun w => w.modifyContract id (·.deliver quantity))
  return some ⟨id, tick, quantity, value⟩

def World.openContracts (w : World) : List ContractId :=
  (w.contracts.filter (·.status.isOpen)).map (·.id)

def settleContracts (tick : Tick) : Action Account (List ContractDelivery) := do
  let ids := (← get).world.openContracts
  let deliveries ← ids.mapM (settleContract tick)
  return deliveries.filterMap id

end Mercantile
