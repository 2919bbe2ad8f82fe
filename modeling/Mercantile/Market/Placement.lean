import Mercantile.Ledger

/-!
Placing and cancelling orders. A buy order sets aside its price times its quantity in cash, a sell order
takes its goods out of the stock, and cancelling gives back what is not traded. `planOrder` is the one
place that decides whether an order is possible; `placeOrder` acts on its answer.
-/

namespace Mercantile

structure OrderRequest where
  company : CompanyId
  region : RegionId
  item : ItemId
  side : OrderSide
  price : Cents
  quantity : Quantity
deriving DecidableEq

/-- The stock that a sell order takes from and a buy order fills. -/
def OrderRequest.stockKey (r : OrderRequest) : StockKey := ⟨r.company, r.region, r.item⟩

def Order.stockKey (o : Order) : StockKey := ⟨o.company, o.region, o.item⟩

/-- What placing an order would take, and what there is. -/
structure OrderPlan where
  side : OrderSide
  /-- Cash to set aside, for a buy order. -/
  reserve : Cents
  /-- Goods to take out of the stock, for a sell order. -/
  escrow : Quantity
  availableCash : Cents
  availableQuantity : Quantity
deriving DecidableEq

/-- Whether an order could be placed. -/
def planOrder (w : World) (r : OrderRequest) : Except Failure OrderPlan := do
  if r.price ≤ 0 then throw (.invalidRequest (.orderPrice r.price))
  if r.quantity = 0 then throw (.invalidRequest .orderQuantity)
  let company ← w.companies.require r.company
  let _ ← w.regions.require r.region
  let _ ← w.items.require r.item
  let available := w.inventory.quantity r.stockKey
  let total ← notional r.price r.quantity
  match r.side with
  | .buy =>
    if company.cash < total then throw (.insufficientFunds r.company total company.cash)
    return ⟨.buy, total, 0, company.cash, available⟩
  | .sell =>
    if available < r.quantity then
      throw (.insufficientInventory r.company r.region r.item r.quantity available)
    return ⟨.sell, 0, r.quantity, company.cash, available⟩

def backOrder (r : OrderRequest) (plan : OrderPlan) : Action World Unit :=
  match r.side with
  | .buy => Ledger.reserve r.company plan.reserve
  | .sell => World.removeStock r.stockKey plan.escrow

def placeOrder (r : OrderRequest) : Action World OrderId := do
  let plan ← Action.observe (planOrder · r)
  backOrder r plan
  let id ← World.allocateId .order
  modify fun w =>
    let o : Order := ⟨id, r.company, r.region, r.item, r.side, r.price, r.quantity, r.quantity,
      .unfilled, w.clock.currentTick⟩
    { w with orders := w.orders ++ [o] }
  return id

def cancellableOrder (w : World) (id : OrderId) : Except Failure Order := do
  let o ← w.orders.require id
  if !o.status.isOpen then throw (.invalidState (.cancelOrder id o.status))
  return o

/-- Gives back what the untraded part of an order holds. -/
def releaseOrder (o : Order) : Action World Unit :=
  match o.side with
  | .buy => do
    let amount ← notional o.price o.remaining
    Ledger.release o.company amount
  | .sell => World.addStock o.stockKey o.remaining

def cancelOrder (id : OrderId) : Action World Unit := do
  let o ← Action.observe (cancellableOrder · id)
  releaseOrder o
  modify fun w => w.modifyOrder id fun o => { o with status := .cancelled }

end Mercantile
