import Mercantile.World

/-!
How cash moves. A transfer between companies leaves the sum of cash and reserved cash as it is; money
enters or leaves only through `credit` and `charge`, which record it. Every helper finds out whether it
can do its work before it changes a company.
-/

namespace Mercantile

/-- The worth of some units at a price. -/
def notional (price : Cents) (quantity : Quantity) : Except Failure Cents := do
  let q ← orOverflow (Int64.ofInt? quantity.toNat) .notionalQuantity
  orOverflow (price.mul? q) .notionalValue

/-- Money that came into or went out of the companies' ledgers. -/
structure CashFlows where
  inflow : Cents
  outflow : Cents
deriving DecidableEq

namespace CashFlows

def zero : CashFlows := ⟨0, 0⟩

def recordInflow (amount : Cents) : Action CashFlows Unit :=
  .update fun f => do return { f with inflow := ← orOverflow (f.inflow.add? amount) .exogenousInflow }

def recordOutflow (amount : Cents) : Action CashFlows Unit :=
  .update fun f => do return { f with outflow := ← orOverflow (f.outflow.add? amount) .exogenousOutflow }

def net? (f : CashFlows) : Option Cents := f.inflow.sub? f.outflow

def merge (other : CashFlows) : Action CashFlows Unit := do
  recordInflow other.inflow
  recordOutflow other.outflow

end CashFlows

/-- A world together with the account of what flows in and out of its ledgers. -/
structure Account where
  world : World
  flows : CashFlows
deriving DecidableEq

namespace Account

def onWorld {α : Type} (x : Action World α) : Action Account α :=
  x.zoom (·.world) fun w s => { s with world := w }

def onFlows {α : Type} (x : Action CashFlows α) : Action Account α :=
  x.zoom (·.flows) fun f s => { s with flows := f }

end Account

namespace Ledger

/-- Sets aside `amount` of a company's cash. -/
def reserve (company : CompanyId) (amount : Cents) : Action World Unit :=
  .update fun w => do
    let c ← w.companies.require company
    if amount < 0 then throw (.invalidRequest .negativeReservation)
    if c.cash < amount then throw (.insufficientFunds company amount c.cash)
    let reserved ← orOverflow (c.reserved.add? amount) .reservedCash
    return w.modifyCompany company fun c => { c with cash := c.cash - amount, reserved }

/-- Returns `amount` of a company's reserved cash to its cash. -/
def release (company : CompanyId) (amount : Cents) : Action World Unit :=
  .update fun w => do
    let c ← w.companies.require company
    if amount < 0 ∨ c.reserved < amount then throw (.insufficientFunds company amount c.reserved)
    let cash ← orOverflow (c.cash.add? amount) .cash
    return w.modifyCompany company fun c => { c with cash, reserved := c.reserved - amount }

/-- What one settlement moved. -/
structure Settlement where
  /-- Taken from the buyer's reserved cash. -/
  debited : Cents
  /-- The part of it that goes back to the buyer's cash. -/
  refunded : Cents
  /-- The part of it that the seller receives. -/
  paid : Cents
deriving DecidableEq

/-- Pays for units that were reserved at one price and executed at another, not higher one. A company
that trades with itself gets the refund and the payment. The refund and what stays reserved are formed
by unchecked subtractions, which have no result where it is no amount. -/
def settle (buyer seller : CompanyId) (reservedPrice price : Cents) (quantity : Quantity) :
    Action World Settlement :=
  .transact fun w => do
    if reservedPrice < price then
      throw (.invalidRequest (.executionAboveReserved price reservedPrice))
    let debited ← notional reservedPrice quantity
    let paid ← notional price quantity
    let refunded ← orFail (debited.sub? paid) .undefined
    let b ← w.companies.require buyer
    if b.reserved < debited then throw (.insufficientFunds buyer debited b.reserved)
    let buyerCash ← orOverflow (b.cash.add? refunded) .buyerCash
    let sellerBase ←
      if seller = buyer then pure buyerCash else (·.cash) <$> w.companies.require seller
    let sellerCash ← orOverflow (sellerBase.add? paid) .sellerCash
    let reserved ← orFail (b.reserved.sub? debited) .undefined
    let w := w.modifyCompany buyer fun c => { c with cash := buyerCash, reserved }
    let w := w.modifyCompany seller fun c => { c with cash := sellerCash }
    return (⟨debited, refunded, paid⟩, w)

/-- Changes the cash of a company by what `f` makes of it. -/
def changeCash (company : CompanyId) (f : Cents → Option Cents) (figure : Figure) :
    Action World Unit :=
  .update fun w => do
    let c ← w.companies.require company
    let cash ← orOverflow (f c.cash) figure
    return w.modifyCompany company fun c => { c with cash }

/-- Gives a company money from outside. -/
def credit (company : CompanyId) (amount : Cents) : Action Account Unit := do
  Account.onWorld (changeCash company (·.add? amount) .cash)
  Account.onFlows (CashFlows.recordInflow amount)

/-- Takes a fee, which leaves the ledgers; the company's cash may go below zero. -/
def charge (company : CompanyId) (amount : Cents) : Action Account Unit := do
  Account.onWorld (changeCash company (·.sub? amount) .cash)
  Account.onFlows (CashFlows.recordOutflow amount)

end Ledger

end Mercantile
