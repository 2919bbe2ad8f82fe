import Mercantile.Contract
import Mercantile.Market.Clearing
import Mercantile.Production
import Mercantile.Shipment

/-!
One tick. Its phases run in a fixed order, and each sees what the one before it left: liquidity for bots,
clearing of the markets, production, arrival of shipments, delivery of contracts. The report compares the
money that companies hold before and after with the flows in between.
-/

namespace Mercantile

structure TickReport where
  tick : Tick
  trades : Nat
  jobsAdvanced : Nat
  jobsBlocked : Nat
  jobsCompleted : Nat
  shipmentsDelivered : Nat
  contractsSettled : Nat
  flows : CashFlows
  /-- By how much the money that companies hold differs from what it should be after the flows. -/
  drift : Cents
deriving DecidableEq

/-- Gives every bot its cash for the tick. -/
def supplyBots (cfg : BotConfig) : Action Account Unit := do
  if 0 < cfg.liquidityPerTick then
    let bots := ((← get).world.companies.filter (·.isBot)).map (·.id)
    bots.forM fun bot => Ledger.credit bot cfg.liquidityPerTick

structure TickOutcome where
  trades : List Trade
  production : ProductionSummary
  delivered : List ShipmentId
  deliveries : List ContractDelivery
deriving DecidableEq

/-- The phases of a tick, in order. Multipliers are those of its beginning. -/
def runPhases (tick : Tick) (cfg : EngineConfig) : Action Account TickOutcome := do
  supplyBots cfg.bots
  let multipliers := companyMultipliers (← get).world cfg.workforce
  let trades ← Account.onWorld (clearMarkets tick)
  Account.onWorld (modify fun w => w.retainRecentTrades tick cfg.health.tradesWindowTicks)
  let production ← Account.onWorld (runProduction multipliers cfg.production)
  let delivered ← advanceShipments tick multipliers cfg.logistics
  let deliveries ← settleContracts tick
  return ⟨trades, production, delivered, deliveries⟩

/-- Moves the clock to a tick, which is a commit of its own. -/
def moveClock (tick : Tick) : Action World Unit := do
  modify fun w => { w with clock := { w.clock with currentTick := tick } }
  Action.update fun w => do
    let v ← orOverflow (w.clock.lockVersion.add? 1) .lockVersion
    return { w with clock := { w.clock with lockVersion := v } }

def driftOf (before after : Cents) (flows : CashFlows) : Except Failure Cents := do
  let expected ← orOverflow (do before.add? (← flows.net?)) .expectedLedgerTotal
  orOverflow (after.sub? expected) .conservationDrift

/-- One tick with an account that starts at zero. -/
def stepAccount (cfg : EngineConfig) : Action Account (TickReport × List Trade) := do
  let w := (← get).world
  let tick ← orOverflow (w.clock.currentTick.add? 1) .tickCounter
  let before ← orOverflow w.ledgerTotal? .ledgerTotal
  let o ← runPhases tick cfg
  Account.onWorld (moveClock tick)
  let s ← get
  let after ← orOverflow s.world.ledgerTotal? .ledgerTotal
  let drift ← driftOf before after s.flows
  let report : TickReport := ⟨tick, o.trades.length, o.production.advanced.length,
    o.production.blocked.length, o.production.completed.length, o.delivered.length,
    o.deliveries.length, s.flows, drift⟩
  return (report, o.trades)

/-- One tick. Its account starts empty and ends with it. -/
def step (cfg : EngineConfig) : Action World (TickReport × List Trade) :=
  (stepAccount cfg).zoom (fun w => ⟨w, .zero⟩) fun s _ => s.world

end Mercantile
