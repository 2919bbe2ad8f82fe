import Mercantile.Simulation
import Mercantile.Snapshot

/-!
The documents of plans, reports and results, as callers see them. They are only written.
-/

namespace Mercantile

/-- The document of a value that callers see. -/
class Reported (α : Type) where
  report : α → Json

export Reported (report)

namespace Reported

def count (n : Nat) : Json := .int n

def list {α : Type} [Reported α] (as : List α) : Json := .arr (as.map report)

instance : Reported CashFlows where
  report f := .obj [("inflow_cents", encode f.inflow), ("outflow_cents", encode f.outflow)]

instance : Reported OrderPlan where
  report p := .obj [("side", encode p.side), ("reserve_cents", encode p.reserve),
    ("escrow_quantity", encode p.escrow), ("available_cash_cents", encode p.availableCash),
    ("available_quantity", encode p.availableQuantity)]

instance : Reported JobPlan where
  report p := .obj [("region_id", encode p.region),
    ("inputs_per_tick", .arr (p.inputsPerTick.map fun i => .arr [encode i.1, encode i.2])),
    ("active_jobs", encode p.activeJobs), ("capacity", encode p.capacity)]

instance : Reported Fill where
  report f := .obj [("buy_order_id", encode f.buyOrder), ("sell_order_id", encode f.sellOrder),
    ("buyer_company_id", encode f.buyer), ("seller_company_id", encode f.seller),
    ("bid_price_cents", encode f.bidPrice), ("price_cents", encode f.price),
    ("quantity", encode f.quantity)]

instance : Reported ContractDelivery where
  report d := .obj [("contract_id", encode d.contract), ("tick", encode d.tick),
    ("quantity", encode d.quantity), ("value_cents", encode d.value)]

instance : Reported ProductionSummary where
  report s := .obj [("advanced", encode s.advanced), ("blocked", encode s.blocked),
    ("completed", encode s.completed)]

instance : Reported TickReport where
  report r := .obj [("tick", encode r.tick), ("trades", count r.trades),
    ("jobsAdvanced", count r.jobsAdvanced), ("jobsBlocked", count r.jobsBlocked),
    ("jobsCompleted", count r.jobsCompleted), ("shipmentsDelivered", count r.shipmentsDelivered),
    ("contractsSettled", count r.contractsSettled), ("flows", report r.flows),
    ("conservationDriftCents", encode r.drift)]

instance : Reported AdvanceResult where
  report r := .obj [("fromTick", encode r.fromTick), ("toTick", encode r.toTick)]

def clockMembers (s : TickState) : List (String × Json) :=
  [("currentTick", encode s.currentTick), ("lockVersion", encode s.lockVersion),
    ("lastAdvancedAt", encode s.lastAdvancedAt)]

instance : Reported TickState where
  report s := .obj (clockMembers s)

instance : Reported Issue where
  report i := .obj [("kind", .str i.kind), ("entity", .str i.entity), ("id", encode i.id),
    ("detail", .str i.detail)]

instance : Reported AuditReport where
  report r := .obj [("currentTick", encode r.currentTick), ("lockVersion", encode r.lockVersion),
    ("sumCashCents", encode r.sumCash), ("sumReservedCashCents", encode r.sumReserved),
    ("issues", list r.issues), ("truncated", .bool r.truncated)]

instance : Reported Health where
  report h := .obj (clockMembers h.clock ++ [("ordersOpenCount", count h.openOrders),
    ("ordersTotalCount", count h.totalOrders), ("tradesLast100Count", count h.recentTrades),
    ("companiesCount", count h.companies), ("botsCount", count h.bots),
    ("sumCashCents", encode h.audit.sumCash), ("sumReservedCashCents", encode h.audit.sumReserved),
    ("invariants", .obj [("hasViolations", .bool h.audit.hasViolations),
      ("truncated", .bool h.audit.truncated), ("issues", list h.audit.issues)])])

end Reported

end Mercantile
