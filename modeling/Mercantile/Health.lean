import Mercantile.Audit
import Mercantile.Config

/-!
Views of a world for those who watch over it.
-/

namespace Mercantile

structure TickState where
  currentTick : Tick
  lockVersion : UInt64
  lastAdvancedAt : Option Timestamp
deriving DecidableEq

def World.tickState (w : World) : TickState :=
  ⟨w.clock.currentTick, w.clock.lockVersion, w.clock.lastAdvancedAt⟩

/-- The number of trades of the `window` ticks that end with the current one. -/
def recentTradeCount (w : World) (window : UInt64) : Nat :=
  let now := w.clock.currentTick
  let first := now.subSat (window.subSat 1)
  w.trades.countP fun t => first ≤ t.tick && t.tick ≤ now

/-- The number of recent trades that is shown; a window of no ticks shows none. -/
def shownTradeCount (w : World) (cfg : HealthConfig) : Nat :=
  if cfg.tradesWindowTicks = 0 then 0 else recentTradeCount w cfg.tradesWindowTicks

structure Health where
  clock : TickState
  openOrders : Nat
  totalOrders : Nat
  recentTrades : Nat
  companies : Nat
  bots : Nat
  audit : AuditReport
deriving DecidableEq

/-- The state of a world, with an audit up to a limit, the configured one if none is given. -/
def health (w : World) (limit : Option Nat) (cfg : HealthConfig) : Except Failure Health := do
  let report ← audit w (limit.getD cfg.defaultIssueLimit.toNat)
  return { clock := w.tickState
           openOrders := w.openOrderCount
           totalOrders := w.orders.length
           recentTrades := shownTradeCount w cfg
           companies := w.companies.length
           bots := w.botCount
           audit := report }

end Mercantile
