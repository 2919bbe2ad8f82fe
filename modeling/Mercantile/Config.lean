import Mercantile.Decimal
import Mercantile.Validation

/-!
What can be set about the engine, with a default for everything.
-/

namespace Mercantile

structure ProductionConfig where
  /-- Progress of a job in one tick at an operations multiplier of one. -/
  baseProgressPerTick : UInt32 := 10
deriving DecidableEq

structure WorkforceConfig where
  /-- The percentage that gives a multiplier of one. -/
  baselinePct : UInt8 := 25
  /-- No multiplier is below it. -/
  minMultiplier : Decimal := mkRat 1 4
deriving DecidableEq

structure LogisticsConfig where
  /-- Fee for a delivered unit at a logistics multiplier of one. -/
  feePerUnit : Cents := 2
  minTransitTicks : UInt64 := 1
deriving DecidableEq

structure BotConfig where
  /-- Cash that every bot receives in a tick. -/
  liquidityPerTick : Cents := 0
deriving DecidableEq

structure HealthConfig where
  /-- How many ticks a trade counts as recent. -/
  tradesWindowTicks : UInt64 := 100
  /-- How many issues are reported where no limit is given. -/
  defaultIssueLimit : UInt64 := 20
deriving DecidableEq

structure EngineConfig where
  /-- How many ticks one request may ask for. -/
  maxTicksPerRequest : UInt32 := 10000
  production : ProductionConfig := {}
  workforce : WorkforceConfig := {}
  logistics : LogisticsConfig := {}
  bots : BotConfig := {}
  health : HealthConfig := {}
deriving DecidableEq

namespace EngineConfig

/-- A setting that has to be at least one. -/
def checkPositive (field : String) (isZero : Bool) (max : Int64) : Check Unit :=
  if isZero then .error (.outOfRange field 0 1 max) else .ok ()

/-- A setting of money, which cannot be negative. -/
def checkCents (field : String) (value : Cents) : Check Unit :=
  if value < 0 then .error (.outOfRange field value 0 Int64.maxValue) else .ok ()

def check (cfg : EngineConfig) : Check Unit := do
  checkPositive "max_ticks_per_request" (cfg.maxTicksPerRequest = 0) 4294967295
  checkPositive "production.base_progress_per_tick" (cfg.production.baseProgressPerTick = 0) 4294967295
  if 100 < cfg.workforce.baselinePct then
    let pct := Int64.ofNat cfg.workforce.baselinePct.toNat
    .error (.outOfRange "workforce.baseline_pct" pct 0 100)
  if cfg.workforce.minMultiplier ≤ 0 then .error (.ledger .multiplierFloor)
  checkCents "logistics.fee_cents_per_unit" cfg.logistics.feePerUnit
  checkPositive "logistics.min_transit_ticks" (cfg.logistics.minTransitTicks = 0) Int64.maxValue
  checkCents "bots.liquidity_cents_per_tick" cfg.bots.liquidityPerTick

end EngineConfig

end Mercantile
