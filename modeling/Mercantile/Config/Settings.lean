import Mercantile.Config

/-!
Reading a configuration, whatever it is written in. A notation says how records and numbers look in it;
which settings there are, and that all have a default, is said once for all notations.
-/

namespace Mercantile

/-- A notation for settings. -/
class SettingSource (ν : Type) where
  /-- The values of named settings, each if it is there; none of them may stand twice. -/
  fields? : List String → ν → Option (List (Option ν))
  natural? : ν → Option UInt64
  integer? : ν → Option Int64
  decimal? : ν → Option Decimal

namespace SettingSource

variable {ν α : Type}

def orDefault (default : α) (read : ν → Option α) : Option ν → Option α
  | none => some default
  | some v => read v

variable [SettingSource ν]

def word32? (v : ν) : Option UInt32 := do
  let n ← natural? v
  if n.toNat < UInt32.size then some n.toUInt32 else none

def byte? (v : ν) : Option UInt8 := do
  let n ← natural? v
  if n.toNat < UInt8.size then some n.toUInt8 else none

def production? (v : ν) : Option ProductionConfig := do
  let [base] ← fields? ["base_progress_per_tick"] v | none
  let c : ProductionConfig := {}
  return ⟨← orDefault c.baseProgressPerTick word32? base⟩

def workforce? (v : ν) : Option WorkforceConfig := do
  let [baseline, least] ← fields? ["baseline_pct", "min_multiplier"] v | none
  let c : WorkforceConfig := {}
  return ⟨← orDefault c.baselinePct byte? baseline, ← orDefault c.minMultiplier decimal? least⟩

def logistics? (v : ν) : Option LogisticsConfig := do
  let [fee, transit] ← fields? ["fee_cents_per_unit", "min_transit_ticks"] v | none
  let c : LogisticsConfig := {}
  return ⟨← orDefault c.feePerUnit integer? fee, ← orDefault c.minTransitTicks natural? transit⟩

def bots? (v : ν) : Option BotConfig := do
  let [liquidity] ← fields? ["liquidity_cents_per_tick"] v | none
  let c : BotConfig := {}
  return ⟨← orDefault c.liquidityPerTick integer? liquidity⟩

def health? (v : ν) : Option HealthConfig := do
  let [window, limit] ← fields? ["trades_window_ticks", "default_issue_limit"] v | none
  let c : HealthConfig := {}
  return ⟨← orDefault c.tradesWindowTicks natural? window,
    ← orDefault c.defaultIssueLimit natural? limit⟩

def config? (v : ν) : Option EngineConfig := do
  let [ticks, production, workforce, logistics, bots, health] ← fields?
    ["max_ticks_per_request", "production", "workforce", "logistics", "bots", "health"] v | none
  let c : EngineConfig := {}
  return {
    maxTicksPerRequest := ← orDefault c.maxTicksPerRequest word32? ticks
    production := ← orDefault c.production production? production
    workforce := ← orDefault c.workforce workforce? workforce
    logistics := ← orDefault c.logistics logistics? logistics
    bots := ← orDefault c.bots bots? bots
    health := ← orDefault c.health health? health }

end SettingSource

end Mercantile
