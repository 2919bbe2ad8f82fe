import Mercantile.Config.Settings
import Mercantile.Decimal.Shortest
import Mercantile.Json.Coded

/-!
A configuration as a document. A decimal is written as text, and read from a text or a number.
-/

namespace Mercantile

def Decimal.ofJson? : Json → Option Decimal
  | .str s => Decimal.parse? s
  | .int n => some n
  | .real m e => Decimal.ofFloatNumeral? m e
  | _ => none

instance : SettingSource Json where
  fields? names j := j.settings? names
  natural? := decode?
  integer? := decode?
  decimal? := Decimal.ofJson?

def EngineConfig.toJson (c : EngineConfig) : Json :=
  .obj [("max_ticks_per_request", encode c.maxTicksPerRequest),
    ("production", .obj [("base_progress_per_tick", encode c.production.baseProgressPerTick)]),
    ("workforce", .obj [("baseline_pct", encode c.workforce.baselinePct),
      ("min_multiplier", .str (Decimal.toText c.workforce.minMultiplier))]),
    ("logistics", .obj [("fee_cents_per_unit", encode c.logistics.feePerUnit),
      ("min_transit_ticks", encode c.logistics.minTransitTicks)]),
    ("bots", .obj [("liquidity_cents_per_tick", encode c.bots.liquidityPerTick)]),
    ("health", .obj [("trades_window_ticks", encode c.health.tradesWindowTicks),
      ("default_issue_limit", encode c.health.defaultIssueLimit)])]

instance : Coded EngineConfig where
  encode := EngineConfig.toJson
  decode? := SettingSource.config?

end Mercantile
