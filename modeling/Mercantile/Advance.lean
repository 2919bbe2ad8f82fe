import Mercantile.Store.Basic
import Mercantile.Tick

/-!
Requests for many ticks. They are computed one after another on a copy of a snapshot and packed into one
batch, which is written as a whole or not at all.
-/

namespace Mercantile

/-- Ticks that are computed but not committed. -/
structure AdvancePlan where
  /-- The lock version of the snapshot. -/
  expectedLockVersion : UInt64
  batch : TickBatch
  reports : List TickReport
deriving DecidableEq

def AdvancePlan.ticksApplied (p : AdvancePlan) : UInt64 := p.batch.toTick - p.batch.fromTick

/-- The number of ticks of a request, if the engine accepts it. -/
def checkTicks (requested : Int64) (cfg : EngineConfig) : Except Failure Nat :=
  match checkRange "ticks" requested 1 (Int64.ofNat cfg.maxTicksPerRequest.toNat) with
  | .ok n => .ok n.toInt.toNat
  | .error e => .error (.invalidRequest (.rule e))

/-- Runs ticks up to a number. `stop` is asked before each of them, with the number of those done. -/
def runTicks (cfg : EngineConfig) (stop : Nat → Bool) (done : Nat) :
    Nat → Action World (List (TickReport × List Trade))
  | 0 => return []
  | ticks + 1 => do
    if stop done then return []
    let r ← step cfg
    let rs ← runTicks cfg stop (done + 1) ticks
    return r :: rs

/-- The plan for ticks on top of a snapshot, which ends early where `stop` says so. -/
def planAdvanceUntil (stop : Nat → Bool) (snapshot : World) (requested : Int64) (cfg : EngineConfig)
    (now : Timestamp) : Except Failure AdvancePlan := do
  let ticks ← checkTicks requested cfg
  let (outcomes, w) ← (runTicks cfg stop 0 ticks).outcome snapshot
  let next :=
    if outcomes.isEmpty then w else { w with clock := { w.clock with lastAdvancedAt := some now } }
  let batch : TickBatch :=
    ⟨snapshot.clock.currentTick, next.clock.currentTick, next, outcomes.flatMap (·.2)⟩
  return ⟨snapshot.clock.lockVersion, batch, outcomes.map (·.1)⟩

def planAdvance (snapshot : World) (requested : Int64) (cfg : EngineConfig) (now : Timestamp) :
    Except Failure AdvancePlan :=
  planAdvanceUntil (fun _ => false) snapshot requested cfg now

end Mercantile
