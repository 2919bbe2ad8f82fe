import Mercantile.Advance
import Mercantile.Health
import Mercantile.Market.Placement

/-!
The engine over a store. Every writing operation reads the world, works on a copy and commits the result
if nobody else committed in between; a command is a commit of its own and raises the lock version by one,
ticks are committed as one batch.
-/

namespace Mercantile

structure AdvanceResult where
  fromTick : Tick
  toTick : Tick
deriving DecidableEq

/-- The outcome of one operation that is computed but not committed. -/
structure CommandPlan (α : Type) where
  /-- The lock version of the snapshot. -/
  expectedLockVersion : UInt64
  next : World
  answer : α

/-- The outcome of one operation on a copy of a snapshot, which is one version later than the snapshot. -/
def planCommand {α : Type} (x : Action World α) (snapshot : World) : Except Failure (CommandPlan α) := do
  let expected := snapshot.clock.lockVersion
  let (answer, next) ← x.outcome snapshot
  let version ← orOverflow (expected.add? 1) .lockVersion
  return ⟨expected, { next with clock := { next.clock with lockVersion := version } }, answer⟩

/-- A store with the settings that its engine runs at. -/
structure Simulation (σ : Type) where
  store : σ
  config : EngineConfig

namespace Simulation

variable {σ α : Type}

/-- A simulation whose settings are within their bounds. -/
def new (store : σ) (config : EngineConfig) : Except Failure (Simulation σ) :=
  match config.check with
  | .ok () => .ok ⟨store, config⟩
  | .error e => .error (.invalidRequest (.rule e))

variable [WorldStore σ]

def snapshot (s : Simulation σ) : Except Failure World :=
  match WorldStore.read s.store with
  | .ok w => .ok w
  | .error e => .error (.storage e)

def accepted (s : Simulation σ) (expected : UInt64)
    (r : Except StoreError (CommitOutcome × σ)) : Except Failure (Simulation σ) :=
  match r with
  | .error e => .error (.storage e)
  | .ok (outcome, store) => do
    outcome.accept expected
    return { s with store }

/-- Commits a plan as a whole; a plan without ticks commits nothing. The audit of a world that was just
committed is left out: what it finds is written to a log and is no part of the answer, and where it has no
result the batch is stored already. -/
def commitPlan (plan : AdvancePlan) : Action (Simulation σ) AdvanceResult :=
  .transact fun s => do
    let result : AdvanceResult := ⟨plan.batch.fromTick, plan.batch.toTick⟩
    if plan.ticksApplied = 0 then return (result, s)
    let expected := plan.expectedLockVersion
    let s ← s.accepted expected (WorldStore.commitBatch s.store expected plan.batch)
    return (result, s)

/-- Advances the world until `stop` says so, and commits the ticks done. -/
def advanceUntil (stop : Nat → Bool) (ticks : Int64) (now : Timestamp) :
    Action (Simulation σ) AdvanceResult := do
  let plan ← Action.observe fun s => do
    planAdvanceUntil stop (← s.snapshot) ticks s.config now
  commitPlan plan

def advance (ticks : Int64) (now : Timestamp) : Action (Simulation σ) AdvanceResult :=
  advanceUntil (fun _ => false) ticks now

def commitCommand (plan : CommandPlan α) : Action (Simulation σ) α :=
  .transact fun s => do
    let expected := plan.expectedLockVersion
    let s ← s.accepted expected (WorldStore.compareAndSwap s.store expected plan.next)
    return (plan.answer, s)

/-- Carries out one operation on a copy of the world and commits the copy. -/
def command (x : EngineConfig → Action World α) : Action (Simulation σ) α := do
  let plan ← Action.observe fun s => do
    planCommand (x s.config) (← s.snapshot)
  commitCommand plan

def tickState (s : Simulation σ) : Except Failure TickState := do
  return (← s.snapshot).tickState

def health (s : Simulation σ) (limit : Option Nat) : Except Failure Health := do
  Mercantile.health (← s.snapshot) limit s.config.health

def planOrder (s : Simulation σ) (r : OrderRequest) : Except Failure OrderPlan := do
  Mercantile.planOrder (← s.snapshot) r

def planJob (s : Simulation σ) (r : JobRequest) : Except Failure JobPlan := do
  Mercantile.planJob (← s.snapshot) r

def placeOrder (r : OrderRequest) : Action (Simulation σ) OrderId :=
  command fun _ => Mercantile.placeOrder r

def cancelOrder (id : OrderId) : Action (Simulation σ) Unit :=
  command fun _ => Mercantile.cancelOrder id

def startJob (r : JobRequest) : Action (Simulation σ) JobId :=
  command fun _ => Mercantile.startJob r

def cancelJob (id : JobId) : Action (Simulation σ) Unit :=
  command fun _ => Mercantile.cancelJob id

def createShipment (r : ShipmentRequest) : Action (Simulation σ) ShipmentId :=
  command fun cfg => Mercantile.createShipment r cfg.logistics

def cancelShipment (id : ShipmentId) : Action (Simulation σ) Unit :=
  command fun _ => Mercantile.cancelShipment id

def createContract (r : ContractRequest) : Action (Simulation σ) ContractId :=
  command fun _ => Mercantile.createContract r

def cancelContract (id : ContractId) : Action (Simulation σ) Unit :=
  command fun _ => Mercantile.cancelContract id

def setAllocation (a : Allocation) : Action (Simulation σ) Unit :=
  command fun _ => Mercantile.setAllocation a

end Simulation

end Mercantile
