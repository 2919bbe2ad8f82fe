import Mercantile.World

/-!
Where a world is kept between operations. A writer reads the world, works on a copy and commits the
result only if the stored lock version is still the one it read; otherwise it learns which version is
there and has to start again.
-/

namespace Mercantile

/-- What a request for ticks writes: the world they lead to, and the trades on the way. -/
structure TickBatch where
  fromTick : Tick
  toTick : Tick
  next : World
  trades : List Trade
deriving DecidableEq

inductive CommitOutcome
  | committed
  /-- Somebody else committed first; `found` is the version that is stored. -/
  | conflict (found : UInt64)
deriving DecidableEq

/-- A conflict, as a failure of the writer that expected another version. -/
def CommitOutcome.accept (expected : UInt64) : CommitOutcome → Except Failure Unit
  | .committed => .ok ()
  | .conflict found => .error (.concurrentModification expected found)

/-- A store of one world. A commit answers with the store it leaves. -/
class WorldStore (σ : Type) where
  read : σ → Except StoreError World
  /-- Replaces the world if its lock version is `expected`. -/
  compareAndSwap : σ → (expected : UInt64) → World → Except StoreError (CommitOutcome × σ)
  /-- Replaces the world in the same way, and appends the trades to the history. -/
  commitBatch : σ → (expected : UInt64) → TickBatch → Except StoreError (CommitOutcome × σ)

end Mercantile
