import Mercantile.Store.Basic

/-!
A store that holds the world as it is, with the history of the trades of committed batches.
-/

namespace Mercantile

structure MemoryStore where
  world : Option World
  history : List Trade
deriving DecidableEq

namespace MemoryStore

def empty : MemoryStore := ⟨none, []⟩

/-- A store of a world; the trades that the world remembers are not part of the history. -/
def ofWorld (w : World) : MemoryStore := ⟨some w, []⟩

def read (s : MemoryStore) : Except StoreError World :=
  match s.world with
  | some w => .ok w
  | none => .error .uninitialized

/-- Stores `next` and `trades`, if the lock version is `expected`. -/
def commit (s : MemoryStore) (expected : UInt64) (next : World) (trades : List Trade) :
    Except StoreError (CommitOutcome × MemoryStore) := do
  let w ← s.read
  if w.clock.lockVersion = expected then
    return (.committed, ⟨some next, s.history ++ trades⟩)
  else
    return (.conflict w.clock.lockVersion, s)

instance : WorldStore MemoryStore where
  read := read
  compareAndSwap s expected next := s.commit expected next []
  commitBatch s expected batch := s.commit expected batch.next batch.trades

end MemoryStore

end Mercantile
