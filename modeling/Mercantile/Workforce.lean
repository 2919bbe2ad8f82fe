import Mercantile.Config
import Mercantile.Action

/-!
What a workforce allocation does for a company. A multiplier is one at the baseline percentage and
changes by a hundredth with each percent, down to a floor; a company that never chose an allocation
works at one throughout.
-/

namespace Mercantile

structure Multipliers where
  operations : Decimal
  research : Decimal
  logistics : Decimal
  corporate : Decimal
deriving DecidableEq

def Multipliers.neutral : Multipliers := ⟨1, 1, 1, 1⟩

def multiplier (pct : UInt8) (cfg : WorkforceConfig) : Decimal :=
  let m := mkRat (100 + pct.toNat - cfg.baselinePct.toNat) 100
  if m < cfg.minMultiplier then cfg.minMultiplier else m

def Allocation.multipliers (a : Allocation) (cfg : WorkforceConfig) : Multipliers :=
  ⟨multiplier a.operations cfg, multiplier a.research cfg, multiplier a.logistics cfg,
    multiplier a.corporate cfg⟩

abbrev MultiplierTable := List (CompanyId × Multipliers)

/-- The multipliers that a company works at; a company that is not listed works at one. -/
def MultiplierTable.of (t : MultiplierTable) (company : CompanyId) : Multipliers :=
  (List.lookup company t).getD .neutral

def companyMultipliers (w : World) (cfg : WorkforceConfig) : MultiplierTable :=
  w.companies.map fun c =>
    (c.id, ((w.allocationFor? c.id).map (·.multipliers cfg)).getD .neutral)

def setAllocation (a : Allocation) : Action World Unit :=
  .update fun w => do
    let _ ← w.companies.require a.company
    match a.check with
    | .ok () => return w.putAllocation a
    | .error e => throw (.invalidRequest (.rule e))

end Mercantile
