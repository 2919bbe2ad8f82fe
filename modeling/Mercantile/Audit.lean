import Mercantile.Validation

/-!
A read-only audit of a world. `issues` lists everything that is wrong, and a report is its beginning, up
to a limit. What companies owe is added up in words of 128 bits, and there is no report where a sum on the
way does not fit.
-/

namespace Mercantile

inductive Issue
  | sumOverflow
  | negativeReserved (company : CompanyId) (reserved : Cents)
  | remainingExceedsQuantity (order : OrderId) (remaining quantity : Quantity)
  | filledStatusMismatch (order : OrderId) (status : OrderStatus) (remaining : Quantity)
  | contractOverfulfilled (contract : ContractId) (fulfilled quantity : Quantity)
  | reservationMismatch (company : CompanyId) (reserved : Cents) (owed : Int)
  | allocationSum (company : CompanyId) (cause : ValidationError)
deriving DecidableEq

namespace Issue

def kind : Issue → String
  | sumOverflow => "sum_overflow"
  | negativeReserved .. => "negative_reserved_cash"
  | remainingExceedsQuantity .. => "remaining_exceeds_quantity"
  | filledStatusMismatch .. => "filled_status_mismatch"
  | contractOverfulfilled .. => "contract_overfulfilled"
  | reservationMismatch .. => "reservation_mismatch"
  | allocationSum .. => "allocation_sum"

def entity : Issue → String
  | sumOverflow => "world"
  | negativeReserved .. => EntityKind.company.label
  | remainingExceedsQuantity .. => EntityKind.order.label
  | filledStatusMismatch .. => EntityKind.order.label
  | contractOverfulfilled .. => EntityKind.contract.label
  | reservationMismatch .. => EntityKind.company.label
  | allocationSum .. => "allocation"

/-- The number of the identifier of the thing that has the issue, zero for the world. -/
def id : Issue → UInt64
  | sumOverflow => 0
  | negativeReserved company _ => company.val
  | remainingExceedsQuantity order _ _ => order.val
  | filledStatusMismatch order _ _ => order.val
  | contractOverfulfilled contract _ _ => contract.val
  | reservationMismatch company _ _ => company.val
  | allocationSum company _ => company.val

def detail : Issue → String
  | sumOverflow => "ledger sums overflow i64"
  | negativeReserved _ reserved => "reserved cash is " ++ Text.ofInt reserved.toInt
  | remainingExceedsQuantity _ remaining quantity =>
    "remaining " ++ Text.ofNat remaining.toNat ++ " exceeds quantity " ++ Text.ofNat quantity.toNat
  | filledStatusMismatch _ status remaining =>
    "status " ++ status.name ++ " with remaining " ++ Text.ofNat remaining.toNat
  | contractOverfulfilled _ fulfilled quantity =>
    "fulfilled " ++ Text.ofNat fulfilled.toNat ++ " exceeds quantity " ++ Text.ofNat quantity.toNat
  | reservationMismatch _ reserved owed =>
    "reserved " ++ Text.ofInt reserved.toInt ++ " but open obligations total " ++ Text.ofInt owed
  | allocationSum _ cause => cause.message

end Issue

/-- What an open buy order still owes. -/
def Order.obligation (o : Order) : Int :=
  if o.side = .buy ∧ o.status.isOpen then o.price.toInt * o.remaining.toNat else 0

/-- What an open contract with a buyer still owes. -/
def Contract.obligation (c : Contract) : Int :=
  if c.status.isOpen then c.price.toInt * c.outstanding.toNat else 0

/-- The largest word of 128 bits. -/
def wideMax : Int := 170141183460469231731687303715884105727

/-- A sum in a word of 128 bits, if it fits. -/
def wideAdd? (a b : Int) : Option Int :=
  if -wideMax - 1 ≤ a + b ∧ a + b ≤ wideMax then some (a + b) else none

/-- Adds a debt to what its company owes. -/
def addDebt (owed : CompanyId → Int) (debt : CompanyId × Int) : Except Failure (CompanyId → Int) := do
  let total ← orFail (wideAdd? (owed debt.1) debt.2) .undefined
  return fun company => if company = debt.1 then total else owed company

namespace World

/-- What orders and contracts add to the debts of companies, in the order in which it is added up. -/
def debts (w : World) : List (CompanyId × Int) :=
  w.orders.map (fun o => (o.company, o.obligation))
    ++ w.contracts.filterMap fun c => c.buyer.map (·, c.obligation)

/-- What every company owes, whether the world has it or not. -/
def owed (w : World) : Except Failure (CompanyId → Int) := w.debts.foldlM addDebt fun _ => 0

def sumIssues (w : World) : List Issue :=
  if w.sumCash?.isNone || w.sumReserved?.isNone then [.sumOverflow] else []

def companyIssues (c : Company) : List Issue :=
  if c.reserved < 0 then [.negativeReserved c.id c.reserved] else []

def orderIssues (o : Order) : List Issue :=
  (if o.quantity < o.remaining then [.remainingExceedsQuantity o.id o.remaining o.quantity] else [])
    ++ if (o.status = .filled) ≠ (o.remaining = 0) then
      [.filledStatusMismatch o.id o.status o.remaining] else []

def contractIssues (c : Contract) : List Issue :=
  if c.quantity < c.fulfilled then [.contractOverfulfilled c.id c.fulfilled c.quantity] else []

def reservationIssues (owed : CompanyId → Int) (c : Company) : List Issue :=
  if c.reserved.toInt = owed c.id then [] else [.reservationMismatch c.id c.reserved (owed c.id)]

def allocationIssues (a : Allocation) : List Issue :=
  match a.check with
  | .ok () => []
  | .error e => [.allocationSum a.company e]

/-- Everything that is wrong with a world in which companies owe so much. -/
def issues (w : World) (owed : CompanyId → Int) : List Issue :=
  w.sumIssues ++ w.companies.flatMap companyIssues ++ w.orders.flatMap orderIssues
    ++ w.contracts.flatMap contractIssues ++ w.companies.flatMap (reservationIssues owed)
    ++ w.allocations.flatMap allocationIssues

end World

structure AuditReport where
  currentTick : Tick
  lockVersion : UInt64
  sumCash : Option Cents
  sumReserved : Option Cents
  issues : List Issue
  /-- There are more issues than those listed. -/
  truncated : Bool
deriving DecidableEq

def AuditReport.hasViolations (r : AuditReport) : Bool := !r.issues.isEmpty || r.truncated

def audit (w : World) (limit : Nat) : Except Failure AuditReport := do
  let issues := w.issues (← w.owed)
  return { currentTick := w.clock.currentTick, lockVersion := w.clock.lockVersion, sumCash := w.sumCash?
           sumReserved := w.sumReserved?, issues := issues.take limit, truncated := limit < issues.length }

end Mercantile
