import Mercantile.Text.Blank
import Mercantile.World

/-!
Rules for inputs and for snapshots. The same rule serves every boundary, so what is refused as an
argument of the command line is refused in a request as well.
-/

namespace Mercantile

/-- A check that passes or says what is wrong. -/
abbrev Check := Except ValidationError

/-- The values add up to exactly `expected`. -/
def checkSum (field : String) (values : List UInt8) (expected : Nat) : Check Unit :=
  let actual := (values.map (·.toNat)).foldr (· + ·) 0
  if actual = expected then .ok () else .error (.boundedSum field expected actual)

def checkRange (field : String) (value min max : Int64) : Check Int64 :=
  if value < min ∨ max < value then .error (.outOfRange field value min max) else .ok value

/-- An integer within bounds from its decimal text, which white space may surround. -/
def readBoundedInt (field raw : String) (min max : Int64) : Check Int64 :=
  match (Text.readInt? (Text.trim raw.toList)).bind Int64.ofInt? with
  | some value => checkRange field value min max
  | none => .error (.notAnInteger field raw)

/-- The member of a set that a name stands for; case and surrounding white space do not matter. -/
def readMember {α : Type} (field raw : String) (members : List (String × α)) : Check α :=
  let needle := String.ofList ((Text.trim raw.toList).map Char.toLower)
  match members.find? (·.1 = needle) with
  | some m => .ok m.2
  | none => .error (.notAMember field raw (members.map (·.1)))

def OrderSide.members : List (String × OrderSide) := [("buy", .buy), ("sell", .sell)]

/-- The percentages of an allocation are a whole. -/
def Allocation.check (a : Allocation) : Check Unit :=
  checkSum Subject.allocation.label a.percentages 100

/-- Every number is above the one before it. -/
def checkAscending (holder : Subject) : List UInt64 → Check Unit
  | a :: b :: rest =>
    if a < b then checkAscending holder (b :: rest) else .error (.unorderedIds holder b)
  | _ => .ok ()

def checkRoster {α : Type} {kind : EntityKind} [Keyed α kind] (holder : Subject) (xs : Roster α) :
    Check Unit :=
  checkAscending holder (xs.map fun a => (key a).val)

def checkReference {α : Type} {kind : EntityKind} [Keyed α kind] (holder : Subject) (xs : Roster α)
    (i : Id kind) : Check Unit :=
  if xs.any (key · = i) then .ok () else .error (.danglingReference holder kind i.val)

namespace World

def checkCompany (c : Company) : Check Unit :=
  if c.reserved < 0 then .error (.ledger (.negativeReserved c.id c.reserved)) else .ok ()

def checkRecipe (w : World) (r : Recipe) : Check Unit := do
  let holder := Subject.entity .recipe
  checkReference holder w.items r.outputItem
  r.inputs.forM fun i => checkReference holder w.items i.item

def checkBuilding (w : World) (b : Building) : Check Unit := do
  let holder := Subject.entity .building
  checkReference holder w.companies b.company
  checkReference holder w.regions b.region

def checkJob (w : World) (j : Job) : Check Unit := do
  let holder := Subject.entity .job
  checkReference holder w.companies j.company
  checkReference holder w.buildings j.building
  checkReference holder w.recipes j.recipe

def checkOrder (w : World) (o : Order) : Check Unit := do
  let holder := Subject.entity .order
  checkReference holder w.companies o.company
  checkReference holder w.regions o.region
  checkReference holder w.items o.item
  if o.quantity < o.remaining then
    .error (.ledger (.remainingAboveQuantity o.id o.remaining o.quantity))

def checkShipment (w : World) (s : Shipment) : Check Unit := do
  let holder := Subject.entity .shipment
  checkReference holder w.companies s.company
  checkReference holder w.regions s.origin
  checkReference holder w.regions s.destination
  checkReference holder w.items s.item

def checkContract (w : World) (c : Contract) : Check Unit := do
  let holder := Subject.entity .contract
  checkReference holder w.companies c.seller
  c.buyer.forM (checkReference holder w.companies)
  checkReference holder w.regions c.region
  checkReference holder w.items c.item

def checkAllocation (w : World) (a : Allocation) : Check Unit := do
  checkReference .allocation w.companies a.company
  a.check

def checkBalance (w : World) (b : Balance) : Check Unit := do
  checkReference .inventory w.companies b.key.company
  checkReference .inventory w.regions b.key.region
  checkReference .inventory w.items b.key.item

/-- The structure of a snapshot: rosters in order, references that lead somewhere, no reserved cash below
zero, nothing left on an order beyond its quantity, and allocations that are a whole. -/
def check (w : World) : Check Unit := do
  checkRoster (.entity .region) w.regions
  checkRoster (.entity .item) w.items
  checkRoster (.entity .company) w.companies
  checkRoster (.entity .recipe) w.recipes
  checkRoster (.entity .building) w.buildings
  checkRoster (.entity .job) w.jobs
  checkRoster (.entity .order) w.orders
  checkRoster (.entity .trade) w.trades
  checkRoster (.entity .shipment) w.shipments
  checkRoster (.entity .contract) w.contracts
  checkRoster .allocation w.allocations
  w.companies.forM checkCompany
  w.recipes.forM w.checkRecipe
  w.buildings.forM w.checkBuilding
  w.jobs.forM w.checkJob
  w.orders.forM w.checkOrder
  w.shipments.forM w.checkShipment
  w.contracts.forM w.checkContract
  w.allocations.forM w.checkAllocation
  w.inventory.balances.forM w.checkBalance

end World

end Mercantile
