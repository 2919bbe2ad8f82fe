import Mercantile.Contract
import Mercantile.Market.Placement
import Mercantile.Production
import Mercantile.Random

/-!
A small economy to start from: two regions, ore and ingots, players with a smelter each and bots that sell
ore. Everything that varies is drawn from a seed, so a seed always gives the same world.
-/

namespace Mercantile

structure DemoShape where
  players : Nat := 4
  bots : Nat := 2
  ordersPerCompany : Nat := 3
deriving DecidableEq

/-- A world under construction, with the source of its numbers. -/
structure Draft where
  world : World
  random : Random

namespace Draft

def onWorld {α : Type} (x : Action World α) : Action Draft α :=
  x.zoom (·.world) fun w d => { d with world := w }

def create {α : Type} (f : World → α × World) : Action Draft α :=
  modifyGet fun d => ((f d.world).1, { d with world := (f d.world).2 })

/-- A number between two bounds, both included. -/
def draw (low high : Nat) : Action Draft Nat :=
  modifyGet fun d => ((d.random.between low high).1, { d with random := (d.random.between low high).2 })

/-- A byte between two bounds, both included. -/
def drawByte (low high : Nat) : Action Draft Nat :=
  modifyGet fun d =>
    ((d.random.byteBetween low high).1, { d with random := (d.random.byteBetween low high).2 })

/-- What the members of the economy trade with and where. -/
structure Setting where
  north : RegionId
  south : RegionId
  ore : ItemId
  ingot : ItemId
  recipe : RecipeId

def Setting.home (s : Setting) (n : Nat) : RegionId := if n % 2 = 0 then s.north else s.south

/-- A player, where it is at home and what it builds in. -/
structure Player where
  company : CompanyId
  region : RegionId
  building : BuildingId

def addSetting : Action Draft Setting := do
  let north ← create (·.addRegion "North")
  let south ← create (·.addRegion "South")
  let ore ← create (·.addItem "Ore")
  let ingot ← create (·.addItem "Ingot")
  let recipe ← create (·.addRecipe "Smelt ingot" "smelter" [⟨ore, 2⟩] ingot 1 30)
  onWorld (modify fun w => { w with marketPool := 500000 })
  return ⟨north, south, ore, ingot, recipe⟩

def addPlayer (s : Setting) (n : Nat) : Action Draft Player := do
  let cash ← draw 50000 150000
  let id ← create (·.addCompany ("Player " ++ Text.ofNat (n + 1)) (Int64.ofNat cash) false)
  let region := s.home n
  let building ← create (·.addBuilding id region "smelter" 2)
  let ore ← draw 20 80
  onWorld (World.addStock ⟨id, region, s.ore⟩ (UInt64.ofNat ore))
  return ⟨id, region, building⟩

def addBot (s : Setting) (n : Nat) : Action Draft CompanyId := do
  let id ← create (·.addCompany ("Bot " ++ Text.ofNat (n + 1)) 200000 true)
  onWorld (World.addStock ⟨id, s.north, s.ore⟩ 500)
  onWorld (World.addStock ⟨id, s.south, s.ore⟩ 500)
  return id

/-- A workforce that leans towards operations. -/
def allocate (p : Player) : Action Draft Unit := do
  let operations ← drawByte 25 55
  let rest := 100 - operations
  let third := UInt8.ofNat (rest / 3)
  onWorld <| setAllocation
    ⟨p.company, UInt8.ofNat operations, third, third, UInt8.ofNat (rest - 2 * (rest / 3))⟩

/-- An order for ore at a price and of a size within bounds. -/
def addOrder (s : Setting) (company : CompanyId) (region : RegionId) (side : OrderSide)
    (price size : Nat × Nat) : Action Draft Unit := do
  let cents ← draw price.1 price.2
  let quantity ← draw size.1 size.2
  let _ ← onWorld <| placeOrder
    ⟨company, region, s.ore, side, Int64.ofNat cents, UInt64.ofNat quantity⟩

/-- A bot offers ore in both regions. -/
def quoteBot (s : Setting) (orders : Nat) (bot : CompanyId) : Action Draft Unit :=
  [s.north, s.south].forM fun region =>
    (List.range orders).forM fun _ => addOrder s bot region .sell (90, 110) (5, 25)

/-- A player bids for ore, starts to smelt and promises ingots to the pool. -/
def engage (s : Setting) (orders : Nat) (p : Player) : Action Draft Unit := do
  (List.range orders).forM fun _ => addOrder s p.company p.region .buy (85, 105) (1, 10)
  let _ ← onWorld (startJob ⟨p.company, p.building, s.recipe, 1⟩)
  let _ ← onWorld (createContract ⟨p.company, none, p.region, s.ingot, 10, 400⟩)

def populate (shape : DemoShape) : Action Draft Unit := do
  let s ← addSetting
  let players ← (List.range shape.players).mapM (addPlayer s)
  let bots ← (List.range shape.bots).mapM (addBot s)
  players.forM allocate
  bots.forM (quoteBot s shape.ordersPerCompany)
  players.forM (engage s shape.ordersPerCompany)

end Draft

def demoWorld (seed : UInt64) (shape : DemoShape) : Except Failure World := do
  let (_, d) ← (Draft.populate shape).outcome ⟨.empty, .ofSeed seed⟩
  match d.world.check with
  | .ok () => return d.world
  | .error e => throw (.invalidRequest (.rule e))

end Mercantile
