import Mercantile.Workforce

/-!
Jobs. In every tick each unfinished job either draws all inputs of that tick and gains progress, or draws
nothing and is blocked with its progress kept; a blocked job is tried again in the next tick. At the work
that its recipe requires a job yields its output.
-/

namespace Mercantile

structure JobRequest where
  company : CompanyId
  building : BuildingId
  recipe : RecipeId
  quantity : Quantity
deriving DecidableEq

/-- What a job would draw, and how full its building is. -/
structure JobPlan where
  region : RegionId
  inputsPerTick : List (ItemId × Quantity)
  activeJobs : UInt32
  capacity : UInt32
deriving DecidableEq

def scaledInputs (inputs : List RecipeInput) (quantity : Quantity) :
    Except Failure (List (ItemId × Quantity)) :=
  inputs.mapM fun i => do
    return (i.item, ← orOverflow (i.quantity.mul? quantity) .recipeInputs)

/-- The number of unfinished jobs in a building, to the largest word at most. -/
def activeJobsIn (w : World) (building : BuildingId) : UInt32 :=
  let count := w.jobs.countP fun j => j.building = building && j.state.isActive
  UInt32.ofNat (min count (UInt32.size - 1))

/-- There is enough in stock for one input. -/
def checkInput (w : World) (company : CompanyId) (region : RegionId) (input : ItemId × Quantity) :
    Except Failure Unit := do
  let available := w.inventory.quantity ⟨company, region, input.1⟩
  if available < input.2 then
    throw (.insufficientInventory company region input.1 input.2 available)

/-- Whether a job could start. -/
def planJob (w : World) (r : JobRequest) : Except Failure JobPlan := do
  if r.quantity = 0 then throw (.invalidRequest .jobQuantity)
  let _ ← w.companies.require r.company
  let building ← w.buildings.require r.building
  let recipe ← w.recipes.require r.recipe
  if building.company ≠ r.company then
    throw (.invalidRequest (.foreignBuilding r.building r.company))
  if building.status ≠ .active then throw (.invalidState (.startJobIn building.id building.status))
  if building.kind ≠ recipe.buildingKind then
    throw (.invalidRequest (.buildingKind recipe building))
  let active := activeJobsIn w building.id
  if building.capacity ≤ active then
    throw (.invalidRequest (.buildingFull building.id building.capacity))
  let inputs ← scaledInputs recipe.inputs r.quantity
  inputs.forM (checkInput w r.company building.region)
  return ⟨building.region, inputs, active, building.capacity⟩

/-- Queues a job; its inputs are drawn tick by tick. -/
def startJob (r : JobRequest) : Action World JobId := do
  let plan ← Action.observe (planJob · r)
  let id ← World.allocateId .job
  modify fun w =>
    let j : Job := ⟨id, r.company, r.building, plan.region, r.recipe, r.quantity, 0, .queued,
      w.clock.currentTick⟩
    { w with jobs := w.jobs ++ [j] }
  return id

def cancelJob (id : JobId) : Action World Unit :=
  .update fun w => do
    let j ← w.jobs.require id
    if !j.state.isActive then throw (.invalidState (.cancelJob id j.state))
    return w.modifyJob id fun j => { j with state := .cancelled }

/-- The progress of a job in one tick: the whole part of the base rate times the multiplier, one at
least, and the largest word where that part is no word. -/
def progressStep (base : UInt32) (operations : Decimal) : Except Failure UInt32 := do
  let product ← orFail (Decimal.mul? base.toNat operations) .undefined
  let whole := product.floor
  let isWord := 0 ≤ whole ∧ whole < UInt32.size
  let step := UInt32.ofNat (if isWord then whole.toNat else UInt32.size - 1)
  return max step 1

/-- What became of a job in a tick. -/
inductive JobOutcome
  | blocked
  | advanced
  | completed
deriving DecidableEq

structure ProductionSummary where
  advanced : List JobId
  blocked : List JobId
  completed : List JobId
deriving DecidableEq

def setJob (id : JobId) (state : JobState) (progress : UInt32) : Action World Unit :=
  modify fun w => w.modifyJob id fun j => { j with state, progress }

def Job.stockKey (j : Job) (item : ItemId) : StockKey := ⟨j.company, j.region, item⟩

/-- The sum of two words, or the largest word, but not more than `bound`. -/
def advanceTo (progress step bound : UInt32) : UInt32 :=
  UInt32.ofNat (min (progress.toNat + step.toNat) bound.toNat)

/-- Yields the output of a job that has reached its work, or leaves it running. -/
def finishJob (j : Job) (recipe : Recipe) (progress : UInt32) : Action World JobOutcome := do
  if recipe.workRequired ≤ progress then
    let output ← orOverflow (recipe.outputQuantity.mul? j.quantity) .recipeOutput
    World.addStock (j.stockKey recipe.outputItem) output
    setJob j.id .completed progress
    return .completed
  else
    setJob j.id .running progress
    return .advanced

/-- Works on a job that still needs work: draws its inputs, or blocks it. -/
def workOn (j : Job) (recipe : Recipe) (step : UInt32) : Action World JobOutcome := do
  let inputs ← scaledInputs recipe.inputs j.quantity
  let inventory := (← get).inventory
  if inputs.all fun i => inventory.has (j.stockKey i.1) i.2 then
    inputs.forM fun i => World.removeStock (j.stockKey i.1) i.2
    finishJob j recipe (advanceTo j.progress step recipe.workRequired)
  else
    setJob j.id .blocked j.progress
    return .blocked

/-- Evaluates one job. A building that is not active, or not the company's own, blocks it. -/
def advanceJob (id : JobId) (step : UInt32) : Action World JobOutcome := do
  let w ← get
  let j ← w.jobs.require id
  let recipe ← w.recipes.require j.recipe
  let building ← w.buildings.require j.building
  if building.status ≠ .active ∨ building.company ≠ j.company then
    setJob id .blocked j.progress
    return .blocked
  else if j.progress < recipe.workRequired then workOn j recipe step
  else finishJob j recipe j.progress

/-- Evaluates one job at the multipliers of its company. -/
def runJob (multipliers : MultiplierTable) (cfg : ProductionConfig) (id : JobId) :
    Action World (JobId × JobOutcome) := do
  let j ← (← get).jobs.require id
  let step ← progressStep cfg.baseProgressPerTick (multipliers.of j.company).operations
  return (id, ← advanceJob id step)

def World.activeJobs (w : World) : List JobId := (w.jobs.filter (·.state.isActive)).map (·.id)

/-- Evaluates every unfinished job, in the order of the list. -/
def runProduction (multipliers : MultiplierTable) (cfg : ProductionConfig) :
    Action World ProductionSummary := do
  let ids := (← get).activeJobs
  let outcomes ← ids.mapM (runJob multipliers cfg)
  let jobs (o : JobOutcome) := (outcomes.filter (·.2 = o)).map (·.1)
  return ⟨jobs .advanced, jobs .blocked, jobs .completed⟩

end Mercantile
