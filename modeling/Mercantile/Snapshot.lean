import Mercantile.Json.Coded
import Mercantile.World

/-!
The document of a world, which is what a store keeps.
-/

namespace Mercantile.Coded

instance {kind : EntityKind} : Coded (Id kind) where
  encode i := encode i.val
  decode? j := (decode? j).map Id.mk

instance : Coded BuildingStatus where
  encode s := .str s.name
  decode? := decodeName? [.active, .inactive] BuildingStatus.name

instance : Coded JobState where
  encode s := .str s.name
  decode? := decodeName? [.queued, .running, .blocked, .completed, .cancelled] JobState.name

instance : Coded OrderSide where
  encode s := .str s.name
  decode? := decodeName? [.buy, .sell] OrderSide.name

instance : Coded OrderStatus where
  encode s := .str s.name
  decode? := decodeName? [.unfilled, .partiallyFilled, .filled, .cancelled] OrderStatus.name

instance : Coded ShipmentStatus where
  encode s := .str s.name
  decode? := decodeName? [.inTransit, .delivered, .cancelled] ShipmentStatus.name

instance : Coded ContractStatus where
  encode s := .str s.name
  decode? := decodeName? [.unfulfilled, .partiallyFulfilled, .fulfilled, .cancelled]
    ContractStatus.name

instance : Coded Clock where
  encode c := .obj [("current_tick", encode c.currentTick), ("lock_version", encode c.lockVersion),
    ("last_advanced_at", encode c.lastAdvancedAt)]
  decode? j := do
    let [tick, version, advanced] ← j.record? ["current_tick", "lock_version", "last_advanced_at"] | none
    return ⟨← needed tick, ← needed version, ← optional advanced⟩

instance : Coded Region where
  encode r := .obj [("id", encode r.id), ("name", encode r.name)]
  decode? j := do
    let [id, name] ← j.record? ["id", "name"] | none
    return ⟨← needed id, ← needed name⟩

instance : Coded Item where
  encode i := .obj [("id", encode i.id), ("name", encode i.name)]
  decode? j := do
    let [id, name] ← j.record? ["id", "name"] | none
    return ⟨← needed id, ← needed name⟩

instance : Coded Company where
  encode c := .obj [("id", encode c.id), ("name", encode c.name), ("cash_cents", encode c.cash),
    ("reserved_cash_cents", encode c.reserved), ("is_bot", encode c.isBot)]
  decode? j := do
    let [id, name, cash, reserved, isBot] ← j.record?
      ["id", "name", "cash_cents", "reserved_cash_cents", "is_bot"] | none
    return ⟨← needed id, ← needed name, ← needed cash, ← needed reserved, ← needed isBot⟩

instance : Coded Building where
  encode b := .obj [("id", encode b.id), ("company_id", encode b.company),
    ("region_id", encode b.region), ("kind", encode b.kind), ("status", encode b.status),
    ("capacity", encode b.capacity)]
  decode? j := do
    let [id, company, region, kind, status, capacity] ← j.record?
      ["id", "company_id", "region_id", "kind", "status", "capacity"] | none
    return ⟨← needed id, ← needed company, ← needed region, ← needed kind, ← needed status,
      ← needed capacity⟩

instance : Coded RecipeInput where
  encode i := .obj [("item_id", encode i.item), ("quantity", encode i.quantity)]
  decode? j := do
    let [item, quantity] ← j.record? ["item_id", "quantity"] | none
    return ⟨← needed item, ← needed quantity⟩

instance : Coded Recipe where
  encode r := .obj [("id", encode r.id), ("name", encode r.name),
    ("building_kind", encode r.buildingKind), ("inputs", encode r.inputs),
    ("output_item", encode r.outputItem), ("output_quantity", encode r.outputQuantity),
    ("work_required", encode r.workRequired)]
  decode? j := do
    let [id, name, kind, inputs, item, quantity, work] ← j.record?
      ["id", "name", "building_kind", "inputs", "output_item", "output_quantity",
        "work_required"] | none
    return ⟨← needed id, ← needed name, ← needed kind, ← needed inputs, ← needed item,
      ← needed quantity, ← needed work⟩

instance : Coded Job where
  encode j := .obj [("id", encode j.id), ("company_id", encode j.company),
    ("building_id", encode j.building), ("region_id", encode j.region),
    ("recipe_id", encode j.recipe), ("quantity", encode j.quantity),
    ("progress", encode j.progress), ("state", encode j.state),
    ("created_tick", encode j.createdTick)]
  decode? j := do
    let [id, company, building, region, recipe, quantity, progress, state, tick] ← j.record?
      ["id", "company_id", "building_id", "region_id", "recipe_id", "quantity", "progress",
        "state", "created_tick"] | none
    return ⟨← needed id, ← needed company, ← needed building, ← needed region, ← needed recipe,
      ← needed quantity, ← needed progress, ← needed state, ← needed tick⟩

instance : Coded Order where
  encode o := .obj [("id", encode o.id), ("company_id", encode o.company),
    ("region_id", encode o.region), ("item_id", encode o.item), ("side", encode o.side),
    ("price_cents", encode o.price), ("quantity", encode o.quantity),
    ("remaining", encode o.remaining), ("status", encode o.status),
    ("created_tick", encode o.createdTick)]
  decode? j := do
    let [id, company, region, item, side, price, quantity, remaining, status, tick] ← j.record?
      ["id", "company_id", "region_id", "item_id", "side", "price_cents", "quantity",
        "remaining", "status", "created_tick"] | none
    return ⟨← needed id, ← needed company, ← needed region, ← needed item, ← needed side,
      ← needed price, ← needed quantity, ← needed remaining, ← needed status, ← needed tick⟩

instance : Coded Trade where
  encode t := .obj [("id", encode t.id), ("tick", encode t.tick), ("region_id", encode t.region),
    ("item_id", encode t.item), ("price_cents", encode t.price), ("quantity", encode t.quantity),
    ("buyer_company_id", encode t.buyer), ("seller_company_id", encode t.seller),
    ("buy_order_id", encode t.buyOrder), ("sell_order_id", encode t.sellOrder)]
  decode? j := do
    let [id, tick, region, item, price, quantity, buyer, seller, buyOrder, sellOrder] ← j.record?
      ["id", "tick", "region_id", "item_id", "price_cents", "quantity", "buyer_company_id",
        "seller_company_id", "buy_order_id", "sell_order_id"] | none
    return ⟨← needed id, ← needed tick, ← needed region, ← needed item, ← needed price,
      ← needed quantity, ← needed buyer, ← needed seller, ← needed buyOrder, ← needed sellOrder⟩

instance : Coded Shipment where
  encode s := .obj [("id", encode s.id), ("company_id", encode s.company),
    ("from_region_id", encode s.origin), ("to_region_id", encode s.destination),
    ("item_id", encode s.item), ("quantity", encode s.quantity), ("status", encode s.status),
    ("created_tick", encode s.createdTick), ("eta_tick", encode s.etaTick)]
  decode? j := do
    let [id, company, origin, destination, item, quantity, status, tick, eta] ← j.record?
      ["id", "company_id", "from_region_id", "to_region_id", "item_id", "quantity", "status",
        "created_tick", "eta_tick"] | none
    return ⟨← needed id, ← needed company, ← needed origin, ← needed destination, ← needed item,
      ← needed quantity, ← needed status, ← needed tick, ← needed eta⟩

instance : Coded Contract where
  encode c := .obj [("id", encode c.id), ("seller_company_id", encode c.seller),
    ("buyer_company_id", encode c.buyer), ("region_id", encode c.region),
    ("item_id", encode c.item), ("quantity", encode c.quantity), ("fulfilled", encode c.fulfilled),
    ("price_cents", encode c.price), ("status", encode c.status),
    ("created_tick", encode c.createdTick)]
  decode? j := do
    let [id, seller, buyer, region, item, quantity, fulfilled, price, status, tick] ← j.record?
      ["id", "seller_company_id", "buyer_company_id", "region_id", "item_id", "quantity",
        "fulfilled", "price_cents", "status", "created_tick"] | none
    return ⟨← needed id, ← needed seller, ← optional buyer, ← needed region, ← needed item,
      ← needed quantity, ← needed fulfilled, ← needed price, ← needed status, ← needed tick⟩

instance : Coded Allocation where
  encode a := .obj [("company_id", encode a.company), ("operations_pct", encode a.operations),
    ("research_pct", encode a.research), ("logistics_pct", encode a.logistics),
    ("corporate_pct", encode a.corporate)]
  decode? j := do
    let [company, operations, research, logistics, corporate] ← j.record?
      ["company_id", "operations_pct", "research_pct", "logistics_pct", "corporate_pct"] | none
    return ⟨← needed company, ← needed operations, ← needed research, ← needed logistics,
      ← needed corporate⟩

instance : Coded Balance where
  encode b := .obj [("company_id", encode b.key.company), ("region_id", encode b.key.region),
    ("item_id", encode b.key.item), ("quantity", encode b.quantity)]
  decode? j := do
    let [company, region, item, quantity] ← j.record?
      ["company_id", "region_id", "item_id", "quantity"] | none
    return ⟨⟨← needed company, ← needed region, ← needed item⟩, ← needed quantity⟩

/-- The balances as a list; on the way back zeros are dropped and repeated places are added up. -/
instance : Coded Inventory where
  encode inv := encode inv.balances
  decode? j := (decode? j).map Inventory.ofBalances

/-- The names of the parts of a world, in the order in which they are written. -/
def worldNames : List String :=
  ["clock", "regions", "items", "recipes", "companies", "buildings", "jobs", "orders", "trades",
    "shipments", "contracts", "allocations", "inventory", "market_pool_cents", "next_id"]

instance : Coded World where
  encode w := .obj [("clock", encode w.clock), ("regions", encode w.regions),
    ("items", encode w.items), ("recipes", encode w.recipes), ("companies", encode w.companies),
    ("buildings", encode w.buildings), ("jobs", encode w.jobs), ("orders", encode w.orders),
    ("trades", encode w.trades), ("shipments", encode w.shipments),
    ("contracts", encode w.contracts), ("allocations", encode w.allocations),
    ("inventory", encode w.inventory), ("market_pool_cents", encode w.marketPool),
    ("next_id", encode w.nextId)]
  decode? j := do
    let [clock, regions, items, recipes, companies, buildings, jobs, orders, trades, shipments,
      contracts, allocations, inventory, pool, nextId] ← j.record? worldNames | none
    return {
      clock := ← needed clock
      regions := ← needed regions
      items := ← needed items
      recipes := ← needed recipes
      companies := ← needed companies
      buildings := ← needed buildings
      jobs := ← needed jobs
      orders := ← needed orders
      trades := ← needed trades
      shipments := ← needed shipments
      contracts := ← needed contracts
      allocations := ← needed allocations
      inventory := ← needed inventory
      marketPool := ← needed pool
      nextId := ← needed nextId }

end Mercantile.Coded
