import Mercantile.Validation
import Mercantile.Proofs.Transfers

/-!
Worlds that fit together. Every operation leaves regions, items, recipes, buildings and the set of
companies as they are (`Ground`), and whatever else a world holds has to refer to that ground and to be in
order itself. `World.Fit` collects these conditions, with the numbering of identifiers, and the lemmas
`Fit.…` say that each elementary change of a world keeps them. Some conditions are asked for only at a
higher `Standard`: the check of snapshots does without them.
-/

namespace Mercantile

/-- What no operation changes, as far as others refer to it. -/
structure Ground where
  regions : List RegionId
  items : List ItemId
  companies : List CompanyId
  recipes : Roster Recipe
  buildings : Roster Building

/-- The ground of a world. -/
def World.ground (w : World) : Ground :=
  ⟨w.regions.map key, w.items.map key, w.companies.map key, w.recipes, w.buildings⟩

/-- How much is asked of jobs, orders and contracts besides references to the ground. -/
structure Standard where
  /-- Jobs are in regions that exist. -/
  located : Prop
  /-- Jobs are in the regions of their buildings. -/
  housed : Prop
  /-- Orders and contracts have positive prices, an order is filled when nothing of it remains, and a
  contract delivers no more than its quantity. -/
  orderly : Prop

/-- All of it is asked. -/
def Standard.full : Standard := ⟨True, True, True⟩

/-- A recipe is about items that exist. -/
structure Recipe.Fit (g : Ground) (r : Recipe) : Prop where
  output : r.outputItem ∈ g.items
  inputs : ∀ i ∈ r.inputs, i.item ∈ g.items

structure Building.Fit (g : Ground) (b : Building) : Prop where
  company : b.company ∈ g.companies
  region : b.region ∈ g.regions

structure Job.Fit (g : Ground) (S : Standard) (j : Job) : Prop where
  company : j.company ∈ g.companies
  building : j.building ∈ g.buildings.map key
  recipe : j.recipe ∈ g.recipes.map key
  region : S.located → j.region ∈ g.regions
  home : S.housed → ∃ b ∈ g.buildings, b.id = j.building ∧ b.region = j.region

/-- What remains of an order is within its quantity. -/
structure Order.Fit (g : Ground) (S : Standard) (o : Order) : Prop where
  company : o.company ∈ g.companies
  region : o.region ∈ g.regions
  item : o.item ∈ g.items
  remaining : o.remaining.toNat ≤ o.quantity.toNat
  price : S.orderly → 0 < o.price.toInt
  filled : S.orderly → (o.status = .filled ↔ o.remaining = 0)

structure Shipment.Fit (g : Ground) (s : Shipment) : Prop where
  company : s.company ∈ g.companies
  origin : s.origin ∈ g.regions
  destination : s.destination ∈ g.regions
  item : s.item ∈ g.items

structure Contract.Fit (g : Ground) (S : Standard) (c : Contract) : Prop where
  seller : c.seller ∈ g.companies
  buyer : ∀ b ∈ c.buyer, b ∈ g.companies
  region : c.region ∈ g.regions
  item : c.item ∈ g.items
  price : S.orderly → 0 < c.price.toInt
  fulfilled : S.orderly → c.fulfilled.toNat ≤ c.quantity.toNat

structure Allocation.Fit (g : Ground) (a : Allocation) : Prop where
  company : a.company ∈ g.companies
  whole : a.check = .ok ()

theorem Allocation.check_ok {a : Allocation} : a.check = .ok () ↔
    a.operations.toNat + a.research.toNat + a.logistics.toNat + a.corporate.toNat = 100 := by
  simp only [check, checkSum, percentages, List.map_cons, List.map_nil, List.foldr_cons, List.foldr_nil,
    ← Nat.add_assoc, Nat.add_zero]
  simp

structure StockKey.Fit (g : Ground) (k : StockKey) : Prop where
  company : k.company ∈ g.companies
  region : k.region ∈ g.regions
  item : k.item ∈ g.items

open Roster (UpTo)

namespace World

/-- All identifiers are in ascending order and none is above `n`. -/
structure Numbered (n : UInt64) (w : World) : Prop where
  regions : UpTo n w.regions
  items : UpTo n w.items
  recipes : UpTo n w.recipes
  companies : UpTo n w.companies
  buildings : UpTo n w.buildings
  jobs : UpTo n w.jobs
  orders : UpTo n w.orders
  trades : UpTo n w.trades
  shipments : UpTo n w.shipments
  contracts : UpTo n w.contracts

theorem Numbered.mono {n m : UInt64} {w : World} (h : w.Numbered n) (hnm : n.toNat ≤ m.toNat) :
    w.Numbered m where
  regions := h.regions.mono hnm
  items := h.items.mono hnm
  recipes := h.recipes.mono hnm
  companies := h.companies.mono hnm
  buildings := h.buildings.mono hnm
  jobs := h.jobs.mono hnm
  orders := h.orders.mono hnm
  trades := h.trades.mono hnm
  shipments := h.shipments.mono hnm
  contracts := h.contracts.mono hnm

/-- A world on the ground `g` in which everything is numbered, refers to the ground and meets the standard
`S`. -/
structure Fit (g : Ground) (S : Standard) (w : World) : Prop where
  ground : w.ground = g
  numbered : w.Numbered w.nextId
  allocated : w.allocations.Ascending
  recipe : ∀ r ∈ g.recipes, r.Fit g
  building : ∀ b ∈ g.buildings, b.Fit g
  job : ∀ j ∈ w.jobs, j.Fit g S
  order : ∀ o ∈ w.orders, o.Fit g S
  shipment : ∀ s ∈ w.shipments, s.Fit g
  contract : ∀ c ∈ w.contracts, c.Fit g S
  allocation : ∀ a ∈ w.allocations, a.Fit g
  stock : ∀ b ∈ w.inventory.balances, b.key.Fit g

namespace Fit

variable {g : Ground} {S : Standard} {w w' : World}

theorem company_of_get? (h : w.Fit g S) {i : CompanyId} {c : Company} (hc : w.companies.get? i = some c) :
    i ∈ g.companies := by
  rw [← h.ground, ← Roster.key_of_get? hc]
  exact List.mem_map_of_mem (Roster.mem_of_get? hc)

theorem region_of_get? (h : w.Fit g S) {i : RegionId} {r : Region} (hr : w.regions.get? i = some r) :
    i ∈ g.regions := by
  rw [← h.ground, ← Roster.key_of_get? hr]
  exact List.mem_map_of_mem (Roster.mem_of_get? hr)

theorem item_of_get? (h : w.Fit g S) {i : ItemId} {x : Item} (hx : w.items.get? i = some x) :
    i ∈ g.items := by
  rw [← h.ground, ← Roster.key_of_get? hx]
  exact List.mem_map_of_mem (Roster.mem_of_get? hx)

/-- Moving money keeps everything but the companies, and of those the identifiers. -/
theorem moved (h : w.Fit g S) (hm : w.MoneyMoved w') : w'.Fit g S := by
  have hcompanies : UpTo w.nextId w'.companies := h.numbered.companies.congr hm.keys
  obtain ⟨hframe, hids⟩ := hm
  have hground : w'.ground = g := by
    rw [← h.ground, hframe]
    exact congrArg (fun ids => (⟨w.regions.map key, w.items.map key, ids, w.recipes, w.buildings⟩ : Ground))
      hids
  rw [hframe] at hground ⊢
  exact { h with ground := hground, numbered := { h.numbered with companies := hcompanies } }

theorem withInventory (h : w.Fit g S) {inv : Inventory}
    (hinv : ∀ b ∈ inv.balances, b ∈ w.inventory.balances ∨ b.key.Fit g) :
    { w with inventory := inv }.Fit g S :=
  { h with
    numbered := { h.numbered with }
    stock := fun b hb => (hinv b hb).elim (h.stock b) id }

theorem addStock (h : w.Fit g S) {k : StockKey} {q : Quantity} {inv : Inventory} (hk : k.Fit g)
    (hinv : w.inventory.add k q = .ok inv) : { w with inventory := inv }.Fit g S := by
  obtain ⟨total, -, rfl⟩ := Inventory.add_ok.1 hinv
  refine h.withInventory fun b hb => ?_
  rcases Inventory.mem_set hb with hb | hb
  · exact Or.inl hb
  · exact Or.inr (hb ▸ hk)

theorem removeStock (h : w.Fit g S) {k : StockKey} {q : Quantity} {inv : Inventory}
    (hinv : w.inventory.remove k q = .ok inv) : { w with inventory := inv }.Fit g S := by
  refine h.withInventory fun b hb => ?_
  obtain ⟨b', hb', hkey⟩ := Inventory.mem_remove hinv hb
  exact Or.inr (hkey ▸ h.stock b' hb')

theorem appendOrder (h : w.Fit g S) {o : Order} (hid : w.nextId.toNat < o.id.toNat) (ho : o.Fit g S) :
    { w with nextId := o.id.val, orders := w.orders ++ [o] }.Fit g S := by
  have hn := h.numbered.mono (Nat.le_of_lt hid)
  exact
    { h with
      numbered := { hn with orders := h.numbered.orders.append hid (Nat.le_refl _) }
      order := fun p hp => (List.mem_append.1 hp).elim (h.order p) fun hp => List.mem_singleton.1 hp ▸ ho }

theorem appendContract (h : w.Fit g S) {c : Contract} (hid : w.nextId.toNat < c.id.toNat)
    (hc : c.Fit g S) : { w with nextId := c.id.val, contracts := w.contracts ++ [c] }.Fit g S := by
  have hn := h.numbered.mono (Nat.le_of_lt hid)
  exact
    { h with
      numbered := { hn with contracts := h.numbered.contracts.append hid (Nat.le_refl _) }
      contract := fun p hp =>
        (List.mem_append.1 hp).elim (h.contract p) fun hp => List.mem_singleton.1 hp ▸ hc }

theorem appendJob (h : w.Fit g S) {j : Job} (hid : w.nextId.toNat < j.id.toNat) (hj : j.Fit g S) :
    { w with nextId := j.id.val, jobs := w.jobs ++ [j] }.Fit g S := by
  have hn := h.numbered.mono (Nat.le_of_lt hid)
  exact
    { h with
      numbered := { hn with jobs := h.numbered.jobs.append hid (Nat.le_refl _) }
      job := fun p hp => (List.mem_append.1 hp).elim (h.job p) fun hp => List.mem_singleton.1 hp ▸ hj }

theorem appendShipment (h : w.Fit g S) {s : Shipment} (hid : w.nextId.toNat < s.id.toNat)
    (hs : s.Fit g) : { w with nextId := s.id.val, shipments := w.shipments ++ [s] }.Fit g S := by
  have hn := h.numbered.mono (Nat.le_of_lt hid)
  exact
    { h with
      numbered := { hn with shipments := h.numbered.shipments.append hid (Nat.le_refl _) }
      shipment := fun p hp =>
        (List.mem_append.1 hp).elim (h.shipment p) fun hp => List.mem_singleton.1 hp ▸ hs }

/-- Trades that got their numbers after everything else are filed behind the others. -/
theorem appendTrades (h : w.Fit g S) {trades : List Trade} (hfit : UpTo w.nextId trades)
    (hnew : ∀ t ∈ trades, ∀ t' ∈ w.trades, t'.id.toNat < t.id.toNat) :
    { w with trades := w.trades ++ trades }.Fit g S :=
  { h with numbered := { h.numbered with trades := h.numbered.trades.appendAll hfit hnew } }

theorem retainRecentTrades (h : w.Fit g S) (now : Tick) (window : UInt64) :
    (w.retainRecentTrades now window).Fit g S :=
  { h with numbered := { h.numbered with trades := h.numbered.trades.filter _ } }

/-- A number is skipped, or handed out to something that is not kept with the world. -/
theorem withNextId (h : w.Fit g S) {n : UInt64} (hn : w.nextId.toNat ≤ n.toNat) :
    { w with nextId := n }.Fit g S :=
  { h with numbered := { h.numbered.mono hn with } }

theorem withClock (h : w.Fit g S) (clock : Clock) : { w with clock }.Fit g S :=
  { h with numbered := { h.numbered with } }

theorem withMarketPool (h : w.Fit g S) (pool : Cents) : { w with marketPool := pool }.Fit g S :=
  { h with numbered := { h.numbered with } }

theorem putAllocation (h : w.Fit g S) {a : Allocation} (ha : a.Fit g) : (w.putAllocation a).Fit g S :=
  { h with
    numbered := { h.numbered with }
    allocated := h.allocated.put a
    allocation := fun b hb => (Roster.mem_put hb).elim (fun hba => hba ▸ ha) (h.allocation b) }

theorem modifyOrder (h : w.Fit g S) {i : OrderId} {f : Order → Order} (hf : ∀ o, (f o).id = o.id)
    (hfit : ∀ o, w.orders.get? i = some o → o.Fit g S → (f o).Fit g S) : (w.modifyOrder i f).Fit g S :=
  { h with
    numbered := { h.numbered with orders := h.numbered.orders.modify i hf }
    order := fun p hp => by
      rcases Roster.mem_modify hp with hp | ⟨o, ho, rfl⟩
      · exact h.order p hp
      · exact hfit o ho (h.order o (Roster.mem_of_get? ho)) }

theorem modifyContract (h : w.Fit g S) {id : ContractId} {f : Contract → Contract}
    (hf : ∀ c, (f c).id = c.id)
    (hfit : ∀ c, w.contracts.get? id = some c → c.Fit g S → (f c).Fit g S) :
    (w.modifyContract id f).Fit g S :=
  { h with
    numbered := { h.numbered with contracts := h.numbered.contracts.modify id hf }
    contract := fun p hp => by
      rcases Roster.mem_modify hp with hp | ⟨c, hc, rfl⟩
      · exact h.contract p hp
      · exact hfit c hc (h.contract c (Roster.mem_of_get? hc)) }

theorem modifyJob (h : w.Fit g S) {id : JobId} {f : Job → Job} (hf : ∀ j, (f j).id = j.id)
    (hfit : ∀ j, j.Fit g S → (f j).Fit g S) : (w.modifyJob id f).Fit g S :=
  { h with
    numbered := { h.numbered with jobs := h.numbered.jobs.modify id hf }
    job := fun p hp => by
      rcases Roster.mem_modify hp with hp | ⟨j, hj, rfl⟩
      · exact h.job p hp
      · exact hfit j (h.job j (Roster.mem_of_get? hj)) }

theorem modifyShipment (h : w.Fit g S) {id : ShipmentId} {f : Shipment → Shipment}
    (hf : ∀ s, (f s).id = s.id) (hfit : ∀ s, s.Fit g → (f s).Fit g) : (w.modifyShipment id f).Fit g S :=
  { h with
    numbered := { h.numbered with shipments := h.numbered.shipments.modify id hf }
    shipment := fun p hp => by
      rcases Roster.mem_modify hp with hp | ⟨s, hs, rfl⟩
      · exact h.shipment p hp
      · exact hfit s (h.shipment s (Roster.mem_of_get? hs)) }

end Fit

end World

end Mercantile
