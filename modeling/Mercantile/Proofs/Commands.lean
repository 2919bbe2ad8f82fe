import Mercantile.Market.Placement
import Mercantile.Contract
import Mercantile.Production
import Mercantile.Shipment
import Mercantile.Proofs.Transfers

/-!
The nine commands as data (`Command`), and what each does when it succeeds. The lemmas `…_ok` say all of
it: what the plan checked, which company or stock was drawn on, and the world that is left, down to the
entity that was appended or closed.
-/

namespace Mercantile

/-- A command that changes the world outside of ticks. -/
inductive Command
  | placeOrder (r : OrderRequest)
  | cancelOrder (id : OrderId)
  | createContract (r : ContractRequest)
  | cancelContract (id : ContractId)
  | startJob (r : JobRequest)
  | cancelJob (id : JobId)
  | createShipment (r : ShipmentRequest)
  | cancelShipment (id : ShipmentId)
  | setAllocation (a : Allocation)

/-- Carries out a command; the identifier that some of them answer with is dropped. -/
def Command.act (cfg : EngineConfig) : Command → Action World Unit
  | .placeOrder r => (fun _ => ()) <$> Mercantile.placeOrder r
  | .cancelOrder id => Mercantile.cancelOrder id
  | .createContract r => (fun _ => ()) <$> Mercantile.createContract r
  | .cancelContract id => Mercantile.cancelContract id
  | .startJob r => (fun _ => ()) <$> Mercantile.startJob r
  | .cancelJob id => Mercantile.cancelJob id
  | .createShipment r => (fun _ => ()) <$> Mercantile.createShipment r cfg.logistics
  | .cancelShipment id => Mercantile.cancelShipment id
  | .setAllocation a => Mercantile.setAllocation a

/-- The order that a request turns into. -/
def OrderRequest.order (r : OrderRequest) (id : OrderId) (tick : Tick) : Order :=
  ⟨id, r.company, r.region, r.item, r.side, r.price, r.quantity, r.quantity, .unfilled, tick⟩

/-- The contract that a request turns into. -/
def ContractRequest.contract (r : ContractRequest) (id : ContractId) (tick : Tick) : Contract :=
  ⟨id, r.seller, r.buyer, r.region, r.item, r.quantity, 0, r.price, .unfulfilled, tick⟩

/-- The job that a request turns into, in the region of its building. -/
def JobRequest.job (r : JobRequest) (id : JobId) (region : RegionId) (tick : Tick) : Job :=
  ⟨id, r.company, r.building, region, r.recipe, r.quantity, 0, .queued, tick⟩

/-- The shipment that a request turns into. -/
def ShipmentRequest.shipment (r : ShipmentRequest) (id : ShipmentId) (tick eta : Tick) : Shipment :=
  ⟨id, r.company, r.origin, r.destination, r.item, r.quantity, .inTransit, tick, eta⟩

variable {w w' : World} {u : Unit}

theorem planOrder_ok {r : OrderRequest} {plan : OrderPlan} (h : planOrder w r = .ok plan) :
    ¬ r.price ≤ 0 ∧ r.quantity ≠ 0 ∧ (∃ c, w.companies.get? r.company = some c) ∧
      (∃ g, w.regions.get? r.region = some g) ∧ (∃ i, w.items.get? r.item = some i) ∧
      ∃ total, notional r.price r.quantity = .ok total ∧
        (r.side = .buy ∧ plan.reserve = total ∨ r.side = .sell ∧ plan.escrow = r.quantity) := by
  simp only [planOrder, Check.unless_ok, Check.bind_ok, Roster.require_ok] at h
  obtain ⟨hprice, hquantity, c, hc, g, hg, i, hi, total, htotal, h⟩ := h
  refine ⟨hprice, hquantity, ⟨c, hc⟩, ⟨g, hg⟩, ⟨i, hi⟩, total, htotal, ?_⟩
  split at h
  · next hside =>
    simp only [Check.unless_ok, Check.pure_ok] at h
    exact Or.inl ⟨hside, by rw [h.2]⟩
  · next hside =>
    simp only [Check.unless_ok, Check.pure_ok] at h
    exact Or.inr ⟨hside, by rw [h.2]⟩

/-- A placed order is backed by reserved cash or by goods taken out of the stock. -/
theorem placeOrder_ok {r : OrderRequest} {id : OrderId} (h : (placeOrder r).run w = .ok id w') :
    ¬ r.price ≤ 0 ∧ r.quantity ≠ 0 ∧ (∃ c, w.companies.get? r.company = some c) ∧
      (∃ g, w.regions.get? r.region = some g) ∧ (∃ i, w.items.get? r.item = some i) ∧
      ∃ total w₁, notional r.price r.quantity = .ok total ∧
        (r.side = .buy ∧ (Ledger.reserve r.company total).run w = .ok () w₁ ∨
          r.side = .sell ∧ (World.removeStock r.stockKey r.quantity).run w = .ok () w₁) ∧
        id.toNat = w₁.nextId.toNat + 1 ∧
        w' = { w₁ with
          nextId := id.val, orders := w₁.orders ++ [r.order id w₁.clock.currentTick] } := by
  simp only [placeOrder, Action.bind_ok, Action.observe_ok, Action.modify_ok, Action.pure_ok,
    World.allocateId_ok] at h
  obtain ⟨plan, _, ⟨hplan, rfl⟩, _, w₁, hback, i, _, ⟨hi, rfl⟩, _, _, rfl, rfl, rfl⟩ := h
  obtain ⟨hprice, hquantity, hc, hg, hitem, total, htotal, hside⟩ := planOrder_ok hplan
  refine ⟨hprice, hquantity, hc, hg, hitem, total, w₁, htotal, ?_, hi, rfl⟩
  rcases hside with ⟨hbuy, hplan⟩ | ⟨hsell, hplan⟩
  · rw [backOrder, hbuy, hplan] at hback
    exact Or.inl ⟨hbuy, hback⟩
  · rw [backOrder, hsell, hplan] at hback
    exact Or.inr ⟨hsell, hback⟩

/-- A cancelled order gives back what it still held. -/
theorem cancelOrder_ok {id : OrderId} (h : (cancelOrder id).run w = .ok u w') :
    ∃ o w₁, w.orders.get? id = some o ∧ o.status.isOpen ∧
      (o.side = .buy ∧ (∃ amount, notional o.price o.remaining = .ok amount ∧
          (Ledger.release o.company amount).run w = .ok () w₁) ∨
        o.side = .sell ∧ (World.addStock o.stockKey o.remaining).run w = .ok () w₁) ∧
      w' = w₁.modifyOrder id fun o => { o with status := .cancelled } := by
  simp only [cancelOrder, Action.bind_ok, Action.observe_ok, Action.modify_ok, cancellableOrder,
    Check.bind_ok, Roster.require_ok, Check.unless_ok, Check.pure_ok] at h
  obtain ⟨_, _, ⟨⟨o, ho, hopen, rfl⟩, rfl⟩, _, w₁, hrelease, rfl⟩ := h
  refine ⟨_, w₁, ho, by simpa using hopen, ?_, rfl⟩
  unfold releaseOrder at hrelease
  split at hrelease
  · next hside =>
    simp only [Action.bind_ok, Action.lift_ok] at hrelease
    obtain ⟨amount, _, ⟨hamount, rfl⟩, hrelease⟩ := hrelease
    exact Or.inl ⟨hside, amount, hamount, hrelease⟩
  · next hside => exact Or.inr ⟨hside, hrelease⟩

theorem planContract_ok {r : ContractRequest} {amount : Cents} (h : planContract w r = .ok amount) :
    ¬ (r.price ≤ 0 ∨ r.quantity = 0) ∧ r.buyer ≠ some r.seller ∧
      (∃ c, w.companies.get? r.seller = some c) ∧ (∃ g, w.regions.get? r.region = some g) ∧
      (∃ i, w.items.get? r.item = some i) ∧ ∃ total, notional r.price r.quantity = .ok total ∧
        (r.buyer = none ∨ ∃ buyer c, r.buyer = some buyer ∧ w.companies.get? buyer = some c ∧
          amount = total) := by
  simp only [planContract, Check.unless_ok, Check.bind_ok, Roster.require_ok] at h
  obtain ⟨hterms, hparties, c, hc, g, hg, i, hi, total, htotal, h⟩ := h
  refine ⟨hterms, hparties, ⟨c, hc⟩, ⟨g, hg⟩, ⟨i, hi⟩, total, htotal, ?_⟩
  split at h
  · next buyer hbuyer =>
    simp only [Check.bind_ok, Roster.require_ok, Check.unless_ok, Check.pure_ok] at h
    obtain ⟨b, hb, -, rfl⟩ := h
    exact Or.inr ⟨buyer, b, hbuyer, hb, rfl⟩
  · next hnone => exact Or.inl hnone

/-- A contract with a buyer is backed by the buyer's reserved cash. -/
theorem createContract_ok {r : ContractRequest} {id : ContractId}
    (h : (createContract r).run w = .ok id w') :
    ¬ (r.price ≤ 0 ∨ r.quantity = 0) ∧ r.buyer ≠ some r.seller ∧
      (∃ c, w.companies.get? r.seller = some c) ∧ (∃ g, w.regions.get? r.region = some g) ∧
      (∃ i, w.items.get? r.item = some i) ∧ ∃ total w₁, notional r.price r.quantity = .ok total ∧
        (r.buyer = none ∧ w₁ = w ∨ ∃ buyer c, r.buyer = some buyer ∧
          w.companies.get? buyer = some c ∧ (Ledger.reserve buyer total).run w = .ok () w₁) ∧
        id.toNat = w₁.nextId.toNat + 1 ∧
        w' = { w₁ with
          nextId := id.val, contracts := w₁.contracts ++ [r.contract id w₁.clock.currentTick] } := by
  simp only [createContract, Action.bind_ok, Action.observe_ok, Action.modify_ok, Action.pure_ok,
    World.allocateId_ok] at h
  obtain ⟨amount, _, ⟨hplan, rfl⟩, _, w₁, hback, i, _, ⟨hi, rfl⟩, _, _, rfl, rfl, rfl⟩ := h
  obtain ⟨hterms, hparties, hc, hg, hitem, total, htotal, hbuyer⟩ := planContract_ok hplan
  refine ⟨hterms, hparties, hc, hg, hitem, total, w₁, htotal, ?_, hi, rfl⟩
  rcases hbuyer with hnone | ⟨buyer, c, hsome, hb, rfl⟩
  · rw [backContract, hnone, Action.pure_ok] at hback
    exact Or.inl ⟨hnone, hback.2⟩
  · rw [backContract, hsome] at hback
    exact Or.inr ⟨buyer, c, hsome, hb, hback⟩

/-- A cancelled contract gives its buyer back what was still set aside. -/
theorem cancelContract_ok {id : ContractId} (h : (cancelContract id).run w = .ok u w') :
    ∃ c w₁, w.contracts.get? id = some c ∧ c.status.isOpen ∧
      (c.buyer = none ∧ w₁ = w ∨ ∃ buyer amount, c.buyer = some buyer ∧
        notional c.price c.outstanding = .ok amount ∧
        (Ledger.release buyer amount).run w = .ok () w₁) ∧
      w' = w₁.modifyContract id fun c => { c with status := .cancelled } := by
  simp only [cancelContract, Action.bind_ok, Action.observe_ok, Action.modify_ok, cancellableContract,
    Check.bind_ok, Roster.require_ok, Check.unless_ok, Check.pure_ok] at h
  obtain ⟨_, _, ⟨⟨c, hc, hopen, rfl⟩, rfl⟩, _, w₁, hrelease, rfl⟩ := h
  refine ⟨_, w₁, hc, by simpa using hopen, ?_, rfl⟩
  unfold releaseContract at hrelease
  split at hrelease
  · next buyer hbuyer =>
    simp only [Action.bind_ok, Action.lift_ok] at hrelease
    obtain ⟨amount, _, ⟨hamount, rfl⟩, hrelease⟩ := hrelease
    exact Or.inr ⟨buyer, amount, hbuyer, hamount, hrelease⟩
  · next hnone => exact Or.inl ⟨hnone, (Action.pure_ok.1 hrelease).2⟩

theorem planJob_ok {r : JobRequest} {plan : JobPlan} (h : planJob w r = .ok plan) :
    r.quantity ≠ 0 ∧ (∃ c, w.companies.get? r.company = some c) ∧
      ∃ building recipe, w.buildings.get? r.building = some building ∧
        w.recipes.get? r.recipe = some recipe ∧ building.company = r.company ∧
        building.status = .active ∧ building.kind = recipe.buildingKind ∧
        ¬ building.capacity ≤ activeJobsIn w building.id ∧
        scaledInputs recipe.inputs r.quantity = .ok plan.inputsPerTick ∧
        plan.region = building.region := by
  simp only [planJob, Check.unless_ok, Check.bind_ok, Roster.require_ok, Check.pure_ok, ne_eq,
    not_not] at h
  obtain ⟨hquantity, c, hc, building, hb, recipe, hr, howner, hactive, hkind, hroom, inputs, hinputs,
    _, _, rfl⟩ := h
  exact ⟨hquantity, ⟨c, hc⟩, building, recipe, hb, hr, howner, hactive, hkind, hroom, hinputs, rfl⟩

/-- A started job is queued in the region of its building, and nothing is drawn yet. -/
theorem startJob_ok {r : JobRequest} {id : JobId} (h : (startJob r).run w = .ok id w') :
    r.quantity ≠ 0 ∧ (∃ c, w.companies.get? r.company = some c) ∧
      ∃ building recipe inputs, w.buildings.get? r.building = some building ∧
        w.recipes.get? r.recipe = some recipe ∧ building.company = r.company ∧
        building.status = .active ∧ building.kind = recipe.buildingKind ∧
        ¬ building.capacity ≤ activeJobsIn w building.id ∧
        scaledInputs recipe.inputs r.quantity = .ok inputs ∧
        id.toNat = w.nextId.toNat + 1 ∧
        w' = { w with
          nextId := id.val, jobs := w.jobs ++ [r.job id building.region w.clock.currentTick] } := by
  simp only [startJob, Action.bind_ok, Action.observe_ok, Action.modify_ok, Action.pure_ok,
    World.allocateId_ok] at h
  obtain ⟨plan, _, ⟨hplan, rfl⟩, i, _, ⟨hi, rfl⟩, _, _, rfl, rfl, rfl⟩ := h
  obtain ⟨hquantity, hc, building, recipe, hb, hr, howner, hactive, hkind, hroom, hinputs, hregion⟩ :=
    planJob_ok hplan
  exact ⟨hquantity, hc, building, recipe, plan.inputsPerTick, hb, hr, howner, hactive, hkind, hroom,
    hinputs, hi, by rw [← hregion]; rfl⟩

theorem cancelJob_ok {id : JobId} (h : (cancelJob id).run w = .ok u w') :
    ∃ j, w.jobs.get? id = some j ∧ j.state.isActive ∧
      w' = w.modifyJob id fun j => { j with state := .cancelled } := by
  simp only [cancelJob, Action.update_ok, Check.bind_ok, Roster.require_ok, Check.unless_ok,
    Check.pure_ok] at h
  obtain ⟨j, hj, hactive, rfl⟩ := h
  exact ⟨j, hj, by simpa using hactive, rfl⟩

theorem planShipment_ok {r : ShipmentRequest} {cfg : LogisticsConfig} {eta : Tick}
    (h : planShipment w r cfg = .ok eta) :
    r.quantity ≠ 0 ∧ r.origin ≠ r.destination ∧ ¬ r.transit < max cfg.minTransitTicks 1 ∧
      (∃ c, w.companies.get? r.company = some c) ∧ (∃ g, w.regions.get? r.origin = some g) ∧
      (∃ g, w.regions.get? r.destination = some g) ∧ (∃ i, w.items.get? r.item = some i) ∧
      eta.toNat = w.clock.currentTick.toNat + r.transit.toNat := by
  simp only [planShipment, Check.unless_ok, Check.bind_ok, Roster.require_ok, orFail_ok,
    UInt64.add?_eq_some] at h
  obtain ⟨hquantity, hroute, htransit, c, hc, g, hg, d, hd, i, hi, -, heta⟩ := h
  exact ⟨hquantity, hroute, htransit, ⟨c, hc⟩, ⟨g, hg⟩, ⟨d, hd⟩, ⟨i, hi⟩, heta⟩

/-- A shipment takes its goods out of the stock at its origin. -/
theorem createShipment_ok {r : ShipmentRequest} {cfg : LogisticsConfig} {id : ShipmentId}
    (h : (createShipment r cfg).run w = .ok id w') :
    r.quantity ≠ 0 ∧ r.origin ≠ r.destination ∧ ¬ r.transit < max cfg.minTransitTicks 1 ∧
      (∃ c, w.companies.get? r.company = some c) ∧ (∃ g, w.regions.get? r.origin = some g) ∧
      (∃ g, w.regions.get? r.destination = some g) ∧ (∃ i, w.items.get? r.item = some i) ∧
      ∃ (eta : Tick) (inv : Inventory),
        eta.toNat = w.clock.currentTick.toNat + r.transit.toNat ∧
        w.inventory.remove r.stockKey r.quantity = .ok inv ∧ id.toNat = w.nextId.toNat + 1 ∧
        w' = { w with
          inventory := inv, nextId := id.val
          shipments := w.shipments ++ [r.shipment id w.clock.currentTick eta] } := by
  simp only [createShipment, Action.bind_ok, Action.observe_ok, Action.modify_ok, Action.pure_ok,
    World.allocateId_ok, World.removeStock_ok] at h
  obtain ⟨eta, _, ⟨hplan, rfl⟩, _, _, ⟨inv, hinv, rfl⟩, i, _, ⟨hi, rfl⟩, _, _, rfl, rfl, rfl⟩ := h
  obtain ⟨hquantity, hroute, htransit, hc, hg, hd, hitem, heta⟩ := planShipment_ok hplan
  exact ⟨hquantity, hroute, htransit, hc, hg, hd, hitem, eta, inv, heta, hinv, hi, rfl⟩

/-- The goods of a cancelled shipment are back at its origin. -/
theorem cancelShipment_ok {id : ShipmentId} (h : (cancelShipment id).run w = .ok u w') :
    ∃ s inv, w.shipments.get? id = some s ∧ s.status = .inTransit ∧
      w.inventory.add ⟨s.company, s.origin, s.item⟩ s.quantity = .ok inv ∧
      w' = { w with
        inventory := inv
        shipments := w.shipments.modify id fun s => { s with status := .cancelled } } := by
  simp only [cancelShipment, Action.bind_ok, Action.observe_ok, Action.modify_ok, cancellableShipment,
    Check.bind_ok, Roster.require_ok, Check.unless_ok, Check.pure_ok, World.addStock_ok, ne_eq,
    not_not] at h
  obtain ⟨_, _, ⟨⟨s, hs, htransit, rfl⟩, rfl⟩, _, _, ⟨inv, hinv, rfl⟩, rfl⟩ := h
  exact ⟨_, inv, hs, htransit, hinv, rfl⟩

theorem setAllocation_ok {a : Allocation} (h : (setAllocation a).run w = .ok u w') :
    (∃ c, w.companies.get? a.company = some c) ∧ a.check = .ok () ∧ w' = w.putAllocation a := by
  simp only [setAllocation, Action.update_ok, Check.bind_ok, Roster.require_ok] at h
  obtain ⟨c, hc, h⟩ := h
  split at h
  · next ha => exact ⟨⟨c, hc⟩, ha, Check.pure_ok.1 h⟩
  · cases h

/-- Commands do not touch the clock, the definitions, the trades and the market pool. -/
theorem Command.act_frame {cfg : EngineConfig} {c : Command} (h : (c.act cfg).run w = .ok () w') :
    w' = { w with
      companies := w'.companies, inventory := w'.inventory, jobs := w'.jobs, orders := w'.orders
      shipments := w'.shipments, contracts := w'.contracts, allocations := w'.allocations
      nextId := w'.nextId } := by
  cases c with
  | placeOrder r =>
      obtain ⟨id, h, -⟩ := Action.map_ok.1 h
      obtain ⟨-, -, -, -, -, total, w₁, -, hback, -, rfl⟩ := placeOrder_ok h
      rcases hback with ⟨-, hreserve⟩ | ⟨-, hremove⟩
      · rw [(Ledger.reserve_moved hreserve).frame]
      · obtain ⟨inv, -, rfl⟩ := World.removeStock_ok.1 hremove
        rfl
  | cancelOrder id =>
      obtain ⟨o, w₁, -, -, hback, rfl⟩ := cancelOrder_ok h
      rcases hback with ⟨-, amount, -, hrelease⟩ | ⟨-, hadd⟩
      · rw [(Ledger.release_moved hrelease).frame]
        rfl
      · obtain ⟨inv, -, rfl⟩ := World.addStock_ok.1 hadd
        rfl
  | createContract r =>
      obtain ⟨id, h, -⟩ := Action.map_ok.1 h
      obtain ⟨-, -, -, -, -, total, w₁, -, hback, -, rfl⟩ := createContract_ok h
      rcases hback with ⟨-, rfl⟩ | ⟨buyer, c, -, -, hreserve⟩
      · rfl
      · rw [(Ledger.reserve_moved hreserve).frame]
  | cancelContract id =>
      obtain ⟨c, w₁, -, -, hback, rfl⟩ := cancelContract_ok h
      rcases hback with ⟨-, rfl⟩ | ⟨buyer, amount, -, -, hrelease⟩
      · rfl
      · rw [(Ledger.release_moved hrelease).frame]
        rfl
  | startJob r =>
      obtain ⟨id, h, -⟩ := Action.map_ok.1 h
      obtain ⟨-, -, building, recipe, inputs, -, -, -, -, -, -, -, -, rfl⟩ := startJob_ok h
      rfl
  | cancelJob id =>
      obtain ⟨j, -, -, rfl⟩ := cancelJob_ok h
      rfl
  | createShipment r =>
      obtain ⟨id, h, -⟩ := Action.map_ok.1 h
      obtain ⟨-, -, -, -, -, -, -, eta, inv, -, -, -, rfl⟩ := createShipment_ok h
      rfl
  | cancelShipment id =>
      obtain ⟨sh, inv, -, -, -, rfl⟩ := cancelShipment_ok h
      rfl
  | setAllocation a =>
      obtain ⟨-, -, rfl⟩ := setAllocation_ok h
      rfl

/-- A command takes numbers from the sequence, and puts none back. -/
theorem Command.nextId_le {cfg : EngineConfig} {c : Command} (h : (c.act cfg).run w = .ok () w') :
    w.nextId.toNat ≤ w'.nextId.toNat := by
  cases c with
  | placeOrder r =>
      obtain ⟨id, h, -⟩ := Action.map_ok.1 h
      obtain ⟨-, -, -, -, -, total, w₁, -, hback, hid, rfl⟩ := placeOrder_ok h
      have hnext : w₁.nextId = w.nextId := by
        rcases hback with ⟨-, hreserve⟩ | ⟨-, hremove⟩
        · rw [(Ledger.reserve_moved hreserve).frame]
        · obtain ⟨inv, -, rfl⟩ := World.removeStock_ok.1 hremove
          rfl
      rw [hnext] at hid
      exact Nat.le_of_lt (Nat.lt_of_succ_le hid.ge)
  | cancelOrder id =>
      obtain ⟨o, w₁, -, -, hback, rfl⟩ := cancelOrder_ok h
      rcases hback with ⟨-, amount, -, hrelease⟩ | ⟨-, hadd⟩
      · rw [(Ledger.release_moved hrelease).frame]
        exact Nat.le_refl _
      · obtain ⟨inv, -, rfl⟩ := World.addStock_ok.1 hadd
        exact Nat.le_refl _
  | createContract r =>
      obtain ⟨id, h, -⟩ := Action.map_ok.1 h
      obtain ⟨-, -, -, -, -, total, w₁, -, hback, hid, rfl⟩ := createContract_ok h
      have hnext : w₁.nextId = w.nextId := by
        rcases hback with ⟨-, rfl⟩ | ⟨buyer, c, -, -, hreserve⟩
        · rfl
        · rw [(Ledger.reserve_moved hreserve).frame]
      rw [hnext] at hid
      exact Nat.le_of_lt (Nat.lt_of_succ_le hid.ge)
  | cancelContract id =>
      obtain ⟨c, w₁, -, -, hback, rfl⟩ := cancelContract_ok h
      rcases hback with ⟨-, rfl⟩ | ⟨buyer, amount, -, -, hrelease⟩
      · exact Nat.le_refl _
      · rw [(Ledger.release_moved hrelease).frame]
        exact Nat.le_refl _
  | startJob r =>
      obtain ⟨id, h, -⟩ := Action.map_ok.1 h
      obtain ⟨-, -, building, recipe, inputs, -, -, -, -, -, -, -, hid, rfl⟩ := startJob_ok h
      exact Nat.le_of_lt (Nat.lt_of_succ_le hid.ge)
  | cancelJob id =>
      obtain ⟨j, -, -, rfl⟩ := cancelJob_ok h
      exact Nat.le_refl _
  | createShipment r =>
      obtain ⟨id, h, -⟩ := Action.map_ok.1 h
      obtain ⟨-, -, -, -, -, -, -, eta, inv, -, -, hid, rfl⟩ := createShipment_ok h
      exact Nat.le_of_lt (Nat.lt_of_succ_le hid.ge)
  | cancelShipment id =>
      obtain ⟨sh, inv, -, -, -, rfl⟩ := cancelShipment_ok h
      exact Nat.le_refl _
  | setAllocation a =>
      obtain ⟨-, -, rfl⟩ := setAllocation_ok h
      exact Nat.le_refl _

/-- A command sets aside cash of one company, or gives it back, or leaves all companies alone. -/
theorem Command.act_companies {cfg : EngineConfig} {c : Command} (h : (c.act cfg).run w = .ok () w') :
    w'.companies = w.companies ∨ ∃ i amount w₁, w'.companies = w₁.companies ∧
      ((Ledger.reserve i amount).run w = .ok () w₁ ∨ (Ledger.release i amount).run w = .ok () w₁) := by
  cases c with
  | placeOrder r =>
      obtain ⟨id, h, -⟩ := Action.map_ok.1 h
      obtain ⟨-, -, -, -, -, total, w₁, -, hback, -, rfl⟩ := placeOrder_ok h
      rcases hback with ⟨-, hreserve⟩ | ⟨-, hremove⟩
      · exact Or.inr ⟨_, _, w₁, rfl, Or.inl hreserve⟩
      · obtain ⟨inv, -, rfl⟩ := World.removeStock_ok.1 hremove
        exact Or.inl rfl
  | cancelOrder id =>
      obtain ⟨o, w₁, -, -, hback, rfl⟩ := cancelOrder_ok h
      rcases hback with ⟨-, amount, -, hrelease⟩ | ⟨-, hadd⟩
      · exact Or.inr ⟨_, _, w₁, rfl, Or.inr hrelease⟩
      · obtain ⟨inv, -, rfl⟩ := World.addStock_ok.1 hadd
        exact Or.inl rfl
  | createContract r =>
      obtain ⟨id, h, -⟩ := Action.map_ok.1 h
      obtain ⟨-, -, -, -, -, total, w₁, -, hback, -, rfl⟩ := createContract_ok h
      rcases hback with ⟨-, rfl⟩ | ⟨buyer, c, -, -, hreserve⟩
      · exact Or.inl rfl
      · exact Or.inr ⟨_, _, w₁, rfl, Or.inl hreserve⟩
  | cancelContract id =>
      obtain ⟨c, w₁, -, -, hback, rfl⟩ := cancelContract_ok h
      rcases hback with ⟨-, rfl⟩ | ⟨buyer, amount, -, -, hrelease⟩
      · exact Or.inl rfl
      · exact Or.inr ⟨_, _, w₁, rfl, Or.inr hrelease⟩
  | startJob r =>
      obtain ⟨id, h, -⟩ := Action.map_ok.1 h
      obtain ⟨-, -, building, recipe, inputs, -, -, -, -, -, -, -, -, rfl⟩ := startJob_ok h
      exact Or.inl rfl
  | cancelJob id =>
      obtain ⟨j, -, -, rfl⟩ := cancelJob_ok h
      exact Or.inl rfl
  | createShipment r =>
      obtain ⟨id, h, -⟩ := Action.map_ok.1 h
      obtain ⟨-, -, -, -, -, -, -, eta, inv, -, -, -, rfl⟩ := createShipment_ok h
      exact Or.inl rfl
  | cancelShipment id =>
      obtain ⟨sh, inv, -, -, -, rfl⟩ := cancelShipment_ok h
      exact Or.inl rfl
  | setAllocation a =>
      obtain ⟨-, -, rfl⟩ := setAllocation_ok h
      exact Or.inl rfl

end Mercantile
