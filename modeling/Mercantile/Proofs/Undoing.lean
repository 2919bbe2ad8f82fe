import Mercantile.Proofs.Balances
import Mercantile.Proofs.Preflights

/-!
Cancellations. What was set aside for an order, a contract or a shipment comes back from other places than it was
put (`Stake.giveBack`), and the world is as it was before, but for the cancelled entity and its number
(`cancelling_undoes`). A company that had less than nothing set aside is the one exception: its reserved cash does
not cover what was added to it (`deficit_not_undone`).
-/

namespace Mercantile

open Roster (UpTo)

namespace Inventory

/-- Goods that were taken away can be put back, and the inventory is the one that it was. -/
theorem add_of_remove {inv inv' : Inventory} {k : StockKey} {q : Quantity} (h : inv.remove k q = .ok inv') :
    inv'.add k q = .ok inv :=
  add_iff_quantity.2 fun l => (quantity_remove h l).symm

end Inventory

/-- A company that is found under the identifier has set aside nothing or more. -/
def World.Reserving (w : World) (i : CompanyId) : Prop := ∀ c, w.companies.get? i = some c → 0 ≤ c.reserved

/-- What a change takes back of another that was made to what was found. -/
theorem Roster.modify_modify {α : Type} {kind : EntityKind} [Keyed α kind] {xs : Roster α} {i : Id kind} {a : α}
    {f g : α → α} (ha : xs.get? i = some a) (hg : ∀ a, key (g a) = key a) (hfg : f (g a) = a) :
    (xs.modify i g).modify i f = xs := by
  obtain ⟨before, after, hxs, hmodify⟩ := get?_split ha
  rw [modify_comp hg, hmodify, Function.comp_apply, hfg, hxs]

namespace Ledger

variable {i : CompanyId} {amount : Cents} {w w₁ v : World}

/-- Cash that was set aside can be released, if it was not needed to make up for a deficit. -/
theorem release_of_reserve (h : (reserve i amount).run w = .ok () w₁) (hw : w.Reserving i)
    (hv : v.companies = w₁.companies) : (release i amount).run v = .ok () { v with companies := w.companies } := by
  obtain ⟨c, hc, hneg, hfunds, reserved, hreserved, rfl⟩ := reserve_ok.1 h
  have hfound : v.companies.get? i = some { c with cash := c.cash - amount, reserved } := by
    rw [hv]
    exact Roster.get?_modify_found hc fun _ => rfl
  have hkept : 0 ≤ c.reserved.toInt := Int64.le_iff_toInt_le.1 (hw c hc)
  have hcovered : ¬ reserved < amount := by
    rw [Int64.lt_iff_toInt_lt]
    omega
  have hcash := Int64.toInt_sub_of_not_lt hneg hfunds
  refine release_ok.2 ⟨_, hfound, not_or.2 ⟨hneg, hcovered⟩, c.cash, ?_, ?_⟩
  · show c.cash.toInt = (c.cash - amount).toInt + amount.toInt
    omega
  · have hreserve : reserved - amount = c.reserved := by
      rw [← Int64.toInt_inj, Int64.toInt_sub_of_not_lt hneg hcovered]
      omega
    rw [World.modifyCompany, hv]
    refine congrArg (fun companies => { v with companies }) (Eq.symm ?_)
    refine Roster.modify_modify hc (fun _ => rfl) ?_
    show ({ c with reserved := reserved - amount } : Company) = c
    rw [hreserve]

/-- After a deficit there is less in reserve than was set aside. -/
theorem release_of_deficit (h : (reserve i amount).run w = .ok () w₁) (hw : ¬ w.Reserving i)
    (hv : v.companies = w₁.companies) :
    ∃ available, (release i amount).run v = .error (.insufficientFunds i amount available) v := by
  obtain ⟨c, hc, hneg, hfunds, reserved, hreserved, rfl⟩ := reserve_ok.1 h
  have hfound : v.companies.get? i = some { c with cash := c.cash - amount, reserved } := by
    rw [hv]
    exact Roster.get?_modify_found hc fun _ => rfl
  have hdeficit : ¬ 0 ≤ c.reserved := by
    intro hkept
    refine hw fun c' hc' => ?_
    rw [hc, Option.some_inj] at hc'
    exact hc' ▸ hkept
  have hzero : (0 : Int64).toInt = 0 := by decide
  have hshort : reserved < amount := by
    rw [Int64.le_iff_toInt_le] at hdeficit
    rw [Int64.lt_iff_toInt_lt]
    omega
  refine ⟨reserved, Action.update_error.2 ⟨?_, rfl⟩⟩
  refine Check.bind_error.2 (Or.inr ⟨_, Roster.require_ok.2 hfound, ?_⟩)
  exact Check.unless_error.2 (Or.inl ⟨Or.inr hshort, rfl⟩)

end Ledger

namespace Stake

variable {w w₁ v : World} {s : Stake}

/-- Gives back what was set aside. -/
def giveBack : Stake → Action World Unit
  | nothing => pure ()
  | cash company amount => Ledger.release company amount
  | goods place quantity => World.addStock place quantity

/-- Whose cash is set aside. -/
def payer : Stake → Option CompanyId
  | cash company _ => some company
  | _ => none

theorem setAside_frame (h : s.setAside.run w = .ok () w₁) :
    w₁ = { w with companies := w₁.companies, inventory := w₁.inventory } := by
  cases s with
  | nothing =>
      obtain ⟨-, rfl⟩ := Action.pure_ok.1 h
      rfl
  | cash company amount => rw [(Ledger.reserve_moved h).frame]
  | goods place quantity =>
      obtain ⟨inv, -, rfl⟩ := World.removeStock_ok.1 h
      rfl

/-- Companies and stocks are as they were before. -/
theorem giveBack_of_setAside (h : s.setAside.run w = .ok () w₁) (hw : ∀ i ∈ s.payer, w.Reserving i)
    (hcompanies : v.companies = w₁.companies) (hinventory : v.inventory = w₁.inventory) :
    s.giveBack.run v = .ok () { v with companies := w.companies, inventory := w.inventory } := by
  cases s with
  | nothing =>
      obtain ⟨-, rfl⟩ := Action.pure_ok.1 h
      rw [← hcompanies, ← hinventory]
      rfl
  | cash company amount =>
      have hstock : v.inventory = w.inventory := by rw [hinventory, (Ledger.reserve_moved h).frame]
      rw [← hstock]
      exact Ledger.release_of_reserve h (hw company rfl) hcompanies
  | goods place quantity =>
      obtain ⟨inv, hinv, rfl⟩ := World.removeStock_ok.1 h
      rw [← hcompanies]
      refine World.addStock_ok.2 ⟨w.inventory, ?_, rfl⟩
      rw [hinventory]
      exact Inventory.add_of_remove hinv

theorem giveBack_of_deficit (h : s.setAside.run w = .ok () w₁) (hw : ¬ ∀ i ∈ s.payer, w.Reserving i)
    (hcompanies : v.companies = w₁.companies) : ∃ i ∈ s.payer, ∃ required available,
      s.giveBack.run v = .error (.insufficientFunds i required available) v := by
  cases s with
  | cash company amount =>
      have hdeficit : ¬ w.Reserving company := by
        intro hkept
        refine hw fun i hi => ?_
        rw [← Option.some_inj.1 hi]
        exact hkept
      obtain ⟨available, hshort⟩ := Ledger.release_of_deficit h hdeficit hcompanies
      exact ⟨company, rfl, amount, available, hshort⟩
  | nothing => exact absurd nofun hw
  | goods place quantity => exact absurd nofun hw

end Stake

/-- How a cancellation takes back what a creation did to `w`: it leaves `w'`. -/
structure Undone (w w₁ w' : World) (payer : Option CompanyId) (cancel : Action World Unit) (cancelled : WrongState) :
    Prop where
  done : (∀ i ∈ payer, w.Reserving i) → cancel.run w₁ = .ok () w'
  /-- After a deficit nothing is cancelled. -/
  short : (¬ ∀ i ∈ payer, w.Reserving i) → ∃ i ∈ payer, ∃ required available,
    cancel.run w₁ = .error (.insufficientFunds i required available) w₁
  /-- It is not done twice. -/
  again : cancel.run w' = .error (.invalidState cancelled) w'

theorem Undone.of_setAside {α : Type} {w w₁ v w' : World} {s : Stake} {find : World → Except Failure α}
    {release : α → Action World Unit} {close : World → World} {a : α} {payer : Option CompanyId}
    {cancelled : WrongState} (h : s.setAside.run w = .ok () w₁) (hpayer : s.payer = payer)
    (hcompanies : v.companies = w₁.companies) (hinventory : v.inventory = w₁.inventory) (hfind : find v = .ok a)
    (hrelease : (release a).run v = s.giveBack.run v)
    (hclose : close { v with companies := w.companies, inventory := w.inventory } = w')
    (hagain : find w' = .error (.invalidState cancelled)) :
    Undone w v w' payer (do
      let a ← Action.observe find
      release a
      modify close) cancelled where
  done := by
    intro hw
    rw [← hpayer] at hw
    rw [Action.run_bind (Action.observe_ok.2 ⟨hfind, rfl⟩), ← hclose]
    refine Action.bind_ok.2 ⟨(), _, ?_, Action.modify_ok.2 rfl⟩
    rw [hrelease, Stake.giveBack_of_setAside h hw hcompanies hinventory]
  short := by
    rw [← hpayer]
    intro hw
    obtain ⟨i, hi, required, available, hshort⟩ := Stake.giveBack_of_deficit (v := v) h hw hcompanies
    refine ⟨i, hi, required, available, ?_⟩
    rw [Action.run_bind (Action.observe_ok.2 ⟨hfind, rfl⟩)]
    exact Action.bind_error.2 (Or.inl (hrelease.trans hshort))
  again := Action.bind_error.2 (Or.inl (Action.observe_error.2 ⟨hagain, rfl⟩))

variable {w w₁ : World}

/-- Whose cash an order sets aside. -/
def OrderRequest.payer (r : OrderRequest) : Option CompanyId :=
  match r.side with
  | .buy => some r.company
  | .sell => none

theorem OrderRequest.stake_payer (r : OrderRequest) (plan : OrderPlan) : (r.stake plan).payer = r.payer := by
  rw [stake, payer]
  cases r.side <;> rfl

/-- An order that has not traded gives back what was planned for it. -/
theorem releaseOrder_run {r : OrderRequest} {plan : OrderPlan} (hplan : planOrder w r = .ok plan) (id : OrderId)
    (tick : Tick) (v : World) : (releaseOrder (r.order id tick)).run v = (r.stake plan).giveBack.run v := by
  obtain ⟨-, -, -, -, -, total, htotal, ⟨hbuy, hreserve⟩ | ⟨hsell, -⟩⟩ := planOrder_ok hplan
  · have hside : (r.order id tick).side = .buy := hbuy
    rw [releaseOrder, hside, OrderRequest.stake, hbuy, hreserve]
    exact Action.run_bind (Action.lift_ok.2 ⟨htotal, rfl⟩)
  · have hside : (r.order id tick).side = .sell := hsell
    rw [releaseOrder, hside, OrderRequest.stake, hsell]
    rfl

theorem placeOrder_undone {r : OrderRequest} {id : OrderId} (hw : UpTo w.nextId w.orders)
    (h : (placeOrder r).run w = .ok id w₁) :
    Undone w w₁ { w with
        nextId := id.val, orders := w.orders ++ [{ r.order id w.clock.currentTick with status := .cancelled }] }
      r.payer (cancelOrder id) (.cancelOrder id .cancelled) := by
  simp only [placeOrder, Action.bind_ok, Action.observe_ok, Action.modify_ok, Action.pure_ok,
    World.allocateId_ok] at h
  obtain ⟨plan, w, ⟨hplan, rfl⟩, _, w₂, hback, _, _, ⟨hid, rfl⟩, _, _, rfl, rfl, rfl⟩ := h
  rw [(planOrder_covered hplan).2] at hback
  obtain ⟨companies, inventory, rfl⟩ : ∃ companies inventory, w₂ = { w with companies, inventory } :=
    ⟨_, _, Stake.setAside_frame hback⟩
  have hnew : w.nextId.toNat < (key (r.order id w.clock.currentTick)).toNat := Nat.lt_of_succ_le hid.ge
  have hrelease := releaseOrder_run hplan id w.clock.currentTick
  refine Undone.of_setAside hback (r.stake_payer plan) rfl rfl ?_ (hrelease _) ?_ ?_
  · exact Check.bind_ok.2 ⟨_, Roster.require_ok.2 (Roster.get?_append hw hnew), rfl⟩
  · exact congrArg (fun orders => { w with nextId := id.val, orders }) (Roster.modify_append hw hnew _)
  · refine Check.bind_error.2 (Or.inr ⟨_, Roster.require_ok.2 (Roster.get?_append hw ?_), rfl⟩)
    exact hnew

theorem ContractRequest.stake_payer (r : ContractRequest) (amount : Cents) : (r.stake amount).payer = r.buyer := by
  rw [stake]
  cases r.buyer <;> rfl

/-- A contract of which nothing is delivered gives back what was planned for it. -/
theorem releaseContract_run {r : ContractRequest} {amount : Cents} (hplan : planContract w r = .ok amount)
    (id : ContractId) (tick : Tick) (v : World) :
    (releaseContract (r.contract id tick)).run v = (r.stake amount).giveBack.run v := by
  obtain ⟨-, -, -, -, -, total, htotal, hnone | ⟨buyer, c, hbuyer, -, rfl⟩⟩ := planContract_ok hplan
  · have hparty : (r.contract id tick).buyer = none := hnone
    rw [releaseContract, hparty, ContractRequest.stake, hnone]
    rfl
  · have hparty : (r.contract id tick).buyer = some buyer := hbuyer
    have houtstanding : (r.contract id tick).outstanding = r.quantity := by
      rw [← UInt64.toNat_inj, Contract.outstanding, UInt64.toNat_subSat]
      rfl
    rw [releaseContract, hparty, ContractRequest.stake, hbuyer]
    dsimp only
    rw [houtstanding]
    exact Action.run_bind (Action.lift_ok.2 ⟨htotal, rfl⟩)

theorem createContract_undone {r : ContractRequest} {id : ContractId} (hw : UpTo w.nextId w.contracts)
    (h : (createContract r).run w = .ok id w₁) :
    Undone w w₁ { w with
        nextId := id.val
        contracts := w.contracts ++ [{ r.contract id w.clock.currentTick with status := .cancelled }] }
      r.buyer (cancelContract id) (.cancelContract id .cancelled) := by
  simp only [createContract, Action.bind_ok, Action.observe_ok, Action.modify_ok, Action.pure_ok,
    World.allocateId_ok] at h
  obtain ⟨amount, w, ⟨hplan, rfl⟩, _, w₂, hback, _, _, ⟨hid, rfl⟩, _, _, rfl, rfl, rfl⟩ := h
  rw [(planContract_covered hplan).2] at hback
  obtain ⟨companies, inventory, rfl⟩ : ∃ companies inventory, w₂ = { w with companies, inventory } :=
    ⟨_, _, Stake.setAside_frame hback⟩
  have hnew : w.nextId.toNat < (key (r.contract id w.clock.currentTick)).toNat := Nat.lt_of_succ_le hid.ge
  have hrelease := releaseContract_run hplan id w.clock.currentTick
  refine Undone.of_setAside hback (r.stake_payer amount) rfl rfl ?_ (hrelease _) ?_ ?_
  · exact Check.bind_ok.2 ⟨_, Roster.require_ok.2 (Roster.get?_append hw hnew), rfl⟩
  · exact congrArg (fun contracts => { w with nextId := id.val, contracts }) (Roster.modify_append hw hnew _)
  · refine Check.bind_error.2 (Or.inr ⟨_, Roster.require_ok.2 (Roster.get?_append hw ?_), rfl⟩)
    exact hnew

theorem createShipment_undone {r : ShipmentRequest} {cfg : LogisticsConfig} {id : ShipmentId}
    (hw : UpTo w.nextId w.shipments) (h : (createShipment r cfg).run w = .ok id w₁) :
    ∃ eta : Tick, eta.toNat = w.clock.currentTick.toNat + r.transit.toNat ∧
      Undone w w₁ { w with
          nextId := id.val
          shipments := w.shipments ++ [{ r.shipment id w.clock.currentTick eta with status := .cancelled }] }
        none (cancelShipment id) (.cancelShipment id .cancelled) := by
  obtain ⟨-, -, -, -, -, -, -, eta, inventory, heta, hremove, hid, rfl⟩ := createShipment_ok h
  have hback : (Stake.goods r.stockKey r.quantity).setAside.run w = .ok () { w with inventory } :=
    World.removeStock_ok.2 ⟨inventory, hremove, rfl⟩
  have hnew : w.nextId.toNat < (key (r.shipment id w.clock.currentTick eta)).toNat := Nat.lt_of_succ_le hid.ge
  let sh := r.shipment id w.clock.currentTick eta
  refine ⟨eta, heta, Undone.of_setAside (a := sh) hback rfl rfl rfl ?_ rfl ?_ ?_⟩
  · exact Check.bind_ok.2 ⟨_, Roster.require_ok.2 (Roster.get?_append hw hnew), rfl⟩
  · exact congrArg (fun shipments => { w with nextId := id.val, shipments }) (Roster.modify_append hw hnew _)
  · refine Check.bind_error.2 (Or.inr ⟨_, Roster.require_ok.2 (Roster.get?_append hw ?_), rfl⟩)
    exact hnew

/-- Whoever pays having set aside nothing or more, what was created can be cancelled, once, and the world is as it
was before but for the cancelled entity and its number. -/
theorem cancelling_undoes (w : World) :
    (UpTo w.nextId w.orders → ∀ (r : OrderRequest) (id : OrderId) (w₁ : World),
      (placeOrder r).run w = .ok id w₁ →
        Undone w w₁ { w with
            nextId := id.val
            orders := w.orders ++ [{ r.order id w.clock.currentTick with status := .cancelled }] }
          r.payer (cancelOrder id) (.cancelOrder id .cancelled)) ∧
    (UpTo w.nextId w.contracts → ∀ (r : ContractRequest) (id : ContractId) (w₁ : World),
      (createContract r).run w = .ok id w₁ →
        Undone w w₁ { w with
            nextId := id.val
            contracts := w.contracts ++ [{ r.contract id w.clock.currentTick with status := .cancelled }] }
          r.buyer (cancelContract id) (.cancelContract id .cancelled)) ∧
    (UpTo w.nextId w.shipments → ∀ (r : ShipmentRequest) (cfg : LogisticsConfig) (id : ShipmentId) (w₁ : World),
      (createShipment r cfg).run w = .ok id w₁ →
        ∃ eta : Tick, eta.toNat = w.clock.currentTick.toNat + r.transit.toNat ∧
          Undone w w₁ { w with
              nextId := id.val
              shipments := w.shipments ++ [{ r.shipment id w.clock.currentTick eta with status := .cancelled }] }
            none (cancelShipment id) (.cancelShipment id .cancelled)) :=
  ⟨fun hw _ _ _ => placeOrder_undone hw, fun hw _ _ _ => createContract_undone hw,
    fun hw _ _ _ _ => createShipment_undone hw⟩

/-- In the busy world the smith bids for ore and agrees on a contract as the buyer, and the mine ships its ore:
cancelling each of them leaves the world with one cancelled entity more. -/
theorem cancelling_undoes_busy :
    UpTo busyWorld.nextId busyWorld.orders ∧ UpTo busyWorld.nextId busyWorld.contracts ∧
    UpTo busyWorld.nextId busyWorld.shipments ∧ busyWorld.Reserving ⟨7⟩ ∧
    (∃ w₁, (placeOrder ⟨⟨7⟩, ⟨1⟩, ⟨3⟩, .buy, 10, 5⟩).run busyWorld = .ok ⟨15⟩ w₁ ∧
      (cancelOrder ⟨15⟩).run w₁ = .ok () { busyWorld with
        nextId := 15
        orders := busyWorld.orders ++ [⟨⟨15⟩, ⟨7⟩, ⟨1⟩, ⟨3⟩, .buy, 10, 5, 5, .cancelled, 4⟩] }) ∧
    (∃ w₁, (createContract ⟨⟨6⟩, some ⟨7⟩, ⟨1⟩, ⟨3⟩, 4, 100⟩).run busyWorld = .ok ⟨15⟩ w₁ ∧
      (cancelContract ⟨15⟩).run w₁ = .ok () { busyWorld with
        nextId := 15
        contracts := busyWorld.contracts ++
          [⟨⟨15⟩, ⟨6⟩, some ⟨7⟩, ⟨1⟩, ⟨3⟩, 4, 0, 100, .cancelled, 4⟩] }) ∧
    ∃ w₁ eta, (createShipment ⟨⟨6⟩, ⟨1⟩, ⟨2⟩, ⟨3⟩, 2, 3⟩ {}).run busyWorld = .ok ⟨15⟩ w₁ ∧
      (cancelShipment ⟨15⟩).run w₁ = .ok () { busyWorld with
        nextId := 15
        shipments := busyWorld.shipments ++ [⟨⟨15⟩, ⟨6⟩, ⟨1⟩, ⟨2⟩, ⟨3⟩, 2, .cancelled, 4, eta⟩] } := by
  have horders : UpTo busyWorld.nextId busyWorld.orders := ⟨by decide +kernel, by decide +kernel⟩
  have hcontracts : UpTo busyWorld.nextId busyWorld.contracts := ⟨by decide +kernel, by decide +kernel⟩
  have hshipments : UpTo busyWorld.nextId busyWorld.shipments := ⟨by decide +kernel, by decide +kernel⟩
  have hsmith : busyWorld.companies.get? ⟨7⟩ = some ⟨⟨7⟩, "smith", 500, 116, false⟩ := by decide +kernel
  have hreserving : busyWorld.Reserving ⟨7⟩ := by
    intro c hc
    rw [← Option.some_inj.1 (hsmith.symm.trans hc)]
    decide
  have hpays : ∀ i ∈ some (⟨7⟩ : CompanyId), busyWorld.Reserving i := by
    intro i hi
    rw [← Option.some_inj.1 hi]
    exact hreserving
  obtain ⟨hplaced, hcreated, hshipped⟩ := cancelling_undoes busyWorld
  refine ⟨horders, hcontracts, hshipments, hreserving, ?_, ?_, ?_⟩
  · have hrun : ((placeOrder ⟨⟨7⟩, ⟨1⟩, ⟨3⟩, .buy, 10, 5⟩).outcome busyWorld).map (·.1) = .ok ⟨15⟩ := by
      decide +kernel
    obtain ⟨⟨_, w₁⟩, hrun, rfl⟩ := Check.map_ok.1 hrun
    have hrun := Action.outcome_ok.1 hrun
    exact ⟨w₁, hrun, (hplaced horders _ _ _ hrun).done hpays⟩
  · have hrun : ((createContract ⟨⟨6⟩, some ⟨7⟩, ⟨1⟩, ⟨3⟩, 4, 100⟩).outcome busyWorld).map (·.1) = .ok ⟨15⟩ := by
      decide +kernel
    obtain ⟨⟨_, w₁⟩, hrun, rfl⟩ := Check.map_ok.1 hrun
    have hrun := Action.outcome_ok.1 hrun
    exact ⟨w₁, hrun, (hcreated hcontracts _ _ _ hrun).done hpays⟩
  · have hrun : ((createShipment ⟨⟨6⟩, ⟨1⟩, ⟨2⟩, ⟨3⟩, 2, 3⟩ {}).outcome busyWorld).map (·.1) = .ok ⟨15⟩ := by
      decide +kernel
    obtain ⟨⟨_, w₁⟩, hrun, rfl⟩ := Check.map_ok.1 hrun
    have hrun := Action.outcome_ok.1 hrun
    obtain ⟨eta, -, hundone⟩ := hshipped hshipments _ _ _ _ hrun
    exact ⟨w₁, eta, hrun, hundone.done nofun⟩

/-- A smith with five cents less than nothing in reserve. -/
def deficitWorld : World :=
  { World.empty with
    regions := [⟨⟨2⟩, "north"⟩]
    items := [⟨⟨3⟩, "ore"⟩]
    companies := [⟨⟨1⟩, "smith", 10, -5, false⟩]
    nextId := 3 }

/-- After a deficit a bid can be placed, and it cannot be cancelled. -/
theorem deficit_not_undone : UpTo deficitWorld.nextId deficitWorld.orders ∧
    ∃ w₁, (placeOrder ⟨⟨1⟩, ⟨2⟩, ⟨3⟩, .buy, 3, 1⟩).run deficitWorld = .ok ⟨4⟩ w₁ ∧
      ∃ w', (cancelOrder ⟨4⟩).run w₁ = .error (.insufficientFunds ⟨1⟩ 3 (-2)) w' := by
  let w₁ : World := { deficitWorld with
    companies := [⟨⟨1⟩, "smith", 7, -2, false⟩]
    nextId := 4
    orders := [⟨⟨4⟩, ⟨1⟩, ⟨2⟩, ⟨3⟩, .buy, 3, 1, 1, .unfilled, 0⟩] }
  have hcancel : ((cancelOrder ⟨4⟩).outcome w₁).map (·.1) = .error (.insufficientFunds ⟨1⟩ 3 (-2)) := by
    decide +kernel
  refine ⟨⟨by decide +kernel, by decide +kernel⟩, w₁, Action.outcome_ok.1 (by decide +kernel), ?_⟩
  exact Action.outcome_error.1 (Check.map_error.1 hcancel)

end Mercantile
