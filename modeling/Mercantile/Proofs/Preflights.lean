import Mercantile.Proofs.Commands
import Mercantile.Proofs.Phases

/-!
Preflights. Orders, contracts, jobs and shipments come into the world in one way: a plan decides, what it says
is set aside, an identifier is drawn and one entity is appended. The plan and the operation agree
(`preflights_agree`): what the one refuses the other refuses for the same cause, and what it accepts is carried
out to the letter, unless reserved cash is no word any more or the identifiers have run out.
-/

namespace Mercantile

/-- What is set aside for an entity. -/
inductive Stake
  | nothing
  | cash (company : CompanyId) (amount : Cents)
  | goods (place : StockKey) (quantity : Quantity)

namespace Stake

variable {w w' : World}

def setAside : Stake → Action World Unit
  | nothing => pure ()
  | cash company amount => Ledger.reserve company amount
  | goods place quantity => World.removeStock place quantity

/-- There is enough to set aside. -/
def Covered (w : World) : Stake → Prop
  | nothing => True
  | cash company amount => ¬ amount < 0 ∧ ∃ c, w.companies.get? company = some c ∧ ¬ c.cash < amount
  | goods place quantity => quantity ≤ w.inventory.quantity place

/-- The reserved cash of the company would be no word. -/
def Overflows (w : World) : Stake → Prop
  | cash company amount =>
      ∃ c, w.companies.get? company = some c ∧ Int64.maxValue.toInt < c.reserved.toInt + amount.toInt
  | _ => False

/-- Exactly the stake went from the cash of its company to the reserved cash, or out of the stock, and nothing
else is different. -/
def Moved (w w' : World) : Stake → Prop
  | nothing => w' = w
  | cash company amount =>
      ∃ before c after, w.companies.get? company = some c ∧ w.companies = before ++ c :: after ∧
        ∃ cash reserved : Cents, cash.toInt = c.cash.toInt - amount.toInt ∧
          reserved.toInt = c.reserved.toInt + amount.toInt ∧
          w' = { w with companies := before ++ { c with cash, reserved } :: after }
  | goods place quantity =>
      (w'.inventory.quantity place).toNat + quantity.toNat = (w.inventory.quantity place).toNat ∧
        (∀ k, k ≠ place → w'.inventory.quantity k = w.inventory.quantity k) ∧
        w' = { w with inventory := w'.inventory }

theorem Moved.nextId {s : Stake} (h : s.Moved w w') : w'.nextId = w.nextId := by
  cases s with
  | nothing => exact congrArg (·.nextId) h
  | cash company amount =>
      obtain ⟨before, c, after, -, -, cash, reserved, -, -, rfl⟩ := h
      rfl
  | goods place quantity => exact congrArg (·.nextId) h.2.2

theorem setAside_overflow {s : Stake} (hcovered : s.Covered w) (hover : s.Overflows w) :
    s.setAside.run w = .error (.overflow .reservedCash) w := by
  cases s with
  | nothing => exact hover.elim
  | goods place quantity => exact hover.elim
  | cash company amount =>
      obtain ⟨hnonneg, c, hc, hfunds⟩ := hcovered
      obtain ⟨c', hc', hover⟩ := hover
      rw [hc, Option.some_inj] at hc'
      subst hc'
      have hnone : c.reserved.add? amount = none := Int64.ofInt?_eq_none.2 (Or.inr hover)
      refine Action.update_error.2 ⟨?_, rfl⟩
      refine Check.bind_error.2 (Or.inr ⟨c, Roster.require_ok.2 hc, ?_⟩)
      refine Check.unless_error.2 (Or.inr ⟨hnonneg, ?_⟩)
      refine Check.unless_error.2 (Or.inr ⟨hfunds, ?_⟩)
      exact Check.bind_error.2 (Or.inl (orFail_error.2 ⟨hnone, rfl⟩))

theorem setAside_moved {s : Stake} (hcovered : s.Covered w) (hfits : ¬ s.Overflows w) :
    ∃ w₁, s.setAside.run w = .ok () w₁ ∧ s.Moved w w₁ := by
  cases s with
  | nothing => exact ⟨w, rfl, rfl⟩
  | cash company amount =>
      obtain ⟨hnonneg, c, hc, hfunds⟩ := hcovered
      obtain ⟨before, after, hcompanies, hmodify⟩ := Roster.get?_split hc
      obtain ⟨reserved, hreserved⟩ : ∃ reserved, c.reserved.add? amount = some reserved := by
        cases hsum : c.reserved.add? amount with
        | some reserved => exact ⟨reserved, rfl⟩
        | none =>
            exfalso
            rcases Int64.ofInt?_eq_none.1 hsum with hlow | hhigh
            · have hmin := c.reserved.minValue_le_toInt
              have hzero : (0 : Int64).toInt = 0 := by decide
              rw [Int64.not_lt, Int64.le_iff_toInt_le] at hnonneg
              omega
            · exact hfits ⟨c, hc, hhigh⟩
      rw [Int64.add?_eq_some] at hreserved
      refine ⟨_, Ledger.reserve_ok.2 ⟨c, hc, hnonneg, hfunds, reserved, hreserved, rfl⟩, ?_⟩
      refine ⟨before, c, after, hc, hcompanies, c.cash - amount, reserved,
        Int64.toInt_sub_of_not_lt hnonneg hfunds, hreserved, ?_⟩
      rw [World.modifyCompany, hmodify]
  | goods place quantity =>
      refine ⟨_, World.removeStock_ok.2 ⟨_, Inventory.remove_ok.2 ⟨hcovered, rfl⟩, rfl⟩, ?_, ?_, rfl⟩
      · have hle := UInt64.le_iff_toNat_le.1 hcovered
        dsimp only
        rw [Inventory.quantity_set, if_pos rfl, UInt64.toNat_sub_of_le _ _ hcovered]
        omega
      · intro k hk
        dsimp only
        rw [Inventory.quantity_set, if_neg hk]

end Stake

theorem World.allocateId_error {kind : EntityKind} {w w' : World} {e : Failure} :
    (World.allocateId kind).run w = .error e w' ↔
      UInt64.size ≤ w.nextId.toNat + 1 ∧ e = .overflow .idSequence ∧ w' = w := by
  have hone : (1 : UInt64).toNat = 1 := rfl
  simp only [allocateId, Action.transact_error, Check.bind_error, orFail_error, Check.pure_error, and_false,
    exists_false, or_false, UInt64.add?_eq_none, hone, and_assoc]

/-- A plan and the operation that carries it out, on one world. -/
structure Preflight {α : Type} {kind : EntityKind} (w : World) (plan : Except Failure α) (stake : α → Stake)
    (append : α → Id kind → World → World) (act : Action World (Id kind)) : Prop where
  /-- What the plan refuses is refused for the same cause, and nothing changes. -/
  refused : ∀ e, plan = .error e → act.run w = .error e w
  /-- Reserved cash that would be no word stops the operation before anything changes. -/
  overflows : ∀ p, plan = .ok p → (stake p).Overflows w → act.run w = .error (.overflow .reservedCash) w
  /-- After the last number there is no identifier; the stake is set aside by then. -/
  exhausted : ∀ p, plan = .ok p → ¬ (stake p).Overflows w → w.nextId.toNat + 1 = UInt64.size →
    ∃ w₁, (stake p).Moved w w₁ ∧ act.run w = .error (.overflow .idSequence) w₁
  /-- Otherwise the stake is set aside and the entity is appended under the next number. -/
  done : ∀ p, plan = .ok p → ¬ (stake p).Overflows w → w.nextId.toNat + 1 < UInt64.size →
    ∃ id w₁, id.toNat = w.nextId.toNat + 1 ∧ (stake p).Moved w w₁ ∧
      act.run w = .ok id (append p id { w₁ with nextId := id.val })

/-- It is enough that a plan asks for no more than there is. -/
theorem Preflight.of_covered {α : Type} {kind : EntityKind} {w : World} (plan : World → Except Failure α)
    (back : α → Action World Unit) {stake : α → Stake} {append : α → Id kind → World → World}
    (hplan : ∀ p, plan w = .ok p → (stake p).Covered w ∧ back p = (stake p).setAside) :
    Preflight w (plan w) stake append (do
      let p ← Action.observe plan
      back p
      let id ← World.allocateId kind
      modify (append p id)
      return id) where
  refused := by
    intro e he
    exact Action.bind_error.2 (Or.inl (Action.observe_error.2 ⟨he, rfl⟩))
  overflows := by
    intro p hp hover
    obtain ⟨hcovered, hback⟩ := hplan p hp
    refine Action.bind_error.2 (Or.inr ⟨p, w, Action.observe_ok.2 ⟨hp, rfl⟩, ?_⟩)
    refine Action.bind_error.2 (Or.inl ?_)
    rw [hback]
    exact Stake.setAside_overflow hcovered hover
  exhausted := by
    intro p hp hfits hlast
    obtain ⟨hcovered, hback⟩ := hplan p hp
    obtain ⟨w₁, hrun, hmoved⟩ := Stake.setAside_moved hcovered hfits
    refine ⟨w₁, hmoved, ?_⟩
    refine Action.bind_error.2 (Or.inr ⟨p, w, Action.observe_ok.2 ⟨hp, rfl⟩, ?_⟩)
    refine Action.bind_error.2 (Or.inr ⟨(), w₁, hback ▸ hrun, ?_⟩)
    refine Action.bind_error.2 (Or.inl (World.allocateId_error.2 ⟨?_, rfl, rfl⟩))
    rw [hmoved.nextId, hlast]
  done := by
    intro p hp hfits hroom
    obtain ⟨hcovered, hback⟩ := hplan p hp
    obtain ⟨w₁, hrun, hmoved⟩ := Stake.setAside_moved hcovered hfits
    obtain ⟨id, hid⟩ : ∃ id : Id kind, id.toNat = w.nextId.toNat + 1 :=
      ⟨⟨UInt64.ofNat (w.nextId.toNat + 1)⟩, UInt64.toNat_ofNat_of_lt' hroom⟩
    refine ⟨id, w₁, hid, hmoved, ?_⟩
    refine Action.bind_ok.2 ⟨p, w, Action.observe_ok.2 ⟨hp, rfl⟩, ?_⟩
    refine Action.bind_ok.2 ⟨(), w₁, hback ▸ hrun, ?_⟩
    refine Action.bind_ok.2 ⟨id, _, World.allocateId_ok.2 ⟨hmoved.nextId ▸ hid, rfl⟩, ?_⟩
    exact Action.bind_ok.2 ⟨(), _, Action.modify_ok.2 rfl, Action.pure_ok.2 ⟨rfl, rfl⟩⟩

variable {w : World}

def OrderRequest.stake (r : OrderRequest) (plan : OrderPlan) : Stake :=
  match r.side with
  | .buy => .cash r.company plan.reserve
  | .sell => .goods r.stockKey r.quantity

def ContractRequest.stake (r : ContractRequest) (amount : Cents) : Stake :=
  match r.buyer with
  | some buyer => .cash buyer amount
  | none => .nothing

theorem notional_not_neg {price v : Cents} {q : Quantity} (hprice : ¬ price ≤ 0) (h : notional price q = .ok v) :
    ¬ v < 0 := by
  rw [Int64.not_le, Int64.lt_iff_toInt_lt] at hprice
  exact Int64.not_lt.2 (Int64.le_iff_toInt_le.2 (notional_nonneg (Int.le_of_lt hprice) h))

theorem planOrder_covered {r : OrderRequest} {plan : OrderPlan} (h : planOrder w r = .ok plan) :
    (r.stake plan).Covered w ∧ backOrder r plan = (r.stake plan).setAside := by
  simp only [planOrder, Check.unless_ok, Check.bind_ok, Roster.require_ok] at h
  obtain ⟨hprice, -, c, hc, -, -, -, -, total, htotal, h⟩ := h
  cases hside : r.side with
  | buy =>
      simp only [hside, Check.unless_ok, Check.pure_ok] at h
      obtain ⟨hfunds, rfl⟩ := h
      simp only [OrderRequest.stake, backOrder, hside]
      exact ⟨⟨notional_not_neg hprice htotal, c, hc, hfunds⟩, rfl⟩
  | sell =>
      simp only [hside, Check.unless_ok, Check.pure_ok] at h
      obtain ⟨hstock, rfl⟩ := h
      simp only [OrderRequest.stake, backOrder, hside]
      exact ⟨UInt64.not_lt.1 hstock, rfl⟩

theorem planContract_covered {r : ContractRequest} {amount : Cents} (h : planContract w r = .ok amount) :
    (r.stake amount).Covered w ∧ backContract r amount = (r.stake amount).setAside := by
  simp only [planContract, Check.unless_ok, Check.bind_ok, Roster.require_ok, not_or] at h
  obtain ⟨⟨hprice, -⟩, -, -, -, -, -, -, -, total, htotal, h⟩ := h
  cases hbuyer : r.buyer with
  | some buyer =>
      simp only [hbuyer, Check.bind_ok, Roster.require_ok, Check.unless_ok, Check.pure_ok] at h
      obtain ⟨b, hb, hfunds, rfl⟩ := h
      simp only [ContractRequest.stake, backContract, hbuyer]
      exact ⟨⟨notional_not_neg hprice htotal, b, hb, hfunds⟩, rfl⟩
  | none =>
      simp only [ContractRequest.stake, backContract, hbuyer]
      exact ⟨trivial, rfl⟩

theorem planShipment_covered {r : ShipmentRequest} {cfg : LogisticsConfig} {eta : Tick}
    (h : planShipment w r cfg = .ok eta) : r.quantity ≤ w.inventory.quantity r.stockKey := by
  simp only [planShipment, Check.unless_ok, Check.bind_ok] at h
  obtain ⟨-, -, -, -, -, -, -, -, -, -, -, hstock, -⟩ := h
  exact UInt64.not_lt.1 hstock

theorem placeOrder_preflight (r : OrderRequest) :
    Preflight w (planOrder w r) r.stake
      (fun _ id v => { v with orders := v.orders ++ [r.order id v.clock.currentTick] }) (placeOrder r) :=
  Preflight.of_covered (planOrder · r) (backOrder r) fun _ => planOrder_covered

theorem createContract_preflight (r : ContractRequest) :
    Preflight w (planContract w r) r.stake
      (fun _ id v => { v with contracts := v.contracts ++ [r.contract id v.clock.currentTick] })
      (createContract r) :=
  Preflight.of_covered (planContract · r) (backContract r) fun _ => planContract_covered

theorem startJob_preflight (r : JobRequest) :
    Preflight w (planJob w r) (fun _ => .nothing)
      (fun p id v => { v with jobs := v.jobs ++ [r.job id p.region v.clock.currentTick] }) (startJob r) :=
  Preflight.of_covered (planJob · r) (fun _ => pure ()) fun _ _ => ⟨trivial, rfl⟩

theorem createShipment_preflight (r : ShipmentRequest) (cfg : LogisticsConfig) :
    Preflight w (planShipment w r cfg) (fun _ => .goods r.stockKey r.quantity)
      (fun eta id v => { v with shipments := v.shipments ++ [r.shipment id v.clock.currentTick eta] })
      (createShipment r cfg) :=
  Preflight.of_covered (planShipment · r cfg) (fun _ => World.removeStock r.stockKey r.quantity)
    fun _ hplan => ⟨planShipment_covered hplan, rfl⟩

/-- On every world, each of the four plans decides what its operation does. -/
theorem preflights_agree (w : World) :
    (∀ r : OrderRequest, Preflight w (planOrder w r) r.stake
      (fun _ id v => { v with orders := v.orders ++ [r.order id v.clock.currentTick] }) (placeOrder r)) ∧
    (∀ r : ContractRequest, Preflight w (planContract w r) r.stake
      (fun _ id v => { v with contracts := v.contracts ++ [r.contract id v.clock.currentTick] })
      (createContract r)) ∧
    (∀ r : JobRequest, Preflight w (planJob w r) (fun _ => .nothing)
      (fun p id v => { v with jobs := v.jobs ++ [r.job id p.region v.clock.currentTick] }) (startJob r)) ∧
    ∀ (r : ShipmentRequest) (cfg : LogisticsConfig),
      Preflight w (planShipment w r cfg) (fun _ => .goods r.stockKey r.quantity)
        (fun eta id v => { v with shipments := v.shipments ++ [r.shipment id v.clock.currentTick eta] })
        (createShipment r cfg) :=
  ⟨placeOrder_preflight, createContract_preflight, startJob_preflight, createShipment_preflight⟩

/-- The smith of the busy world bids for five units of ore at ten: the order gets number 15 and fifty are set
aside, but after the last number there is no order. -/
theorem preflights_agree_busy :
    let r : OrderRequest := ⟨⟨7⟩, ⟨1⟩, ⟨3⟩, .buy, 10, 5⟩
    let exhausted : World := { busyWorld with nextId := 0 - 1 }
    (∃ id w₁, id.toNat = 15 ∧ (Stake.cash ⟨7⟩ 50).Moved busyWorld w₁ ∧
      (placeOrder r).run busyWorld = .ok id { w₁ with
        nextId := id.val, orders := w₁.orders ++ [r.order id w₁.clock.currentTick] }) ∧
    ∃ w₁, (Stake.cash ⟨7⟩ 50).Moved exhausted w₁ ∧
      (placeOrder r).run exhausted = .error (.overflow .idSequence) w₁ := by
  intro r exhausted
  have hfits : ¬ ∃ c, busyWorld.companies.get? ⟨7⟩ = some c ∧
      Int64.maxValue.toInt < c.reserved.toInt + (50 : Int64).toInt := by
    rintro ⟨c, hc, hover⟩
    have hsmith : busyWorld.companies.get? ⟨7⟩ = some ⟨⟨7⟩, "smith", 500, 116, false⟩ := by decide +kernel
    obtain rfl := Option.some.inj (hsmith.symm.trans hc)
    exact absurd hover (by decide)
  constructor
  · exact ((preflights_agree busyWorld).1 r).done ⟨.buy, 50, 0, 500, 0⟩ (by decide +kernel) hfits (by decide)
  · exact ((preflights_agree exhausted).1 r).exhausted ⟨.buy, 50, 0, 500, 0⟩ (by decide +kernel) hfits
      (by decide)

end Mercantile
