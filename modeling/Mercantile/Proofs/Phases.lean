import Mercantile.Tick
import Mercantile.Proofs.Matches

/-!
The phases of a tick, taken apart. For each of them the lemma `…_ok` says what one job, one shipment or
one contract goes through, and `step_ok` lines the phases up with the worlds in between. The lemmas
`…_frame` say which parts of a world a whole phase leaves alone.
-/

namespace Mercantile

variable {w w' : World} {s s' : Account}

theorem finishJob_ok {j : Job} {recipe : Recipe} {progress : UInt32} {o : JobOutcome}
    (h : (finishJob j recipe progress).run w = .ok o w') :
    (o = .completed ∧ ∃ (output : Quantity) (inv : Inventory),
        output.toNat = recipe.outputQuantity.toNat * j.quantity.toNat ∧
        w.inventory.add (j.stockKey recipe.outputItem) output = .ok inv ∧
        w' = { w with
          inventory := inv
          jobs := w.jobs.modify j.id fun k => { k with state := .completed, progress } }) ∨
      (o = .advanced ∧ w' = w.modifyJob j.id fun k => { k with state := .running, progress }) := by
  unfold finishJob at h
  split at h
  · simp only [Action.bind_ok, Action.lift_ok, Action.pure_ok, orFail_ok, UInt64.mul?_eq_some,
      World.addStock_ok, setJob, Action.modify_ok] at h
    obtain ⟨output, _, ⟨houtput, rfl⟩, _, _, ⟨inv, hinv, rfl⟩, _, _, rfl, rfl, rfl⟩ := h
    exact Or.inl ⟨rfl, output, inv, houtput, hinv, rfl⟩
  · simp only [Action.bind_ok, Action.pure_ok, setJob, Action.modify_ok] at h
    obtain ⟨_, _, rfl, rfl, rfl⟩ := h
    exact Or.inr ⟨rfl, rfl⟩

/-- A job is blocked with its progress kept, or draws its inputs and goes on, or has no work left. -/
theorem advanceJob_ok {id : JobId} {amount : UInt32} {o : JobOutcome}
    (h : (advanceJob id amount).run w = .ok o w') :
    ∃ j recipe building, w.jobs.get? id = some j ∧ w.recipes.get? j.recipe = some recipe ∧
      w.buildings.get? j.building = some building ∧
      (o = .blocked ∧ w' = w.modifyJob j.id (fun k => { k with state := .blocked, progress := j.progress }) ∨
        (j.progress < recipe.workRequired ∧ ∃ inputs w₁ progress,
          scaledInputs recipe.inputs j.quantity = .ok inputs ∧
          (inputs.forM fun i => World.removeStock (j.stockKey i.1) i.2).run w = .ok () w₁ ∧
          (finishJob j recipe progress).run w₁ = .ok o w') ∨
        (¬ j.progress < recipe.workRequired ∧ (finishJob j recipe j.progress).run w = .ok o w')) := by
  simp only [advanceJob, Action.bind_ok, Action.get_ok, Action.lift_ok, Roster.require_ok] at h
  obtain ⟨_, _, ⟨rfl, rfl⟩, j, _, ⟨hj, rfl⟩, recipe, _, ⟨hr, rfl⟩, building, _, ⟨hb, rfl⟩, h⟩ := h
  have hid : id = j.id := (Roster.key_of_get? hj).symm
  refine ⟨j, recipe, building, hj, hr, hb, ?_⟩
  split at h
  · simp only [Action.bind_ok, Action.pure_ok, setJob, Action.modify_ok] at h
    obtain ⟨_, _, rfl, rfl, rfl⟩ := h
    exact Or.inl ⟨rfl, by rw [hid]⟩
  · split at h
    · next hneeds =>
      simp only [workOn, Action.bind_ok, Action.lift_ok, Action.get_ok] at h
      obtain ⟨inputs, _, ⟨hinputs, rfl⟩, _, _, ⟨rfl, rfl⟩, h⟩ := h
      split at h
      · simp only [Action.bind_ok] at h
        obtain ⟨_, w₁, hdraw, hfinish⟩ := h
        exact Or.inr (Or.inl ⟨hneeds, inputs, w₁, _, hinputs, hdraw, hfinish⟩)
      · simp only [Action.bind_ok, Action.pure_ok, setJob, Action.modify_ok] at h
        obtain ⟨_, _, rfl, rfl, rfl⟩ := h
        exact Or.inl ⟨rfl, rfl⟩
    · next hdone => exact Or.inr (Or.inr ⟨hdone, h⟩)

theorem runJob_ok {multipliers : MultiplierTable} {cfg : ProductionConfig} {id : JobId}
    {r : JobId × JobOutcome} (h : (runJob multipliers cfg id).run w = .ok r w') :
    r.1 = id ∧ ∃ amount, (advanceJob id amount).run w = .ok r.2 w' := by
  simp only [runJob, Action.bind_ok, Action.get_ok, Action.lift_ok, Roster.require_ok,
    Action.pure_ok] at h
  obtain ⟨_, _, ⟨rfl, rfl⟩, j, _, ⟨_, rfl⟩, amount, _, ⟨_, rfl⟩, o, _, ho, rfl, rfl⟩ := h
  exact ⟨rfl, amount, ho⟩

theorem runProduction_ok {multipliers : MultiplierTable} {cfg : ProductionConfig}
    {summary : ProductionSummary} (h : (runProduction multipliers cfg).run w = .ok summary w') :
    ∃ outcomes, (w.activeJobs.mapM (runJob multipliers cfg)).run w = .ok outcomes w' := by
  simp only [runProduction, Action.bind_ok, Action.get_ok, Action.pure_ok] at h
  obtain ⟨_, _, ⟨rfl, rfl⟩, outcomes, _, houtcomes, -, rfl⟩ := h
  exact ⟨outcomes, houtcomes⟩

/-- A shipment arrives: the goods are put to its destination, and a positive fee is charged. -/
theorem deliverShipment_ok {multipliers : MultiplierTable} {cfg : LogisticsConfig} {sh : Shipment}
    {id : ShipmentId} (h : (deliverShipment multipliers cfg sh).run s = .ok id s') :
    ∃ (inv : Inventory) (fee : Cents) (t : Account),
      s.world.inventory.add ⟨sh.company, sh.destination, sh.item⟩ sh.quantity = .ok inv ∧
      deliveryFee cfg sh.quantity (multipliers.of sh.company).logistics = .ok fee ∧
      (¬ 0 < fee ∧ t = { s with world := { s.world with inventory := inv } } ∨
        0 < fee ∧ (Ledger.charge sh.company fee).run
          { s with world := { s.world with inventory := inv } } = .ok () t) ∧
      s' = { t with world := t.world.modifyShipment sh.id fun k => { k with status := .delivered } } := by
  simp only [deliverShipment, Action.bind_ok, Account.onWorld_ok, World.addStock_ok,
    Action.lift_ok] at h
  obtain ⟨_, _, ⟨_, ⟨inv, hinv, rfl⟩, rfl⟩, fee, _, ⟨hfee, rfl⟩, h⟩ := h
  split at h
  · next hpos =>
    simp only [Action.bind_ok, Account.onWorld_ok, Action.modify_ok, Action.pure_ok] at h
    obtain ⟨_, t, hcharge, _, _, ⟨_, rfl, rfl⟩, -, rfl⟩ := h
    exact ⟨inv, fee, t, hinv, hfee, Or.inr ⟨hpos, hcharge⟩, rfl⟩
  · next hfree =>
    simp only [Action.bind_ok, Account.onWorld_ok, Action.modify_ok, Action.pure_ok] at h
    obtain ⟨_, _, ⟨_, rfl, rfl⟩, -, rfl⟩ := h
    exact ⟨inv, fee, _, hinv, hfee, Or.inl ⟨hfree, rfl⟩, rfl⟩

theorem advanceShipments_ok {tick : Tick} {multipliers : MultiplierTable} {cfg : LogisticsConfig}
    {ids : List ShipmentId} (h : (advanceShipments tick multipliers cfg).run s = .ok ids s') :
    ((s.world.shipments.filter (·.isDue tick)).mapM (deliverShipment multipliers cfg)).run s =
      .ok ids s' := by
  simp only [advanceShipments, Action.bind_ok, Action.get_ok] at h
  obtain ⟨_, _, ⟨rfl, rfl⟩, h⟩ := h
  exact h

/-- Units are affordable only at a positive price, and the pool covers them. -/
theorem affordable_ok {pool price : Cents} {n : Quantity} (h : affordable pool price = .ok n)
    (hn : n.toNat ≠ 0) : 0 < price.toInt ∧ price.toInt * n.toNat ≤ pool.toInt := by
  unfold affordable at h
  split at h
  · cases h
  · next hprice =>
    have hne : price.toInt ≠ 0 := fun e => hprice (Int64.toInt_inj.1 e)
    rw [Except.ok.injEq] at h
    cases hm : UInt64.ofNat? (max pool.toInt 0 / price.toInt).toNat with
    | none =>
        rw [hm, Option.getD_none] at h
        exact absurd (by rw [← h]; rfl) hn
    | some m =>
        rw [hm, Option.getD_some] at h
        have hnat := UInt64.ofNat?_eq_some.1 hm
        rw [h] at hnat
        have hquotient : 0 < max pool.toInt 0 / price.toInt := by omega
        have hpool : 0 ≤ max pool.toInt 0 := by omega
        have hpos : 0 < price.toInt := by
          by_contra hle
          have := Int.ediv_nonpos_of_nonneg_of_nonpos hpool (Int.not_lt.1 hle)
          omega
        have hcover := Int.mul_ediv_self_le (x := max pool.toInt 0) hne
        have hn' : (n.toNat : Int) = max pool.toInt 0 / price.toInt := by omega
        have hvalue := Int.mul_pos hpos hquotient
        rw [hn']
        refine ⟨hpos, ?_⟩
        omega

/-- A delivery fits the contract and the seller's stock, and the pool can pay for it if it has to. -/
theorem deliverable_ok {c : Contract} {q : Quantity} (h : deliverable w c = .ok q) :
    q ≤ c.outstanding ∧ q ≤ w.inventory.quantity c.sellerStock ∧
      (c.buyer = none → q ≠ 0 →
        0 < c.price.toInt ∧ c.price.toInt * q.toNat ≤ w.marketPool.toInt) := by
  unfold deliverable at h
  split at h
  · next buyer hbuyer =>
    rw [Check.pure_ok] at h
    rw [h]
    refine ⟨Std.min_le_left, Std.min_le_right, fun hnone => ?_⟩
    rw [hbuyer] at hnone
    cases hnone
  · next hnone =>
    simp only [Check.bind_ok, Check.pure_ok] at h
    obtain ⟨n, hn, hq⟩ := h
    have hle : q ≤ n := hq ▸ Std.min_le_right
    have hmin : q ≤ min c.outstanding (w.inventory.quantity c.sellerStock) := hq ▸ Std.min_le_left
    refine ⟨UInt64.le_trans hmin Std.min_le_left, UInt64.le_trans hmin Std.min_le_right, fun _ hpos => ?_⟩
    have hle' := UInt64.le_iff_toNat_le.1 hle
    have hpos' : q.toNat ≠ 0 := fun e => hpos (UInt64.toNat_inj.1 e)
    obtain ⟨hprice, hcover⟩ := affordable_ok hn (by omega)
    refine ⟨hprice, Int.le_trans ?_ hcover⟩
    exact Int.mul_le_mul_of_nonneg_left (by omega) (by omega)

/-- A delivery that fits the contract is noted exactly. -/
theorem Contract.fulfilled_deliver {c : Contract} {q : Quantity} (hq : q ≤ c.outstanding) :
    (c.deliver q).fulfilled.toNat = c.fulfilled.toNat + q.toNat := by
  show (c.fulfilled + q).toNat = c.fulfilled.toNat + q.toNat
  rw [UInt64.le_iff_toNat_le, outstanding, UInt64.toNat_subSat] at hq
  have hquantity := c.quantity.toNat_lt
  have hfulfilled := c.fulfilled.toNat_lt
  rw [UInt64.toNat_add]
  omega

theorem payDelivery_ok {c : Contract} {q : Quantity} {value : Cents} {u : Unit}
    (h : (payDelivery c q value).run s = .ok u s') :
    (∃ (buyer : CompanyId) (r : Ledger.Settlement) (w₁ : World) (inv : Inventory),
        c.buyer = some buyer ∧
        (Ledger.settle buyer c.seller c.price c.price q).run s.world = .ok r w₁ ∧
        w₁.inventory.add ⟨buyer, c.region, c.item⟩ q = .ok inv ∧
        s' = { s with world := { w₁ with inventory := inv } }) ∨
      (c.buyer = none ∧ ∃ (w₁ : World) (inflow : Cents),
        (Ledger.changeCash c.seller (·.add? value) .sellerCash).run
          { s.world with marketPool := s.world.marketPool - value } = .ok () w₁ ∧
        inflow.toInt = s.flows.inflow.toInt + value.toInt ∧
        s' = ⟨w₁, { s.flows with inflow }⟩) := by
  unfold payDelivery at h
  split at h
  · next buyer hbuyer =>
    simp only [Account.onWorld_ok, Action.bind_ok, World.addStock_ok] at h
    obtain ⟨_, ⟨r, w₁, hsettle, inv, hinv, rfl⟩, rfl⟩ := h
    exact Or.inl ⟨buyer, r, w₁, inv, hbuyer, hsettle, hinv, rfl⟩
  · next hnone =>
    simp only [payFromPool, Action.bind_ok, Account.onWorld_ok, Account.onFlows_ok, Action.modify_ok,
      CashFlows.recordInflow, Action.update_ok, Check.bind_ok, orFail_ok, Int64.add?_eq_some,
      Check.pure_ok] at h
    obtain ⟨_, _, ⟨w₁, ⟨_, _, rfl, hcash⟩, rfl⟩, _, ⟨inflow, hinflow, rfl⟩, rfl⟩ := h
    exact Or.inr ⟨hnone, w₁, inflow, hcash, hinflow, rfl⟩

/-- A contract delivers nothing, or takes the goods from its seller, is paid for, notes the delivery and answers
with it. -/
theorem settleContract_answer {tick : Tick} {id : ContractId} {r : Option ContractDelivery}
    (h : (settleContract tick id).run s = .ok r s') :
    ∃ c q, s.world.contracts.get? id = some c ∧ deliverable s.world c = .ok q ∧
      ((q = 0 ∧ s' = s) ∧ r = none ∨ (q ≠ 0 ∧ ∃ (value : Cents) (inv : Inventory) (t : Account),
        notional c.price q = .ok value ∧ s.world.inventory.remove c.sellerStock q = .ok inv ∧
        (payDelivery c q value).run { s with world := { s.world with inventory := inv } } =
          .ok () t ∧
        s' = { t with world := t.world.modifyContract id (·.deliver q) } ∧
        r = some ⟨id, tick, q, value⟩)) := by
  simp only [settleContract, Action.bind_ok, Action.get_ok, Action.lift_ok, Roster.require_ok] at h
  obtain ⟨_, _, ⟨rfl, rfl⟩, c, _, ⟨hc, rfl⟩, q, _, ⟨hq, rfl⟩, h⟩ := h
  refine ⟨c, q, hc, hq, ?_⟩
  split at h
  · next hzero =>
    obtain ⟨hr, hs'⟩ := Action.pure_ok.1 h
    exact Or.inl ⟨⟨hzero, hs'⟩, hr⟩
  · next hpos =>
    simp only [Action.bind_ok, Action.lift_ok, Account.onWorld_ok, World.removeStock_ok,
      Action.modify_ok, Action.pure_ok] at h
    obtain ⟨value, _, ⟨hvalue, rfl⟩, _, _, ⟨_, ⟨inv, hinv, rfl⟩, rfl⟩, _, t, hpay, _, _,
      ⟨_, rfl, rfl⟩, hr, rfl⟩ := h
    exact Or.inr ⟨hpos, value, inv, t, hvalue, hinv, hpay, rfl, hr⟩

/-- What a contract goes through, whatever it answers. -/
theorem settleContract_ok {tick : Tick} {id : ContractId} {r : Option ContractDelivery}
    (h : (settleContract tick id).run s = .ok r s') :
    ∃ c q, s.world.contracts.get? id = some c ∧ deliverable s.world c = .ok q ∧
      (q = 0 ∧ s' = s ∨ q ≠ 0 ∧ ∃ (value : Cents) (inv : Inventory) (t : Account),
        notional c.price q = .ok value ∧ s.world.inventory.remove c.sellerStock q = .ok inv ∧
        (payDelivery c q value).run { s with world := { s.world with inventory := inv } } =
          .ok () t ∧
        s' = { t with world := t.world.modifyContract id (·.deliver q) }) := by
  obtain ⟨c, q, hc, hq, ⟨hnothing, -⟩ | ⟨hpos, value, inv, t, hvalue, hinv, hpay, hs', -⟩⟩ :=
    settleContract_answer h
  · exact ⟨c, q, hc, hq, Or.inl hnothing⟩
  · exact ⟨c, q, hc, hq, Or.inr ⟨hpos, value, inv, t, hvalue, hinv, hpay, hs'⟩⟩

/-- The answer to the pass is what the open contracts answered. -/
theorem settleContracts_answer {tick : Tick} {deliveries : List ContractDelivery}
    (h : (settleContracts tick).run s = .ok deliveries s') :
    ∃ rs, (s.world.openContracts.mapM (settleContract tick)).run s = .ok rs s' ∧
      deliveries = rs.filterMap id := by
  simp only [settleContracts, Action.bind_ok, Action.get_ok, Action.pure_ok] at h
  obtain ⟨_, _, ⟨rfl, rfl⟩, rs, _, hrs, rfl, rfl⟩ := h
  exact ⟨rs, hrs, rfl⟩

theorem settleContracts_ok {tick : Tick} {deliveries : List ContractDelivery}
    (h : (settleContracts tick).run s = .ok deliveries s') :
    ∃ rs, (s.world.openContracts.mapM (settleContract tick)).run s = .ok rs s' := by
  obtain ⟨rs, hrs, -⟩ := settleContracts_answer h
  exact ⟨rs, hrs⟩

theorem supplyBots_ok {cfg : BotConfig} {u : Unit} (h : (supplyBots cfg).run s = .ok u s') :
    ¬ 0 < cfg.liquidityPerTick ∧ s' = s ∨ 0 < cfg.liquidityPerTick ∧
      (((s.world.companies.filter (·.isBot)).map (·.id)).forM fun bot =>
        Ledger.credit bot cfg.liquidityPerTick).run s = .ok () s' := by
  unfold supplyBots at h
  split at h
  · next hpos =>
    simp only [Action.bind_ok, Action.get_ok] at h
    obtain ⟨_, _, ⟨rfl, rfl⟩, h⟩ := h
    exact Or.inr ⟨hpos, h⟩
  · next hnone => exact Or.inl ⟨hnone, (Action.pure_ok.1 h).2⟩

theorem moveClock_ok {tick : Tick} {u : Unit} : (moveClock tick).run w = .ok u w' ↔
    ∃ v : UInt64, v.toNat = w.clock.lockVersion.toNat + 1 ∧
      w' = { w with clock := { w.clock with currentTick := tick, lockVersion := v } } := by
  simp only [moveClock, Action.bind_ok, Action.modify_ok, Action.update_ok, Check.bind_ok, orFail_ok,
    Check.pure_ok, UInt64.add?_eq_some]
  constructor
  · rintro ⟨_, _, rfl, v, hv, rfl⟩
    exact ⟨v, hv, rfl⟩
  · rintro ⟨v, hv, rfl⟩
    exact ⟨(), _, rfl, v, hv, rfl⟩

theorem driftOf_ok {before after drift : Cents} {flows : CashFlows} :
    driftOf before after flows = .ok drift ↔
      ∃ net expected : Cents, net.toInt = flows.inflow.toInt - flows.outflow.toInt ∧
        expected.toInt = before.toInt + net.toInt ∧ drift.toInt = after.toInt - expected.toInt := by
  simp only [driftOf, CashFlows.net?, Check.bind_ok, orFail_ok, Int64.sub?_eq_some,
    Option.bind_eq_bind, Option.bind_eq_some_iff, Int64.add?_eq_some]
  constructor
  · rintro ⟨expected, ⟨net, hnet, hexpected⟩, hdrift⟩
    exact ⟨net, expected, hnet, hexpected, hdrift⟩
  · rintro ⟨net, expected, hnet, hexpected, hdrift⟩
    exact ⟨expected, ⟨net, hnet, hexpected⟩, hdrift⟩

theorem runPhases_ok {tick : Tick} {cfg : EngineConfig} {o : TickOutcome}
    (h : (runPhases tick cfg).run s = .ok o s') :
    ∃ (s₁ : Account) (w₂ w₃ : World) (s₄ : Account),
      (supplyBots cfg.bots).run s = .ok () s₁ ∧
      (clearMarkets tick).run s₁.world = .ok o.trades w₂ ∧
      (runProduction (companyMultipliers s₁.world cfg.workforce) cfg.production).run
        (w₂.retainRecentTrades tick cfg.health.tradesWindowTicks) = .ok o.production w₃ ∧
      (advanceShipments tick (companyMultipliers s₁.world cfg.workforce) cfg.logistics).run
        ⟨w₃, s₁.flows⟩ = .ok o.delivered s₄ ∧
      (settleContracts tick).run s₄ = .ok o.deliveries s' := by
  simp only [runPhases, Action.bind_ok, Action.get_ok, Action.pure_ok, Account.onWorld_ok,
    Action.modify_ok] at h
  obtain ⟨_, s₁, hbots, _, _, ⟨rfl, rfl⟩, trades, _, ⟨w₂, hclear, rfl⟩, _, _, ⟨_, rfl, rfl⟩,
    production, _, ⟨w₃, hproduction, rfl⟩, delivered, s₄, hdelivered, deliveries, _, hdeliveries, rfl,
    rfl⟩ := h
  exact ⟨_, w₂, w₃, s₄, hbots, hclear, hproduction, hdelivered, hdeliveries⟩

/-- A tick is its phases, then the clock, between two counts of the money. -/
theorem step_ok {cfg : EngineConfig} {report : TickReport} {trades : List Trade}
    (h : (step cfg).run w = .ok (report, trades) w') :
    ∃ (tick : Tick) (before after drift : Cents) (o : TickOutcome) (t : Account),
      tick.toNat = w.clock.currentTick.toNat + 1 ∧ w.ledgerTotal? = some before ∧
      (runPhases tick cfg).run ⟨w, .zero⟩ = .ok o t ∧ (moveClock tick).run t.world = .ok () w' ∧
      w'.ledgerTotal? = some after ∧ driftOf before after t.flows = .ok drift ∧
      report = ⟨tick, o.trades.length, o.production.advanced.length, o.production.blocked.length,
        o.production.completed.length, o.delivered.length, o.deliveries.length, t.flows, drift⟩ ∧
      trades = o.trades := by
  simp only [step, stepAccount, Action.zoom_ok, Action.bind_ok, Action.get_ok, Action.lift_ok,
    Action.pure_ok, orFail_ok, Account.onWorld_ok, UInt64.add?_eq_some, Prod.mk.injEq] at h
  obtain ⟨_, ⟨_, _, ⟨rfl, rfl⟩, tick, _, ⟨htick, rfl⟩, before, _, ⟨hbefore, rfl⟩, o, t, hphases, _, _,
    ⟨w₁, hclock, rfl⟩, _, _, ⟨rfl, rfl⟩, after, _, ⟨hafter, rfl⟩, drift, _, ⟨hdrift, rfl⟩,
    ⟨rfl, rfl⟩, rfl⟩, rfl⟩ := h
  exact ⟨tick, before, after, drift, o, t, htick, hbefore, hphases, hclock, hafter, hdrift, rfl, rfl⟩

theorem supplyBots_moved {cfg : BotConfig} {u : Unit} (h : (supplyBots cfg).run s = .ok u s') :
    s.world.MoneyMoved s'.world := by
  rcases supplyBots_ok h with ⟨-, rfl⟩ | ⟨-, h⟩
  · exact .refl _
  · refine Action.forM_keeps (P := fun t => s.world.MoneyMoved t.world) (fun bot _ t t' ht hrun => ?_)
      (.refl _) h
    obtain ⟨w₁, hcash, inflow, -, rfl⟩ := Ledger.credit_ok.1 hrun
    exact ht.trans (Ledger.changeCash_moved hcash)

theorem applyFill_frame {k : MarketKey} {tick : Tick} {f : Fill} {t : Trade}
    (h : (applyFill k tick f).run w = .ok t w') :
    w' = { w with
      companies := w'.companies, inventory := w'.inventory, orders := w'.orders
      nextId := w'.nextId } := by
  obtain ⟨r, w₁, inv, b, a, bidLeft, askLeft, hsettle, -, -, -, -, -, -, -, rfl⟩ := applyFill_ok h
  rw [(Ledger.settle_moved hsettle).frame]

theorem clearMarkets_frame {tick : Tick} {trades : List Trade}
    (h : (clearMarkets tick).run w = .ok trades w') :
    w' = { w with
      companies := w'.companies, inventory := w'.inventory, orders := w'.orders
      trades := w'.trades, nextId := w'.nextId } := by
  obtain ⟨w₁, hfills, rfl⟩ := clearMarkets_ok.1 h
  have hw₁ := Action.mapM_keeps
    (P := fun t => t = { w with
      companies := t.companies, inventory := t.inventory, orders := t.orders, nextId := t.nextId })
    (fun m _ t r t' ht hrun => by rw [applyFill_frame hrun, ht]) rfl hfills
  rw [hw₁]

theorem forM_removeStock_frame {α : Type} {place : α → StockKey} {units : α → Quantity} {as : List α}
    {u : Unit} (h : (as.forM fun a => World.removeStock (place a) (units a)).run w = .ok u w') :
    w' = { w with inventory := w'.inventory } := by
  refine Action.forM_keeps (P := fun t => t = { w with inventory := t.inventory })
    (fun a _ t t' ht hrun => ?_) rfl h
  obtain ⟨inv, -, rfl⟩ := World.removeStock_ok.1 hrun
  rw [ht]

theorem finishJob_frame {j : Job} {recipe : Recipe} {progress : UInt32} {o : JobOutcome}
    (h : (finishJob j recipe progress).run w = .ok o w') :
    w' = { w with jobs := w'.jobs, inventory := w'.inventory } := by
  rcases finishJob_ok h with ⟨-, output, inv, -, -, rfl⟩ | ⟨-, rfl⟩ <;> rfl

theorem runJob_frame {multipliers : MultiplierTable} {cfg : ProductionConfig} {id : JobId}
    {r : JobId × JobOutcome} (h : (runJob multipliers cfg id).run w = .ok r w') :
    w' = { w with jobs := w'.jobs, inventory := w'.inventory } := by
  obtain ⟨-, amount, h⟩ := runJob_ok h
  obtain ⟨j, recipe, building, -, -, -, h⟩ := advanceJob_ok h
  rcases h with ⟨-, rfl⟩ | ⟨-, inputs, w₁, progress, -, hdraw, hfinish⟩ | ⟨-, hfinish⟩
  · rfl
  · rw [finishJob_frame hfinish, forM_removeStock_frame hdraw]
  · exact finishJob_frame hfinish

theorem runProduction_frame {multipliers : MultiplierTable} {cfg : ProductionConfig}
    {summary : ProductionSummary} (h : (runProduction multipliers cfg).run w = .ok summary w') :
    w' = { w with jobs := w'.jobs, inventory := w'.inventory } := by
  obtain ⟨outcomes, h⟩ := runProduction_ok h
  exact Action.mapM_keeps (P := fun t => t = { w with jobs := t.jobs, inventory := t.inventory })
    (fun id _ t r t' ht hrun => by rw [runJob_frame hrun, ht]) rfl h

theorem deliverShipment_frame {multipliers : MultiplierTable} {cfg : LogisticsConfig} {sh : Shipment}
    {id : ShipmentId} (h : (deliverShipment multipliers cfg sh).run s = .ok id s') :
    s'.world = { s.world with
      companies := s'.world.companies, inventory := s'.world.inventory
      shipments := s'.world.shipments } := by
  obtain ⟨inv, fee, t, -, -, hcharge, rfl⟩ := deliverShipment_ok h
  rcases hcharge with ⟨-, rfl⟩ | ⟨-, hcharge⟩
  · rfl
  · obtain ⟨w₁, hcash, outflow, -, rfl⟩ := Ledger.charge_ok.1 hcharge
    rw [(Ledger.changeCash_moved hcash).frame]
    rfl

theorem advanceShipments_frame {tick : Tick} {multipliers : MultiplierTable} {cfg : LogisticsConfig}
    {ids : List ShipmentId} (h : (advanceShipments tick multipliers cfg).run s = .ok ids s') :
    s'.world = { s.world with
      companies := s'.world.companies, inventory := s'.world.inventory
      shipments := s'.world.shipments } :=
  Action.mapM_keeps
    (P := fun t => t.world = { s.world with
      companies := t.world.companies, inventory := t.world.inventory
      shipments := t.world.shipments })
    (fun sh _ t r t' ht hrun => by rw [deliverShipment_frame hrun, ht]) rfl (advanceShipments_ok h)

theorem payDelivery_frame {c : Contract} {q : Quantity} {value : Cents} {u : Unit}
    (h : (payDelivery c q value).run s = .ok u s') :
    s'.world = { s.world with
      companies := s'.world.companies, inventory := s'.world.inventory
      marketPool := s'.world.marketPool } := by
  rcases payDelivery_ok h with ⟨buyer, r, w₁, inv, -, hsettle, -, rfl⟩ |
    ⟨-, w₁, inflow, hcash, -, rfl⟩
  · rw [(Ledger.settle_moved hsettle).frame]
  · rw [(Ledger.changeCash_moved hcash).frame]

theorem settleContract_frame {tick : Tick} {id : ContractId} {r : Option ContractDelivery}
    (h : (settleContract tick id).run s = .ok r s') :
    s'.world = { s.world with
      companies := s'.world.companies, inventory := s'.world.inventory
      contracts := s'.world.contracts, marketPool := s'.world.marketPool } := by
  obtain ⟨c, q, -, -, h⟩ := settleContract_ok h
  rcases h with ⟨-, rfl⟩ | ⟨-, value, inv, t, -, -, hpay, rfl⟩
  · rfl
  · rw [payDelivery_frame hpay]
    rfl

theorem settleContracts_frame {tick : Tick} {deliveries : List ContractDelivery}
    (h : (settleContracts tick).run s = .ok deliveries s') :
    s'.world = { s.world with
      companies := s'.world.companies, inventory := s'.world.inventory
      contracts := s'.world.contracts, marketPool := s'.world.marketPool } := by
  obtain ⟨rs, h⟩ := settleContracts_ok h
  exact Action.mapM_keeps
    (P := fun t => t.world = { s.world with
      companies := t.world.companies, inventory := t.world.inventory
      contracts := t.world.contracts, marketPool := t.world.marketPool })
    (fun id _ t r t' ht hrun => by rw [settleContract_frame hrun, ht]) rfl h

/-- Settings under which bots receive something. -/
def busyConfig : EngineConfig := { bots := ⟨50⟩ }

/-- A world in which every phase of a tick has something to do: a mine that is a bot sells ore, on the
market and under a contract, to a smith, whose smelter needs it and whose metal the market pool buys. -/
def busyWorld : World :=
  { clock := ⟨4, 9, none⟩
    regions := [⟨⟨1⟩, "north"⟩, ⟨⟨2⟩, "south"⟩]
    items := [⟨⟨3⟩, "ore"⟩, ⟨⟨4⟩, "metal"⟩]
    recipes := [⟨⟨5⟩, "smelting", "smelter", [⟨⟨3⟩, 2⟩], ⟨4⟩, 1, 10⟩]
    companies := [⟨⟨6⟩, "mine", 100, 0, true⟩, ⟨⟨7⟩, "smith", 500, 116, false⟩]
    buildings := [⟨⟨8⟩, ⟨7⟩, ⟨1⟩, "smelter", .active, 2⟩]
    jobs := [⟨⟨9⟩, ⟨7⟩, ⟨8⟩, ⟨1⟩, ⟨5⟩, 3, 0, .queued, 2⟩]
    orders := [⟨⟨10⟩, ⟨6⟩, ⟨1⟩, ⟨3⟩, .sell, 8, 12, 12, .unfilled, 2⟩,
      ⟨⟨11⟩, ⟨7⟩, ⟨1⟩, ⟨3⟩, .buy, 10, 10, 10, .unfilled, 3⟩]
    trades := []
    shipments := [⟨⟨12⟩, ⟨6⟩, ⟨2⟩, ⟨1⟩, ⟨3⟩, 5, .inTransit, 3, 5⟩]
    contracts := [⟨⟨13⟩, ⟨6⟩, some ⟨7⟩, ⟨1⟩, ⟨3⟩, 4, 0, 4, .unfulfilled, 3⟩,
      ⟨⟨14⟩, ⟨7⟩, none, ⟨1⟩, ⟨4⟩, 6, 0, 20, .unfulfilled, 3⟩]
    allocations := [⟨⟨6⟩, 25, 25, 50, 0⟩]
    inventory := .ofBalances [⟨⟨⟨6⟩, ⟨1⟩, ⟨3⟩⟩, 2⟩]
    marketPool := 1000
    nextId := 14 }

end Mercantile
