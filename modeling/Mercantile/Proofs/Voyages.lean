import Mercantile.Proofs.Lifecycles
import Mercantile.Proofs.Money

/-!
Voyages of shipments. In a world on schedule (`World.OnSchedule`) everything on its way arrives in a later
tick than the present one. Such worlds stay on schedule, and a tick delivers exactly the shipments whose
time is the tick that it moves to (`Docks`): it puts their goods, no more and no less, into the stocks at
their destinations and charges each of their fees once (`Landed`). What becomes of a shipment by the end of
a run is one of three things (`Fate`), and over a run no shipment is credited twice, be it as a delivery or
as a return (`voyages`).
-/

theorem UInt64.one_le_max (a : UInt64) : 1 ≤ max a 1 := by
  show 1 ≤ if a ≤ 1 then 1 else a
  split
  · exact UInt64.le_refl 1
  · next hgt =>
    rw [UInt64.le_iff_toNat_le] at hgt ⊢
    omega

namespace Mercantile

variable {w w' : World} {s s' : Account}

namespace Shipment

/-- The stock that the goods were taken from. -/
def source (sh : Shipment) : StockKey := ⟨sh.company, sh.origin, sh.item⟩

/-- The stock that the goods are meant for. -/
def landing (sh : Shipment) : StockKey := ⟨sh.company, sh.destination, sh.item⟩

/-- The units that an arrival adds to a stock. -/
def landed (k : StockKey) (sh : Shipment) : Nat := if sh.landing = k then sh.quantity.toNat else 0

/-- What an arrival costs: the fee, if it is positive. -/
def cost (cfg : LogisticsConfig) (multipliers : MultiplierTable) (sh : Shipment) : Int :=
  match deliveryFee cfg sh.quantity (multipliers.of sh.company).logistics with
  | .ok fee => max fee.toInt 0
  | .error _ => 0

/-- What an arrival costs a company. -/
def costTo (cfg : LogisticsConfig) (multipliers : MultiplierTable) (i : CompanyId) (sh : Shipment) : Int :=
  if sh.company = i then sh.cost cfg multipliers else 0

theorem cost_of_ok {cfg : LogisticsConfig} {multipliers : MultiplierTable} {sh : Shipment} {fee : Cents}
    (h : deliveryFee cfg sh.quantity (multipliers.of sh.company).logistics = .ok fee) :
    sh.cost cfg multipliers = max fee.toInt 0 := by
  rw [cost, h]

end Shipment

/-- Accounts between which some shipments have arrived: every stock has gained their goods, and every
company has paid for its own. -/
structure Landed (cfg : LogisticsConfig) (multipliers : MultiplierTable) (shs : List Shipment)
    (s s' : Account) : Prop where
  stock : ∀ k, (s'.world.inventory.quantity k).toNat =
    (s.world.inventory.quantity k).toNat + (shs.map (Shipment.landed k)).sum
  companies : ∀ i c, s.world.companies.get? i = some c → ∃ c', s'.world.companies.get? i = some c' ∧
    c.Moved (-(shs.map (Shipment.costTo cfg multipliers i)).sum) 0 c'
  /-- Each fee is a number of cents. -/
  fees : ∀ sh ∈ shs, ∃ fee, deliveryFee cfg sh.quantity (multipliers.of sh.company).logistics = .ok fee

namespace Landed

variable {cfg : LogisticsConfig} {multipliers : MultiplierTable} {shs shs' : List Shipment} {t : Account}

theorem refl (s : Account) : Landed cfg multipliers [] s s where
  stock := fun _ => rfl
  companies := fun _ c hc => ⟨c, hc, rfl, (Int.add_zero _).symm, (Int.sub_zero _).symm⟩
  fees := nofun

theorem trans (h : Landed cfg multipliers shs s t) (h' : Landed cfg multipliers shs' t s') :
    Landed cfg multipliers (shs ++ shs') s s' where
  stock := by
    intro k
    rw [h'.stock, h.stock, List.map_append, List.sum_append, Nat.add_assoc]
  companies := by
    intro i c hc
    obtain ⟨c₁, hc₁, hmoved⟩ := h.companies i c hc
    obtain ⟨c', hc', hmoved'⟩ := h'.companies i c₁ hc₁
    refine ⟨c', hc', ?_⟩
    rw [List.map_append, List.sum_append, Int.neg_add]
    exact hmoved.trans hmoved'
  fees := by
    intro sh hsh
    rcases List.mem_append.1 hsh with hsh | hsh
    · exact h.fees sh hsh
    · exact h'.fees sh hsh

end Landed

/-- A change of one company's cash, as every company sees it. -/
theorem Ledger.changeCash_companies {i : CompanyId} {f : Cents → Option Cents} {figure : Figure} {u : Unit}
    {d : Int} (hf : ∀ a b, f a = some b → b.toInt = a.toInt + d)
    (h : (changeCash i f figure).run w = .ok u w') {j : CompanyId} {c : Company}
    (hc : w.companies.get? j = some c) :
    ∃ c', w'.companies.get? j = some c' ∧ c.Moved (if i = j then d else 0) 0 c' := by
  obtain ⟨b, hb, cash, hcash, rfl⟩ := changeCash_ok.1 h
  have hget : (w.modifyCompany i fun c => { c with cash }).companies.get? j =
      if j = i then (w.companies.get? i).map fun c => { c with cash } else w.companies.get? j :=
    Roster.get?_modify fun _ => rfl
  rw [hget]
  by_cases hij : j = i
  · subst hij
    rw [hb, Option.some_inj] at hc
    subst hc
    rw [if_pos rfl, if_pos rfl, hb]
    exact ⟨_, rfl, rfl, hf _ _ hcash, (Int.sub_zero _).symm⟩
  · rw [if_neg hij, if_neg (Ne.symm hij)]
    exact ⟨c, hc, rfl, (Int.add_zero _).symm, (Int.sub_zero _).symm⟩

theorem deliverShipment_landed {cfg : LogisticsConfig} {multipliers : MultiplierTable} {sh : Shipment}
    {id : ShipmentId} (h : (deliverShipment multipliers cfg sh).run s = .ok id s') :
    Landed cfg multipliers [sh] s s' := by
  obtain ⟨inv, fee, t, hinv, hfee, hcharge, rfl⟩ := deliverShipment_ok h
  have hcost := Shipment.cost_of_ok hfee
  have hzero : (0 : Int64).toInt = 0 := by decide
  have hstock (k : StockKey) : (inv.quantity k).toNat = (s.world.inventory.quantity k).toNat + sh.landed k := by
    rw [Inventory.quantity_add hinv, Shipment.landed]
    simp only [@eq_comm _ k]
    rfl
  have hpaid : t.world.inventory = inv ∧
      ∀ i c, s.world.companies.get? i = some c → ∃ c', t.world.companies.get? i = some c' ∧
        c.Moved (if sh.company = i then -sh.cost cfg multipliers else 0) 0 c' := by
    rcases hcharge with ⟨hfree, rfl⟩ | ⟨hpos, hcharge⟩
    · rw [Int64.not_lt, Int64.le_iff_toInt_le, hzero] at hfree
      refine ⟨rfl, fun i c hc => ⟨c, hc, rfl, ?_, (Int.sub_zero _).symm⟩⟩
      rw [hcost]
      split <;> omega
    · obtain ⟨w₁, hcash, outflow, -, rfl⟩ := Ledger.charge_ok.1 hcharge
      rw [Int64.lt_iff_toInt_lt, hzero] at hpos
      have hmax : max fee.toInt 0 = fee.toInt := by omega
      refine ⟨by rw [(Ledger.changeCash_moved hcash).frame], fun i c hc => ?_⟩
      rw [hcost, hmax]
      refine Ledger.changeCash_companies (fun a b hab => ?_) hcash hc
      rw [Int64.sub?_eq_some.1 hab, Int.sub_eq_add_neg]
  obtain ⟨hinventory, hcompanies⟩ := hpaid
  refine ⟨fun k => ?_, fun i c hc => ?_, fun k hk => ?_⟩
  · show (t.world.inventory.quantity k).toNat = _
    rw [hinventory, hstock, List.map_singleton, List.sum_singleton]
  · obtain ⟨c', hc', hmoved⟩ := hcompanies i c hc
    refine ⟨c', hc', ?_⟩
    rw [List.map_singleton, List.sum_singleton, Shipment.costTo, apply_ite Neg.neg, Int.neg_zero]
    exact hmoved
  · rw [List.mem_singleton.1 hk]
    exact ⟨fee, hfee⟩

theorem deliveries_landed {cfg : LogisticsConfig} {multipliers : MultiplierTable} {shs : List Shipment}
    {ids : List ShipmentId} (h : (shs.mapM (deliverShipment multipliers cfg)).run s = .ok ids s') :
    Landed cfg multipliers shs s s' := by
  induction shs generalizing s ids with
  | nil =>
      obtain ⟨-, rfl⟩ := Action.mapM_nil_ok.1 h
      exact .refl _
  | cons sh shs ih =>
      obtain ⟨id, t, rest, hfirst, hrest, -⟩ := Action.mapM_cons_ok.1 h
      exact (deliverShipment_landed hfirst).trans (ih hrest)

/-- Deliveries change the status of what they deliver. -/
theorem deliveries_shipments {cfg : LogisticsConfig} {multipliers : MultiplierTable} {shs : List Shipment}
    {ids : List ShipmentId} (hs : s.world.shipments.Ascending)
    (h : (shs.mapM (deliverShipment multipliers cfg)).run s = .ok ids s') :
    s'.world.shipments = s.world.shipments.map fun k =>
      if k.id ∈ shs.map (·.id) then { k with status := .delivered } else k := by
  induction shs generalizing s ids with
  | nil =>
      obtain ⟨-, rfl⟩ := Action.mapM_nil_ok.1 h
      simp
  | cons sh shs ih =>
      obtain ⟨id, t, rest, hfirst, hrest, -⟩ := Action.mapM_cons_ok.1 h
      have hchanged := deliverShipment_shipments hfirst
      have ht : t.world.shipments.Ascending := by
        rw [hchanged]
        exact hs.modify _ fun _ => rfl
      rw [ih ht hrest, hchanged, hs.modify_eq_map, List.map_map]
      refine List.map_congr_left fun k _ => ?_
      by_cases hk : k.id = sh.id
      · have hkey : key k = sh.id := hk
        simp [hk, hkey]
      · have hkey : ¬ key k = sh.id := hk
        simp [hk, hkey]

/-- Shipments are in order, and everything on its way arrives later than now. -/
structure World.OnSchedule (w : World) : Prop where
  numbered : Roster.UpTo w.nextId w.shipments
  ahead : ∀ sh ∈ w.shipments, sh.status = .inTransit → w.clock.currentTick.toNat < sh.etaTick.toNat

/-- What is on its way and arrives in a certain tick. -/
def World.arriving (w : World) (tick : Tick) : List Shipment :=
  w.shipments.filter fun sh => sh.status = .inTransit ∧ sh.etaTick = tick

theorem World.mem_arriving {tick : Tick} {sh : Shipment} :
    sh ∈ w.arriving tick ↔ sh ∈ w.shipments ∧ sh.status = .inTransit ∧ sh.etaTick = tick := by
  simp only [arriving, List.mem_filter, decide_eq_true_eq]

/-- The place of the arrivals in a tick: from the account that production leaves to the one from which
contracts are settled. -/
def Arrives (cfg : EngineConfig) (w : World) (o : TickOutcome) (before after : Account) (w' : World) :
    Prop :=
  ∃ (tick : Tick) (s : Account) (w₂ : World) (t : Account),
    tick.toNat = w.clock.currentTick.toNat + 1 ∧
    (supplyBots cfg.bots).run ⟨w, .zero⟩ = .ok () s ∧
    (clearMarkets tick).run s.world = .ok o.trades w₂ ∧
    (runProduction (companyMultipliers s.world cfg.workforce) cfg.production).run
      (w₂.retainRecentTrades tick cfg.health.tradesWindowTicks) = .ok o.production before.world ∧
    before.flows = s.flows ∧
    (advanceShipments tick (companyMultipliers s.world cfg.workforce) cfg.logistics).run before =
      .ok o.delivered after ∧
    (settleContracts tick).run after = .ok o.deliveries t ∧
    (moveClock tick).run t.world = .ok () w'

/-- What a tick does to shipments: it delivers those whose time is the tick that it moves to. -/
structure Docks (cfg : EngineConfig) (w : World) (o : TickOutcome) (w' : World) : Prop where
  clock : w'.clock.currentTick.toNat = w.clock.currentTick.toNat + 1
  delivered : o.delivered = (w.arriving w'.clock.currentTick).map (·.id)
  shipments : w'.shipments = w.shipments.map fun sh =>
    if sh.status = .inTransit ∧ sh.etaTick = w'.clock.currentTick then { sh with status := .delivered }
    else sh
  landed : ∃ before after, Arrives cfg w o before after w' ∧
    Landed cfg.logistics (companyMultipliers w cfg.workforce) (w.arriving w'.clock.currentTick) before after

theorem Ticks.arrives {cfg : EngineConfig} {o : TickOutcome} (h : Ticks cfg w o w') :
    ∃ before after, Arrives cfg w o before after w' := by
  obtain ⟨⟨report, hstep⟩, tick, t, htick, hphases⟩ := h
  obtain ⟨tick', before, after, drift, o', t', htick', -, hphases', hclock, -⟩ := step_ok hstep
  obtain rfl : tick' = tick := UInt64.toNat_inj.1 (htick'.trans htick.symm)
  rw [hphases, EStateM.Result.ok.injEq] at hphases'
  obtain ⟨rfl, rfl⟩ := hphases'
  obtain ⟨s₁, w₂, w₃, s₄, hbots, hclear, hproduction, hdelivered, hdeliveries⟩ := runPhases_ok hphases
  exact ⟨⟨w₃, s₁.flows⟩, s₄, tick', s₁, w₂, t, htick, hbots, hclear, hproduction, rfl, hdelivered,
    hdeliveries, hclock⟩

/-- What is due is delivered, at the multipliers of the tick's beginning. -/
theorem Arrives.deliveries {cfg : EngineConfig} {o : TickOutcome} {before after : Account}
    (h : Arrives cfg w o before after w') :
    before.world.shipments = w.shipments ∧
      ((w.shipments.filter (·.isDue w'.clock.currentTick)).mapM
        (deliverShipment (companyMultipliers w cfg.workforce) cfg.logistics)).run before = .ok o.delivered after := by
  obtain ⟨tick, s₁, w₂, t, -, hbots, hclear, hproduction, -, hdelivered, -, hclock⟩ := h
  obtain ⟨v, -, rfl⟩ := moveClock_ok.1 hclock
  have hmoved : w.MoneyMoved s₁.world := supplyBots_moved hbots
  have hbefore : before.world.shipments = w.shipments := by
    rw [runProduction_frame hproduction, World.retainRecentTrades, clearMarkets_frame hclear, hmoved.frame]
  have hrun := advanceShipments_ok hdelivered
  rw [hbefore, companyMultipliers_moved hmoved] at hrun
  exact ⟨hbefore, hrun⟩

/-- On schedule, what is due in the next tick arrives in that very tick. -/
theorem World.OnSchedule.due_eq (hw : w.OnSchedule) {tick : Tick}
    (htick : tick.toNat = w.clock.currentTick.toNat + 1) :
    w.shipments.filter (·.isDue tick) = w.arriving tick := by
  refine List.filter_congr fun sh hsh => ?_
  rw [Bool.eq_iff_iff, Shipment.isDue_iff, decide_eq_true_eq]
  refine and_congr_right fun htransit => ?_
  have hahead := hw.ahead sh hsh htransit
  rw [UInt64.le_iff_toNat_le, ← UInt64.toNat_inj]
  omega

theorem World.OnSchedule.docks {cfg : EngineConfig} {o : TickOutcome} (hw : w.OnSchedule)
    (h : Ticks cfg w o w') : Docks cfg w o w' := by
  obtain ⟨before, after, harrives⟩ := h.arrives
  obtain ⟨hbefore, hrun⟩ := harrives.deliveries
  obtain ⟨tick, s₁, w₂, t, htick, -, -, -, -, hdelivered, hdeliveries, hclock⟩ := id harrives
  obtain ⟨v, -, rfl⟩ := moveClock_ok.1 hclock
  have hafter : t.world.shipments = after.world.shipments := by rw [settleContracts_frame hdeliveries]
  have hdue : w.shipments.filter (·.isDue tick) = w.arriving tick := hw.due_eq htick
  rw [hdue] at hrun
  refine
    { clock := htick
      delivered := by rw [advanceShipments_ids hdelivered, hbefore, hdue]
      shipments := ?_
      landed := ⟨before, after, harrives, deliveries_landed hrun⟩ }
  show t.world.shipments = w.shipments.map fun sh =>
    if sh.status = .inTransit ∧ sh.etaTick = tick then { sh with status := .delivered } else sh
  rw [hafter, deliveries_shipments (hbefore ▸ hw.numbered.ascending) hrun, hbefore]
  refine List.map_congr_left fun sh hsh => ?_
  have harriving : sh.id ∈ (w.arriving tick).map (·.id) ↔ sh.status = .inTransit ∧ sh.etaTick = tick := by
    constructor
    · intro hid
      obtain ⟨k, hk, hkey⟩ := List.mem_map.1 hid
      obtain ⟨hmem, htransit⟩ := World.mem_arriving.1 hk
      obtain rfl := hw.numbered.ascending.eq_of_key_eq hmem hsh hkey
      exact htransit
    · intro htransit
      exact List.mem_map_of_mem (World.mem_arriving.2 ⟨hsh, htransit⟩)
  rw [if_congr harriving rfl rfl]

namespace Docks

variable {cfg : EngineConfig} {o : TickOutcome} {sh : Shipment}

theorem docked (h : Docks cfg w o w') (hsh : sh ∈ w.shipments)
    (harrives : sh.status = .inTransit ∧ sh.etaTick = w'.clock.currentTick) :
    { sh with status := .delivered } ∈ w'.shipments := by
  rw [h.shipments]
  exact List.mem_map.2 ⟨sh, hsh, if_pos harrives⟩

theorem passed (h : Docks cfg w o w') (hsh : sh ∈ w.shipments)
    (hother : ¬ (sh.status = .inTransit ∧ sh.etaTick = w'.clock.currentTick)) : sh ∈ w'.shipments := by
  rw [h.shipments]
  exact List.mem_map.2 ⟨sh, hsh, if_neg hother⟩

end Docks

/-- A created shipment is on its way for as many ticks as were asked for, one at least, with goods taken
from the stock at its origin. -/
structure Departs (r : ShipmentRequest) (id : ShipmentId) (sh : Shipment) (w w' : World) : Prop where
  new : w.nextId.toNat < id.toNat
  terms : sh = r.shipment id w.clock.currentTick sh.etaTick
  time : sh.etaTick.toNat = w.clock.currentTick.toNat + r.transit.toNat
  later : w.clock.currentTick.toNat < sh.etaTick.toNat
  stock : ∀ k, (w'.inventory.quantity k).toNat + (if sh.source = k then sh.quantity.toNat else 0) =
    (w.inventory.quantity k).toNat
  frame : w' = { w with
    inventory := w'.inventory, nextId := w'.nextId, shipments := w.shipments ++ [sh] }

theorem createShipment_departs {r : ShipmentRequest} {cfg : LogisticsConfig} {id : ShipmentId}
    (h : (createShipment r cfg).run w = .ok id w') : ∃ sh, Departs r id sh w w' := by
  obtain ⟨-, -, htransit, -, -, -, -, eta, inv, heta, hinv, hid, rfl⟩ := createShipment_ok h
  have hleast := UInt64.le_trans (UInt64.one_le_max cfg.minTransitTicks) (UInt64.not_lt.1 htransit)
  rw [UInt64.le_iff_toNat_le] at hleast
  have hunit : (1 : UInt64).toNat = 1 := rfl
  refine ⟨r.shipment id w.clock.currentTick eta, ?_⟩
  refine
    { new := by omega
      terms := rfl
      time := heta
      later := by
        show w.clock.currentTick.toNat < eta.toNat
        omega
      stock := fun k => ?_
      frame := rfl }
  have hremoved := Inventory.quantity_remove hinv k
  simp only [@eq_comm _ k] at hremoved
  exact hremoved

/-- A cancelled shipment was on its way, and exactly its goods are back at its origin. -/
structure Returns (sh : Shipment) (w w' : World) : Prop where
  found : w.shipments.get? sh.id = some sh
  onWay : sh.status = .inTransit
  stock : ∀ k, (w'.inventory.quantity k).toNat =
    (w.inventory.quantity k).toNat + if sh.source = k then sh.quantity.toNat else 0
  frame : w' = { w with
    inventory := w'.inventory
    shipments := w.shipments.modify sh.id fun k => { k with status := .cancelled } }

theorem cancelShipment_returns {id : ShipmentId} {u : Unit} (h : (cancelShipment id).run w = .ok u w') :
    ∃ sh, sh.id = id ∧ Returns sh w w' := by
  obtain ⟨sh, inv, hsh, htransit, hinv, rfl⟩ := cancelShipment_ok h
  obtain rfl : sh.id = id := Roster.key_of_get? hsh
  refine ⟨sh, rfl, hsh, htransit, fun k => ?_, rfl⟩
  have hadded := Inventory.quantity_add hinv k
  simp only [@eq_comm _ k] at hadded
  exact hadded

theorem Returns.get? {sh : Shipment} (h : Returns sh w w') (i : ShipmentId) : w'.shipments.get? i =
    if i = sh.id then some { sh with status := .cancelled } else w.shipments.get? i := by
  rw [h.frame]
  refine Eq.trans (Roster.get?_modify fun _ => rfl) ?_
  rw [h.found]
  rfl

theorem World.OnSchedule.command {cfg : EngineConfig} {c : Command} (hw : w.OnSchedule)
    (h : (c.act cfg).run w = .ok () w') : w'.OnSchedule := by
  have hcontinues := Command.continues h
  have hclock : w'.clock = w.clock := by rw [Command.act_frame h]
  refine ⟨(hcontinues.shipments hw.numbered).upTo hcontinues.nextId hw.numbered, ?_⟩
  intro sh hsh htransit
  rw [hclock]
  rcases (Command.kept_unless h).2 with hkept | ⟨r, rfl⟩ | ⟨id, rfl⟩
  · exact hw.ahead sh (hkept ▸ hsh) htransit
  · obtain ⟨id, h, -⟩ := Action.map_ok.1 h
    obtain ⟨new, hdeparts⟩ := createShipment_departs h
    rw [hdeparts.frame] at hsh
    rcases List.mem_append.1 hsh with hsh | hsh
    · exact hw.ahead sh hsh htransit
    · rw [List.mem_singleton.1 hsh]
      exact hdeparts.later
  · obtain ⟨old, -, hreturns⟩ := cancelShipment_returns h
    rw [hreturns.frame] at hsh
    rcases Roster.mem_modify hsh with hsh | ⟨k, -, rfl⟩
    · exact hw.ahead sh hsh htransit
    · cases htransit

theorem World.OnSchedule.tick {cfg : EngineConfig} {r : TickReport × List Trade} (hw : w.OnSchedule)
    (h : (step cfg).run w = .ok r w') : w'.OnSchedule := by
  have hcontinues := step_continues h
  obtain ⟨o, hticks⟩ := step_ticks h
  have hdocks := hw.docks hticks
  refine ⟨(hcontinues.shipments hw.numbered).upTo hcontinues.nextId hw.numbered, ?_⟩
  intro sh hsh htransit
  rw [hdocks.shipments] at hsh
  obtain ⟨k, hk, rfl⟩ := List.mem_map.1 hsh
  split at htransit
  · cases htransit
  · next hother =>
    rw [if_neg hother]
    have hahead := hw.ahead k hk htransit
    have hne : k.etaTick.toNat ≠ w'.clock.currentTick.toNat :=
      fun he => hother ⟨htransit, UInt64.toNat_inj.1 he⟩
    have := hdocks.clock
    omega

theorem World.OnSchedule.operates (hw : w.OnSchedule) (h : Operates w w') : w'.OnSchedule := by
  cases h with
  | command cfg c h => exact hw.command h
  | tick cfg r h => exact hw.tick h

theorem World.OnSchedule.runs (hw : w.OnSchedule) (h : Runs w w') : w'.OnSchedule := by
  induction h with
  | refl => exact hw
  | tail _ hlast ih => exact ih.operates hlast

/-- What became, by the time of `u`, of a shipment that was on its way in `w`. -/
inductive Fate (w u : World) (sh : Shipment) : Prop
  /-- It is still on its way, and its time has not come. -/
  | sailing (found : u.shipments.get? sh.id = some sh)
      (early : u.clock.currentTick.toNat < sh.etaTick.toNat)
  /-- It was delivered by the tick that moved the clock to its time. -/
  | delivered (x y : World) (cfg : EngineConfig) (o : TickOutcome) (before : Runs w x)
      (tick : Ticks cfg x o y) (after : Runs y u) (found : x.shipments.get? sh.id = some sh)
      (named : sh.id ∈ o.delivered) (time : y.clock.currentTick = sh.etaTick)
      (kept : u.shipments.get? sh.id = some { sh with status := .delivered })
  /-- It was cancelled before its time. -/
  | cancelled (x y : World) (before : Runs w x) (cancel : (cancelShipment sh.id).run x = .ok () y)
      (after : Runs y u) (found : x.shipments.get? sh.id = some sh)
      (early : x.clock.currentTick.toNat < sh.etaTick.toNat)
      (kept : u.shipments.get? sh.id = some { sh with status := .cancelled })

/-- A shipment that has ended is found as it was after one more operation. -/
theorem World.OnSchedule.settled (hw : w.OnSchedule) (h : Operates w w') {sh : Shipment}
    (hsh : w.shipments.get? sh.id = some sh) (hend : ended sh) : w'.shipments.get? sh.id = some sh :=
  ((h.continues.shipments hw.numbered).settled h.continues.nextId hw.numbered (Roster.mem_of_get? hsh)
    hend).1

theorem Ticks.operates {cfg : EngineConfig} {o : TickOutcome} (h : Ticks cfg w o w') : Operates w w' := by
  obtain ⟨⟨report, hstep⟩, -⟩ := h
  exact .tick cfg _ hstep

/-- One operation from a world in which a shipment is on its way. -/
theorem World.OnSchedule.fate_operates (hw : w.OnSchedule) {sh : Shipment}
    (hsh : w.shipments.get? sh.id = some sh) (htransit : sh.status = .inTransit) (h : Operates w w') :
    Fate w w' sh := by
  have hmem := Roster.mem_of_get? hsh
  have hahead := hw.ahead sh hmem htransit
  have hw' := hw.operates h
  cases h with
  | command cfg c h =>
      have hclock : w'.clock = w.clock := by rw [Command.act_frame h]
      have hearly : w'.clock.currentTick.toNat < sh.etaTick.toNat := by
        rw [hclock]
        exact hahead
      rcases (Command.kept_unless h).2 with hkept | ⟨r, rfl⟩ | ⟨id, rfl⟩
      · exact .sailing (hkept ▸ hsh) hearly
      · obtain ⟨id, hcreate, -⟩ := Action.map_ok.1 h
        obtain ⟨new, hdeparts⟩ := createShipment_departs hcreate
        refine .sailing (Roster.get?_of_mem hw'.numbered.ascending ?_) hearly
        rw [hdeparts.frame]
        exact List.mem_append_left _ hmem
      · obtain ⟨old, hid, hreturns⟩ := cancelShipment_returns h
        by_cases hsame : sh.id = id
        · subst hsame
          have hold : old = sh := by
            have hget := hreturns.found
            rw [hid, hsh, Option.some_inj] at hget
            exact hget.symm
          subst hold
          exact .cancelled w w' .refl h .refl hsh hahead (by rw [hreturns.get?, if_pos rfl])
        · refine .sailing ?_ hearly
          rw [hreturns.get?, hid, if_neg hsame]
          exact hsh
  | tick cfg r h =>
      obtain ⟨o, hticks⟩ := step_ticks h
      have hdocks := hw.docks hticks
      by_cases htime : sh.etaTick = w'.clock.currentTick
      · refine .delivered w w' cfg o .refl hticks .refl hsh ?_ htime.symm
          (Roster.get?_of_mem hw'.numbered.ascending (hdocks.docked hmem ⟨htransit, htime⟩))
        rw [hdocks.delivered]
        exact List.mem_map_of_mem (World.mem_arriving.2 ⟨hmem, htransit, htime⟩)
      · refine .sailing (Roster.get?_of_mem hw'.numbered.ascending
          (hdocks.passed hmem fun hboth => htime hboth.2)) ?_
        have hne : sh.etaTick.toNat ≠ w'.clock.currentTick.toNat :=
          fun he => htime (UInt64.toNat_inj.1 he)
        have := hdocks.clock
        omega

/-- By the end of a run, a shipment is on its way before its time, was delivered at its time, or was
cancelled before it. -/
theorem World.OnSchedule.fate (hw : w.OnSchedule) {sh : Shipment} (hsh : sh ∈ w.shipments)
    (htransit : sh.status = .inTransit) {u : World} (h : Runs w u) : Fate w u sh := by
  induction h with
  | refl => exact .sailing (Roster.get?_of_mem hw.numbered.ascending hsh) (hw.ahead sh hsh htransit)
  | @tail v u hruns hlast ih =>
      have hv := hw.runs hruns
      cases ih with
      | sailing found early =>
          cases hv.fate_operates found htransit hlast with
          | sailing found early => exact .sailing found early
          | delivered x y cfg o before tick after found named time kept =>
              exact .delivered x y cfg o (hruns.trans before) tick after found named time kept
          | cancelled x y before cancel after found early kept =>
              exact .cancelled x y (hruns.trans before) cancel after found early kept
      | delivered x y cfg o before tick after found named time kept =>
          have hend : ended { sh with status := .delivered } := Shipment.ended_iff.2 (Or.inl rfl)
          exact .delivered x y cfg o before tick (after.tail hlast) found named time
            (hv.settled hlast kept hend)
      | cancelled x y before cancel after found early kept =>
          have hend : ended { sh with status := .cancelled } := Shipment.ended_iff.2 (Or.inr rfl)
          exact .cancelled x y before cancel (after.tail hlast) found early (hv.settled hlast kept hend)

/-- The shipments whose goods a command returns. -/
def Command.returns : Command → List ShipmentId
  | .cancelShipment id => [id]
  | _ => []

/-- A run together with the shipments that are credited in its course, one entry for each time: to the
stock at the destination by a tick, or to the one at the origin by a cancellation. -/
inductive Credits : World → List ShipmentId → World → Prop
  | refl (w : World) : Credits w [] w
  | command {w v u : World} {ids : List ShipmentId} (cfg : EngineConfig) (c : Command) :
      Credits w ids v → (c.act cfg).run v = .ok () u → Credits w (ids ++ c.returns) u
  | tick {w v u : World} {ids : List ShipmentId} (cfg : EngineConfig) (o : TickOutcome) :
      Credits w ids v → Ticks cfg v o u → Credits w (ids ++ o.delivered) u

theorem Runs.exists_credits {u : World} (h : Runs w u) : ∃ ids, Credits w ids u := by
  induction h with
  | refl => exact ⟨[], .refl w⟩
  | tail _ hlast ih =>
      obtain ⟨ids, hcredits⟩ := ih
      cases hlast with
      | command cfg c h => exact ⟨_, .command cfg c hcredits h⟩
      | tick cfg r h =>
          obtain ⟨o, hticks⟩ := step_ticks h
          exact ⟨_, .tick cfg o hcredits hticks⟩

/-- A world that has credited some shipments, each of them once and for good. -/
structure World.Credited (w : World) (ids : List ShipmentId) : Prop where
  nodup : ids.Nodup
  ended : ∀ i ∈ ids, ∃ sh, w.shipments.get? i = some sh ∧ ended sh

/-- An operation from a world on schedule credits what was on its way before and has ended after it. -/
theorem World.Credited.append {ids new : List ShipmentId} (h : w.Credited ids) (hw : w.OnSchedule)
    (hop : Operates w w') (hnodup : new.Nodup)
    (hopen : ∀ i ∈ new, ∃ sh, w.shipments.get? i = some sh ∧ ¬ Mercantile.ended sh)
    (hended : ∀ i ∈ new, ∃ sh, w'.shipments.get? i = some sh ∧ Mercantile.ended sh) :
    w'.Credited (ids ++ new) where
  nodup := by
    refine List.nodup_append.2 ⟨h.nodup, hnodup, fun i hi j hj hij => ?_⟩
    obtain ⟨sh, hsh, hend⟩ := h.ended i hi
    obtain ⟨k, hk, hon⟩ := hopen j hj
    rw [← hij, hsh, Option.some_inj] at hk
    exact hon (hk ▸ hend)
  ended := by
    intro i hi
    rcases List.mem_append.1 hi with hi | hi
    · obtain ⟨sh, hsh, hend⟩ := h.ended i hi
      obtain rfl : sh.id = i := Roster.key_of_get? hsh
      exact ⟨sh, hw.settled hop hsh hend, hend⟩
    · exact hended i hi

theorem World.OnSchedule.credited {u : World} {ids : List ShipmentId} (hw : w.OnSchedule)
    (h : Credits w ids u) : u.OnSchedule ∧ u.Credited ids := by
  induction h with
  | refl => exact ⟨hw, List.nodup_nil, nofun⟩
  | @command v u ids cfg c _ hact ih =>
      obtain ⟨hv, hcredited⟩ := ih
      refine ⟨hv.command hact, ?_⟩
      cases c with
      | cancelShipment id =>
          obtain ⟨sh, rfl, hreturns⟩ := cancelShipment_returns hact
          refine hcredited.append hv (.command cfg _ hact) (List.nodup_singleton _) ?_ ?_
          · intro i hi
            rw [List.mem_singleton.1 hi]
            exact ⟨sh, hreturns.found, Shipment.not_ended.2 hreturns.onWay⟩
          · intro i hi
            rw [List.mem_singleton.1 hi]
            exact ⟨_, by rw [hreturns.get?, if_pos rfl], Shipment.ended_iff.2 (Or.inr rfl)⟩
      | _ => exact hcredited.append hv (.command cfg _ hact) List.nodup_nil nofun nofun
  | @tick v u ids cfg o _ hticks ih =>
      obtain ⟨hv, hcredited⟩ := ih
      have hdocks := hv.docks hticks
      have hu := hv.operates hticks.operates
      refine ⟨hu, hcredited.append hv hticks.operates ?_ ?_ ?_⟩
      · rw [hdocks.delivered]
        exact hv.numbered.ascending.nodup_filter _
      all_goals
        intro i hi
        rw [hdocks.delivered] at hi
        obtain ⟨sh, hsh, rfl⟩ := List.mem_map.1 hi
        obtain ⟨hmem, htransit⟩ := World.mem_arriving.1 hsh
      · exact ⟨sh, Roster.get?_of_mem hv.numbered.ascending hmem, Shipment.not_ended.2 htransit.1⟩
      · exact ⟨{ sh with status := .delivered },
          Roster.get?_of_mem hu.numbered.ascending (hdocks.docked hmem htransit),
          Shipment.ended_iff.2 (Or.inl rfl)⟩

/-- Every shipment arrives once and in time. A world on schedule stays so in every run. Wherever a run is, a
new shipment departs for the ticks asked for, a shipment on its way has one of three fates, a tick delivers
exactly what arrives in it, and a cancellation returns exactly the goods; and no shipment is credited more
than once. -/
theorem voyages {w : World} (hw : w.OnSchedule) :
    (∀ u, Runs w u → u.OnSchedule ∧
      (∀ r cfg id v, (createShipment r cfg).run u = .ok id v → ∃ sh, Departs r id sh u v) ∧
      (∀ sh ∈ u.shipments, sh.status = .inTransit → ∀ v, Runs u v → Fate u v sh) ∧
      (∀ cfg o v, Ticks cfg u o v → Docks cfg u o v) ∧
      (∀ id v, (cancelShipment id).run u = .ok () v → ∃ sh, sh.id = id ∧ Returns sh u v) ∧
      ∃ ids, Credits w ids u) ∧
    ∀ ids u, Credits w ids u → ids.Nodup := by
  refine ⟨fun u hu => ?_, fun ids u hcredits => (hw.credited hcredits).2.nodup⟩
  have hsched := hw.runs hu
  exact ⟨hsched, fun _ _ _ _ => createShipment_departs, fun _ hsh htransit _ => hsched.fate hsh htransit,
    fun _ _ _ => hsched.docks, fun _ _ => cancelShipment_returns, hu.exists_credits⟩

/-- The mine ships a unit of ore to the south. The next tick delivers the older shipment, and the new one is
cancelled after that. -/
theorem voyages_busy : busyWorld.OnSchedule ∧
    ∃ sh v u u' o, Departs ⟨⟨6⟩, ⟨1⟩, ⟨2⟩, ⟨3⟩, 1, 3⟩ ⟨15⟩ sh busyWorld v ∧ Ticks busyConfig v o u ∧
      Docks busyConfig v o u ∧ o.delivered = [⟨12⟩] ∧ (cancelShipment ⟨15⟩).run u = .ok () u' ∧
      (∃ k, k.id = ⟨15⟩ ∧ Returns k u u') ∧ Credits busyWorld [⟨12⟩, ⟨15⟩] u' ∧
      ([⟨12⟩, ⟨15⟩] : List ShipmentId).Nodup ∧
      ∃ k ∈ busyWorld.shipments, k.id = ⟨12⟩ ∧ Fate busyWorld u' k := by
  have hsched : busyWorld.OnSchedule :=
    ⟨⟨by decide +kernel, by decide +kernel⟩, by decide +kernel⟩
  have hship : ((createShipment ⟨⟨6⟩, ⟨1⟩, ⟨2⟩, ⟨3⟩, 1, 3⟩ busyConfig.logistics).outcome busyWorld).map
      (fun r => (r.1, (r.2.arriving 5).map (·.id))) = .ok (⟨15⟩, [⟨12⟩]) := by decide +kernel
  have htime : ((createShipment ⟨⟨6⟩, ⟨1⟩, ⟨2⟩, ⟨3⟩, 1, 3⟩ busyConfig.logistics >>= fun _ =>
      step busyConfig).outcome busyWorld).map (·.2.clock.currentTick) = .ok 5 := by decide +kernel
  have hrun : ((createShipment ⟨⟨6⟩, ⟨1⟩, ⟨2⟩, ⟨3⟩, 1, 3⟩ busyConfig.logistics >>= fun _ =>
      step busyConfig >>= fun _ => cancelShipment ⟨15⟩).outcome busyWorld).isOk := by decide +kernel
  obtain ⟨_, u', hrun⟩ := Action.ok_of_outcome_isOk hrun
  obtain ⟨id, v, hcreate, hrun⟩ := Action.bind_ok.1 hrun
  obtain ⟨r, u, hstep, hcancel⟩ := Action.bind_ok.1 hrun
  rw [Action.outcome_ok.2 hcreate] at hship
  rw [Action.outcome_ok.2 ((Action.run_bind hcreate).trans hstep)] at htime
  simp only [Except.map, Except.ok.injEq, Prod.mk.injEq] at hship htime
  obtain ⟨rfl, harriving⟩ := hship
  obtain ⟨o, hticks⟩ := step_ticks hstep
  have hcommand : ((Command.createShipment ⟨⟨6⟩, ⟨1⟩, ⟨2⟩, ⟨3⟩, 1, 3⟩).act busyConfig).run busyWorld =
      .ok () v := Action.map_ok.2 ⟨_, hcreate, rfl⟩
  have hv : Runs busyWorld v := .single (.command busyConfig _ hcommand)
  have hu : Runs busyWorld u := hv.tail hticks.operates
  have hu' : Runs busyWorld u' := hu.tail (.command busyConfig (.cancelShipment ⟨15⟩) hcancel)
  obtain ⟨hpunctual, honce⟩ := voyages hsched
  obtain ⟨-, hdeparts, hfate, -⟩ := hpunctual busyWorld .refl
  obtain ⟨-, -, -, hdocks, -⟩ := hpunctual v hv
  obtain ⟨-, -, -, -, hreturns, -⟩ := hpunctual u hu
  obtain ⟨sh, hsh⟩ := hdeparts _ _ _ _ hcreate
  have hdelivered : o.delivered = [⟨12⟩] := by
    rw [(hdocks _ _ _ hticks).delivered, htime, harriving]
  have hcredits : Credits busyWorld [⟨12⟩, ⟨15⟩] u' := by
    have hfirst := (Credits.refl busyWorld).command busyConfig _ hcommand
    have hsecond := hfirst.tick busyConfig o hticks
    rw [hdelivered] at hsecond
    exact hsecond.command busyConfig (.cancelShipment ⟨15⟩) hcancel
  exact ⟨hsched, sh, v, u, u', o, hsh, hticks, hdocks _ _ _ hticks, hdelivered, hcancel,
    hreturns _ _ hcancel, hcredits, honce _ _ hcredits, _, List.mem_singleton_self _, rfl,
    hfate _ (List.mem_singleton_self _) rfl u' hu'⟩

end Mercantile
