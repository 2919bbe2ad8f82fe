import Mathlib.Logic.Relation
import Mercantile.Proofs.Audits
import Mercantile.Proofs.Commands

/-!
Runs of sound worlds. Every command and every tick that succeeds leaves a sound world sound
(`Command.kept`, `step_kept`), whatever the order in which they come. What an operation does to reserved
cash and what it does to obligations cancel, company by company; during the clearing of the markets and the
delivery of contracts this holds after every single match and every single delivery. The lemmas are about
worlds at any standard, and reserved cash is followed where it is asked that prices are positive.
-/

namespace Mercantile

variable {g : Ground} {S : Standard} {w w' : World} {s s' : Account}

/-- A requested order fits the ground, and a buy order owes its price for every unit. -/
theorem placeOrder_kept {r : OrderRequest} {id : OrderId} (hfit : w.Fit g S)
    (hbacked : S.orderly → w.Backed) (h : (placeOrder r).run w = .ok id w') :
    w'.Fit g S ∧ (S.orderly → w'.Backed) := by
  obtain ⟨hprice, hquantity, ⟨c, hc⟩, ⟨region, hregion⟩, ⟨item, hitem⟩, total, w₁, htotal, hback, hid,
    rfl⟩ := placeOrder_ok h
  have ho : (r.order id w₁.clock.currentTick).Fit g S :=
    { company := hfit.company_of_get? hc
      region := hfit.region_of_get? hregion
      item := hfit.item_of_get? hitem
      remaining := Nat.le_refl _
      price := fun _ => World.zero_lt_iff.1 (Int64.not_le.1 hprice)
      filled := fun _ => iff_of_false nofun hquantity }
  have hlt : w₁.nextId.toNat < id.toNat := by omega
  rcases hback with ⟨hbuy, hreserve⟩ | ⟨hsell, hremove⟩
  · refine ⟨(hfit.moved (Ledger.reserve_moved hreserve)).appendOrder hlt ho, fun hS => ?_⟩
    have hcovers := (Ledger.reserve_covers (hbacked hS) hreserve).appendOrder
      (r.order id w₁.clock.currentTick)
    refine (hcovers.congr rfl rfl rfl).backed fun i => ?_
    rw [Order.owedBy_open hbuy rfl, (notional_ok.1 htotal).2]
    exact (congrArg (· - _) (Int.zero_add _)).trans (Int.sub_self _)
  · obtain ⟨inv, hinv, rfl⟩ := World.removeStock_ok.1 hremove
    refine ⟨(hfit.removeStock hinv).appendOrder hlt ho, fun hS => ?_⟩
    have hcovers := (hbacked hS).appendOrder (r.order id w.clock.currentTick)
    refine (hcovers.congr rfl rfl rfl).backed fun i => ?_
    rw [Order.owedBy_sell hsell, sub_zero]

/-- A cancelled order no longer owes what its company gets back. -/
theorem cancelOrder_kept {id : OrderId} {u : Unit} (hfit : w.Fit g S)
    (hbacked : S.orderly → w.Backed) (h : (cancelOrder id).run w = .ok u w') :
    w'.Fit g S ∧ (S.orderly → w'.Backed) := by
  obtain ⟨o, w₁, ho, hopen, hback, rfl⟩ := cancelOrder_ok h
  have hgone (i : CompanyId) : ({ o with status := .cancelled } : Order).owedBy i = 0 :=
    Order.owedBy_closed rfl
  have hrest : ∀ k, w.orders.get? id = some k → k.Fit g S →
      ({ k with status := .cancelled } : Order).Fit g S := by
    intro k hk hkfit
    rw [ho, Option.some_inj] at hk
    subst hk
    refine { hkfit with filled := fun hS => iff_of_false nofun fun hzero => ?_ }
    rw [(hkfit.filled hS).2 hzero] at hopen
    cases hopen
  rcases hback with ⟨hbuy, amount, hamount, hrelease⟩ | ⟨hsell, hadd⟩
  · have horders : w₁.orders = w.orders := by rw [(Ledger.release_moved hrelease).frame]
    have hfit₁ := hfit.moved (Ledger.release_moved hrelease)
    refine ⟨hfit₁.modifyOrder (fun _ => rfl) (horders ▸ hrest), fun hS => ?_⟩
    refine ((Ledger.release_covers (hbacked hS) hrelease).modifyOrder (horders ▸ ho) _).backed fun i => ?_
    rw [hgone, Order.owedBy_open hbuy hopen, (notional_ok.1 hamount).2]
    split <;> omega
  · obtain ⟨inv, hinv, rfl⟩ := World.addStock_ok.1 hadd
    have hofit := hfit.order o (Roster.mem_of_get? ho)
    have hfit₁ := hfit.addStock ⟨hofit.company, hofit.region, hofit.item⟩ hinv
    refine ⟨hfit₁.modifyOrder (fun _ => rfl) hrest, fun hS => ?_⟩
    have hcovers : { w with inventory := inv }.Covers fun _ => 0 := (hbacked hS).congr rfl rfl rfl
    refine (hcovers.modifyOrder ho _).backed fun i => ?_
    rw [hgone, Order.owedBy_sell hsell]
    rfl

/-- A contract with a buyer owes its price for every unit. -/
theorem createContract_kept {r : ContractRequest} {id : ContractId} (hfit : w.Fit g S)
    (hbacked : S.orderly → w.Backed) (h : (createContract r).run w = .ok id w') :
    w'.Fit g S ∧ (S.orderly → w'.Backed) := by
  obtain ⟨hterms, -, ⟨seller, hseller⟩, ⟨region, hregion⟩, ⟨item, hitem⟩, total, w₁, htotal, hback, hid,
    rfl⟩ := createContract_ok h
  rw [not_or] at hterms
  have hc : (r.contract id w₁.clock.currentTick).Fit g S :=
    { seller := hfit.company_of_get? hseller
      buyer := by
        intro b hb
        rcases hback with ⟨hnone, -⟩ | ⟨buyer, c, hbuyer, hc, -⟩
        · have : r.buyer = some b := hb
          rw [hnone] at this
          cases this
        · have : r.buyer = some b := hb
          rw [hbuyer, Option.some_inj] at this
          exact this ▸ hfit.company_of_get? hc
      region := hfit.region_of_get? hregion
      item := hfit.item_of_get? hitem
      price := fun _ => World.zero_lt_iff.1 (Int64.not_le.1 hterms.1)
      fulfilled := fun _ => Nat.zero_le _ }
  have hlt : w₁.nextId.toNat < id.toNat := by omega
  rcases hback with ⟨hnone, rfl⟩ | ⟨buyer, c, hbuyer, -, hreserve⟩
  · refine ⟨hfit.appendContract hlt hc, fun hS => ?_⟩
    refine (((hbacked hS).appendContract _).congr rfl rfl rfl).backed fun i => ?_
    rw [Contract.owedBy_open rfl, if_neg (by simp [ContractRequest.contract, hnone])]
    rfl
  · refine ⟨(hfit.moved (Ledger.reserve_moved hreserve)).appendContract hlt hc, fun hS => ?_⟩
    refine (((Ledger.reserve_covers (hbacked hS) hreserve).appendContract _).congr rfl rfl rfl).backed
      fun i => ?_
    have hwhole : (r.contract id w₁.clock.currentTick).outstanding.toNat = r.quantity.toNat :=
      UInt64.toNat_subSat _ _
    have hbuyer' : ((r.contract id w₁.clock.currentTick).buyer = some i) = (buyer = i) := by
      simp [ContractRequest.contract, hbuyer]
    rw [Contract.owedBy_open rfl, hwhole, (notional_ok.1 htotal).2]
    simp only [hbuyer']
    exact (congrArg (· - _) (Int.zero_add _)).trans (Int.sub_self _)

/-- A cancelled contract no longer owes what its buyer gets back. -/
theorem cancelContract_kept {id : ContractId} {u : Unit} (hfit : w.Fit g S)
    (hbacked : S.orderly → w.Backed) (h : (cancelContract id).run w = .ok u w') :
    w'.Fit g S ∧ (S.orderly → w'.Backed) := by
  obtain ⟨c, w₁, hc, hopen, hback, rfl⟩ := cancelContract_ok h
  have hgone (i : CompanyId) : ({ c with status := .cancelled } : Contract).owedBy i = 0 :=
    Contract.owedBy_closed rfl
  rcases hback with ⟨hnone, rfl⟩ | ⟨buyer, amount, hbuyer, hamount, hrelease⟩
  · refine ⟨hfit.modifyContract (fun _ => rfl) fun _ _ hk => { hk with }, fun hS => ?_⟩
    refine ((hbacked hS).modifyContract hc _).backed fun i => ?_
    rw [hgone, Contract.owedBy_open hopen, hnone]
    rfl
  · have hcontracts : w₁.contracts = w.contracts := by rw [(Ledger.release_moved hrelease).frame]
    have hfit₁ := hfit.moved (Ledger.release_moved hrelease)
    refine ⟨hfit₁.modifyContract (fun _ => rfl) fun _ _ hk => { hk with }, fun hS => ?_⟩
    refine ((Ledger.release_covers (hbacked hS) hrelease).modifyContract (hcontracts ▸ hc) _).backed
      fun i => ?_
    rw [hgone, Contract.owedBy_open hopen, hbuyer, (notional_ok.1 hamount).2]
    simp only [Option.some_inj]
    split <;> omega

theorem Command.kept {cfg : EngineConfig} {c : Command} (hfit : w.Fit g S)
    (hbacked : S.orderly → w.Backed) (h : (c.act cfg).run w = .ok () w') :
    w'.Fit g S ∧ (S.orderly → w'.Backed) := by
  cases c with
  | placeOrder r =>
      obtain ⟨id, h, -⟩ := Action.map_ok.1 h
      exact placeOrder_kept hfit hbacked h
  | cancelOrder id => exact cancelOrder_kept hfit hbacked h
  | createContract r =>
      obtain ⟨id, h, -⟩ := Action.map_ok.1 h
      exact createContract_kept hfit hbacked h
  | cancelContract id => exact cancelContract_kept hfit hbacked h
  | startJob r =>
      obtain ⟨id, h, -⟩ := Action.map_ok.1 h
      obtain ⟨-, ⟨company, hcompany⟩, building, recipe, inputs, hbuilding, hrecipe, -, -, -, -, -, hid,
        rfl⟩ := startJob_ok h
      have hj : (r.job id building.region w.clock.currentTick).Fit g S := by
        have hplace : building ∈ g.buildings := by
          rw [← hfit.ground]
          exact Roster.mem_of_get? hbuilding
        have hid : building.id = r.building := Roster.key_of_get? hbuilding
        refine ⟨hfit.company_of_get? hcompany, List.mem_map.2 ⟨building, hplace, hid⟩, ?_,
          fun _ => (hfit.building building hplace).region, fun _ => ⟨building, hplace, hid, rfl⟩⟩
        rw [← hfit.ground]
        exact List.mem_map.2 ⟨recipe, Roster.mem_of_get? hrecipe, Roster.key_of_get? hrecipe⟩
      have hlt : w.nextId.toNat < id.toNat := by omega
      exact ⟨hfit.appendJob hlt hj, fun hS => (hbacked hS).congr rfl rfl rfl⟩
  | cancelJob id =>
      obtain ⟨j, -, -, rfl⟩ := cancelJob_ok h
      exact ⟨hfit.modifyJob (fun _ => rfl) fun _ hj => { hj with }, fun hS => (hbacked hS).congr rfl rfl rfl⟩
  | createShipment r =>
      obtain ⟨id, h, -⟩ := Action.map_ok.1 h
      obtain ⟨-, -, -, ⟨company, hcompany⟩, ⟨origin, horigin⟩, ⟨destination, hdestination⟩,
        ⟨item, hitem⟩, eta, inv, -, hinv, hid, rfl⟩ := createShipment_ok h
      have hs : (r.shipment id w.clock.currentTick eta).Fit g :=
        ⟨hfit.company_of_get? hcompany, hfit.region_of_get? horigin, hfit.region_of_get? hdestination,
          hfit.item_of_get? hitem⟩
      have hlt : w.nextId.toNat < id.toNat := by omega
      exact ⟨(hfit.removeStock hinv).appendShipment hlt hs, fun hS => (hbacked hS).congr rfl rfl rfl⟩
  | cancelShipment id =>
      obtain ⟨sh, inv, hsh, -, hinv, rfl⟩ := cancelShipment_ok h
      have hshfit := hfit.shipment sh (Roster.mem_of_get? hsh)
      have hfit₁ := hfit.addStock ⟨hshfit.company, hshfit.origin, hshfit.item⟩ hinv
      exact ⟨hfit₁.modifyShipment (fun _ => rfl) fun _ hk => { hk with },
        fun hS => (hbacked hS).congr rfl rfl rfl⟩
  | setAllocation a =>
      obtain ⟨⟨company, hcompany⟩, hwhole, rfl⟩ := setAllocation_ok h
      exact ⟨hfit.putAllocation ⟨hfit.company_of_get? hcompany, hwhole⟩,
        fun hS => (hbacked hS).congr rfl rfl rfl⟩

theorem supplyBots_kept {cfg : BotConfig} {u : Unit} (hfit : s.world.Fit g S)
    (hbacked : S.orderly → s.world.Backed) (h : (supplyBots cfg).run s = .ok u s') :
    s'.world.Fit g S ∧ (S.orderly → s'.world.Backed) := by
  refine ⟨hfit.moved (supplyBots_moved h), fun hS => ?_⟩
  rcases supplyBots_ok h with ⟨-, rfl⟩ | ⟨-, h⟩
  · exact hbacked hS
  · refine Action.forM_keeps (P := fun t => t.world.Backed) (fun bot _ t t' ht hrun => ?_) (hbacked hS) h
    obtain ⟨w₁, hcash, inflow, -, rfl⟩ := Ledger.credit_ok.1 hrun
    exact Ledger.changeCash_covers ht hcash

/-- An order that shrinks still fits, and is filled exactly when nothing is left. -/
theorem Order.Fit.leave {o : Order} (h : o.Fit g S) {left : Quantity}
    (hleft : left.toNat ≤ o.remaining.toNat) : (o.leave left).Fit g S := by
  refine { h with remaining := Nat.le_trans hleft h.remaining, filled := fun _ => ?_ }
  show (o.leave left).status = .filled ↔ left = 0
  simp only [Order.leave, Order.fillStatus]
  split
  · next hzero => exact iff_of_true rfl hzero
  · next hrest => split <;> exact iff_of_false (by decide) hrest

/-- A match lowers what the buyer has set aside and what its order owes by the same amount. -/
theorem applyFill_kept {k : MarketKey} {tick : Tick} {f : Fill} {t : Trade} (hf : Answered w k f)
    (hfit : w.Fit g S) (hbacked : S.orderly → w.Backed) (h : (applyFill k tick f).run w = .ok t w') :
    w'.Fit g S ∧ (S.orderly → w'.Backed) := by
  obtain ⟨r, w₁, inv, bid, ask, bidLeft, askLeft, hsettle, hinv, hparties, hne, hbid, hbidLeft, hask,
    haskLeft, hid, rfl⟩ := hf.applyFill_ok h
  have hbidFit := hfit.order bid (Roster.mem_of_get? hbid)
  have hmoved := Ledger.settle_moved hsettle
  have horders : w₁.orders = w.orders := by rw [hmoved.frame]
  have hkey : StockKey.Fit g ⟨f.buyer, k.region, k.item⟩ := by
    rw [← hparties.bidMarket, ← hparties.bidCompany]
    exact ⟨hbidFit.company, hbidFit.region, hbidFit.item⟩
  rw [← horders] at hbid hask ⊢
  have hask' : (w₁.orders.modify f.buyOrder (·.leave bidLeft)).get? f.sellOrder = some ask := by
    rw [← hask]
    exact Roster.get?_modify_of_ne (fun _ => rfl) hne
  constructor
  · have hfit₁ := ((hfit.moved hmoved).addStock hkey hinv).modifyOrder (i := f.buyOrder)
      (f := (·.leave bidLeft)) (fun _ => rfl) fun o ho hofit => by
        rw [hbid, Option.some_inj] at ho
        exact hofit.leave (by rw [← ho]; omega)
    have hfit₂ := hfit₁.modifyOrder (i := f.sellOrder) (f := (·.leave askLeft)) (fun _ => rfl)
      fun o ho hofit => by
        rw [World.modifyOrder, hask', Option.some_inj] at ho
        exact hofit.leave (by rw [← ho]; omega)
    exact hfit₂.withNextId (show w₁.nextId.toNat ≤ t.id.toNat by omega)
  · intro hS
    have hpaid := Ledger.settle_covers (hbacked hS) hsettle
    have hstocked : { w₁ with inventory := inv }.Covers _ := hpaid.congr rfl rfl rfl
    have hbought := hstocked.modifyOrder hbid (·.leave bidLeft)
    have hsold := hbought.modifyOrder hask' (·.leave askLeft)
    refine (hsold.congr rfl rfl rfl).backed fun i => ?_
    have hsell : (ask.leave askLeft).side = .sell := hparties.askSide
    have hremaining : (bid.remaining.toNat : Int) = f.quantity.toNat + bidLeft.toNat := by omega
    rw [Order.owedBy_open hparties.bidSide hparties.bidOpen, Order.owedBy_leave hparties.bidSide,
      Order.owedBy_sell hparties.askSide, Order.owedBy_sell hsell, hparties.bidCompany,
      hparties.bidPrice, hremaining, mul_add]
    split <;> omega

/-- The trades of matches in sequence get ascending numbers, all of them new. -/
theorem numbered_of_fills {tick : Tick} {ms : List (MarketKey × Fill)} {trades : List Trade}
    (h : (ms.mapM fun m => applyFill m.1 tick m.2).run w = .ok trades w') :
    w.nextId.toNat ≤ w'.nextId.toNat ∧ Roster.UpTo w'.nextId trades ∧
      ∀ t ∈ trades, w.nextId.toNat < t.id.toNat := by
  induction ms generalizing w trades with
  | nil =>
      obtain ⟨rfl, rfl⟩ := Action.mapM_nil_ok.1 h
      exact ⟨Nat.le_refl _, ⟨List.Pairwise.nil, nofun⟩, nofun⟩
  | cons m ms ih =>
      obtain ⟨t, w₂, rest, hfirst, hrest, rfl⟩ := Action.mapM_cons_ok.1 h
      obtain ⟨r, w₁, inv, b, a, bidLeft, askLeft, hsettle, -, -, -, -, -, hid, -, rfl⟩ := applyFill_ok hfirst
      have hnext : w₁.nextId = w.nextId := by rw [(Ledger.settle_moved hsettle).frame]
      obtain ⟨hle, hupTo, hnew⟩ := ih hrest
      change t.id.toNat ≤ w'.nextId.toNat at hle
      change ∀ k ∈ rest, t.id.toNat < k.id.toNat at hnew
      rw [hnext] at hid
      have hsingle : Roster.UpTo w'.nextId [t] :=
        ⟨List.pairwise_singleton _ _, fun k hk => by rw [List.mem_singleton.1 hk]; exact hle⟩
      refine ⟨by omega, hsingle.appendAll hupTo fun k hk k' hk' => ?_, fun k hk => ?_⟩
      · rw [List.mem_singleton.1 hk']
        exact hnew k hk
      · rcases List.mem_cons.1 hk with rfl | hk
        · omega
        · have := hnew k hk
          omega

theorem clearMarkets_kept {tick : Tick} {trades : List Trade} (hfit : w.Fit g S)
    (hbacked : S.orderly → w.Backed) (h : (clearMarkets tick).run w = .ok trades w') :
    w'.Fit g S ∧ (S.orderly → w'.Backed) := by
  obtain ⟨w₁, hfills, rfl⟩ := clearMarkets_ok.1 h
  obtain ⟨⟨hfit₁, hbacked₁⟩, -, htrades⟩ := Action.mapM_keeps
    (P := fun t => (t.Fit g S ∧ (S.orderly → t.Backed)) ∧ (∀ m ∈ w.matchList, Answered t m.1 m.2) ∧
      t.trades = w.trades)
    (fun m hm t r t' ht hrun => ⟨applyFill_kept (ht.2.1 m hm) ht.1.1 ht.1.2 hrun,
      fun m' hm' => (ht.2.1 m' hm').kept hrun, by rw [applyFill_frame hrun, ht.2.2]⟩)
    ⟨⟨hfit, hbacked⟩, fun m hm => answered_of_mem_matchList hfit.numbered.orders.ascending hm, rfl⟩
    hfills
  obtain ⟨-, hupTo, hnew⟩ := numbered_of_fills hfills
  refine ⟨hfit₁.appendTrades hupTo fun t ht t' ht' => ?_, fun hS => (hbacked₁ hS).congr rfl rfl rfl⟩
  rw [htrades] at ht'
  exact Nat.lt_of_le_of_lt (hfit.numbered.trades.bounded t' ht') (hnew t ht)

theorem finishJob_kept {j : Job} {recipe : Recipe} {progress : UInt32} {o : JobOutcome}
    (hlocated : S.located) (hj : j.Fit g S) (hrecipe : recipe.Fit g) (hfit : w.Fit g S)
    (hbacked : S.orderly → w.Backed) (h : (finishJob j recipe progress).run w = .ok o w') :
    w'.Fit g S ∧ (S.orderly → w'.Backed) := by
  rcases finishJob_ok h with ⟨-, output, inv, -, hinv, rfl⟩ | ⟨-, rfl⟩
  · have hkey : (j.stockKey recipe.outputItem).Fit g :=
      ⟨hj.company, hj.region hlocated, hrecipe.output⟩
    exact ⟨(hfit.addStock hkey hinv).modifyJob (fun _ => rfl) fun _ hk => { hk with },
      fun hS => (hbacked hS).congr rfl rfl rfl⟩
  · exact ⟨hfit.modifyJob (fun _ => rfl) fun _ hk => { hk with }, fun hS => (hbacked hS).congr rfl rfl rfl⟩

theorem runJob_kept {multipliers : MultiplierTable} {cfg : ProductionConfig} {id : JobId}
    {r : JobId × JobOutcome} (hlocated : S.located) (hfit : w.Fit g S) (hbacked : S.orderly → w.Backed)
    (h : (runJob multipliers cfg id).run w = .ok r w') : w'.Fit g S ∧ (S.orderly → w'.Backed) := by
  obtain ⟨-, amount, h⟩ := runJob_ok h
  obtain ⟨j, recipe, building, hj, hrecipe, -, h⟩ := advanceJob_ok h
  have hjfit := hfit.job j (Roster.mem_of_get? hj)
  have hrecipeFit : recipe.Fit g := by
    refine hfit.recipe recipe ?_
    rw [← hfit.ground]
    exact Roster.mem_of_get? hrecipe
  rcases h with ⟨-, rfl⟩ | ⟨-, inputs, w₁, progress, -, hdraw, hfinish⟩ | ⟨-, hfinish⟩
  · exact ⟨hfit.modifyJob (fun _ => rfl) fun _ hk => { hk with }, fun hS => (hbacked hS).congr rfl rfl rfl⟩
  · have hdrawn := Action.forM_keeps (P := fun t => t.Fit g S ∧ (S.orderly → t.Backed))
      (fun i _ t t' ht hrun => by
        obtain ⟨inv, hinv, rfl⟩ := World.removeStock_ok.1 hrun
        exact ⟨ht.1.removeStock hinv, fun hS => (ht.2 hS).congr rfl rfl rfl⟩) ⟨hfit, hbacked⟩ hdraw
    exact finishJob_kept hlocated hjfit hrecipeFit hdrawn.1 hdrawn.2 hfinish
  · exact finishJob_kept hlocated hjfit hrecipeFit hfit hbacked hfinish

theorem runProduction_kept {multipliers : MultiplierTable} {cfg : ProductionConfig}
    {summary : ProductionSummary} (hlocated : S.located) (hfit : w.Fit g S)
    (hbacked : S.orderly → w.Backed) (h : (runProduction multipliers cfg).run w = .ok summary w') :
    w'.Fit g S ∧ (S.orderly → w'.Backed) := by
  obtain ⟨outcomes, h⟩ := runProduction_ok h
  exact Action.mapM_keeps (P := fun t => t.Fit g S ∧ (S.orderly → t.Backed))
    (fun id _ t r t' ht hrun => runJob_kept hlocated ht.1 ht.2 hrun) ⟨hfit, hbacked⟩ h

theorem deliverShipment_kept {multipliers : MultiplierTable} {cfg : LogisticsConfig} {sh : Shipment}
    {id : ShipmentId} (hsh : sh.Fit g) (hfit : s.world.Fit g S) (hbacked : S.orderly → s.world.Backed)
    (h : (deliverShipment multipliers cfg sh).run s = .ok id s') :
    s'.world.Fit g S ∧ (S.orderly → s'.world.Backed) := by
  obtain ⟨inv, fee, t, hinv, -, hcharge, rfl⟩ := deliverShipment_ok h
  have hfit₁ := hfit.addStock ⟨hsh.company, hsh.destination, hsh.item⟩ hinv
  have hbacked₁ (hS : S.orderly) : { s.world with inventory := inv }.Backed :=
    (hbacked hS).congr rfl rfl rfl
  have hcharged : t.world.Fit g S ∧ (S.orderly → t.world.Backed) := by
    rcases hcharge with ⟨-, rfl⟩ | ⟨-, hcharge⟩
    · exact ⟨hfit₁, hbacked₁⟩
    · obtain ⟨w₁, hcash, outflow, -, rfl⟩ := Ledger.charge_ok.1 hcharge
      exact ⟨hfit₁.moved (Ledger.changeCash_moved hcash),
        fun hS => Ledger.changeCash_covers (hbacked₁ hS) hcash⟩
  exact ⟨hcharged.1.modifyShipment (fun _ => rfl) fun _ hk => { hk with },
    fun hS => (hcharged.2 hS).congr rfl rfl rfl⟩

theorem advanceShipments_kept {tick : Tick} {multipliers : MultiplierTable} {cfg : LogisticsConfig}
    {ids : List ShipmentId} (hfit : s.world.Fit g S) (hbacked : S.orderly → s.world.Backed)
    (h : (advanceShipments tick multipliers cfg).run s = .ok ids s') :
    s'.world.Fit g S ∧ (S.orderly → s'.world.Backed) :=
  Action.mapM_keeps (P := fun t => t.world.Fit g S ∧ (S.orderly → t.world.Backed))
    (fun _ hsh _ _ _ ht hrun =>
      deliverShipment_kept (hfit.shipment _ (List.mem_of_mem_filter hsh)) ht.1 ht.2 hrun)
    ⟨hfit, hbacked⟩ (advanceShipments_ok h)

/-- A contract that a tick may still settle: it is open, or there is nothing to deliver. -/
def Contract.Settleable (c : Contract) : Prop := c.status.isOpen ∨ c.outstanding = 0

theorem Contract.deliver_settleable (c : Contract) (q : Quantity) : (c.deliver q).Settleable := by
  by_cases hzero : (c.deliver q).outstanding = 0
  · exact Or.inr hzero
  · have hpartial : (c.deliver q).status = .partiallyFulfilled := if_neg hzero
    exact Or.inl (by rw [hpartial]; rfl)

/-- Paying for a delivery lowers what the buyer, if there is one, has set aside. -/
theorem payDelivery_kept {c : Contract} {q : Quantity} {value : Cents} {u : Unit}
    (h : (payDelivery c q value).run s = .ok u s') (hc : c.Fit g S) (hfit : s.world.Fit g S)
    (hbacked : S.orderly → s.world.Backed) :
    s'.world.Fit g S ∧ (S.orderly →
      s'.world.Covers fun i => if c.buyer = some i then -(c.price.toInt * q.toNat) else 0) := by
  rcases payDelivery_ok h with ⟨buyer, r, w₁, inv, hbuyer, hsettle, hinv, rfl⟩ |
    ⟨hnone, w₁, inflow, hcash, -, rfl⟩
  · have hkey : StockKey.Fit g ⟨buyer, c.region, c.item⟩ := ⟨hc.buyer buyer hbuyer, hc.region, hc.item⟩
    refine ⟨(hfit.moved (Ledger.settle_moved hsettle)).addStock hkey hinv, fun hS => ?_⟩
    have hcovers := Ledger.settle_covers (hbacked hS) hsettle
    simp only [hbuyer, Option.some_inj, Int.zero_add] at hcovers ⊢
    exact hcovers.congr rfl rfl rfl
  · refine ⟨(hfit.withMarketPool _).moved (Ledger.changeCash_moved hcash), fun hS => ?_⟩
    have hpool : { s.world with marketPool := s.world.marketPool - value }.Covers fun _ => 0 :=
      (hbacked hS).congr rfl rfl rfl
    simp only [hnone, reduceCtorEq, if_false]
    exact Ledger.changeCash_covers hpool hcash

/-- A delivery lowers what the buyer has set aside and what the contract owes by the same amount, and
leaves every contract settleable that was. -/
theorem settleContract_kept {tick : Tick} {id : ContractId} {r : Option ContractDelivery}
    (hsettleable : ∀ c, s.world.contracts.get? id = some c → c.Settleable)
    (hfit : s.world.Fit g S) (hbacked : S.orderly → s.world.Backed)
    (h : (settleContract tick id).run s = .ok r s') :
    (s'.world.Fit g S ∧ (S.orderly → s'.world.Backed)) ∧
      ∀ i, (∀ c, s.world.contracts.get? i = some c → c.Settleable) →
        ∀ c, s'.world.contracts.get? i = some c → c.Settleable := by
  obtain ⟨c, q, hc, hq, ⟨-, rfl⟩ | ⟨hpos, value, inv, t, -, hinv, hpay, rfl⟩⟩ := settleContract_ok h
  · exact ⟨⟨hfit, hbacked⟩, fun _ hi => hi⟩
  · obtain ⟨hfits, -, -⟩ := deliverable_ok hq
    have hcfit := hfit.contract c (Roster.mem_of_get? hc)
    have hremaining := Contract.outstanding_deliver hfits
    have hopen : c.status.isOpen := by
      rcases hsettleable c hc with hopen | hzero
      · exact hopen
      · rw [hzero] at hfits
        exact absurd (UInt64.le_zero_iff.1 hfits) hpos
    have hbacked₁ (hS : S.orderly) : { s.world with inventory := inv }.Backed :=
      (hbacked hS).congr rfl rfl rfl
    obtain ⟨hfit₂, hcovers⟩ := payDelivery_kept hpay hcfit (hfit.removeStock hinv) hbacked₁
    have hcontracts : t.world.contracts = s.world.contracts := by rw [payDelivery_frame hpay]
    rw [← hcontracts] at hc ⊢
    refine ⟨⟨hfit₂.modifyContract (fun _ => rfl) fun k hk hkfit => ?_, fun hS => ?_⟩,
      fun i hi k hk => ?_⟩
    · rw [hc, Option.some_inj] at hk
      subst hk
      refine { hkfit with fulfilled := fun hS => ?_ }
      have hbound := hkfit.fulfilled hS
      rw [UInt64.le_iff_toNat_le, Contract.outstanding, UInt64.toNat_subSat] at hfits
      rw [Contract.fulfilled_deliver (by
        rw [UInt64.le_iff_toNat_le, Contract.outstanding, UInt64.toNat_subSat]
        exact hfits)]
      show c.fulfilled.toNat + q.toNat ≤ c.quantity.toNat
      omega
    · refine ((hcovers hS).modifyContract hc _).backed fun i => ?_
      have htotal : (c.outstanding.toNat : Int) = (c.deliver q).outstanding.toNat + q.toNat := by omega
      rw [Contract.owedBy_open hopen, Contract.owedBy_deliver, htotal, mul_add]
      split <;> omega
    · have hget : (t.world.contracts.modify id (·.deliver q)).get? i =
          if i = id then (t.world.contracts.get? id).map (·.deliver q) else t.world.contracts.get? i :=
        Roster.get?_modify fun _ => rfl
      change (t.world.contracts.modify id (·.deliver q)).get? i = some k at hk
      rw [hget] at hk
      split at hk
      · rw [hc, Option.map_some, Option.some_inj] at hk
        exact hk ▸ c.deliver_settleable q
      · exact hi k hk

theorem settleContracts_kept {tick : Tick} {deliveries : List ContractDelivery}
    (hfit : s.world.Fit g S) (hbacked : S.orderly → s.world.Backed)
    (h : (settleContracts tick).run s = .ok deliveries s') :
    s'.world.Fit g S ∧ (S.orderly → s'.world.Backed) := by
  obtain ⟨rs, h⟩ := settleContracts_ok h
  have hall := Action.mapM_keeps
    (P := fun t => (t.world.Fit g S ∧ (S.orderly → t.world.Backed)) ∧ ∀ id ∈ s.world.openContracts,
      ∀ c, t.world.contracts.get? id = some c → c.Settleable)
    (fun id hid t r t' ht hrun => by
      obtain ⟨hkept, hothers⟩ := settleContract_kept (ht.2 id hid) ht.1.1 ht.1.2 hrun
      exact ⟨hkept, fun i hi => hothers i (ht.2 i hi)⟩)
    ⟨⟨hfit, hbacked⟩, fun id hid c hc => by
      obtain ⟨k, hk, rfl⟩ := List.mem_map.1 hid
      obtain ⟨hmem, hopen⟩ := List.mem_filter.1 hk
      rw [show k.id = key k from rfl, Roster.get?_of_mem hfit.numbered.contracts.ascending hmem,
        Option.some_inj] at hc
      exact Or.inl (hc ▸ hopen)⟩ h
  exact hall.1

theorem step_kept {cfg : EngineConfig} {r : TickReport × List Trade} (hlocated : S.located)
    (hfit : w.Fit g S) (hbacked : S.orderly → w.Backed) (h : (step cfg).run w = .ok r w') :
    w'.Fit g S ∧ (S.orderly → w'.Backed) := by
  obtain ⟨tick, before, after, drift, o, t, -, -, hphases, hclock, -, -, -, -⟩ := step_ok h
  obtain ⟨s₁, w₂, w₃, s₄, hbots, hclear, hproduction, hdelivered, hdeliveries⟩ := runPhases_ok hphases
  obtain ⟨hfit₁, hbacked₁⟩ := supplyBots_kept hfit hbacked hbots
  obtain ⟨hfit₂, hbacked₂⟩ := clearMarkets_kept hfit₁ hbacked₁ hclear
  obtain ⟨hfit₃, hbacked₃⟩ := runProduction_kept hlocated
    (hfit₂.retainRecentTrades tick _) (fun hS => (hbacked₂ hS).congr rfl rfl rfl) hproduction
  obtain ⟨hfit₄, hbacked₄⟩ := advanceShipments_kept hfit₃ hbacked₃ hdelivered
  obtain ⟨hfit₅, hbacked₅⟩ := settleContracts_kept hfit₄ hbacked₄ hdeliveries
  obtain ⟨v, -, rfl⟩ := moveClock_ok.1 hclock
  exact ⟨hfit₅.withClock _, fun hS => (hbacked₅ hS).congr rfl rfl rfl⟩

/-- A world changes by a command or by a tick, at any settings, that succeeds. -/
inductive Operates : World → World → Prop
  | command {w w' : World} (cfg : EngineConfig) (c : Command) :
      (c.act cfg).run w = .ok () w' → Operates w w'
  | tick {w w' : World} (cfg : EngineConfig) (r : TickReport × List Trade) :
      (step cfg).run w = .ok r w' → Operates w w'

/-- A run of any length. -/
def Runs : World → World → Prop := Relation.ReflTransGen Operates

theorem World.Sound.operates (hw : w.Sound) (h : Operates w w') : w'.Sound := by
  cases h with
  | command cfg c h =>
      obtain ⟨hfit, hbacked⟩ := Command.kept hw.fit (fun _ => hw.backed) h
      exact hfit.sound (hbacked trivial)
  | tick cfg r h =>
      obtain ⟨hfit, hbacked⟩ := step_kept trivial hw.fit (fun _ => hw.backed) h
      exact hfit.sound (hbacked trivial)

theorem World.Sound.runs (hw : w.Sound) (h : Runs w w') : w'.Sound := by
  induction h with
  | refl => exact hw
  | tail _ hlast ih => exact ih.operates hlast

/-- Soundness is kept by every command and by every tick, hence by every run, and the audit of whatever
a run arrives at has a result and records nothing but sums that overflow. -/
theorem soundness : (∀ w w' : World, w.Sound → Operates w w' → w'.Sound) ∧
    ∀ w w' : World, w.Sound → Runs w w' →
      w'.Sound ∧ ∀ limit, ∃ r, audit w' limit = .ok r ∧ ∀ i ∈ r.issues, i = .sumOverflow :=
  ⟨fun _ _ hw h => hw.operates h, fun _ _ hw h => ⟨hw.runs h, (hw.runs h).audit⟩⟩

theorem busyWorld_sound : busyWorld.Sound where
  valid := by decide +kernel
  issued :=
    { regions := by decide +kernel
      items := by decide +kernel
      recipes := by decide +kernel
      companies := by decide +kernel
      buildings := by decide +kernel
      jobs := by decide +kernel
      orders := by decide +kernel
      trades := by decide +kernel
      shipments := by decide +kernel
      contracts := by decide +kernel }
  homes := by decide +kernel
  orders := by decide +kernel
  contracts := by decide +kernel
  reserved := by decide +kernel

/-- The busy world is sound, and it is so after a tick and the cancellation of what the tick left of an
order. -/
theorem soundness_busy : busyWorld.Sound ∧ ∃ w₁ w₂, Operates busyWorld w₁ ∧ Operates w₁ w₂ ∧
    w₁.Sound ∧ w₂.Sound ∧ ∃ r, audit w₂ 10 = .ok r ∧ ∀ i ∈ r.issues, i = .sumOverflow := by
  have hrun : ((step busyConfig >>= fun _ => (Command.cancelOrder ⟨10⟩).act busyConfig).outcome
      busyWorld).isOk := by decide +kernel
  obtain ⟨_, w₂, hrun⟩ := Action.ok_of_outcome_isOk hrun
  obtain ⟨r, w₁, htick, hcancel⟩ := Action.bind_ok.1 hrun
  have hfirst : Operates busyWorld w₁ := .tick busyConfig r htick
  have hsecond : Operates w₁ w₂ := .command busyConfig (.cancelOrder ⟨10⟩) hcancel
  obtain ⟨hstep, hruns⟩ := soundness
  obtain ⟨hend, haudit⟩ := hruns busyWorld w₂ busyWorld_sound (.tail (.single hfirst) hsecond)
  exact ⟨busyWorld_sound, w₁, w₂, hfirst, hsecond, hstep busyWorld w₁ busyWorld_sound hfirst, hend,
    haudit 10⟩

end Mercantile
