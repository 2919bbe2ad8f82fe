import Mercantile.Proofs.Voyages

/-!
Debts come from delivery fees alone. The relation `World.Retains` compares the companies of two worlds row by
row and gives each a floor under its cash. A command never takes cash that is not there
(`Command.retains`), and of the phases of a tick only the arrivals of shipments take any, each no more than
its fee (`deliveries_retain`); what the others do is a gain (`World.Gains`), given that prices are
positive, which every operation keeps (`World.Priced`). Where deliveries are free nobody gets into debt in any
run (`only_fees_indebt`).
-/

namespace Mercantile

variable {w w₁ w' : World} {s s' : Account}

/-- The companies are the same ones, and each is left with at least as much cash as the floor says. -/
def World.Retains (floor : Company → Int) (w w' : World) : Prop :=
  List.Forall₂ (fun c c' => c'.id = c.id ∧ floor c ≤ c'.cash.toInt) w.companies w'.companies

/-- No company has less cash than before. -/
def World.Gains (w w' : World) : Prop := w.Retains (·.cash.toInt) w'

namespace World

namespace Retains

variable {floor floor₁ floor₂ : Company → Int}

theorem of_companies_eq (hfloor : ∀ c, floor c ≤ c.cash.toInt) (h : w'.companies = w.companies) :
    w.Retains floor w' := by
  rw [Retains, h, List.forall₂_same]
  exact fun c _ => ⟨rfl, hfloor c⟩

/-- Two stretches make one, whose floor lies under the floors of both. -/
theorem trans (h : w.Retains floor₁ w₁) (h' : w₁.Retains floor₂ w')
    (hfloor : ∀ c c', c'.id = c.id → floor₁ c ≤ c'.cash.toInt → floor c ≤ floor₂ c') :
    w.Retains floor w' := by
  refine forall₂_trans (fun a b c hab hbc => ?_) h h'
  exact ⟨hbc.1.trans hab.1, (hfloor a b hab.1 hab.2).trans hbc.2⟩

/-- A change of one company's money leaves the others above a floor that they are on. -/
theorem modifyCompany {i : CompanyId} {c : Company} {f : Company → Company} (hid : ∀ d, (f d).id = d.id)
    (hfloor : ∀ d, floor d ≤ d.cash.toInt) (hc : w.companies.get? i = some c)
    (hf : floor c ≤ (f c).cash.toInt) : w.Retains floor (w.modifyCompany i f) := by
  obtain ⟨before, after, hold, hnew⟩ := Roster.get?_split hc
  show List.Forall₂ _ w.companies (w.companies.modify i f)
  rw [hnew, hold]
  have hothers (cs : List Company) :
      List.Forall₂ (fun d d' : Company => d'.id = d.id ∧ floor d ≤ d'.cash.toInt) cs cs :=
    List.forall₂_same.2 fun d _ => ⟨rfl, hfloor d⟩
  exact List.rel_append (hothers before) (.cons ⟨hid c, hf⟩ (hothers after))

/-- Every company of the later world is one of the earlier. -/
theorem exists_earlier (h : w.Retains floor w') {c' : Company} (hc' : c' ∈ w'.companies) :
    ∃ c ∈ w.companies, c'.id = c.id ∧ floor c ≤ c'.cash.toInt :=
  exists_of_forall₂_mem h.flip hc'

end Retains

namespace Gains

theorem of_companies_eq (h : w'.companies = w.companies) : w.Gains w' :=
  Retains.of_companies_eq (fun _ => Int.le_refl _) h

theorem trans (h : w.Gains w₁) (h' : w₁.Gains w') : w.Gains w' :=
  Retains.trans h h' fun _ _ _ hle => hle

theorem modifyCompany {i : CompanyId} {c : Company} {f : Company → Company} (hid : ∀ d, (f d).id = d.id)
    (hc : w.companies.get? i = some c) (hf : c.cash.toInt ≤ (f c).cash.toInt) :
    w.Gains (w.modifyCompany i f) :=
  Retains.modifyCompany hid (fun _ => Int.le_refl _) hc hf

end Gains

end World

namespace Ledger

variable {i buyer seller : CompanyId} {amount : Cents} {u : Unit}

/-- Cash is set aside only as far as it is there. -/
theorem reserve_retains (h : (reserve i amount).run w = .ok u w') :
    w.Retains (fun c => min c.cash.toInt 0) w' := by
  obtain ⟨c, hc, hneg, hfunds, reserved, -, rfl⟩ := reserve_ok.1 h
  refine .modifyCompany (fun _ => rfl) (fun d => Int.min_le_left _ _) hc ?_
  have hcash : (c.cash - amount).toInt = c.cash.toInt - amount.toInt :=
    Int64.toInt_sub_of_not_lt hneg hfunds
  rw [Int64.not_lt, Int64.le_iff_toInt_le] at hfunds
  show min c.cash.toInt 0 ≤ (c.cash - amount).toInt
  omega

theorem release_gains (h : (release i amount).run w = .ok u w') : w.Gains w' := by
  obtain ⟨c, hc, hfunds, cash, hcash, rfl⟩ := release_ok.1 h
  refine .modifyCompany (fun _ => rfl) hc ?_
  rw [not_or, Int64.not_lt, Int64.le_iff_toInt_le] at hfunds
  have hamount : 0 ≤ amount.toInt := hfunds.1
  show c.cash.toInt ≤ cash.toInt
  omega

theorem changeCash_gains {f : Cents → Option Cents} {figure : Figure}
    (hf : ∀ a b, f a = some b → a.toInt ≤ b.toInt) (h : (changeCash i f figure).run w = .ok u w') :
    w.Gains w' := by
  obtain ⟨c, hc, cash, hcash, rfl⟩ := changeCash_ok.1 h
  exact .modifyCompany (fun _ => rfl) hc (hf c.cash cash hcash)

/-- Neither side of a settlement loses cash: the buyer pays out of what was set aside and gets the rest
back. -/
theorem settle_gains {reservedPrice price : Cents} {q : Quantity} {r : Settlement}
    (hprice : 0 ≤ price.toInt) (h : (settle buyer seller reservedPrice price q).run w = .ok r w') :
    w.Gains w' := by
  obtain ⟨hlimit, debited, paid, b, w₁, c, hdebited, hpaid, hb, -, ⟨cash, reserved, hcash, -, rfl⟩, hc,
    sellerCash, hseller, rfl⟩ := settle_ok h
  have hnonneg := notional_nonneg hprice hpaid
  have hpart := notional_mono hlimit hdebited hpaid
  rw [Int64.not_lt, Int64.le_iff_toInt_le] at hpart
  have hdebit := World.Gains.modifyCompany (f := fun c => { c with cash, reserved }) (fun _ => rfl) hb
    (show b.cash.toInt ≤ cash.toInt by omega)
  have hpay := World.Gains.modifyCompany (f := fun c => { c with cash := sellerCash }) (fun _ => rfl) hc
    (show c.cash.toInt ≤ sellerCash.toInt by omega)
  exact hdebit.trans hpay

end Ledger

/-- A command takes no cash that a company does not have. -/
theorem Command.retains {cfg : EngineConfig} {c : Command} (h : (c.act cfg).run w = .ok () w') :
    w.Retains (fun c => min c.cash.toInt 0) w' := by
  rcases Command.act_companies h with hsame | ⟨i, amount, w₁, hcompanies, hreserve | hrelease⟩
  · exact .of_companies_eq (fun _ => Int.min_le_left _ _) hsame
  · have hretains := Ledger.reserve_retains hreserve
    rw [World.Retains, hcompanies]
    exact hretains
  · have hgains := Ledger.release_gains hrelease
    rw [World.Retains, hcompanies]
    exact hgains.imp fun c c' hc => ⟨hc.1, (Int.min_le_left _ _).trans hc.2⟩

theorem supplyBots_gains {cfg : BotConfig} {u : Unit} (h : (supplyBots cfg).run s = .ok u s') :
    s.world.Gains s'.world := by
  rcases supplyBots_ok h with ⟨-, rfl⟩ | ⟨hpos, h⟩
  · exact .of_companies_eq rfl
  · refine Action.forM_keeps (P := fun t => s.world.Gains t.world) (fun bot _ t t' ht hrun => ?_)
      (.of_companies_eq rfl) h
    obtain ⟨w₁, hcash, inflow, -, rfl⟩ := Ledger.credit_ok.1 hrun
    refine ht.trans (Ledger.changeCash_gains (fun a b hab => ?_) hcash)
    have hamount := World.zero_lt_iff.1 hpos
    rw [Int64.add?_eq_some.1 hab]
    omega

theorem clearMarkets_prices {tick : Tick} {trades : List Trade}
    (h : (clearMarkets tick).run w = .ok trades w') : w'.orders.map (·.price) = w.orders.map (·.price) := by
  obtain ⟨w₁, hfills, rfl⟩ := clearMarkets_ok.1 h
  refine Action.mapM_keeps (P := fun t => t.orders.map (·.price) = w.orders.map (·.price))
    (fun m _ t r t' ht hrun => ?_) rfl hfills
  obtain ⟨r, w₂, inv, b, a, bidLeft, askLeft, hsettle, -, -, -, -, -, -, -, rfl⟩ := applyFill_ok hrun
  have hsettled : w₂.orders = t.orders := by rw [(Ledger.settle_moved hsettle).frame]
  have hleft {q : Quantity} (o : Order) : (o.leave q).price = o.price := rfl
  rw [← ht, ← hsettled]
  exact (Roster.map_modify hleft).trans (Roster.map_modify hleft)

theorem clearMarkets_gains {tick : Tick} {trades : List Trade} (hprices : ∀ o ∈ w.orders, 0 < o.price)
    (h : (clearMarkets tick).run w = .ok trades w') : w.Gains w' := by
  obtain ⟨w₁, hfills, rfl⟩ := clearMarkets_ok.1 h
  have hgains : w.Gains w₁ := by
    refine Action.mapM_keeps (P := fun t => w.Gains t) (fun m hm t r t' ht hrun => ?_)
      (.of_companies_eq rfl) hfills
    obtain ⟨r, w₂, inv, b, a, bidLeft, askLeft, hsettle, -, -, -, -, -, -, -, rfl⟩ := applyFill_ok hrun
    obtain ⟨o, ho, hprice⟩ := World.price_of_mem_matchList hm
    have hpos : 0 ≤ m.2.price.toInt := by
      rw [← hprice]
      exact (World.zero_lt_iff.1 (hprices o ho)).le
    have hgained := Ledger.settle_gains hpos hsettle
    exact ht.trans hgained
  exact hgains

/-- A delivery under a contract costs the buyer nothing that was not set aside. -/
theorem payDelivery_gains {c : Contract} {q : Quantity} {value : Cents} {u : Unit}
    (hprice : 0 ≤ c.price.toInt) (hvalue : notional c.price q = .ok value)
    (h : (payDelivery c q value).run s = .ok u s') : s.world.Gains s'.world := by
  rcases payDelivery_ok h with ⟨buyer, r, w₁, inv, -, hsettle, -, rfl⟩ | ⟨-, w₁, inflow, hcash, -, rfl⟩
  · have hgains := Ledger.settle_gains hprice hsettle
    exact hgains
  · have hpaid : 0 ≤ value.toInt := by
      rw [(notional_ok.1 hvalue).2]
      exact Int.mul_nonneg hprice (Int.natCast_nonneg _)
    have hgains := Ledger.changeCash_gains (fun a b hab => ?_) hcash
    · exact hgains
    · rw [Int64.add?_eq_some.1 hab]
      omega

/-- Settling a contract leaves its terms alone, prices among them. -/
theorem settleContract_prices {tick : Tick} {id : ContractId} {r : Option ContractDelivery}
    (h : (settleContract tick id).run s = .ok r s') :
    s'.world.contracts.map (·.price) = s.world.contracts.map (·.price) := by
  obtain ⟨g, hterms, hcontracts⟩ := settleContract_contracts h
  rw [hcontracts]
  exact Roster.map_modify fun c => show (terms (g c)).price = (terms c).price by rw [hterms]

theorem settleContracts_prices {tick : Tick} {deliveries : List ContractDelivery}
    (h : (settleContracts tick).run s = .ok deliveries s') :
    s'.world.contracts.map (·.price) = s.world.contracts.map (·.price) := by
  obtain ⟨rs, h⟩ := settleContracts_ok h
  exact Action.mapM_keeps (P := fun t => t.world.contracts.map (·.price) = s.world.contracts.map (·.price))
    (fun id _ t r t' ht hrun => (settleContract_prices hrun).trans ht) rfl h

theorem settleContracts_gains {tick : Tick} {deliveries : List ContractDelivery}
    (hprices : ∀ c ∈ s.world.contracts, 0 < c.price)
    (h : (settleContracts tick).run s = .ok deliveries s') : s.world.Gains s'.world := by
  obtain ⟨rs, h⟩ := settleContracts_ok h
  have hall := Action.mapM_keeps
    (P := fun t => s.world.Gains t.world ∧ t.world.contracts.map (·.price) = s.world.contracts.map (·.price))
    (fun id _ t r t' ht hrun => ?_) ⟨.of_companies_eq rfl, rfl⟩ h
  · exact hall.1
  · refine ⟨?_, (settleContract_prices hrun).trans ht.2⟩
    obtain ⟨c, q, hc, -, ⟨-, rfl⟩ | ⟨-, value, inv, v, hvalue, -, hpay, rfl⟩⟩ := settleContract_ok hrun
    · exact ht.1
    · have hmem : c.price ∈ s.world.contracts.map (·.price) := by
        rw [← ht.2]
        exact List.mem_map_of_mem (Roster.mem_of_get? hc)
      obtain ⟨d, hd, hprice⟩ := List.mem_map.1 hmem
      have hpos := World.zero_lt_iff.1 (hprices d hd)
      rw [hprice] at hpos
      have hpaid := payDelivery_gains hpos.le hvalue hpay
      exact ht.1.trans hpaid

theorem Shipment.costTo_nonneg (cfg : LogisticsConfig) (multipliers : MultiplierTable) (i : CompanyId)
    (sh : Shipment) : 0 ≤ sh.costTo cfg multipliers i := by
  have hcost : 0 ≤ sh.cost cfg multipliers := by
    rw [cost]
    split
    · exact Int.le_max_right _ _
    · exact Int.le_refl 0
  rw [costTo]
  split
  · exact hcost
  · exact Int.le_refl 0

theorem deliverShipment_retains {cfg : LogisticsConfig} {multipliers : MultiplierTable} {sh : Shipment}
    {id : ShipmentId} (h : (deliverShipment multipliers cfg sh).run s = .ok id s') :
    s.world.Retains (fun c => c.cash.toInt - sh.costTo cfg multipliers c.id) s'.world := by
  obtain ⟨inv, fee, t, -, hfee, hcharge, rfl⟩ := deliverShipment_ok h
  have hfloor (c : Company) : c.cash.toInt - sh.costTo cfg multipliers c.id ≤ c.cash.toInt :=
    Int.sub_le_self _ (sh.costTo_nonneg cfg multipliers c.id)
  rcases hcharge with ⟨-, rfl⟩ | ⟨-, hcharge⟩
  · exact .of_companies_eq hfloor rfl
  · obtain ⟨w₁, hchange, outflow, -, rfl⟩ := Ledger.charge_ok.1 hcharge
    obtain ⟨c, hc, cash, hcash, rfl⟩ := Ledger.changeCash_ok.1 hchange
    refine .modifyCompany (w := s.world) (fun _ => rfl) hfloor hc ?_
    have hown : sh.company = c.id := (Roster.key_of_get? hc).symm
    rw [Shipment.costTo, if_pos hown, Shipment.cost_of_ok hfee]
    show c.cash.toInt - max fee.toInt 0 ≤ cash.toInt
    rw [Int64.sub?_eq_some.1 hcash]
    omega

/-- Arrivals cost a company no more than the fees of its own shipments. -/
theorem deliveries_retain {cfg : LogisticsConfig} {multipliers : MultiplierTable} {shs : List Shipment}
    {ids : List ShipmentId} (h : (shs.mapM (deliverShipment multipliers cfg)).run s = .ok ids s') :
    s.world.Retains (fun c => c.cash.toInt - (shs.map (Shipment.costTo cfg multipliers c.id)).sum)
      s'.world := by
  induction shs generalizing s ids with
  | nil =>
      obtain ⟨-, rfl⟩ := Action.mapM_nil_ok.1 h
      exact .of_companies_eq (fun c => Int.le_of_eq (Int.sub_zero _)) rfl
  | cons sh shs ih =>
      obtain ⟨id, t, rest, hfirst, hrest, -⟩ := Action.mapM_cons_ok.1 h
      refine (deliverShipment_retains hfirst).trans (ih hrest) fun c c' hid hle => ?_
      rw [hid, List.map_cons, List.sum_cons]
      omega

/-- The shipments that arrive by a tick. -/
def World.due (w : World) (tick : Tick) : List Shipment := w.shipments.filter (·.isDue tick)

/-- What the arrivals by a tick cost a company. -/
def World.feesOf (w : World) (cfg : EngineConfig) (tick : Tick) (i : CompanyId) : Int :=
  ((w.due tick).map (Shipment.costTo cfg.logistics (companyMultipliers w cfg.workforce) i)).sum

/-- What a tick costs companies: the fees of their own arrivals and nothing else. -/
structure Charges (cfg : EngineConfig) (w : World) (o : TickOutcome) (w' : World) : Prop where
  delivered : o.delivered = (w.due w'.clock.currentTick).map (·.id)
  /-- What an arrival costs is its fee. -/
  fees : ∀ sh ∈ w.due w'.clock.currentTick, ∃ fee : Cents,
    deliveryFee cfg.logistics sh.quantity
      ((companyMultipliers w cfg.workforce).of sh.company).logistics = .ok fee ∧
    sh.cost cfg.logistics (companyMultipliers w cfg.workforce) = max fee.toInt 0 ∧
    (cfg.check = .ok () → 0 ≤ fee.toInt)
  cash : w.Retains (fun c => c.cash.toInt - w.feesOf cfg w'.clock.currentTick c.id) w'

theorem Ticks.charges {cfg : EngineConfig} {o : TickOutcome} (h : Ticks cfg w o w')
    (horders : ∀ o ∈ w.orders, 0 < o.price) (hcontracts : ∀ c ∈ w.contracts, 0 < c.price) :
    Charges cfg w o w' := by
  obtain ⟨before, after, harrives⟩ := h.arrives
  obtain ⟨hbefore, hdelivers⟩ := harrives.deliveries
  obtain ⟨tick, s₁, w₂, t, -, hbots, hclear, hproduction, -, hdelivered, hdeliveries, hclock⟩ := harrives
  obtain ⟨v, -, rfl⟩ := moveClock_ok.1 hclock
  have hrun : ((w.due tick).mapM (deliverShipment (companyMultipliers w cfg.workforce) cfg.logistics)).run before =
      .ok o.delivered after := hdelivers
  have hmoved : w.MoneyMoved s₁.world := supplyBots_moved hbots
  have hproduced := runProduction_frame hproduction
  have hcleared := clearMarkets_frame hclear
  have horders₁ : s₁.world.orders = w.orders := by rw [hmoved.frame]
  have hcontracts₄ : after.world.contracts = w.contracts := by
    rw [advanceShipments_frame hdelivered, hproduced, World.retainRecentTrades, hcleared, hmoved.frame]
  have hgained : w.Gains before.world := by
    refine (supplyBots_gains hbots).trans ((clearMarkets_gains (horders₁ ▸ horders) hclear).trans ?_)
    exact .of_companies_eq (by rw [hproduced]; rfl)
  have hafter : after.world.Gains t.world :=
    settleContracts_gains (hcontracts₄ ▸ hcontracts) hdeliveries
  refine
    { delivered := by rw [advanceShipments_ids hdelivered, hbefore, World.due]
      fees := fun sh hsh => ?_
      cash := ?_ }
  · obtain ⟨fee, hfee⟩ := (deliveries_landed hrun).fees sh hsh
    refine ⟨fee, hfee, Shipment.cost_of_ok hfee, fun hcfg => ?_⟩
    obtain ⟨hfloor, hunit, -⟩ := EngineConfig.check_ok hcfg
    have hnonneg := deliveryFee_nonneg hunit (logistics_pos hfloor sh.company) hfee
    rw [Int64.not_lt, Int64.le_iff_toInt_le] at hnonneg
    exact hnonneg
  · have harrived : w.Retains (fun c => c.cash.toInt - w.feesOf cfg tick c.id) after.world := by
      refine World.Retains.trans hgained (deliveries_retain hrun) fun c c' hid hle => ?_
      rw [hid, World.feesOf]
      omega
    exact harrived.trans hafter fun _ _ _ hle => hle

theorem deliveryFee_free {cfg : LogisticsConfig} {q : Quantity} {logistics : Decimal} {fee : Cents}
    (hfree : cfg.feePerUnit = 0) (h : deliveryFee cfg q logistics = .ok fee) : fee.toInt = 0 := by
  have hzero : (0 : Int64).toInt = 0 := by decide
  have hfit : Decimal.fit? 0 = some 0 := by decide +kernel
  simp only [deliveryFee, orFail_ok, Option.bind_eq_bind, Option.bind_eq_some_iff, Int64.ofInt?_eq_some,
    Decimal.mul?, Decimal.div?, Option.ite_none_left_eq_some, hfree, hzero] at h
  obtain ⟨gross, hgross, quotient, ⟨-, hquotient⟩, hfee⟩ := h
  rw [Int.cast_zero, zero_mul, hfit, Option.some_inj] at hgross
  rw [← hgross, zero_div, hfit, Option.some_inj] at hquotient
  rw [hfee, ← hquotient]
  rfl

theorem World.feesOf_free {cfg : EngineConfig} (hfree : cfg.logistics.feePerUnit = 0) (w : World)
    (tick : Tick) (i : CompanyId) : w.feesOf cfg tick i = 0 := by
  refine List.sum_eq_zero fun x hx => ?_
  obtain ⟨sh, -, rfl⟩ := List.mem_map.1 hx
  rw [Shipment.costTo]
  split
  · rw [Shipment.cost]
    split
    · next fee hfee => rw [deliveryFee_free hfree hfee, Int.max_self]
    · rfl
  · rfl

/-- An operation whose settings, if it is a tick, are of a certain kind. -/
inductive OperatesUnder (P : EngineConfig → Prop) : World → World → Prop
  | command {w w' : World} (cfg : EngineConfig) (c : Command) :
      (c.act cfg).run w = .ok () w' → OperatesUnder P w w'
  | tick {w w' : World} (cfg : EngineConfig) (r : TickReport × List Trade) :
      P cfg → (step cfg).run w = .ok r w' → OperatesUnder P w w'

/-- A run whose ticks are all at settings of a certain kind. -/
def RunsUnder (P : EngineConfig → Prop) : World → World → Prop := Relation.ReflTransGen (OperatesUnder P)

/-- No company has cash below zero. -/
def World.DebtFree (w : World) : Prop := ∀ c ∈ w.companies, 0 ≤ c.cash.toInt

instance (w : World) : Decidable w.DebtFree :=
  inferInstanceAs (Decidable (∀ c ∈ w.companies, 0 ≤ c.cash.toInt))

theorem World.DebtFree.retains {floor : Company → Int} (hw : w.DebtFree) (h : w.Retains floor w')
    (hfloor : ∀ c : Company, 0 ≤ c.cash.toInt → 0 ≤ floor c) : w'.DebtFree := by
  intro c' hc'
  obtain ⟨c, hc, -, hle⟩ := h.exists_earlier hc'
  exact (hfloor c (hw c hc)).trans hle

/-- Orders and contracts are at positive prices. -/
structure World.Priced (w : World) : Prop where
  orders : ∀ o ∈ w.orders, 0 < o.price
  contracts : ∀ c ∈ w.contracts, 0 < c.price

theorem World.Regular.priced (h : w.Regular) : w.Priced := ⟨h.orders, h.contracts⟩

/-- Nothing but the prices matters. -/
theorem World.Priced.congr (hw : w.Priced) (horders : w'.orders.map (·.price) = w.orders.map (·.price))
    (hcontracts : w'.contracts.map (·.price) = w.contracts.map (·.price)) : w'.Priced where
  orders := by
    have hpositive : ∀ p ∈ w.orders.map (·.price), 0 < p := List.forall_mem_map.2 hw.orders
    rw [← horders] at hpositive
    exact List.forall_mem_map.1 hpositive
  contracts := by
    have hpositive : ∀ p ∈ w.contracts.map (·.price), 0 < p := List.forall_mem_map.2 hw.contracts
    rw [← hcontracts] at hpositive
    exact List.forall_mem_map.1 hpositive

/-- A command puts up no order and no contract at a price that is not positive. -/
theorem Command.priced {cfg : EngineConfig} {c : Command} (hw : w.Priced) (h : (c.act cfg).run w = .ok () w') :
    w'.Priced := by
  cases c with
  | placeOrder r =>
      obtain ⟨id, h, -⟩ := Action.map_ok.1 h
      have hprice : 0 < r.price := Int64.not_le.1 (placeOrder_ok h).1
      rw [(placeOrder_frame h).2]
      exact { hw with orders := List.forall_mem_append.2 ⟨hw.orders, List.forall_mem_singleton.2 hprice⟩ }
  | cancelOrder id =>
      obtain ⟨o, -, -, hframe⟩ := cancelOrder_frame h
      rw [hframe]
      exact hw.congr (Roster.map_modify fun _ => rfl) rfl
  | createContract r =>
      obtain ⟨id, h, -⟩ := Action.map_ok.1 h
      have hprice : 0 < r.price := Int64.not_le.1 (not_or.1 (createContract_ok h).1).1
      rw [(createContract_frame h).2]
      exact
        { hw with contracts := List.forall_mem_append.2 ⟨hw.contracts, List.forall_mem_singleton.2 hprice⟩ }
  | cancelContract id =>
      obtain ⟨c, -, -, hframe⟩ := cancelContract_frame h
      rw [hframe]
      exact hw.congr rfl (Roster.map_modify fun _ => rfl)
  | startJob r =>
      obtain ⟨id, h, -⟩ := Action.map_ok.1 h
      obtain ⟨-, -, building, recipe, inputs, -, -, -, -, -, -, -, -, rfl⟩ := startJob_ok h
      exact hw.congr rfl rfl
  | cancelJob id =>
      obtain ⟨j, -, -, rfl⟩ := cancelJob_ok h
      exact hw.congr rfl rfl
  | createShipment r =>
      obtain ⟨id, h, -⟩ := Action.map_ok.1 h
      obtain ⟨-, -, -, -, -, -, -, eta, inv, -, -, -, rfl⟩ := createShipment_ok h
      exact hw.congr rfl rfl
  | cancelShipment id =>
      obtain ⟨sh, inv, -, -, -, rfl⟩ := cancelShipment_ok h
      exact hw.congr rfl rfl
  | setAllocation a =>
      obtain ⟨-, -, rfl⟩ := setAllocation_ok h
      exact hw.congr rfl rfl

/-- A tick changes no price. -/
theorem Ticks.priced {cfg : EngineConfig} {o : TickOutcome} (hw : w.Priced) (h : Ticks cfg w o w') :
    w'.Priced := by
  obtain ⟨before, after, tick, s₁, w₂, t, -, hbots, hclear, hproduction, -, hdelivered, hdeliveries, hclock⟩ :=
    h.arrives
  obtain ⟨v, -, rfl⟩ := moveClock_ok.1 hclock
  have hmoved : w.MoneyMoved s₁.world := supplyBots_moved hbots
  have hproduced := runProduction_frame hproduction
  have harrived := advanceShipments_frame hdelivered
  have hsettled := settleContracts_frame hdeliveries
  have hcontracts₄ : after.world.contracts = w.contracts := by
    rw [harrived, hproduced, World.retainRecentTrades, clearMarkets_frame hclear, hmoved.frame]
  have horders' : t.world.orders = w₂.orders := by
    rw [hsettled, harrived, hproduced, World.retainRecentTrades]
  have horders : w₂.orders.map (·.price) = w.orders.map (·.price) := by
    rw [clearMarkets_prices hclear, hmoved.frame]
  have hcontracts := settleContracts_prices hdeliveries
  rw [hcontracts₄] at hcontracts
  rw [← horders'] at horders
  exact hw.congr horders hcontracts

/-- Where deliveries are free, an operation leaves nobody in debt who was not. -/
theorem World.Priced.debtFree_operates (hw : w.Priced) (hfree : w.DebtFree)
    (h : OperatesUnder (·.logistics.feePerUnit = 0) w w') : w'.Priced ∧ w'.DebtFree := by
  cases h with
  | command cfg c h =>
      refine ⟨Command.priced hw h, hfree.retains (Command.retains h) fun c hc => ?_⟩
      exact Int.le_min.2 ⟨hc, Int.le_refl 0⟩
  | tick cfg r hzero h =>
      obtain ⟨o, hticks⟩ := step_ticks h
      refine ⟨hticks.priced hw, hfree.retains (hticks.charges hw.orders hw.contracts).cash fun c hc => ?_⟩
      rw [World.feesOf_free hzero, Int.sub_zero]
      exact hc

theorem World.Priced.debtFree_runs (hw : w.Priced) (hfree : w.DebtFree) {u : World}
    (h : RunsUnder (·.logistics.feePerUnit = 0) w u) : u.Priced ∧ u.DebtFree := by
  induction h with
  | refl => exact ⟨hw, hfree⟩
  | tail _ hlast ih => exact ih.1.debtFree_operates ih.2 hlast

/-- Only delivery fees get companies of a regular world into debt. A command leaves each of them its cash or
zero at least, a tick leaves it its cash without the fees of its own arrivals, and in runs in which
deliveries are free nobody's cash gets below zero. -/
theorem only_fees_indebt (hw : w.Regular) :
    (∀ (cfg : EngineConfig) (c : Command) (w' : World), (c.act cfg).run w = .ok () w' →
      w.Retains (fun c => min c.cash.toInt 0) w') ∧
    (∀ (cfg : EngineConfig) (r : TickReport × List Trade) (w' : World), (step cfg).run w = .ok r w' →
      ∃ o, Ticks cfg w o w' ∧ Charges cfg w o w') ∧
    (w.DebtFree → ∀ u, RunsUnder (·.logistics.feePerUnit = 0) w u → u.DebtFree) := by
  refine ⟨fun cfg c w' h => Command.retains h, fun cfg r w' h => ?_,
    fun hfree u h => (hw.priced.debtFree_runs hfree h).2⟩
  obtain ⟨o, hticks⟩ := step_ticks h
  exact ⟨o, hticks, hticks.charges hw.orders hw.contracts⟩

/-- At a high fee the mine cannot pay for its shipment and gets into debt. Where shipments are free nobody
does, also when the smith sets money aside for another order. -/
theorem only_fees_indebt_busy : busyWorld.Regular ∧ busyWorld.DebtFree ∧
    (∃ w', ((Command.placeOrder ⟨⟨7⟩, ⟨1⟩, ⟨3⟩, .buy, 10, 5⟩).act busyConfig).run busyWorld = .ok () w' ∧
      busyWorld.Retains (fun c => min c.cash.toInt 0) w') ∧
    (∃ cfg o w', cfg.check = .ok () ∧ Ticks cfg busyWorld o w' ∧ Charges cfg busyWorld o w' ∧
      busyWorld.feesOf cfg 5 ⟨6⟩ = 4000 ∧ ¬ w'.DebtFree) ∧
    ∃ cfg r w' u, (step cfg).run busyWorld = .ok r w' ∧
      ((Command.placeOrder ⟨⟨7⟩, ⟨1⟩, ⟨3⟩, .buy, 10, 5⟩).act cfg).run w' = .ok () u ∧
      RunsUnder (·.logistics.feePerUnit = 0) busyWorld u ∧ u.DebtFree := by
  have hfree : busyWorld.DebtFree := by decide +kernel
  have hplaced : (((Command.placeOrder ⟨⟨7⟩, ⟨1⟩, ⟨3⟩, .buy, 10, 5⟩).act busyConfig).outcome
      busyWorld).isOk := by decide +kernel
  have hcostly : ((step { busyConfig with logistics := ⟨1000, 1⟩ }).outcome busyWorld).map
      (fun r => decide r.2.DebtFree) = .ok false := by decide +kernel
  have hgratis : ((step { busyConfig with logistics := ⟨0, 1⟩ } >>= fun _ =>
      (Command.placeOrder ⟨⟨7⟩, ⟨1⟩, ⟨3⟩, .buy, 10, 5⟩).act
        { busyConfig with logistics := ⟨0, 1⟩ }).outcome busyWorld).isOk := by decide +kernel
  obtain ⟨hcommand, htick, hrun⟩ := only_fees_indebt busyWorld_sound.regular
  refine ⟨busyWorld_sound.regular, hfree, ?_, ?_, ?_⟩
  · obtain ⟨_, w', hplace⟩ := Action.ok_of_outcome_isOk hplaced
    exact ⟨w', hplace, hcommand _ _ w' hplace⟩
  · obtain ⟨⟨r, w'⟩, hstep, hdebt⟩ := Check.map_ok.1 hcostly
    obtain ⟨o, hticks, hcharges⟩ := htick _ r w' (Action.outcome_ok.1 hstep)
    exact ⟨_, o, w', by decide +kernel, hticks, hcharges, by decide +kernel, of_decide_eq_false hdebt.symm⟩
  · obtain ⟨_, u, hboth⟩ := Action.ok_of_outcome_isOk hgratis
    obtain ⟨r, w', hstep, hplace⟩ := Action.bind_ok.1 hboth
    have hruns : RunsUnder (·.logistics.feePerUnit = 0) busyWorld u :=
      .tail (.single (.tick _ r rfl hstep)) (.command _ _ hplace)
    exact ⟨_, r, w', u, hstep, hplace, hruns, hrun hfree u hruns⟩

end Mercantile
