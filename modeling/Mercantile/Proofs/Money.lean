import Mathlib.Algebra.Order.Field.Rat
import Mercantile.Proofs.Commands
import Mercantile.Proofs.Phases

/-!
Conservation of money. Commands keep the total of cash and reserved cash exactly
(`Command.holdings_act`). A tick keeps what companies hold besides the flows of its account
(`runPhases_money`), so the drift that it reports is zero.
-/

namespace Mercantile

namespace World

/-- The money that companies hold: the sum of cash and the sum of reserved cash. -/
def holdings (w : World) : Int :=
  (w.companies.map (·.cash.toInt)).sum + (w.companies.map (·.reserved.toInt)).sum

variable {w w' : World}

theorem holdings_modifyCompany {i : CompanyId} {c : Company} (h : w.companies.get? i = some c)
    (f : Company → Company) : (w.modifyCompany i f).holdings + (c.cash.toInt + c.reserved.toInt) =
      w.holdings + ((f c).cash.toInt + (f c).reserved.toInt) := by
  have hcash := Roster.sum_modify h f fun c => c.cash.toInt
  have hreserved := Roster.sum_modify h f fun c => c.reserved.toInt
  simp only [holdings, modifyCompany]
  omega

theorem checkedSum_eq_some {cs : List Cents} {total : Cents} (h : checkedSum cs = some total) :
    total.toInt = (cs.map (·.toInt)).sum := by
  suffices hfold : ∀ start, cs.foldlM Int64.add? start = some total →
      total.toInt = start.toInt + (cs.map (·.toInt)).sum by
    have := hfold 0 h
    rw [this]
    exact Int.zero_add _
  clear h
  induction cs with
  | nil =>
      intro start h
      rw [List.foldlM_nil, Option.pure_def, Option.some_inj] at h
      rw [h]
      simp
  | cons c cs ih =>
      intro start h
      rw [List.foldlM_cons, Option.bind_eq_bind, Option.bind_eq_some_iff] at h
      obtain ⟨next, hnext, h⟩ := h
      rw [ih next h, Int64.add?_eq_some.1 hnext, List.map_cons, List.sum_cons, Int.add_assoc]

/-- The ledger total, where there is one, is the money that companies hold. -/
theorem ledgerTotal?_eq_some {total : Cents} (h : w.ledgerTotal? = some total) :
    total.toInt = w.holdings := by
  simp only [ledgerTotal?, Option.bind_eq_bind, Option.bind_eq_some_iff, Int64.add?_eq_some] at h
  obtain ⟨cash, hcash, reserved, hreserved, htotal⟩ := h
  rw [htotal, checkedSum_eq_some hcash, checkedSum_eq_some hreserved, List.map_map, List.map_map]
  rfl

end World

namespace Ledger

variable {w w' : World} {i buyer seller : CompanyId} {amount : Cents} {u : Unit}

theorem holdings_reserve (h : (reserve i amount).run w = .ok u w') : w'.holdings = w.holdings := by
  obtain ⟨c, hc, hneg, hfunds, reserved, hreserved, rfl⟩ := reserve_ok.1 h
  have hsum := World.holdings_modifyCompany hc fun c => { c with cash := c.cash - amount, reserved }
  have hcash : (c.cash - amount).toInt = c.cash.toInt - amount.toInt :=
    Int64.toInt_sub_of_not_lt hneg hfunds
  simp only [hcash, hreserved] at hsum
  omega

theorem holdings_release (h : (release i amount).run w = .ok u w') : w'.holdings = w.holdings := by
  obtain ⟨c, hc, hfunds, cash, hcash, rfl⟩ := release_ok.1 h
  rw [not_or] at hfunds
  have hsum := World.holdings_modifyCompany hc fun c => { c with cash, reserved := c.reserved - amount }
  have hreserved : (c.reserved - amount).toInt = c.reserved.toInt - amount.toInt :=
    Int64.toInt_sub_of_not_lt hfunds.1 hfunds.2
  simp only [hcash, hreserved] at hsum
  omega

theorem holdings_changeCash {f : Cents → Option Cents} {figure : Figure} {d : Int}
    (hf : ∀ cash cash' : Cents, f cash = some cash' → cash'.toInt = cash.toInt + d)
    (h : (changeCash i f figure).run w = .ok u w') : w'.holdings = w.holdings + d := by
  obtain ⟨c, hc, cash, hcash, rfl⟩ := changeCash_ok.1 h
  have hsum := World.holdings_modifyCompany hc fun c => { c with cash }
  have := hf c.cash cash hcash
  dsimp only at hsum
  omega

theorem holdings_settle {reservedPrice price : Cents} {q : Quantity} {r : Settlement}
    (h : (settle buyer seller reservedPrice price q).run w = .ok r w') : w'.holdings = w.holdings := by
  obtain ⟨-, debited, paid, b, w₁, p, -, -, hb, -, ⟨cash, reserved, hcash, hreserved, rfl⟩, hp, sellerCash,
    hseller, rfl⟩ := settle_ok h
  have hdebit := World.holdings_modifyCompany hb fun c => { c with cash, reserved }
  have hpayment := World.holdings_modifyCompany hp fun c => { c with cash := sellerCash }
  dsimp only at hdebit hpayment
  omega

end Ledger

/-- A command moves money between cash and reserved cash only. -/
theorem Command.holdings_act {cfg : EngineConfig} {c : Command} {w w' : World}
    (h : (c.act cfg).run w = .ok () w') : w'.holdings = w.holdings := by
  rcases Command.act_companies h with hsame | ⟨i, amount, w₁, hcompanies, hreserve | hrelease⟩
  · rw [World.holdings, hsame]
    rfl
  · rw [← Ledger.holdings_reserve hreserve, World.holdings, hcompanies]
    rfl
  · rw [← Ledger.holdings_release hrelease, World.holdings, hcompanies]
    rfl

namespace Decimal

theorem roundQuotient_nonneg {tie : Tie} {n : Int} {d : Nat} (h : 0 ≤ n) : 0 ≤ roundQuotient tie n d := by
  have hq : 0 ≤ n / d := Int.ediv_nonneg h (Int.natCast_nonneg d)
  simp only [roundQuotient]
  split
  · exact hq
  · split
    · omega
    · split <;> split <;> omega

theorem fitAt?_nonneg {tie : Tie} {x : Rat} {places : Nat} {d : Decimal} (hx : 0 ≤ x)
    (h : fitAt? tie x places = some d) : 0 ≤ d := by
  simp only [fitAt?, Option.ite_none_right_eq_some, Option.some_inj] at h
  obtain ⟨-, rfl⟩ := h
  refine Rat.mkRat_nonneg (roundQuotient_nonneg ?_) _
  exact Int.mul_nonneg (Rat.num_nonneg.2 hx) (Int.natCast_nonneg _)

theorem fitWithin?_nonneg {tie : Tie} {x : Rat} {places : Nat} {d : Decimal} (hx : 0 ≤ x)
    (h : fitWithin? tie x places = some d) : 0 ≤ d := by
  induction places with
  | zero => exact fitAt?_nonneg hx h
  | succ places ih =>
      rw [fitWithin?, Option.or_eq_some_iff] at h
      rcases h with h | ⟨-, h⟩
      · exact fitAt?_nonneg hx h
      · exact ih h

/-- Rounding to the format keeps the sign. -/
theorem fit?_nonneg {x : Rat} {d : Decimal} (hx : 0 ≤ x) (h : fit? x = some d) : 0 ≤ d :=
  fitWithin?_nonneg hx h
end Decimal

/-- A delivery never pays the company. -/
theorem deliveryFee_nonneg {cfg : LogisticsConfig} {q : Quantity} {logistics : Decimal} {fee : Cents}
    (hunit : ¬ cfg.feePerUnit < 0) (hlogistics : 0 < logistics)
    (h : deliveryFee cfg q logistics = .ok fee) : ¬ fee < 0 := by
  simp only [deliveryFee, orFail_ok, Option.bind_eq_bind, Option.bind_eq_some_iff, Int64.ofInt?_eq_some,
    Decimal.mul?, Decimal.div?, Option.ite_none_left_eq_some] at h
  obtain ⟨gross, hgross, quotient, ⟨-, hquotient⟩, hfee⟩ := h
  rw [Int64.not_lt, Int64.le_iff_toInt_le] at hunit ⊢
  have hgrossNonneg : 0 ≤ gross := by
    refine Decimal.fit?_nonneg (Rat.mul_nonneg ?_ ?_) hgross
    · exact Rat.intCast_nonneg.2 hunit
    · exact Nat.cast_nonneg _
  have hq : 0 ≤ quotient := Decimal.fit?_nonneg (div_nonneg hgrossNonneg hlogistics.le) hquotient
  rw [hfee]
  exact Rat.le_floor_iff.2 hq

theorem EngineConfig.check_ok {cfg : EngineConfig} (h : cfg.check = .ok ()) :
    0 < cfg.workforce.minMultiplier ∧ ¬ cfg.logistics.feePerUnit < 0 ∧
      ¬ cfg.bots.liquidityPerTick < 0 := by
  simp only [check, checkPositive, checkCents, Check.bind_ok, Check.refuse_ok, Check.bound_ok] at h
  obtain ⟨-, -, -, -, -, hfloor, -, ⟨hfee, -⟩, -, -, hliquidity, -⟩ := h
  exact ⟨Rat.not_le.1 hfloor, hfee, hliquidity⟩

/-- The table is made of the identifiers of the companies alone. -/
theorem companyMultipliers_eq (w : World) (cfg : WorkforceConfig) :
    companyMultipliers w cfg = (w.companies.map (·.id)).map fun company =>
      (company, ((w.allocationFor? company).map (·.multipliers cfg)).getD .neutral) := by
  rw [List.map_map]
  rfl

/-- A company works at one throughout, or at the multipliers of an allocation of the world. -/
theorem multipliers_of (w : World) (cfg : WorkforceConfig) (company : CompanyId) :
    (companyMultipliers w cfg).of company = .neutral ∨
      ∃ a ∈ w.allocations, (companyMultipliers w cfg).of company = a.multipliers cfg := by
  rw [MultiplierTable.of]
  cases hm : List.lookup company (companyMultipliers w cfg) with
  | none => exact Or.inl rfl
  | some m =>
      obtain ⟨before, after, htable, -⟩ := List.lookup_eq_some_iff.1 hm
      have hmem : (company, m) ∈ companyMultipliers w cfg := by
        rw [htable]
        exact List.mem_append_right _ List.mem_cons_self
      obtain ⟨c, -, hc⟩ := List.mem_map.1 hmem
      rw [Option.getD_some, ← (Prod.mk.inj hc).2]
      cases ha : w.allocationFor? c.id with
      | none => exact Or.inl rfl
      | some a => exact Or.inr ⟨a, Roster.mem_of_get? ha, rfl⟩

theorem multiplier_pos {pct : UInt8} {cfg : WorkforceConfig} (hcfg : 0 < cfg.minMultiplier) :
    0 < multiplier pct cfg := by
  simp only [multiplier]
  split
  · exact hcfg
  · next hle => exact hcfg.trans_le (not_lt.1 hle)

/-- Every company works at a positive logistics multiplier. -/
theorem logistics_pos {w : World} {cfg : WorkforceConfig} (hcfg : 0 < cfg.minMultiplier)
    (company : CompanyId) : 0 < ((companyMultipliers w cfg).of company).logistics := by
  rcases multipliers_of w cfg company with hneutral | ⟨a, -, hchosen⟩
  · rw [hneutral]
    decide
  · rw [hchosen]
    exact multiplier_pos hcfg

/-- What companies would hold without the flows of the account. -/
def Account.capital (s : Account) : Int :=
  s.world.holdings - s.flows.inflow.toInt + s.flows.outflow.toInt

variable {w w' : World} {s s' : Account}

theorem credits_money {ids : List CompanyId} {amount : Cents} {u : Unit}
    (h : (ids.forM fun i => Ledger.credit i amount).run s = .ok u s') :
    s'.capital = s.capital ∧ s'.flows.outflow = s.flows.outflow ∧
      s'.flows.inflow.toInt = s.flows.inflow.toInt + amount.toInt * ids.length := by
  induction ids generalizing s with
  | nil =>
      obtain ⟨-, rfl⟩ := Action.pure_ok.1 h
      simp
  | cons i ids ih =>
      obtain ⟨t, hcredit, hrest⟩ := Action.forM_cons_ok.1 h
      obtain ⟨w₁, hcash, inflow, hinflow, rfl⟩ := Ledger.credit_ok.1 hcredit
      obtain ⟨hcapital, houtflow, htotal⟩ := ih hrest
      have hheld := Ledger.holdings_changeCash (fun _ _ => Int64.add?_eq_some.1) hcash
      refine ⟨?_, houtflow, ?_⟩
      · rw [hcapital]
        simp only [Account.capital]
        omega
      · rw [htotal, hinflow, List.length_cons, Nat.cast_succ, mul_add, mul_one]
        omega

/-- Bots receive the configured amount each, and nothing else flows. -/
theorem supplyBots_money {cfg : BotConfig} {u : Unit} (hcfg : ¬ cfg.liquidityPerTick < 0)
    (h : (supplyBots cfg).run s = .ok u s') :
    s'.capital = s.capital ∧ s'.flows.outflow = s.flows.outflow ∧
      s'.flows.inflow.toInt =
        s.flows.inflow.toInt + cfg.liquidityPerTick.toInt * s.world.botCount := by
  rcases supplyBots_ok h with ⟨hnone, rfl⟩ | ⟨-, hcredits⟩
  · have hzero : cfg.liquidityPerTick.toInt = 0 := by
      rw [Int64.not_lt, Int64.le_iff_toInt_le] at hcfg hnone
      exact Int.le_antisymm hnone hcfg
    simp [hzero]
  · have hcount : ((s.world.companies.filter (·.isBot)).map (·.id)).length = s.world.botCount := by
      rw [List.length_map, World.botCount, List.countP_eq_length_filter]
    rw [← hcount]
    exact credits_money hcredits

theorem clearMarkets_money {tick : Tick} {trades : List Trade}
    (h : (clearMarkets tick).run w = .ok trades w') : w'.holdings = w.holdings := by
  obtain ⟨w₁, hfills, rfl⟩ := clearMarkets_ok.1 h
  refine Action.mapM_keeps (P := fun t => t.holdings = w.holdings) (fun m _ t r t' ht hrun => ?_) rfl hfills
  obtain ⟨r, w₂, inv, b, a, bidLeft, askLeft, hsettle, -, -, -, -, -, -, -, rfl⟩ := applyFill_ok hrun
  exact (Ledger.holdings_settle hsettle).trans ht

/-- A delivery takes its fee out of the ledgers, and nothing else flows. -/
theorem deliverShipment_money {multipliers : MultiplierTable} {cfg : LogisticsConfig} {sh : Shipment}
    {id : ShipmentId} (hunit : ¬ cfg.feePerUnit < 0)
    (hlogistics : 0 < (multipliers.of sh.company).logistics)
    (h : (deliverShipment multipliers cfg sh).run s = .ok id s') :
    s'.capital = s.capital ∧ s'.flows.inflow = s.flows.inflow ∧
      ∃ fee, deliveryFee cfg sh.quantity (multipliers.of sh.company).logistics = .ok fee ∧
        s'.flows.outflow.toInt = s.flows.outflow.toInt + fee.toInt := by
  obtain ⟨inv, fee, t, -, hfee, hcharge, rfl⟩ := deliverShipment_ok h
  rcases hcharge with ⟨hfree, rfl⟩ | ⟨-, hcharge⟩
  · refine ⟨rfl, rfl, fee, hfee, ?_⟩
    have hnonneg := deliveryFee_nonneg hunit hlogistics hfee
    rw [Int64.not_lt, Int64.le_iff_toInt_le] at hfree hnonneg
    have hzero : (0 : Int64).toInt = 0 := by decide
    show s.flows.outflow.toInt = s.flows.outflow.toInt + fee.toInt
    omega
  · obtain ⟨w₁, hcash, outflow, houtflow, rfl⟩ := Ledger.charge_ok.1 hcharge
    change outflow.toInt = s.flows.outflow.toInt + fee.toInt at houtflow
    have hheld := Ledger.holdings_changeCash (d := -fee.toInt)
      (fun cash cash' hsub => by rw [Int64.sub?_eq_some.1 hsub, Int.sub_eq_add_neg]) hcash
    refine ⟨?_, rfl, fee, hfee, houtflow⟩
    have hbefore : w₁.holdings = s.world.holdings + -fee.toInt := hheld
    show w₁.holdings - s.flows.inflow.toInt + outflow.toInt = s.capital
    rw [Account.capital]
    omega

theorem deliveries_money {multipliers : MultiplierTable} {cfg : LogisticsConfig} {shs : List Shipment}
    {ids : List ShipmentId} (hunit : ¬ cfg.feePerUnit < 0)
    (hlogistics : ∀ company, 0 < (multipliers.of company).logistics)
    (h : (shs.mapM (deliverShipment multipliers cfg)).run s = .ok ids s') :
    s'.capital = s.capital ∧ s'.flows.inflow = s.flows.inflow ∧
      ∃ fees, (shs.mapM fun sh =>
          deliveryFee cfg sh.quantity (multipliers.of sh.company).logistics) = .ok fees ∧
        fees.length = ids.length ∧
        s'.flows.outflow.toInt = s.flows.outflow.toInt + (fees.map (·.toInt)).sum := by
  induction shs generalizing s ids with
  | nil =>
      obtain ⟨rfl, rfl⟩ := Action.mapM_nil_ok.1 h
      exact ⟨rfl, rfl, [], rfl, rfl, by simp⟩
  | cons sh shs ih =>
      obtain ⟨id, t, rest, hfirst, hrest, rfl⟩ := Action.mapM_cons_ok.1 h
      obtain ⟨hcapital, hinflow, fee, hfee, houtflow⟩ :=
        deliverShipment_money hunit (hlogistics sh.company) hfirst
      obtain ⟨hcapital', hinflow', fees, hfees, hlength, houtflow'⟩ := ih hrest
      refine ⟨hcapital'.trans hcapital, hinflow'.trans hinflow, fee :: fees, ?_, ?_, ?_⟩
      · simp only [List.mapM_cons, Check.bind_ok, Check.pure_ok]
        exact ⟨fee, hfee, fees, hfees, rfl⟩
      · rw [List.length_cons, List.length_cons, hlength]
      · rw [houtflow', houtflow, List.map_cons, List.sum_cons, Int.add_assoc]

/-- How settling contracts may change an account: what the market pool pays flows in, and the pool does
not get below zero by it. -/
structure Account.Settled (s s' : Account) : Prop where
  capital : s'.capital = s.capital
  outflow : s'.flows.outflow = s.flows.outflow
  inflow : s'.flows.inflow.toInt + s'.world.marketPool.toInt =
    s.flows.inflow.toInt + s.world.marketPool.toInt
  pool : min s.world.marketPool.toInt 0 ≤ s'.world.marketPool.toInt

theorem Account.Settled.refl (s : Account) : s.Settled s :=
  ⟨rfl, rfl, rfl, by omega⟩

theorem Account.Settled.trans {s t u : Account} (h : s.Settled t) (h' : t.Settled u) : s.Settled u := by
  obtain ⟨hcapital, houtflow, hinflow, hpool⟩ := h
  obtain ⟨hcapital', houtflow', hinflow', hpool'⟩ := h'
  exact ⟨hcapital'.trans hcapital, houtflow'.trans houtflow, by omega, by omega⟩

/-- Goods and contracts do not count towards the capital or the pool. -/
theorem Account.Settled.congr {s t s₁ t₁ : Account} (h : s₁.Settled t₁)
    (hs : s₁.world.companies = s.world.companies ∧ s₁.world.marketPool = s.world.marketPool ∧
      s₁.flows = s.flows)
    (ht : t₁.world.companies = t.world.companies ∧ t₁.world.marketPool = t.world.marketPool ∧
      t₁.flows = t.flows) : s.Settled t := by
  obtain ⟨hcapital, houtflow, hinflow, hpool⟩ := h
  simp only [Account.capital, World.holdings, hs, ht] at hcapital houtflow hinflow hpool
  exact ⟨hcapital, houtflow, hinflow, hpool⟩

theorem payDelivery_money {c : Contract} {q : Quantity} {value : Cents} {u : Unit}
    (hvalue : notional c.price q = .ok value) (h : (payDelivery c q value).run s = .ok u s')
    (hpool : c.buyer = none →
      0 < c.price.toInt ∧ c.price.toInt * q.toNat ≤ s.world.marketPool.toInt) : s.Settled s' := by
  rcases payDelivery_ok h with ⟨buyer, r, w₁, inv, -, hsettle, -, rfl⟩ |
    ⟨hnone, w₁, inflow, hcash, hinflow, rfl⟩
  · have hmoney := Ledger.holdings_settle hsettle
    have hsame : w₁.marketPool = s.world.marketPool := by rw [(Ledger.settle_moved hsettle).frame]
    have hpaid : s.Settled ⟨w₁, s.flows⟩ := by
      refine ⟨?_, rfl, ?_, ?_⟩
      · simp only [Account.capital]
        omega
      · simp only [hsame]
      · simp only [hsame]
        omega
    exact hpaid.congr ⟨rfl, rfl, rfl⟩ ⟨rfl, rfl, rfl⟩
  · obtain ⟨hprice, hcover⟩ := hpool hnone
    have hexact : value.toInt = c.price.toInt * q.toNat := (notional_ok.1 hvalue).2
    have hnonneg : 0 ≤ value.toInt := by
      rw [hexact]
      exact Int.mul_nonneg hprice.le (Int.natCast_nonneg _)
    have hpaid : (s.world.marketPool - value).toInt = s.world.marketPool.toInt - value.toInt := by
      refine Int64.toInt_sub_of_not_lt ?_ ?_
      · rw [Int64.not_lt, Int64.le_iff_toInt_le]
        exact hnonneg
      · rw [Int64.not_lt, Int64.le_iff_toInt_le, hexact]
        exact hcover
    have hsame : w₁.marketPool = s.world.marketPool - value := by
      rw [(Ledger.changeCash_moved hcash).frame]
    have hheld := Ledger.holdings_changeCash (fun _ _ => Int64.add?_eq_some.1) hcash
    change w₁.holdings = s.world.holdings + value.toInt at hheld
    refine ⟨?_, rfl, ?_, ?_⟩
    · simp only [Account.capital]
      omega
    · simp only [hsame, hpaid]
      omega
    · simp only [hsame, hpaid]
      omega

theorem settleContract_money {tick : Tick} {id : ContractId} {r : Option ContractDelivery}
    (h : (settleContract tick id).run s = .ok r s') : s.Settled s' := by
  obtain ⟨c, q, -, hq, ⟨-, rfl⟩ | ⟨hpos, value, inv, t, hvalue, -, hpay, rfl⟩⟩ := settleContract_ok h
  · exact .refl _
  · obtain ⟨-, -, hpool⟩ := deliverable_ok hq
    have hpaid := payDelivery_money hvalue hpay fun hnone => hpool hnone hpos
    exact hpaid.congr ⟨rfl, rfl, rfl⟩ ⟨rfl, rfl, rfl⟩

theorem settleContracts_money {tick : Tick} {deliveries : List ContractDelivery}
    (h : (settleContracts tick).run s = .ok deliveries s') : s.Settled s' := by
  obtain ⟨rs, h⟩ := settleContracts_ok h
  exact Action.mapM_keeps (P := fun t => s.Settled t)
    (fun id _ t r t' ht hrun => ht.trans (settleContract_money hrun)) (.refl s) h

/-- The multipliers of a tick do not depend on what happens to money before they are worked out. -/
theorem companyMultipliers_moved (h : w.MoneyMoved w') (cfg : WorkforceConfig) :
    companyMultipliers w' cfg = companyMultipliers w cfg := by
  have hallocations : w'.allocations = w.allocations := by rw [h.frame]
  simp only [companyMultipliers_eq, World.allocationFor?, h.ids, hallocations]

/-- The fees of the shipments that have arrived by a tick, in the order of their delivery. -/
def World.feesDue (w : World) (cfg : EngineConfig) (tick : Tick) : Except Failure (List Cents) :=
  (w.shipments.filter (·.isDue tick)).mapM fun sh =>
    deliveryFee cfg.logistics sh.quantity
      ((companyMultipliers w cfg.workforce).of sh.company).logistics

/-- The phases of a tick: each flow has its cause, and nothing else changes what companies hold. -/
theorem runPhases_money {cfg : EngineConfig} {tick : Tick} {o : TickOutcome} {t : Account}
    (hcfg : cfg.check = .ok ()) (h : (runPhases tick cfg).run ⟨w, .zero⟩ = .ok o t) :
    t.capital = w.holdings ∧
      t.flows.inflow.toInt = cfg.bots.liquidityPerTick.toInt * w.botCount
        + (w.marketPool.toInt - t.world.marketPool.toInt) ∧
      (∃ fees, w.feesDue cfg tick = .ok fees ∧ fees.length = o.delivered.length ∧
        t.flows.outflow.toInt = (fees.map (·.toInt)).sum) ∧
      min w.marketPool.toInt 0 ≤ t.world.marketPool.toInt := by
  obtain ⟨hfloor, hunit, hliquidity⟩ := EngineConfig.check_ok hcfg
  obtain ⟨s₁, w₂, w₃, s₄, hbots, hclear, hproduction, hdelivered, hdeliveries⟩ := runPhases_ok h
  have hmoved : w.MoneyMoved s₁.world := supplyBots_moved hbots
  have hproduced := runProduction_frame hproduction
  have hcleared := clearMarkets_frame hclear
  obtain ⟨hbotCapital, hbotOutflow, hbotInflow⟩ := supplyBots_money hliquidity hbots
  have hfills := clearMarkets_money hclear
  obtain ⟨hfeeCapital, hfeeInflow, fees, hfees, hcount, hfeeOutflow⟩ :=
    deliveries_money hunit (logistics_pos hfloor) (advanceShipments_ok hdelivered)
  obtain ⟨hcapital, houtflow, hinflow, hpool⟩ := settleContracts_money hdeliveries
  have hpool₃ : w₃.marketPool = w.marketPool := by
    rw [hproduced, World.retainRecentTrades, hcleared, hmoved.frame]
  have hpool₄ : s₄.world.marketPool = w₃.marketPool := by rw [advanceShipments_frame hdelivered]
  have hshipments : w₃.shipments = w.shipments := by
    rw [hproduced, World.retainRecentTrades, hcleared, hmoved.frame]
  have hheld₃ : w₃.holdings = w₂.holdings := by
    rw [hproduced]
    rfl
  rw [hpool₄, hpool₃] at hpool hinflow
  have hzeroInflow : (0 : Int64).toInt = 0 := by decide
  simp only [Account.capital, CashFlows.zero] at hbotCapital hbotInflow hbotOutflow
  simp only [Account.capital, hheld₃] at hfeeCapital hfeeOutflow hfeeInflow hcapital ⊢
  refine ⟨?_, ?_, ⟨fees, ?_, hcount, ?_⟩, hpool⟩
  · omega
  · rw [hfeeInflow] at hinflow
    omega
  · rw [World.feesDue, ← hshipments, ← companyMultipliers_moved hmoved]
    exact hfees
  · rw [houtflow, hfeeOutflow, hbotOutflow]
    omega

/-- Money is conserved: what companies hold changes by the flows that a tick reports, whose causes are the
configured liquidity, the payments of the market pool and the fees of arrivals, and a command changes
nothing of it. -/
theorem money_conserved (cfg : EngineConfig) (w : World) :
    (cfg.check = .ok () → ∀ report trades w', (step cfg).run w = .ok (report, trades) w' →
      w'.holdings - w.holdings = report.flows.inflow.toInt - report.flows.outflow.toInt ∧
        report.drift = 0 ∧
        report.flows.inflow.toInt = cfg.bots.liquidityPerTick.toInt * w.botCount
          + (w.marketPool.toInt - w'.marketPool.toInt) ∧
        (∃ fees, w.feesDue cfg report.tick = .ok fees ∧ fees.length = report.shipmentsDelivered ∧
          report.flows.outflow.toInt = (fees.map (·.toInt)).sum) ∧
        min w.marketPool.toInt 0 ≤ w'.marketPool.toInt) ∧
      ∀ (c : Command) (w' : World), (c.act cfg).run w = .ok () w' →
        w'.holdings = w.holdings ∧ w'.marketPool = w.marketPool := by
  refine ⟨fun hcfg report trades w' h => ?_, fun c w' h =>
    ⟨Command.holdings_act h, by rw [Command.act_frame h]⟩⟩
  obtain ⟨tick, before, after, drift, o, t, -, hbefore, hphases, hclock, hafter, hdrift, rfl, -⟩ :=
    step_ok h
  obtain ⟨hcapital, hinflow, houtflow, hpool⟩ := runPhases_money hcfg hphases
  obtain ⟨v, -, rfl⟩ := moveClock_ok.1 hclock
  obtain ⟨net, expected, hnet, hexpected, hdrift⟩ := driftOf_ok.1 hdrift
  have htotal := World.ledgerTotal?_eq_some hbefore
  have htotal' : after.toInt = t.world.holdings := World.ledgerTotal?_eq_some hafter
  have hzero : drift.toInt = 0 := by
    simp only [Account.capital] at hcapital
    omega
  refine ⟨?_, Int64.toInt_inj.1 hzero, hinflow, houtflow, hpool⟩
  show t.world.holdings - w.holdings = t.flows.inflow.toInt - t.flows.outflow.toInt
  omega

/-- In the busy world a bot receives 50, the pool pays 60 for metal, and 8 are paid as a fee; a further
buy order then only sets money aside. -/
theorem money_conserved_busy : busyConfig.check = .ok () ∧
    (∃ report trades w', (step busyConfig).run busyWorld = .ok (report, trades) w' ∧
      report.flows = ⟨110, 8⟩ ∧ w'.holdings = busyWorld.holdings + 102 ∧ report.drift = 0) ∧
    ∃ w', ((Command.placeOrder ⟨⟨7⟩, ⟨1⟩, ⟨3⟩, .buy, 10, 5⟩).act busyConfig).run busyWorld = .ok () w' ∧
      w'.holdings = busyWorld.holdings := by
  have hcfg : busyConfig.check = .ok () := by decide
  have hflows : ((step busyConfig).outcome busyWorld).map (·.1.1.flows) = .ok ⟨110, 8⟩ := by
    decide +kernel
  have hplaced : (((Command.placeOrder ⟨⟨7⟩, ⟨1⟩, ⟨3⟩, .buy, 10, 5⟩).act busyConfig).outcome
      busyWorld).isOk := by decide +kernel
  obtain ⟨hstep, hcommand⟩ := money_conserved busyConfig busyWorld
  refine ⟨hcfg, ?_, ?_⟩
  · obtain ⟨⟨⟨report, trades⟩, w'⟩, hrun, hreport⟩ := Check.map_ok.1 hflows
    have hrun := Action.outcome_ok.1 hrun
    obtain ⟨hheld, hdrift, -⟩ := hstep hcfg report trades w' hrun
    refine ⟨report, trades, w', hrun, hreport.symm, ?_, hdrift⟩
    rw [← hreport] at hheld
    have hin : (110 : Int64).toInt = 110 := by decide
    have hout : (8 : Int64).toInt = 8 := by decide
    dsimp only at hheld
    omega
  · obtain ⟨_, w', hrun⟩ := Action.ok_of_outcome_isOk hplaced
    exact ⟨w', hrun, (hcommand _ _ hrun).1⟩

end Mercantile
