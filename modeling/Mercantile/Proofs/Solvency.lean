import Mercantile.Proofs.Commands
import Mercantile.Proofs.Phases

/-!
Reserved cash at any prices. A snapshot may hold orders and contracts at prices below zero, and a
settlement at such a price raises what its buyer has set aside; one that lowers it takes no more than is
there. So neither a command nor a tick leaves reserved cash below zero where there was none before
(`Command.solvent`, `step_solvent`).
-/

namespace Mercantile

namespace World

/-- No company has set aside less than nothing. -/
def Solvent (w : World) : Prop := ∀ c ∈ w.companies, 0 ≤ c.reserved.toInt

theorem Solvent.congr {w w' : World} (h : w.Solvent) (hcompanies : w'.companies = w.companies) :
    w'.Solvent := fun c hc => h c (hcompanies ▸ hc)

theorem Solvent.modifyCompany {w : World} (h : w.Solvent) {i : CompanyId} {f : Company → Company}
    (hf : ∀ c, w.companies.get? i = some c → 0 ≤ (f c).reserved.toInt) : (w.modifyCompany i f).Solvent := by
  intro c hc
  rcases Roster.mem_modify hc with hc | ⟨k, hk, rfl⟩
  · exact h c hc
  · exact hf k hk

end World

namespace Ledger

variable {w w' : World} {i : CompanyId} {amount : Cents} {u : Unit}

theorem reserve_solvent (hw : w.Solvent) (h : (reserve i amount).run w = .ok u w') : w'.Solvent := by
  obtain ⟨c, hc, hneg, -, reserved, hreserved, rfl⟩ := reserve_ok.1 h
  have hnonneg := hw c (Roster.mem_of_get? hc)
  rw [Int64.not_lt, Int64.le_iff_toInt_le] at hneg
  have hzero : (0 : Int64).toInt = 0 := by decide
  refine hw.modifyCompany fun _ _ => ?_
  show 0 ≤ reserved.toInt
  omega

theorem release_solvent (hw : w.Solvent) (h : (release i amount).run w = .ok u w') : w'.Solvent := by
  obtain ⟨c, hc, hfunds, cash, -, rfl⟩ := release_ok.1 h
  rw [not_or] at hfunds
  have hrest := Int64.toInt_sub_of_not_lt hfunds.1 hfunds.2
  have hle := Int64.le_iff_toInt_le.1 (Int64.not_lt.1 hfunds.2)
  refine hw.modifyCompany fun c' hc' => ?_
  rw [hc, Option.some_inj] at hc'
  subst hc'
  show 0 ≤ (c.reserved - amount).toInt
  omega

theorem changeCash_solvent {f : Cents → Option Cents} {figure : Figure} (hw : w.Solvent)
    (h : (changeCash i f figure).run w = .ok u w') : w'.Solvent := by
  obtain ⟨c, -, cash, -, rfl⟩ := changeCash_ok.1 h
  exact hw.modifyCompany fun c hc => hw c (Roster.mem_of_get? hc)

theorem settle_solvent {buyer seller : CompanyId} {reservedPrice price : Cents} {q : Quantity}
    {r : Settlement} (hw : w.Solvent) (h : (settle buyer seller reservedPrice price q).run w = .ok r w') :
    w'.Solvent := by
  obtain ⟨-, debited, paid, b, w₁, p, -, -, hb, hfunds, ⟨cash, reserved, -, hreserved, rfl⟩, hp, sellerCash,
    -, rfl⟩ := settle_ok h
  rw [Int64.not_lt, Int64.le_iff_toInt_le] at hfunds
  have hdebtor : (w.modifyCompany buyer fun c => { c with cash, reserved }).Solvent :=
    hw.modifyCompany fun _ _ => by
      show 0 ≤ reserved.toInt
      omega
  exact hdebtor.modifyCompany fun c hc => hdebtor c (Roster.mem_of_get? hc)

end Ledger

/-- Commands leave no reserved cash below zero. -/
theorem Command.solvent {cfg : EngineConfig} {c : Command} {w w' : World} (hw : w.Solvent)
    (h : (c.act cfg).run w = .ok () w') : w'.Solvent := by
  rcases Command.act_companies h with hsame | ⟨i, amount, w₁, hcompanies, hreserve | hrelease⟩
  · exact hw.congr hsame
  · exact (Ledger.reserve_solvent hw hreserve).congr hcompanies
  · exact (Ledger.release_solvent hw hrelease).congr hcompanies

variable {w w' : World} {s s' : Account}

theorem supplyBots_solvent {cfg : BotConfig} {u : Unit} (hs : s.world.Solvent)
    (h : (supplyBots cfg).run s = .ok u s') : s'.world.Solvent := by
  rcases supplyBots_ok h with ⟨-, rfl⟩ | ⟨-, hcredits⟩
  · exact hs
  · refine Action.forM_keeps (P := fun t => t.world.Solvent) (fun i _ t t' ht hrun => ?_) hs hcredits
    obtain ⟨w₁, hcash, inflow, -, rfl⟩ := Ledger.credit_ok.1 hrun
    exact Ledger.changeCash_solvent ht hcash

theorem clearMarkets_solvent {tick : Tick} {trades : List Trade} (hw : w.Solvent)
    (h : (clearMarkets tick).run w = .ok trades w') : w'.Solvent := by
  obtain ⟨w₁, hfills, rfl⟩ := clearMarkets_ok.1 h
  have hmatched : w₁.Solvent := by
    refine Action.mapM_keeps (P := World.Solvent) (fun m _ t r t' ht hrun => ?_) hw hfills
    obtain ⟨_, w₂, inv, b, a, bidLeft, askLeft, hsettle, -, -, -, -, -, -, -, rfl⟩ := applyFill_ok hrun
    have hpaid : w₂.Solvent := Ledger.settle_solvent ht hsettle
    exact hpaid
  exact hmatched

theorem deliverShipment_solvent {multipliers : MultiplierTable} {cfg : LogisticsConfig} {sh : Shipment}
    {id : ShipmentId} (hs : s.world.Solvent) (h : (deliverShipment multipliers cfg sh).run s = .ok id s') :
    s'.world.Solvent := by
  obtain ⟨inv, fee, t, -, -, hcharge, rfl⟩ := deliverShipment_ok h
  rcases hcharge with ⟨-, rfl⟩ | ⟨-, hcharge⟩
  · exact hs
  · obtain ⟨w₁, hcash, outflow, -, rfl⟩ := Ledger.charge_ok.1 hcharge
    have hstocked : { s.world with inventory := inv }.Solvent := hs
    have hcharged : w₁.Solvent := Ledger.changeCash_solvent hstocked hcash
    exact hcharged

theorem payDelivery_solvent {c : Contract} {q : Quantity} {value : Cents} {u : Unit} (hs : s.world.Solvent)
    (h : (payDelivery c q value).run s = .ok u s') : s'.world.Solvent := by
  rcases payDelivery_ok h with ⟨buyer, r, w₁, inv, -, hsettle, -, rfl⟩ |
    ⟨-, w₁, inflow, hcash, -, rfl⟩
  · have hpaid : w₁.Solvent := Ledger.settle_solvent hs hsettle
    exact hpaid
  · have hpool : { s.world with marketPool := s.world.marketPool - value }.Solvent := hs
    exact Ledger.changeCash_solvent hpool hcash

theorem settleContract_solvent {tick : Tick} {id : ContractId} {d : Option ContractDelivery}
    (hs : s.world.Solvent) (h : (settleContract tick id).run s = .ok d s') : s'.world.Solvent := by
  obtain ⟨c, q, -, -, ⟨-, rfl⟩ | ⟨-, value, inv, t, -, -, hpay, rfl⟩⟩ := settleContract_ok h
  · exact hs
  · have hpaid : t.world.Solvent :=
      payDelivery_solvent (s := ⟨{ s.world with inventory := inv }, s.flows⟩) hs hpay
    exact hpaid

theorem runPhases_solvent {cfg : EngineConfig} {tick : Tick} {o : TickOutcome} (hs : s.world.Solvent)
    (h : (runPhases tick cfg).run s = .ok o s') : s'.world.Solvent := by
  obtain ⟨s₁, w₂, w₃, s₄, hbots, hclear, hproduction, hdelivered, hdeliveries⟩ := runPhases_ok h
  obtain ⟨rs, hdeliveries⟩ := settleContracts_ok hdeliveries
  have hcleared := clearMarkets_solvent (supplyBots_solvent hs hbots) hclear
  have hproduced : w₃.Solvent := by
    rw [runProduction_frame hproduction]
    exact hcleared
  have hlanded : s₄.world.Solvent :=
    Action.mapM_keeps (P := fun t => t.world.Solvent)
      (fun _ _ _ _ _ ht hrun => deliverShipment_solvent ht hrun) hproduced (advanceShipments_ok hdelivered)
  exact Action.mapM_keeps (P := fun t => t.world.Solvent)
    (fun _ _ _ _ _ ht hrun => settleContract_solvent ht hrun) hlanded hdeliveries

/-- A tick that succeeds leaves no reserved cash below zero. -/
theorem step_solvent {cfg : EngineConfig} {r : TickReport × List Trade} (hw : w.Solvent)
    (h : (step cfg).run w = .ok r w') : w'.Solvent := by
  obtain ⟨tick, before, after, drift, o, t, -, -, hphases, hclock, -, -, -, -⟩ := step_ok h
  obtain ⟨v, -, rfl⟩ := moveClock_ok.1 hclock
  exact runPhases_solvent (s := ⟨w, .zero⟩) hw hphases

end Mercantile
