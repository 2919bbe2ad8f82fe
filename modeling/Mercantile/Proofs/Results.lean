import Mathlib.Data.Rat.Floor
import Mathlib.Tactic.Linarith
import Mercantile.Proofs.Loading
import Mercantile.Proofs.References

/-!
Arithmetic without a result. Some figures of a tick are formed by operators that have no answer for some operands:
the progress of a job, a product that may be too large for a decimal, what the market pool can pay for, a quotient by
a price, and the refund and the rest of a settlement, differences of words. The check of the settings bounds the
multipliers from below only, so the product always exists exactly if it does at the floor itself
(`regular_ticks_defined_iff`). The check of snapshots does not look at prices: the quotient and the differences exist
where no ask and no contract with a buyer is at a price below zero and no other contract at a price of zero, which
stops every tick (`default_ticks_defined`).
-/

namespace Mercantile

namespace Decimal

theorem roundQuotient_le {tie : Tie} {n : Int} {d : Nat} : roundQuotient tie n d ≤ n / d + 1 := by
  simp only [roundQuotient]
  split
  · omega
  · split
    · omega
    · split <;> split <;> omega

/-- Where one number of digits fits, some number does. -/
theorem exists_fitWithin {tie : Tie} {x : Rat} {p places : Nat} {d : Decimal} (hp : p ≤ places)
    (h : fitAt? tie x p = some d) : ∃ d, fitWithin? tie x places = some d := by
  induction places with
  | zero =>
      obtain rfl : p = 0 := Nat.le_zero.1 hp
      exact ⟨d, h⟩
  | succ places ih =>
      rw [fitWithin?]
      cases hlast : fitAt? tie x (places + 1) with
      | some d => exact ⟨d, rfl⟩
      | none =>
          have hne : p ≠ places + 1 := by
            rintro rfl
            rw [h] at hlast
            cases hlast
          exact ih (by omega)

theorem exists_fit {x : Rat} (hx : 0 ≤ x) (hlt : x + 1 < mantissaSize) : ∃ d, fit? x = some d := by
  have hone : Text.tenTo 0 = 1 := rfl
  have hnonneg : 0 ≤ roundQuotient .even (x.num * Text.tenTo 0) x.den :=
    roundQuotient_nonneg (Int.mul_nonneg (Rat.num_nonneg.2 hx) (Int.natCast_nonneg _))
  have hround : roundQuotient .even (x.num * Text.tenTo 0) x.den ≤ x.floor + 1 := by
    rw [hone, Rat.floor_def, Nat.cast_one, Int.mul_one]
    exact roundQuotient_le
  have hfloor : x.floor + 1 < mantissaSize := by
    have hle : ((x.floor : Int) : Rat) ≤ x := Rat.floor_le x
    have hcast : ((x.floor + 1 : Int) : Rat) < ((mantissaSize : Int) : Rat) := by
      push_cast
      linarith
    exact_mod_cast hcast
  exact exists_fitWithin (Nat.zero_le 28) (if_pos (by omega))

/-- The product of a word and a number of two or less. -/
theorem exists_mul {base : UInt32} {m : Decimal} (hm : 0 ≤ m) (hle : m ≤ 2) :
    ∃ p, mul? base.toNat m = some p := by
  have hbase : ((base.toNat : Nat) : Rat) ≤ 4294967295 := by
    have hlt : base.toNat ≤ 4294967295 := Nat.le_of_lt_succ base.toNat_lt
    exact_mod_cast hlt
  have hnonneg : (0 : Rat) ≤ base.toNat := Nat.cast_nonneg _
  refine exists_fit (mul_nonneg hnonneg hm) ?_
  have hproduct : (base.toNat : Rat) * m ≤ 4294967295 * 2 := mul_le_mul hbase hle hm (by norm_num)
  have hsize : (mantissaSize : Rat) = 79228162514264337593543950336 := by norm_num [mantissaSize]
  rw [hsize]
  linarith

end Decimal

theorem minMultiplier_le (pct : UInt8) (cfg : WorkforceConfig) : cfg.minMultiplier ≤ multiplier pct cfg := by
  simp only [multiplier]
  split
  · exact le_refl _
  · next hle => exact not_lt.1 hle

/-- A percentage makes a company twice as fast at most, unless the floor is higher than that. -/
theorem multiplier_le {pct : UInt8} {cfg : WorkforceConfig} (hpct : pct.toNat ≤ 100) :
    multiplier pct cfg = cfg.minMultiplier ∨ multiplier pct cfg ≤ 2 := by
  simp only [multiplier]
  split
  · exact Or.inl rfl
  · right
    have hnum : (100 + pct.toNat - cfg.baselinePct.toNat : Int) ≤ 200 := by omega
    have hcast : ((100 + pct.toNat - cfg.baselinePct.toNat : Int) : Rat) ≤ 200 := by exact_mod_cast hnum
    rw [Rat.mkRat_eq_div]
    exact (div_le_iff₀ (by norm_num)).2 (hcast.trans (by norm_num))

/-- No part of a whole is more than the whole. -/
theorem Allocation.operations_le {a : Allocation} (h : a.check = .ok ()) : a.operations.toNat ≤ 100 := by
  have hwhole := check_ok.1 h
  omega

theorem World.allocations_of_check {w : World} (h : w.check = .ok ()) : ∀ a ∈ w.allocations, a.check = .ok () := by
  simp only [check, Check.then_ok, Check.forM_ok, checkAllocation_ok] at h
  obtain ⟨-, -, -, -, -, -, -, -, -, -, -, -, -, -, -, -, -, -, hallocations, -⟩ := h
  exact fun a ha => (hallocations a ha).whole

/-- Where the base rate can be multiplied by the floor, it can be multiplied by every multiplier. -/
theorem progress_defined {w : World} {base : UInt32} {cfg : WorkforceConfig} (hw : w.check = .ok ())
    (hfloor : 0 < cfg.minMultiplier) (hfits : ∃ p, Decimal.mul? base.toNat cfg.minMultiplier = some p)
    (i : CompanyId) : Decimal.mul? base.toNat ((companyMultipliers w cfg).of i).operations ≠ none := by
  have hdefined : ∃ p, Decimal.mul? base.toNat ((companyMultipliers w cfg).of i).operations = some p := by
    rcases multipliers_of w cfg i with hneutral | ⟨a, ha, hchosen⟩
    · rw [hneutral]
      exact Decimal.exists_mul (m := 1) (by norm_num) (by norm_num)
    · have hpct := Allocation.operations_le (World.allocations_of_check hw a ha)
      rw [hchosen]
      show ∃ p, Decimal.mul? base.toNat (multiplier a.operations cfg) = some p
      rcases multiplier_le hpct with hleast | htwice
      · rw [hleast]
        exact hfits
      · exact Decimal.exists_mul (multiplier_pos hfloor).le htwice
  obtain ⟨p, hp⟩ := hdefined
  rw [hp]
  exact Option.some_ne_none p

/-- A tick has a result where the progress of jobs and all payments have one. -/
theorem step_defined {cfg : EngineConfig} {w : World} (hw : w.check = .ok ()) (hfloor : 0 < cfg.workforce.minMultiplier)
    (hfits : ∃ p, Decimal.mul? cfg.production.baseProgressPerTick.toNat cfg.workforce.minMultiplier = some p)
    (hpayable : w.Payable) (e : Failure) (w' : World) (h : (step cfg).run w = .error e w') : e ≠ .undefined := by
  have hkeeps : (step cfg).Keeps (·.outline = w.outline) (· ≠ .undefined) w := by
    refine step_keeps (fun e he => ?_) (World.closed_of_check hw) (fun i hnone => ?_) (absurd hpayable) rfl
    · rintro rfl
      cases he
    · exact absurd hnone (progress_defined hw hfloor hfits i)
  exact (hkeeps.error e w' h).2

/-- At positive prices every payment has a result. -/
theorem World.Regular.payable {w : World} (h : w.Regular) : w.Payable where
  asks := fun o ho _ _ => Int.le_of_lt (Int64.lt_iff_toInt_lt.1 (h.orders o ho))
  contracts := by
    intro c hc _ hunpayable
    have hprice := Int64.lt_iff_toInt_lt.1 (h.contracts c hc)
    rw [Contract.Unpayable] at hunpayable
    split at hunpayable
    · rw [hunpayable] at hprice
      exact Int.lt_irrefl _ hprice
    · exact Int.lt_asymm hprice hunpayable

/-- A pit in which a job is queued, of a company that splits its workforce evenly. -/
def pitWorld : World :=
  { strandedWorld with
    jobs := [⟨⟨6⟩, ⟨3⟩, ⟨5⟩, ⟨1⟩, ⟨4⟩, 1, 0, .queued, 0⟩]
    allocations := [.even ⟨3⟩] }

theorem pitWorld_regular : pitWorld.Regular where
  valid := by decide +kernel
  issued := by decide +kernel
  orders := by decide +kernel
  contracts := by decide +kernel
  reserved := by decide +kernel

/-- What is no decimal at the floor is none at the share of a whole, because the floor is above all that shares
make. -/
theorem progressStep_undefined {pct : UInt8} {base : UInt32} {cfg : WorkforceConfig} (hpct : pct.toNat ≤ 100)
    (hfloor : 0 < cfg.minMultiplier) (h : Decimal.mul? base.toNat cfg.minMultiplier = none) :
    progressStep base (multiplier pct cfg) = .error .undefined := by
  have hleast : multiplier pct cfg = cfg.minMultiplier := by
    refine (multiplier_le hpct).resolve_right fun htwice => ?_
    obtain ⟨p, hp⟩ : ∃ p, Decimal.mul? base.toNat cfg.minMultiplier = some p :=
      Decimal.exists_mul hfloor.le ((minMultiplier_le pct cfg).trans htwice)
    rw [h] at hp
    cases hp
  rw [progressStep, hleast, h]
  rfl

theorem pitWorld_operations (cfg : WorkforceConfig) :
    ((companyMultipliers pitWorld cfg).of ⟨3⟩).operations = multiplier 25 cfg := by
  have hallocation : pitWorld.allocationFor? ⟨3⟩ = some (.even ⟨3⟩) := by decide +kernel
  have hchosen : (companyMultipliers pitWorld cfg).of ⟨3⟩ =
      ((pitWorld.allocationFor? ⟨3⟩).map (·.multipliers cfg)).getD .neutral := rfl
  rw [hchosen, hallocation]
  rfl

/-- If the base rate times the floor is no decimal, the job in the pit has no progress. -/
theorem pitWorld_production {cfg : EngineConfig} (hfloor : 0 < cfg.workforce.minMultiplier)
    (h : Decimal.mul? cfg.production.baseProgressPerTick.toNat cfg.workforce.minMultiplier = none) :
    (runProduction (companyMultipliers pitWorld cfg.workforce) cfg.production).run pitWorld =
      .error .undefined pitWorld := by
  have hjob : (runJob (companyMultipliers pitWorld cfg.workforce) cfg.production ⟨6⟩).run pitWorld =
      .error .undefined pitWorld := by
    have hfound : pitWorld.jobs.require ⟨6⟩ = .ok ⟨⟨6⟩, ⟨3⟩, ⟨5⟩, ⟨1⟩, ⟨4⟩, 1, 0, .queued, 0⟩ := by decide +kernel
    rw [runJob, Action.run_bind (Action.get_ok.2 ⟨rfl, rfl⟩), Action.run_bind (Action.lift_ok.2 ⟨hfound, rfl⟩),
      pitWorld_operations]
    exact Action.bind_error.2 (.inl (Action.lift_error.2 ⟨progressStep_undefined (by decide) hfloor h, rfl⟩))
  have hactive : pitWorld.activeJobs = [⟨6⟩] := by decide +kernel
  rw [runProduction, Action.run_bind (Action.get_ok.2 ⟨rfl, rfl⟩), hactive]
  refine Action.bind_error.2 (.inl ?_)
  rw [List.mapM_cons]
  exact Action.bind_error.2 (.inl hjob)

/-- Nothing happens in the pit before the job's turn, and the tick ends there. -/
theorem pitWorld_undefined {cfg : EngineConfig} (hfloor : 0 < cfg.workforce.minMultiplier)
    (h : Decimal.mul? cfg.production.baseProgressPerTick.toNat cfg.workforce.minMultiplier = none) :
    (step cfg).run pitWorld = .error .undefined pitWorld := by
  have hphases : (runPhases 1 cfg).run ⟨pitWorld, .zero⟩ = .error .undefined ⟨pitWorld, .zero⟩ := by
    have hbots : (supplyBots cfg.bots).run ⟨pitWorld, .zero⟩ = .ok () ⟨pitWorld, .zero⟩ := by
      unfold supplyBots
      split <;> rfl
    have hclear : (clearMarkets 1).run pitWorld = .ok [] pitWorld :=
      Action.outcome_ok.1 (by decide +kernel)
    rw [runPhases, Action.run_bind hbots, Action.run_bind (Action.get_ok.2 ⟨rfl, rfl⟩),
      Action.run_bind (Account.onWorld_ok.2 ⟨_, hclear, rfl⟩),
      Action.run_bind (a := ()) (Account.onWorld_ok.2 ⟨_, Action.modify_ok.2 rfl, rfl⟩)]
    exact Action.bind_error.2 (.inl (Action.zoom_error.2 ⟨pitWorld, pitWorld_production hfloor h, rfl⟩))
  have htick : pitWorld.clock.currentTick.add? 1 = some 1 := by decide
  have htotal : pitWorld.ledgerTotal? = some 1000 := by decide +kernel
  refine Action.zoom_error.2 ⟨⟨pitWorld, .zero⟩, ?_, rfl⟩
  refine Action.bind_error.2 (.inr ⟨_, _, Action.get_ok.2 ⟨rfl, rfl⟩, ?_⟩)
  refine Action.bind_error.2 (.inr ⟨1, _, Action.lift_ok.2 ⟨orFail_ok.2 htick, rfl⟩, ?_⟩)
  refine Action.bind_error.2 (.inr ⟨_, _, Action.lift_ok.2 ⟨orFail_ok.2 htotal, rfl⟩, ?_⟩)
  exact Action.bind_error.2 (.inl hphases)

/-- Under accepted settings fees are never divided by zero, and every tick of every regular world has a result
exactly if the base rate times the floor is a decimal. The check of the settings does not see to that. -/
theorem regular_ticks_defined_iff {cfg : EngineConfig} (hcfg : cfg.check = .ok ()) :
    (∀ (w : World) (i : CompanyId), 0 < ((companyMultipliers w cfg.workforce).of i).logistics) ∧
      ((∃ p, Decimal.mul? cfg.production.baseProgressPerTick.toNat cfg.workforce.minMultiplier = some p) ↔
        ∀ w : World, w.Regular → ∀ e w', (step cfg).run w = .error e w' → e ≠ .undefined) := by
  obtain ⟨hfloor, -, -⟩ := EngineConfig.check_ok hcfg
  refine ⟨fun w i => logistics_pos hfloor i, fun hfits w hw => ?_, fun hdefined => ?_⟩
  · exact step_defined hw.valid hfloor hfits hw.payable
  · by_contra hnone
    have hnone := Option.eq_none_iff_forall_ne_some.2 (not_exists.1 hnone)
    exact hdefined pitWorld pitWorld_regular _ _ (pitWorld_undefined hfloor hnone) rfl

/-- The default settings with the largest decimal as the floor of multipliers. -/
def steepConfig : EngineConfig := { workforce := { minMultiplier := 79228162514264337593543950335 } }

/-- Under the default settings every tick of the pit has a result. -/
theorem regular_ticks_defined_default : ({} : EngineConfig).check = .ok () ∧
    (∃ p, Decimal.mul? 10 (mkRat 1 4) = some p) ∧ pitWorld.Regular ∧ (∃ r w', (step {}).run pitWorld = .ok r w') ∧
      ∀ w : World, w.Regular → ∀ e w', (step {}).run w = .error e w' → e ≠ .undefined := by
  have hcfg : ({} : EngineConfig).check = .ok () := by decide
  have hfits : ∃ p, Decimal.mul? 10 (mkRat 1 4) = some p := ⟨5 / 2, by decide +kernel⟩
  exact ⟨hcfg, hfits, pitWorld_regular, Action.ok_of_outcome_isOk (by decide +kernel),
    (regular_ticks_defined_iff hcfg).2.1 hfits⟩

/-- The largest decimal is accepted as a floor, and under it the tick of the pit has no result. -/
theorem steep_tick_undefined : steepConfig.check = .ok () ∧ pitWorld.Regular ∧
    ∃ w', (step steepConfig).run pitWorld = .error .undefined w' :=
  ⟨by decide, pitWorld_regular, pitWorld, pitWorld_undefined (by decide) (by decide +kernel)⟩

/-- A contract for nobody at no price. -/
structure Contract.IsGift (c : Contract) : Prop where
  isOpen : c.status.isOpen
  buyer : c.buyer = none
  price : c.price = 0

theorem deliverable_gift {w : World} {c : Contract} (hbuyer : c.buyer = none) (hprice : c.price = 0) :
    deliverable w c = .error .undefined := by
  simp only [deliverable, hbuyer, affordable, hprice, if_pos]
  rfl

/-- No tick gets past a gift: when its turn comes, the question what the pool can pay for has no answer. -/
theorem gift_stops_step {cfg : EngineConfig} {w : World} (hw : w.check = .ok ()) {c : Contract}
    (hc : c ∈ w.contracts) (hgift : c.IsGift) (r : TickReport × List Trade) (w' : World) :
    (step cfg).run w ≠ .ok r w' := by
  intro h
  have hl := World.closed_of_check hw
  have hE : ∀ e, Failure.isShortage e → True := fun _ _ => trivial
  obtain ⟨tick, before, after, drift, o, t, -, -, hphases, -⟩ := step_ok h
  obtain ⟨s₁, w₂, w₃, s₄, hbots, hclear, hproduction, hdelivered, hdeliveries⟩ := runPhases_ok hphases
  have hs₁ := (supplyBots_keeps hE hl rfl).ok () s₁ hbots
  have hw₂ := (clearMarkets_keeps hE hl (fun _ _ _ _ _ => trivial) hs₁).ok _ w₂ hclear
  have hw₃ := (runProduction_keeps hE hl (fun _ _ => trivial)
    (show (w₂.retainRecentTrades tick cfg.health.tradesWindowTicks).outline = _ from hw₂)).ok _ w₃ hproduction
  have hs₄ := (advanceShipments_keeps hE hl (s := ⟨w₃, s₁.flows⟩) hw₃).ok _ s₄ hdelivered
  obtain ⟨rs, hrs⟩ := settleContracts_ok hdeliveries
  have hopen : c.id ∈ s₄.world.openContracts := by
    rw [World.openContracts, contracts_unsettled hbots hclear hproduction hdelivered]
    exact List.mem_map_of_mem (List.mem_filter.2 ⟨hc, hgift.isOpen⟩)
  have hkeeps (i : ContractId) (hi : i ∈ s₄.world.openContracts) (s : Account) (b : Option ContractDelivery)
      (s' : Account) (hs : s.world.outline = w.outline) (hrun : (settleContract tick i).run s = .ok b s') :
      s'.world.outline = w.outline :=
    (settleContract_keeps hE hl (fun _ _ _ _ => trivial) (hs₄ ▸ World.mem_outline_of_open hi) hs).ok b s' hrun
  obtain ⟨s, delivery, s', hs, hsettled⟩ := Action.mapM_ran hkeeps hs₄ hrs hopen
  obtain ⟨d, q, hd, hq, -⟩ := settleContract_ok hsettled
  have hsame : d.outline = c.outline := by
    have hmem : d.outline ∈ s.world.outline.contracts := List.mem_map_of_mem (Roster.mem_of_get? hd)
    rw [hs] at hmem
    exact hl.contracts.eq_of_key_eq hmem (List.mem_map_of_mem hc) (Roster.key_of_get? hd : d.id = c.id)
  have hbuyer : d.buyer = none := (congrArg Contract.buyer hsame).trans hgift.buyer
  have hprice : d.price = 0 := (congrArg Contract.price hsame).trans hgift.price
  rw [deliverable_gift hbuyer hprice] at hq
  cases hq

/-- In a world that the check of snapshots accepts, the tick under the default settings has a result if its prices are
payable: nothing is offered at a price below zero, no open contract with a buyer is at one, and none without a buyer
is for nothing. A contract for nothing is never got past: no tick succeeds while there is one. The check does not look
at prices. -/
theorem default_ticks_defined {w : World} (hw : w.check = .ok ()) :
    (w.Payable → ∀ e w', (step {}).run w = .error e w' → e ≠ .undefined) ∧
      ((∃ c ∈ w.contracts, c.IsGift) → ∀ r w', (step {}).run w ≠ .ok r w') := by
  have hfits : ∃ p, Decimal.mul? 10 (mkRat 1 4) = some p := ⟨5 / 2, by decide +kernel⟩
  constructor
  · exact fun hpayable => step_defined hw (by decide) hfits hpayable
  · rintro ⟨c, hc, hgift⟩ r w'
    exact gift_stops_step hw hc hgift r w'

/-- The stranded world without its job, with an open contract for nobody at this price. -/
def giftWorld (price : Cents) : World :=
  { strandedWorld with
    jobs := []
    contracts := [⟨⟨6⟩, ⟨3⟩, none, ⟨1⟩, ⟨2⟩, 1, 0, price, .unfulfilled, 0⟩] }

/-- At a price of one the tick waits for a seller who has the goods; a gift stops it. -/
theorem default_ticks_defined_gift : (giftWorld 1).check = .ok () ∧ (∃ r w', (step {}).run (giftWorld 1) = .ok r w') ∧
    (giftWorld 1).Payable ∧ (∀ e w', (step {}).run (giftWorld 1) = .error e w' → e ≠ .undefined) ∧
    (giftWorld 0).check = .ok () ∧ ∀ r w', (step {}).run (giftWorld 0) ≠ .ok r w' := by
  have hpriced : (giftWorld 1).check = .ok () := by decide +kernel
  have hfree : (giftWorld 0).check = .ok () := by decide +kernel
  have hpayable : (giftWorld 1).Payable := by
    refine ⟨nofun, fun c hc _ => ?_⟩
    obtain rfl := List.mem_singleton.1 hc
    exact Int64.zero_ne_one.symm
  exact ⟨hpriced, Action.ok_of_outcome_isOk (by decide +kernel), hpayable, (default_ticks_defined hpriced).1 hpayable,
    hfree, (default_ticks_defined hfree).2 ⟨_, List.mem_cons_self, rfl, rfl, rfl⟩⟩

/-- A company that wants a unit at a price of one, and offers one at this price. -/
def bountyWorld (price : Cents) : World :=
  { strandedWorld with
    companies := [⟨⟨3⟩, "mine", 1000, 1, false⟩]
    jobs := []
    orders := [⟨⟨6⟩, ⟨3⟩, ⟨1⟩, ⟨2⟩, .sell, price, 1, 1, .unfilled, 0⟩,
      ⟨⟨7⟩, ⟨3⟩, ⟨1⟩, ⟨2⟩, .buy, 1, 1, 1, .unfilled, 0⟩]
    nextId := 7 }

/-- A company that has set aside all that there is, and is to deliver a unit to itself at this price. -/
def subsidyWorld (price : Cents) : World :=
  { strandedWorld with
    companies := [⟨⟨3⟩, "mine", 0, .maxValue, false⟩]
    jobs := []
    contracts := [⟨⟨6⟩, ⟨3⟩, some ⟨3⟩, ⟨1⟩, ⟨2⟩, 1, 0, price, .unfulfilled, 0⟩]
    inventory := .ofBalances [⟨⟨⟨3⟩, ⟨1⟩, ⟨2⟩⟩, 1⟩] }

/-- None of the prices that are not payable is refused by the check, and each of them can leave a tick without a
result: a gift, an offer so far below zero that the refund is no amount, and a contract that pays its buyer more than
can be set aside. -/
theorem unpayable_ticks_undefined :
    ((giftWorld 0).check = .ok () ∧ ∃ w', (step {}).run (giftWorld 0) = .error .undefined w') ∧
    ((bountyWorld .minValue).check = .ok () ∧ ∃ w', (step {}).run (bountyWorld .minValue) = .error .undefined w') ∧
    ((subsidyWorld (-1)).check = .ok () ∧ ∃ w', (step {}).run (subsidyWorld (-1)) = .error .undefined w') := by
  have hfails (w : World) (h : ((step {}).outcome w).map (·.1.1.tick) = .error .undefined) :
      ∃ w', (step {}).run w = .error .undefined w' := Action.outcome_error.1 (Check.map_error.1 h)
  exact ⟨⟨by decide +kernel, hfails _ (by decide +kernel)⟩, ⟨by decide +kernel, hfails _ (by decide +kernel)⟩,
    by decide +kernel, hfails _ (by decide +kernel)⟩

end Mercantile
