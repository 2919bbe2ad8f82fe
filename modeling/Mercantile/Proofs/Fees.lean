import Mercantile.Proofs.Debts
import Mercantile.Proofs.Rounding

/-!
Fees of admitted shipments. `planShipment` looks at the stock and at the time of arrival. It does not look at
the fee, which is worked out when the goods arrive, and is a number of cents exactly if the shipment is
`Chargeable`. One that is not is accepted all the same, and from its arrival on no tick succeeds
(`overflowing_fee_aborts`).
-/

namespace Mercantile

open Roster (UpTo)

namespace Decimal

section

variable {x : Rat} {n p q : Nat}

theorem half_unit_mul (q : Nat) : (1 : Rat) / (2 * 10 ^ q) * 10 ^ q = 1 / 2 := by field_simp

/-- The mantissa of what is half a unit below an even number, or closer, is rounded up to that of the number. -/
theorem le_mantissa_of_near (heven : n % 2 = 0) (hqp : q ≤ p) (hx : n - 1 / (2 * 10 ^ p) ≤ x) :
    ((n * Text.tenTo q : Nat) : Int) ≤ mantissa .even x q := by
  have hpow : (0 : Rat) < 10 ^ q := by positivity
  refine le_mantissa_of_even ?_ ?_
  · have hmod : n * Text.tenTo q % 2 = 0 := by rw [Nat.mul_mod, heven, Nat.zero_mul, Nat.zero_mod]
    omega
  · have hscaled : (n - 1 / (2 * 10 ^ q) : Rat) * 10 ^ q ≤ x * 10 ^ q :=
      mul_le_mul_of_nonneg_right (by linarith [half_unit_le hqp]) hpow.le
    rw [sub_mul, half_unit_mul] at hscaled
    push_cast
    rw [tenTo_eq]
    linarith

/-- The mantissa of what is further below a number is below that of the number. -/
theorem mantissa_lt_of_far (hpq : p ≤ q) (hx : x < n - 1 / (2 * 10 ^ p)) :
    mantissa .even x q < ((n * Text.tenTo q : Nat) : Int) := by
  have hpow : (0 : Rat) < 10 ^ q := by positivity
  refine mantissa_lt_of_lt ?_
  have hscaled : x * 10 ^ q < (n - 1 / (2 * 10 ^ q)) * 10 ^ q :=
    mul_lt_mul_of_pos_right (by linarith [half_unit_le hpq]) hpow
  rw [sub_mul, half_unit_mul] at hscaled
  push_cast
  rw [tenTo_eq]
  linarith

/-- With more digits than fit below a number, the mantissa of what is close to it is too large. -/
theorem mantissaSize_le_mantissa (hx : 0 ≤ x) (hlonger : mantissaSize + 5 ≤ n * 10 ^ (p + 1)) (hpq : p < q)
    (hnear : n - 1 / (2 * 10 ^ p) ≤ x) : (mantissaSize : Int) ≤ mantissa .even x q := by
  have hscale : (10 : Rat) ^ (p + 1) ≤ 10 ^ q := pow_le_pow_right₀ (by norm_num) hpq
  have hroom : (mantissaSize : Rat) + 5 ≤ n * 10 ^ (p + 1) := by exact_mod_cast hlonger
  have hfive : (1 : Rat) / (2 * 10 ^ p) * 10 ^ (p + 1) = 5 := by
    field_simp
    ring
  have hscaled : (n - 1 / (2 * 10 ^ p) : Rat) * 10 ^ (p + 1) ≤ x * 10 ^ q :=
    mul_le_mul hnear hscale (by positivity) hx
  rw [sub_mul, hfive] at hscaled
  have hlarge : ((mantissaSize : Int) : Rat) ≤ x * 10 ^ q := by
    push_cast
    linarith
  exact le_mantissa_of_le hlarge

/-- Where `p` fractional digits fit below an even number and one digit more does not, a result is rounded to
less than that number exactly if it is more than half a unit of the last digit below it. -/
theorem exists_fit_lt_iff (hp : p ≤ 28) (hx : 0 ≤ x) (heven : n % 2 = 0)
    (hsize : n * 10 ^ p < mantissaSize) (hlonger : mantissaSize + 5 ≤ n * 10 ^ (p + 1)) :
    (∃ y, fit? x = some y ∧ y < n) ↔ x < n - 1 / (2 * 10 ^ p) := by
  constructor
  · rintro ⟨y, hy, hlt⟩
    by_contra hge
    obtain ⟨q, -, hfits, rfl, -⟩ := fit?_eq_some.1 hy
    have hqp : q ≤ p := by
      by_contra hlong
      have := mantissaSize_le_mantissa hx hlonger (not_le.1 hlong) (not_lt.1 hge)
      omega
    have hpow : (0 : Rat) < 10 ^ q := by positivity
    have hcast : (n : Rat) * 10 ^ q ≤ mantissa .even x q := by
      rw [← tenTo_eq]
      exact_mod_cast le_mantissa_of_near heven hqp (not_lt.1 hge)
    exact absurd ((div_lt_iff₀ hpow).1 hlt) (not_lt.2 hcast)
  · intro hlt
    have hfits : (mantissa .even x p).natAbs < mantissaSize := by
      have hnonneg : 0 ≤ mantissa .even x p := le_mantissa_of_le (by rw [Int.cast_zero]; positivity)
      have hten : Text.tenTo p = 10 ^ p := Nat.pow_eq
      have hbelow := mantissa_lt_of_far (le_refl p) hlt
      rw [hten] at hbelow
      omega
    obtain ⟨y, hy⟩ := exists_fitWithin hp (fitAt?_eq_some.2 ⟨hfits, rfl⟩)
    refine ⟨y, hy, ?_⟩
    obtain ⟨q, -, -, rfl, hnone⟩ := fit?_eq_some.1 hy
    have hpq : p ≤ q := not_lt.1 fun hlt => absurd hfits (not_lt.2 (hnone p hlt hp))
    rw [div_lt_iff₀ (by positivity), ← tenTo_eq]
    exact_mod_cast mantissa_lt_of_far hpq hlt

end

end Decimal

/-- What a delivery costs at a logistics multiplier of one. -/
def LogisticsConfig.gross (cfg : LogisticsConfig) (q : Quantity) : Int := cfg.feePerUnit.toInt * q.toNat

/-- The gross fee has a decimal, and the fee is not so close to `2 ^ 63` cents that it is rounded up to them at
the ninth place. -/
structure Chargeable (cfg : LogisticsConfig) (q : Quantity) (m : Decimal) : Prop where
  gross : cfg.gross q < Decimal.mantissaSize
  fee : (cfg.gross q : Rat) / m < 2 ^ 63 - 1 / (2 * 10 ^ 9)

section

variable {cfg : LogisticsConfig} {q : Quantity} {m : Decimal} {e : Failure}

theorem deliveryFee_defined_iff (hunit : ¬ cfg.feePerUnit < 0) (hm : 0 < m) :
    (∃ fee, deliveryFee cfg q m = .ok fee) ↔ Chargeable cfg q m := by
  have hgross : 0 ≤ cfg.gross q := by
    rw [Int64.not_lt, Int64.le_iff_toInt_le] at hunit
    exact Int.mul_nonneg hunit (Int.natCast_nonneg _)
  have hquotient : 0 ≤ (cfg.gross q : Rat) / m := div_nonneg (Rat.intCast_nonneg.2 hgross) hm.le
  have hfits := Decimal.exists_fit_lt_iff (n := 2 ^ 63) (p := 9) (by norm_num) hquotient (by norm_num)
    (by rw [Decimal.mantissaSize]; norm_num) (by rw [Decimal.mantissaSize]; norm_num)
  rw [Nat.cast_pow, Nat.cast_ofNat] at hfits
  have hsize : (cfg.gross q).natAbs < Decimal.mantissaSize ↔ cfg.gross q < Decimal.mantissaSize := by omega
  have hmax := Int64.toInt_maxValue
  constructor
  · rintro ⟨fee, hfee⟩
    obtain ⟨hdigits, -, y, hy, hfloor⟩ := deliveryFee_ok.1 hfee
    refine ⟨hsize.1 hdigits, hfits.1 ⟨y, hy, ?_⟩⟩
    have hle := fee.toInt_le
    have hlt : y.floor < ((2 ^ 63 : Int) : Int) := by omega
    exact_mod_cast Rat.floor_lt_iff.1 hlt
  · rintro ⟨hdigits, hclear⟩
    obtain ⟨y, hy, hlt⟩ := hfits.2 hclear
    have hnonneg : 0 ≤ y.floor := Rat.le_floor_iff.2 (by exact_mod_cast Decimal.fit?_nonneg hquotient hy)
    have hword : y.floor < 2 ^ 63 := Rat.floor_lt_iff.2 (by exact_mod_cast hlt)
    have hfee : (Int64.ofInt y.floor).toInt = y.floor := by
      refine Int64.toInt_ofInt_of_le (le_trans (by decide) hnonneg) ?_
      omega
    exact ⟨Int64.ofInt y.floor, deliveryFee_ok.2 ⟨hsize.2 hdigits, hm.ne', y, hy, hfee⟩⟩

theorem deliveryFee_error_iff (hunit : ¬ cfg.feePerUnit < 0) (hm : 0 < m) :
    deliveryFee cfg q m = .error e ↔ e = .overflow .deliveryFee ∧ ¬ Chargeable cfg q m := by
  rw [← deliveryFee_defined_iff hunit hm]
  constructor
  · intro h
    refine ⟨(orFail_error.1 h).2, ?_⟩
    rintro ⟨fee, hfee⟩
    rw [h] at hfee
    cases hfee
  · rintro ⟨rfl, hnone⟩
    exact deliveryFee_eq_error fun fee hfee => hnone ⟨fee, hfee⟩

end

section

variable {cfg : LogisticsConfig} {multipliers : MultiplierTable} {sh : Shipment} {s : Account}

/-- To charge a fee may fail, but not for want of a fee. -/
theorem Ledger.charge_failsOnly (i : CompanyId) (fee : Cents) (s : Account) :
    (charge i fee).FailsOnly (· ≠ .overflow .deliveryFee) s := by
  refine Action.FailsOnly.bind (.zoom (.update fun e h => ?_)) fun _ t _ => .zoom (.update fun e h => ?_)
  · rcases Check.bind_error.1 h with h | ⟨c, -, h⟩
    · rw [(Roster.require_error.1 h).2]
      exact nofun
    · rcases Check.bind_error.1 h with h | ⟨cash, -, h⟩
      · rw [(orFail_error.1 h).2]
        exact nofun
      · cases h
  · rcases Check.bind_error.1 h with h | ⟨outflow, -, h⟩
    · rw [(orFail_error.1 h).2]
      exact nofun
    · cases h

/-- To put goods to a stock fails for want of room. -/
theorem addStock_error {k : StockKey} {q : Quantity} {w w' : World} {e : Failure}
    (h : (World.addStock k q).run w = .error e w') : e = .overflow .inventoryQuantity := by
  obtain ⟨h, -⟩ := Action.update_error.1 h
  rcases Check.bind_error.1 h with h | ⟨inv, -, h⟩
  · rcases Check.bind_error.1 h with h | ⟨total, -, h⟩
    · exact (orFail_error.1 h).2
    · cases h
  · cases h

/-- An arrival comes to its fee once there is room for the goods, and fails there if it is not chargeable. -/
theorem deliverShipment_feeOverflow (hunit : ¬ cfg.feePerUnit < 0)
    (hm : 0 < (multipliers.of sh.company).logistics) :
    (∃ s', (deliverShipment multipliers cfg sh).run s = .error (.overflow .deliveryFee) s') ↔
      (∃ inv, s.world.inventory.add sh.landing sh.quantity = .ok inv) ∧
        ¬ Chargeable cfg sh.quantity (multipliers.of sh.company).logistics := by
  constructor
  · rintro ⟨s', h⟩
    rcases Action.bind_error.1 h with hadd | ⟨_, t, hadd, h⟩
    · obtain ⟨w', hadd, -⟩ := Action.zoom_error.1 hadd
      cases addStock_error hadd
    · obtain ⟨w', hadd, -⟩ := Account.onWorld_ok.1 hadd
      obtain ⟨inv, hinv, -⟩ := World.addStock_ok.1 hadd
      refine ⟨⟨inv, hinv⟩, ?_⟩
      rcases Action.bind_error.1 h with hfee | ⟨fee, t', -, h⟩
      · exact ((deliveryFee_error_iff hunit hm).1 (Action.lift_error.1 hfee).1).2
      · have hmark (t : Account) : (do
            Account.onWorld (modify fun w => w.modifyShipment sh.id fun k => { k with status := .delivered })
            return sh.id : Action Account ShipmentId).FailsOnly (· ≠ .overflow .deliveryFee) t :=
          Action.FailsOnly.bind (.zoom (.modify _)) fun _ _ _ => .pure _
        split at h
        · have hfails := (Ledger.charge_failsOnly sh.company fee t').bind fun _ u _ => hmark u
          exact absurd rfl (hfails _ _ h)
        · exact absurd rfl (hmark _ _ _ h)
  · rintro ⟨⟨inv, hinv⟩, hfee⟩
    have hadd : (Account.onWorld (World.addStock sh.landing sh.quantity)).run s =
        .ok () { s with world := { s.world with inventory := inv } } :=
      Account.onWorld_ok.2 ⟨_, World.addStock_ok.2 ⟨inv, hinv, rfl⟩, rfl⟩
    have hnone := (deliveryFee_error_iff hunit hm).2 ⟨rfl, hfee⟩
    refine ⟨{ s with world := { s.world with inventory := inv } }, ?_⟩
    refine Action.bind_error.2 (Or.inr ⟨(), _, hadd, Action.bind_error.2 (Or.inl ?_)⟩)
    exact Action.lift_error.2 ⟨hnone, rfl⟩

/-- The arrivals fail at a fee where it is the turn of a shipment that has room and is not chargeable. -/
theorem advanceShipments_feeOverflow {tick : Tick} (hunit : ¬ cfg.feePerUnit < 0)
    (hm : ∀ i, 0 < (multipliers.of i).logistics)
    (h : ∃ s', (advanceShipments tick multipliers cfg).run s = .error (.overflow .deliveryFee) s') :
    ∃ sh ∈ s.world.due tick, ¬ Chargeable cfg sh.quantity (multipliers.of sh.company).logistics := by
  obtain ⟨s', h⟩ := h
  rcases Action.bind_error.1 h with h | ⟨_, _, hget, h⟩
  · cases h
  · obtain ⟨rfl, rfl⟩ := Action.get_ok.1 hget
    obtain ⟨before, sh, after, ids, t, hdue, -, hlast⟩ := Action.mapM_error.1 h
    refine ⟨sh, ?_, ((deliverShipment_feeOverflow hunit (hm sh.company)).1 ⟨s', hlast⟩).2⟩
    rw [World.due, hdue]
    exact List.mem_append_right _ List.mem_cons_self

end

/-- A tick that succeeds has charged everything that arrived. -/
theorem step_charged {cfg : EngineConfig} {w w' : World} {r : TickReport × List Trade} {tick : Tick}
    (hcfg : cfg.check = .ok ()) (htick : tick.toNat = w.clock.currentTick.toNat + 1)
    (h : (step cfg).run w = .ok r w') {sh : Shipment} (hsh : sh ∈ w.due tick) :
    Chargeable cfg.logistics sh.quantity ((companyMultipliers w cfg.workforce).of sh.company).logistics := by
  obtain ⟨hfloor, hunit, -⟩ := EngineConfig.check_ok hcfg
  obtain ⟨o, hticks⟩ := step_ticks h
  obtain ⟨before, after, harrives⟩ := hticks.arrives
  obtain ⟨-, hrun⟩ := harrives.deliveries
  obtain ⟨tick', s₁, w₂, t, htick', -, -, -, -, -, -, hclock⟩ := harrives
  obtain ⟨v, -, rfl⟩ := moveClock_ok.1 hclock
  obtain rfl : tick' = tick := UInt64.toNat_inj.1 (htick'.trans htick.symm)
  obtain ⟨fee, hfee⟩ := (deliveries_landed hrun).fees sh hsh
  exact (deliveryFee_defined_iff hunit (logistics_pos hfloor sh.company)).1 ⟨fee, hfee⟩

/-- What an accepted shipment may be charged. At every multiplier that its company may come to work at it has a
fee exactly if it is chargeable, and an overflow otherwise, and arrivals fail at a fee only where something due is
not chargeable. In a world whose shipments are in order, every later world has it with the company and the quantity
that were accepted. Its delivery fails at the fee exactly if there is room for its goods and it is not chargeable,
and while it is due and not chargeable no tick succeeds. -/
theorem admitted_fee_defined_iff {cfg : EngineConfig} (hcfg : cfg.check = .ok ()) {r : ShipmentRequest}
    {id : ShipmentId} {w w₁ : World} (hcreate : (createShipment r cfg.logistics).run w = .ok id w₁) :
    (∀ v : World,
      let multipliers := companyMultipliers v cfg.workforce
      let m := (multipliers.of r.company).logistics
      ((∃ fee, deliveryFee cfg.logistics r.quantity m = .ok fee) ↔ Chargeable cfg.logistics r.quantity m) ∧
      (∀ e, deliveryFee cfg.logistics r.quantity m = .error e ↔
        e = .overflow .deliveryFee ∧ ¬ Chargeable cfg.logistics r.quantity m) ∧
      ∀ tick s, (∃ s', (advanceShipments tick multipliers cfg.logistics).run s =
          .error (.overflow .deliveryFee) s') →
        ∃ sh ∈ s.world.due tick, ¬ Chargeable cfg.logistics sh.quantity (multipliers.of sh.company).logistics) ∧
    (UpTo w.nextId w.shipments → ∀ v, Runs w₁ v →
      let multipliers := companyMultipliers v cfg.workforce
      let m := (multipliers.of r.company).logistics
      ∃ sh, v.shipments.get? id = some sh ∧ sh.company = r.company ∧ sh.quantity = r.quantity ∧
        (∀ s, (∃ s', (deliverShipment multipliers cfg.logistics sh).run s = .error (.overflow .deliveryFee) s') ↔
          (∃ inv, s.world.inventory.add sh.landing sh.quantity = .ok inv) ∧
            ¬ Chargeable cfg.logistics r.quantity m) ∧
        ∀ tick : Tick, tick.toNat = v.clock.currentTick.toNat + 1 → sh.isDue tick →
          ¬ Chargeable cfg.logistics r.quantity m → ∀ report v', (step cfg).run v ≠ .ok report v') := by
  obtain ⟨hfloor, hunit, -⟩ := EngineConfig.check_ok hcfg
  have hm (v : World) := logistics_pos (w := v) hfloor
  refine ⟨fun v => ⟨deliveryFee_defined_iff hunit (hm v _), fun e => deliveryFee_error_iff hunit (hm v _),
    fun tick s => advanceShipments_feeOverflow hunit (hm v)⟩, fun hw v hruns => ?_⟩
  obtain ⟨-, -, -, -, -, -, -, eta, inv, -, -, hid, rfl⟩ := createShipment_ok hcreate
  have hshipments := hw.append (a := r.shipment id w.clock.currentTick eta) (m := id.val)
    (Nat.lt_of_succ_le hid.ge) (Nat.le_refl _)
  have hlater := hruns.continues
  obtain ⟨sh, hsh, hproceeds⟩ := (hlater.shipments hshipments).found hlater.nextId hshipments
    (List.mem_append_right _ (List.mem_singleton_self _))
  have hcompany : sh.company = r.company := congrArg Shipment.company hproceeds.terms
  have hquantity : sh.quantity = r.quantity := congrArg Shipment.quantity hproceeds.terms
  refine ⟨sh, hsh, hcompany, hquantity, ?_⟩
  rw [← hcompany, ← hquantity]
  refine ⟨fun s => deliverShipment_feeOverflow hunit (hm v _), fun tick htick hdue hnot report v' h => ?_⟩
  exact hnot (step_charged hcfg htick h (List.mem_filter.2 ⟨Roster.mem_of_get? hsh, hdue⟩))

/-- A company with ore for which the fee at the usual rate is one cent more than the largest amount. -/
def quarry : World :=
  { World.empty with
    regions := [⟨⟨1⟩, "north"⟩, ⟨⟨2⟩, "south"⟩]
    items := [⟨⟨3⟩, "ore"⟩]
    companies := [⟨⟨4⟩, "mine", 0, 0, false⟩]
    inventory := .ofBalances [⟨⟨⟨4⟩, ⟨1⟩, ⟨3⟩⟩, 4611686018427387904⟩]
    nextId := 4 }

/-- All of the ore is accepted as one shipment. While its company works at a multiplier of one it has no fee,
and no tick goes past its arrival. -/
theorem admitted_fee_defined_iff_quarry : ({} : EngineConfig).check = .ok () ∧
    UpTo quarry.nextId quarry.shipments ∧
    ∃ w₁, (createShipment ⟨⟨4⟩, ⟨1⟩, ⟨2⟩, ⟨3⟩, 4611686018427387904, 7⟩ {}).run quarry = .ok ⟨5⟩ w₁ ∧
      ∀ v, Runs w₁ v → ((companyMultipliers v {}).of ⟨4⟩).logistics = 1 →
        deliveryFee {} 4611686018427387904 ((companyMultipliers v {}).of ⟨4⟩).logistics =
          .error (.overflow .deliveryFee) ∧
        ∃ sh, v.shipments.get? ⟨5⟩ = some sh ∧ ∀ tick : Tick, tick.toNat = v.clock.currentTick.toNat + 1 →
          sh.isDue tick → ∀ report v', (step {}).run v ≠ .ok report v' := by
  have hcfg : ({} : EngineConfig).check = .ok () := by decide
  have hshipments : UpTo quarry.nextId quarry.shipments := ⟨by decide +kernel, by decide +kernel⟩
  have hcreate : ((createShipment ⟨⟨4⟩, ⟨1⟩, ⟨2⟩, ⟨3⟩, 4611686018427387904, 7⟩ {}).outcome quarry).map (·.1) =
      .ok ⟨5⟩ := by decide +kernel
  obtain ⟨⟨_, w₁⟩, hcreate, rfl⟩ := Check.map_ok.1 hcreate
  have hcreate := Action.outcome_ok.1 hcreate
  obtain ⟨hfee, hlater⟩ := admitted_fee_defined_iff hcfg hcreate
  refine ⟨hcfg, hshipments, w₁, hcreate, fun v hruns hone => ?_⟩
  have hnot : ¬ Chargeable {} 4611686018427387904 ((companyMultipliers v {}).of ⟨4⟩).logistics := by
    rw [hone]
    rintro ⟨-, hclear⟩
    exact absurd hclear (by decide +kernel)
  obtain ⟨sh, hsh, -, -, -, hstuck⟩ := hlater hshipments v hruns
  exact ⟨((hfee v).2.1 _).2 ⟨rfl, hnot⟩, sh, hsh, fun tick htick hdue => hstuck tick htick hdue hnot⟩

/-- The shipment is accepted in a world that passes the check, and the tick of its arrival fails at the fee. -/
theorem overflowing_fee_aborts : quarry.check = .ok () ∧
    ∃ w₁, (createShipment ⟨⟨4⟩, ⟨1⟩, ⟨2⟩, ⟨3⟩, 4611686018427387904, 1⟩ {}).run quarry = .ok ⟨5⟩ w₁ ∧
      (∃ s', (advanceShipments 1 (companyMultipliers w₁ {}) {}).run ⟨w₁, .zero⟩ =
        .error (.overflow .deliveryFee) s') ∧
      ∃ w', (step {}).run w₁ = .error (.overflow .deliveryFee) w' := by
  let w₁ : World := { quarry with
    inventory := .ofBalances []
    nextId := 5
    shipments := [⟨⟨5⟩, ⟨4⟩, ⟨1⟩, ⟨2⟩, ⟨3⟩, 4611686018427387904, .inTransit, 0, 1⟩] }
  have harrivals : ((advanceShipments 1 (companyMultipliers w₁ {}) {}).outcome ⟨w₁, .zero⟩).map (·.1) =
      .error (.overflow .deliveryFee) := by decide +kernel
  have htick : ((step {}).outcome w₁).map (·.1.1.tick) = .error (.overflow .deliveryFee) := by decide +kernel
  refine ⟨by decide +kernel, w₁, Action.outcome_ok.1 (by decide +kernel), ?_, ?_⟩
  · exact Action.outcome_error.1 (Check.map_error.1 harrivals)
  · exact Action.outcome_error.1 (Check.map_error.1 htick)

end Mercantile
