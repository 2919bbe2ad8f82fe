import Mercantile.Scenario
import Mercantile.Proofs.Ventures

/-!
Demo worlds. Whatever the seed, a drawn number is within its bounds (`Random.between_bounds`), and the bounds are such
that nobody is ever refused anything. What is still to come is kept in one invariant (`Draft.Ready`): who has not had
its turn has the cash, the goods and the idle building for it, and there are identifiers for all. The generator
therefore comes to an end (`Draft.populate_succeeds`) with a world that can be used (`demoWorld_usable`).
-/

namespace Mercantile.Random

/-- A number below `n` is drawn, also where the last draw that is allowed is taken as it is. -/
theorem drawBelow_lt {next : Random → Nat × Random} {size n : Nat} (hnext : ∀ r, (next r).1 < size) (hn : 0 < n)
    (zone tries : Nat) (r : Random) : (drawBelow next size n zone tries r).1 < n := by
  have hscaled (r : Random) : (next r).1 * n / size < n :=
    Nat.div_lt_of_lt_mul (Nat.mul_lt_mul_of_pos_right (hnext r) hn)
  induction tries generalizing r with
  | zero => exact hscaled r
  | succ tries ih =>
      simp only [drawBelow]
      split
      · exact hscaled r
      · exact ih (next r).2

theorem between_bounds {low high : Nat} (h : low ≤ high) (r : Random) :
    low ≤ (r.between low high).1 ∧ (r.between low high).1 ≤ high := by
  rw [between]
  refine ⟨Nat.le_add_right _ _, Nat.add_le_of_le_sub' h (Nat.le_of_lt_succ ?_)⟩
  refine drawBelow_lt (fun r => ?_) (Nat.succ_pos _) _ _ r
  exact r.nextLong.1.toNat_lt_size

theorem byteBetween_bounds {low high : Nat} (h : low ≤ high) (r : Random) :
    low ≤ (r.byteBetween low high).1 ∧ (r.byteBetween low high).1 ≤ high := by
  rw [byteBetween]
  refine ⟨Nat.le_add_right _ _, Nat.add_le_of_le_sub' h (Nat.le_of_lt_succ ?_)⟩
  refine drawBelow_lt (fun r => ?_) (Nat.succ_pos _) _ _ r
  exact r.nextWord.1.toNat_lt_size

end Mercantile.Random

namespace Mercantile

namespace Draft

variable {α : Type} {d : Draft} {low high : Nat}

theorem onWorld_succeeds {x : Action World α} {Q : α → World → Prop} (h : x.Succeeds d.world Q) :
    (onWorld x).Succeeds d fun a d' => Q a d'.world := Action.Succeeds.zoom h

theorem create_succeeds (f : World → α × World) :
    (create f).Succeeds d fun a d' => a = (f d.world).1 ∧ d'.world = (f d.world).2 :=
  ⟨_, _, rfl, rfl, rfl⟩

theorem draw_succeeds (h : low ≤ high) :
    (draw low high).Succeeds d fun n d' => (low ≤ n ∧ n ≤ high) ∧ d'.world = d.world :=
  ⟨_, _, rfl, Random.between_bounds h _, rfl⟩

theorem drawByte_succeeds (h : low ≤ high) :
    (drawByte low high).Succeeds d fun n d' => (low ≤ n ∧ n ≤ high) ∧ d'.world = d.world :=
  ⟨_, _, rfl, Random.byteBetween_bounds h _, rfl⟩

/-- The world has what the setting speaks of. -/
structure Setting.In (s : Setting) (w : World) : Prop where
  apart : s.north ≠ s.south
  north : ∃ g, w.regions.get? s.north = some g
  south : ∃ g, w.regions.get? s.south = some g
  ore : ∃ i, w.items.get? s.ore = some i
  ingot : ∃ i, w.items.get? s.ingot = some i
  recipe : ∃ r, w.recipes.get? s.recipe = some r ∧ r.buildingKind = "smelter" ∧ r.inputs = [⟨s.ore, 2⟩]

/-- A player with at least so much cash, an empty smelter and the ore that a job needs first. -/
structure Player.Prepared (s : Setting) (cash : Nat) (w : World) (p : Player) : Prop where
  company : ∃ c, w.companies.get? p.company = some c ∧ cash ≤ c.cash.toInt
  region : ∃ g, w.regions.get? p.region = some g
  building : ∃ b, w.buildings.get? p.building = some b ∧ b.company = p.company ∧ b.region = p.region ∧
    b.kind = "smelter" ∧ b.status = .active ∧ 0 < b.capacity.toNat
  idle : ∀ j ∈ w.jobs, j.building ≠ p.building
  ore : 2 ≤ (w.inventory.quantity ⟨p.company, p.region, s.ore⟩).toNat

/-- A bot with the ore for its offers in both regions. -/
structure Setting.Supplies (s : Setting) (w : World) (bot : CompanyId) : Prop where
  company : ∃ c, w.companies.get? bot = some c
  north : 500 ≤ (w.inventory.quantity ⟨bot, s.north, s.ore⟩).toNat
  south : 500 ≤ (w.inventory.quantity ⟨bot, s.south, s.ore⟩).toNat

variable {s : Setting} {i : CompanyId} {w w' : World}

theorem Setting.In.others (h : s.In w) (hw : w.OthersKept i w') : s.In w' where
  apart := h.apart
  north := hw.regions ▸ h.north
  south := hw.regions ▸ h.south
  ore := hw.items ▸ h.ore
  ingot := hw.items ▸ h.ingot
  recipe := hw.recipes ▸ h.recipe

theorem Player.Prepared.others {cash : Nat} {p : Player} (h : p.Prepared s cash w) (hw : w.OthersKept i w')
    (hi : p.company ≠ i) : p.Prepared s cash w' where
  company := by
    obtain ⟨c, hc, hcash⟩ := h.company
    exact ⟨c, hw.companies _ c hi hc, hcash⟩
  region := hw.regions ▸ h.region
  building := by
    obtain ⟨b, hb, hplace⟩ := h.building
    exact ⟨b, hw.buildings _ b hb, hplace⟩
  idle := by
    intro j hj
    rcases hw.jobs j hj with hold | ⟨building, hbuilding, howner⟩
    · exact h.idle j hold
    · rintro heq
      obtain ⟨b, hb, hcompany, -⟩ := h.building
      have hsame := hw.buildings _ b hb
      rw [← heq, hbuilding, Option.some_inj] at hsame
      exact hi (hcompany ▸ hsame ▸ howner)
  ore := by
    rw [hw.stock _ hi]
    exact h.ore

theorem Setting.Supplies.others {bot : CompanyId} (h : s.Supplies w bot) (hw : w.OthersKept i w') (hi : bot ≠ i) :
    s.Supplies w' bot where
  company := by
    obtain ⟨c, hc⟩ := h.company
    exact ⟨c, hw.companies _ c hi hc⟩
  north := by
    rw [hw.stock _ hi]
    exact h.north
  south := by
    rw [hw.stock _ hi]
    exact h.south

/-- Whatever company `i` does, the players that are others stay prepared. -/
theorem prepared_others {players : List Player} {cash : Nat} (hw : w.OthersKept i w')
    (hi : i ∉ players.map (·.company)) (h : ∀ p ∈ players, p.Prepared s cash w) :
    ∀ p ∈ players, p.Prepared s cash w' := by
  intro p hp
  refine (h p hp).others hw fun heq => hi ?_
  exact heq ▸ List.mem_map_of_mem hp

theorem supplies_others {bots : List CompanyId} (hw : w.OthersKept i w') (hi : i ∉ bots)
    (h : ∀ bot ∈ bots, s.Supplies w bot) : ∀ bot ∈ bots, s.Supplies w' bot := by
  intro bot hbot
  exact (h bot hbot).others hw fun heq => hi (heq ▸ hbot)

/-- A step of company `i` that uses up one unit of what it was prepared with can be repeated while some is left. -/
theorem repeat_succeeds {f : Action Draft Unit} {K : Nat → World → Prop} {d : Draft} {k : Nat}
    (hf : ∀ n e, e.world.Thriving → e.world.nextId.toNat + 1 < UInt64.size → K (n + 1) e.world →
      f.Succeeds e fun _ e' => e.world.Moves i 1 e'.world ∧ K n e'.world)
    (hd : d.world.Thriving) (hfree : d.world.nextId.toNat + k < UInt64.size) (hK : K k d.world) :
    ((List.range k).forM fun _ => f).Succeeds d fun _ d' => d.world.Moves i k d'.world ∧ K 0 d'.world := by
  let P (left : List Nat) (e : Draft) : Prop :=
    ∃ n, n + left.length = k ∧ d.world.Moves i n e.world ∧ K left.length e.world
  have hstart : P (List.range k) d := ⟨0, by simp, .refl i hd, by simpa using hK⟩
  refine (Action.Succeeds.forM (P := P) (fun _ left e he => ?_) hstart).imp fun _ e he => ?_
  · obtain ⟨n, hn, hmoves, hleft⟩ := he
    rw [List.length_cons] at hn hleft
    have hids := hmoves.ids
    refine (hf left.length e hmoves.thriving (by omega) hleft).imp fun _ e' he' => ?_
    exact ⟨n + 1, by omega, hmoves.trans he'.1, he'.2⟩
  · obtain ⟨n, hn, hmoves, hnone⟩ := he
    exact ⟨hn ▸ hmoves, hnone⟩

/-- An order is added if it can be placed whatever is drawn for it. -/
theorem addOrder_succeeds {d : Draft} {company : CompanyId} {region : RegionId} {side : OrderSide}
    {price size : Nat × Nat} {Q : Draft → Prop} (hprice : price.1 ≤ price.2 ∧ price.2 < 2 ^ 63)
    (hsize : size.1 ≤ size.2 ∧ size.2 < 2 ^ 64)
    (h : ∀ (cents : Cents) (quantity : Quantity), price.1 ≤ cents.toInt ∧ cents.toInt ≤ price.2 →
      size.1 ≤ quantity.toNat ∧ quantity.toNat ≤ size.2 →
      (placeOrder ⟨company, region, s.ore, side, cents, quantity⟩).Succeeds d.world fun _ w' =>
        ∀ d', d'.world = w' → Q d') :
    (addOrder s company region side price size).Succeeds d fun _ d' => Q d' := by
  refine (draw_succeeds hprice.1).bind fun cents d₁ ⟨hcents, hd₁⟩ => ?_
  refine (draw_succeeds hsize.1).bind fun quantity d₂ ⟨hquantity, hd₂⟩ => ?_
  have hword : (Int64.ofNat cents).toInt = cents := Int64.toInt_ofNat_of_lt (by omega)
  have hunits : (UInt64.ofNat quantity).toNat = quantity :=
    UInt64.toNat_ofNat_of_lt' (Nat.lt_of_le_of_lt hquantity.2 hsize.2)
  have hplaced := h (Int64.ofNat cents) (UInt64.ofNat quantity) (by omega) (by omega)
  rw [← hd₁, ← hd₂] at hplaced
  exact (onWorld_succeeds hplaced).bind fun _ d₃ hd₃ => .pure (hd₃ d₃ rfl)

/-- A player posts a bid, for 1050 cents at most. -/
theorem addBid_succeeds {d : Draft} {p : Player} {cash : Nat} (hs : s.In d.world) (hd : d.world.Thriving)
    (hfree : d.world.nextId.toNat + 1 < UInt64.size) (hp : p.Prepared s (1050 + cash) d.world) :
    (addOrder s p.company p.region .buy (85, 105) (1, 10)).Succeeds d fun _ d' =>
      d.world.Moves p.company 1 d'.world ∧ p.Prepared s cash d'.world := by
  refine addOrder_succeeds (by decide) (by decide) fun cents quantity hcents hquantity => ?_
  obtain ⟨c, hc, hcash⟩ := hp.company
  have hcost : cents.toInt * quantity.toNat ≤ 105 * 10 :=
    Int.mul_le_mul hcents.2 (by omega) (Int.natCast_nonneg _) (by decide)
  have hnonzero : quantity ≠ 0 := by
    rintro rfl
    exact absurd hquantity.1 (by decide)
  have hpositive : 0 < cents.toInt := by omega
  refine (bid_succeeds hd hfree rfl hc hp.region hs.ore hpositive hnonzero (by dsimp only; omega)).imp ?_
  rintro _ w' ⟨hmoves, hjobs, hinventory, c', hc', hcash'⟩ d' rfl
  dsimp only at hcash'
  refine ⟨hmoves, ⟨c', hc', by omega⟩, ?_, ?_, ?_, ?_⟩
  · exact hmoves.others.regions ▸ hp.region
  · obtain ⟨b, hb, hplace⟩ := hp.building
    exact ⟨b, hmoves.others.buildings _ b hb, hplace⟩
  · exact hjobs ▸ hp.idle
  · exact hinventory ▸ hp.ore

/-- A bot offers ore in a region, 25 units at most. -/
theorem addOffer_succeeds {d : Draft} {bot : CompanyId} {region : RegionId} {n : Nat} (hs : s.In d.world)
    (hd : d.world.Thriving) (hfree : d.world.nextId.toNat + 1 < UInt64.size)
    (hcompany : ∃ c, d.world.companies.get? bot = some c) (hregion : ∃ g, d.world.regions.get? region = some g)
    (hore : 25 + n ≤ (d.world.inventory.quantity ⟨bot, region, s.ore⟩).toNat) :
    (addOrder s bot region .sell (90, 110) (5, 25)).Succeeds d fun _ d' =>
      d.world.Moves bot 1 d'.world ∧ d'.world.companies = d.world.companies ∧
        n ≤ (d'.world.inventory.quantity ⟨bot, region, s.ore⟩).toNat ∧
        ∀ k, k ≠ ⟨bot, region, s.ore⟩ → d'.world.inventory.quantity k = d.world.inventory.quantity k := by
  refine addOrder_succeeds (by decide) (by decide) fun cents quantity hcents hquantity => ?_
  have hworth : cents.toInt * quantity.toNat ≤ 110 * 25 :=
    Int.mul_le_mul hcents.2 (by omega) (Int.natCast_nonneg _) (by decide)
  have hnonzero : quantity ≠ 0 := by
    rintro rfl
    exact absurd hquantity.1 (by decide)
  have hmax : Int64.maxValue.toInt = 2 ^ 63 - 1 := by decide
  have hpositive : 0 < cents.toInt := by omega
  refine (offer_succeeds hd hfree rfl hcompany hregion hs.ore hpositive hnonzero (by dsimp only; omega) ?_).imp ?_
  · dsimp only [OrderRequest.stockKey]
    omega
  · rintro _ w' ⟨hmoves, hcompanies, hleft, hothers⟩ d' rfl
    dsimp only [OrderRequest.stockKey] at hleft
    exact ⟨hmoves, hcompanies, by omega, hothers⟩

/-- A bot offers ore in a region as often as there is enough of it. -/
theorem offers_succeed {d : Draft} {bot : CompanyId} {region : RegionId} {orders : Nat} (hs : s.In d.world)
    (hd : d.world.Thriving) (hfree : d.world.nextId.toNat + orders < UInt64.size)
    (hcompany : ∃ c, d.world.companies.get? bot = some c) (hregion : ∃ g, d.world.regions.get? region = some g)
    (hore : 25 * orders ≤ (d.world.inventory.quantity ⟨bot, region, s.ore⟩).toNat) :
    ((List.range orders).forM fun _ => addOrder s bot region .sell (90, 110) (5, 25)).Succeeds d fun _ d' =>
      d.world.Moves bot orders d'.world ∧ d'.world.companies = d.world.companies ∧
        ∀ k, k ≠ ⟨bot, region, s.ore⟩ → d'.world.inventory.quantity k = d.world.inventory.quantity k := by
  let K (n : Nat) (w : World) : Prop :=
    s.In w ∧ (∃ g, w.regions.get? region = some g) ∧ w.companies = d.world.companies ∧
      25 * n ≤ (w.inventory.quantity ⟨bot, region, s.ore⟩).toNat ∧
      ∀ k, k ≠ ⟨bot, region, s.ore⟩ → w.inventory.quantity k = d.world.inventory.quantity k
  have hloop := repeat_succeeds (i := bot) (f := addOrder s bot region .sell (90, 110) (5, 25)) (K := K)
    (fun n e he hfree ⟨hs, hregion, hcompanies, hore, hothers⟩ => ?_) hd hfree
    ⟨hs, hregion, rfl, hore, fun _ _ => rfl⟩
  · exact hloop.imp fun _ e ⟨hmoves, _, _, hcompanies, _, hothers⟩ => ⟨hmoves, hcompanies, hothers⟩
  · refine (addOffer_succeeds (n := 25 * n) hs he hfree (hcompanies ▸ hcompany) hregion (by omega)).imp ?_
    rintro _ e' ⟨hmoves, hsame, hleft, hrest⟩
    refine ⟨hmoves, hs.others hmoves.others, hmoves.others.regions ▸ hregion, hsame.trans hcompanies, hleft, ?_⟩
    intro k hk
    exact (hrest k hk).trans (hothers k hk)

/-- A bot that supplies both regions offers ore in both, up to twenty times in each. -/
theorem quoteBot_succeeds {d : Draft} {bot : CompanyId} {orders : Nat} (horders : orders ≤ 20) (hs : s.In d.world)
    (hd : d.world.Thriving) (hfree : d.world.nextId.toNat + 2 * orders < UInt64.size)
    (hbot : s.Supplies d.world bot) :
    (quoteBot s orders bot).Succeeds d fun _ d' => d.world.Moves bot (2 * orders) d'.world := by
  have hnorth := hbot.north
  have hsouth := hbot.south
  rw [quoteBot]
  simp only [List.forM_eq_forM, List.forM_cons, List.forM_nil]
  refine (offers_succeed hs hd (by omega) hbot.company hs.north (by omega)).bind ?_
  rintro _ d₁ ⟨hmoves, hcompanies, hothers⟩
  have hids := hmoves.ids
  have hstill : d₁.world.inventory.quantity ⟨bot, s.south, s.ore⟩ =
      d.world.inventory.quantity ⟨bot, s.south, s.ore⟩ := by
    refine hothers _ fun heq => hs.apart ?_
    exact (congrArg StockKey.region heq).symm
  have hs₁ := hs.others hmoves.others
  refine (offers_succeed hs₁ hmoves.thriving (by omega) (hcompanies ▸ hbot.company) hs₁.south ?_).bind ?_
  · rw [hstill]
    omega
  · rintro _ d₂ ⟨hmoves', -, -⟩
    exact .pure (Nat.two_mul orders ▸ hmoves.trans hmoves')

/-- A player posts its bids. -/
theorem bids_succeed {d : Draft} {p : Player} {orders : Nat} (hs : s.In d.world) (hd : d.world.Thriving)
    (hfree : d.world.nextId.toNat + orders < UInt64.size) (hp : p.Prepared s (1050 * orders) d.world) :
    ((List.range orders).forM fun _ => addOrder s p.company p.region .buy (85, 105) (1, 10)).Succeeds d fun _ d' =>
      d.world.Moves p.company orders d'.world ∧ p.Prepared s 0 d'.world := by
  have hloop := repeat_succeeds (i := p.company) (f := addOrder s p.company p.region .buy (85, 105) (1, 10))
    (K := fun n w => s.In w ∧ p.Prepared s (1050 * n) w) (fun n e he hfree ⟨hs, hp⟩ => ?_) hd hfree ⟨hs, hp⟩
  · exact hloop.imp fun _ e ⟨hmoves, _, hp⟩ => ⟨hmoves, hp⟩
  · have hcash : 1050 * (n + 1) = 1050 + 1050 * n := by omega
    refine (addBid_succeeds hs he hfree (hcash ▸ hp)).imp ?_
    rintro _ e' ⟨hmoves, hprepared⟩
    exact ⟨hmoves, hs.others hmoves.others, hprepared⟩

/-- A player that is prepared can start to smelt. -/
theorem startJob_succeeds {p : Player} {cash : Nat} (hs : s.In w) (hw : w.Thriving)
    (hfree : w.nextId.toNat + 1 < UInt64.size) (hp : p.Prepared s cash w) :
    (startJob ⟨p.company, p.building, s.recipe, 1⟩).Succeeds w fun _ w' =>
      w.Moves p.company 1 w' ∧ w'.companies = w.companies := by
  obtain ⟨c, hc, -⟩ := hp.company
  obtain ⟨b, hb, howner, hregion, hkind, hactive, hcapacity⟩ := hp.building
  obtain ⟨r, hr, hrecipe, hinputs⟩ := hs.recipe
  have hid : b.id = p.building := Roster.key_of_get? hb
  have hplan : planJob w ⟨p.company, p.building, s.recipe, 1⟩ = .ok ⟨b.region, [(s.ore, 2)], 0, b.capacity⟩ := by
    have hidle := activeJobsIn_eq_zero hp.idle
    have hscaled : scaledInputs [⟨s.ore, 2⟩] 1 = .ok [(s.ore, 2)] := rfl
    simp only [planJob, Check.unless_ok, Check.bind_ok, Roster.require_ok, Check.pure_ok, ne_eq, not_not]
    refine ⟨by decide, c, hc, b, hb, r, hr, howner, hactive, hkind.trans hrecipe.symm, ?_, [(s.ore, 2)], ?_, (), ?_, ?_⟩
    · rw [hid, hidle, UInt32.not_le, UInt32.lt_iff_toNat_lt]
      exact hcapacity
    · rw [hinputs, hscaled]
    · refine Check.forM_ok.2 fun input hinput => ?_
      obtain rfl := List.mem_singleton.1 hinput
      rw [checkInput, Check.guard_ok, hregion, UInt64.not_lt, UInt64.le_iff_toNat_le]
      exact hp.ore
    · rw [hid, hidle]
  obtain ⟨id, w', hrun⟩ := (startJob_preflight _).succeeds hplan (fun h => h) hfree
  have hact : ((Command.startJob ⟨p.company, p.building, s.recipe, 1⟩).act {}).run w = .ok () w' :=
    Action.map_ok.2 ⟨id, hrun, rfl⟩
  have hothers := World.OthersKept.startJob hrun
  obtain ⟨-, -, building, recipe, inputs, -, -, -, -, -, -, -, hnext, hw'⟩ := startJob_ok hrun
  refine ⟨id, w', hrun, .of_command hw hact hothers ?_, by rw [hw']⟩
  rw [hw']
  exact hnext.le

/-- A player with enough cash for up to twenty bids does all that it is to do. -/
theorem engage_succeeds {d : Draft} {p : Player} {orders : Nat} (hs : s.In d.world) (hd : d.world.Thriving)
    (hfree : d.world.nextId.toNat + (orders + 2) < UInt64.size) (hp : p.Prepared s (1050 * orders) d.world) :
    (engage s orders p).Succeeds d fun _ d' => d.world.Moves p.company (orders + 2) d'.world := by
  refine (bids_succeed hs hd (by omega) hp).bind ?_
  rintro _ d₁ ⟨hbids, hp₁⟩
  have hids := hbids.ids
  have hs₁ := hs.others hbids.others
  refine (onWorld_succeeds (startJob_succeeds hs₁ hbids.thriving (by omega) hp₁)).bind ?_
  rintro _ d₂ ⟨hjob, hcompanies⟩
  have hids' := hjob.ids
  have hs₂ := hs₁.others hjob.others
  obtain ⟨c, hc, -⟩ := hp₁.company
  have hprice : 0 < (400 : Cents).toInt := by decide
  have hquantity : (10 : Quantity) ≠ 0 := by decide
  have hworth : (400 : Cents).toInt * (10 : Quantity).toNat ≤ Int64.maxValue.toInt := by decide
  have hpromise := promise_succeeds (r := ⟨p.company, none, p.region, s.ingot, 10, 400⟩) hjob.thriving (by omega) rfl
    ⟨c, hcompanies ▸ hc⟩ (hjob.others.regions ▸ hp₁.region) hs₂.ingot hprice hquantity hworth
  exact (onWorld_succeeds hpromise).bind fun _ d₃ hpromised => .pure ((hbids.trans hjob).trans hpromised)

/-- A draft to which `rest` companies are still to be added, where the players listed have still to become active and
the bots listed have still to make their offers: everybody is ready, and there are identifiers for all of it. -/
structure Ready (s : Setting) (rest : Nat) (players : List Player) (bots : List CompanyId) (w : World) : Prop where
  thriving : w.Thriving
  setting : s.In w
  count : w.companies.length + rest ≤ 10 ^ 12
  ids : w.nextId.toNat + 22 * players.length + 40 * bots.length ≤ 5 + 41 * w.companies.length
  prepared : ∀ p ∈ players, p.Prepared s 21000 w
  supplied : ∀ bot ∈ bots, s.Supplies w bot
  distinct : (players.map (·.company) ++ bots).Nodup

namespace Ready

variable {rest n : Nat} {players ps : List Player} {bots bs : List CompanyId} {d : Draft}

/-- Who has not moved is as ready as before. -/
theorem moved (h : Ready s rest players bots w) (hmoves : w.Moves i n w') (hps : ps.Sublist players)
    (hbs : bs.Sublist bots) (hi : i ∉ ps.map (·.company) ++ bs)
    (hn : n + 22 * ps.length + 40 * bs.length ≤ 22 * players.length + 40 * bots.length) :
    Ready s rest ps bs w' where
  thriving := hmoves.thriving
  setting := h.setting.others hmoves.others
  count := by
    rw [hmoves.count]
    exact h.count
  ids := by
    have hids := h.ids
    have hnext := hmoves.ids
    rw [hmoves.count]
    omega
  prepared := by
    refine prepared_others hmoves.others (fun hmem => hi (List.mem_append_left _ hmem)) fun p hp => ?_
    exact h.prepared p (hps.subset hp)
  supplied := by
    refine supplies_others hmoves.others (fun hmem => hi (List.mem_append_right _ hmem)) fun bot hbot => ?_
    exact h.supplied bot (hbs.subset hbot)
  distinct := h.distinct.sublist ((hps.map _).append hbs)

theorem quoteBot {bot : CompanyId} {orders : Nat} (horders : orders ≤ 20)
    (h : Ready s rest players (bot :: bots) d.world) :
    (quoteBot s orders bot).Succeeds d fun _ d' => Ready s rest players bots d'.world := by
  have hids := h.ids
  have hcount := h.count
  have hsize : UInt64.size = 2 ^ 64 := rfl
  rw [List.length_cons] at hids
  refine (quoteBot_succeeds horders h.setting h.thriving (by omega) (h.supplied bot List.mem_cons_self)).imp ?_
  intro _ d' hmoves
  refine h.moved hmoves (List.Sublist.refl _) (List.sublist_cons_self _ _) ?_ ?_
  · have hdistinct := List.nodup_middle.1 h.distinct
    exact (List.nodup_cons.1 hdistinct).1
  · rw [List.length_cons]
    omega

theorem engage {p : Player} {orders : Nat} (horders : orders ≤ 20) (h : Ready s rest (p :: players) bots d.world) :
    (engage s orders p).Succeeds d fun _ d' => Ready s rest players bots d'.world := by
  have hids := h.ids
  have hcount := h.count
  have hsize : UInt64.size = 2 ^ 64 := rfl
  rw [List.length_cons] at hids
  have hp := h.prepared p List.mem_cons_self
  have hfunded : p.Prepared s (1050 * orders) d.world := by
    refine { hp with company := ?_ }
    obtain ⟨c, hc, hcash⟩ := hp.company
    exact ⟨c, hc, by omega⟩
  refine (engage_succeeds h.setting h.thriving (by omega) hfunded).imp fun _ d' hmoves => ?_
  refine h.moved hmoves (List.sublist_cons_self _ _) (List.Sublist.refl _) (List.nodup_cons.1 h.distinct).1 ?_
  rw [List.length_cons]
  omega

/-- A split of the workforce, whatever is drawn for it, is a whole, and changes nothing that anybody is ready for. -/
theorem allocate {p : Player} (h : Ready s rest players bots d.world) (hp : p ∈ players) :
    (allocate p).Succeeds d fun _ d' => Ready s rest players bots d'.world := by
  refine (drawByte_succeeds (by decide)).bind fun operations d₁ ⟨hoperations, hd₁⟩ => ?_
  rw [← hd₁] at h
  obtain ⟨c, hc, -⟩ := (h.prepared p hp).company
  let a : Allocation := ⟨p.company, UInt8.ofNat operations, UInt8.ofNat ((100 - operations) / 3),
    UInt8.ofNat ((100 - operations) / 3), UInt8.ofNat (100 - operations - 2 * ((100 - operations) / 3))⟩
  have hwhole : a.check = .ok () := by
    have hword {n : Nat} (hn : n ≤ 100) : (UInt8.ofNat n).toNat = n :=
      UInt8.toNat_ofNat_of_lt' (Nat.lt_of_le_of_lt hn (by decide))
    refine Allocation.check_ok.2 ?_
    rw [hword (by omega), hword (by omega), hword (by omega)]
    omega
  have hrun : (setAllocation a).run d₁.world = .ok () (d₁.world.putAllocation a) := by
    refine Action.update_ok.2 (Check.bind_ok.2 ⟨c, Roster.require_ok.2 hc, ?_⟩)
    rw [hwhole]
    rfl
  have hact : ((Command.setAllocation a).act {}).run d₁.world = .ok () (d₁.world.putAllocation a) := hrun
  refine onWorld_succeeds (Q := fun _ w' => Ready s rest players bots w') ⟨(), _, hrun, ?_⟩
  exact
    { thriving := h.thriving.command hact
      setting := { h.setting with }
      count := h.count
      ids := h.ids
      prepared := fun p hp => { h.prepared p hp with }
      supplied := fun bot hbot => { h.supplied bot hbot with }
      distinct := h.distinct }

theorem known (h : Ready s rest players bots w) {j : CompanyId} (hj : j ∈ players.map (·.company) ++ bots) :
    j.toNat ≤ w.nextId.toNat := by
  obtain ⟨c, hc⟩ : ∃ c, w.companies.get? j = some c := by
    rcases List.mem_append.1 hj with hplayer | hbot
    · obtain ⟨p, hp, rfl⟩ := List.mem_map.1 hplayer
      obtain ⟨c, hc, -⟩ := (h.prepared p hp).company
      exact ⟨c, hc⟩
    · exact (h.supplied j hbot).company
  rw [← Roster.key_of_get? hc]
  exact h.thriving.fit.numbered.companies.bounded c (Roster.mem_of_get? hc)

/-- A newcomer is not among those who are there. -/
theorem unknown (h : Ready s rest players bots w) (hi : w.nextId.toNat < i.toNat) :
    i ∉ players.map (·.company) ++ bots := by
  intro hmem
  have hle := h.known hmem
  omega

/-- A player joins, prepared for what it is to do. -/
theorem joinPlayer {p : Player} (h : Ready s (rest + 1) players bots w) (hjoins : w.Joins p.company 2 w')
    (hp : p.Prepared s 21000 w') : Ready s rest (players ++ [p]) bots w' where
  thriving := hjoins.thriving
  setting := h.setting.others hjoins.others
  count := by
    have hlimit := h.count
    rw [hjoins.count]
    omega
  ids := by
    have hids := h.ids
    have hnext := hjoins.ids
    rw [hjoins.count, List.length_append, List.length_singleton]
    omega
  prepared := by
    refine List.forall_mem_append.2 ⟨prepared_others hjoins.others (fun hmem => ?_) h.prepared, ?_⟩
    · exact h.unknown hjoins.new (List.mem_append_left _ hmem)
    · exact List.forall_mem_singleton.2 hp
  supplied := by
    refine supplies_others hjoins.others (fun hmem => ?_) h.supplied
    exact h.unknown hjoins.new (List.mem_append_right _ hmem)
  distinct := by
    rw [List.map_append, List.append_assoc]
    exact List.nodup_middle.2 (List.nodup_cons.2 ⟨h.unknown hjoins.new, h.distinct⟩)

/-- A bot joins, with the ore for its offers. -/
theorem joinBot {bot : CompanyId} (h : Ready s (rest + 1) players bots w) (hjoins : w.Joins bot 1 w')
    (hbot : s.Supplies w' bot) : Ready s rest players (bots ++ [bot]) w' where
  thriving := hjoins.thriving
  setting := h.setting.others hjoins.others
  count := by
    have hlimit := h.count
    rw [hjoins.count]
    omega
  ids := by
    have hids := h.ids
    have hnext := hjoins.ids
    rw [hjoins.count, List.length_append, List.length_singleton]
    omega
  prepared := by
    refine prepared_others hjoins.others (fun hmem => ?_) h.prepared
    exact h.unknown hjoins.new (List.mem_append_left _ hmem)
  supplied := by
    refine List.forall_mem_append.2 ⟨supplies_others hjoins.others (fun hmem => ?_) h.supplied, ?_⟩
    · exact h.unknown hjoins.new (List.mem_append_right _ hmem)
    · exact List.forall_mem_singleton.2 hbot
  distinct := by
    rw [← List.append_assoc]
    refine (List.perm_append_singleton _ _).nodup_iff.2 ?_
    exact List.nodup_cons.2 ⟨h.unknown hjoins.new, h.distinct⟩

end Ready

/-- What is found after a company was added: the company, which has nothing in stock. -/
theorem createCompany_succeeds {d : Draft} {name : String} {cash : Cents} {isBot : Bool} (hd : d.world.Thriving)
    (hfree : d.world.nextId.toNat + 1 < UInt64.size) (hcash : 0 ≤ cash.toInt ∧ cash.toInt ≤ 200000) :
    (create (·.addCompany name cash isBot)).Succeeds d fun i d' => d.world.Joins i 1 d'.world ∧
      d'.world.companies.get? i = some ⟨i, name, cash, 0, isBot⟩ ∧
      ∀ k : StockKey, k.company = i → d'.world.inventory.quantity k = 0 := by
  refine (create_succeeds _).imp fun i d' ⟨hi, hd'⟩ => ?_
  rw [hi, hd']
  let c : Company := ⟨⟨d.world.nextFree⟩, name, cash, 0, isBot⟩
  have hnew := World.nextId_lt_nextFree hfree
  refine ⟨.addCompany hd hfree hcash, Roster.get?_append (a := c) hd.fit.numbered.companies hnew, fun k hk => ?_⟩
  exact hd.fit.quantity_newcomer (hk ▸ hnew)

/-- What is found after a building was added: the building, in which nobody works. -/
theorem createBuilding_succeeds {d : Draft} {company : CompanyId} {region : RegionId} {kind : String}
    {capacity : UInt32} (hd : d.world.Thriving) (hfree : d.world.nextId.toNat + 1 < UInt64.size)
    (hcompany : ∃ c, d.world.companies.get? company = some c) (hregion : ∃ g, d.world.regions.get? region = some g) :
    (create (·.addBuilding company region kind capacity)).Succeeds d fun b d' =>
      d.world.Moves company 1 d'.world ∧
      d'.world.buildings.get? b = some ⟨b, company, region, kind, .active, capacity⟩ ∧
      (∀ j ∈ d'.world.jobs, j.building ≠ b) ∧
      d'.world.companies = d.world.companies ∧ d'.world.inventory = d.world.inventory := by
  refine (create_succeeds _).imp fun i d' ⟨hi, hd'⟩ => ?_
  rw [hi, hd']
  let b : Building := ⟨⟨d.world.nextFree⟩, company, region, kind, .active, capacity⟩
  have hnew := World.nextId_lt_nextFree hfree
  refine ⟨.addBuilding hd hfree hcompany hregion, Roster.get?_append (a := b) hd.fit.numbered.buildings hnew, ?_, rfl,
    rfl⟩
  intro j hj
  exact hd.fit.building_ne hj hnew

theorem Setting.In.home (h : s.In w) (n : Nat) : ∃ g, w.regions.get? (s.home n) = some g := by
  rw [Setting.home]
  split
  · exact h.north
  · exact h.south

namespace Ready

variable {rest : Nat} {players : List Player} {bots : List CompanyId} {d : Draft}

/-- A player can be added, whatever cash and ore are drawn for it. -/
theorem addPlayer (h : Ready s (rest + 1) players bots d.world) (n : Nat) :
    (addPlayer s n).Succeeds d fun p d' => Ready s rest (players ++ [p]) bots d'.world := by
  have hids := h.ids
  have hlimit := h.count
  have hsize : UInt64.size = 2 ^ 64 := rfl
  refine (draw_succeeds (by decide)).bind fun cash d₁ ⟨hcash, hd₁⟩ => ?_
  rw [← hd₁] at h hids hlimit
  have hword : (Int64.ofNat cash).toInt = cash := Int64.toInt_ofNat_of_lt (by omega)
  refine (createCompany_succeeds h.thriving (by omega) (by omega)).bind fun i d₂ ⟨hjoins, hc, hempty⟩ => ?_
  have hnext := hjoins.ids
  have hs₂ := h.setting.others hjoins.others
  refine (createBuilding_succeeds hjoins.thriving (by omega) ⟨_, hc⟩ (hs₂.home n)).bind ?_
  rintro building d₃ ⟨hbuilt, hb, hidle, hcompanies, hinventory⟩
  have hs₃ := hs₂.others hbuilt.others
  refine (draw_succeeds (by decide)).bind fun ore d₄ ⟨hore, hd₄⟩ => ?_
  rw [← hd₄] at hbuilt hb hidle hcompanies hinventory hs₃
  have hunits : (UInt64.ofNat ore).toNat = ore := UInt64.toNat_ofNat_of_lt' (by omega)
  have hstart : d₄.world.inventory.quantity ⟨i, s.home n, s.ore⟩ = 0 := hinventory ▸ hempty _ rfl
  have hadd := addStock_succeeds (k := ⟨i, s.home n, s.ore⟩) (q := UInt64.ofNat ore) hbuilt.thriving
    ⟨_, hcompanies ▸ hc⟩ (hs₃.home n) hs₃.ore (by rw [hstart, hunits]; simp; omega)
  refine (onWorld_succeeds hadd).bind fun _ d₅ ⟨hstocked, hsame, hjobs, hquantity, _⟩ => .pure ?_
  refine h.joinPlayer (p := ⟨i, s.home n, building⟩) (hjoins.moves (hbuilt.trans hstocked)) ?_
  exact
    { company := by
        refine ⟨_, (congrArg (·.get? i) (hsame.trans hcompanies)).trans hc, ?_⟩
        dsimp only
        omega
      region := (hs₃.others hstocked.others).home n
      building := ⟨_, hstocked.others.buildings _ _ hb, rfl, rfl, rfl, rfl, Nat.succ_pos 1⟩
      idle := hjobs ▸ hidle
      ore := by
        rw [hquantity, hstart, hunits]
        exact Nat.le_trans (by omega) (Nat.le_add_left ore _) }

/-- A bot can be added. -/
theorem addBot (h : Ready s (rest + 1) players bots d.world) (n : Nat) :
    (addBot s n).Succeeds d fun bot d' => Ready s rest players (bots ++ [bot]) d'.world := by
  have hids := h.ids
  have hlimit := h.count
  have hsize : UInt64.size = 2 ^ 64 := rfl
  refine (createCompany_succeeds h.thriving (by omega) (by decide)).bind fun i d₁ ⟨hjoins, hc, hempty⟩ => ?_
  have hs₁ := h.setting.others hjoins.others
  have hnorth := addStock_succeeds (k := ⟨i, s.north, s.ore⟩) (q := 500) hjoins.thriving ⟨_, hc⟩ hs₁.north hs₁.ore
    (by rw [hempty _ rfl]; decide)
  refine (onWorld_succeeds hnorth).bind fun _ d₂ ⟨hmoves, hsame, _, hquantity, hothers⟩ => ?_
  have hs₂ := hs₁.others hmoves.others
  have hc₂ := (congrArg (·.get? i) hsame).trans hc
  have hstill : d₂.world.inventory.quantity ⟨i, s.south, s.ore⟩ = 0 := by
    rw [hothers _ fun heq => hs₂.apart (congrArg StockKey.region heq).symm]
    exact hempty _ rfl
  have hsouth := addStock_succeeds (k := ⟨i, s.south, s.ore⟩) (q := 500) hmoves.thriving ⟨_, hc₂⟩ hs₂.south hs₂.ore
    (by rw [hstill]; decide)
  refine (onWorld_succeeds hsouth).bind fun _ d₃ ⟨hmoves', hsame', _, hquantity', hothers'⟩ => .pure ?_
  refine h.joinBot (hjoins.moves (hmoves.trans hmoves')) ⟨⟨_, (congrArg (·.get? i) hsame').trans hc₂⟩, ?_, ?_⟩
  · rw [hothers' _ fun heq => hs₂.apart (congrArg StockKey.region heq), hquantity]
    exact Nat.le_add_left _ _
  · rw [hquantity']
    exact Nat.le_add_left _ _

end Ready

/-- The setting that every demo world has. -/
def demoSetting : Setting := ⟨⟨1⟩, ⟨2⟩, ⟨3⟩, ⟨4⟩, ⟨5⟩⟩

/-- The world of a draft before anybody joins. -/
def unsettled : World :=
  { World.empty with
    regions := [⟨⟨1⟩, "North"⟩, ⟨⟨2⟩, "South"⟩]
    items := [⟨⟨3⟩, "Ore"⟩, ⟨⟨4⟩, "Ingot"⟩]
    recipes := [⟨⟨5⟩, "Smelt ingot", "smelter", [⟨⟨3⟩, 2⟩], ⟨4⟩, 1, 30⟩]
    marketPool := 500000
    nextId := 5 }

theorem addSetting_run (r : Random) : addSetting.run ⟨.empty, r⟩ = .ok demoSetting ⟨unsettled, r⟩ := rfl

theorem unsettled_fit : unsettled.Fit unsettled.ground .full :=
  World.fit_of_check (by decide) (by decide) (fun _ => nofun) (fun _ => nofun) (fun _ => nofun) fun _ => nofun

theorem demoSetting_in : demoSetting.In unsettled := by
  have hregions := unsettled_fit.numbered.regions.ascending
  have hitems := unsettled_fit.numbered.items.ascending
  have hrecipes := unsettled_fit.numbered.recipes.ascending
  let smelting : Recipe := ⟨⟨5⟩, "Smelt ingot", "smelter", [⟨⟨3⟩, 2⟩], ⟨4⟩, 1, 30⟩
  exact
    { apart := by decide
      north := ⟨_, Roster.get?_of_mem (a := ⟨⟨1⟩, "North"⟩) hregions (by decide)⟩
      south := ⟨_, Roster.get?_of_mem (a := ⟨⟨2⟩, "South"⟩) hregions (by decide)⟩
      ore := ⟨_, Roster.get?_of_mem (a := ⟨⟨3⟩, "Ore"⟩) hitems (by decide)⟩
      ingot := ⟨_, Roster.get?_of_mem (a := ⟨⟨4⟩, "Ingot"⟩) hitems (by decide)⟩
      recipe := ⟨smelting, Roster.get?_of_mem (a := smelting) hrecipes List.mem_cons_self, rfl, rfl⟩ }

theorem unsettled_ready {companies : Nat} (h : companies ≤ 10 ^ 12) : Ready demoSetting companies [] [] unsettled where
  thriving := ⟨unsettled_fit, World.backed_of_reserved nofun, nofun, nofun⟩
  setting := demoSetting_in
  count := (Nat.zero_add companies).le.trans h
  ids := by decide
  prepared := nofun
  supplied := nofun
  distinct := List.nodup_nil

/-- Whatever is drawn, the draft comes to an end, with everything in order. -/
theorem populate_succeeds {shape : DemoShape} (hsize : shape.players + shape.bots ≤ 10 ^ 12)
    (horders : shape.ordersPerCompany ≤ 20) (r : Random) :
    (populate shape).Succeeds ⟨.empty, r⟩ fun _ d => Ready demoSetting 0 [] [] d.world := by
  have hsetting : addSetting.Succeeds ⟨.empty, r⟩ fun s d => s = demoSetting ∧ d.world = unsettled :=
    ⟨_, _, addSetting_run r, rfl, rfl⟩
  refine hsetting.bind ?_
  rintro _ d₁ ⟨rfl, hd₁⟩
  have hstart : Ready demoSetting ((List.range shape.players).length + shape.bots) [] [] d₁.world := by
    rw [List.length_range, hd₁]
    exact unsettled_ready hsize
  refine (Action.Succeeds.mapM (P := fun left players d =>
    Ready demoSetting (left.length + shape.bots) players [] d.world) (fun n left players d h => ?_) hstart).bind ?_
  · rw [List.length_cons, Nat.add_right_comm] at h
    exact h.addPlayer n
  intro players d₂ hplayers
  rw [List.length_nil, Nat.zero_add, List.nil_append, ← List.length_range (n := shape.bots)] at hplayers
  refine (Action.Succeeds.mapM (P := fun left bots d => Ready demoSetting left.length players bots d.world)
    (fun n left bots d h => h.addBot n) hplayers).bind ?_
  intro bots d₃ hbots
  rw [List.nil_append] at hbots
  refine (Action.Succeeds.forM (P := fun left d =>
    Ready demoSetting 0 players bots d.world ∧ left ⊆ players) (fun p left d h => ?_)
    ⟨hbots, List.Subset.refl _⟩).bind ?_
  · obtain ⟨hready, hleft⟩ := h
    obtain ⟨hp, hleft⟩ := List.cons_subset.1 hleft
    exact (hready.allocate hp).imp fun _ _ h => ⟨h, hleft⟩
  rintro _ d₄ ⟨hallocated, -⟩
  refine (Action.Succeeds.forM (P := fun left d => Ready demoSetting 0 players left d.world)
    (fun bot left d h => h.quoteBot horders) hallocated).bind fun _ d₅ hquoted => ?_
  exact Action.Succeeds.forM (P := fun left (d : Draft) => Ready demoSetting 0 left [] d.world)
    (fun _ _ _ h => h.engage horders) hquoted

end Draft

/-- Every seed gives a usable demo world, for any number of players and bots up to `10 ^ 12`, where no company posts
more than twenty orders at a time: the generator succeeds, and its world passes the check, has handed out all of its
identifiers, gives an audit with any limit nothing to report, and keeps every building within its capacity. -/
theorem demoWorld_usable {seed : UInt64} {shape : DemoShape} (hsize : shape.players + shape.bots ≤ 10 ^ 12)
    (horders : shape.ordersPerCompany ≤ 20) :
    ∃ w, demoWorld seed shape = .ok w ∧ w.check = .ok () ∧ w.Issued ∧
      (∀ limit, ∃ r, audit w limit = .ok r ∧ r.issues = [] ∧ r.truncated = false ∧ r.hasViolations = false) ∧
      w.WithinCapacity := by
  obtain ⟨_, d, hrun, hready⟩ := Draft.populate_succeeds hsize horders (.ofSeed seed)
  have hthriving := hready.thriving
  have hsound := hthriving.fit.sound hthriving.backed
  refine ⟨d.world, ?_, hsound.valid, hthriving.fit.issued, fun limit => ?_, hthriving.room⟩
  · rw [demoWorld, Action.outcome_ok.2 hrun]
    refine Check.bind_ok.2 ⟨_, rfl, ?_⟩
    dsimp only
    rw [hsound.valid]
    rfl
  · exact audit_of_orderly hsound.debtsFit (hthriving.orderly hready.count) limit

/-- The shape that is used by default, and one in which every bot posts all of the orders that it has ore for. -/
theorem demoWorld_usable_small :
    (∃ w, demoWorld 42 {} = .ok w ∧ w.check = .ok () ∧ w.Issued ∧
      (∀ limit, ∃ r, audit w limit = .ok r ∧ r.issues = [] ∧ r.truncated = false ∧ r.hasViolations = false) ∧
      w.WithinCapacity) ∧
    ∃ w, demoWorld 7 ⟨1, 10 ^ 12 - 1, 20⟩ = .ok w ∧ w.check = .ok () ∧ w.Issued ∧
      (∀ limit, ∃ r, audit w limit = .ok r ∧ r.issues = [] ∧ r.truncated = false ∧ r.hasViolations = false) ∧
      w.WithinCapacity :=
  ⟨demoWorld_usable (by decide) (by decide), demoWorld_usable (by decide) (by decide)⟩

end Mercantile
