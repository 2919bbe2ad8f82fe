import Mercantile.Proofs.Audits
import Mercantile.Proofs.Foundings
import Mercantile.Proofs.Preflights

/-!
Companies that get on with it. In a world in order, with companies of modest means (`World.Thriving`), what a company
can pay for or has in stock it can trade with: bids, offers and promises are not refused (`bid_succeeds`,
`offer_succeeds`, `promise_succeeds`). The world stays in order, and what belongs to others is left alone
(`World.Moves`), so that what others are ready for they still are.
-/

namespace Mercantile

/-- A world in which everything is in order, with companies of modest means. -/
structure World.Thriving (w : World) : Prop where
  fit : w.Fit w.ground .full
  backed : w.Backed
  room : w.WithinCapacity
  means : ∀ c ∈ w.companies, 0 ≤ c.cash.toInt ∧ c.cash.toInt + c.reserved.toInt ≤ 200000

theorem sumsFit_of_bounded {cs : List Cents} {b : Nat} (hcs : ∀ c ∈ cs, 0 ≤ c.toInt ∧ c.toInt ≤ b)
    (hlength : cs.length * b < 2 ^ 63) : SumsFit cs := by
  intro p hp
  have hnonneg : 0 ≤ (p.map (·.toInt)).sum := by
    refine List.sum_nonneg fun x hx => ?_
    obtain ⟨c, hc, rfl⟩ := List.mem_map.1 hx
    exact (hcs c (hp.subset hc)).1
  have hbound : (p.map (·.toInt)).sum ≤ (p.map (·.toInt)).length • (b : Int) := by
    refine List.sum_le_card_nsmul _ _ fun x hx => ?_
    obtain ⟨c, hc, rfl⟩ := List.mem_map.1 hx
    exact (hcs c (hp.subset hc)).2
  rw [List.length_map, nsmul_eq_mul, ← Nat.cast_mul] at hbound
  have hshorter := Nat.mul_le_mul_right b hp.length_le
  omega

namespace World.Thriving

variable {w w' : World}

theorem reserved_nonneg (h : w.Thriving) {c : Company} (hc : c ∈ w.companies) : 0 ≤ c.reserved.toInt := by
  rw [(h.fit.sound h.backed).reserved c hc]
  exact h.fit.obligations_nonneg trivial c.id

/-- The ledger is in order, if there are not too many companies for a sum. -/
theorem orderly (h : w.Thriving) (hcount : w.companies.length ≤ 10 ^ 12) : w.Orderly := by
  have hsound := h.fit.sound h.backed
  have hsums (f : Company → Cents) (hf : ∀ c ∈ w.companies, 0 ≤ (f c).toInt ∧ (f c).toInt ≤ 200000) :
      SumsFit (w.companies.map f) := by
    refine sumsFit_of_bounded (b := 200000) (fun x hx => ?_) ?_
    · obtain ⟨c, hc, rfl⟩ := List.mem_map.1 hx
      exact hf c hc
    · rw [List.length_map]
      omega
  refine
    { cash := hsums (·.cash) fun c hc => ⟨(h.means c hc).1, ?_⟩
      reserved := hsums (·.reserved) fun c hc => ⟨h.reserved_nonneg hc, ?_⟩
      nonneg := fun c hc => h.reserved_nonneg hc
      remaining := fun o ho => (h.fit.order o ho).remaining
      filled := fun o ho => (h.fit.order o ho).filled trivial
      fulfilled := fun c hc => (h.fit.contract c hc).fulfilled trivial
      backed := hsound.reserved
      whole := fun a ha => Allocation.check_ok.1 (h.fit.allocation a ha).whole }
  · have hmeans := h.means c hc
    have hnonneg := h.reserved_nonneg hc
    omega
  · have hmeans := h.means c hc
    omega

/-- A company's means stay as modest as they are when a command moves some of its cash. -/
theorem means_command {cfg : EngineConfig} {c : Command} (h : w.Thriving) (hc : (c.act cfg).run w = .ok () w') :
    ∀ c ∈ w'.companies, 0 ≤ c.cash.toInt ∧ c.cash.toInt + c.reserved.toInt ≤ 200000 := by
  rcases Command.act_companies hc with hsame | ⟨i, amount, w₁, hcompanies, hreserve | hrelease⟩
  · rw [hsame]
    exact h.means
  · rw [hcompanies]
    obtain ⟨c, hc, hneg, hfunds, reserved, hreserved, rfl⟩ := Ledger.reserve_ok.1 hreserve
    intro d hd
    rcases Roster.mem_modify hd with hd | ⟨d, hfound, rfl⟩
    · exact h.means d hd
    · obtain rfl := Option.some_inj.1 (hc.symm.trans hfound)
      have hmeans := h.means c (Roster.mem_of_get? hc)
      have hcash := Int64.toInt_sub_of_not_lt hneg hfunds
      rw [Int64.not_lt, Int64.le_iff_toInt_le] at hfunds
      dsimp only
      omega
  · rw [hcompanies]
    obtain ⟨c, hc, hcovered, cash, hcash, rfl⟩ := Ledger.release_ok.1 hrelease
    rw [not_or] at hcovered
    intro d hd
    rcases Roster.mem_modify hd with hd | ⟨d, hfound, rfl⟩
    · exact h.means d hd
    · obtain rfl := Option.some_inj.1 (hc.symm.trans hfound)
      have hmeans := h.means c (Roster.mem_of_get? hc)
      have hreserved := Int64.toInt_sub_of_not_lt hcovered.1 hcovered.2
      have hamount := hcovered.1
      rw [Int64.not_lt, Int64.le_iff_toInt_le] at hamount
      have hzero : (0 : Int64).toInt = 0 := by decide
      dsimp only
      omega

theorem command {cfg : EngineConfig} {c : Command} (h : w.Thriving) (hc : (c.act cfg).run w = .ok () w') :
    w'.Thriving := by
  obtain ⟨hfit, hbacked⟩ := Command.kept h.fit (fun _ => h.backed) hc
  have hbuildings : w'.buildings = w.buildings := by rw [Command.act_frame hc]
  exact
    { fit := hfit.ground.symm ▸ hfit
      backed := hbacked trivial
      room := (Command.admits hc).withinCapacity hbuildings h.fit.numbered.buildings.ascending h.room
      means := h.means_command hc }

variable {name kind : String} {cash : Cents} {isBot : Bool} {company : CompanyId} {region : RegionId}
  {capacity : UInt32} {k : StockKey} {q : Quantity} {inv : Inventory}

theorem addCompany (h : w.Thriving) (hfree : w.nextId.toNat + 1 < UInt64.size)
    (hcash : 0 ≤ cash.toInt ∧ cash.toInt ≤ 200000) : (w.addCompany name cash isBot).2.Thriving where
  fit := h.fit.addCompany hfree
  backed := h.backed.addCompany h.fit hfree
  room := h.room
  means := fun c hc => by
    rcases List.mem_append.1 hc with hold | hnew
    · exact h.means c hold
    · obtain rfl := List.mem_singleton.1 hnew
      have hzero : (0 : Cents).toInt = 0 := by decide
      dsimp only
      omega

theorem addBuilding (h : w.Thriving) (hfree : w.nextId.toNat + 1 < UInt64.size)
    (hcompany : company ∈ w.ground.companies) (hregion : region ∈ w.ground.regions) :
    (w.addBuilding company region kind capacity).2.Thriving where
  fit := h.fit.addBuilding hfree hcompany hregion
  backed := h.backed.congr rfl rfl rfl
  room := h.room.addBuilding h.fit hfree
  means := h.means

theorem addStock (h : w.Thriving) (hk : k.Fit w.ground) (hinv : w.inventory.add k q = .ok inv) :
    { w with inventory := inv }.Thriving where
  fit := h.fit.addStock hk hinv
  backed := h.backed.congr rfl rfl rfl
  room := h.room
  means := h.means

end World.Thriving

/-- What is found after cash was set aside: the company with less of it, and all others as they were. -/
theorem Ledger.reserve_found {w w' : World} {i : CompanyId} {amount : Cents} {u : Unit}
    (h : (reserve i amount).run w = .ok u w') :
    (∃ c c', w.companies.get? i = some c ∧ w'.companies.get? i = some c' ∧
      c'.cash.toInt = c.cash.toInt - amount.toInt) ∧
    ∀ j, j ≠ i → w'.companies.get? j = w.companies.get? j := by
  obtain ⟨c, hc, hneg, hfunds, reserved, -, rfl⟩ := reserve_ok.1 h
  constructor
  · refine ⟨c, _, hc, Roster.get?_modify_found hc fun _ => rfl, ?_⟩
    exact Int64.toInt_sub_of_not_lt hneg hfunds
  · intro j hj
    exact Roster.get?_modify_of_ne (fun _ => rfl) hj

/-- What is there and not of company `i` is still there, and new jobs are only in buildings of that company. -/
structure World.OthersKept (i : CompanyId) (w w' : World) : Prop where
  regions : w'.regions = w.regions
  items : w'.items = w.items
  recipes : w'.recipes = w.recipes
  buildings : ∀ b building, w.buildings.get? b = some building → w'.buildings.get? b = some building
  companies : ∀ j c, j ≠ i → w.companies.get? j = some c → w'.companies.get? j = some c
  stock : ∀ k : StockKey, k.company ≠ i → w'.inventory.quantity k = w.inventory.quantity k
  jobs : ∀ j ∈ w'.jobs, j ∈ w.jobs ∨
    ∃ building, w'.buildings.get? j.building = some building ∧ building.company = i

namespace World.OthersKept

variable {i : CompanyId} {w w₁ w' : World}

theorem refl (i : CompanyId) (w : World) : w.OthersKept i w :=
  ⟨rfl, rfl, rfl, fun _ _ hb => hb, fun _ _ _ hc => hc, fun _ _ => rfl, fun _ hj => Or.inl hj⟩

theorem trans (h : w.OthersKept i w₁) (h' : w₁.OthersKept i w') : w.OthersKept i w' where
  regions := h'.regions.trans h.regions
  items := h'.items.trans h.items
  recipes := h'.recipes.trans h.recipes
  buildings := fun b building hb => h'.buildings b building (h.buildings b building hb)
  companies := fun j c hj hc => h'.companies j c hj (h.companies j c hj hc)
  stock := fun k hk => (h'.stock k hk).trans (h.stock k hk)
  jobs := by
    intro j hj
    rcases h'.jobs j hj with hold | hnew
    · rcases h.jobs j hold with hold | ⟨building, hb, howner⟩
      · exact Or.inl hold
      · exact Or.inr ⟨building, h'.buildings _ _ hb, howner⟩
    · exact Or.inr hnew

theorem addCompany {name : String} {cash : Cents} {isBot : Bool} (h : w.Thriving)
    (hfree : w.nextId.toNat + 1 < UInt64.size) : w.OthersKept ⟨w.nextFree⟩ (w.addCompany name cash isBot).2 := by
  refine { refl ⟨w.nextFree⟩ w with companies := fun j c _ hc => ?_ }
  let newcomer : Company := ⟨⟨w.nextFree⟩, name, cash, 0, isBot⟩
  exact Roster.get?_append_of_get? (a := newcomer) h.fit.numbered.companies (nextId_lt_nextFree hfree) hc

theorem addBuilding {company : CompanyId} {region : RegionId} {kind : String} {capacity : UInt32} (h : w.Thriving)
    (hfree : w.nextId.toNat + 1 < UInt64.size) :
    w.OthersKept company (w.addBuilding company region kind capacity).2 := by
  refine { refl company w with buildings := fun j b hb => ?_, jobs := fun j hj => Or.inl hj }
  let building : Building := ⟨⟨w.nextFree⟩, company, region, kind, .active, capacity⟩
  exact Roster.get?_append_of_get? (a := building) h.fit.numbered.buildings (nextId_lt_nextFree hfree) hb

theorem addStock {k : StockKey} {q : Quantity} {inv : Inventory} (hinv : w.inventory.add k q = .ok inv) :
    w.OthersKept k.company { w with inventory := inv } := by
  refine { refl k.company w with stock := fun l hl => ?_ }
  have hne : l ≠ k := by
    rintro rfl
    exact hl rfl
  exact Inventory.quantity_add_of_ne hinv hne

theorem placeOrder {r : OrderRequest} {id : OrderId} (h : (placeOrder r).run w = .ok id w') :
    w.OthersKept r.company w' := by
  obtain ⟨-, -, -, -, -, total, w₁, -, ⟨-, hreserve⟩ | ⟨-, hremove⟩, -, rfl⟩ := placeOrder_ok h
  · have hothers := (Ledger.reserve_found hreserve).2
    rw [(Ledger.reserve_moved hreserve).frame]
    exact { refl r.company w with companies := fun j c hj hc => (hothers j hj).trans hc }
  · obtain ⟨inv, hinv, rfl⟩ := World.removeStock_ok.1 hremove
    refine { refl r.company w with stock := fun k hk => ?_ }
    have hne : k ≠ r.stockKey := by
      rintro rfl
      exact hk rfl
    exact Inventory.quantity_remove_of_ne hinv hne

theorem startJob {r : JobRequest} {id : JobId} (h : (startJob r).run w = .ok id w') : w.OthersKept r.company w' := by
  obtain ⟨-, -, building, recipe, inputs, hbuilding, -, howner, -, -, -, -, -, rfl⟩ := startJob_ok h
  refine { refl r.company w with jobs := fun j hj => ?_ }
  rcases List.mem_append.1 hj with hold | hnew
  · exact Or.inl hold
  · obtain rfl := List.mem_singleton.1 hnew
    exact Or.inr ⟨building, hbuilding, howner⟩

/-- A contract with the market pool concerns nobody. -/
theorem createContract {r : ContractRequest} {id : ContractId} (i : CompanyId) (hpool : r.buyer = none)
    (h : (createContract r).run w = .ok id w') : w.OthersKept i w' := by
  obtain ⟨-, -, -, -, -, total, w₁, -, ⟨-, rfl⟩ | ⟨buyer, c, hbuyer, -⟩, -, rfl⟩ := createContract_ok h
  · exact { refl i w₁ with }
  · rw [hpool] at hbuyer
    cases hbuyer

end World.OthersKept

/-- From `w` on company `i` has done something, which left all in order and took `n` identifiers at most. -/
structure World.Moves (i : CompanyId) (n : Nat) (w w' : World) : Prop where
  thriving : w'.Thriving
  others : w.OthersKept i w'
  count : w'.companies.length = w.companies.length
  ids : w'.nextId.toNat ≤ w.nextId.toNat + n

namespace World.Moves

variable {i : CompanyId} {n m : Nat} {w w₁ w' : World}

theorem refl (i : CompanyId) (h : w.Thriving) : w.Moves i 0 w := ⟨h, .refl i w, rfl, Nat.le_refl _⟩

theorem trans (h : w.Moves i n w₁) (h' : w₁.Moves i m w') : w.Moves i (n + m) w' := by
  have hids := h.ids
  have hids' := h'.ids
  exact ⟨h'.thriving, h.others.trans h'.others, h'.count.trans h.count, by omega⟩

theorem of_command {cfg : EngineConfig} {c : Command} (hw : w.Thriving) (h : (c.act cfg).run w = .ok () w')
    (hothers : w.OthersKept i w') (hids : w'.nextId.toNat ≤ w.nextId.toNat + n) : w.Moves i n w' := by
  have hground := (Command.kept hw.fit (fun _ => hw.backed) h).1.ground
  have hcompanies : w'.companies.map key = w.companies.map key := congrArg Ground.companies hground
  refine ⟨hw.command h, hothers, ?_, hids⟩
  simpa only [List.length_map] using congrArg List.length hcompanies

theorem addBuilding {company : CompanyId} {region : RegionId} {kind : String} {capacity : UInt32} (hw : w.Thriving)
    (hfree : w.nextId.toNat + 1 < UInt64.size) (hcompany : ∃ c, w.companies.get? company = some c)
    (hregion : ∃ g, w.regions.get? region = some g) :
    w.Moves company 1 (w.addBuilding company region kind capacity).2 := by
  obtain ⟨c, hc⟩ := hcompany
  obtain ⟨g, hg⟩ := hregion
  refine ⟨hw.addBuilding hfree (hw.fit.company_of_get? hc) (hw.fit.region_of_get? hg), .addBuilding hw hfree, rfl, ?_⟩
  exact (toNat_nextFree hfree).le

theorem addStock {k : StockKey} {q : Quantity} {inv : Inventory} (hw : w.Thriving) (hk : k.Fit w.ground)
    (hinv : w.inventory.add k q = .ok inv) : w.Moves k.company 0 { w with inventory := inv } :=
  ⟨hw.addStock hk hinv, .addStock hinv, rfl, Nat.le_refl _⟩

end World.Moves

/-- Company `i` is new in `w'`, and came with `n` identifiers at most. -/
structure World.Joins (i : CompanyId) (n : Nat) (w w' : World) : Prop where
  new : w.nextId.toNat < i.toNat
  thriving : w'.Thriving
  others : w.OthersKept i w'
  count : w'.companies.length = w.companies.length + 1
  ids : w'.nextId.toNat ≤ w.nextId.toNat + n

namespace World.Joins

variable {i : CompanyId} {n m : Nat} {w w₁ w' : World}

theorem moves (h : w.Joins i n w₁) (h' : w₁.Moves i m w') : w.Joins i (n + m) w' where
  new := h.new
  thriving := h'.thriving
  others := h.others.trans h'.others
  count := h'.count.trans h.count
  ids := by
    have hids := h.ids
    have hids' := h'.ids
    omega

theorem addCompany {name : String} {cash : Cents} {isBot : Bool} (hw : w.Thriving)
    (hfree : w.nextId.toNat + 1 < UInt64.size) (hcash : 0 ≤ cash.toInt ∧ cash.toInt ≤ 200000) :
    w.Joins ⟨w.nextFree⟩ 1 (w.addCompany name cash isBot).2 :=
  ⟨nextId_lt_nextFree hfree, hw.addCompany hfree hcash, .addCompany hw hfree, List.length_append,
    (toNat_nextFree hfree).le⟩

end World.Joins

section

variable {w : World}

/-- What its plan accepts is carried out, where there are words for the results. -/
theorem Preflight.succeeds {α : Type} {kind : EntityKind} {plan : Except Failure α} {stake : α → Stake}
    {append : α → Id kind → World → World} {act : Action World (Id kind)} {p : α}
    (h : Preflight w plan stake append act) (hplan : plan = .ok p) (hfits : ¬ (stake p).Overflows w)
    (hfree : w.nextId.toNat + 1 < UInt64.size) : ∃ id w', act.run w = .ok id w' := by
  obtain ⟨id, w₁, -, -, hrun⟩ := h.done p hplan hfits hfree
  exact ⟨id, _, hrun⟩

theorem placeOrder_moves {r : OrderRequest} {id : OrderId} {w' : World} (hw : w.Thriving)
    (h : (placeOrder r).run w = .ok id w') : w.Moves r.company 1 w' := by
  have hids : w'.nextId.toNat ≤ w.nextId.toNat + 1 := by
    obtain ⟨-, -, -, -, -, total, w₁, -, ⟨-, hreserve⟩ | ⟨-, hremove⟩, hid, rfl⟩ := placeOrder_ok h
    · rw [(Ledger.reserve_moved hreserve).frame] at hid
      exact hid.le
    · obtain ⟨inv, -, rfl⟩ := World.removeStock_ok.1 hremove
      exact hid.le
  have hact : ((Command.placeOrder r).act {}).run w = .ok () w' := Action.map_ok.2 ⟨id, h, rfl⟩
  exact .of_command hw hact (.placeOrder h) hids

/-- Goods come in as long as their number is a word. -/
theorem addStock_succeeds {k : StockKey} {q : Quantity} (hw : w.Thriving)
    (hcompany : ∃ c, w.companies.get? k.company = some c) (hregion : ∃ g, w.regions.get? k.region = some g)
    (hitem : ∃ i, w.items.get? k.item = some i)
    (hword : (w.inventory.quantity k).toNat + q.toNat < UInt64.size) :
    (World.addStock k q).Succeeds w fun _ w' => w.Moves k.company 0 w' ∧ w'.companies = w.companies ∧
      w'.jobs = w.jobs ∧ (w'.inventory.quantity k).toNat = (w.inventory.quantity k).toNat + q.toNat ∧
      ∀ l, l ≠ k → w'.inventory.quantity l = w.inventory.quantity l := by
  obtain ⟨inv, hinv⟩ := Inventory.exists_add hword
  obtain ⟨c, hc⟩ := hcompany
  obtain ⟨g, hg⟩ := hregion
  obtain ⟨i, hi⟩ := hitem
  have hk : k.Fit w.ground := ⟨hw.fit.company_of_get? hc, hw.fit.region_of_get? hg, hw.fit.item_of_get? hi⟩
  refine ⟨(), _, World.addStock_ok.2 ⟨inv, hinv, rfl⟩, .addStock hw hk hinv, rfl, rfl, ?_, fun l hl => ?_⟩
  · simpa only [if_pos] using Inventory.quantity_add hinv k
  · exact Inventory.quantity_add_of_ne hinv hl

/-- A company that can pay for a bid can post it. -/
theorem bid_succeeds {r : OrderRequest} {c : Company} (hw : w.Thriving) (hfree : w.nextId.toNat + 1 < UInt64.size)
    (hside : r.side = .buy) (hc : w.companies.get? r.company = some c)
    (hregion : ∃ g, w.regions.get? r.region = some g) (hitem : ∃ i, w.items.get? r.item = some i)
    (hprice : 0 < r.price.toInt) (hquantity : r.quantity ≠ 0)
    (hfunds : r.price.toInt * r.quantity.toNat ≤ c.cash.toInt) :
    (placeOrder r).Succeeds w fun _ w' => w.Moves r.company 1 w' ∧ w'.jobs = w.jobs ∧ w'.inventory = w.inventory ∧
      ∃ c', w'.companies.get? r.company = some c' ∧
        c'.cash.toInt = c.cash.toInt - r.price.toInt * r.quantity.toNat := by
  obtain ⟨total, hnotional⟩ := exists_notional hprice hfunds
  have htotal := (notional_ok.1 hnotional).2
  have hplan : planOrder w r = .ok ⟨.buy, total, 0, c.cash, w.inventory.quantity r.stockKey⟩ := by
    obtain ⟨g, hregion⟩ := hregion
    obtain ⟨i, hitem⟩ := hitem
    simp only [planOrder, Check.unless_ok, Check.bind_ok, Roster.require_ok]
    refine ⟨Int64.not_le.2 (World.zero_lt_iff.2 hprice), hquantity, c, hc, g, hregion, i, hitem, total, hnotional, ?_⟩
    simp only [hside, Check.unless_ok, Check.pure_ok, and_true]
    rw [Int64.not_lt, Int64.le_iff_toInt_le]
    omega
  have hfits : ¬ (r.stake ⟨.buy, total, 0, c.cash, w.inventory.quantity r.stockKey⟩).Overflows w := by
    rw [OrderRequest.stake, hside]
    rintro ⟨c', hc', hover⟩
    obtain rfl := Option.some_inj.1 (hc.symm.trans hc')
    have hmeans := hw.means c (Roster.mem_of_get? hc)
    have hmax : Int64.maxValue.toInt = 2 ^ 63 - 1 := by decide
    dsimp only at hover
    omega
  obtain ⟨id, w', hrun⟩ := (placeOrder_preflight r).succeeds hplan hfits hfree
  refine ⟨id, w', hrun, placeOrder_moves hw hrun, ?_⟩
  obtain ⟨-, -, -, -, -, total', w₁, htotal', ⟨-, hreserve⟩ | ⟨hsell, -⟩, -, rfl⟩ := placeOrder_ok hrun
  · obtain rfl := Except.ok.inj (hnotional.symm.trans htotal')
    obtain ⟨⟨d, d', hd, hd', hcash⟩, -⟩ := Ledger.reserve_found hreserve
    obtain rfl := Option.some_inj.1 (hc.symm.trans hd)
    have hframe := (Ledger.reserve_moved hreserve).frame
    exact ⟨congrArg (·.jobs) hframe, congrArg (·.inventory) hframe, d', hd', hcash.trans (by rw [htotal])⟩
  · rw [hside] at hsell
    cases hsell

/-- A company that has the goods for an offer can post it. -/
theorem offer_succeeds {r : OrderRequest} (hw : w.Thriving) (hfree : w.nextId.toNat + 1 < UInt64.size)
    (hside : r.side = .sell) (hcompany : ∃ c, w.companies.get? r.company = some c)
    (hregion : ∃ g, w.regions.get? r.region = some g) (hitem : ∃ i, w.items.get? r.item = some i)
    (hprice : 0 < r.price.toInt) (hquantity : r.quantity ≠ 0)
    (hword : r.price.toInt * r.quantity.toNat ≤ Int64.maxValue.toInt)
    (hstock : r.quantity.toNat ≤ (w.inventory.quantity r.stockKey).toNat) :
    (placeOrder r).Succeeds w fun _ w' => w.Moves r.company 1 w' ∧ w'.companies = w.companies ∧
      (w'.inventory.quantity r.stockKey).toNat + r.quantity.toNat = (w.inventory.quantity r.stockKey).toNat ∧
      ∀ k, k ≠ r.stockKey → w'.inventory.quantity k = w.inventory.quantity k := by
  obtain ⟨total, hnotional⟩ := exists_notional hprice hword
  obtain ⟨c, hc⟩ := hcompany
  have hplan : planOrder w r = .ok ⟨.sell, 0, r.quantity, c.cash, w.inventory.quantity r.stockKey⟩ := by
    obtain ⟨g, hregion⟩ := hregion
    obtain ⟨i, hitem⟩ := hitem
    simp only [planOrder, Check.unless_ok, Check.bind_ok, Roster.require_ok]
    refine ⟨Int64.not_le.2 (World.zero_lt_iff.2 hprice), hquantity, c, hc, g, hregion, i, hitem, total, hnotional, ?_⟩
    simp only [hside, Check.unless_ok, Check.pure_ok, and_true]
    rw [UInt64.not_lt, UInt64.le_iff_toNat_le]
    exact hstock
  have hfits : ¬ (r.stake ⟨.sell, 0, r.quantity, c.cash, w.inventory.quantity r.stockKey⟩).Overflows w := by
    rw [OrderRequest.stake, hside]
    exact id
  obtain ⟨id, w', hrun⟩ := (placeOrder_preflight r).succeeds hplan hfits hfree
  refine ⟨id, w', hrun, placeOrder_moves hw hrun, ?_⟩
  obtain ⟨-, -, -, -, -, -, w₁, -, ⟨hbuy, -⟩ | ⟨-, hremove⟩, -, rfl⟩ := placeOrder_ok hrun
  · rw [hside] at hbuy
    cases hbuy
  · obtain ⟨inv, hinv, rfl⟩ := World.removeStock_ok.1 hremove
    refine ⟨rfl, ?_, fun k hk => ?_⟩
    · simpa only [if_pos] using Inventory.quantity_remove hinv r.stockKey
    · exact Inventory.quantity_remove_of_ne hinv hk

theorem activeJobsIn_eq_zero {b : BuildingId} (h : ∀ j ∈ w.jobs, j.building ≠ b) : activeJobsIn w b = 0 := by
  have hnone : w.jobs.countP (fun j => j.building = b && j.state.isActive) = 0 :=
    List.countP_eq_zero.2 fun j hj => by simp [h j hj]
  rw [activeJobsIn, hnone]
  rfl

/-- A contract with the market pool sets nothing aside, so that anybody can promise anything of some value. -/
theorem promise_succeeds {r : ContractRequest} (hw : w.Thriving) (hfree : w.nextId.toNat + 1 < UInt64.size)
    (hpool : r.buyer = none) (hcompany : ∃ c, w.companies.get? r.seller = some c)
    (hregion : ∃ g, w.regions.get? r.region = some g) (hitem : ∃ i, w.items.get? r.item = some i)
    (hprice : 0 < r.price.toInt) (hquantity : r.quantity ≠ 0)
    (hword : r.price.toInt * r.quantity.toNat ≤ Int64.maxValue.toInt) :
    (createContract r).Succeeds w fun _ w' => w.Moves r.seller 1 w' := by
  obtain ⟨total, hnotional⟩ := exists_notional hprice hword
  have hplan : planContract w r = .ok 0 := by
    obtain ⟨c, hc⟩ := hcompany
    obtain ⟨g, hregion⟩ := hregion
    obtain ⟨i, hitem⟩ := hitem
    simp only [planContract, Check.unless_ok, Check.bind_ok, Roster.require_ok, not_or]
    refine ⟨⟨Int64.not_le.2 (World.zero_lt_iff.2 hprice), hquantity⟩, ?_, c, hc, g, hregion, i, hitem, total,
      hnotional, ?_⟩
    · rw [hpool]
      exact (Option.some_ne_none _).symm
    · simp only [hpool, Check.pure_ok]
  have hfits : ¬ (r.stake 0).Overflows w := by
    rw [ContractRequest.stake, hpool]
    exact id
  obtain ⟨id, w', hrun⟩ := (createContract_preflight r).succeeds hplan hfits hfree
  have hids : w'.nextId.toNat ≤ w.nextId.toNat + 1 := by
    obtain ⟨-, -, -, -, -, -, w₁, -, ⟨-, rfl⟩ | ⟨buyer, c, hbuyer, -⟩, hid, rfl⟩ := createContract_ok hrun
    · exact hid.le
    · rw [hpool] at hbuyer
      cases hbuyer
  have hact : ((Command.createContract r).act {}).run w = .ok () w' := Action.map_ok.2 ⟨id, hrun, rfl⟩
  exact ⟨id, w', hrun, .of_command hw hact (.createContract r.seller hpool hrun) hids⟩

end

end Mercantile
