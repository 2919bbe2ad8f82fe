import Mercantile.Proofs.Capacity

/-!
Worlds that grow. While a world is set up, companies and buildings join it, and its ground becomes larger. What
fitted on the smaller ground fits on the larger one (`Ground.Within`), and what nobody can refer to yet holds nothing,
owes nothing and houses no job.
-/

namespace Mercantile

/-- Whatever is on the one ground is on the other. -/
structure Ground.Within (g g' : Ground) : Prop where
  regions : ∀ i ∈ g.regions, i ∈ g'.regions
  items : ∀ i ∈ g.items, i ∈ g'.items
  companies : ∀ i ∈ g.companies, i ∈ g'.companies
  recipes : ∀ r ∈ g.recipes, r ∈ g'.recipes
  buildings : ∀ b ∈ g.buildings, b ∈ g'.buildings

section

variable {g g' : Ground} {S : Standard}

theorem Recipe.Fit.within {r : Recipe} (h : r.Fit g) (hg : g.Within g') : r.Fit g' :=
  ⟨hg.items _ h.output, fun i hi => hg.items _ (h.inputs i hi)⟩

theorem Building.Fit.within {b : Building} (h : b.Fit g) (hg : g.Within g') : b.Fit g' :=
  ⟨hg.companies _ h.company, hg.regions _ h.region⟩

theorem Job.Fit.within {j : Job} (h : j.Fit g S) (hg : g.Within g') : j.Fit g' S where
  company := hg.companies _ h.company
  building := by
    obtain ⟨b, hb, hkey⟩ := List.mem_map.1 h.building
    exact List.mem_map.2 ⟨b, hg.buildings b hb, hkey⟩
  recipe := by
    obtain ⟨r, hr, hkey⟩ := List.mem_map.1 h.recipe
    exact List.mem_map.2 ⟨r, hg.recipes r hr, hkey⟩
  region := fun hS => hg.regions _ (h.region hS)
  home := fun hS => by
    obtain ⟨b, hb, hhome⟩ := h.home hS
    exact ⟨b, hg.buildings b hb, hhome⟩

theorem Order.Fit.within {o : Order} (h : o.Fit g S) (hg : g.Within g') : o.Fit g' S :=
  { h with
    company := hg.companies _ h.company
    region := hg.regions _ h.region
    item := hg.items _ h.item }

theorem Shipment.Fit.within {s : Shipment} (h : s.Fit g) (hg : g.Within g') : s.Fit g' :=
  ⟨hg.companies _ h.company, hg.regions _ h.origin, hg.regions _ h.destination, hg.items _ h.item⟩

theorem Contract.Fit.within {c : Contract} (h : c.Fit g S) (hg : g.Within g') : c.Fit g' S :=
  { h with
    seller := hg.companies _ h.seller
    buyer := fun b hb => hg.companies _ (h.buyer b hb)
    region := hg.regions _ h.region
    item := hg.items _ h.item }

theorem Allocation.Fit.within {a : Allocation} (h : a.Fit g) (hg : g.Within g') : a.Fit g' :=
  ⟨hg.companies _ h.company, h.whole⟩

theorem StockKey.Fit.within {k : StockKey} (h : k.Fit g) (hg : g.Within g') : k.Fit g' :=
  ⟨hg.companies _ h.company, hg.regions _ h.region, hg.items _ h.item⟩

end

namespace World

variable {g : Ground} {S : Standard} {w : World}

theorem toNat_nextFree (hfree : w.nextId.toNat + 1 < UInt64.size) : w.nextFree.toNat = w.nextId.toNat + 1 := by
  have hone : (1 : UInt64).toNat = 1 := rfl
  rw [nextFree, UInt64.toNat_addSat, hone]
  omega

theorem nextId_lt_nextFree (hfree : w.nextId.toNat + 1 < UInt64.size) : w.nextId.toNat < w.nextFree.toNat :=
  Nat.lt_of_succ_le (toNat_nextFree hfree).ge

/-- An identifier that has not been handed out is no company's. -/
theorem Fit.company_lt (h : w.Fit g S) {i : CompanyId} (hi : i ∈ g.companies) : i.toNat ≤ w.nextId.toNat := by
  rw [← h.ground] at hi
  obtain ⟨c, hc, rfl⟩ := List.mem_map.1 hi
  exact h.numbered.companies.bounded c hc

theorem Fit.building_lt (h : w.Fit g S) {i : BuildingId} (hi : i ∈ g.buildings.map key) :
    i.toNat ≤ w.nextId.toNat := by
  rw [← h.ground] at hi
  obtain ⟨b, hb, rfl⟩ := List.mem_map.1 hi
  exact h.numbered.buildings.bounded b hb

/-- A newcomer has nothing in stock. -/
theorem Fit.quantity_newcomer (h : w.Fit g S) {k : StockKey} (hk : w.nextId.toNat < k.company.toNat) :
    w.inventory.quantity k = 0 := by
  by_contra hne
  obtain ⟨b, hb, rfl⟩ := exists_of_balanceOf_ne_zero hne
  have hle := h.company_lt (h.stock b hb).company
  omega

/-- A newcomer owes nothing. -/
theorem Fit.obligations_newcomer (h : w.Fit g S) {i : CompanyId} (hi : w.nextId.toNat < i.toNat) :
    w.obligations i = 0 := by
  rw [obligations_eq_sum, List.sum_eq_zero, List.sum_eq_zero]
  · rfl
  · intro x hx
    obtain ⟨c, hc, rfl⟩ := List.mem_map.1 hx
    refine if_neg fun hbuyer => ?_
    have hle := h.company_lt ((h.contract c hc).buyer i hbuyer)
    omega
  · intro x hx
    obtain ⟨o, ho, rfl⟩ := List.mem_map.1 hx
    refine if_neg fun hcompany => ?_
    have hle := h.company_lt (hcompany ▸ (h.order o ho).company)
    omega

/-- No job is in a building that is new. -/
theorem Fit.building_ne (h : w.Fit g S) {j : Job} (hj : j ∈ w.jobs) {b : BuildingId}
    (hb : w.nextId.toNat < b.toNat) : j.building ≠ b := by
  rintro rfl
  have hle := h.building_lt (h.job j hj).building
  omega

/-- Where companies and buildings join a world, its ground becomes larger, and the rest stays as it is. -/
theorem Fit.grow (h : w.Fit w.ground S) {nextId : UInt64} {companies : Roster Company} {buildings : Roster Building}
    (hcompanies : ∀ c ∈ w.companies, c ∈ companies) (hbuildings : ∀ b ∈ w.buildings, b ∈ buildings)
    (hnumbered : { w with nextId, companies, buildings }.Numbered nextId)
    (hnew : ∀ b ∈ buildings, b ∈ w.buildings ∨ b.Fit { w with nextId, companies, buildings }.ground) :
    { w with nextId, companies, buildings }.Fit { w with nextId, companies, buildings }.ground S := by
  have hg : w.ground.Within { w with nextId, companies, buildings }.ground :=
    { regions := fun _ hi => hi
      items := fun _ hi => hi
      companies := fun i hi => by
        obtain ⟨c, hc, hkey⟩ := List.mem_map.1 hi
        exact List.mem_map.2 ⟨c, hcompanies c hc, hkey⟩
      recipes := fun _ hr => hr
      buildings := hbuildings }
  exact
    { ground := rfl
      numbered := hnumbered
      allocated := h.allocated
      recipe := fun r hr => (h.recipe r hr).within hg
      building := fun b hb => (hnew b hb).elim (fun hold => (h.building b hold).within hg) id
      job := fun j hj => (h.job j hj).within hg
      order := fun o ho => (h.order o ho).within hg
      shipment := fun s hs => (h.shipment s hs).within hg
      contract := fun c hc => (h.contract c hc).within hg
      allocation := fun a ha => (h.allocation a ha).within hg
      stock := fun b hb => (h.stock b hb).within hg }

variable {name kind : String} {cash : Cents} {isBot : Bool} {company : CompanyId} {region : RegionId}
  {capacity : UInt32}

theorem Fit.addCompany (h : w.Fit w.ground S) (hfree : w.nextId.toNat + 1 < UInt64.size) :
    (w.addCompany name cash isBot).2.Fit (w.addCompany name cash isBot).2.ground S := by
  have hnext := toNat_nextFree hfree
  have hn : w.Numbered w.nextFree := h.numbered.mono (by omega)
  refine h.grow (fun c hc => List.mem_append_left _ hc) (fun b hb => hb) { hn with companies := ?_ }
    fun b hb => Or.inl hb
  exact h.numbered.companies.append (nextId_lt_nextFree hfree) (Nat.le_refl _)

theorem Fit.addBuilding (h : w.Fit w.ground S) (hfree : w.nextId.toNat + 1 < UInt64.size)
    (hcompany : company ∈ w.ground.companies) (hregion : region ∈ w.ground.regions) :
    (w.addBuilding company region kind capacity).2.Fit (w.addBuilding company region kind capacity).2.ground S := by
  have hnext := toNat_nextFree hfree
  have hn : w.Numbered w.nextFree := h.numbered.mono (by omega)
  refine h.grow (fun c hc => hc) (fun b hb => List.mem_append_left _ hb) { hn with buildings := ?_ } fun b hb => ?_
  · exact h.numbered.buildings.append (nextId_lt_nextFree hfree) (Nat.le_refl _)
  · rcases List.mem_append.1 hb with hb | hb
    · exact Or.inl hb
    · obtain rfl := List.mem_singleton.1 hb
      exact Or.inr ⟨hcompany, hregion⟩

/-- A newcomer has nothing set aside, as it has to be. -/
theorem Backed.addCompany (h : w.Backed) (hfit : w.Fit g S) (hfree : w.nextId.toNat + 1 < UInt64.size) :
    (w.addCompany name cash isBot).2.Backed := by
  have hnext := toNat_nextFree hfree
  intro i c hc
  rcases List.mem_append.1 (Roster.mem_of_get? hc) with hold | hnew
  · have hi := Roster.key_of_get? hc
    exact h i c (hi ▸ Roster.get?_of_mem hfit.numbered.companies.ascending hold)
  · obtain rfl := List.mem_singleton.1 hnew
    have hi : i = ⟨w.nextFree⟩ := (Roster.key_of_get? hc).symm
    have howed : w.obligations i = 0 := hfit.obligations_newcomer (hi ▸ nextId_lt_nextFree hfree)
    exact howed.symm.trans (Int.add_zero _).symm

/-- A new building is empty. -/
theorem WithinCapacity.addBuilding (h : w.WithinCapacity) (hfit : w.Fit g S)
    (hfree : w.nextId.toNat + 1 < UInt64.size) : (w.addBuilding company region kind capacity).2.WithinCapacity := by
  have hnext := toNat_nextFree hfree
  intro b hb
  rcases List.mem_append.1 hb with hold | hnew
  · exact h b hold
  · obtain rfl := List.mem_singleton.1 hnew
    refine Nat.le_trans (Nat.le_of_eq ?_) (Nat.zero_le _)
    refine List.countP_eq_zero.2 fun j hj => ?_
    have hne := hfit.building_ne hj (b := ⟨w.nextFree⟩) (nextId_lt_nextFree hfree)
    simp [hne]

end World

end Mercantile
