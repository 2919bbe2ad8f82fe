import Mathlib.Algebra.Order.BigOperators.Group.List
import Mercantile.Proofs.Fit
import Mercantile.Proofs.Reservations

/-!
Sound worlds. A world is sound if its structure passes the check of snapshots, its identifiers have all
been handed out, and orders, contracts and reserved cash agree with each other; it is regular
(`World.Regular`) if no more is asked of orders and contracts than positive prices. `World.fit_of_check` and
`World.Fit.valid` go between what the check accepts and what fits together (`World.Fit`), at any standard,
and `World.Fit.sound` adds what is set aside (`World.Backed`).
-/

namespace Mercantile

namespace Check

variable {ε β : Type}

theorem then_ok {x : Except ε Unit} {y : Except ε β} {b : β} :
    (x >>= fun _ => y) = .ok b ↔ x = .ok () ∧ y = .ok b := by
  rw [bind_ok]
  exact ⟨fun ⟨_, hx, hy⟩ => ⟨hx, hy⟩, fun ⟨hx, hy⟩ => ⟨(), hx, hy⟩⟩

end Check

theorem checkAscending_ok {holder : Subject} {ks : List UInt64} :
    checkAscending holder ks = .ok () ↔ (ks.map UInt64.toNat).Pairwise (· < ·) := by
  rw [← List.isChain_iff_pairwise]
  fun_induction checkAscending holder ks with
  | case1 a b rest hlt ih =>
      rw [ih]
      simp only [List.map_cons, List.isChain_cons_cons]
      exact ⟨fun h => ⟨UInt64.lt_iff_toNat_lt.1 hlt, h⟩, fun h => h.2⟩
  | case2 a b rest hge =>
      rw [List.map_cons, List.map_cons, List.isChain_cons_cons]
      exact ⟨nofun, fun h => absurd (UInt64.lt_iff_toNat_lt.2 h.1) hge⟩
  | case3 ks hshort =>
      cases ks with
      | nil => simp
      | cons a ks =>
          cases ks with
          | nil => simp
          | cons b rest => exact absurd rfl (hshort a b rest)

section

variable {α : Type} {kind : EntityKind} [Keyed α kind]

theorem checkRoster_ok {holder : Subject} {xs : Roster α} :
    checkRoster holder xs = .ok () ↔ xs.Ascending := by
  rw [checkRoster, checkAscending_ok, List.map_map]
  rfl

theorem checkReference_ok {holder : Subject} {xs : Roster α} {i : Id kind} :
    checkReference holder xs i = .ok () ↔ i ∈ xs.map key := by
  have hany : xs.any (key · = i) ↔ i ∈ xs.map key := by simp
  rw [checkReference, ← hany]
  split
  · next hfound => exact iff_of_true rfl hfound
  · next hmissing => exact iff_of_false nofun hmissing

end

namespace World

variable {w : World}

theorem checkCompany_ok {c : Company} : checkCompany c = .ok () ↔ 0 ≤ c.reserved.toInt := by
  rw [checkCompany, Check.bound_ok, Int64.not_lt, Int64.le_iff_toInt_le]
  exact ⟨fun h => h.1, fun h => ⟨h, rfl⟩⟩

theorem checkRecipe_ok {r : Recipe} : w.checkRecipe r = .ok () ↔ r.Fit w.ground := by
  simp only [checkRecipe, Check.then_ok, checkReference_ok, Check.forM_ok]
  exact ⟨fun ⟨houtput, hinputs⟩ => ⟨houtput, hinputs⟩, fun ⟨houtput, hinputs⟩ => ⟨houtput, hinputs⟩⟩

theorem checkBuilding_ok {b : Building} : w.checkBuilding b = .ok () ↔ b.Fit w.ground := by
  simp only [checkBuilding, Check.then_ok, checkReference_ok]
  exact ⟨fun ⟨hcompany, hregion⟩ => ⟨hcompany, hregion⟩, fun ⟨hcompany, hregion⟩ => ⟨hcompany, hregion⟩⟩

theorem checkJob_ok {j : Job} : w.checkJob j = .ok () ↔
    j.company ∈ w.ground.companies ∧ j.building ∈ w.buildings.map key ∧
      j.recipe ∈ w.ground.recipes.map key := by
  simp only [checkJob, Check.then_ok, checkReference_ok]
  rfl

theorem checkOrder_ok {o : Order} : w.checkOrder o = .ok () ↔
    o.company ∈ w.ground.companies ∧ o.region ∈ w.ground.regions ∧ o.item ∈ w.ground.items ∧
      o.remaining.toNat ≤ o.quantity.toNat := by
  have hlast : (if o.quantity < o.remaining then Except.error (ValidationError.ledger
      (.remainingAboveQuantity o.id o.remaining o.quantity)) else pure ()) = Except.ok () ↔
      o.remaining.toNat ≤ o.quantity.toNat := by
    rw [← UInt64.le_iff_toNat_le, ← UInt64.not_lt]
    exact Check.guard_ok
  simp only [checkOrder, Check.then_ok, checkReference_ok, hlast]
  rfl

theorem checkShipment_ok {s : Shipment} : w.checkShipment s = .ok () ↔ s.Fit w.ground := by
  simp only [checkShipment, Check.then_ok, checkReference_ok]
  exact ⟨fun ⟨hc, ho, hd, hi⟩ => ⟨hc, ho, hd, hi⟩, fun ⟨hc, ho, hd, hi⟩ => ⟨hc, ho, hd, hi⟩⟩

theorem checkContract_ok {c : Contract} : w.checkContract c = .ok () ↔
    c.seller ∈ w.ground.companies ∧ (∀ b ∈ c.buyer, b ∈ w.ground.companies) ∧
      c.region ∈ w.ground.regions ∧ c.item ∈ w.ground.items := by
  have hbuyer : c.buyer.forM (checkReference (.entity .contract) w.companies) = .ok () ↔
      ∀ b ∈ c.buyer, b ∈ w.companies.map key := by
    cases c.buyer with
    | none => simp [Option.forM, pure, Except.pure]
    | some b => simp [Option.forM, checkReference_ok]
  simp only [checkContract, Check.then_ok, checkReference_ok, hbuyer]
  rfl

theorem checkAllocation_ok {a : Allocation} : w.checkAllocation a = .ok () ↔ a.Fit w.ground := by
  simp only [checkAllocation, Check.then_ok, checkReference_ok]
  exact ⟨fun ⟨hcompany, hwhole⟩ => ⟨hcompany, hwhole⟩, fun ⟨hcompany, hwhole⟩ => ⟨hcompany, hwhole⟩⟩

theorem checkBalance_ok {b : Balance} : w.checkBalance b = .ok () ↔ b.key.Fit w.ground := by
  simp only [checkBalance, Check.then_ok, checkReference_ok]
  exact ⟨fun ⟨hc, hr, hi⟩ => ⟨hc, hr, hi⟩, fun ⟨hc, hr, hi⟩ => ⟨hc, hr, hi⟩⟩

/-- Every identifier of a world, trades included, has been handed out. -/
structure Issued (w : World) : Prop where
  regions : ∀ r ∈ w.regions, r.id.toNat ≤ w.nextId.toNat
  items : ∀ i ∈ w.items, i.id.toNat ≤ w.nextId.toNat
  recipes : ∀ r ∈ w.recipes, r.id.toNat ≤ w.nextId.toNat
  companies : ∀ c ∈ w.companies, c.id.toNat ≤ w.nextId.toNat
  buildings : ∀ b ∈ w.buildings, b.id.toNat ≤ w.nextId.toNat
  jobs : ∀ j ∈ w.jobs, j.id.toNat ≤ w.nextId.toNat
  orders : ∀ o ∈ w.orders, o.id.toNat ≤ w.nextId.toNat
  trades : ∀ t ∈ w.trades, t.id.toNat ≤ w.nextId.toNat
  shipments : ∀ s ∈ w.shipments, s.id.toNat ≤ w.nextId.toNat
  contracts : ∀ c ∈ w.contracts, c.id.toNat ≤ w.nextId.toNat

instance (w : World) : Decidable w.Issued :=
  decidable_of_iff ((∀ r ∈ w.regions, r.id.toNat ≤ w.nextId.toNat) ∧
      (∀ i ∈ w.items, i.id.toNat ≤ w.nextId.toNat) ∧ (∀ r ∈ w.recipes, r.id.toNat ≤ w.nextId.toNat) ∧
      (∀ c ∈ w.companies, c.id.toNat ≤ w.nextId.toNat) ∧ (∀ b ∈ w.buildings, b.id.toNat ≤ w.nextId.toNat) ∧
      (∀ j ∈ w.jobs, j.id.toNat ≤ w.nextId.toNat) ∧ (∀ o ∈ w.orders, o.id.toNat ≤ w.nextId.toNat) ∧
      (∀ t ∈ w.trades, t.id.toNat ≤ w.nextId.toNat) ∧ (∀ s ∈ w.shipments, s.id.toNat ≤ w.nextId.toNat) ∧
      ∀ c ∈ w.contracts, c.id.toNat ≤ w.nextId.toNat)
    ⟨fun ⟨hr, hi, hp, hc, hb, hj, ho, ht, hs, hk⟩ => ⟨hr, hi, hp, hc, hb, hj, ho, ht, hs, hk⟩,
      fun ⟨hr, hi, hp, hc, hb, hj, ho, ht, hs, hk⟩ => ⟨hr, hi, hp, hc, hb, hj, ho, ht, hs, hk⟩⟩

/-- A sound world: its structure is in order, its identifiers have been handed out, jobs are where their
buildings are, orders and contracts are possible ones, and reserved cash is what is still owed. -/
structure Sound (w : World) : Prop where
  valid : w.check = .ok ()
  issued : w.Issued
  homes : ∀ j ∈ w.jobs, ∃ b ∈ w.buildings, b.id = j.building ∧ b.region = j.region
  orders : ∀ o ∈ w.orders, 0 < o.price ∧ o.remaining ≤ o.quantity ∧ (o.status = .filled ↔ o.remaining = 0)
  contracts : ∀ c ∈ w.contracts, 0 < c.price ∧ c.fulfilled ≤ c.quantity
  reserved : ∀ c ∈ w.companies, c.reserved.toInt = w.obligations c.id

/-- A world that the check of snapshots accepts, whose identifiers have been handed out, whose prices are positive
and whose reserved cash is what is owed. Nothing is said about where jobs are or what is left of orders. -/
structure Regular (w : World) : Prop where
  valid : w.check = .ok ()
  issued : w.Issued
  orders : ∀ o ∈ w.orders, 0 < o.price
  contracts : ∀ c ∈ w.contracts, 0 < c.price
  reserved : ∀ c ∈ w.companies, c.reserved.toInt = w.obligations c.id

theorem Sound.regular {w : World} (h : w.Sound) : w.Regular where
  valid := h.valid
  issued := h.issued
  orders := fun o ho => (h.orders o ho).1
  contracts := fun c hc => (h.contracts c hc).1
  reserved := h.reserved

theorem zero_lt_iff {price : Cents} : 0 < price ↔ 0 < price.toInt := by
  rw [Int64.lt_iff_toInt_lt]
  rfl

end World

theorem Order.Fit.owedBy_nonneg {g : Ground} {S : Standard} {o : Order} (h : o.Fit g S) (hS : S.orderly)
    (i : CompanyId) : 0 ≤ o.owedBy i := by
  simp only [owedBy, obligation]
  split
  · split
    · exact Int.mul_nonneg (h.price hS).le (Int.natCast_nonneg _)
    · exact Int.le_refl _
  · exact Int.le_refl _

theorem Contract.Fit.owedBy_nonneg {g : Ground} {S : Standard} {c : Contract} (h : c.Fit g S)
    (hS : S.orderly) (i : CompanyId) : 0 ≤ c.owedBy i := by
  simp only [owedBy, obligation]
  split
  · split
    · exact Int.mul_nonneg (h.price hS).le (Int.natCast_nonneg _)
    · exact Int.le_refl _
  · exact Int.le_refl _

namespace World

variable {g : Ground} {S : Standard} {w : World}

theorem Fit.owed_nonneg (h : w.Fit g S) (hS : S.orderly) (i : CompanyId) :
    (∀ x ∈ w.orders.map (Order.owedBy i), 0 ≤ x) ∧ ∀ x ∈ w.contracts.map (Contract.owedBy i), 0 ≤ x := by
  refine ⟨fun x hx => ?_, fun x hx => ?_⟩
  · obtain ⟨o, ho, rfl⟩ := List.mem_map.1 hx
    exact (h.order o ho).owedBy_nonneg hS i
  · obtain ⟨c, hc, rfl⟩ := List.mem_map.1 hx
    exact (h.contract c hc).owedBy_nonneg hS i

/-- What is owed for orders and contracts on the ground is not negative. -/
theorem Fit.obligations_nonneg (h : w.Fit g S) (hS : S.orderly) (i : CompanyId) : 0 ≤ w.obligations i := by
  obtain ⟨horders, hcontracts⟩ := h.owed_nonneg hS i
  rw [obligations_eq_sum]
  exact Int.add_nonneg (List.sum_nonneg horders) (List.sum_nonneg hcontracts)

/-- What the check of snapshots accepts fits together, where no more is asked for than is known. -/
theorem fit_of_check (hvalid : w.check = .ok ()) (hissued : w.Issued)
    (hlocated : S.located → ∀ j ∈ w.jobs, j.region ∈ w.regions.map key)
    (hhoused : S.housed → ∀ j ∈ w.jobs, ∃ b ∈ w.buildings, b.id = j.building ∧ b.region = j.region)
    (horders : S.orderly → ∀ o ∈ w.orders,
      0 < o.price ∧ o.remaining ≤ o.quantity ∧ (o.status = .filled ↔ o.remaining = 0))
    (hcontracts : S.orderly → ∀ c ∈ w.contracts, 0 < c.price ∧ c.fulfilled ≤ c.quantity) :
    w.Fit w.ground S := by
  simp only [check, Check.then_ok, checkRoster_ok, Check.forM_ok, checkCompany_ok, checkRecipe_ok,
    checkBuilding_ok, checkJob_ok, checkOrder_ok, checkShipment_ok, checkContract_ok,
    checkAllocation_ok, checkBalance_ok] at hvalid
  obtain ⟨hregion, hitem, hcompany, hrecipe, hbuilding, hjob, horder, htrade, hshipment, hcontract,
    hallocated, -, hrecipes, hbuildings, hjobs, hordersIn, hshipments, hcontractsIn, hallocations,
    hstock⟩ := hvalid
  exact
    { ground := rfl
      numbered :=
        { regions := ⟨hregion, hissued.regions⟩
          items := ⟨hitem, hissued.items⟩
          recipes := ⟨hrecipe, hissued.recipes⟩
          companies := ⟨hcompany, hissued.companies⟩
          buildings := ⟨hbuilding, hissued.buildings⟩
          jobs := ⟨hjob, hissued.jobs⟩
          orders := ⟨horder, hissued.orders⟩
          trades := ⟨htrade, hissued.trades⟩
          shipments := ⟨hshipment, hissued.shipments⟩
          contracts := ⟨hcontract, hissued.contracts⟩ }
      allocated := hallocated
      recipe := hrecipes
      building := hbuildings
      job := fun j hj => by
        obtain ⟨hcompany, hbuilding, hrecipe⟩ := hjobs j hj
        exact ⟨hcompany, hbuilding, hrecipe, fun hS => hlocated hS j hj, fun hS => hhoused hS j hj⟩
      order := fun o ho => by
        obtain ⟨hcompany, hregion, hitem, hremaining⟩ := hordersIn o ho
        exact ⟨hcompany, hregion, hitem, hremaining, fun hS => zero_lt_iff.1 (horders hS o ho).1,
          fun hS => (horders hS o ho).2.2⟩
      shipment := hshipments
      contract := fun c hc => by
        obtain ⟨hseller, hbuyer, hregion, hitem⟩ := hcontractsIn c hc
        exact ⟨hseller, hbuyer, hregion, hitem, fun hS => zero_lt_iff.1 (hcontracts hS c hc).1,
          fun hS => UInt64.le_iff_toNat_le.1 (hcontracts hS c hc).2⟩
      allocation := hallocations
      stock := hstock }

/-- What fits together passes the check of snapshots, if no reserved cash is below zero. -/
theorem Fit.valid (h : w.Fit g S) (hreserved : ∀ c ∈ w.companies, 0 ≤ c.reserved.toInt) :
    w.check = .ok () := by
  obtain rfl := h.ground
  simp only [check, Check.then_ok, checkRoster_ok, Check.forM_ok, checkCompany_ok, checkRecipe_ok,
    checkBuilding_ok, checkJob_ok, checkOrder_ok, checkShipment_ok, checkContract_ok,
    checkAllocation_ok, checkBalance_ok]
  obtain ⟨hregion, hitem, hrecipe, hcompany, hbuilding, hjob, horder, htrade, hshipment, hcontract⟩ :=
    h.numbered
  refine ⟨hregion.ascending, hitem.ascending, hcompany.ascending, hrecipe.ascending,
    hbuilding.ascending, hjob.ascending, horder.ascending, htrade.ascending, hshipment.ascending,
    hcontract.ascending, h.allocated, hreserved, h.recipe, h.building, fun j hj => ?_, fun o ho => ?_,
    h.shipment, fun c hc => ?_, h.allocation, h.stock⟩
  · have hj := h.job j hj
    exact ⟨hj.company, hj.building, hj.recipe⟩
  · have ho := h.order o ho
    exact ⟨ho.company, ho.region, ho.item, ho.remaining⟩
  · have hc := h.contract c hc
    exact ⟨hc.seller, hc.buyer, hc.region, hc.item⟩

theorem Fit.issued (h : w.Fit g S) : w.Issued := by
  obtain ⟨hregion, hitem, hrecipe, hcompany, hbuilding, hjob, horder, htrade, hshipment, hcontract⟩ :=
    h.numbered
  exact ⟨hregion.bounded, hitem.bounded, hrecipe.bounded, hcompany.bounded, hbuilding.bounded,
    hjob.bounded, horder.bounded, htrade.bounded, hshipment.bounded, hcontract.bounded⟩

theorem Sound.fit (h : w.Sound) : w.Fit w.ground .full := by
  refine fit_of_check h.valid h.issued (fun _ j hj => ?_) (fun _ => h.homes) (fun _ => h.orders)
    fun _ => h.contracts
  have hvalid := h.valid
  simp only [check, Check.then_ok, Check.forM_ok, checkBuilding_ok] at hvalid
  obtain ⟨-, -, -, -, -, -, -, -, -, -, -, -, -, hbuildings, -⟩ := hvalid
  obtain ⟨b, hb, -, hregion⟩ := h.homes j hj
  rw [← hregion]
  exact (hbuildings b hb).region

theorem Fit.exists_company (h : w.Fit g S) {i : CompanyId} (hi : i ∈ g.companies) :
    ∃ c, w.companies.get? i = some c := by
  rw [← h.ground] at hi
  obtain ⟨c, hc, rfl⟩ := List.mem_map.1 hi
  exact ⟨c, Roster.get?_of_mem h.numbered.companies.ascending hc⟩

/-- Where reserved cash is what each company owes, it is backed. -/
theorem backed_of_reserved (h : ∀ c ∈ w.companies, c.reserved.toInt = w.obligations c.id) : w.Backed := by
  intro i c hc
  rw [Int.add_zero, ← Roster.key_of_get? hc]
  exact h c (Roster.mem_of_get? hc)

theorem Sound.backed (h : w.Sound) : w.Backed := backed_of_reserved h.reserved

/-- What fits together and is backed is sound. -/
theorem Fit.sound (h : w.Fit g .full) (hbacked : w.Backed) : w.Sound := by
  have hreserved : ∀ c ∈ w.companies, c.reserved.toInt = w.obligations c.id := by
    intro c hc
    rw [hbacked c.id c (Roster.get?_of_mem h.numbered.companies.ascending hc), Int.add_zero]
  refine ⟨h.valid fun c hc => ?_, h.issued, fun j hj => ?_, fun o ho => ?_, fun c hc => ?_, hreserved⟩
  · rw [hreserved c hc]
    exact h.obligations_nonneg trivial c.id
  · obtain rfl := h.ground
    exact (h.job j hj).home trivial
  · have ho := h.order o ho
    exact ⟨zero_lt_iff.2 (ho.price trivial), UInt64.le_iff_toNat_le.2 ho.remaining, ho.filled trivial⟩
  · have hc := h.contract c hc
    exact ⟨zero_lt_iff.2 (hc.price trivial), UInt64.le_iff_toNat_le.2 (hc.fulfilled trivial)⟩

end World

end Mercantile
