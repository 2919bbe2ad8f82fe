import Mathlib.Logic.Relation
import Mercantile.Proofs.Money
import Mercantile.Proofs.Accounting
import Mercantile.Proofs.Priority
import Mercantile.Proofs.Soundness

/-!
What ticks look up. The outline of a world is what no tick changes: which entities there are and what they refer
to. In a world that the check of snapshots accepts the outline is closed: identifiers ascend, and what is
referred to is there. Every phase keeps the outline, also when it fails half way (`step_keeps`), so whatever a
later phase or a later tick looks up is found (`ticks_find_everything`).
-/

namespace Mercantile

/-- The job without how far it is. -/
def Job.outline (j : Job) : Job := { j with progress := 0, state := .queued }

/-- The order without what is left of it. -/
def Order.outline (o : Order) : Order := { o with remaining := 0, status := .unfilled }

/-- The shipment without whether it has arrived. -/
def Shipment.outline (s : Shipment) : Shipment := { s with status := .inTransit }

/-- The contract without what was delivered under it. -/
def Contract.outline (c : Contract) : Contract := { c with fulfilled := 0, status := .unfulfilled }

/-- What no tick changes of the things that ticks look up. -/
structure Outline where
  companies : List CompanyId
  recipes : Roster Recipe
  buildings : Roster Building
  jobs : Roster Job
  orders : Roster Order
  shipments : Roster Shipment
  contracts : Roster Contract

def World.outline (w : World) : Outline where
  companies := w.companies.map (·.id)
  recipes := w.recipes
  buildings := w.buildings
  jobs := w.jobs.map Job.outline
  orders := w.orders.map Order.outline
  shipments := w.shipments.map Shipment.outline
  contracts := w.contracts.map Contract.outline

namespace Outline

/-- Identifiers ascend, and what is referred to is there. Of a job only the company, the building and the recipe
count, not its region, and nothing is said about trades. -/
structure Closed (l : Outline) : Prop where
  companies : (l.companies.map Id.toNat).Pairwise (· < ·)
  recipes : l.recipes.Ascending
  buildings : l.buildings.Ascending
  jobs : l.jobs.Ascending
  orders : l.orders.Ascending
  shipments : l.shipments.Ascending
  contracts : l.contracts.Ascending
  job : ∀ j ∈ l.jobs, j.company ∈ l.companies ∧ j.building ∈ l.buildings.map key ∧ j.recipe ∈ l.recipes.map key
  order : ∀ o ∈ l.orders, o.company ∈ l.companies
  shipment : ∀ s ∈ l.shipments, s.company ∈ l.companies
  contract : ∀ c ∈ l.contracts, c.seller ∈ l.companies ∧ ∀ b ∈ c.buyer, b ∈ l.companies

end Outline

/-- On an ascending roster every identifier is found. -/
theorem Roster.exists_get? {α : Type} {kind : EntityKind} [Keyed α kind] {xs : Roster α} (hs : xs.Ascending)
    {i : Id kind} (hi : i ∈ xs.map key) : ∃ a, xs.get? i = some a := by
  obtain ⟨a, ha, rfl⟩ := List.mem_map.1 hi
  exact ⟨a, Roster.get?_of_mem hs ha⟩

/-- An ascending order can be told from views that show the identifiers. -/
theorem Roster.ascending_map {α : Type} {kind : EntityKind} [Keyed α kind] {xs : Roster α} (f : α → α)
    (hf : ∀ a, key (f a) = key a) : Roster.Ascending (xs.map f : Roster α) ↔ xs.Ascending := by
  have hkeys : Roster.keys (xs.map f : Roster α) = xs.keys := by
    rw [keys, keys, List.map_map]
    exact List.map_congr_left fun a _ => congrArg Id.toNat (hf a)
  rw [Ascending, Ascending, hkeys]

namespace World

variable {w w' : World} {l : Outline}

theorem closed_of_check (h : w.check = .ok ()) : w.outline.Closed := by
  simp only [check, Check.then_ok, checkRoster_ok, Check.forM_ok, checkJob_ok, checkOrder_ok, checkShipment_ok,
    checkContract_ok] at h
  obtain ⟨-, -, hcompanies, hrecipes, hbuildings, hjobs, horders, -, hshipments, hcontracts, -, -, -, -, hjob,
    horder, hshipment, hcontract, -⟩ := h
  refine
    { companies := ?_
      recipes := hrecipes
      buildings := hbuildings
      jobs := (Roster.ascending_map Job.outline fun _ => rfl).2 hjobs
      orders := (Roster.ascending_map Order.outline fun _ => rfl).2 horders
      shipments := (Roster.ascending_map Shipment.outline fun _ => rfl).2 hshipments
      contracts := (Roster.ascending_map Contract.outline fun _ => rfl).2 hcontracts
      job := ?_, order := ?_, shipment := ?_, contract := ?_ }
  · rw [outline, List.map_map]
    exact hcompanies
  · intro j hj
    obtain ⟨k, hk, rfl⟩ := List.mem_map.1 hj
    exact hjob k hk
  · intro o ho
    obtain ⟨p, hp, rfl⟩ := List.mem_map.1 ho
    exact (horder p hp).1
  · intro s hs
    obtain ⟨t, ht, rfl⟩ := List.mem_map.1 hs
    exact (hshipment t ht).company
  · intro c hc
    obtain ⟨d, hd, rfl⟩ := List.mem_map.1 hc
    obtain ⟨hseller, hbuyer, -⟩ := hcontract d hd
    exact ⟨hseller, hbuyer⟩

section

variable (hl : l.Closed) (hw : w.outline = l)

include hl hw

theorem company_found {i : CompanyId} (hi : i ∈ l.companies) : ∃ c, w.companies.get? i = some c := by
  subst hw
  refine Roster.exists_get? ?_ hi
  have hcompanies := hl.companies
  rw [outline, List.map_map] at hcompanies
  exact hcompanies

theorem orders_ascending : w.orders.Ascending := by
  subst hw
  exact (Roster.ascending_map Order.outline fun _ => rfl).1 hl.orders

theorem order_found {i : OrderId} (hi : i ∈ l.orders.map key) : ∃ o, w.orders.get? i = some o := by
  have hascending := orders_ascending hl hw
  subst hw
  rw [outline, List.map_map] at hi
  exact Roster.exists_get? hascending hi

/-- A job that is known by its outline is found, and so is what it refers to. -/
theorem job_found {i : JobId} (hi : i ∈ l.jobs.map key) : ∃ j, w.jobs.get? i = some j ∧
    (∃ c, w.companies.get? j.company = some c) ∧ (∃ r, w.recipes.get? j.recipe = some r) ∧
      ∃ b, w.buildings.get? j.building = some b := by
  have hcompany := fun i => company_found (i := i) hl hw
  subst hw
  have hascending : w.jobs.Ascending := (Roster.ascending_map Job.outline fun _ => rfl).1 hl.jobs
  rw [outline, List.map_map] at hi
  obtain ⟨j, hj⟩ := Roster.exists_get? hascending hi
  obtain ⟨howner, hplace, hrecipe⟩ := hl.job j.outline (List.mem_map_of_mem (Roster.mem_of_get? hj))
  exact ⟨j, hj, hcompany j.company howner, Roster.exists_get? hl.recipes hrecipe,
    Roster.exists_get? hl.buildings hplace⟩

theorem shipment_found {s : Shipment} (hs : s ∈ w.shipments) :
    w.shipments.get? s.id = some s ∧ ∃ c, w.companies.get? s.company = some c := by
  have hcompany := fun i => company_found (i := i) hl hw
  subst hw
  have hascending : w.shipments.Ascending := (Roster.ascending_map Shipment.outline fun _ => rfl).1 hl.shipments
  exact ⟨Roster.get?_of_mem hascending hs, hcompany s.company (hl.shipment s.outline (List.mem_map_of_mem hs))⟩

/-- A contract that is known by its outline is found, and so are its parties. -/
theorem contract_found {i : ContractId} (hi : i ∈ l.contracts.map key) :
    ∃ c, w.contracts.get? i = some c ∧ c.outline ∈ l.contracts ∧
      (∃ s, w.companies.get? c.seller = some s) ∧ ∀ buyer ∈ c.buyer, ∃ b, w.companies.get? buyer = some b := by
  have hcompany := fun i => company_found (i := i) hl hw
  subst hw
  have hascending : w.contracts.Ascending := (Roster.ascending_map Contract.outline fun _ => rfl).1 hl.contracts
  rw [outline, List.map_map] at hi
  obtain ⟨c, hc⟩ := Roster.exists_get? hascending hi
  have hmem : c.outline ∈ w.outline.contracts := List.mem_map_of_mem (Roster.mem_of_get? hc)
  obtain ⟨hseller, hbuyer⟩ := hl.contract c.outline hmem
  exact ⟨c, hc, hmem, hcompany c.seller hseller, fun b hb => hcompany b (hbuyer b hb)⟩

end

theorem MoneyMoved.outline (h : w.MoneyMoved w') : w'.outline = w.outline := by
  rw [World.outline, h.ids, h.frame]
  rfl

theorem outline_modifyJob {i : JobId} (f : Job → Job) (hf : ∀ j, (f j).outline = j.outline) :
    (w.modifyJob i f).outline = w.outline := by
  rw [World.outline, modifyJob, Roster.map_modify hf]
  rfl

theorem outline_modifyOrder {i : OrderId} (f : Order → Order) (hf : ∀ o, (f o).outline = o.outline) :
    (w.modifyOrder i f).outline = w.outline := by
  rw [World.outline, modifyOrder, Roster.map_modify hf]
  rfl

theorem outline_modifyShipment {i : ShipmentId} (f : Shipment → Shipment) (hf : ∀ s, (f s).outline = s.outline) :
    (w.modifyShipment i f).outline = w.outline := by
  rw [World.outline, modifyShipment, Roster.map_modify hf]
  rfl

theorem outline_modifyContract {i : ContractId} (f : Contract → Contract)
    (hf : ∀ c, (f c).outline = c.outline) : (w.modifyContract i f).outline = w.outline := by
  rw [World.outline, modifyContract, Roster.map_modify hf]
  rfl

end World

/-- A sum that is no word, or money or goods that are wanting. -/
def Failure.isShortage : Failure → Bool
  | .overflow _ | .insufficientFunds _ _ _ | .insufficientInventory _ _ _ _ _ => true
  | _ => false

section

variable {α β : Type} {x : Option α} {figure : Figure} {e : Failure}

theorem isShortage_of_overflow (h : orOverflow x figure = .error e) : e.isShortage := by
  obtain ⟨-, rfl⟩ := orFail_error.1 h
  rfl

/-- A step that only needs one figure. -/
theorem isShortage_of_figure {f : α → β} (h : (orOverflow x figure >>= fun a => pure (f a)) = .error e) :
    e.isShortage := by
  rcases Check.bind_error.1 h with h | ⟨a, -, h⟩
  · exact isShortage_of_overflow h
  · cases h

end

theorem notional_error {price : Cents} {q : Quantity} {e : Failure} (h : notional price q = .error e) :
    e.isShortage := by
  rcases Check.bind_error.1 h with h | ⟨n, -, h⟩ <;> exact isShortage_of_overflow h

theorem scaledInputs_error {inputs : List RecipeInput} {q : Quantity} {e : Failure}
    (h : scaledInputs inputs q = .error e) : e = .overflow .recipeInputs := by
  unfold scaledInputs at h
  induction inputs with
  | nil => cases h
  | cons i inputs ih =>
      simp only [List.mapM_cons, Check.bind_error, orFail_error, Check.pure_error, and_false, exists_false,
        or_false] at h
      rcases h with ⟨-, rfl⟩ | ⟨line, -, h⟩
      · rfl
      · exact ih h

theorem deliveryFee_error {cfg : LogisticsConfig} {q : Quantity} {logistics : Decimal} {e : Failure}
    (h : deliveryFee cfg q logistics = .error e) : e.isShortage := isShortage_of_overflow h

theorem driftOf_error {before after : Cents} {flows : CashFlows} {e : Failure}
    (h : driftOf before after flows = .error e) : e.isShortage := by
  rcases Check.bind_error.1 h with h | ⟨expected, -, h⟩ <;> exact isShortage_of_overflow h

/-- Only the question how much the pool can pay for at a price of zero has no answer. -/
theorem deliverable_error {w : World} {c : Contract} {e : Failure} (h : deliverable w c = .error e) :
    e = .undefined ∧ c.buyer = none ∧ c.price = 0 := by
  unfold deliverable affordable at h
  split at h
  · cases h
  · next hnone =>
    rw [Check.bind_error] at h
    rcases h with h | ⟨n, -, h⟩
    · split at h
      · next hprice =>
        cases h
        exact ⟨rfl, hnone, hprice⟩
      · cases h
    · cases h

/-- The product of the base rate and the multiplier is all that can be without a result. -/
theorem progressStep_error {base : UInt32} {operations : Decimal} {e : Failure}
    (h : progressStep base operations = .error e) :
    e = .undefined ∧ Decimal.mul? base.toNat operations = none := by
  simp only [progressStep, Check.bind_error, orFail_error, Check.pure_error, and_false, exists_false,
    or_false] at h
  exact ⟨h.2, h.1⟩

/-- A contract at a price at which no payment has a result: none for the market pool, one below zero for a
buyer. -/
def Contract.Unpayable (c : Contract) : Prop :=
  match c.buyer with
  | none => c.price = 0
  | some _ => c.price.toInt < 0

/-- Prices at which every payment of a tick has a result: nothing is offered at a price below zero, and no open
contract is at a price at which it cannot be paid. -/
structure World.Payable (w : World) : Prop where
  asks : ∀ o ∈ w.orders, o.isOpen → o.side = .sell → 0 ≤ o.price.toInt
  contracts : ∀ c ∈ w.contracts, c.status.isOpen → ¬ c.Unpayable

section

variable {l : Outline} {E : Failure → Prop} {w : World} {s : Account}

section

variable (hE : ∀ e, e.isShortage → E e)

include hE

theorem addStock_keeps {k : StockKey} {q : Quantity} (hw : w.outline = l) :
    (World.addStock k q).Keeps (·.outline = l) E w := by
  refine .update hw (fun t h => ?_) fun e h => ?_
  · obtain ⟨inv, -, rfl⟩ := World.addStock_ok.1 h
    exact hw
  · rcases Check.bind_error.1 h with h | ⟨inv, -, h⟩
    · exact hE e (isShortage_of_figure h)
    · cases h

theorem removeStock_keeps {k : StockKey} {q : Quantity} (hw : w.outline = l) :
    (World.removeStock k q).Keeps (·.outline = l) E w := by
  refine .update hw (fun t h => ?_) fun e h => ?_
  · obtain ⟨inv, -, rfl⟩ := World.removeStock_ok.1 h
    exact hw
  · simp only [Inventory.remove, Check.bind_error, Check.pure_error, and_false, exists_false, or_false] at h
    split at h
    · cases h
      exact hE _ rfl
    · cases h

theorem allocateId_keeps {kind : EntityKind} (hw : w.outline = l) :
    (World.allocateId kind).Keeps (·.outline = l) E w := by
  refine .transact hw (fun i t h => ?_) fun e h => hE e (isShortage_of_figure h)
  obtain ⟨-, rfl⟩ := World.allocateId_ok.1 h
  exact hw

theorem fillOrder_keeps {id : OrderId} {q : Quantity} (hw : w.outline = l)
    (ho : ∃ o, w.orders.get? id = some o) : (fillOrder id q).Keeps (·.outline = l) E w := by
  obtain ⟨o, ho⟩ := ho
  refine .update hw (fun t h => ?_) fun e h => ?_
  · obtain ⟨_, -, left, -, rfl⟩ := fillOrder_ok.1 h
    exact (World.outline_modifyOrder (·.leave left) fun _ => rfl).trans hw
  · simp only [Roster.require, ho] at h
    exact hE e (isShortage_of_figure h)

theorem changeCash_keeps {i : CompanyId} {f : Cents → Option Cents} {figure : Figure} (hw : w.outline = l)
    (hc : ∃ c, w.companies.get? i = some c) :
    (Ledger.changeCash i f figure).Keeps (·.outline = l) E w := by
  obtain ⟨c, hc⟩ := hc
  refine .update hw (fun t h => ?_) fun e h => ?_
  · exact (Ledger.changeCash_moved h).outline.trans hw
  · simp only [Roster.require, hc] at h
    exact hE e (isShortage_of_figure h)

/-- A settlement between companies that are there, at a price that was reserved, fails for want of money or
with a sum, or it is without a result at a price below zero. -/
theorem settle_keeps {buyer seller : CompanyId} {reservedPrice price : Cents} {q : Quantity} (hw : w.outline = l)
    (hprice : ¬ reservedPrice < price) (hnegative : price.toInt < 0 → E .undefined) (hbuyer : ∃ c, w.companies.get? buyer = some c)
    (hseller : ∃ c, w.companies.get? seller = some c) :
    (Ledger.settle buyer seller reservedPrice price q).Keeps (·.outline = l) E w := by
  obtain ⟨b, hb⟩ := hbuyer
  obtain ⟨c, hc⟩ := hseller
  refine .transact hw (fun r t h => ?_) fun e h => ?_
  · exact (Ledger.settle_moved h).outline.trans hw
  · simp only [Check.unless_error, hprice, Check.bind_error, Roster.require, hb, hc, orFail_error, reduceCtorEq,
      false_and, false_or, not_false_eq_true, true_and, Except.ok.injEq, exists_eq_left'] at h
    rcases h with h | ⟨debited, hdebited, h | ⟨paid, hpaid, ⟨hnone, rfl⟩ | ⟨refunded, -, h⟩⟩⟩
    · exact hE e (notional_error h)
    · exact hE e (notional_error h)
    · exact hnegative (Ledger.refund_undefined hprice hdebited hpaid hnone)
    rcases h with ⟨-, rfl⟩ | ⟨hfunds, ⟨-, rfl⟩ | ⟨cash, -, h⟩⟩
    · exact hE _ rfl
    · exact hE _ rfl
    · split at h <;>
      · simp only [Check.bind_error, Check.pure_error, Check.map_error, orFail_error, reduceCtorEq, and_false,
          exists_false, false_or, or_false] at h
        obtain ⟨_, -, ⟨-, rfl⟩ | ⟨_, -, hnone, rfl⟩⟩ := h
        · exact hE _ rfl
        · exact hnegative (Ledger.rest_undefined hprice hdebited hfunds hnone)

theorem recordInflow_keeps {amount : Cents} (hw : s.world.outline = l) :
    (Account.onFlows (CashFlows.recordInflow amount)).Keeps (·.world.outline = l) E s :=
  .zoom (.update hw (fun _ _ => hw) fun e h => hE e (isShortage_of_figure h))

theorem recordOutflow_keeps {amount : Cents} (hw : s.world.outline = l) :
    (Account.onFlows (CashFlows.recordOutflow amount)).Keeps (·.world.outline = l) E s :=
  .zoom (.update hw (fun _ _ => hw) fun e h => hE e (isShortage_of_figure h))

end

variable (hE : ∀ e, e.isShortage → E e) (hl : l.Closed)

include hE hl

theorem supplyBots_keeps {cfg : BotConfig} (hw : s.world.outline = l) :
    (supplyBots cfg).Keeps (·.world.outline = l) E s := by
  unfold supplyBots
  split
  · refine .get_bind hw (.forM (fun bot hbot t ht => ?_) hw)
    have hcompany : bot ∈ l.companies := by
      obtain ⟨c, hc, rfl⟩ := List.mem_map.1 hbot
      rw [← hw]
      exact List.mem_map_of_mem (List.mem_of_mem_filter hc)
    have hfound := World.company_found hl ht hcompany
    refine Action.Keeps.bind (.zoom (changeCash_keeps hE ht hfound)) fun _ u _ hu => ?_
    exact recordInflow_keeps hE hu
  · exact .pure () hw

/-- What a match names is there, and its price is not above the limit of its bid. -/
structure Fill.Within (l : Outline) (f : Fill) : Prop where
  bid : f.buyOrder ∈ l.orders.map key
  ask : f.sellOrder ∈ l.orders.map key
  buyer : f.buyer ∈ l.companies
  seller : f.seller ∈ l.companies
  price : ¬ f.bidPrice < f.price

omit hE in
theorem within_of_mem_fills {k : MarketKey} {f : Fill} (hw : w.outline = l) (hf : f ∈ (w.bookOf k).fills) :
    f.Within l := by
  obtain ⟨bid, hbid, ask, hask, hjoins⟩ := Book.joins_of_mem_fills hf
  obtain ⟨b, hb, rfl, -⟩ := World.order_of_mem_quotes hbid
  obtain ⟨a, ha, rfl, -⟩ := World.order_of_mem_quotes hask
  have hmem (o : Order) (ho : o ∈ w.orders) : o.outline ∈ l.orders := by
    rw [← hw]
    exact List.mem_map_of_mem ho
  exact
    { bid := List.mem_map.2 ⟨b.outline, hmem b hb, hjoins.buyOrder.symm⟩
      ask := List.mem_map.2 ⟨a.outline, hmem a ha, hjoins.sellOrder.symm⟩
      buyer := hjoins.buyer ▸ hl.order b.outline (hmem b hb)
      seller := hjoins.seller ▸ hl.order a.outline (hmem a ha)
      price := Int64.not_lt.2 (hjoins.bidPrice ▸ hjoins.le_bid) }

omit hE hl in
/-- Only where goods are offered at a price below zero is a match made at one. -/
theorem ask_of_mem_fills {k : MarketKey} {f : Fill} (hf : f ∈ (w.bookOf k).fills) :
    ∃ o ∈ w.orders, o.isOpen ∧ o.side = .sell ∧ o.price.toInt ≤ f.price.toInt := by
  obtain ⟨bid, -, ask, hask, hjoins⟩ := Book.joins_of_mem_fills hf
  obtain ⟨a, ha, rfl, hside, -, hopen⟩ := World.order_of_mem_quotes hask
  exact ⟨a, ha, hopen, hside, Int64.le_iff_toInt_le.1 hjoins.ask_le⟩

theorem applyFill_keeps {k : MarketKey} {tick : Tick} {f : Fill} (hf : f.Within l)
    (hnegative : f.price.toInt < 0 → E .undefined) (hw : w.outline = l) :
    (applyFill k tick f).Keeps (·.outline = l) E w := by
  have hbuyer := World.company_found hl hw hf.buyer
  have hseller := World.company_found hl hw hf.seller
  refine (settle_keeps hE hw hf.price hnegative hbuyer hseller).bind fun _ w₁ _ h₁ => ?_
  refine (addStock_keeps hE h₁).bind fun _ w₂ _ h₂ => ?_
  refine (fillOrder_keeps hE h₂ (World.order_found hl h₂ hf.bid)).bind fun _ w₃ _ h₃ => ?_
  refine (fillOrder_keeps hE h₃ (World.order_found hl h₃ hf.ask)).bind fun _ w₄ _ h₄ => ?_
  exact (allocateId_keeps hE h₄).bind fun _ w₅ _ h₅ => .pure _ h₅

theorem clearMarkets_keeps {tick : Tick}
    (hasks : ∀ o ∈ w.orders, o.isOpen → o.side = .sell → o.price.toInt < 0 → E .undefined)
    (hw : w.outline = l) : (clearMarkets tick).Keeps (·.outline = l) E w := by
  refine .get_bind hw (Action.Keeps.bind (.mapM (fun e he t ht => ?_) hw) fun trades t _ ht => ?_)
  · refine .mapM (fun f hf u hu => ?_) ht
    rw [World.mem_books he] at hf
    refine applyFill_keeps hE hl (within_of_mem_fills hl hw hf) (fun hprice => ?_) hu
    obtain ⟨o, ho, hopen, hside, hle⟩ := ask_of_mem_fills hf
    exact hasks o ho hopen hside (by omega)
  · exact Action.Keeps.bind (.modify ht) fun _ u _ hu => .pure _ hu

omit hE hl in
theorem setJob_keeps {id : JobId} {state : JobState} {progress : UInt32} (hw : w.outline = l) :
    (setJob id state progress).Keeps (·.outline = l) E w :=
  .modify ((World.outline_modifyJob (fun j => { j with state, progress }) fun _ => rfl).trans hw)

omit hl in
theorem finishJob_keeps {j : Job} {recipe : Recipe} {progress : UInt32} (hw : w.outline = l) :
    (finishJob j recipe progress).Keeps (·.outline = l) E w := by
  unfold finishJob
  split
  · refine .lift_bind hw (fun e he => hE e (isShortage_of_overflow he)) fun output _ => ?_
    refine (addStock_keeps hE hw).bind fun _ w₁ _ h₁ => ?_
    exact (setJob_keeps h₁).bind fun _ w₂ _ h₂ => .pure _ h₂
  · exact (setJob_keeps hw).bind fun _ w₁ _ h₁ => .pure _ h₁

omit hl in
theorem workOn_keeps {j : Job} {recipe : Recipe} {amount : UInt32} (hw : w.outline = l) :
    (workOn j recipe amount).Keeps (·.outline = l) E w := by
  refine .lift_bind hw (fun e he => hE e (by rw [scaledInputs_error he]; rfl)) fun inputs _ => .get_bind hw ?_
  dsimp only
  split
  · refine Action.Keeps.bind (.forM (fun i _ t ht => removeStock_keeps hE ht) hw) fun _ w₁ _ h₁ => ?_
    exact finishJob_keeps hE h₁
  · exact (setJob_keeps hw).bind fun _ w₁ _ h₁ => .pure _ h₁

theorem advanceJob_keeps {id : JobId} {amount : UInt32} (hid : id ∈ l.jobs.map key) (hw : w.outline = l) :
    (advanceJob id amount).Keeps (·.outline = l) E w := by
  obtain ⟨j, hj, -, ⟨recipe, hrecipe⟩, building, hbuilding⟩ := World.job_found hl hw hid
  refine .get_bind hw (.known_bind (Roster.require_ok.2 hj) ?_)
  refine .known_bind (Roster.require_ok.2 hrecipe) (.known_bind (Roster.require_ok.2 hbuilding) ?_)
  split
  · exact (setJob_keeps hw).bind fun _ w₁ _ h₁ => .pure _ h₁
  · split
    · exact workOn_keeps hE hw
    · exact finishJob_keeps hE hw

/-- A job is evaluated at multipliers under which its progress may be without a result. -/
theorem runJob_keeps {multipliers : MultiplierTable} {cfg : ProductionConfig} {id : JobId}
    (hprogress : ∀ i, Decimal.mul? cfg.baseProgressPerTick.toNat (multipliers.of i).operations = none →
      E .undefined)
    (hid : id ∈ l.jobs.map key) (hw : w.outline = l) :
    (runJob multipliers cfg id).Keeps (·.outline = l) E w := by
  obtain ⟨j, hj, -⟩ := World.job_found hl hw hid
  refine .get_bind hw (.known_bind (Roster.require_ok.2 hj) (.lift_bind hw (fun e he => ?_) fun amount _ => ?_))
  · obtain ⟨rfl, hnone⟩ := progressStep_error he
    exact hprogress j.company hnone
  · exact (advanceJob_keeps hE hl hid hw).bind fun _ w₁ _ h₁ => .pure _ h₁

theorem runProduction_keeps {multipliers : MultiplierTable} {cfg : ProductionConfig}
    (hprogress : ∀ i, Decimal.mul? cfg.baseProgressPerTick.toNat (multipliers.of i).operations = none →
      E .undefined)
    (hw : w.outline = l) : (runProduction multipliers cfg).Keeps (·.outline = l) E w := by
  refine .get_bind hw (Action.Keeps.bind (.mapM (fun id hid t ht => ?_) hw) fun _ t _ ht => .pure _ ht)
  refine runJob_keeps hE hl hprogress ?_ ht
  obtain ⟨j, hj, rfl⟩ := List.mem_map.1 hid
  rw [← hw]
  exact List.mem_map.2 ⟨j.outline, List.mem_map_of_mem (List.mem_of_mem_filter hj), rfl⟩

theorem deliverShipment_keeps {multipliers : MultiplierTable} {cfg : LogisticsConfig} {sh : Shipment}
    (hcompany : sh.company ∈ l.companies) (hw : s.world.outline = l) :
    (deliverShipment multipliers cfg sh).Keeps (·.world.outline = l) E s := by
  have hmark (t : Account) (ht : t.world.outline = l) :
      (do
        Account.onWorld (modify fun w => w.modifyShipment sh.id fun s => { s with status := .delivered })
        return sh.id : Action Account ShipmentId).Keeps (·.world.outline = l) E t := by
    refine Action.Keeps.bind (.zoom (.modify ?_)) fun _ u _ hu => .pure _ hu
    exact (World.outline_modifyShipment (fun s => { s with status := .delivered }) fun _ => rfl).trans ht
  refine Action.Keeps.bind (.zoom (addStock_keeps hE hw)) fun _ t _ ht => ?_
  refine .lift_bind ht (fun e he => hE e (deliveryFee_error he)) fun fee _ => ?_
  split
  · have hfound := World.company_found hl ht hcompany
    refine Action.Keeps.bind (Action.Keeps.bind (.zoom (changeCash_keeps hE ht hfound)) fun _ u _ hu => ?_)
      fun _ u _ hu => hmark u hu
    exact recordOutflow_keeps hE hu
  · exact hmark t ht

theorem advanceShipments_keeps {tick : Tick} {multipliers : MultiplierTable} {cfg : LogisticsConfig}
    (hw : s.world.outline = l) :
    (advanceShipments tick multipliers cfg).Keeps (·.world.outline = l) E s := by
  refine .get_bind hw (.mapM (fun sh hsh t ht => deliverShipment_keeps hE hl ?_ ht) hw)
  have hmem : sh.outline ∈ l.shipments := by
    rw [← hw]
    exact List.mem_map_of_mem (List.mem_of_mem_filter hsh)
  exact hl.shipment sh.outline hmem

theorem payDelivery_keeps {c : Contract} {q : Quantity} {value : Cents} (hpriced : c.Unpayable → E .undefined)
    (hw : s.world.outline = l) (hc : c.outline ∈ l.contracts) :
    (payDelivery c q value).Keeps (·.world.outline = l) E s := by
  obtain ⟨hseller, hbuyer⟩ := hl.contract c.outline hc
  have hseller := World.company_found hl hw hseller
  unfold payDelivery
  split
  · next buyer hparty =>
    have hbuyer := World.company_found hl hw (hbuyer buyer hparty)
    have hnegative (hprice : c.price.toInt < 0) : E .undefined := hpriced (by rwa [Contract.Unpayable, hparty])
    refine .zoom ((settle_keeps hE hw Int64.lt_irrefl hnegative hbuyer hseller).bind fun _ w₁ _ h₁ => ?_)
    exact addStock_keeps hE h₁
  · refine Action.Keeps.bind (.zoom (Action.Keeps.bind (.modify hw) fun _ w₁ hpool h₁ => ?_)) fun _ t _ ht => ?_
    · obtain rfl := Action.modify_ok.1 hpool
      exact changeCash_keeps hE h₁ hseller
    · exact recordInflow_keeps hE ht

theorem settleContract_keeps {tick : Tick} {id : ContractId}
    (hpriced : ∀ c ∈ l.contracts, c.id = id → c.Unpayable → E .undefined)
    (hid : id ∈ l.contracts.map key) (hw : s.world.outline = l) :
    (settleContract tick id).Keeps (·.world.outline = l) E s := by
  obtain ⟨c, hget, hc, -⟩ := World.contract_found hl hw hid
  have hpriced (hc' : c.Unpayable) : E .undefined := hpriced c.outline hc (Roster.key_of_get? hget) hc'
  refine .get_bind hw (.known_bind (Roster.require_ok.2 hget) (.lift_bind hw (fun e he => ?_) fun q _ => ?_))
  · obtain ⟨rfl, hnone, hprice⟩ := deliverable_error he
    exact hpriced (by rwa [Contract.Unpayable, hnone])
  · split
    · exact .pure _ hw
    · refine .lift_bind hw (fun e he => hE e (notional_error he)) fun value _ => ?_
      refine Action.Keeps.bind (.zoom (removeStock_keeps hE hw)) fun _ t _ ht => ?_
      refine (payDelivery_keeps hE hl hpriced ht hc).bind fun _ u _ hu => ?_
      refine Action.Keeps.bind (.zoom (.modify ?_)) fun _ v _ hv => .pure _ hv
      exact (World.outline_modifyContract (·.deliver q) fun _ => rfl).trans hu

omit hE hl in
theorem World.mem_outline_of_open {w : World} {i : ContractId} (hi : i ∈ w.openContracts) :
    i ∈ w.outline.contracts.map key := by
  obtain ⟨c, hc, rfl⟩ := List.mem_map.1 hi
  exact List.mem_map.2 ⟨c.outline, List.mem_map_of_mem (List.mem_filter.1 hc).1, rfl⟩

theorem settleContracts_keeps {tick : Tick}
    (hpriced : ∀ c ∈ s.world.contracts, c.status.isOpen → c.Unpayable → E .undefined)
    (hw : s.world.outline = l) : (settleContracts tick).Keeps (·.world.outline = l) E s := by
  subst hw
  refine .get_bind rfl (Action.Keeps.bind (.mapM (fun id hid t ht => ?_) rfl) fun _ t _ ht => .pure _ ht)
  refine settleContract_keeps hE hl (fun c hc hkey => ?_) (World.mem_outline_of_open hid) ht
  obtain ⟨k, hk, rfl⟩ := List.mem_map.1 hid
  obtain ⟨hk, hopen⟩ := List.mem_filter.1 hk
  obtain rfl := hl.contracts.eq_of_key_eq hc (List.mem_map_of_mem hk) hkey
  exact hpriced k hk hopen

omit hE hl in
/-- No phase before the settlement of contracts touches one. -/
theorem contracts_unsettled {cfg : EngineConfig} {tick : Tick} {window : UInt64} {multipliers : MultiplierTable}
    {s s₁ s₄ : Account} {w₂ w₃ : World} {flows : CashFlows} {trades : List Trade} {production : ProductionSummary}
    {delivered : List ShipmentId} (hbots : (supplyBots cfg.bots).run s = .ok () s₁)
    (hclear : (clearMarkets tick).run s₁.world = .ok trades w₂)
    (hproduction : (runProduction multipliers cfg.production).run (w₂.retainRecentTrades tick window) =
      .ok production w₃)
    (hdelivered : (advanceShipments tick multipliers cfg.logistics).run ⟨w₃, flows⟩ = .ok delivered s₄) :
    s₄.world.contracts = s.world.contracts := by
  rw [advanceShipments_frame hdelivered, runProduction_frame hproduction, World.retainRecentTrades,
    clearMarkets_frame hclear, (supplyBots_moved hbots).frame]

theorem runPhases_keeps {tick : Tick} {cfg : EngineConfig}
    (hprogress : ∀ i, Decimal.mul? cfg.production.baseProgressPerTick.toNat
      ((companyMultipliers s.world cfg.workforce).of i).operations = none → E .undefined)
    (hpriced : ¬ s.world.Payable → E .undefined)
    (hw : s.world.outline = l) : (runPhases tick cfg).Keeps (·.world.outline = l) E s := by
  refine (supplyBots_keeps hE hl hw).bind fun _ s₁ hbots h₁ => .get_bind h₁ ?_
  have hmoved := supplyBots_moved hbots
  have hasks (o : Order) (ho : o ∈ s₁.world.orders) (hopen : o.isOpen) (hside : o.side = .sell)
      (hprice : o.price.toInt < 0) : E .undefined := by
    rw [hmoved.frame] at ho
    exact hpriced fun hpayable => Int.not_lt.2 (hpayable.asks o ho hopen hside) hprice
  refine Action.Keeps.bind (.zoom (clearMarkets_keeps hE hl hasks h₁)) fun trades s₂ hclear h₂ => ?_
  refine Action.Keeps.bind (.zoom (.modify h₂)) fun _ s₃ hretain h₃ => ?_
  refine Action.Keeps.bind (.zoom (runProduction_keeps hE hl ?_ h₃)) fun production s₄ hproduction h₄ => ?_
  · rw [companyMultipliers_moved hmoved]
    exact hprogress
  refine (advanceShipments_keeps hE hl h₄).bind fun delivered s₅ hdelivered h₅ => ?_
  refine Action.Keeps.bind (settleContracts_keeps hE hl ?_ h₅) fun deliveries s₆ _ h₆ => .pure _ h₆
  obtain ⟨w₂, hfilled, rfl⟩ := Account.onWorld_ok.1 hclear
  obtain ⟨w₃, hretained, rfl⟩ := Account.onWorld_ok.1 hretain
  obtain ⟨w₄, hworked, rfl⟩ := Account.onWorld_ok.1 hproduction
  obtain rfl := Action.modify_ok.1 hretained
  rw [contracts_unsettled hbots hfilled hworked hdelivered]
  exact fun c hc hopen hunpayable => hpriced fun hpayable => hpayable.contracts c hc hopen hunpayable

omit hl in
theorem moveClock_keeps {tick : Tick} (hw : w.outline = l) :
    (moveClock tick).Keeps (·.outline = l) E w := by
  refine Action.Keeps.bind (.modify hw) fun _ w₁ _ h₁ => .update h₁ (fun t h => ?_) fun e he => ?_
  · obtain ⟨v, -, h⟩ := Check.bind_ok.1 (Action.update_ok.1 h)
    rw [Check.pure_ok.1 h]
    exact h₁
  · exact hE e (isShortage_of_figure he)

theorem stepAccount_keeps {cfg : EngineConfig}
    (hprogress : ∀ i, Decimal.mul? cfg.production.baseProgressPerTick.toNat
      ((companyMultipliers s.world cfg.workforce).of i).operations = none → E .undefined)
    (hpriced : ¬ s.world.Payable → E .undefined)
    (hw : s.world.outline = l) : (stepAccount cfg).Keeps (·.world.outline = l) E s := by
  refine .get_bind hw (.lift_bind hw (fun e he => hE e (isShortage_of_overflow he)) fun tick _ => ?_)
  refine .lift_bind hw (fun e he => hE e (isShortage_of_overflow he)) fun before _ => ?_
  refine (runPhases_keeps hE hl hprogress hpriced hw).bind fun o t _ ht => ?_
  refine Action.Keeps.bind (.zoom (moveClock_keeps hE ht)) fun _ u _ hu => .get_bind hu ?_
  refine .lift_bind hu (fun e he => hE e (isShortage_of_overflow he)) fun after _ => ?_
  exact .lift_bind hu (fun e he => hE e (driftOf_error he)) fun drift _ => .pure _ hu

/-- A tick keeps the outline, also when it fails. It fails for want of money or goods, with a sum that is no
word, or without a result where the progress of a job or a payment is without one. -/
theorem step_keeps {cfg : EngineConfig}
    (hprogress : ∀ i, Decimal.mul? cfg.production.baseProgressPerTick.toNat
      ((companyMultipliers w cfg.workforce).of i).operations = none → E .undefined)
    (hpriced : ¬ w.Payable → E .undefined)
    (hw : w.outline = l) : (step cfg).Keeps (·.outline = l) E w :=
  .zoom (stepAccount_keeps hE hl hprogress hpriced hw)

end

/-- A request that makes no sense: it is refused, it meets a wrong state, or what it names is not there. -/
def Failure.isRefusal : Failure → Bool
  | .invalidRequest _ | .invalidState _ | .notFound _ _ => true
  | _ => false

theorem Failure.not_isRefusal_of_isShortage {e : Failure} (h : e.isShortage) : ¬ e.isRefusal := by
  cases e <;> simp [isShortage, isRefusal] at h ⊢

/-- Everything is found under its identifier, and so is everything that a tick is referred to. -/
structure World.Resolves (w : World) : Prop where
  company : ∀ c ∈ w.companies, w.companies.get? c.id = some c
  order : ∀ o ∈ w.orders, w.orders.get? o.id = some o ∧ ∃ c, w.companies.get? o.company = some c
  job : ∀ j ∈ w.jobs, w.jobs.get? j.id = some j ∧ (∃ c, w.companies.get? j.company = some c) ∧
    (∃ r, w.recipes.get? j.recipe = some r) ∧ ∃ b, w.buildings.get? j.building = some b
  shipment : ∀ s ∈ w.shipments, w.shipments.get? s.id = some s ∧ ∃ c, w.companies.get? s.company = some c
  contract : ∀ c ∈ w.contracts, w.contracts.get? c.id = some c ∧
    (∃ s, w.companies.get? c.seller = some s) ∧ ∀ buyer ∈ c.buyer, ∃ b, w.companies.get? buyer = some b

/-- What a tick that returns leaves of a world, under any settings: when it fails, all that it changed before. -/
inductive Ticked (w : World) : World → Prop
  | ok {cfg : EngineConfig} {r : TickReport × List Trade} {w' : World} (h : (step cfg).run w = .ok r w') :
      Ticked w w'
  | failed {cfg : EngineConfig} {e : Failure} {w' : World} (h : (step cfg).run w = .error e w')
      (he : e ≠ .undefined) : Ticked w w'

namespace World

variable {w w' : World} {l : Outline}

theorem resolves_of_closed (hl : w.outline.Closed) : w.Resolves where
  company := by
    intro c hc
    have hcompanies := hl.companies
    rw [outline, List.map_map] at hcompanies
    exact Roster.get?_of_mem (show w.companies.Ascending from hcompanies) hc
  order := by
    intro o ho
    refine ⟨Roster.get?_of_mem (orders_ascending hl rfl) ho, company_found hl rfl ?_⟩
    exact hl.order o.outline (List.mem_map_of_mem ho)
  job := by
    intro j hj
    have hmem : j.outline ∈ w.outline.jobs := List.mem_map_of_mem hj
    have hascending : w.jobs.Ascending := (Roster.ascending_map Job.outline fun _ => rfl).1 hl.jobs
    obtain ⟨k, hk, hfound⟩ := job_found hl rfl (List.mem_map.2 ⟨j.outline, hmem, rfl⟩)
    have hget := Roster.get?_of_mem hascending hj
    obtain rfl : j = k := Option.some_inj.1 (hget.symm.trans hk)
    exact ⟨hget, hfound⟩
  shipment := fun s hs => shipment_found hl rfl hs
  contract := by
    intro c hc
    have hmem : c.outline ∈ w.outline.contracts := List.mem_map_of_mem hc
    have hascending : w.contracts.Ascending :=
      (Roster.ascending_map Contract.outline fun _ => rfl).1 hl.contracts
    obtain ⟨k, hk, -, hfound⟩ := contract_found hl rfl (List.mem_map.2 ⟨c.outline, hmem, rfl⟩)
    have hget := Roster.get?_of_mem hascending hc
    obtain rfl : c = k := Option.some_inj.1 (hget.symm.trans hk)
    exact ⟨hget, hfound⟩

/-- A tick from a closed outline fails with no refusal and keeps the outline. -/
theorem step_unrefused (hl : w.outline.Closed) (cfg : EngineConfig) :
    (step cfg).Keeps (·.outline = w.outline) (fun e => ¬ e.isRefusal) w := by
  have hundefined : ¬ Failure.undefined.isRefusal := by decide
  exact step_keeps (fun _ he => Failure.not_isRefusal_of_isShortage he) hl (fun _ _ => hundefined)
    (fun _ => hundefined) rfl

theorem outline_ticked (hl : w.outline.Closed) (h : Ticked w w') : w'.outline = w.outline := by
  cases h with
  | @ok cfg r _ h => exact (step_unrefused hl cfg).ok r w' h
  | @failed cfg e _ h _ => exact ((step_unrefused hl cfg).error e w' h).1

theorem outline_ticks (hl : w.outline.Closed) (h : Relation.ReflTransGen Ticked w w') :
    w'.outline = w.outline := by
  induction h with
  | refl => rfl
  | tail _ hlast ih => exact (outline_ticked (ih ▸ hl) hlast).trans ih

end World

/-- The trades of a tick are made at prices that the limits of their bids allow. -/
theorem step_prices {w w' : World} {cfg : EngineConfig} {report : TickReport} {trades : List Trade}
    (hw : w.orders.Ascending) (h : (step cfg).run w = .ok (report, trades) w') :
    ∀ t ∈ trades, ∃ bid, w.orders.get? t.buyOrder = some bid ∧ bid.side = .buy ∧ t.price ≤ bid.price := by
  obtain ⟨tick, before, after, drift, o, t, -, -, hphases, -, -, -, -, rfl⟩ := step_ok h
  obtain ⟨s₁, w₂, w₃, s₄, hbots, hclear, -⟩ := runPhases_ok hphases
  obtain ⟨w₁, hfills, -⟩ := clearMarkets_ok.1 hclear
  have horders : s₁.world.orders = w.orders := by rw [(supplyBots_moved hbots).frame]
  intro t ht
  obtain ⟨m, hm, i, rfl⟩ := (fills_recorded hfills).exists_of_mem ht
  obtain ⟨bid, hbid, hside, -, hlimit, -⟩ := (answered_of_mem_matchList (horders ▸ hw) hm).bid
  refine ⟨bid, horders ▸ hbid, hside, ?_⟩
  rw [hlimit]
  exact Book.price_le_of_mem_fills (World.fill_of_mem_matchList hm)

/-- In a world that the check of snapshots accepts, ticks never meet anything that is not there: after any number
of them, failed ones included, everything is found that a phase looks up, no match is above the limit of its bid,
and the next tick is stopped by no refusal. -/
theorem ticks_find_everything {w w' : World} (hw : w.check = .ok ()) (h : Relation.ReflTransGen Ticked w w') :
    w'.Resolves ∧ (∀ m ∈ w'.matchList, Answered w' m.1 m.2 ∧ m.2.price ≤ m.2.bidPrice) ∧
      ∀ cfg : EngineConfig, (∀ e v, (step cfg).run w' = .error e v → ¬ e.isRefusal) ∧
        ∀ report trades v, (step cfg).run w' = .ok (report, trades) v → ∀ t ∈ trades,
          ∃ bid, w'.orders.get? t.buyOrder = some bid ∧ bid.side = .buy ∧ t.price ≤ bid.price := by
  have hclosed : w'.outline.Closed := by
    rw [World.outline_ticks (World.closed_of_check hw) h]
    exact World.closed_of_check hw
  have horders := World.orders_ascending hclosed rfl
  refine ⟨World.resolves_of_closed hclosed, fun m hm => ⟨answered_of_mem_matchList horders hm, ?_⟩,
    fun cfg => ⟨fun e v hfail => ?_, fun report trades v hok => step_prices horders hok⟩⟩
  · exact Book.price_le_of_mem_fills (World.fill_of_mem_matchList hm)
  · exact ((World.step_unrefused hclosed cfg).error e v hfail).2

/-- The busy world with a smith who is a bot in debt and a mine that can receive nothing more. -/
def indebtedWorld (cash : Cents) : World :=
  { busyWorld with
    companies := [⟨⟨6⟩, "mine", .maxValue, 0, false⟩, ⟨⟨7⟩, "smith", cash, 116, true⟩] }

/-- Every tick of the indebted world gives the smith its cash and fails with the payment of the first match; the
busy world's tick makes a trade. Nothing is missing in either. -/
theorem ticks_find_everything_indebted : (indebtedWorld (-200)).check = .ok () ∧
    Ticked (indebtedWorld (-200)) (indebtedWorld (-150)) ∧ (indebtedWorld (-150)).Resolves ∧
    (∃ v, (step busyConfig).run (indebtedWorld (-150)) = .error (.overflow .sellerCash) v ∧
      ¬ (Failure.overflow .sellerCash).isRefusal) ∧
    busyWorld.check = .ok () ∧ ∃ report trades v,
      (step busyConfig).run busyWorld = .ok (report, trades) v ∧ trades ≠ [] ∧ ∀ t ∈ trades,
        ∃ bid, busyWorld.orders.get? t.buyOrder = some bid ∧ bid.side = .buy ∧ t.price ≤ bid.price := by
  have hindebted : (indebtedWorld (-200)).check = .ok () := by decide +kernel
  have hbusy : busyWorld.check = .ok () := by decide +kernel
  have hfails (cash : Cents) (h : ((step busyConfig).outcome (indebtedWorld cash)).map (·.1.1.tick) =
      .error (.overflow .sellerCash)) :
      ∃ w', (step busyConfig).run (indebtedWorld cash) = .error (.overflow .sellerCash) w' :=
    Action.outcome_error.1 (Check.map_error.1 h)
  have hticked : Ticked (indebtedWorld (-200)) (indebtedWorld (-150)) := by
    obtain ⟨w', hfirst⟩ := hfails (-200) (by decide +kernel)
    have hleft : (match (step busyConfig).run (indebtedWorld (-200)) with
        | .ok _ w => w
        | .error _ w => w) = indebtedWorld (-150) := by decide +kernel
    rw [hfirst] at hleft
    exact hleft ▸ .failed hfirst (by decide)
  obtain ⟨hresolves, -, hnext⟩ := ticks_find_everything hindebted (.single hticked)
  obtain ⟨v, hsecond⟩ := hfails (-150) (by decide +kernel)
  refine ⟨hindebted, hticked, hresolves, ⟨v, hsecond, (hnext busyConfig).1 _ v hsecond⟩, hbusy, ?_⟩
  have htrades : ((step busyConfig).outcome busyWorld).map (fun r => decide (r.1.2 = [])) = .ok false := by
    decide +kernel
  obtain ⟨⟨⟨report, trades⟩, w'⟩, hrun, hsome⟩ := Check.map_ok.1 htrades
  have hrun := Action.outcome_ok.1 hrun
  obtain ⟨-, -, hnext⟩ := ticks_find_everything hbusy .refl
  exact ⟨report, trades, w', hrun, of_decide_eq_false hsome.symm, (hnext busyConfig).2 report trades w' hrun⟩

end Mercantile
