import Mercantile.Audit
import Mercantile.Proofs.Phases

/-!
Reserved cash against obligations. `World.Covers` says how much the reserved cash of each company exceeds
what its open buy orders and its contracts as buyer still owe; in a consistent world that is nothing for
anybody (`World.Backed`). Each elementary change moves the excess of the companies it touches by an exact
amount, and an operation keeps a world backed if these amounts cancel.
-/

namespace Mercantile

/-- What the open buy orders of a company and its open contracts as buyer still owe. -/
def World.obligations (w : World) (company : CompanyId) : Int :=
  ((w.orders.filter (·.company = company)).map (·.obligation)).foldr (· + ·) 0
    + ((w.contracts.filter (·.buyer = some company)).map (·.obligation)).foldr (· + ·) 0

/-- What a company still owes for an order. -/
def Order.owedBy (i : CompanyId) (o : Order) : Int := if o.company = i then o.obligation else 0

/-- What a company still owes for a contract. -/
def Contract.owedBy (i : CompanyId) (c : Contract) : Int := if c.buyer = some i then c.obligation else 0

namespace Order

variable {i : CompanyId} {o : Order}

theorem owedBy_open (hside : o.side = .buy) (hopen : o.status.isOpen) :
    o.owedBy i = if o.company = i then o.price.toInt * o.remaining.toNat else 0 := by
  have howed : o.obligation = o.price.toInt * o.remaining.toNat := if_pos ⟨hside, hopen⟩
  rw [owedBy, howed]

theorem owedBy_sell (hside : o.side = .sell) : o.owedBy i = 0 := by
  have howed : o.obligation = 0 := if_neg (by simp [hside])
  rw [owedBy, howed, ite_self]

theorem owedBy_closed (hclosed : o.status.isOpen = false) : o.owedBy i = 0 := by
  have howed : o.obligation = 0 := if_neg (by simp [hclosed])
  rw [owedBy, howed, ite_self]

/-- Whatever remains of a buy order is still owed. -/
theorem owedBy_leave (hside : o.side = .buy) (left : Quantity) :
    (o.leave left).owedBy i = if o.company = i then o.price.toInt * left.toNat else 0 := by
  by_cases hzero : left = 0
  · have hfilled : (o.leave left).status = .filled := if_pos hzero
    have hnone : (0 : Quantity).toNat = 0 := rfl
    rw [owedBy_closed (by rw [hfilled]; rfl), hzero, hnone, Int.natCast_zero, Int.mul_zero, ite_self]
  · have hopen : (o.leave left).status.isOpen := by
      rcases o.leave_tradable left with hopen | hnone
      · exact hopen
      · exact absurd hnone hzero
    exact owedBy_open hside hopen

end Order

namespace Contract

variable {i : CompanyId} {c : Contract}

theorem owedBy_open (hopen : c.status.isOpen) :
    c.owedBy i = if c.buyer = some i then c.price.toInt * c.outstanding.toNat else 0 := by
  have howed : c.obligation = c.price.toInt * c.outstanding.toNat := if_pos hopen
  rw [owedBy, howed]

theorem owedBy_closed (hclosed : c.status.isOpen = false) : c.owedBy i = 0 := by
  have howed : c.obligation = 0 := if_neg (by simp [hclosed])
  rw [owedBy, howed, ite_self]

theorem outstanding_deliver {q : Quantity} (hq : q ≤ c.outstanding) :
    (c.deliver q).outstanding.toNat + q.toNat = c.outstanding.toNat := by
  have hfulfilled := fulfilled_deliver hq
  rw [UInt64.le_iff_toNat_le] at hq
  have hquantity : (c.deliver q).quantity = c.quantity := rfl
  rw [outstanding, UInt64.toNat_subSat] at hq ⊢
  rw [outstanding, UInt64.toNat_subSat, hfulfilled, hquantity]
  omega

/-- Whatever is outstanding after a delivery is still owed. -/
theorem owedBy_deliver (q : Quantity) : (c.deliver q).owedBy i =
    if c.buyer = some i then c.price.toInt * (c.deliver q).outstanding.toNat else 0 := by
  by_cases hzero : (c.deliver q).outstanding = 0
  · have hfulfilled : (c.deliver q).status = .fulfilled := if_pos hzero
    have hnone : (0 : Quantity).toNat = 0 := rfl
    rw [owedBy_closed (by rw [hfulfilled]; rfl), hzero, hnone, Int.natCast_zero, Int.mul_zero, ite_self]
  · have hpartial : (c.deliver q).status = .partiallyFulfilled := if_neg hzero
    exact owedBy_open (by rw [hpartial]; rfl)

end Contract

namespace World

variable {w w' : World} {d : CompanyId → Int}

theorem obligations_eq_sum (w : World) (i : CompanyId) : w.obligations i =
    (w.orders.map (Order.owedBy i)).sum + (w.contracts.map (Contract.owedBy i)).sum := by
  rw [obligations, ← List.sum_eq_foldr, ← List.sum_eq_foldr, sum_map_filter, sum_map_filter]
  rfl

/-- Each company's reserved cash is what it owes and `d` more. -/
def Covers (w : World) (d : CompanyId → Int) : Prop :=
  ∀ i c, w.companies.get? i = some c → c.reserved.toInt = w.obligations i + d i

/-- Each company's reserved cash is what it owes. -/
def Backed (w : World) : Prop := w.Covers fun _ => 0

namespace Covers

theorem backed (h : w.Covers d) (hd : ∀ i, d i = 0) : w.Backed := by
  intro i c hc
  rw [h i c hc, hd i]

theorem congr (h : w.Covers d) (hcompanies : w'.companies = w.companies) (horders : w'.orders = w.orders)
    (hcontracts : w'.contracts = w.contracts) : w'.Covers d := by
  intro i c hc
  rw [hcompanies] at hc
  rw [h i c hc, obligations, obligations, horders, hcontracts]

theorem modifyCompany (h : w.Covers d) {i : CompanyId} {c : Company} {f : Company → Company} {δ : Int}
    (hf : ∀ c, (f c).id = c.id) (hc : w.companies.get? i = some c)
    (hδ : (f c).reserved.toInt = c.reserved.toInt + δ) :
    (w.modifyCompany i f).Covers fun j => d j + if i = j then δ else 0 := by
  intro j k hk
  have hsame : (w.modifyCompany i f).obligations j = w.obligations j := rfl
  rw [World.modifyCompany, Roster.get?_modify hf] at hk
  show k.reserved.toInt = (w.modifyCompany i f).obligations j + (d j + if i = j then δ else 0)
  rw [hsame]
  split at hk
  · next hji =>
    rw [hc, Option.map_some, Option.some_inj] at hk
    rw [if_pos hji.symm, ← hk, hδ, h i c hc, hji]
    omega
  · next hji =>
    rw [if_neg (Ne.symm hji), h j k hk]
    omega

theorem appendOrder (h : w.Covers d) (o : Order) :
    { w with orders := w.orders ++ [o] }.Covers fun j => d j - o.owedBy j := by
  intro i c hc
  have hsum : { w with orders := w.orders ++ [o] }.obligations i = w.obligations i + o.owedBy i := by
    rw [obligations_eq_sum, obligations_eq_sum]
    simp only [List.map_append, List.map_cons, List.map_nil, List.sum_append, List.sum_cons,
      List.sum_nil]
    omega
  show c.reserved.toInt = { w with orders := w.orders ++ [o] }.obligations i + (d i - o.owedBy i)
  rw [h i c hc, hsum]
  omega

theorem appendContract (h : w.Covers d) (k : Contract) :
    { w with contracts := w.contracts ++ [k] }.Covers fun j => d j - k.owedBy j := by
  intro i c hc
  have hsum : { w with contracts := w.contracts ++ [k] }.obligations i =
      w.obligations i + k.owedBy i := by
    rw [obligations_eq_sum, obligations_eq_sum]
    simp only [List.map_append, List.map_cons, List.map_nil, List.sum_append, List.sum_cons,
      List.sum_nil]
    omega
  show c.reserved.toInt = { w with contracts := w.contracts ++ [k] }.obligations i + (d i - k.owedBy i)
  rw [h i c hc, hsum]
  omega

theorem modifyOrder (h : w.Covers d) {id : OrderId} {o : Order} (ho : w.orders.get? id = some o)
    (f : Order → Order) :
    (w.modifyOrder id f).Covers fun j => d j + o.owedBy j - (f o).owedBy j := by
  intro i c hc
  have hsum := Roster.sum_modify ho f (Order.owedBy i)
  have hbefore := obligations_eq_sum w i
  have hafter := obligations_eq_sum (w.modifyOrder id f) i
  have hreserved := h i c hc
  simp only [World.modifyOrder] at hafter ⊢
  omega

theorem modifyContract (h : w.Covers d) {id : ContractId} {k : Contract}
    (hk : w.contracts.get? id = some k) (f : Contract → Contract) :
    (w.modifyContract id f).Covers fun j => d j + k.owedBy j - (f k).owedBy j := by
  intro i c hc
  have hsum := Roster.sum_modify hk f (Contract.owedBy i)
  have hbefore := obligations_eq_sum w i
  have hafter := obligations_eq_sum (w.modifyContract id f) i
  have hreserved := h i c hc
  simp only [World.modifyContract] at hafter ⊢
  omega

end Covers

end World

namespace Ledger

open World (Covers)

variable {w w' : World} {d : CompanyId → Int} {i buyer seller : CompanyId} {amount : Cents} {u : Unit}

theorem reserve_covers (hw : w.Covers d) (h : (reserve i amount).run w = .ok u w') :
    w'.Covers fun j => d j + if i = j then amount.toInt else 0 := by
  obtain ⟨c, hc, -, -, reserved, hreserved, rfl⟩ := reserve_ok.1 h
  exact hw.modifyCompany (fun _ => rfl) hc hreserved

theorem release_covers (hw : w.Covers d) (h : (release i amount).run w = .ok u w') :
    w'.Covers fun j => d j + if i = j then -amount.toInt else 0 := by
  obtain ⟨c, hc, hfunds, cash, -, rfl⟩ := release_ok.1 h
  rw [not_or] at hfunds
  refine hw.modifyCompany (fun _ => rfl) hc ?_
  exact Int64.toInt_sub_of_not_lt hfunds.1 hfunds.2

theorem changeCash_covers {f : Cents → Option Cents} {figure : Figure} (hw : w.Covers d)
    (h : (changeCash i f figure).run w = .ok u w') : w'.Covers d := by
  obtain ⟨c, hc, cash, -, rfl⟩ := changeCash_ok.1 h
  have hcovers := hw.modifyCompany (f := fun c => { c with cash }) (fun _ => rfl) hc (Int.add_zero _).symm
  simpa only [ite_self, Int.add_zero] using hcovers

/-- A settlement takes from the buyer's reserved cash what was set aside for the units. -/
theorem settle_covers {reservedPrice price : Cents} {q : Quantity} {r : Settlement} (hw : w.Covers d)
    (h : (settle buyer seller reservedPrice price q).run w = .ok r w') :
    w'.Covers fun j => d j + if buyer = j then -(reservedPrice.toInt * q.toNat) else 0 := by
  obtain ⟨-, debited, paid, b, w₁, p, hdebited, -, hb, -, ⟨cash, reserved, -, hreserved, rfl⟩, hp, sellerCash,
    -, rfl⟩ := settle_ok h
  have hexact : debited.toInt = reservedPrice.toInt * q.toNat := (notional_ok.1 hdebited).2
  have hdebit := hw.modifyCompany (f := fun c => { c with cash, reserved }) (fun _ => rfl) hb hreserved
  have hpayment := hdebit.modifyCompany (f := fun c => { c with cash := sellerCash }) (fun _ => rfl) hp
    (Int.add_zero _).symm
  rw [← hexact]
  simpa only [ite_self, Int.add_zero] using hpayment

end Ledger

end Mercantile
