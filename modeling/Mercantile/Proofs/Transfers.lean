import Mercantile.Proofs.Ascending
import Mercantile.Proofs.Stocks

/-!
What the ledger's helpers do when they succeed. Each changes the company it names, at the place where the
company was found, and the amounts are the exact ones: the checks before the change rule out that a word overflows,
and where they do not, in a settlement, there is no result.
-/

namespace Int64

/-- A difference of words is the exact one where it takes a part away that is neither negative nor larger than the
whole. -/
theorem toInt_sub_of_not_lt {a b : Int64} (hb : ¬ b < 0) (hab : ¬ a < b) :
    (a - b).toInt = a.toInt - b.toInt := by
  rw [Int64.not_lt, Int64.le_iff_toInt_le] at hb hab
  have hzero : (0 : Int64).toInt = 0 := by decide
  have hlow : 0 ≤ a.toInt - b.toInt := by omega
  have hhigh : a.toInt - b.toInt < 2 ^ 63 := by
    have := a.toInt_lt
    omega
  rw [Int64.toInt_sub]
  exact Int.bmod_eq_of_le (by omega) (by omega)

/-- A part that is taken away and is no word's difference is negative. -/
theorem neg_of_sub?_eq_none {a b : Int64} (hab : ¬ a < b) (h : a.sub? b = none) : b.toInt < 0 := by
  rw [Int64.not_lt, Int64.le_iff_toInt_le] at hab
  have hrange := ofInt?_eq_none.1 h
  have hmin : Int64.minValue.toInt = -2 ^ 63 := by decide
  have hmax := a.toInt_le
  omega

/-- What lies between two words is a word. -/
theorem exists_toInt_between {a b : Int64} {n : Int} (ha : a.toInt ≤ n) (hb : n ≤ b.toInt) :
    ∃ c : Int64, c.toInt = n :=
  ⟨.ofInt n, Int64.toInt_ofInt_of_le (Int.le_trans a.minValue_le_toInt ha) (Int.lt_of_le_of_lt hb b.toInt_lt)⟩

end Int64

namespace Mercantile

theorem notional_ok {price v : Cents} {q : Quantity} : notional price q = .ok v ↔
    (q.toNat : Int) ≤ Int64.maxValue.toInt ∧ v.toInt = price.toInt * q.toNat := by
  simp only [notional, Check.bind_ok, orFail_ok, Int64.mul?_eq_some]
  constructor
  · rintro ⟨n, hn, hv⟩
    rw [Int64.ofInt?_eq_some] at hn
    exact ⟨hn ▸ n.toInt_le, hn ▸ hv⟩
  · rintro ⟨hq, hv⟩
    cases hn : Int64.ofInt? q.toNat with
    | none =>
        rcases Int64.ofInt?_eq_none.1 hn with hlt | hlt
        · have : Int64.minValue.toInt ≤ 0 := by decide
          omega
        · omega
    | some n =>
        rw [Int64.ofInt?_eq_some] at hn
        exact ⟨n, rfl, by rw [hv, hn]⟩

theorem notional_nonneg {price v : Cents} {q : Quantity} (hprice : 0 ≤ price.toInt)
    (h : notional price q = .ok v) : 0 ≤ v.toInt := by
  rw [(notional_ok.1 h).2]
  exact Int.mul_nonneg hprice (Int.natCast_nonneg _)

/-- Units are worth no more at a price that is not above. -/
theorem notional_mono {limit price a b : Cents} {q : Quantity} (hprice : ¬ limit < price)
    (ha : notional limit q = .ok a) (hb : notional price q = .ok b) : ¬ a < b := by
  rw [Int64.not_lt, Int64.le_iff_toInt_le] at hprice ⊢
  rw [(notional_ok.1 ha).2, (notional_ok.1 hb).2]
  exact Int.mul_le_mul_of_nonneg_right hprice (Int.natCast_nonneg _)

/-- Units at a positive price have a worth if some word is not below it. -/
theorem exists_notional {price v : Cents} {q : Quantity} (hprice : 0 < price.toInt)
    (h : price.toInt * q.toNat ≤ v.toInt) : ∃ d, notional price q = .ok d := by
  have hq : 1 * (q.toNat : Int) ≤ price.toInt * q.toNat :=
    Int.mul_le_mul_of_nonneg_right hprice (Int.natCast_nonneg _)
  have hnonneg : 0 ≤ price.toInt * q.toNat := Int.mul_nonneg (Int.le_of_lt hprice) (Int.natCast_nonneg _)
  have hv := v.toInt_le
  obtain ⟨d, hd⟩ := Int64.exists_toInt_between (a := 0) hnonneg h
  exact ⟨d, notional_ok.2 ⟨by omega, hd⟩⟩

/-- At most the money of companies is different, and the companies are the same ones. -/
structure World.MoneyMoved (w w' : World) : Prop where
  frame : w' = { w with companies := w'.companies }
  ids : w'.companies.map (·.id) = w.companies.map (·.id)

namespace World.MoneyMoved

variable {w w₁ w' : World}

theorem refl (w : World) : w.MoneyMoved w := ⟨rfl, rfl⟩

theorem trans (h : w.MoneyMoved w₁) (h' : w₁.MoneyMoved w') : w.MoneyMoved w' :=
  ⟨by rw [h'.frame, h.frame], h'.ids.trans h.ids⟩

/-- The companies are in the order in which they were. -/
theorem keys (h : w.MoneyMoved w') : w'.companies.keys = w.companies.keys := by
  have hnumbers := congrArg (List.map Id.toNat) h.ids
  rw [List.map_map, List.map_map] at hnumbers
  exact hnumbers

theorem modifyCompany (w : World) (i : CompanyId) {f : Company → Company} (hf : ∀ c, (f c).id = c.id) :
    w.MoneyMoved (w.modifyCompany i f) :=
  ⟨rfl, Roster.map_modify hf⟩

end World.MoneyMoved

namespace Ledger

variable {w w' : World} {i buyer seller : CompanyId} {amount : Cents} {u : Unit}

theorem reserve_ok : (reserve i amount).run w = .ok u w' ↔
    ∃ c, w.companies.get? i = some c ∧ ¬ amount < 0 ∧ ¬ c.cash < amount ∧
      ∃ reserved : Cents, reserved.toInt = c.reserved.toInt + amount.toInt ∧
        w' = w.modifyCompany i fun c => { c with cash := c.cash - amount, reserved } := by
  simp only [reserve, Action.update_ok, Check.bind_ok, Roster.require_ok, Check.unless_ok, orFail_ok,
    Int64.add?_eq_some, Check.pure_ok]

theorem release_ok : (release i amount).run w = .ok u w' ↔
    ∃ c, w.companies.get? i = some c ∧ ¬ (amount < 0 ∨ c.reserved < amount) ∧
      ∃ cash : Cents, cash.toInt = c.cash.toInt + amount.toInt ∧
        w' = w.modifyCompany i fun c => { c with cash, reserved := c.reserved - amount } := by
  simp only [release, Action.update_ok, Check.bind_ok, Roster.require_ok, Check.unless_ok, orFail_ok,
    Int64.add?_eq_some, Check.pure_ok]

theorem changeCash_ok {f : Cents → Option Cents} {figure : Figure} :
    (changeCash i f figure).run w = .ok u w' ↔
      ∃ c, w.companies.get? i = some c ∧ ∃ cash, f c.cash = some cash ∧
        w' = w.modifyCompany i fun c => { c with cash } := by
  simp only [changeCash, Action.update_ok, Check.bind_ok, Roster.require_ok, orFail_ok, Check.pure_ok]

/-- A settlement is a debit of the buyer followed by a payment to the seller, who may be the same
company. -/
theorem settle_ok {reservedPrice price : Cents} {q : Quantity} {r : Settlement}
    (h : (settle buyer seller reservedPrice price q).run w = .ok r w') :
    ¬ reservedPrice < price ∧ ∃ debited paid b w₁ s,
      notional reservedPrice q = .ok debited ∧ notional price q = .ok paid ∧
      w.companies.get? buyer = some b ∧ ¬ b.reserved < debited ∧
      (∃ cash reserved : Cents, cash.toInt = b.cash.toInt + (debited.toInt - paid.toInt) ∧
        reserved.toInt = b.reserved.toInt - debited.toInt ∧
        w₁ = w.modifyCompany buyer fun c => { c with cash, reserved }) ∧
      w₁.companies.get? seller = some s ∧
      ∃ cash : Cents, cash.toInt = s.cash.toInt + paid.toInt ∧
        w' = w₁.modifyCompany seller fun c => { c with cash } := by
  simp only [settle, Action.transact_ok, Check.unless_ok, Check.bind_ok, Roster.require_ok, orFail_ok,
    Int64.add?_eq_some, Int64.sub?_eq_some] at h
  obtain ⟨hprice, debited, hdebited, paid, hpaid, refunded, hrefunded, b, hb, hfunds, cash, hcash, h⟩ := h
  rw [hrefunded] at hcash
  split at h
  · next hself =>
    simp only [Check.bind_ok, Check.pure_ok, orFail_ok, Int64.add?_eq_some, Int64.sub?_eq_some,
      Prod.mk.injEq] at h
    obtain ⟨base, rfl, sellerCash, hseller, reserved, hreserved, -, hw'⟩ := h
    refine ⟨hprice, debited, paid, b, _, { b with cash := base, reserved }, hdebited, hpaid, hb, hfunds,
      ⟨base, reserved, hcash, hreserved, rfl⟩, ?_, sellerCash, hseller, hw'⟩
    rw [hself]
    exact Roster.get?_modify_found hb fun _ => rfl
  · next hother =>
    simp only [Check.bind_ok, Check.pure_ok, orFail_ok, Int64.add?_eq_some, Int64.sub?_eq_some,
      Prod.mk.injEq, Check.map_ok, Roster.require_ok] at h
    obtain ⟨base, ⟨s, hs, rfl⟩, sellerCash, hseller, reserved, hreserved, -, hw'⟩ := h
    refine ⟨hprice, debited, paid, b, _, s, hdebited, hpaid, hb, hfunds,
      ⟨cash, reserved, hcash, hreserved, rfl⟩, ?_, sellerCash, hseller, hw'⟩
    rw [← hs]
    exact Roster.get?_modify_of_ne (fun _ => rfl) hother

/-- A refund has a result unless the price is below zero. -/
theorem refund_undefined {reservedPrice price debited paid : Cents} {q : Quantity}
    (hlimit : ¬ reservedPrice < price) (hdebited : notional reservedPrice q = .ok debited)
    (hpaid : notional price q = .ok paid) (h : debited.sub? paid = none) : price.toInt < 0 := by
  by_contra hprice
  have hneg := Int64.neg_of_sub?_eq_none (notional_mono hlimit hdebited hpaid) h
  have hnonneg := notional_nonneg (Int.not_lt.1 hprice) hpaid
  omega

/-- What is left of a reserve that suffices has a result unless the price is below zero. -/
theorem rest_undefined {reservedPrice price debited reserved : Cents} {q : Quantity}
    (hlimit : ¬ reservedPrice < price) (hdebited : notional reservedPrice q = .ok debited)
    (hfunds : ¬ reserved < debited) (h : reserved.sub? debited = none) : price.toInt < 0 := by
  by_contra hprice
  have hneg := Int64.neg_of_sub?_eq_none hfunds h
  rw [Int64.not_lt, Int64.le_iff_toInt_le] at hlimit
  have hnonneg := notional_nonneg (by omega) hdebited
  omega

theorem reserve_moved (h : (reserve i amount).run w = .ok u w') : w.MoneyMoved w' := by
  obtain ⟨c, -, -, -, reserved, -, rfl⟩ := reserve_ok.1 h
  exact .modifyCompany w i fun _ => rfl

theorem release_moved (h : (release i amount).run w = .ok u w') : w.MoneyMoved w' := by
  obtain ⟨c, -, -, cash, -, rfl⟩ := release_ok.1 h
  exact .modifyCompany w i fun _ => rfl

theorem changeCash_moved {f : Cents → Option Cents} {figure : Figure}
    (h : (changeCash i f figure).run w = .ok u w') : w.MoneyMoved w' := by
  obtain ⟨c, -, cash, -, rfl⟩ := changeCash_ok.1 h
  exact .modifyCompany w i fun _ => rfl

theorem settle_moved {reservedPrice price : Cents} {q : Quantity} {r : Settlement}
    (h : (settle buyer seller reservedPrice price q).run w = .ok r w') : w.MoneyMoved w' := by
  obtain ⟨-, debited, paid, b, _, s, -, -, -, -, ⟨cash, reserved, -, -, rfl⟩, -, sellerCash, -, rfl⟩ :=
    settle_ok h
  refine World.MoneyMoved.trans ?_ (.modifyCompany _ seller fun _ => rfl)
  exact .modifyCompany w buyer fun _ => rfl

variable {s s' : Account}

theorem credit_ok : (credit i amount).run s = .ok u s' ↔
    ∃ w, (changeCash i (·.add? amount) .cash).run s.world = .ok () w ∧
      ∃ inflow : Cents, inflow.toInt = s.flows.inflow.toInt + amount.toInt ∧
        s' = ⟨w, { s.flows with inflow }⟩ := by
  simp only [credit, Action.bind_ok, Account.onWorld_ok, Account.onFlows_ok, CashFlows.recordInflow,
    Action.update_ok, Check.bind_ok, orFail_ok, Int64.add?_eq_some, Check.pure_ok]
  constructor
  · rintro ⟨_, _, ⟨w, hw, rfl⟩, _, ⟨inflow, hinflow, rfl⟩, rfl⟩
    exact ⟨w, hw, inflow, hinflow, rfl⟩
  · rintro ⟨w, hw, inflow, hinflow, rfl⟩
    exact ⟨(), _, ⟨w, hw, rfl⟩, _, ⟨inflow, hinflow, rfl⟩, rfl⟩

theorem charge_ok : (charge i amount).run s = .ok u s' ↔
    ∃ w, (changeCash i (·.sub? amount) .cash).run s.world = .ok () w ∧
      ∃ outflow : Cents, outflow.toInt = s.flows.outflow.toInt + amount.toInt ∧
        s' = ⟨w, { s.flows with outflow }⟩ := by
  simp only [charge, Action.bind_ok, Account.onWorld_ok, Account.onFlows_ok, CashFlows.recordOutflow,
    Action.update_ok, Check.bind_ok, orFail_ok, Int64.add?_eq_some, Check.pure_ok]
  constructor
  · rintro ⟨_, _, ⟨w, hw, rfl⟩, _, ⟨outflow, houtflow, rfl⟩, rfl⟩
    exact ⟨w, hw, outflow, houtflow, rfl⟩
  · rintro ⟨w, hw, outflow, houtflow, rfl⟩
    exact ⟨(), _, ⟨w, hw, rfl⟩, _, ⟨outflow, houtflow, rfl⟩, rfl⟩

end Ledger

end Mercantile
