import Mathlib.Algebra.Order.Group.Int
import Mercantile.Proofs.Clearing
import Mercantile.Proofs.Runs

/-!
Reservations are enough. In a consistent world the reserved cash of a company covers each single order and
contract of it, so whatever is paid for their units can be paid: no match, no delivery and no cancellation
fails for want of money, goods or an entity, nor because an amount is no word. What is left are the sums
that a payment or an arrival adds to, and the end of the numbers (`reservations_suffice`). In the middle of
a pass this rests on two facts about what is still to come: reserved cash equals obligations after every
single match, and the matches that are left take no more from an order than remains of it (`Pending`).
-/

namespace Mercantile

/-- The failure is an overflow of one of these figures. -/
def Failure.IsOverflowOf (figures : List Figure) (e : Failure) : Prop := ∃ x ∈ figures, e = .overflow x

open Mercantile.Action (FailsOnly)

variable {g : Ground} {S : Standard} {w w' : World} {s s' : Account} {E : Failure → Prop}

namespace World

/-- No order owes more than its company does altogether. -/
theorem Fit.order_le_obligations (h : w.Fit g S) (hS : S.orderly) {o : Order} (ho : o ∈ w.orders)
    (i : CompanyId) : o.owedBy i ≤ w.obligations i := by
  obtain ⟨horders, hcontracts⟩ := h.owed_nonneg hS i
  have hpart := List.single_le_sum horders _ (List.mem_map_of_mem ho)
  have hrest := List.sum_nonneg hcontracts
  rw [obligations_eq_sum]
  omega

theorem Fit.contract_le_obligations (h : w.Fit g S) (hS : S.orderly) {c : Contract}
    (hc : c ∈ w.contracts) (i : CompanyId) : c.owedBy i ≤ w.obligations i := by
  obtain ⟨horders, hcontracts⟩ := h.owed_nonneg hS i
  have hpart := List.single_le_sum hcontracts _ (List.mem_map_of_mem hc)
  have hrest := List.sum_nonneg horders
  rw [obligations_eq_sum]
  omega

/-- The buyer of an open order has its whole rest set aside. -/
theorem Fit.order_covered (h : w.Fit g S) (hS : S.orderly) (hbacked : w.Backed) {o : Order}
    (ho : o ∈ w.orders) (hside : o.side = .buy) (hopen : o.status.isOpen) :
    ∃ c, w.companies.get? o.company = some c ∧ o.price.toInt * o.remaining.toNat ≤ c.reserved.toInt := by
  obtain ⟨c, hc⟩ := h.exists_company (h.order o ho).company
  have howed := h.order_le_obligations hS ho o.company
  rw [Order.owedBy_open hside hopen, if_pos rfl] at howed
  refine ⟨c, hc, ?_⟩
  rw [hbacked o.company c hc, Int.add_zero]
  exact howed

/-- The buyer of an open contract has all that is outstanding set aside. -/
theorem Fit.contract_covered (h : w.Fit g S) (hS : S.orderly) (hbacked : w.Backed) {c : Contract}
    (hc : c ∈ w.contracts) {buyer : CompanyId} (hbuyer : c.buyer = some buyer) (hopen : c.status.isOpen) :
    ∃ b, w.companies.get? buyer = some b ∧ c.price.toInt * c.outstanding.toNat ≤ b.reserved.toInt := by
  obtain ⟨b, hb⟩ := h.exists_company ((h.contract c hc).buyer buyer hbuyer)
  have howed := h.contract_le_obligations hS hc buyer
  rw [Contract.owedBy_open hopen, if_pos hbuyer] at howed
  refine ⟨b, hb, ?_⟩
  rw [hbacked buyer b hb, Int.add_zero]
  exact howed

end World

theorem addStock_failsOnly {k : StockKey} {q : Quantity} (hE : E (.overflow .inventoryQuantity)) :
    (World.addStock k q).FailsOnly E w := by
  refine .update fun e he => ?_
  simp only [Inventory.add, Check.bind_error, orFail_error, Check.pure_error, and_false, exists_false,
    or_false] at he
  exact he.2 ▸ hE

theorem allocateId_failsOnly {kind : EntityKind} (hE : E (.overflow .idSequence)) :
    (World.allocateId kind).FailsOnly E w := by
  refine .transact fun e he => ?_
  simp only [Check.bind_error, orFail_error, Check.pure_error, and_false, exists_false, or_false] at he
  exact he.2 ▸ hE

theorem fillOrder_failsOnly {id : OrderId} {o : Order} {q : Quantity} (ho : w.orders.get? id = some o)
    (hq : q ≤ o.remaining) : (fillOrder id q).FailsOnly E w := by
  have hok : (fillOrder id q).run w = .ok () _ :=
    fillOrder_ok.2 ⟨o, ho, _, UInt64.sub?_eq_some.1 (if_pos hq), rfl⟩
  exact .of_ok hok

/-- A settlement between companies that exist, of amounts that are words and not below zero, from a reserve
that suffices can only overflow cash; that of the buyer only by a refund. -/
theorem Ledger.settle_failsOnly {buyer seller : CompanyId} {reservedPrice price debited paid : Cents}
    {q : Quantity} {b c : Company} (hlimit : ¬ reservedPrice < price) (hprice : 0 ≤ price.toInt)
    (hdebited : notional reservedPrice q = .ok debited) (hpaid : notional price q = .ok paid)
    (hb : w.companies.get? buyer = some b) (hfunds : ¬ b.reserved < debited)
    (hc : w.companies.get? seller = some c) (hbuyer : paid ≠ debited → E (.overflow .buyerCash))
    (hseller : E (.overflow .sellerCash)) :
    (settle buyer seller reservedPrice price q).FailsOnly E w := by
  refine .transact fun e he => ?_
  simp only [Check.unless_error, hlimit, hdebited, hpaid, Check.bind_error, Roster.require, hb, hc,
    orFail_error, orFail_ok, hfunds, reduceCtorEq, false_and, false_or, not_false_eq_true, true_and,
    Except.ok.injEq, exists_eq_left', Int64.sub?_eq_some] at he
  rcases he with ⟨hnone, rfl⟩ | ⟨refunded, hrefunded, ⟨hover, rfl⟩ | ⟨base, -, he⟩⟩
  · exact absurd (refund_undefined hlimit hdebited hpaid hnone) (Int.not_lt.2 hprice)
  · refine hbuyer fun hsame => ?_
    have hsum : b.cash.add? refunded = some b.cash := by
      rw [Int64.add?_eq_some, hrefunded, hsame, Int.sub_self, Int.add_zero]
    rw [hsum] at hover
    cases hover
  · split at he <;>
    · simp only [Check.bind_error, Check.pure_error, Check.map_error, orFail_error, reduceCtorEq,
        and_false, exists_false, false_or, or_false] at he
      obtain ⟨_, _, ⟨-, rfl⟩ | ⟨_, -, hnone, rfl⟩⟩ := he
      · exact hseller
      · exact absurd (rest_undefined hlimit hdebited hfunds hnone) (Int.not_lt.2 hprice)

/-- What is still to be carried out of a pass: matches at positive prices that the bids allow, which
together take no more from an order than remains of it. -/
structure Pending (w : World) (ms : List (MarketKey × Fill)) : Prop where
  answered : ∀ m ∈ ms, Answered w m.1 m.2
  price : ∀ m ∈ ms, 0 < m.2.price.toInt ∧ m.2.price ≤ m.2.bidPrice
  covered : ∀ o ∈ w.orders, taken o.id (ms.map (·.2)) ≤ o.remaining.toNat

theorem pending_matchList (hfit : w.Fit g S) (hS : S.orderly) : Pending w w.matchList where
  answered := fun _ hm => answered_of_mem_matchList hfit.numbered.orders.ascending hm
  price := by
    intro m hm
    obtain ⟨o, ho, hprice⟩ := World.price_of_mem_matchList hm
    refine ⟨hprice ▸ (hfit.order o ho).price hS, ?_⟩
    exact Book.price_le_of_mem_fills (World.fill_of_mem_matchList hm)
  covered := fun _ ho => World.taken_le hfit.numbered.orders.ascending ho

namespace Pending

variable {tick : Tick} {m : MarketKey × Fill} {ms : List (MarketKey × Fill)} {t : Trade}

/-- A match takes its units off what the others were counted against. -/
theorem next (h : Pending w (m :: ms)) (hw : w.orders.Ascending)
    (hrun : (applyFill m.1 tick m.2).run w = .ok t w') : Pending w' ms where
  answered := fun m' hm' => (h.answered m' (List.mem_cons_of_mem _ hm')).kept hrun
  price := fun m' hm' => h.price m' (List.mem_cons_of_mem _ hm')
  covered := by
    intro o' ho'
    rw [(h.answered m List.mem_cons_self).applyFill_orders hw hrun] at ho'
    obtain ⟨o, ho, rfl⟩ := List.mem_map.1 ho'
    have hcovered := h.covered o ho
    rw [List.map_cons, taken_cons] at hcovered
    have hrest := Order.traded_remaining (Nat.le_trans (Nat.le_add_right _ _) hcovered)
    rw [Order.traded_id]
    omega

/-- Of a party to the next match at least its units remain. -/
theorem units_le (h : Pending w (m :: ms)) {i : OrderId} {o : Order} (ho : w.orders.get? i = some o)
    (hparty : m.2.buyOrder = i ∨ m.2.sellOrder = i) : m.2.quantity ≤ o.remaining := by
  have hid : o.id = i := Roster.key_of_get? ho
  have hcovered := h.covered o (Roster.mem_of_get? ho)
  have hunits : m.2.units o.id = m.2.quantity.toNat := if_pos (hid ▸ hparty)
  rw [List.map_cons, taken_cons, hunits] at hcovered
  rw [UInt64.le_iff_toNat_le]
  omega

/-- The buyer of the next match has its worth at the bid's price set aside. -/
theorem buyer_covered (h : Pending w (m :: ms)) (hfit : w.Fit g S) (hS : S.orderly) (hbacked : w.Backed) :
    ∃ b, w.companies.get? m.2.buyer = some b ∧
      m.2.bidPrice.toInt * m.2.quantity.toNat ≤ b.reserved.toInt := by
  have hanswered := h.answered m List.mem_cons_self
  obtain ⟨hprice, hlimit⟩ := h.price m List.mem_cons_self
  obtain ⟨bid, hbid, hbuy, hbuyer, hbidPrice, -, htradable⟩ := hanswered.bid
  have hunits := h.units_le hbid (Or.inl rfl)
  have hopen := htradable.isOpen hanswered.positive (UInt64.sub?_eq_some.1 (if_pos hunits))
  obtain ⟨b, hb, hreserved⟩ := hfit.order_covered hS hbacked (Roster.mem_of_get? hbid) hbuy hopen
  rw [hbuyer] at hb
  rw [hbidPrice] at hreserved
  have hpart : (m.2.quantity.toNat : Int) ≤ bid.remaining.toNat :=
    Int.ofNat_le.2 (UInt64.le_iff_toNat_le.1 hunits)
  rw [Int64.le_iff_toInt_le] at hlimit
  exact ⟨b, hb, Int.le_trans (Int.mul_le_mul_of_nonneg_left hpart (by omega)) hreserved⟩

/-- The next match can be paid for. -/
theorem settle_failsOnly (h : Pending w (m :: ms)) (hfit : w.Fit g S) (hS : S.orderly) (hbacked : w.Backed)
    (hbuyer : E (.overflow .buyerCash)) (hseller : E (.overflow .sellerCash)) :
    (Ledger.settle m.2.buyer m.2.seller m.2.bidPrice m.2.price m.2.quantity).FailsOnly E w := by
  obtain ⟨hprice, hlimit⟩ := h.price m List.mem_cons_self
  obtain ⟨ask, hask, -, hcompany, -, -⟩ := (h.answered m List.mem_cons_self).ask
  obtain ⟨c, hc⟩ := hfit.exists_company (hfit.order ask (Roster.mem_of_get? hask)).company
  rw [hcompany] at hc
  obtain ⟨b, hb, hworth⟩ := h.buyer_covered hfit hS hbacked
  have hcheaper := Int64.le_iff_toInt_le.1 hlimit
  have hpart : m.2.price.toInt * m.2.quantity.toNat ≤ b.reserved.toInt :=
    Int.le_trans (Int.mul_le_mul_of_nonneg_right hcheaper (Int.natCast_nonneg _)) hworth
  obtain ⟨debited, hdebited⟩ := exists_notional (by omega) hworth
  obtain ⟨paid, hpaid⟩ := exists_notional hprice hpart
  have hfunds : ¬ b.reserved < debited := by
    rw [Int64.not_lt, Int64.le_iff_toInt_le, (notional_ok.1 hdebited).2]
    exact hworth
  exact Ledger.settle_failsOnly (Int64.not_lt.2 hlimit) hprice.le hdebited hpaid hb hfunds hc (fun _ => hbuyer)
    hseller

/-- The next match can be paid for and fits its orders. -/
theorem applyFill_failsOnly (h : Pending w (m :: ms)) (hfit : w.Fit g S) (hS : S.orderly)
    (hbacked : w.Backed) :
    (applyFill m.1 tick m.2).FailsOnly
      (·.IsOverflowOf [.buyerCash, .sellerCash, .inventoryQuantity, .idSequence]) w := by
  have hanswered := h.answered m List.mem_cons_self
  obtain ⟨bid, hbid, -⟩ := hanswered.bid
  obtain ⟨ask, hask, -⟩ := hanswered.ask
  have hbidUnits := h.units_le hbid (Or.inl rfl)
  have haskUnits := h.units_le hask (Or.inr rfl)
  refine (h.settle_failsOnly hfit hS hbacked ⟨.buyerCash, by decide, rfl⟩
    ⟨.sellerCash, by decide, rfl⟩).bind fun _ w₁ hsettle => ?_
  refine (addStock_failsOnly ⟨.inventoryQuantity, by decide, rfl⟩).bind fun _ w₂ hstock => ?_
  obtain ⟨inv, -, rfl⟩ := World.addStock_ok.1 hstock
  have horders : w₁.orders = w.orders := by rw [(Ledger.settle_moved hsettle).frame]
  rw [← horders] at hbid hask
  refine (fillOrder_failsOnly (w := { w₁ with inventory := inv }) hbid hbidUnits).bind
    fun _ w₃ hfilled => ?_
  obtain ⟨_, -, left, -, rfl⟩ := fillOrder_ok.1 hfilled
  have hother : (w₁.orders.modify m.2.buyOrder (·.leave left)).get? m.2.sellOrder =
      w₁.orders.get? m.2.sellOrder := Roster.get?_modify_of_ne (fun _ => rfl) hanswered.sellOrder_ne
  refine (fillOrder_failsOnly (hother.trans hask) haskUnits).bind fun _ w₄ _ => ?_
  exact (allocateId_failsOnly ⟨.idSequence, by decide, rfl⟩).bind fun i w₅ _ => .pure _

end Pending

/-- The pass fails only with sums that overflow or at the end of the numbers. -/
theorem clearMarkets_failsOnly {tick : Tick} (hfit : w.Fit g S) (hS : S.orderly) (hbacked : w.Backed) :
    (clearMarkets tick).FailsOnly
      (·.IsOverflowOf [.buyerCash, .sellerCash, .inventoryQuantity, .idSequence]) w := by
  have hpass : (w.matchList.mapM fun m => applyFill m.1 tick m.2).FailsOnly
      (·.IsOverflowOf [.buyerCash, .sellerCash, .inventoryQuantity, .idSequence]) w :=
    FailsOnly.mapM (P := fun ms t => Pending t ms ∧ t.Fit g S ∧ (S.orderly → t.Backed))
      (fun m ms t ht => ht.1.applyFill_failsOnly ht.2.1 hS (ht.2.2 hS))
      (fun m ms t r t' ht hrun => ⟨ht.1.next ht.2.1.numbered.orders.ascending hrun,
        applyFill_kept (ht.1.answered m List.mem_cons_self) ht.2.1 ht.2.2 hrun⟩)
      ⟨pending_matchList hfit hS, hfit, fun _ => hbacked⟩
  rw [mapM_matchList] at hpass
  refine FailsOnly.get_bind ?_
  refine FailsOnly.bind (fun e t h => hpass e t (Action.map_error.2 h)) fun ts t _ => ?_
  exact (FailsOnly.modify _).bind fun _ _ _ => .pure _

/-- A contract at a positive price has an answer to how much it can deliver. -/
theorem exists_deliverable {c : Contract} (hprice : 0 < c.price.toInt) : ∃ q, deliverable w c = .ok q := by
  have hne : c.price ≠ 0 := by
    intro he
    rw [he] at hprice
    exact absurd hprice (by decide)
  cases hbuyer : c.buyer with
  | some buyer => exact ⟨_, by rw [deliverable, hbuyer]; rfl⟩
  | none => exact ⟨_, by rw [deliverable, hbuyer, affordable, if_neg hne]; rfl⟩

/-- What an open contract delivers can be paid for, by its buyer or by the market pool. -/
theorem delivery_covered {c : Contract} {q : Quantity} (hfit : w.Fit g S) (hS : S.orderly)
    (hbacked : w.Backed) (hc : c ∈ w.contracts) (hsettleable : c.Settleable)
    (hq : deliverable w c = .ok q) (hpos : q ≠ 0) :
    (∃ value, notional c.price q = .ok value) ∧ ∀ buyer, c.buyer = some buyer →
      ∃ b, w.companies.get? buyer = some b ∧ c.price.toInt * q.toNat ≤ b.reserved.toInt := by
  obtain ⟨hfits, -, hpool⟩ := deliverable_ok hq
  have hprice := (hfit.contract c hc).price hS
  have hbuyer : ∀ buyer, c.buyer = some buyer →
      ∃ b, w.companies.get? buyer = some b ∧ c.price.toInt * q.toNat ≤ b.reserved.toInt := by
    intro buyer hbuyer
    have hopen : c.status.isOpen := by
      rcases hsettleable with hopen | hzero
      · exact hopen
      · rw [hzero] at hfits
        exact absurd (UInt64.le_zero_iff.1 hfits) hpos
    obtain ⟨b, hb, hreserved⟩ := hfit.contract_covered hS hbacked hc hbuyer hopen
    have hunits : (q.toNat : Int) ≤ c.outstanding.toNat := Int.ofNat_le.2 (UInt64.le_iff_toNat_le.1 hfits)
    exact ⟨b, hb, Int.le_trans (Int.mul_le_mul_of_nonneg_left hunits hprice.le) hreserved⟩
  refine ⟨?_, hbuyer⟩
  cases hparty : c.buyer with
  | some buyer =>
      obtain ⟨b, -, hworth⟩ := hbuyer buyer hparty
      exact exists_notional hprice hworth
  | none => exact exists_notional hprice (hpool hparty hpos).2

theorem payDelivery_failsOnly {c : Contract} {q : Quantity} {value : Cents} (hfit : s.world.Fit g S)
    (hc : c.Fit g S) (hprice : 0 ≤ c.price.toInt) (hvalue : notional c.price q = .ok value)
    (hbuyer : ∀ buyer, c.buyer = some buyer → ∃ b, s.world.companies.get? buyer = some b ∧
      c.price.toInt * q.toNat ≤ b.reserved.toInt) :
    (payDelivery c q value).FailsOnly
      (·.IsOverflowOf [.sellerCash, .inventoryQuantity, .exogenousInflow]) s := by
  have hallowed (x : Figure) (hx : x ∈ [Figure.sellerCash, .inventoryQuantity, .exogenousInflow]) :
      (Failure.overflow x).IsOverflowOf [.sellerCash, .inventoryQuantity, .exogenousInflow] :=
    ⟨x, hx, rfl⟩
  obtain ⟨seller, hseller⟩ := hfit.exists_company hc.seller
  unfold payDelivery
  split
  · next buyer hparty =>
    obtain ⟨b, hb, hworth⟩ := hbuyer buyer hparty
    have hfunds : ¬ b.reserved < value := by
      rw [Int64.not_lt, Int64.le_iff_toInt_le, (notional_ok.1 hvalue).2]
      exact hworth
    refine FailsOnly.zoom ?_
    refine (Ledger.settle_failsOnly Int64.lt_irrefl hprice hvalue hvalue hb hfunds hseller
      (fun hne => absurd rfl hne) (hallowed .sellerCash (by decide))).bind fun _ _ _ => ?_
    exact addStock_failsOnly (hallowed .inventoryQuantity (by decide))
  · unfold payFromPool
    refine FailsOnly.bind ?_ fun _ _ _ => ?_
    · refine FailsOnly.zoom ((FailsOnly.modify _).bind fun _ v hpool => ?_)
      obtain rfl := Action.modify_ok.1 hpool
      refine .update fun e he => ?_
      simp only [Roster.require, hseller, Check.bind_error, orFail_error, Check.pure_error,
        reduceCtorEq, false_or, Except.ok.injEq, exists_eq_left', and_false, exists_false, or_false] at he
      exact he.2 ▸ hallowed .sellerCash (by decide)
    · refine FailsOnly.zoom (.update fun e he => ?_)
      simp only [Check.bind_error, orFail_error, Check.pure_error, and_false, exists_false, or_false] at he
      exact he.2 ▸ hallowed .exogenousInflow (by decide)

/-- A delivery fails only with sums that overflow: the goods are there, and so is the money. -/
theorem settleContract_failsOnly {tick : Tick} {id : ContractId} {c : Contract} (hfit : s.world.Fit g S)
    (hS : S.orderly) (hbacked : s.world.Backed) (hc : s.world.contracts.get? id = some c)
    (hsettleable : c.Settleable) :
    (settleContract tick id).FailsOnly
      (·.IsOverflowOf [.sellerCash, .inventoryQuantity, .exogenousInflow]) s := by
  have hmem := Roster.mem_of_get? hc
  have hcfit := hfit.contract c hmem
  obtain ⟨q, hq⟩ := exists_deliverable (w := s.world) (hcfit.price hS)
  unfold settleContract
  refine .get_bind (.lift_bind (Roster.require_ok.2 hc) (.lift_bind hq ?_))
  split
  · exact .pure _
  · next hpos =>
    obtain ⟨⟨value, hvalue⟩, hbuyer⟩ := delivery_covered hfit hS hbacked hmem hsettleable hq hpos
    obtain ⟨-, hstock, -⟩ := deliverable_ok hq
    refine .lift_bind hvalue ?_
    obtain ⟨inv, hinv⟩ : ∃ inv, s.world.inventory.remove c.sellerStock q = .ok inv :=
      ⟨_, Inventory.remove_ok.2 ⟨hstock, rfl⟩⟩
    have hremoved : (World.removeStock c.sellerStock q).run s.world = .ok () _ :=
      World.removeStock_ok.2 ⟨inv, hinv, rfl⟩
    refine FailsOnly.bind (FailsOnly.zoom (.of_ok hremoved)) fun _ t htake => ?_
    obtain ⟨w₁, hremove, rfl⟩ := Account.onWorld_ok.1 htake
    obtain ⟨inv', hinv', rfl⟩ := World.removeStock_ok.1 hremove
    have hfit₁ := hfit.removeStock hinv'
    refine (payDelivery_failsOnly (s := ⟨_, s.flows⟩) hfit₁ hcfit (hcfit.price hS).le hvalue hbuyer).bind fun _ t _ => ?_
    exact FailsOnly.bind (FailsOnly.zoom (.modify _)) fun _ _ _ => .pure _

/-- What is still to be settled is found, and may be settled. -/
theorem settleContract_found {tick : Tick} {id i : ContractId} {r : Option ContractDelivery}
    (h : (settleContract tick id).run s = .ok r s')
    (hi : ∃ c, s.world.contracts.get? i = some c) : ∃ c, s'.world.contracts.get? i = some c := by
  obtain ⟨k, hk⟩ := hi
  obtain ⟨c, q, hc, -, ⟨-, rfl⟩ | ⟨-, value, inv, t, -, -, hpay, rfl⟩⟩ := settleContract_ok h
  · exact ⟨k, hk⟩
  · have hcontracts : t.world.contracts = s.world.contracts := by rw [payDelivery_frame hpay]
    have hget : (t.world.contracts.modify id (·.deliver q)).get? i =
        if i = id then (t.world.contracts.get? id).map (·.deliver q) else t.world.contracts.get? i :=
      Roster.get?_modify fun _ => rfl
    show ∃ c, (t.world.contracts.modify id (·.deliver q)).get? i = some c
    rw [hget, hcontracts]
    split
    · exact ⟨c.deliver q, by rw [hc, Option.map_some]⟩
    · exact ⟨k, hk⟩

theorem settleContracts_failsOnly {tick : Tick} (hfit : s.world.Fit g S) (hS : S.orderly)
    (hbacked : s.world.Backed) :
    (settleContracts tick).FailsOnly
      (·.IsOverflowOf [.sellerCash, .inventoryQuantity, .exogenousInflow]) s := by
  refine .get_bind (FailsOnly.bind ?_ fun _ _ _ => .pure _)
  refine FailsOnly.mapM (P := fun ids t => (t.world.Fit g S ∧ (S.orderly → t.world.Backed)) ∧
    ∀ id ∈ ids, (∃ c, t.world.contracts.get? id = some c) ∧
      ∀ c, t.world.contracts.get? id = some c → c.Settleable)
    ?_ ?_ ⟨⟨hfit, fun _ => hbacked⟩, ?_⟩
  · intro id ids t ht
    obtain ⟨⟨c, hc⟩, hsettleable⟩ := ht.2 id List.mem_cons_self
    exact settleContract_failsOnly ht.1.1 hS (ht.1.2 hS) hc (hsettleable c hc)
  · intro id ids t r t' ht hrun
    obtain ⟨-, hsettleable⟩ := ht.2 id List.mem_cons_self
    obtain ⟨hkept, hothers⟩ := settleContract_kept hsettleable ht.1.1 ht.1.2 hrun
    refine ⟨hkept, fun i hi => ?_⟩
    obtain ⟨hfound, hi⟩ := ht.2 i (List.mem_cons_of_mem _ hi)
    exact ⟨settleContract_found hrun hfound, hothers i hi⟩
  · intro id hid
    obtain ⟨c, hc, rfl⟩ := List.mem_map.1 hid
    obtain ⟨hmem, hopen⟩ := List.mem_filter.1 hc
    have hget := Roster.get?_of_mem hfit.numbered.contracts.ascending hmem
    refine ⟨⟨c, hget⟩, fun k hk => ?_⟩
    rw [show c.id = key c from rfl, hget, Option.some_inj] at hk
    exact Or.inl (hk ▸ hopen)

theorem release_failsOnly {i : CompanyId} {c : Company} {amount : Cents}
    (hc : w.companies.get? i = some c) (hnonneg : 0 ≤ amount.toInt)
    (hfunds : amount.toInt ≤ c.reserved.toInt) (hE : E (.overflow .cash)) :
    (Ledger.release i amount).FailsOnly E w := by
  have hrefuse : ¬ (amount < 0 ∨ c.reserved < amount) := by
    rw [not_or, Int64.not_lt, Int64.not_lt, Int64.le_iff_toInt_le, Int64.le_iff_toInt_le]
    exact ⟨hnonneg, hfunds⟩
  refine .update fun e he => ?_
  simp only [Roster.require, hc, Check.bind_error, Check.unless_error, hrefuse, orFail_error,
    Check.pure_error, reduceCtorEq, false_or, false_and, not_false_eq_true, true_and, Except.ok.injEq,
    exists_eq_left', and_false, exists_false, or_false] at he
  exact he.2 ▸ hE

/-- What is set aside at a positive price for some units can be given back. -/
theorem returnReserved_failsOnly {i : CompanyId} {c : Company} {price : Cents} {q : Quantity}
    (hprice : 0 < price.toInt) (hc : w.companies.get? i = some c)
    (hcovered : price.toInt * q.toNat ≤ c.reserved.toInt) (hE : E (.overflow .cash)) :
    ((liftM (notional price q) : Action World Cents) >>= fun amount =>
      Ledger.release i amount).FailsOnly E w := by
  obtain ⟨amount, hamount⟩ := exists_notional hprice hcovered
  have hworth := (notional_ok.1 hamount).2
  refine .lift_bind hamount (release_failsOnly hc ?_ (hworth ▸ hcovered) hE)
  rw [hworth]
  exact Int.mul_nonneg hprice.le (Int.natCast_nonneg _)

/-- What is left of an open order can be given back. -/
theorem cancelOrder_failsOnly {o : Order} (hfit : w.Fit g S) (hS : S.orderly) (hbacked : w.Backed)
    (ho : o ∈ w.orders) (hopen : o.status.isOpen) :
    (cancelOrder o.id).FailsOnly (·.IsOverflowOf [.cash, .inventoryQuantity]) w := by
  have hget : w.orders.get? o.id = some o := Roster.get?_of_mem hfit.numbered.orders.ascending ho
  have hanswer : cancellableOrder w o.id = .ok o := by
    simp only [cancellableOrder, Check.bind_ok, Roster.require_ok, Check.unless_ok, Check.pure_ok]
    exact ⟨o, hget, by simp [hopen], rfl⟩
  refine .observe_bind hanswer (FailsOnly.bind ?_ fun _ _ _ => .modify _)
  unfold releaseOrder
  split
  · next hside =>
    obtain ⟨c, hc, hcovered⟩ := hfit.order_covered hS hbacked ho hside hopen
    exact returnReserved_failsOnly ((hfit.order o ho).price hS) hc hcovered ⟨.cash, by decide, rfl⟩
  · exact addStock_failsOnly ⟨.inventoryQuantity, by decide, rfl⟩

/-- What is outstanding under an open contract can be given back. -/
theorem cancelContract_failsOnly {c : Contract} (hfit : w.Fit g S) (hS : S.orderly) (hbacked : w.Backed)
    (hc : c ∈ w.contracts) (hopen : c.status.isOpen) :
    (cancelContract c.id).FailsOnly (·.IsOverflowOf [.cash]) w := by
  have hget : w.contracts.get? c.id = some c :=
    Roster.get?_of_mem hfit.numbered.contracts.ascending hc
  have hanswer : cancellableContract w c.id = .ok c := by
    simp only [cancellableContract, Check.bind_ok, Roster.require_ok, Check.unless_ok, Check.pure_ok]
    exact ⟨c, hget, by simp [hopen], rfl⟩
  refine .observe_bind hanswer (FailsOnly.bind ?_ fun _ _ _ => .modify _)
  unfold releaseContract
  split
  · next buyer hbuyer =>
    obtain ⟨b, hb, hcovered⟩ := hfit.contract_covered hS hbacked hc hbuyer hopen
    exact returnReserved_failsOnly ((hfit.contract c hc).price hS) hb hcovered ⟨.cash, by decide, rfl⟩
  · exact .pure _

/-- A world in which orders and contracts are possible ones and reserved cash is what is owed for them.
Nothing is said about where jobs are, as no payment depends on it. -/
structure World.Consistent (w : World) : Prop where
  valid : w.check = .ok ()
  issued : w.Issued
  orders : ∀ o ∈ w.orders, 0 < o.price ∧ o.remaining ≤ o.quantity ∧ (o.status = .filled ↔ o.remaining = 0)
  contracts : ∀ c ∈ w.contracts, 0 < c.price ∧ c.fulfilled ≤ c.quantity
  reserved : ∀ c ∈ w.companies, c.reserved.toInt = w.obligations c.id

theorem World.Consistent.fit (h : w.Consistent) : w.Fit w.ground ⟨False, False, True⟩ :=
  fit_of_check h.valid h.issued nofun nofun (fun _ => h.orders) fun _ => h.contracts

/-- In a consistent world, clearing, the delivery of contracts and the cancellation of anything open fail
only with the overflow of a sum, or at the end of the numbers: never for want of money, goods or an entity,
never because of the worth or the rest of an order, and never without a result. -/
theorem reservations_suffice (hw : w.Consistent) :
    (∀ (tick : Tick) (e : Failure) (w' : World), (clearMarkets tick).run w = .error e w' →
      e.IsOverflowOf [.buyerCash, .sellerCash, .inventoryQuantity, .idSequence]) ∧
    (∀ (tick : Tick) (flows : CashFlows) (e : Failure) (s' : Account),
      (settleContracts tick).run ⟨w, flows⟩ = .error e s' →
      e.IsOverflowOf [.sellerCash, .inventoryQuantity, .exogenousInflow]) ∧
    (∀ o ∈ w.orders, o.status.isOpen → ∀ (e : Failure) (w' : World),
      (cancelOrder o.id).run w = .error e w' → e.IsOverflowOf [.cash, .inventoryQuantity]) ∧
    ∀ c ∈ w.contracts, c.status.isOpen → ∀ (e : Failure) (w' : World),
      (cancelContract c.id).run w = .error e w' → e.IsOverflowOf [.cash] := by
  have hbacked := World.backed_of_reserved hw.reserved
  exact ⟨fun _ => clearMarkets_failsOnly hw.fit trivial hbacked,
    fun _ _ => settleContracts_failsOnly hw.fit trivial hbacked,
    fun _ ho hopen => cancelOrder_failsOnly hw.fit trivial hbacked ho hopen,
    fun _ hc hopen => cancelContract_failsOnly hw.fit trivial hbacked hc hopen⟩

/-- The busy world, where nobody can receive anything more. -/
def fullWorld : World :=
  { busyWorld with
    companies := [⟨⟨6⟩, "mine", .maxValue, 0, true⟩, ⟨⟨7⟩, "smith", .maxValue, 116, false⟩] }

/-- Where all cash is at its limit, the match fails with the refund, the delivery with the payment, and
both cancellations with what is given back. -/
theorem reservations_suffice_full : fullWorld.Consistent ∧
    (∃ e w', (clearMarkets 5).run fullWorld = .error e w' ∧ e = .overflow .buyerCash ∧
      e.IsOverflowOf [.buyerCash, .sellerCash, .inventoryQuantity, .idSequence]) ∧
    (∃ e s', (settleContracts 5).run ⟨fullWorld, .zero⟩ = .error e s' ∧ e = .overflow .sellerCash ∧
      e.IsOverflowOf [.sellerCash, .inventoryQuantity, .exogenousInflow]) ∧
    (∃ e w', (cancelOrder ⟨11⟩).run fullWorld = .error e w' ∧ e.IsOverflowOf [.cash, .inventoryQuantity]) ∧
    ∃ e w', (cancelContract ⟨13⟩).run fullWorld = .error e w' ∧ e.IsOverflowOf [.cash] := by
  have hworld : fullWorld.Consistent :=
    { valid := by decide +kernel
      issued := by decide +kernel
      orders := by decide +kernel
      contracts := by decide +kernel
      reserved := by decide +kernel }
  have hclear : ((clearMarkets 5).outcome fullWorld).map (·.1) = .error (.overflow .buyerCash) := by
    decide +kernel
  have hsettle : ((settleContracts 5).outcome ⟨fullWorld, .zero⟩).map (·.1) =
      .error (.overflow .sellerCash) := by decide +kernel
  have horder : ((cancelOrder ⟨11⟩).outcome fullWorld).map (·.1) = .error (.overflow .cash) := by
    decide +kernel
  have hcontract : ((cancelContract ⟨13⟩).outcome fullWorld).map (·.1) = .error (.overflow .cash) := by
    decide +kernel
  obtain ⟨w₁, hclear⟩ := Action.outcome_error.1 (Check.map_error.1 hclear)
  obtain ⟨s₂, hsettle⟩ := Action.outcome_error.1 (Check.map_error.1 hsettle)
  obtain ⟨w₃, horder⟩ := Action.outcome_error.1 (Check.map_error.1 horder)
  obtain ⟨w₄, hcontract⟩ := Action.outcome_error.1 (Check.map_error.1 hcontract)
  obtain ⟨hmatches, hdeliveries, horders, hcontracts⟩ := reservations_suffice hworld
  refine ⟨hworld, ⟨_, w₁, hclear, rfl, hmatches 5 _ w₁ hclear⟩,
    ⟨_, s₂, hsettle, rfl, hdeliveries 5 .zero _ s₂ hsettle⟩, ⟨_, w₃, horder, ?_⟩, ⟨_, w₄, hcontract, ?_⟩⟩
  · exact horders ⟨⟨11⟩, ⟨7⟩, ⟨1⟩, ⟨3⟩, .buy, 10, 10, 10, .unfilled, 3⟩ (by decide +kernel) (by decide)
      _ w₃ horder
  · exact hcontracts ⟨⟨13⟩, ⟨6⟩, some ⟨7⟩, ⟨1⟩, ⟨3⟩, 4, 0, 4, .unfulfilled, 3⟩ (by decide +kernel)
      (by decide) _ w₄ hcontract

end Mercantile
