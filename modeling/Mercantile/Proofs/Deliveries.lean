import Mercantile.Proofs.Accounting
import Mercantile.Proofs.Lifecycles
import Mercantile.Proofs.Reservations

/-!
The account of the contract pass. The contracts of a pass feed each other: what one of them delivers to its
buyer another can take from that buyer as its seller, and all that have no buyer draw on one pool. What a
contract delivers is the most that the stock of its seller and the pool allow after the contracts before it
(`Contract.most`), and `Delivered` says that a stretch of the pass changed what its deliveries add up to and
nothing else. One contract is such a stretch (`settleContract_delivered`), stretches join (`Delivered.trans`),
and the whole pass is one (`passes_of_mapM`).
-/

namespace Mercantile

/-- The stock that the goods of a contract go to, if it has a buyer. -/
def Contract.buyerStock (c : Contract) : Option StockKey :=
  c.buyer.map fun buyer => ⟨buyer, c.region, c.item⟩

section

variable {M : Type} [AddMonoid M] (f : ContractDelivery → M) (cs : Roster Contract) (p : Contract → Bool)

/-- The sum over the deliveries under contracts with `p`. -/
def totalUnder (ds : List ContractDelivery) : M :=
  ((ds.filter fun d => (cs.get? d.contract).any p).map f).sum

theorem totalUnder_nil : totalUnder f cs p [] = 0 := rfl

theorem totalUnder_append (ds es : List ContractDelivery) :
    totalUnder f cs p (ds ++ es) = totalUnder f cs p ds + totalUnder f cs p es := by
  rw [totalUnder, List.filter_append, List.map_append, List.sum_append]
  rfl

variable {f cs p}

theorem totalUnder_singleton {d : ContractDelivery} {c : Contract} (hc : cs.get? d.contract = some c) :
    totalUnder f cs p [d] = if p c then f d else 0 := by
  rw [totalUnder, List.filter_singleton, hc, Option.any_some]
  cases p c
  · rfl
  · exact List.sum_singleton

theorem totalUnder_eq_zero {ds : List ContractDelivery}
    (h : ∀ d ∈ ds, ∀ c, cs.get? d.contract = some c → ¬ p c) : totalUnder f cs p ds = 0 := by
  have hnone : (ds.filter fun d => (cs.get? d.contract).any p) = [] := by
    refine List.filter_eq_nil_iff.2 fun d hd hany => ?_
    obtain ⟨c, hc, hp⟩ := (Option.any_eq_true _ _).1 hany
    exact h d hd c hc hp
  rw [totalUnder, hnone]
  rfl

end

/-- The units that were delivered under contracts with `p`. -/
abbrev unitsUnder (cs : Roster Contract) (p : Contract → Bool) (ds : List ContractDelivery) : Nat :=
  totalUnder (fun d => d.quantity.toNat) cs p ds

/-- What was paid under contracts with `p`. -/
abbrev valueUnder (cs : Roster Contract) (p : Contract → Bool) (ds : List ContractDelivery) : Int :=
  totalUnder (fun d => d.value.toInt) cs p ds

/-- What deliveries leave of a stock. -/
def stockLeft (cs : Roster Contract) (s : Account) (k : StockKey) (ds : List ContractDelivery) : Int :=
  (s.world.inventory.quantity k).toNat + unitsUnder cs (·.buyerStock = some k) ds -
    unitsUnder cs (·.sellerStock = k) ds

/-- What deliveries leave of the market pool. -/
def poolLeft (cs : Roster Contract) (s : Account) (ds : List ContractDelivery) : Int :=
  s.world.marketPool.toInt - valueUnder cs (·.buyer = none) ds

/-- The most that a contract can deliver from a stock: what is outstanding, and without a buyer no more units
than the pool can pay for. -/
def Contract.most (c : Contract) (stock pool : Int) : Int :=
  match c.buyer with
  | some _ => min c.outstanding.toNat stock
  | none => min (min c.outstanding.toNat stock) (max pool 0 / c.price.toInt)

/-- The contract after it delivered `n` units. -/
structure Contract.Advances (n : Nat) (c c' : Contract) : Prop where
  nothing : n = 0 → c' = c
  same : c' = { c with fulfilled := c'.fulfilled, status := c'.status }
  fulfilled : c'.fulfilled.toNat = c.fulfilled.toNat + n
  noted : n ≠ 0 → c'.fulfilled.toNat ≤ c.quantity.toNat ∧
    c'.status = if c'.outstanding = 0 then .fulfilled else .partiallyFulfilled

/-- A stretch of the pass that changed what its deliveries add up to. -/
structure Delivered (cs : Roster Contract) (ds : List ContractDelivery) (s s' : Account) : Prop where
  companies : List.Forall₂ (fun c c' => c.Moved (valueUnder cs (·.seller = c.id) ds)
    (valueUnder cs (·.buyer = some c.id) ds) c') s.world.companies s'.world.companies
  contracts : List.Forall₂ (fun c c' => c.Advances (unitsUnder cs (·.id = c.id) ds) c') s.world.contracts
    s'.world.contracts
  stock : ∀ k, ((s'.world.inventory.quantity k).toNat : Int) = stockLeft cs s k ds
  pool : s'.world.marketPool.toInt = poolLeft cs s ds
  inflow : s'.flows.inflow.toInt = s.flows.inflow.toInt + valueUnder cs (·.buyer = none) ds
  frame : s' = ⟨{ s.world with
    companies := s'.world.companies, contracts := s'.world.contracts
    inventory := s'.world.inventory, marketPool := s'.world.marketPool },
    { s.flows with inflow := s'.flows.inflow }⟩

variable {cs : Roster Contract} {c : Contract} {ds es : List ContractDelivery} {s t u s' : Account}
  {tick : Tick} {q : Quantity} {value : Cents}

namespace Contract.Advances

variable {n m : Nat} {c₁ c₂ c₃ : Contract}

theorem refl (c : Contract) : c.Advances 0 c := ⟨fun _ => rfl, rfl, rfl, fun h => absurd rfl h⟩

theorem trans (h : c₁.Advances n c₂) (h' : c₂.Advances m c₃) : c₁.Advances (n + m) c₃ where
  nothing := fun hnone => by
    rw [h'.nothing (Nat.eq_zero_of_add_eq_zero_left hnone), h.nothing (Nat.eq_zero_of_add_eq_zero_right hnone)]
  same := by rw [h'.same, h.same]
  fulfilled := by rw [h'.fulfilled, h.fulfilled, Nat.add_assoc]
  noted := by
    intro hsome
    by_cases hm : m = 0
    · rw [h'.nothing hm]
      exact h.noted fun hn => hsome (by rw [hn, hm])
    · have hquantity : c₂.quantity = c₁.quantity := by rw [h.same]
      rw [← hquantity]
      exact h'.noted hm

end Contract.Advances

/-- A delivery that fits the contract advances it. -/
theorem Contract.deliver_advances (hq : q ≤ c.outstanding) (hpos : q ≠ 0) :
    c.Advances q.toNat (c.deliver q) where
  nothing := fun hnone => absurd (UInt64.toNat_inj.1 hnone) hpos
  same := rfl
  fulfilled := fulfilled_deliver hq
  noted := by
    intro hsome
    refine ⟨?_, rfl⟩
    rw [fulfilled_deliver hq]
    rw [UInt64.le_iff_toNat_le, outstanding, UInt64.toNat_subSat] at hq
    omega

namespace Delivered

theorem refl (cs : Roster Contract) (s : Account) : Delivered cs [] s s where
  companies := List.forall₂_same.2 fun _ _ => ⟨rfl, (Int.add_zero _).symm, (Int.sub_zero _).symm⟩
  contracts := List.forall₂_same.2 fun c _ => .refl c
  stock := fun k => by rw [stockLeft, unitsUnder, unitsUnder, totalUnder_nil, totalUnder_nil]; omega
  pool := by rw [poolLeft, valueUnder, totalUnder_nil, Int.sub_zero]
  inflow := by rw [valueUnder, totalUnder_nil, Int.add_zero]
  frame := rfl

/-- Later deliveries go on from the stock that is left. -/
theorem stockLeft_append (h : Delivered cs ds s t) (k : StockKey) (es : List ContractDelivery) :
    stockLeft cs s k (ds ++ es) = stockLeft cs t k es := by
  have hstock := h.stock k
  simp only [stockLeft, unitsUnder, totalUnder_append] at hstock ⊢
  omega

theorem poolLeft_append (h : Delivered cs ds s t) (es : List ContractDelivery) :
    poolLeft cs s (ds ++ es) = poolLeft cs t es := by
  have hpool := h.pool
  simp only [poolLeft, valueUnder, totalUnder_append] at hpool ⊢
  omega

theorem trans (h : Delivered cs ds s t) (h' : Delivered cs es t u) : Delivered cs (ds ++ es) s u where
  companies := by
    refine forall₂_trans (fun a b c hab hbc => ?_) h.companies h'.companies
    have hid : b.id = a.id := by rw [hab.same]
    rw [hid] at hbc
    simp only [valueUnder, totalUnder_append]
    exact hab.trans hbc
  contracts := by
    refine forall₂_trans (fun a b c hab hbc => ?_) h.contracts h'.contracts
    have hid : b.id = a.id := by rw [hab.same]
    rw [hid] at hbc
    simp only [unitsUnder, totalUnder_append]
    exact hab.trans hbc
  stock := fun k => by rw [h.stockLeft_append, h'.stock]
  pool := by rw [h.poolLeft_append, h'.pool]
  inflow := by
    rw [h'.inflow, h.inflow, Int.add_assoc]
    exact congrArg _ (totalUnder_append _ _ _ ds es).symm
  frame := by rw [h'.frame, h.frame]

theorem companies_ascending (h : Delivered cs ds s s') (hs : s.world.companies.Ascending) :
    s'.world.companies.Ascending := by
  have hkeys : s'.world.companies.keys = s.world.companies.keys := by
    rw [Roster.keys, Roster.keys, ← List.forall₂_eq_eq_eq, List.forall₂_map_left_iff, List.forall₂_map_right_iff]
    refine h.companies.flip.imp fun c' c hmoved => ?_
    rw [hmoved.same]
    rfl
  rw [Roster.Ascending, hkeys]
  exact hs

end Delivered

theorem affordable_exact {pool price : Cents} {n : Quantity} (hprice : 0 < price.toInt)
    (h : affordable pool price = .ok n) : (n.toNat : Int) = max pool.toInt 0 / price.toInt := by
  have hne : price ≠ 0 := by
    rintro rfl
    exact absurd hprice (by decide)
  have hpool : 0 ≤ max pool.toInt 0 := Int.le_max_right _ _
  have hnonneg := Int.ediv_nonneg hpool hprice.le
  have hle := Int.ediv_le_self price.toInt hpool
  have hbound := pool.toInt_lt
  rw [affordable, if_neg hne, Except.ok.injEq] at h
  cases hm : UInt64.ofNat? (max pool.toInt 0 / price.toInt).toNat with
  | none =>
      have hsize := UInt64.ofNat?_eq_none.1 hm
      have hwide : (UInt64.size : Int) = 2 ^ 64 := rfl
      omega
  | some m =>
      rw [hm, Option.getD_some] at h
      rw [← h, UInt64.ofNat?_eq_some.1 hm, Int.toNat_of_nonneg hnonneg]

/-- A contract at a positive price delivers the most that it can. -/
theorem deliverable_most {w : World} (hprice : 0 < c.price.toInt) (h : deliverable w c = .ok q) :
    (q.toNat : Int) = c.most (w.inventory.quantity c.sellerStock).toNat w.marketPool.toInt := by
  unfold deliverable at h
  rw [Contract.most]
  cases hbuyer : c.buyer with
  | some buyer =>
      rw [hbuyer] at h
      rw [Check.pure_ok.1 h, UInt64.toNat_min]
      dsimp only
      omega
  | none =>
      rw [hbuyer] at h
      obtain ⟨n, hn, hq⟩ := Check.bind_ok.1 h
      rw [Check.pure_ok.1 hq, ← affordable_exact hprice hn, UInt64.toNat_min, UInt64.toNat_min]
      dsimp only
      omega

/-- What the payment for a delivery changes. -/
structure Pays (c : Contract) (q : Quantity) (value : Cents) (s s' : Account) : Prop where
  companies : List.Forall₂ (fun x x' => x.Moved (if c.seller = x.id then value.toInt else 0)
    (if c.buyer = some x.id then value.toInt else 0) x') s.world.companies s'.world.companies
  stock : ∀ k, (s'.world.inventory.quantity k).toNat =
    (s.world.inventory.quantity k).toNat + if c.buyerStock = some k then q.toNat else 0
  pool : s'.world.marketPool.toInt = s.world.marketPool.toInt - if c.buyer = none then value.toInt else 0
  inflow : s'.flows.inflow.toInt = s.flows.inflow.toInt + if c.buyer = none then value.toInt else 0
  frame : s' = ⟨{ s.world with
    companies := s'.world.companies, inventory := s'.world.inventory, marketPool := s'.world.marketPool },
    { s.flows with inflow := s'.flows.inflow }⟩

theorem payDelivery_pays (hs : s.world.companies.Ascending) (hprice : 0 < c.price.toInt)
    (hvalue : notional c.price q = .ok value)
    (hpool : c.buyer = none → value.toInt ≤ s.world.marketPool.toInt)
    (h : (payDelivery c q value).run s = .ok () s') : Pays c q value s s' := by
  have hworth := (notional_ok.1 hvalue).2
  rcases payDelivery_ok h with ⟨buyer, r, w₁, inv, hbuyer, hsettle, hinv, rfl⟩ |
    ⟨hnone, w₁, inflow, hcash, hinflow, rfl⟩
  · have hmoved := Ledger.settle_moved hsettle
    have hamounts := Ledger.settle_amounts hs hsettle
    have hinventory : w₁.inventory = s.world.inventory := by rw [hmoved.frame]
    have hmarket : w₁.marketPool = s.world.marketPool := by rw [hmoved.frame]
    simp only [Int.sub_self, Int.zero_mul, ite_self, Int.add_zero, ← hworth] at hamounts
    have hadded := Inventory.quantity_add hinv
    rw [hinventory] at hadded
    refine ⟨?_, fun k => ?_, ?_, ?_, ?_⟩
    · simpa only [hbuyer, Option.some_inj] using hamounts
    · simpa only [Contract.buyerStock, hbuyer, Option.map_some, Option.some_inj, @eq_comm _ k] using hadded k
    · rw [hbuyer, if_neg nofun, Int.sub_zero]
      exact congrArg Int64.toInt hmarket
    · rw [hbuyer, if_neg nofun, Int.add_zero]
    · rw [hmoved.frame]
  · obtain ⟨x, hx, cash, hsum, rfl⟩ := Ledger.changeCash_ok.1 hcash
    have hgain : x.Moved value.toInt 0 { x with cash } :=
      ⟨rfl, Int64.add?_eq_some.1 hsum, (Int.sub_zero _).symm⟩
    have hamounts := World.modifyCompany_amounts (w := { s.world with marketPool := s.world.marketPool - value })
      (f := fun x => { x with cash }) hs hx hgain
    have hnonneg := notional_nonneg hprice.le hvalue
    have hpool := hpool hnone
    refine ⟨?_, fun k => ?_, ?_, ?_, rfl⟩
    · simpa only [hnone, reduceCtorEq, if_false, ite_self] using hamounts
    · rw [Contract.buyerStock, hnone, Option.map_none, if_neg nofun, Nat.add_zero]
      rfl
    · rw [if_pos hnone]
      refine Int64.toInt_sub_of_not_lt ?_ ?_
      · exact Int64.not_lt.2 (Int64.le_iff_toInt_le.2 hnonneg)
      · exact Int64.not_lt.2 (Int64.le_iff_toInt_le.2 hpool)
    · rw [if_pos hnone]
      exact hinflow

/-- A change of one contract advances that contract only. -/
theorem Roster.Ascending.modify_advances {cs : Roster Contract} {f : Contract → Contract} {n : Nat}
    (hcs : cs.Ascending) (hc : cs.get? c.id = some c) (hf : c.Advances n (f c)) :
    List.Forall₂ (fun x x' => x.Advances (if c.id = x.id then n else 0) x') cs (cs.modify c.id f) := by
  refine hcs.forall₂_modify hc ?_ fun x hid => ?_
  · rw [if_pos rfl]
    exact hf
  · have hid : ¬ c.id = x.id := Ne.symm hid
    rw [if_neg hid]
    exact .refl x

/-- An entry of the list of deliveries. -/
structure ContractDelivery.Of (c : Contract) (tick : Tick) (d : ContractDelivery) : Prop where
  contract : d.contract = c.id
  tick : d.tick = tick
  quantity : d.quantity ≠ 0
  value : d.value.toInt = c.price.toInt * d.quantity.toNat

/-- The turn of one contract: it delivers the most that it can, and changes what its delivery adds up to. -/
theorem settleContract_delivered {r : Option ContractDelivery} (hcompanies : s.world.companies.Ascending)
    (hcontracts : s.world.contracts.Ascending) (hcs : cs.get? c.id = some c)
    (hc : s.world.contracts.get? c.id = some c) (hprice : 0 < c.price.toInt)
    (h : (settleContract tick c.id).run s = .ok r s') :
    Delivered cs r.toList s s' ∧ (∀ d ∈ r, d.Of c tick) ∧ (unitsUnder cs (·.id = c.id) r.toList : Int) =
      c.most (s.world.inventory.quantity c.sellerStock).toNat s.world.marketPool.toInt := by
  obtain ⟨c', q, hc', hq, hturn⟩ := settleContract_answer h
  obtain rfl := Option.some_inj.1 (hc.symm.trans hc')
  have hmost := deliverable_most hprice hq
  rcases hturn with ⟨⟨rfl, rfl⟩, rfl⟩ | ⟨hpos, value, inv, t, hvalue, hremove, hpay, rfl, rfl⟩
  · exact ⟨.refl cs s', nofun, hmost⟩
  · obtain ⟨hfits, -, hcover⟩ := deliverable_ok hq
    have hworth := (notional_ok.1 hvalue).2
    have hpays := payDelivery_pays (s := { s with world := { s.world with inventory := inv } }) hcompanies hprice
      hvalue (fun hnone => hworth ▸ (hcover hnone hpos).2) hpay
    have hkept : t.world.contracts = s.world.contracts := by rw [hpays.frame]
    have htotal {M : Type} [AddMonoid M] (f : ContractDelivery → M) (p : Contract → Bool) :
        totalUnder f cs p [⟨c.id, tick, q, value⟩] = if p c then f ⟨c.id, tick, q, value⟩ else 0 :=
      totalUnder_singleton hcs
    have hdelivered : Delivered cs [⟨c.id, tick, q, value⟩] s
        { t with world := t.world.modifyContract c.id (·.deliver q) } := by
      refine ⟨?_, ?_, fun k => ?_, ?_, ?_, by rw [hpays.frame]; rfl⟩
      all_goals simp only [stockLeft, poolLeft, unitsUnder, valueUnder, htotal, decide_eq_true_iff]
      · exact hpays.companies
      · have hadvanced := hcontracts.modify_advances (f := (·.deliver q)) hc (Contract.deliver_advances hfits hpos)
        rw [← hkept] at hadvanced ⊢
        exact hadvanced
      · have hadded : (t.world.inventory.quantity k).toNat = (inv.quantity k).toNat + _ := hpays.stock k
        have hremoved := Inventory.quantity_remove hremove k
        simp only [@eq_comm _ k] at hremoved
        show ((t.world.inventory.quantity k).toNat : Int) = _
        omega
      · exact hpays.pool
      · exact hpays.inflow
    refine ⟨hdelivered, ?_, ?_⟩
    · rintro d ⟨⟩
      exact ⟨rfl, rfl, hpos, hworth⟩
    · rw [← hmost]
      simp only [Option.toList_some, unitsUnder, htotal, decide_true, if_true]

/-- The deliveries of the contracts before `c`. -/
def Contract.earlier (c : Contract) (ds : List ContractDelivery) : List ContractDelivery :=
  ds.filter fun d => d.contract.toNat < c.id.toNat

/-- The contract delivers the most of what the deliveries before it left. -/
def Contract.DeliversMost (cs : Roster Contract) (s : Account) (ds : List ContractDelivery) (c : Contract) : Prop :=
  (unitsUnder cs (·.id = c.id) ds : Int) =
    c.most (stockLeft cs s c.sellerStock (c.earlier ds)) (poolLeft cs s (c.earlier ds))

theorem unitsUnder_id_eq_zero (h : ∀ d ∈ ds, d.contract ≠ c.id) : unitsUnder cs (·.id = c.id) ds = 0 := by
  refine totalUnder_eq_zero fun d hd x hx hid => h d hd ?_
  rw [← Roster.key_of_get? hx]
  exact of_decide_eq_true hid

namespace Contract.DeliversMost

/-- The first contract of a stretch finds what was there at its beginning. -/
theorem first (hds : ∀ d ∈ ds, d.contract = c.id) (hes : ∀ d ∈ es, c.id.toNat < d.contract.toNat)
    (hmost : (unitsUnder cs (·.id = c.id) ds : Int) =
      c.most (s.world.inventory.quantity c.sellerStock).toNat s.world.marketPool.toInt) :
    c.DeliversMost cs s (ds ++ es) := by
  have hnone : c.earlier (ds ++ es) = [] := by
    refine List.filter_eq_nil_iff.2 fun d hd => ?_
    rw [decide_eq_true_iff, Nat.not_lt]
    rcases List.mem_append.1 hd with hd | hd
    · rw [hds d hd]
    · exact Nat.le_of_lt (hes d hd)
  have hlater : unitsUnder cs (·.id = c.id) es = 0 :=
    unitsUnder_id_eq_zero fun d hd he => absurd (hes d hd) (by rw [he]; exact Nat.lt_irrefl _)
  have hstart := Delivered.refl cs s
  rw [DeliversMost, hnone, ← hstart.stock, ← hstart.pool, ← hmost, unitsUnder, totalUnder_append]
  exact congrArg _ (congrArg _ hlater)

/-- A later one finds what the stretch before it left. -/
theorem later (h : c.DeliversMost cs t es) (hdelivered : Delivered cs ds s t)
    (hds : ∀ d ∈ ds, d.contract.toNat < c.id.toNat) : c.DeliversMost cs s (ds ++ es) := by
  have hall : c.earlier (ds ++ es) = ds ++ c.earlier es := by
    rw [earlier, List.filter_append, List.filter_eq_self.2 fun d hd => decide_eq_true (hds d hd)]
    rfl
  have hnone : unitsUnder cs (·.id = c.id) ds = 0 :=
    unitsUnder_id_eq_zero fun d hd he => absurd (hds d hd) (by rw [he]; exact Nat.lt_irrefl _)
  rw [DeliversMost, hall, hdelivered.stockLeft_append, hdelivered.poolLeft_append, ← h, unitsUnder,
    totalUnder_append]
  exact congrArg _ ((congrArg (· + _) hnone).trans (Nat.zero_add _))

end Contract.DeliversMost

/-- What the turns of the contracts `is` delivered. -/
structure Passes (cs : Roster Contract) (tick : Tick) (is : List ContractId) (ds : List ContractDelivery)
    (s s' : Account) : Prop where
  delivered : Delivered cs ds s s'
  named : (ds.map (·.contract)).Sublist is
  entries : ∀ d ∈ ds, ∃ c, cs.get? c.id = some c ∧ d.Of c tick
  most : ∀ c, cs.get? c.id = some c → c.id ∈ is → c.DeliversMost cs s ds

/-- The turns of contracts in ascending order, each of which is there as it was when it is its turn. -/
theorem passes_of_mapM {is : List ContractId} {rs : List (Option ContractDelivery)}
    (hcompanies : s.world.companies.Ascending) (hcontracts : s.world.contracts.Ascending)
    (his : is.Pairwise fun i i' => i.toNat < i'.toNat)
    (hopen : ∀ i ∈ is, ∃ c, c.id = i ∧ cs.get? c.id = some c ∧ s.world.contracts.get? c.id = some c ∧
      0 < c.price.toInt)
    (h : (is.mapM (settleContract tick)).run s = .ok rs s') : Passes cs tick is (rs.filterMap id) s s' := by
  induction is generalizing s rs with
  | nil =>
      obtain ⟨rfl, rfl⟩ := Action.mapM_nil_ok.1 h
      exact ⟨.refl cs _, List.Sublist.refl _, nofun, nofun⟩
  | cons i is ih =>
      obtain ⟨r, t, rs, hfirst, hrest, rfl⟩ := Action.mapM_cons_ok.1 h
      obtain ⟨hless, hascending⟩ := List.pairwise_cons.1 his
      obtain ⟨c, rfl, hcs, hc, hprice⟩ := hopen _ List.mem_cons_self
      obtain ⟨hdelivered, hof, hmost⟩ := settleContract_delivered hcompanies hcontracts hcs hc hprice hfirst
      obtain ⟨g, hg, hmodify⟩ := settleContract_contracts hfirst
      have hkey (x : Contract) : key (g x) = key x := by rw [← Staged.key_terms (g x), hg, Staged.key_terms]
      have hstill : ∀ i' ∈ is, ∃ c', c'.id = i' ∧ cs.get? c'.id = some c' ∧
          t.world.contracts.get? c'.id = some c' ∧ 0 < c'.price.toInt := by
        intro i' hi'
        obtain ⟨c', rfl, hfound⟩ := hopen i' (List.mem_cons_of_mem _ hi')
        have hne : c'.id ≠ c.id := fun he => absurd (hless _ hi') (by rw [he]; exact Nat.lt_irrefl _)
        refine ⟨c', rfl, ?_⟩
        rw [hmodify, Roster.get?_modify_of_ne hkey hne]
        exact hfound
      have hpasses := ih (hdelivered.companies_ascending hcompanies) (hmodify ▸ hcontracts.modify _ hkey)
        hascending hstill hrest
      have hlist : (r :: rs).filterMap id = r.toList ++ rs.filterMap id := by cases r <;> rfl
      have hmine : ∀ d ∈ r.toList, d.contract = c.id := fun d hd => (hof d (Option.mem_toList.1 hd)).contract
      have htheirs : ∀ d ∈ rs.filterMap id, d.contract ∈ is := fun d hd =>
        hpasses.named.subset (List.mem_map_of_mem hd)
      rw [hlist]
      refine ⟨hdelivered.trans hpasses.delivered, ?_, fun d hd => ?_, fun c' hcs' hc' => ?_⟩
      · rw [List.map_append]
        cases r with
        | none => exact hpasses.named.cons _
        | some d =>
            rw [Option.toList_some, List.map_singleton, hmine d List.mem_cons_self]
            exact hpasses.named.cons_cons _
      · rcases List.mem_append.1 hd with hd | hd
        · exact ⟨c, hcs, hof d (Option.mem_toList.1 hd)⟩
        · exact hpasses.entries d hd
      · rcases List.mem_cons.1 hc' with hid | hc'
        · rw [hid, hcs] at hcs'
          obtain rfl := Option.some_inj.1 hcs'
          exact .first hmine (fun d hd => hless _ (htheirs d hd)) hmost
        · refine .later (hpasses.most c' hcs' hc') hdelivered fun d hd => ?_
          rw [hmine d hd]
          exact hless _ hc'

/-- A contract is named once at most, so its units are those of the entry. -/
theorem unitsUnder_entry {d : ContractDelivery} (hds : ds.Pairwise fun d e => d.contract.toNat < e.contract.toNat)
    (hd : d ∈ ds) (hc : cs.get? d.contract = some c) : unitsUnder cs (·.id = c.id) ds = d.quantity.toNat := by
  have hid : c.id = d.contract := Roster.key_of_get? hc
  obtain ⟨before, after, rfl⟩ := List.append_of_mem hd
  obtain ⟨-, hafter, hbefore⟩ := List.pairwise_append.1 hds
  have hnone₁ : unitsUnder cs (·.id = c.id) before = 0 := unitsUnder_id_eq_zero fun e he heq =>
    absurd (hbefore e he d List.mem_cons_self) (by rw [heq, hid]; exact Nat.lt_irrefl _)
  have hnone₂ : unitsUnder cs (·.id = c.id) after = 0 := unitsUnder_id_eq_zero fun e he heq =>
    absurd ((List.pairwise_cons.1 hafter).1 e he) (by rw [heq, hid]; exact Nat.lt_irrefl _)
  rw [unitsUnder] at hnone₁ hnone₂ ⊢
  rw [totalUnder_append, hnone₁, ← List.singleton_append, totalUnder_append, hnone₂, totalUnder_singleton hc,
    if_pos (decide_eq_true rfl), Nat.zero_add, Nat.add_zero]

theorem World.openContracts_ascending {w : World} (hw : w.contracts.Ascending) :
    w.openContracts.Pairwise fun i i' => i.toNat < i'.toNat := by
  have hkeys : (w.openContracts.map Id.toNat).Pairwise (· < ·) := by
    rw [openContracts, List.map_map]
    exact hw.sublist (List.filter_sublist.map _)
  exact List.pairwise_map.1 hkeys

/-- The contract pass, from the list that it returns. In the order of their identifiers the open contracts
deliver the most that the contracts before them left, and the list names those that delivered anything, each
once. Companies, stocks, contracts, the pool and the inflow change by what the list adds up to, and nothing else
changes. -/
theorem deliveries_accounted {ds : List ContractDelivery} {s s' : Account}
    (hcompanies : s.world.companies.Ascending) (hcontracts : s.world.contracts.Ascending)
    (hprices : ∀ c ∈ s.world.contracts, c.status.isOpen → 0 < c.price.toInt)
    (h : (settleContracts tick).run s = .ok ds s') :
    (∀ c ∈ s.world.contracts, c.status.isOpen → c.DeliversMost s.world.contracts s ds) ∧
      ds.Pairwise (fun d e => d.contract.toNat < e.contract.toNat) ∧
      (∀ d ∈ ds, ∃ c ∈ s.world.contracts, c.status.isOpen ∧ d.Of c tick ∧
        unitsUnder s.world.contracts (·.id = c.id) ds = d.quantity.toNat) ∧
      (∀ c ∈ s.world.contracts, (∀ d ∈ ds, d.contract ≠ c.id) ↔
        unitsUnder s.world.contracts (·.id = c.id) ds = 0) ∧
      Delivered s.world.contracts ds s s' := by
  obtain ⟨rs, hrs, rfl⟩ := settleContracts_answer h
  have hascending := World.openContracts_ascending hcontracts
  have hfound : ∀ i ∈ s.world.openContracts, ∃ c, c.id = i ∧ s.world.contracts.get? c.id = some c ∧
      s.world.contracts.get? c.id = some c ∧ 0 < c.price.toInt := by
    intro i hi
    obtain ⟨c, hc, rfl⟩ := List.mem_map.1 hi
    obtain ⟨hmem, hopen⟩ := List.mem_filter.1 hc
    have hget := Roster.get?_of_mem hcontracts hmem
    exact ⟨c, rfl, hget, hget, hprices c hmem hopen⟩
  have hpasses := passes_of_mapM hcompanies hcontracts hascending hfound hrs
  have hordered := List.pairwise_map.1 (hascending.sublist hpasses.named)
  have hentries : ∀ d ∈ rs.filterMap id, ∃ c ∈ s.world.contracts, c.status.isOpen ∧ d.Of c tick ∧
      unitsUnder s.world.contracts (·.id = c.id) (rs.filterMap id) = d.quantity.toNat := by
    intro d hd
    obtain ⟨c, hc, hof⟩ := hpasses.entries d hd
    have hid := hof.contract
    obtain ⟨c', hc', hsame⟩ := List.mem_map.1 (hpasses.named.subset (List.mem_map_of_mem hd))
    obtain ⟨hmem, hopen⟩ := List.mem_filter.1 hc'
    obtain rfl := hcontracts.eq_of_key_eq hmem (Roster.mem_of_get? hc) (hsame.trans hid)
    exact ⟨c', hmem, hopen, hof, unitsUnder_entry hordered hd (hid ▸ hc)⟩
  refine ⟨fun c hc hopen => ?_, hordered, hentries, fun c hc => ⟨unitsUnder_id_eq_zero, ?_⟩, hpasses.delivered⟩
  · exact hpasses.most c (Roster.get?_of_mem hcontracts hc) (List.mem_map_of_mem (List.mem_filter.2 ⟨hc, hopen⟩))
  · intro hzero d hd hid
    obtain ⟨c', hc', -, hof, hunits⟩ := hentries d hd
    obtain rfl := hcontracts.eq_of_key_eq hc' hc (hof.contract.symm.trans hid)
    exact hof.quantity (UInt64.toNat_inj.1 (hunits.symm.trans hzero))

/-- The mine sells five units of ore to the smith, who passes them on to the market. -/
def supplyChain : Account :=
  ⟨{ World.empty with
      regions := [⟨⟨1⟩, "north"⟩]
      items := [⟨⟨2⟩, "ore"⟩]
      companies := [⟨⟨3⟩, "mine", 0, 0, false⟩, ⟨⟨4⟩, "smith", 0, 10, false⟩]
      contracts := [⟨⟨5⟩, ⟨3⟩, some ⟨4⟩, ⟨1⟩, ⟨2⟩, 5, 0, 2, .unfulfilled, 0⟩,
        ⟨⟨6⟩, ⟨4⟩, none, ⟨1⟩, ⟨2⟩, 5, 0, 3, .unfulfilled, 0⟩]
      inventory := .ofBalances [⟨⟨⟨3⟩, ⟨1⟩, ⟨2⟩⟩, 7⟩]
      marketPool := 10
      nextId := 6 }, .zero⟩

/-- All five units reach the smith, and three of them the market, whose pool pays for no more. -/
theorem deliveries_accounted_chain : supplyChain.world.companies.Ascending ∧
    supplyChain.world.contracts.Ascending ∧
    (∀ c ∈ supplyChain.world.contracts, c.status.isOpen → 0 < c.price.toInt) ∧
    ∃ s', (settleContracts 1).run supplyChain = .ok [⟨⟨5⟩, 1, 5, 10⟩, ⟨⟨6⟩, 1, 3, 9⟩] s' ∧
      (∀ c ∈ supplyChain.world.contracts, c.DeliversMost supplyChain.world.contracts supplyChain
        [⟨⟨5⟩, 1, 5, 10⟩, ⟨⟨6⟩, 1, 3, 9⟩]) ∧
      Delivered supplyChain.world.contracts [⟨⟨5⟩, 1, 5, 10⟩, ⟨⟨6⟩, 1, 3, 9⟩] supplyChain s' := by
  have hcompanies : supplyChain.world.companies.Ascending := by decide +kernel
  have hcontracts : supplyChain.world.contracts.Ascending := by decide +kernel
  have hprices : ∀ c ∈ supplyChain.world.contracts, c.status.isOpen → 0 < c.price.toInt := by decide +kernel
  have hopen : ∀ c ∈ supplyChain.world.contracts, c.status.isOpen := by decide +kernel
  have hrun : ((settleContracts 1).outcome supplyChain).map (·.1) =
      .ok [⟨⟨5⟩, 1, 5, 10⟩, ⟨⟨6⟩, 1, 3, 9⟩] := by decide +kernel
  obtain ⟨⟨_, s'⟩, hrun, rfl⟩ := Check.map_ok.1 hrun
  have hrun := Action.outcome_ok.1 hrun
  obtain ⟨hmost, -, -, -, hdelivered⟩ := deliveries_accounted hcompanies hcontracts hprices hrun
  exact ⟨hcompanies, hcontracts, hprices, s', hrun, fun c hc => hmost c hc (hopen c hc), hdelivered⟩

end Mercantile
