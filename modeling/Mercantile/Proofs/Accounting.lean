import Mathlib.Data.List.Forall2
import Mercantile.Proofs.Clearing

/-!
The account of a clearing. Every trade moves cash, reserved cash and goods by amounts that can be read off
the trade and the limit of its bid, and `Booked` says that a stretch of the pass moved exactly what its
trades add up to; one match is such a stretch (`applyFill_booked`), and stretches join
(`Booked.trans`). With what the orders lost (`clearMarkets_orders`) this accounts for all that clearing
does: `clearing_accounted`.
-/

namespace Mercantile

/-- The units of an order that a trade is about. -/
def Trade.units (i : OrderId) (t : Trade) : Nat :=
  if t.buyOrder = i ∨ t.sellOrder = i then t.quantity.toNat else 0

/-- What a trade adds to a company's cash: the price of a sale, and of a purchase the part of the limit
that was not needed. -/
def Trade.gain (limit : OrderId → Int) (i : CompanyId) (t : Trade) : Int :=
  (if t.seller = i then t.price.toInt * t.quantity.toNat else 0)
    + if t.buyer = i then (limit t.buyOrder - t.price.toInt) * t.quantity.toNat else 0

/-- What a trade takes from a company's reserved cash: the limit of a purchase. -/
def Trade.spend (limit : OrderId → Int) (i : CompanyId) (t : Trade) : Int :=
  if t.buyer = i then limit t.buyOrder * t.quantity.toNat else 0

/-- What a trade adds to a stock. -/
def Trade.bought (k : StockKey) (t : Trade) : Nat :=
  if (⟨t.buyer, t.region, t.item⟩ : StockKey) = k then t.quantity.toNat else 0

/-- The limit of an order, by its identifier. -/
def World.limit (w : World) (i : OrderId) : Int := ((w.orders.get? i).map (·.price.toInt)).getD 0

/-- The company with other amounts of money. -/
structure Company.Moved (gain spend : Int) (c c' : Company) : Prop where
  same : c' = { c with cash := c'.cash, reserved := c'.reserved }
  cash : c'.cash.toInt = c.cash.toInt + gain
  reserved : c'.reserved.toInt = c.reserved.toInt - spend

theorem Company.Moved.trans {a b c d : Int} {x y z : Company} (h : x.Moved a b y) (h' : y.Moved c d z) :
    x.Moved (a + c) (b + d) z where
  same := by rw [h'.same, h.same]
  cash := by rw [h'.cash, h.cash, Int.add_assoc]
  reserved := by
    rw [h'.reserved, h.reserved]
    omega

/-- A stretch of the pass that moved what its trades add up to. -/
structure Booked (limit : OrderId → Int) (ts : List Trade) (w w' : World) : Prop where
  companies : List.Forall₂ (fun c c' => c.Moved (ts.map (Trade.gain limit c.id)).sum
    (ts.map (Trade.spend limit c.id)).sum c') w.companies w'.companies
  stock : ∀ k, (w'.inventory.quantity k).toNat =
    (w.inventory.quantity k).toNat + (ts.map (Trade.bought k)).sum
  nextId : w'.nextId.toNat = w.nextId.toNat + ts.length

theorem forall₂_trans {α β γ : Type} {R : α → β → Prop} {S : β → γ → Prop} {T : α → γ → Prop}
    (hT : ∀ a b c, R a b → S b c → T a c) {as : List α} {bs : List β} {cs : List γ}
    (hR : List.Forall₂ R as bs) (hS : List.Forall₂ S bs cs) : List.Forall₂ T as cs := by
  induction hR generalizing cs with
  | nil =>
      cases hS
      exact .nil
  | cons hab _ ih =>
      cases hS with
      | cons hbc hS => exact .cons (hT _ _ _ hab hbc) (ih hS)

namespace Booked

variable {limit : OrderId → Int} {ts us : List Trade} {w w₁ w' : World}

theorem refl (limit : OrderId → Int) (w : World) : Booked limit [] w w where
  companies := List.forall₂_same.2 fun _ _ => ⟨rfl, (Int.add_zero _).symm, (Int.sub_zero _).symm⟩
  stock := fun _ => rfl
  nextId := rfl

theorem trans (h : Booked limit ts w w₁) (h' : Booked limit us w₁ w') : Booked limit (ts ++ us) w w' where
  companies := by
    refine forall₂_trans (fun a b c hab hbc => ?_) h.companies h'.companies
    have hid : b.id = a.id := by rw [hab.same]
    rw [hid] at hbc
    simp only [List.map_append, List.sum_append]
    exact hab.trans hbc
  stock := by
    intro k
    rw [h'.stock, h.stock, List.map_append, List.sum_append, Nat.add_assoc]
  nextId := by rw [h'.nextId, h.nextId, List.length_append, Nat.add_assoc]

end Booked

/-- A change relates what was looked up to what it becomes, and everything else to itself. -/
theorem Roster.Ascending.forall₂_modify {α : Type} {kind : EntityKind} [Keyed α kind] {xs : Roster α}
    {R : α → α → Prop} {i : Id kind} {a : α} {f : α → α} (hxs : xs.Ascending) (ha : xs.get? i = some a)
    (hself : R a (f a)) (hothers : ∀ b, key b ≠ i → R b b) : List.Forall₂ R xs (xs.modify i f) := by
  rw [hxs.modify_eq_map, List.forall₂_map_right_iff, List.forall₂_same]
  intro b hb
  by_cases hid : key b = i
  · have hget := get?_of_mem hxs hb
    rw [hid, ha, Option.some_inj] at hget
    rw [if_pos hid, ← hget]
    exact hself
  · rw [if_neg hid]
    exact hothers b hid

/-- A change of one company's money moves that company's money only. -/
theorem World.modifyCompany_amounts {w : World} {i : CompanyId} {c : Company} {f : Company → Company}
    {gain spend : Int} (hw : w.companies.Ascending) (hc : w.companies.get? i = some c)
    (hf : c.Moved gain spend (f c)) :
    List.Forall₂ (fun c c' => c.Moved (if i = c.id then gain else 0) (if i = c.id then spend else 0) c')
      w.companies (w.modifyCompany i f).companies := by
  refine hw.forall₂_modify hc ?_ fun d hid => ?_
  · have hid : i = c.id := (Roster.key_of_get? hc).symm
    rw [if_pos hid, if_pos hid]
    exact hf
  · have hid : ¬ i = d.id := Ne.symm hid
    rw [if_neg hid, if_neg hid]
    exact ⟨rfl, (Int.add_zero _).symm, (Int.sub_zero _).symm⟩

/-- What a settlement does to each company. -/
theorem Ledger.settle_amounts {w w' : World} {buyer seller : CompanyId} {reservedPrice price : Cents}
    {q : Quantity} {r : Settlement} (hw : w.companies.Ascending)
    (h : (settle buyer seller reservedPrice price q).run w = .ok r w') :
    List.Forall₂ (fun c c' => c.Moved
      ((if seller = c.id then price.toInt * q.toNat else 0)
        + if buyer = c.id then (reservedPrice.toInt - price.toInt) * q.toNat else 0)
      (if buyer = c.id then reservedPrice.toInt * q.toNat else 0) c') w.companies w'.companies := by
  obtain ⟨-, debited, paid, b, w₁, s, hdebited, hpaid, hb, -, ⟨cash, reserved, hcash, hreserved, rfl⟩, hs,
    sellerCash, hseller, rfl⟩ := settle_ok h
  have hdebited := (notional_ok.1 hdebited).2
  have hpaid := (notional_ok.1 hpaid).2
  have hbuyer : b.Moved (debited.toInt - paid.toInt) debited.toInt { b with cash, reserved } :=
    ⟨rfl, hcash, hreserved⟩
  have hsellerMoved : s.Moved paid.toInt 0 { s with cash := sellerCash } :=
    ⟨rfl, hseller, (Int.sub_zero _).symm⟩
  have hdebit := World.modifyCompany_amounts (f := fun c => { c with cash, reserved }) hw hb hbuyer
  have hw₁ : (w.modifyCompany buyer fun c => { c with cash, reserved }).companies.Ascending :=
    hw.modify buyer fun _ => rfl
  have hpay := World.modifyCompany_amounts (f := fun c => { c with cash := sellerCash }) hw₁ hs hsellerMoved
  refine forall₂_trans (fun x y z hxy hyz => ?_) hdebit hpay
  have hid : y.id = x.id := by rw [hxy.same]
  rw [hid] at hyz
  have hmoved := hxy.trans hyz
  rw [ite_self, Int.add_zero, Int.add_comm] at hmoved
  rw [Int.sub_mul, ← hpaid, ← hdebited]
  exact hmoved

/-- The trade that records a match. -/
def Fill.trade (f : Fill) (k : MarketKey) (tick : Tick) (id : TradeId) : Trade :=
  ⟨id, tick, k.region, k.item, f.price, f.quantity, f.buyer, f.seller, f.buyOrder, f.sellOrder⟩

/-- A match is recorded under the next number. -/
theorem applyFill_recorded {w w' : World} {k : MarketKey} {tick : Tick} {f : Fill} {t : Trade}
    (h : (applyFill k tick f).run w = .ok t w') :
    t.id.toNat = w.nextId.toNat + 1 ∧ w'.nextId.toNat = w.nextId.toNat + 1 ∧ ∃ i, t = f.trade k tick i := by
  obtain ⟨r, w₁, inv, b, a, bidLeft, askLeft, hsettle, -, -, -, -, -, hid, ht, rfl⟩ := applyFill_ok h
  have hnext : w₁.nextId = w.nextId := by rw [(Ledger.settle_moved hsettle).frame]
  rw [hnext] at hid
  exact ⟨hid, hid, t.id, ht⟩

/-- One match moves what its trade adds up to. -/
theorem applyFill_booked {w w' : World} {k : MarketKey} {tick : Tick} {f : Fill} {t : Trade}
    {limit : OrderId → Int} (hw : w.companies.Ascending) (hlimit : limit f.buyOrder = f.bidPrice.toInt)
    (h : (applyFill k tick f).run w = .ok t w') :
    Booked limit [t] w w' ∧ w'.companies.Ascending := by
  obtain ⟨-, hnext, i, rfl⟩ := applyFill_recorded h
  obtain ⟨r, w₁, inv, b, a, bidLeft, askLeft, hsettle, hinv, -, -, -, -, -, -, rfl⟩ := applyFill_ok h
  have hmoved := Ledger.settle_moved hsettle
  have hamounts := Ledger.settle_amounts hw hsettle
  have hstock : w₁.inventory = w.inventory := by rw [hmoved.frame]
  have hascending : w₁.companies.Ascending := by
    rw [Roster.Ascending, hmoved.keys]
    exact hw
  rw [hstock] at hinv
  refine ⟨⟨?_, fun l => ?_, hnext⟩, hascending⟩
  · simp only [List.map_cons, List.map_nil, List.sum_cons, List.sum_nil, Int.add_zero, Trade.gain,
      Trade.spend, Fill.trade, hlimit]
    exact hamounts
  · simp only [List.map_cons, List.map_nil, List.sum_cons, List.sum_nil, Nat.add_zero, Trade.bought,
      Fill.trade, Inventory.quantity_add hinv, @eq_comm _ l]

/-- The trades record the matches, one for one, and are numbered on from the last number of the world. -/
structure Recorded (w : World) (tick : Tick) (ms : List (MarketKey × Fill)) (trades : List Trade) :
    Prop where
  matched : List.Forall₂ (fun m t => ∃ i, t = m.2.trade m.1 tick i) ms trades
  numbers : trades.map (·.id.toNat) = List.range' (w.nextId.toNat + 1) trades.length

theorem fills_recorded {ms : List (MarketKey × Fill)} {w w' : World} {tick : Tick} {trades : List Trade}
    (h : (ms.mapM fun m => applyFill m.1 tick m.2).run w = .ok trades w') : Recorded w tick ms trades := by
  induction ms generalizing w trades with
  | nil =>
      obtain ⟨rfl, rfl⟩ := Action.mapM_nil_ok.1 h
      exact ⟨.nil, rfl⟩
  | cons m ms ih =>
      obtain ⟨t, w₁, rest, hfirst, hrest, rfl⟩ := Action.mapM_cons_ok.1 h
      obtain ⟨hid, hnext, hrecord⟩ := applyFill_recorded hfirst
      obtain ⟨hmatched, hnumbers⟩ := ih hrest
      refine ⟨.cons hrecord hmatched, ?_⟩
      rw [List.map_cons, hid, hnumbers, hnext, List.length_cons, List.range'_succ]

theorem fills_booked {ms : List (MarketKey × Fill)} {w w' : World} {tick : Tick} {trades : List Trade}
    {limit : OrderId → Int} (hw : w.companies.Ascending)
    (hms : ∀ m ∈ ms, limit m.2.buyOrder = m.2.bidPrice.toInt)
    (h : (ms.mapM fun m => applyFill m.1 tick m.2).run w = .ok trades w') : Booked limit trades w w' := by
  induction ms generalizing w trades with
  | nil =>
      obtain ⟨rfl, rfl⟩ := Action.mapM_nil_ok.1 h
      exact .refl limit _
  | cons m ms ih =>
      obtain ⟨t, w₁, rest, hfirst, hrest, rfl⟩ := Action.mapM_cons_ok.1 h
      obtain ⟨hbooked, hw₁⟩ := applyFill_booked hw (hms m List.mem_cons_self) hfirst
      exact hbooked.trans (ih hw₁ (fun m' hm' => hms m' (List.mem_cons_of_mem _ hm')) hrest)

/-- The bid of a match has the limit that the match names. -/
theorem limit_of_mem_matchList {w : World} (hw : w.orders.Ascending) {m : MarketKey × Fill}
    (hm : m ∈ w.matchList) : w.limit m.2.buyOrder = m.2.bidPrice.toInt := by
  obtain ⟨bid, hbid, -, -, hlimit, -, -⟩ := (answered_of_mem_matchList hw hm).bid
  rw [World.limit, hbid, Option.map_some, Option.getD_some, hlimit]

/-- What a trade says apart from its number and its tick. -/
def Trade.terms (t : Trade) : Trade := { t with id := ⟨0⟩, tick := 0 }

def Trade.market (t : Trade) : MarketKey := ⟨t.region, t.item⟩

namespace Recorded

variable {w : World} {tick : Tick} {ms : List (MarketKey × Fill)} {trades : List Trade}

/-- What is read off trades without their numbers is read off the matches. -/
theorem map_eq {β : Type} {g : Trade → β} {h : MarketKey × Fill → β} (hr : Recorded w tick ms trades)
    (hg : ∀ m i, g (m.2.trade m.1 tick i) = h m) : trades.map g = ms.map h := by
  obtain ⟨hmatched, -⟩ := hr
  induction hmatched with
  | nil => rfl
  | @cons m t _ _ hrecord _ ih =>
      obtain ⟨i, rfl⟩ := hrecord
      rw [List.map_cons, List.map_cons, hg, ih]

/-- Every trade records one of the matches. -/
theorem exists_of_mem {t : Trade} (hr : Recorded w tick ms trades) (ht : t ∈ trades) :
    ∃ m ∈ ms, ∃ i, t = m.2.trade m.1 tick i := by
  obtain ⟨hmatched, -⟩ := hr
  induction hmatched with
  | nil => cases ht
  | cons hrecord _ ih =>
      rcases List.mem_cons.1 ht with rfl | ht
      · exact ⟨_, List.mem_cons_self, hrecord⟩
      · obtain ⟨m, hm, hrecord⟩ := ih ht
        exact ⟨m, List.mem_cons_of_mem _ hm, hrecord⟩

theorem units (hr : Recorded w tick ms trades) (i : OrderId) :
    (trades.map (Trade.units i)).sum = taken i (ms.map (·.2)) := by
  rw [hr.map_eq (h := fun m => m.2.units i) fun _ _ => rfl, taken, List.map_map]
  rfl

theorem terms (hr : Recorded w tick ms trades) (k : MarketKey) :
    (trades.filter (·.market = k)).map Trade.terms =
      ((ms.filter (·.1 = k)).map (·.2)).map fun f => f.trade k 0 ⟨0⟩ := by
  obtain ⟨hmatched, -⟩ := hr
  induction hmatched with
  | nil => rfl
  | @cons m t _ _ hrecord _ ih =>
      obtain ⟨i, rfl⟩ := hrecord
      by_cases hk : m.1 = k
      · have hmarket : (m.2.trade m.1 tick i).market = k := hk
        rw [List.filter_cons, if_pos (decide_eq_true hmarket), List.filter_cons,
          if_pos (decide_eq_true hk), List.map_cons, List.map_cons, List.map_cons, ih, hk]
        rfl
      · have hmarket : ¬ (m.2.trade m.1 tick i).market = k := hk
        rw [List.filter_cons, if_neg (by simpa using hmarket), List.filter_cons,
          if_neg (by simpa using hk), ih]

end Recorded

/-- An order that lost units to trades, with the status that goes with the rest. -/
structure Order.Shrunk (n : Nat) (o o' : Order) : Prop where
  same : o' = { o with remaining := o'.remaining, status := o'.status }
  remaining : o'.remaining.toNat + n = o.remaining.toNat
  untouched : n = 0 → o' = o
  status : n ≠ 0 → o'.status = o'.fillStatus

theorem Order.shrunk_traded {o : Order} {n : Nat} (hn : n ≤ o.remaining.toNat) :
    o.Shrunk n (o.traded n) where
  same := by
    rw [traded]
    split <;> rfl
  remaining := by
    rw [Nat.add_comm]
    exact traded_remaining hn
  untouched := by
    rintro rfl
    exact traded_zero
  status := by
    intro hpos
    rw [traded_pos hpos]
    rfl

/-- All that clearing does, accounted for by the trades it returns. -/
structure Accounted (w : World) (tick : Tick) (trades : List Trade) (w' : World) : Prop where
  /-- The markets are those with an open order, each once, by region and then by item. -/
  markets : ∀ k, k ∈ w.markets ↔ ∃ o ∈ w.orders, o.isOpen ∧ o.market = k
  ascending : w.markets.Pairwise fun k l => k.rank < l.rank
  /-- One market after the other, the trades are the matches of its book, with new numbers. -/
  recorded : Recorded w tick (w.markets.flatMap fun k => (w.bookOf k).fills.map fun f => (k, f)) trades
  positive : ∀ t ∈ trades, t.quantity ≠ 0
  nextId : w'.nextId.toNat = w.nextId.toNat + trades.length
  filed : w'.trades = w.trades ++ trades
  orders : List.Forall₂ (fun o o' => o.Shrunk (trades.map (Trade.units o.id)).sum o') w.orders w'.orders
  companies : List.Forall₂ (fun c c' => c.Moved (trades.map (Trade.gain w.limit c.id)).sum
    (trades.map (Trade.spend w.limit c.id)).sum c') w.companies w'.companies
  stock : ∀ k, (w'.inventory.quantity k).toNat =
    (w.inventory.quantity k).toNat + (trades.map (Trade.bought k)).sum
  frame : w' = { w with
    companies := w'.companies, inventory := w'.inventory, orders := w'.orders, trades := w'.trades
    nextId := w'.nextId }

variable {w w' : World} {tick : Tick} {trades : List Trade}

theorem clearMarkets_terms (h : (clearMarkets tick).run w = .ok trades w') (k : MarketKey) :
    (trades.filter (·.market = k)).map Trade.terms = (w.bookOf k).fills.map fun f => f.trade k 0 ⟨0⟩ := by
  obtain ⟨w₁, hfills, -⟩ := clearMarkets_ok.1 h
  rw [(fills_recorded hfills).terms, World.matchList_filter]

theorem clearMarkets_accounted (hcompanies : w.companies.Ascending) (horders : w.orders.Ascending)
    (h : (clearMarkets tick).run w = .ok trades w') : Accounted w tick trades w' := by
  have hframe := clearMarkets_frame h
  have hshrunk := clearMarkets_orders horders h
  obtain ⟨w₁, hfills, rfl⟩ := clearMarkets_ok.1 h
  have hrecorded := fills_recorded hfills
  have hbooked := fills_booked hcompanies (fun m hm => limit_of_mem_matchList horders hm) hfills
  have hkept := Action.mapM_keeps (P := fun t => t.trades = w.trades)
    (fun m _ t r t' ht hrun => by rw [applyFill_frame hrun, ht]) rfl hfills
  exact
    { markets := fun k => World.mem_markets
      ascending := w.markets_ascending
      recorded := by
        rw [← World.matchList_eq]
        exact hrecorded
      positive := by
        intro t ht
        have hmem : t.quantity ∈ trades.map (·.quantity) := List.mem_map_of_mem ht
        rw [hrecorded.map_eq (h := fun m => m.2.quantity) fun _ _ => rfl] at hmem
        obtain ⟨m, hm, hquantity⟩ := List.mem_map.1 hmem
        rw [← hquantity]
        exact (answered_of_mem_matchList horders hm).positive
      nextId := hbooked.nextId
      filed := congrArg (· ++ trades) hkept
      orders := by
        rw [hshrunk, List.forall₂_map_right_iff, List.forall₂_same]
        intro o ho
        rw [hrecorded.units]
        exact Order.shrunk_traded (World.taken_le horders ho)
      companies := hbooked.companies
      stock := hbooked.stock
      frame := hframe }

/-- The trades of a clearing account for everything it does, and orders of other markets have no influence
on the trades of a market: they are the same wherever the open orders of that market are. -/
theorem clearing_accounted (hcompanies : w.companies.Ascending) (horders : w.orders.Ascending)
    (h : (clearMarkets tick).run w = .ok trades w') :
    Accounted w tick trades w' ∧
      ∀ (v v' : World) (later : Tick) (others : List Trade) (k : MarketKey),
        (clearMarkets later).run v = .ok others v' →
        v.openOrders.filter (·.market = k) = w.openOrders.filter (·.market = k) →
        (others.filter (·.market = k)).map Trade.terms = (trades.filter (·.market = k)).map Trade.terms := by
  refine ⟨clearMarkets_accounted hcompanies horders h, ?_⟩
  intro v v' later others k hv hopen
  have hbook : v.bookOf k = w.bookOf k := by rw [World.bookOf, World.bookOf, hopen]
  rw [clearMarkets_terms hv, clearMarkets_terms h, hbook]

/-- The busy world with an order for metal besides. -/
def busierWorld : World :=
  { busyWorld with
    orders := busyWorld.orders ++ [⟨⟨15⟩, ⟨7⟩, ⟨1⟩, ⟨4⟩, .sell, 30, 1, 1, .unfilled, 4⟩]
    nextId := 15 }

/-- In the busy world the mine sells ten units of ore at 8 to the smith, whose limit is 10, and an order
for metal makes no difference to that. -/
theorem clearing_accounted_busy :
    (busyWorld.companies.Ascending ∧ busyWorld.orders.Ascending) ∧
      ∃ trades w', (clearMarkets 5).run busyWorld = .ok trades w' ∧ Accounted busyWorld 5 trades w' ∧
        (trades.map (Trade.gain busyWorld.limit ⟨6⟩)).sum = 80 ∧
        (trades.map (Trade.gain busyWorld.limit ⟨7⟩)).sum = 20 ∧
        (trades.map (Trade.spend busyWorld.limit ⟨7⟩)).sum = 100 ∧
        ∃ others v', (clearMarkets 9).run busierWorld = .ok others v' ∧
          (others.filter (·.market = ⟨⟨1⟩, ⟨3⟩⟩)).map Trade.terms =
            (trades.filter (·.market = ⟨⟨1⟩, ⟨3⟩⟩)).map Trade.terms := by
  have hworld : busyWorld.companies.Ascending ∧ busyWorld.orders.Ascending := by decide +kernel
  have hsums : ((clearMarkets 5).outcome busyWorld).map (fun r =>
      ((r.1.map (Trade.gain busyWorld.limit ⟨6⟩)).sum, (r.1.map (Trade.gain busyWorld.limit ⟨7⟩)).sum,
        (r.1.map (Trade.spend busyWorld.limit ⟨7⟩)).sum)) = .ok (80, 20, 100) := by decide +kernel
  have hother : ((clearMarkets 9).outcome busierWorld).isOk := by decide +kernel
  have hopen : busierWorld.openOrders.filter (·.market = ⟨⟨1⟩, ⟨3⟩⟩) =
      busyWorld.openOrders.filter (·.market = ⟨⟨1⟩, ⟨3⟩⟩) := by decide +kernel
  obtain ⟨⟨trades, w'⟩, hrun, hamounts⟩ := Check.map_ok.1 hsums
  have hrun := Action.outcome_ok.1 hrun
  obtain ⟨others, v', hv⟩ := Action.ok_of_outcome_isOk hother
  obtain ⟨haccount, hmarkets⟩ := clearing_accounted hworld.1 hworld.2 hrun
  simp only [Prod.mk.injEq] at hamounts
  exact ⟨hworld, trades, w', hrun, haccount, hamounts.1.symm, hamounts.2.1.symm, hamounts.2.2.symm, others,
    v', hv, hmarkets busierWorld v' 9 others _ hv hopen⟩

end Mercantile
