import Mercantile.Market.Clearing
import Mercantile.Proofs.Transfers

/-!
Clearing, match by match. The matches of all markets are worked out before any is carried out
(`World.matchList`), and each of them names a bid and an ask among the orders of its market
(`answered_of_mem_matchList`); carrying one out keeps this true of the others (`Answered.kept`), so it
holds throughout the pass. `applyFill_ok` says what one match does, and `clearMarkets_ok` that the pass
is the list of all of them.
-/

namespace Mercantile

/-- A match of one of the bids with one of the asks. -/
def Pairs (bids asks : List Quote) (f : Fill) : Prop :=
  ∃ bid ∈ bids, ∃ ask ∈ asks, ∃ q : Quantity, q ≠ 0 ∧ f = bid.fill ask q

namespace Pairs

variable {bid ask : Quote} {bids asks : List Quote} {q : Quantity} {f : Fill}

theorem cons_bid (h : Pairs bids asks f) : Pairs (bid :: bids) asks f := by
  obtain ⟨b, hb, h⟩ := h
  exact ⟨b, List.mem_cons_of_mem _ hb, h⟩

theorem cons_ask (h : Pairs bids asks f) : Pairs bids (ask :: asks) f := by
  obtain ⟨b, hb, a, ha, h⟩ := h
  exact ⟨b, hb, a, List.mem_cons_of_mem _ ha, h⟩

/-- What is left of a bid is still that bid. -/
theorem less_bid (h : Pairs (bid.less q :: bids) asks f) : Pairs (bid :: bids) asks f := by
  obtain ⟨b, hb, h⟩ := h
  rcases List.mem_cons.1 hb with rfl | hb
  · exact ⟨bid, List.mem_cons_self, h⟩
  · exact ⟨b, List.mem_cons_of_mem _ hb, h⟩

theorem less_ask (h : Pairs bids (ask.less q :: asks) f) : Pairs bids (ask :: asks) f := by
  obtain ⟨b, hb, a, ha, h⟩ := h
  rcases List.mem_cons.1 ha with rfl | ha
  · exact ⟨b, hb, ask, List.mem_cons_self, h⟩
  · exact ⟨b, hb, a, List.mem_cons_of_mem _ ha, h⟩

end Pairs

theorem pairs_of_mem_matchRanked {bids asks : List Quote} {f : Fill} (h : f ∈ matchRanked bids asks) :
    Pairs bids asks f := by
  fun_induction matchRanked bids asks with
  | case1 => cases h
  | case2 bid bids ask asks _ quantity rest _ ihAsk ihBid ihBoth =>
      simp only [rest] at h
      split at h
      · exact (ihAsk h).less_ask.cons_bid
      · split at h
        · exact (ihBid h).less_bid.cons_ask
        · exact (ihBoth h).cons_bid.cons_ask
  | case3 bid bids ask asks _ quantity rest hpos ihAsk ihBid ihBoth =>
      rcases List.mem_cons.1 h with rfl | h
      · exact ⟨bid, List.mem_cons_self, ask, List.mem_cons_self, quantity, hpos, rfl⟩
      · simp only [rest] at h
        split at h
        · exact (ihAsk h).less_ask.cons_bid
        · split at h
          · exact (ihBid h).less_bid.cons_ask
          · exact (ihBoth h).cons_bid.cons_ask
  | case4 => cases h

theorem Book.pairs_of_mem_fills {b : Book} {f : Fill} (h : f ∈ b.fills) : Pairs b.bids b.asks f := by
  obtain ⟨bid, hbid, ask, hask, h⟩ := pairs_of_mem_matchRanked h
  exact ⟨bid, List.mem_mergeSort.1 hbid, ask, List.mem_mergeSort.1 hask, h⟩

/-- An order that a match may take units off: it is not cancelled, and filled only when nothing of it
remains. -/
def Order.Tradable (o : Order) : Prop := o.status.isOpen ∨ o.remaining = 0

/-- A match names a bid and an ask of its market, which may still trade. -/
structure Answered (w : World) (k : MarketKey) (f : Fill) : Prop where
  positive : f.quantity ≠ 0
  bid : ∃ o, w.orders.get? f.buyOrder = some o ∧ o.side = .buy ∧ o.company = f.buyer ∧
    o.price = f.bidPrice ∧ o.market = k ∧ o.Tradable
  ask : ∃ o, w.orders.get? f.sellOrder = some o ∧ o.side = .sell ∧ o.company = f.seller ∧
    o.market = k ∧ o.Tradable

/-- All matches of a world, market by market, in the order in which they are carried out. -/
def World.matchList (w : World) : List (MarketKey × Fill) :=
  w.books.flatMap fun e => e.2.fills.map fun f => (e.1, f)

theorem World.mem_books {w : World} {e : MarketKey × Book} (h : e ∈ w.books) : e.2 = w.bookOf e.1 := by
  obtain ⟨k, -, rfl⟩ := List.mem_map.1 (List.mem_of_mem_filter h)
  rfl

/-- A quote of a book stands for an open order of the market. -/
theorem World.order_of_mem_quotes {w : World} {k : MarketKey} {side : OrderSide} {q : Quote}
    (h : q ∈ (((w.openOrders.filter (·.market = k)).filter (·.side = side)).map (·.quote))) :
    ∃ o ∈ w.orders, o.quote = q ∧ o.side = side ∧ o.market = k ∧ o.isOpen := by
  obtain ⟨o, ho, rfl⟩ := List.mem_map.1 h
  simp only [openOrders, List.mem_filter, decide_eq_true_eq] at ho
  obtain ⟨⟨⟨ho, hopen⟩, hmarket⟩, hside⟩ := ho
  exact ⟨o, ho, rfl, hside, hmarket, hopen⟩

theorem Order.status_of_isOpen {o : Order} (h : o.isOpen) : o.status.isOpen :=
  (Bool.and_eq_true_iff.1 h).1

theorem Order.remaining_of_isOpen {o : Order} (h : o.isOpen) : o.remaining.toNat ≠ 0 := by
  have hrest : o.remaining ≠ 0 := of_decide_eq_true (Bool.and_eq_true_iff.1 h).2
  exact fun hzero => hrest (UInt64.toNat_inj.1 hzero)

theorem answered_of_mem_matchList {w : World} (hw : w.orders.Ascending) {m : MarketKey × Fill}
    (h : m ∈ w.matchList) : Answered w m.1 m.2 := by
  obtain ⟨e, he, hm⟩ := List.mem_flatMap.1 h
  obtain ⟨f, hf, rfl⟩ := List.mem_map.1 hm
  rw [World.mem_books he] at hf
  obtain ⟨bid, hbid, ask, hask, q, hq, rfl⟩ := Book.pairs_of_mem_fills hf
  obtain ⟨b, hb, rfl, hbuy, hbm, hbo⟩ := World.order_of_mem_quotes hbid
  obtain ⟨a, ha, rfl, hsell, ham, hao⟩ := World.order_of_mem_quotes hask
  exact
    { positive := hq
      bid := ⟨b, Roster.get?_of_mem hw hb, hbuy, rfl, rfl, hbm, Or.inl (Order.status_of_isOpen hbo)⟩
      ask := ⟨a, Roster.get?_of_mem hw ha, hsell, rfl, ham, Or.inl (Order.status_of_isOpen hao)⟩ }

/-- The order with `remaining` units left, and the status that goes with them. -/
def Order.leave (o : Order) (remaining : Quantity) : Order :=
  let o := { o with remaining }
  { o with status := o.fillStatus }

theorem Order.leave_tradable (o : Order) (remaining : Quantity) : (o.leave remaining).Tradable := by
  simp only [Tradable, leave, fillStatus]
  split
  · next h => exact Or.inr h
  · split <;> exact Or.inl rfl

theorem fillOrder_ok {w w' : World} {id : OrderId} {q : Quantity} {u : Unit} :
    (fillOrder id q).run w = .ok u w' ↔
      ∃ o, w.orders.get? id = some o ∧ ∃ remaining : Quantity,
        q.toNat + remaining.toNat = o.remaining.toNat ∧ w' = w.modifyOrder id (·.leave remaining) := by
  simp only [fillOrder, Action.update_ok, Check.bind_ok, Check.pure_ok, orFail_ok, Roster.require_ok,
    UInt64.sub?_eq_some]
  rfl

/-- One match: the cash moves, the buyer gets the goods, and both orders shrink. -/
theorem applyFill_ok {w w' : World} {k : MarketKey} {tick : Tick} {f : Fill} {t : Trade}
    (h : (applyFill k tick f).run w = .ok t w') :
    ∃ (r : Ledger.Settlement) (w₁ : World) (inv : Inventory) (b a : Order)
      (bidLeft askLeft : Quantity),
      (Ledger.settle f.buyer f.seller f.bidPrice f.price f.quantity).run w = .ok r w₁ ∧
      w₁.inventory.add ⟨f.buyer, k.region, k.item⟩ f.quantity = .ok inv ∧
      w₁.orders.get? f.buyOrder = some b ∧
      f.quantity.toNat + bidLeft.toNat = b.remaining.toNat ∧
      (w₁.orders.modify f.buyOrder (·.leave bidLeft)).get? f.sellOrder = some a ∧
      f.quantity.toNat + askLeft.toNat = a.remaining.toNat ∧
      t.id.toNat = w₁.nextId.toNat + 1 ∧
      t = ⟨t.id, tick, k.region, k.item, f.price, f.quantity, f.buyer, f.seller, f.buyOrder,
        f.sellOrder⟩ ∧
      w' = { w₁ with
        inventory := inv, nextId := t.id.val
        orders := (w₁.orders.modify f.buyOrder (·.leave bidLeft)).modify f.sellOrder
          (·.leave askLeft) } := by
  simp only [applyFill, Action.bind_ok, Action.pure_ok, World.addStock_ok, World.allocateId_ok,
    fillOrder_ok] at h
  obtain ⟨r, w₁, hsettle, _, _, ⟨inv, hinv, rfl⟩, _, _, ⟨b, hb, bidLeft, hbid, rfl⟩, _, _,
    ⟨a, ha, askLeft, hask, rfl⟩, i, _, ⟨hi, rfl⟩, rfl, rfl⟩ := h
  exact ⟨r, w₁, inv, b, a, bidLeft, askLeft, hsettle, hinv, hb, hbid, ha, hask, hi, rfl, rfl⟩

/-- The two orders of a match, both open. -/
structure Parties (k : MarketKey) (f : Fill) (bid ask : Order) : Prop where
  bidSide : bid.side = .buy
  bidCompany : bid.company = f.buyer
  bidPrice : bid.price = f.bidPrice
  bidMarket : bid.market = k
  bidOpen : bid.status.isOpen
  askSide : ask.side = .sell
  askCompany : ask.company = f.seller
  askMarket : ask.market = k
  askOpen : ask.status.isOpen

theorem Order.Tradable.isOpen {o : Order} (h : o.Tradable) {q left : Quantity} (hq : q ≠ 0)
    (hleft : q.toNat + left.toNat = o.remaining.toNat) : o.status.isOpen := by
  rcases h with hopen | hzero
  · exact hopen
  · rw [hzero] at hleft
    have : q.toNat = 0 := by
      have hnone : (0 : Quantity).toNat = 0 := rfl
      omega
    exact absurd (UInt64.toNat_inj.1 this) hq

/-- The two orders of a match are on different sides, so they are two. -/
theorem Answered.sellOrder_ne {w : World} {k : MarketKey} {f : Fill} (hf : Answered w k f) :
    f.sellOrder ≠ f.buyOrder := by
  obtain ⟨bid, hbid, hbuy, -⟩ := hf.bid
  obtain ⟨ask, hask, hsell, -⟩ := hf.ask
  intro he
  rw [he, hbid, Option.some_inj] at hask
  rw [← hask, hbuy] at hsell
  cases hsell

/-- What a match does, told from the two orders as they are before it. -/
theorem Answered.applyFill_ok {w w' : World} {k : MarketKey} {tick : Tick} {f : Fill} {t : Trade}
    (hf : Answered w k f) (h : (applyFill k tick f).run w = .ok t w') :
    ∃ (r : Ledger.Settlement) (w₁ : World) (inv : Inventory) (bid ask : Order)
      (bidLeft askLeft : Quantity),
      (Ledger.settle f.buyer f.seller f.bidPrice f.price f.quantity).run w = .ok r w₁ ∧
      w₁.inventory.add ⟨f.buyer, k.region, k.item⟩ f.quantity = .ok inv ∧
      Parties k f bid ask ∧ f.sellOrder ≠ f.buyOrder ∧
      w.orders.get? f.buyOrder = some bid ∧ f.quantity.toNat + bidLeft.toNat = bid.remaining.toNat ∧
      w.orders.get? f.sellOrder = some ask ∧ f.quantity.toNat + askLeft.toNat = ask.remaining.toNat ∧
      t.id.toNat = w₁.nextId.toNat + 1 ∧
      w' = { w₁ with
        inventory := inv, nextId := t.id.val
        orders := (w.orders.modify f.buyOrder (·.leave bidLeft)).modify f.sellOrder
          (·.leave askLeft) } := by
  obtain ⟨r, w₁, inv, b, a, bidLeft, askLeft, hsettle, hinv, hb, hbid, ha, hask, ht, -, hw'⟩ :=
    Mercantile.applyFill_ok h
  obtain ⟨bid, hget, hbuy, hbuyer, hprice, hbm, hbt⟩ := hf.bid
  obtain ⟨ask, hget', hsell, hseller, ham, hat⟩ := hf.ask
  have hne := hf.sellOrder_ne
  have horders : w₁.orders = w.orders := by rw [(Ledger.settle_moved hsettle).frame]
  have hother : (w.orders.modify f.buyOrder (·.leave bidLeft)).get? f.sellOrder =
      w.orders.get? f.sellOrder := Roster.get?_modify_of_ne (fun _ => rfl) hne
  rw [horders] at hb ha hw'
  rw [hget, Option.some_inj] at hb
  rw [hother, hget', Option.some_inj] at ha
  subst hb ha
  refine ⟨r, w₁, inv, bid, ask, bidLeft, askLeft, hsettle, hinv, ?_, hne, hget, hbid, hget', hask, ht,
    hw'⟩
  exact
    { bidSide := hbuy, bidCompany := hbuyer, bidPrice := hprice, bidMarket := hbm
      bidOpen := hbt.isOpen hf.positive hbid
      askSide := hsell, askCompany := hseller, askMarket := ham
      askOpen := hat.isOpen hf.positive hask }

/-- A match takes nothing from the other matches but units. -/
theorem Answered.leave {w w' : World} {k : MarketKey} {f : Fill} {id : OrderId} {remaining : Quantity}
    (h : Answered w k f) (hw : w'.orders = w.orders.modify id (·.leave remaining)) :
    Answered w' k f := by
  have hget (i : OrderId) : w'.orders.get? i =
      if i = id then (w.orders.get? id).map (·.leave remaining) else w.orders.get? i := by
    rw [hw]
    exact Roster.get?_modify fun _ => rfl
  obtain ⟨b, hb, hbuy, hbuyer, hprice, hbm, hbt⟩ := h.bid
  obtain ⟨a, ha, hsell, hseller, ham, hat⟩ := h.ask
  refine ⟨h.positive, ?_, ?_⟩
  · rw [hget]
    split
    · next hid =>
      rw [← hid, hb]
      exact ⟨_, rfl, hbuy, hbuyer, hprice, hbm, b.leave_tradable remaining⟩
    · exact ⟨b, hb, hbuy, hbuyer, hprice, hbm, hbt⟩
  · rw [hget]
    split
    · next hid =>
      rw [← hid, ha]
      exact ⟨_, rfl, hsell, hseller, ham, a.leave_tradable remaining⟩
    · exact ⟨a, ha, hsell, hseller, ham, hat⟩

theorem Answered.kept {w w' : World} {k k' : MarketKey} {tick : Tick} {f g : Fill} {t : Trade}
    (hg : Answered w k' g) (h : (applyFill k tick f).run w = .ok t w') : Answered w' k' g := by
  obtain ⟨r, w₁, inv, b, a, bidLeft, askLeft, hsettle, -, -, -, -, -, -, -, rfl⟩ :=
    Mercantile.applyFill_ok h
  have horders : w₁.orders = w.orders := by rw [(Ledger.settle_moved hsettle).frame]
  have hbid : Answered { w with orders := w.orders.modify f.buyOrder (·.leave bidLeft) } k' g :=
    hg.leave rfl
  exact hbid.leave (by rw [horders])

/-- To go through the books is to go through the matches. -/
theorem mapM_matchList (w : World) (tick : Tick) : (w.matchList.mapM fun m => applyFill m.1 tick m.2) =
    List.flatten <$> w.books.mapM fun e => clearMarket tick e.1 e.2 := by
  rw [World.matchList, Action.mapM_flatMap]
  simp only [clearMarket, List.mapM_map]
  rfl

/-- The pass carries out the matches one after the other and files the trades at the end. -/
theorem clearMarkets_ok {w w' : World} {tick : Tick} {trades : List Trade} :
    (clearMarkets tick).run w = .ok trades w' ↔
      ∃ w₁, (w.matchList.mapM fun m => applyFill m.1 tick m.2).run w = .ok trades w₁ ∧
        w' = { w₁ with trades := w₁.trades ++ trades } := by
  rw [mapM_matchList]
  simp only [clearMarkets, Action.bind_ok, Action.get_ok, Action.modify_ok, Action.pure_ok,
    Action.map_ok]
  constructor
  · rintro ⟨_, _, ⟨rfl, rfl⟩, ts, w₁, hts, _, _, rfl, rfl, rfl⟩
    exact ⟨w₁, ⟨ts, hts, rfl⟩, rfl⟩
  · rintro ⟨w₁, ⟨ts, hts, rfl⟩, rfl⟩
    exact ⟨_, _, ⟨rfl, rfl⟩, ts, w₁, hts, (), _, rfl, rfl, rfl⟩

end Mercantile
