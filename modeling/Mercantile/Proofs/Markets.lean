import Mercantile.Proofs.Volumes

/-!
The markets of a world. They are listed in ascending order, each once (`World.markets_ascending`), and the
list of all matches is what their books yield, one market after the other (`World.matchList_eq`), so the
matches of a market are those of its own book (`World.matchList_filter`). What is known of a book therefore
holds of the orders: all matches together take no more from an order than remains of it
(`World.taken_le`), and of two orders that cross one is spent (`World.exhausts`).
-/

namespace Mercantile

section

variable {α β : Type} {as : List α} {g : α → List β}

theorem flatMap_filter {p : α → Bool} (h : ∀ a ∈ as, p a = false → g a = []) :
    (as.filter p).flatMap g = as.flatMap g := by
  induction as with
  | nil => rfl
  | cons a as ih =>
      have hrest := ih fun b hb => h b (List.mem_cons_of_mem _ hb)
      cases hp : p a with
      | true => rw [List.filter_cons_of_pos hp, List.flatMap_cons, List.flatMap_cons, hrest]
      | false =>
          rw [List.filter_cons_of_neg (by simp [hp]), List.flatMap_cons, hrest,
            h a List.mem_cons_self hp, List.nil_append]

/-- Only one piece is not empty. -/
theorem flatMap_single (has : as.Nodup) {a : α} (hothers : ∀ b ∈ as, b ≠ a → g b = [])
    (hnone : a ∉ as → g a = []) : as.flatMap g = g a := by
  induction as with
  | nil => exact (hnone List.not_mem_nil).symm
  | cons b as ih =>
      obtain ⟨hb, has⟩ := List.nodup_cons.1 has
      rw [List.flatMap_cons]
      by_cases hba : b = a
      · subst hba
        have hrest : as.flatMap g = [] := List.flatMap_eq_nil_iff.2 fun c hc =>
          hothers c (List.mem_cons_of_mem _ hc) fun he => hb (he ▸ hc)
        rw [hrest, List.append_nil]
      · rw [hothers b List.mem_cons_self hba, List.nil_append]
        refine ih has (fun c hc => hothers c (List.mem_cons_of_mem _ hc)) fun ha => hnone ?_
        exact fun hmem => (List.mem_cons.1 hmem).elim (fun he => hba he.symm) ha

end

theorem MarketKey.rank_inj {k l : MarketKey} : k.rank = l.rank ↔ k = l := by
  constructor
  · intro h
    obtain ⟨r, i⟩ := k
    obtain ⟨r', i'⟩ := l
    have hi := i.toNat_lt
    have hi' := i'.toNat_lt
    simp only [rank, UInt64.size] at h hi hi'
    rw [MarketKey.mk.injEq, ← Id.toNat_inj, ← Id.toNat_inj]
    omega
  · rintro rfl
    rfl

theorem mem_insertMarket {k l : MarketKey} {ks : List MarketKey} :
    l ∈ insertMarket k ks ↔ l = k ∨ l ∈ ks := by
  induction ks with
  | nil => simp [insertMarket]
  | cons m ks ih =>
      rw [insertMarket]
      split
      · exact List.mem_cons
      · split
        · next hkm => simp [hkm]
        · rw [List.mem_cons, ih, List.mem_cons]
          tauto

/-- A market goes where it belongs. -/
theorem pairwise_insertMarket {k : MarketKey} {ks : List MarketKey}
    (h : ks.Pairwise fun k l => k.rank < l.rank) :
    (insertMarket k ks).Pairwise fun k l => k.rank < l.rank := by
  induction ks with
  | nil => exact List.pairwise_singleton _ _
  | cons m ks ih =>
      obtain ⟨hm, hks⟩ := List.pairwise_cons.1 h
      rw [insertMarket]
      split
      · next hlt =>
        refine List.pairwise_cons.2 ⟨fun l hl => ?_, h⟩
        rcases List.mem_cons.1 hl with rfl | hl
        · exact hlt
        · exact Nat.lt_trans hlt (hm l hl)
      · next hge =>
        split
        · exact h
        · next hne =>
          have hne' : k.rank ≠ m.rank := fun he => hne (MarketKey.rank_inj.1 he)
          refine List.pairwise_cons.2 ⟨fun l hl => ?_, ih hks⟩
          rcases mem_insertMarket.1 hl with rfl | hl
          · omega
          · exact hm l hl

namespace World

variable {w : World} {k : MarketKey} {o bid ask : Order}

theorem markets_ascending (w : World) : w.markets.Pairwise fun k l => k.rank < l.rank := by
  rw [markets]
  induction w.openOrders with
  | nil => exact List.Pairwise.nil
  | cons o os ih => exact pairwise_insertMarket ih

theorem markets_nodup (w : World) : w.markets.Nodup :=
  w.markets_ascending.imp fun {k l} hlt (he : k = l) => Nat.lt_irrefl _ (he ▸ hlt)

/-- The markets are those in which an order is open. -/
theorem mem_markets : k ∈ w.markets ↔ ∃ o ∈ w.orders, o.isOpen ∧ o.market = k := by
  have hopen : k ∈ w.markets ↔ ∃ o ∈ w.openOrders, o.market = k := by
    rw [markets]
    induction w.openOrders with
    | nil => simp
    | cons o os ih => simp only [List.foldr_cons, mem_insertMarket, ih, List.exists_mem_cons_iff, eq_comm]
  rw [hopen]
  simp only [openOrders, List.mem_filter, and_assoc]

theorem quote_mem_bids (ho : o ∈ w.orders) (hopen : o.isOpen) (hside : o.side = .buy) :
    o.quote ∈ (w.bookOf o.market).bids := by
  refine List.mem_map_of_mem (List.mem_filter.2 ⟨List.mem_filter.2 ⟨?_, ?_⟩, decide_eq_true hside⟩)
  · exact List.mem_filter.2 ⟨ho, hopen⟩
  · exact decide_eq_true rfl

theorem quote_mem_asks (ho : o ∈ w.orders) (hopen : o.isOpen) (hside : o.side = .sell) :
    o.quote ∈ (w.bookOf o.market).asks := by
  refine List.mem_map_of_mem (List.mem_filter.2 ⟨List.mem_filter.2 ⟨?_, ?_⟩, decide_eq_true hside⟩)
  · exact List.mem_filter.2 ⟨ho, hopen⟩
  · exact decide_eq_true rfl

theorem book_distinct (hw : w.orders.Ascending) (k : MarketKey) : (w.bookOf k).Distinct := by
  have hside (side : OrderSide) :
      (((((w.openOrders.filter (·.market = k)).filter (·.side = side)).map (·.quote))).map
        (·.order)).Nodup := by
    rw [List.map_map, openOrders, List.filter_filter, List.filter_filter]
    exact Roster.Ascending.nodup_filter hw _
  refine List.nodup_append.2 ⟨hside .buy, hside .sell, fun i hi j hj hij => ?_⟩
  obtain ⟨bid, hbid, rfl⟩ := List.mem_map.1 hi
  obtain ⟨ask, hask, rfl⟩ := List.mem_map.1 hj
  obtain ⟨b, hb, rfl, hbuy, -, -⟩ := order_of_mem_quotes hbid
  obtain ⟨a, ha, rfl, hsell, -, -⟩ := order_of_mem_quotes hask
  obtain rfl := hw.eq_of_key_eq hb ha hij
  rw [hbuy] at hsell
  cases hsell

theorem matchList_eq (w : World) :
    w.matchList = w.markets.flatMap fun k => (w.bookOf k).fills.map fun f => (k, f) := by
  rw [matchList, books, flatMap_filter, List.flatMap_map]
  intro e _ hside
  rw [List.map_eq_nil_iff]
  refine Book.fills_eq_nil fun bid hbid ask hask => ?_
  cases hbids : e.2.bids with
  | nil => rw [hbids] at hbid; cases hbid
  | cons b bids =>
      cases hasks : e.2.asks with
      | nil => rw [hasks] at hask; cases hask
      | cons a asks => rw [hbids, hasks] at hside; cases hside

theorem fills_eq_nil (hk : k ∉ w.markets) : (w.bookOf k).fills = [] := by
  refine Book.fills_eq_nil fun bid hbid => ?_
  obtain ⟨o, ho, -, -, hmarket, hopen⟩ := order_of_mem_quotes hbid
  exact absurd (mem_markets.2 ⟨o, ho, hopen, hmarket⟩) hk

/-- The matches of a market are those of its own book. -/
theorem matchList_filter (w : World) (k : MarketKey) :
    (w.matchList.filter (·.1 = k)).map (·.2) = (w.bookOf k).fills := by
  have hpiece (l : MarketKey) : (((w.bookOf l).fills.map fun f => (l, f)).filter (·.1 = k)).map (·.2) =
      if l = k then (w.bookOf l).fills else [] := by
    by_cases hlk : l = k
    · rw [if_pos hlk, List.filter_map, List.map_map]
      simp [Function.comp_def, hlk]
    · simp [hlk]
  simp only [matchList_eq, List.filter_flatMap, List.map_flatMap, hpiece]
  rw [flatMap_single w.markets_nodup (a := k), if_pos rfl]
  · exact fun l _ hlk => if_neg hlk
  · exact fun hk => (if_pos rfl).trans (fills_eq_nil hk)

theorem fill_of_mem_matchList {m : MarketKey × Fill} (h : m ∈ w.matchList) :
    m.2 ∈ (w.bookOf m.1).fills := by
  rw [← matchList_filter]
  exact List.mem_map_of_mem (List.mem_filter.2 ⟨h, decide_eq_true rfl⟩)

/-- Matches are made at the limit of one of their orders. -/
theorem price_of_mem_matchList {m : MarketKey × Fill} (h : m ∈ w.matchList) :
    ∃ o ∈ w.orders, o.price = m.2.price := by
  obtain ⟨bid, hbid, ask, hask, q, -, hm⟩ := Book.pairs_of_mem_fills (fill_of_mem_matchList h)
  obtain ⟨b, hb, rfl, -⟩ := order_of_mem_quotes hbid
  obtain ⟨a, ha, rfl, -⟩ := order_of_mem_quotes hask
  have hprice : m.2.price = b.quote.restingPrice a.quote := by rw [hm, Quote.fill]
  rw [hprice, Quote.restingPrice]
  split
  · exact ⟨b, hb, rfl⟩
  · exact ⟨a, ha, rfl⟩

/-- An order takes part in the matches of its own market only. -/
theorem taken_matchList (hw : w.orders.Ascending) (ho : o ∈ w.orders) :
    taken o.id (w.matchList.map (·.2)) = taken o.id (w.bookOf o.market).fills := by
  have helsewhere : ∀ m ∈ w.matchList, m.1 ≠ o.market → m.2.units o.id = 0 := by
    intro m hm hne
    obtain ⟨b, hb, -, -, -, hbm, -⟩ := (answered_of_mem_matchList hw hm).bid
    obtain ⟨a, ha, -, -, ham, -⟩ := (answered_of_mem_matchList hw hm).ask
    have hget : w.orders.get? o.id = some o := Roster.get?_of_mem hw ho
    refine if_neg fun hparty => hne ?_
    rcases hparty with hbuy | hsell
    · rw [hbuy, hget, Option.some_inj] at hb
      rw [hb, hbm]
    · rw [hsell, hget, Option.some_inj] at ha
      rw [ha, ham]
  rw [← matchList_filter, taken, taken, List.map_map, List.map_map, sum_map_filter]
  refine congrArg List.sum (List.map_congr_left fun m hm => ?_)
  split
  · rfl
  · next hne => exact helsewhere m hm hne

/-- An order with a quote in a book is open and has that market. -/
theorem quoted (hw : w.orders.Ascending) (ho : o ∈ w.orders)
    (hid : o.id ∈ ((w.bookOf k).bids ++ (w.bookOf k).asks).map (·.order)) :
    o.quote ∈ (w.bookOf k).bids ++ (w.bookOf k).asks ∧ o.isOpen := by
  obtain ⟨q, hq, hqo⟩ := List.mem_map.1 hid
  have hsame : ∃ p ∈ w.orders, p.quote = q ∧ p.isOpen := by
    rcases List.mem_append.1 hq with hq | hq
    · obtain ⟨p, hp, hpq, -, -, hopen⟩ := order_of_mem_quotes hq
      exact ⟨p, hp, hpq, hopen⟩
    · obtain ⟨p, hp, hpq, -, -, hopen⟩ := order_of_mem_quotes hq
      exact ⟨p, hp, hpq, hopen⟩
  obtain ⟨p, hp, rfl, hopen⟩ := hsame
  obtain rfl := hw.eq_of_key_eq hp ho hqo
  exact ⟨hq, hopen⟩

theorem taken_le_volume (hw : w.orders.Ascending) (ho : o ∈ w.orders) :
    taken o.id (w.matchList.map (·.2)) ≤
      volume o.id ((w.bookOf o.market).bids ++ (w.bookOf o.market).asks) := by
  rw [taken_matchList hw ho, volume_append]
  exact Book.taken_le _ _

/-- All matches together take no more from an order than remains of it. -/
theorem taken_le (hw : w.orders.Ascending) (ho : o ∈ w.orders) :
    taken o.id (w.matchList.map (·.2)) ≤ o.remaining.toNat := by
  refine Nat.le_trans (taken_le_volume hw ho) ?_
  by_cases hid : o.id ∈ ((w.bookOf o.market).bids ++ (w.bookOf o.market).asks).map (·.order)
  · have hdistinct : (((w.bookOf o.market).bids ++ (w.bookOf o.market).asks).map (·.order)).Nodup := by
      rw [List.map_append]
      exact book_distinct hw o.market
    exact Nat.le_of_eq (volume_of_mem hdistinct (quoted hw ho hid).1)
  · rw [volume_eq_zero hid]
    exact Nat.zero_le _

/-- An order from which the matches take something is open. -/
theorem isOpen_of_taken (hw : w.orders.Ascending) (ho : o ∈ w.orders)
    (htaken : taken o.id (w.matchList.map (·.2)) ≠ 0) : o.isOpen := by
  by_contra hclosed
  have hid : o.id ∉ ((w.bookOf o.market).bids ++ (w.bookOf o.market).asks).map (·.order) :=
    fun hid => hclosed (quoted hw ho hid).2
  have hle := taken_le_volume hw ho
  rw [volume_eq_zero hid] at hle
  exact htaken (Nat.le_zero.1 hle)

/-- Of two orders that cross, the matches leave nothing of one. -/
theorem exhausts (hw : w.orders.Ascending) (hbid : bid ∈ w.orders) (hask : ask ∈ w.orders)
    (hbidOpen : bid.isOpen) (haskOpen : ask.isOpen) (hbuy : bid.side = .buy) (hsell : ask.side = .sell)
    (hmarket : bid.market = ask.market) (hcross : ¬ bid.price < ask.price) :
    taken bid.id (w.matchList.map (·.2)) = bid.remaining.toNat ∨
      taken ask.id (w.matchList.map (·.2)) = ask.remaining.toNat := by
  rw [taken_matchList hw hbid, taken_matchList hw hask, ← hmarket]
  have hquote : ask.quote ∈ (w.bookOf bid.market).asks := hmarket ▸ quote_mem_asks hask haskOpen hsell
  exact (book_distinct hw bid.market).exhausts (quote_mem_bids hbid hbidOpen hbuy) hquote hcross

end World

end Mercantile
