import Mercantile.Proofs.Markets
import Mercantile.Proofs.Phases

/-!
What clearing leaves of the orders. Each match shrinks its two orders by the units of the match, so after
all of them an order has shrunk by what they took from it (`clearMarkets_orders`). That is what the matches
were worked out to take, hence no open bid still reaches an open ask of its market
(`clearing_uncrossed`), and clearing once more does nothing.
-/

namespace Mercantile

namespace Roster

variable {α : Type} {kind : EntityKind} [Keyed α kind] {xs : Roster α}

theorem Ascending.map (hs : xs.Ascending) {f : α → α} (hf : ∀ a, key (f a) = key a) :
    Ascending (xs.map f) := by
  have hkeys : Roster.keys (xs.map f) = xs.keys := by
    rw [keys, keys, List.map_map]
    exact List.map_congr_left fun a _ => congrArg Id.toNat (hf a)
  rw [Ascending, hkeys]
  exact hs

/-- In an ascending roster a change happens to the entity with the identifier, and to no other. -/
theorem Ascending.modify_eq_map (hs : xs.Ascending) (i : Id kind) (f : α → α) :
    xs.modify i f = xs.map fun a => if key a = i then f a else a := by
  have hplace {m : Nat} {a : α} (ha : xs[m]? = some a) : key a = i ↔ xs.slot? i = some m := by
    constructor
    · rintro rfl
      exact slot?_of_getElem? hs ha
    · intro hslot
      have hkey := (slot?_eq_some.1 hslot).2
      rw [keys_getElem?, ha, Option.map_some, Option.some_inj] at hkey
      exact Id.toNat_inj.1 hkey
  refine List.ext_getElem? fun m => ?_
  rw [List.getElem?_map]
  unfold Roster.modify
  cases ha : xs[m]? with
  | none =>
      split
      · rw [List.getElem?_modify, ha]
        rfl
      · exact ha
  | some a =>
      simp only [Option.map_some, hplace ha]
      split
      · next n hn =>
        rw [List.getElem?_modify, ha, hn]
        simp only [Option.map_eq_map, Option.map_some, Option.some_inj]
      · next hn => simp only [ha, hn, reduceCtorEq, if_false]

end Roster

/-- The order once `n` of its units have traded. -/
def Order.traded (o : Order) (n : Nat) : Order :=
  if n = 0 then o else o.leave (o.remaining - UInt64.ofNat n)

namespace Order

variable {o : Order} {n m : Nat}

theorem traded_zero : o.traded 0 = o := if_pos rfl

theorem traded_pos (hn : n ≠ 0) : o.traded n = o.leave (o.remaining - UInt64.ofNat n) := if_neg hn

/-- Trades in sequence count together. -/
theorem traded_add : (o.traded m).traded n = o.traded (m + n) := by
  by_cases hm : m = 0
  · rw [hm, traded_zero, Nat.zero_add]
  · by_cases hn : n = 0
    · rw [hn, traded_zero, Nat.add_zero]
    · have hrest : o.remaining - UInt64.ofNat m - UInt64.ofNat n = o.remaining - UInt64.ofNat (m + n) := by
        rw [UInt64.ofNat_add]
        grind
      rw [traded_pos hm, traded_pos hn, traded_pos (by omega), ← hrest]
      rfl

theorem traded_remaining (hn : n ≤ o.remaining.toNat) :
    n + (o.traded n).remaining.toNat = o.remaining.toNat := by
  by_cases hzero : n = 0
  · rw [hzero, traded_zero, Nat.zero_add]
  · have hlt := o.remaining.toNat_lt
    have hn' : (UInt64.ofNat n).toNat = n := UInt64.toNat_ofNat_of_lt' (Nat.lt_of_le_of_lt hn hlt)
    have hle : UInt64.ofNat n ≤ o.remaining := UInt64.le_iff_toNat_le.2 (by omega)
    rw [traded_pos hzero]
    show n + (o.remaining - UInt64.ofNat n).toNat = o.remaining.toNat
    rw [UInt64.toNat_sub_of_le _ _ hle, hn']
    omega

theorem traded_id (o : Order) (n : Nat) : (o.traded n).id = o.id := by
  rw [traded]
  split <;> rfl

theorem traded_terms (o : Order) (n : Nat) : (o.traded n).side = o.side ∧ (o.traded n).price = o.price ∧
    (o.traded n).market = o.market := by
  rw [traded]
  split <;> exact ⟨rfl, rfl, rfl⟩

/-- An order that is still open was open before and has more units than those that traded. -/
theorem isOpen_of_traded (hn : n ≤ o.remaining.toNat) (hopen : n ≠ 0 → o.isOpen)
    (h : (o.traded n).isOpen) : o.isOpen ∧ n ≠ o.remaining.toNat := by
  have hrest := traded_remaining hn
  have hleft := remaining_of_isOpen h
  refine ⟨?_, by omega⟩
  by_cases hzero : n = 0
  · rw [hzero, traded_zero] at h
    exact h
  · exact hopen hzero

end Order

variable {w w' : World} {tick : Tick} {trades : List Trade}

/-- A match shrinks its two orders by its units. -/
theorem Answered.applyFill_orders {k : MarketKey} {f : Fill} {t : Trade} (hf : Answered w k f)
    (hw : w.orders.Ascending) (h : (applyFill k tick f).run w = .ok t w') :
    w'.orders = w.orders.map fun o => o.traded (f.units o.id) := by
  obtain ⟨r, w₁, inv, bid, ask, bidLeft, askLeft, -, -, -, hne, hbid, hbidLeft, hask, haskLeft, -, rfl⟩ :=
    hf.applyFill_ok h
  have hquantity : f.quantity.toNat ≠ 0 := fun he => hf.positive (UInt64.toNat_inj.1 he)
  have hleave {o : Order} {left : Quantity} (ho : f.quantity.toNat + left.toNat = o.remaining.toNat) :
      o.leave left = o.traded f.quantity.toNat := by
    have hle : f.quantity ≤ o.remaining := UInt64.le_iff_toNat_le.2 (by omega)
    have hleft : left = o.remaining - f.quantity := by
      rw [← UInt64.toNat_inj, UInt64.toNat_sub_of_le _ _ hle]
      omega
    rw [Order.traded_pos hquantity, UInt64.ofNat_toNat, hleft]
  have hbought : (w.orders.modify f.buyOrder (·.leave bidLeft)).Ascending := hw.modify _ fun _ => rfl
  show (w.orders.modify f.buyOrder (·.leave bidLeft)).modify f.sellOrder (·.leave askLeft) = _
  rw [hbought.modify_eq_map, hw.modify_eq_map, List.map_map]
  refine List.map_congr_left fun o ho => ?_
  have hget := Roster.get?_of_mem hw ho
  by_cases hbuy : key o = f.buyOrder
  · rw [hbuy, hbid, Option.some_inj] at hget
    subst hget
    have hother : ¬ key (bid.leave bidLeft) = f.sellOrder := fun he => hne (he.symm.trans hbuy)
    have hunits : f.units bid.id = f.quantity.toNat := if_pos (Or.inl hbuy.symm)
    rw [Function.comp_apply, if_pos hbuy, if_neg hother, hunits, hleave hbidLeft]
  · rw [Function.comp_apply, if_neg hbuy]
    by_cases hsell : key o = f.sellOrder
    · rw [hsell, hask, Option.some_inj] at hget
      subst hget
      have hunits : f.units ask.id = f.quantity.toNat := if_pos (Or.inr hsell.symm)
      rw [if_pos hsell, hunits, hleave haskLeft]
    · have hunits : f.units o.id = 0 := if_neg (not_or.2 ⟨Ne.symm hbuy, Ne.symm hsell⟩)
      rw [if_neg hsell, hunits, Order.traded_zero]

/-- Matches in sequence shrink an order by all they take from it. -/
theorem fills_orders {ms : List (MarketKey × Fill)} (hw : w.orders.Ascending)
    (hms : ∀ m ∈ ms, Answered w m.1 m.2)
    (h : (ms.mapM fun m => applyFill m.1 tick m.2).run w = .ok trades w') :
    w'.orders = w.orders.map fun o => o.traded (taken o.id (ms.map (·.2))) := by
  induction ms generalizing w trades with
  | nil =>
      obtain ⟨-, rfl⟩ := Action.mapM_nil_ok.1 h
      exact (List.map_id' _).symm
  | cons m ms ih =>
      obtain ⟨t, w₁, rest, hfirst, hrest, -⟩ := Action.mapM_cons_ok.1 h
      have horders := (hms m List.mem_cons_self).applyFill_orders hw hfirst
      have hw₁ : w₁.orders.Ascending := by
        rw [horders]
        exact hw.map fun o => o.traded_id _
      have hms₁ : ∀ m' ∈ ms, Answered w₁ m'.1 m'.2 := fun m' hm' =>
        (hms m' (List.mem_cons_of_mem _ hm')).kept hfirst
      rw [ih hw₁ hms₁ hrest, horders, List.map_map]
      refine List.map_congr_left fun o _ => ?_
      rw [Function.comp_apply, Order.traded_id, Order.traded_add, List.map_cons, taken_cons]

/-- Clearing shrinks an order by all that the matches take from it. -/
theorem clearMarkets_orders (hw : w.orders.Ascending) (h : (clearMarkets tick).run w = .ok trades w') :
    w'.orders = w.orders.map fun o => o.traded (taken o.id (w.matchList.map (·.2))) := by
  obtain ⟨w₁, hfills, rfl⟩ := clearMarkets_ok.1 h
  have horders := fills_orders hw (fun m hm => answered_of_mem_matchList hw hm) hfills
  exact horders

namespace World

/-- No open bid reaches an open ask of its market. -/
def Uncrossed (w : World) : Prop :=
  ∀ bid ∈ w.orders, ∀ ask ∈ w.orders, bid.isOpen → ask.isOpen → bid.side = .buy → ask.side = .sell →
    bid.market = ask.market → bid.price < ask.price

theorem Uncrossed.matchList_eq_nil (h : w.Uncrossed) : w.matchList = [] := by
  rw [matchList_eq, List.flatMap_eq_nil_iff]
  intro k _
  rw [List.map_eq_nil_iff]
  refine Book.fills_eq_nil fun bid hbid ask hask => ?_
  obtain ⟨b, hb, rfl, hbuy, hbm, hbOpen⟩ := order_of_mem_quotes hbid
  obtain ⟨a, ha, rfl, hsell, ham, haOpen⟩ := order_of_mem_quotes hask
  exact h b hb a ha hbOpen haOpen hbuy hsell (hbm.trans ham.symm)

end World

/-- Clearing leaves no market in which orders cross, so that clearing again, in whatever tick, succeeds
without a trade and changes nothing. -/
theorem clearing_uncrossed (hw : w.orders.Ascending) (h : (clearMarkets tick).run w = .ok trades w') :
    w'.Uncrossed ∧ ∀ later, (clearMarkets later).run w' = .ok [] w' := by
  have huncrossed : w'.Uncrossed := by
    intro bid' hbid' ask' hask' hbidOpen haskOpen hbuy hsell hmarket
    rw [clearMarkets_orders hw h] at hbid' hask'
    obtain ⟨bid, hbid, rfl⟩ := List.mem_map.1 hbid'
    obtain ⟨ask, hask, rfl⟩ := List.mem_map.1 hask'
    obtain ⟨hbidOpen, hbidLeft⟩ := Order.isOpen_of_traded (World.taken_le hw hbid)
      (World.isOpen_of_taken hw hbid) hbidOpen
    obtain ⟨haskOpen, haskLeft⟩ := Order.isOpen_of_traded (World.taken_le hw hask)
      (World.isOpen_of_taken hw hask) haskOpen
    obtain ⟨hbidSide, hbidPrice, hbidMarket⟩ := bid.traded_terms (taken bid.id (w.matchList.map (·.2)))
    obtain ⟨haskSide, haskPrice, haskMarket⟩ := ask.traded_terms (taken ask.id (w.matchList.map (·.2)))
    rw [hbidSide] at hbuy
    rw [haskSide] at hsell
    rw [hbidMarket, haskMarket] at hmarket
    rw [hbidPrice, haskPrice]
    by_contra hcross
    rcases World.exhausts hw hbid hask hbidOpen haskOpen hbuy hsell hmarket hcross with hspent | hspent
    · exact hbidLeft hspent
    · exact haskLeft hspent
  refine ⟨huncrossed, fun later => clearMarkets_ok.2 ⟨w', ?_, ?_⟩⟩
  · rw [huncrossed.matchList_eq_nil]
    exact Action.mapM_nil_ok.2 ⟨rfl, rfl⟩
  · rw [List.append_nil]

/-- In the busy world one trade is all there is to clear, and clearing it twice is clearing it once. -/
theorem clearing_uncrossed_busy : busyWorld.orders.Ascending ∧ ∃ trades w',
    (clearMarkets 5).run busyWorld = .ok trades w' ∧ trades.length = 1 ∧ w'.Uncrossed ∧
      (clearMarkets 6).run w' = .ok [] w' := by
  have hascending : busyWorld.orders.Ascending := by decide
  have hcount : ((clearMarkets 5).outcome busyWorld).map (·.1.length) = .ok 1 := by decide +kernel
  obtain ⟨⟨trades, w'⟩, hrun, hone⟩ := Check.map_ok.1 hcount
  have hrun := Action.outcome_ok.1 hrun
  obtain ⟨huncrossed, hagain⟩ := clearing_uncrossed hascending hrun
  exact ⟨hascending, trades, w', hrun, hone.symm, huncrossed, hagain 6⟩

end Mercantile
