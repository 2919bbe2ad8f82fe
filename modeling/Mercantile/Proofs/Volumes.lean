import Mercantile.Proofs.Matches

/-!
How many units the matches of a book take off its orders. A matching is a sequence of meetings
(`Matching`): the best bid and the best ask trade until one of them is spent, then the next one takes its
place, until they no longer cross. No order gives more units than it has (`Book.taken_le`), and of a bid
and an ask that cross at the end one is spent (`Book.exhausts`), so a book in which nothing crosses has no
matches (`Book.fills_eq_nil`).
-/

namespace Mercantile

/-- The units that a match takes off an order. -/
def Fill.units (i : OrderId) (f : Fill) : Nat :=
  if f.buyOrder = i ∨ f.sellOrder = i then f.quantity.toNat else 0

/-- The units that matches take off an order. -/
def taken (i : OrderId) (fs : List Fill) : Nat := (fs.map (Fill.units i)).sum

/-- The units of an order that a quote offers. -/
def Quote.units (i : OrderId) (q : Quote) : Nat := if q.order = i then q.remaining.toNat else 0

/-- The units of an order that quotes offer. -/
def volume (i : OrderId) (qs : List Quote) : Nat := (qs.map (Quote.units i)).sum

section

variable {i : OrderId} {f : Fill} {fs gs : List Fill} {q : Quote} {qs ps : List Quote}

theorem taken_cons : taken i (f :: fs) = f.units i + taken i fs := by
  simp only [taken, List.map_cons, List.sum_cons]

theorem taken_append : taken i (fs ++ gs) = taken i fs + taken i gs := by
  simp only [taken, List.map_append, List.sum_append]

theorem volume_cons : volume i (q :: qs) = q.units i + volume i qs := by
  simp only [volume, List.map_cons, List.sum_cons]

theorem volume_append : volume i (qs ++ ps) = volume i qs + volume i ps := by
  simp only [volume, List.map_append, List.sum_append]

theorem volume_perm (h : qs.Perm ps) : volume i qs = volume i ps := (h.map _).sum_eq

theorem volume_eq_zero (h : i ∉ qs.map (·.order)) : volume i qs = 0 := by
  refine List.sum_eq_zero fun n hn => ?_
  obtain ⟨q, hq, rfl⟩ := List.mem_map.1 hn
  exact if_neg fun hi => h (List.mem_map.2 ⟨q, hq, hi⟩)

/-- An order with a single quote offers what the quote does. -/
theorem volume_of_mem (hqs : (qs.map (·.order)).Nodup) (hq : q ∈ qs) :
    volume q.order qs = q.remaining.toNat := by
  induction qs with
  | nil => cases hq
  | cons p qs ih =>
      rw [List.map_cons, List.nodup_cons] at hqs
      rw [volume_cons, Quote.units]
      rcases List.mem_cons.1 hq with rfl | hq
      · rw [if_pos rfl, volume_eq_zero hqs.1, Nat.add_zero]
      · have hpq : p.order ≠ q.order := fun he => hqs.1 (List.mem_map.2 ⟨q, hq, he.symm⟩)
        rw [if_neg hpq, ih hqs.2 hq, Nat.zero_add]

end

namespace Quote

/-- The quotes of a side once `n` units of the first have traded. -/
def after (q : Quote) (n : Quantity) (qs : List Quote) : List Quote :=
  if q.remaining ≤ n then qs else q.less n :: qs

/-- The match of a bid and an ask over `n` units, if there are any. -/
def trade (bid ask : Quote) (n : Quantity) : List Fill := if n = 0 then [] else [bid.fill ask n]

variable {i : OrderId} {bid ask p q : Quote} {qs : List Quote} {n : Quantity}

theorem taken_trade : taken i (bid.trade ask n) =
    if bid.order = i ∨ ask.order = i then n.toNat else 0 := by
  by_cases hn : n = 0
  · have hzero : (0 : Quantity).toNat = 0 := rfl
    rw [trade, if_pos hn, hn, hzero, ite_self]
    rfl
  · rw [trade, if_neg hn, taken_cons]
    exact Nat.add_zero _

/-- What an order offers is what still is on offer and what has traded. -/
theorem volume_after (hn : n ≤ q.remaining) :
    volume i (q :: qs) = volume i (q.after n qs) + if q.order = i then n.toNat else 0 := by
  have hle := UInt64.le_iff_toNat_le.1 hn
  have hless : (q.remaining - n).toNat = q.remaining.toNat - n.toNat := UInt64.toNat_sub_of_le _ _ hn
  rw [volume_cons, after]
  split
  · next hspent =>
    rw [units, ← UInt64.le_antisymm hn hspent]
    omega
  · simp only [volume_cons, units, less]
    split <;> omega

/-- A view that does not show the remaining units sees at most the quotes that were there. -/
theorem after_sublist {β : Type} {g : Quote → β} (hg : g (q.less n) = g q) :
    ((q.after n qs).map g).Sublist ((q :: qs).map g) := by
  rw [after]
  split
  · exact List.sublist_cons_self _ _
  · rw [List.map_cons, List.map_cons, hg]

/-- What a trade leaves of a side was there, but for the units. -/
theorem mem_after (hp : p ∈ q.after n qs) :
    ∃ r ∈ q :: qs, r.order = p.order ∧ r.company = p.company ∧ r.price = p.price := by
  rw [after] at hp
  split at hp
  · exact ⟨p, List.mem_cons_of_mem _ hp, rfl, rfl, rfl⟩
  · rcases List.mem_cons.1 hp with rfl | hp
    · exact ⟨q, List.mem_cons_self, rfl, rfl, rfl⟩
    · exact ⟨p, List.mem_cons_of_mem _ hp, rfl, rfl, rfl⟩

/-- A quote of a side is still there after a trade, or nothing of its order is. -/
theorem after_cases (hqs : ((q :: qs).map (·.order)).Nodup) (hp : p ∈ q :: qs) :
    (∃ r ∈ q.after n qs, r.order = p.order ∧ r.price = p.price) ∨ volume p.order (q.after n qs) = 0 := by
  rw [after]
  rw [List.map_cons, List.nodup_cons] at hqs
  rcases List.mem_cons.1 hp with rfl | hp
  · split
    · exact Or.inr (volume_eq_zero hqs.1)
    · exact Or.inl ⟨p.less n, List.mem_cons_self, rfl, rfl⟩
  · refine Or.inl ⟨p, ?_, rfl, rfl⟩
    split
    · exact hp
    · exact List.mem_cons_of_mem _ hp

end Quote

/-- The matches of two sides, as a sequence of meetings between the first quotes of both. -/
inductive Matching : List Quote → List Quote → List Fill → Prop
  | stop {bids asks : List Quote} :
      (∀ bid ∈ bids.head?, ∀ ask ∈ asks.head?, bid.price < ask.price) → Matching bids asks []
  | meet {bid ask : Quote} {bids asks : List Quote} {fs : List Fill} (n : Quantity) :
      ¬ bid.price < ask.price → n = min bid.remaining ask.remaining →
      Matching (bid.after n bids) (ask.after n asks) fs →
      Matching (bid :: bids) (ask :: asks) (bid.trade ask n ++ fs)

/-- The three ways in which a meeting can end are one. -/
theorem Matching.rest {bid ask : Quote} {bids asks : List Quote} {fs₁ fs₂ fs₃ : List Fill}
    {n : Quantity} (hn : n = min bid.remaining ask.remaining)
    (hbid : Matching bids (ask.less n :: asks) fs₁) (hask : Matching (bid.less n :: bids) asks fs₂)
    (hboth : Matching bids asks fs₃) :
    Matching (bid.after n bids) (ask.after n asks)
      (if bid.remaining < ask.remaining then fs₁
        else if ask.remaining < bid.remaining then fs₂ else fs₃) := by
  have hmin : n.toNat = min bid.remaining.toNat ask.remaining.toNat := by rw [hn, UInt64.toNat_min]
  simp only [Quote.after, UInt64.le_iff_toNat_le, UInt64.lt_iff_toNat_lt]
  by_cases hfewer : bid.remaining.toNat < ask.remaining.toNat
  · rw [if_pos (by omega), if_neg (by omega), if_pos hfewer]
    exact hbid
  · by_cases hmore : ask.remaining.toNat < bid.remaining.toNat
    · rw [if_neg (by omega), if_pos (by omega), if_neg hfewer, if_pos hmore]
      exact hask
    · rw [if_pos (by omega), if_pos (by omega), if_neg hfewer, if_neg hmore]
      exact hboth

theorem matching_matchRanked (bids asks : List Quote) : Matching bids asks (matchRanked bids asks) := by
  fun_induction matchRanked bids asks with
  | case1 bid bids ask asks hapart =>
      refine .stop fun b hb a ha => ?_
      cases hb
      cases ha
      exact hapart
  | case2 bid bids ask asks hcross n rest hnone ihBid ihAsk ihBoth =>
      have hmeet := Matching.meet n hcross rfl (Matching.rest rfl ihBid ihAsk ihBoth)
      rw [Quote.trade, if_pos hnone] at hmeet
      exact hmeet
  | case3 bid bids ask asks hcross n rest hsome ihBid ihAsk ihBoth =>
      have hmeet := Matching.meet n hcross rfl (Matching.rest rfl ihBid ihAsk ihBoth)
      rw [Quote.trade, if_neg hsome] at hmeet
      exact hmeet
  | case4 bids asks hends =>
      refine .stop fun bid hbid ask hask => ?_
      cases bids with
      | nil => cases hbid
      | cons b bids =>
          cases asks with
          | nil => cases hask
          | cons a asks => exact absurd rfl (hends b bids a asks rfl)

/-- Sides in the order of their prices, the best first. -/
structure Graded (bids asks : List Quote) : Prop where
  falling : (bids.map (·.price)).Pairwise fun p q => q ≤ p
  rising : (asks.map (·.price)).Pairwise fun p q => p ≤ q

namespace Graded

variable {bid ask q : Quote} {bids asks : List Quote} {n : Quantity}

theorem after (h : Graded (bid :: bids) (ask :: asks)) : Graded (bid.after n bids) (ask.after n asks) where
  falling := h.falling.sublist (Quote.after_sublist rfl)
  rising := h.rising.sublist (Quote.after_sublist rfl)

/-- No bid is above the first. -/
theorem price_le (h : Graded (bid :: bids) asks) (hq : q ∈ bid :: bids) : q.price ≤ bid.price := by
  rcases List.mem_cons.1 hq with rfl | hq
  · exact Int64.le_refl _
  · exact List.rel_of_pairwise_cons h.falling (List.mem_map_of_mem hq)

/-- No ask is below the first. -/
theorem le_price (h : Graded bids (ask :: asks)) (hq : q ∈ ask :: asks) : ask.price ≤ q.price := by
  rcases List.mem_cons.1 hq with rfl | hq
  · exact Int64.le_refl _
  · exact List.rel_of_pairwise_cons h.rising (List.mem_map_of_mem hq)

end Graded

/-- Sides in the order in which they meet, with one quote for an order. -/
structure Ranked (bids asks : List Quote) : Prop where
  falling : (bids.map (·.price)).Pairwise fun p q => q ≤ p
  rising : (asks.map (·.price)).Pairwise fun p q => p ≤ q
  distinct : (bids.map (·.order) ++ asks.map (·.order)).Nodup

theorem Ranked.graded {bids asks : List Quote} (h : Ranked bids asks) : Graded bids asks :=
  ⟨h.falling, h.rising⟩

theorem Ranked.after {bid ask : Quote} {bids asks : List Quote} {n : Quantity}
    (h : Ranked (bid :: bids) (ask :: asks)) : Ranked (bid.after n bids) (ask.after n asks) where
  falling := h.falling.sublist (Quote.after_sublist rfl)
  rising := h.rising.sublist (Quote.after_sublist rfl)
  distinct := h.distinct.sublist ((Quote.after_sublist rfl).append (Quote.after_sublist rfl))

namespace Matching

variable {i : OrderId} {bids asks : List Quote} {fs : List Fill}

/-- No order gives more than its quotes offer. -/
theorem taken_le (h : Matching bids asks fs) : taken i fs ≤ volume i bids + volume i asks := by
  induction h with
  | stop => exact Nat.zero_le _
  | @meet bid ask bids asks fs n hcross hn hrest ih =>
      have hbid : volume i (bid :: bids) = volume i (bid.after n bids) + _ :=
        Quote.volume_after (hn ▸ Std.min_le_left)
      have hask : volume i (ask :: asks) = volume i (ask.after n asks) + _ :=
        Quote.volume_after (hn ▸ Std.min_le_right)
      have heither : (if bid.order = i ∨ ask.order = i then n.toNat else 0) ≤
          (if bid.order = i then n.toNat else 0) + if ask.order = i then n.toNat else 0 := by
        by_cases hbidder : bid.order = i
        · rw [if_pos (Or.inl hbidder), if_pos hbidder]
          exact Nat.le_add_right _ _
        · simp only [hbidder, false_or, if_false, Nat.zero_add, Nat.le_refl]
      rw [taken_append, Quote.taken_trade, hbid, hask]
      omega

/-- A match is one of a bid with an ask that it crosses. -/
theorem crossed (h : Matching bids asks fs) {f : Fill} (hf : f ∈ fs) :
    ∃ bid ∈ bids, ∃ ask ∈ asks, ask.price ≤ bid.price ∧ ∃ q : Quantity, q ≠ 0 ∧ f = bid.fill ask q := by
  induction h with
  | stop => cases hf
  | @meet bid ask bids asks fs n hcross _ _ ih =>
      rcases List.mem_append.1 hf with hf | hf
      · by_cases hn : n = 0
        · rw [Quote.trade, if_pos hn] at hf
          cases hf
        · rw [Quote.trade, if_neg hn, List.mem_singleton] at hf
          exact ⟨bid, List.mem_cons_self, ask, List.mem_cons_self, Int64.not_lt.1 hcross, n, hn, hf⟩
      · obtain ⟨b, hb, a, ha, hle, q, hq, rfl⟩ := ih hf
        obtain ⟨bid', hbid', hbo, hbc, hbp⟩ := Quote.mem_after hb
        obtain ⟨ask', hask', hao, hac, hap⟩ := Quote.mem_after ha
        refine ⟨bid', hbid', ask', hask', by rwa [hbp, hap], q, hq, ?_⟩
        simp only [Quote.fill, Quote.restingPrice, hbo, hbc, hbp, hao, hac, hap]

/-- A match is at a price that the bid allows. -/
theorem price_le (h : Matching bids asks fs) {f : Fill} (hf : f ∈ fs) : f.price ≤ f.bidPrice := by
  obtain ⟨bid, -, ask, -, hle, q, -, rfl⟩ := h.crossed hf
  show bid.restingPrice ask ≤ bid.price
  rw [Quote.restingPrice]
  split
  · exact Int64.le_refl _
  · exact hle

/-- Of a bid and an ask that cross, one is spent in the end. -/
theorem exhausts (h : Matching bids asks fs) (hranked : Ranked bids asks) {bid ask : Quote}
    (hbid : bid ∈ bids) (hask : ask ∈ asks) (hcross : ¬ bid.price < ask.price) :
    taken bid.order fs = volume bid.order bids ∨ taken ask.order fs = volume ask.order asks := by
  induction h generalizing bid ask with
  | @stop bids asks hapart =>
      cases bids with
      | nil => cases hbid
      | cons b bids =>
          cases asks with
          | nil => cases hask
          | cons a asks =>
              have hbest := hranked.graded.price_le hbid
              have hleast := hranked.graded.le_price hask
              have hlt := hapart b rfl a rfl
              rw [Int64.lt_iff_toInt_lt] at hlt hcross
              rw [Int64.le_iff_toInt_le] at hbest hleast
              omega
  | @meet b a bids asks fs n _ hn hrest ih =>
      obtain ⟨hbids, hasks, hdisjoint⟩ := List.nodup_append.1 hranked.distinct
      have hab : a.order ≠ bid.order := fun he =>
        hdisjoint _ (List.mem_map_of_mem hbid) _ (List.mem_map_of_mem List.mem_cons_self) he.symm
      have hba : b.order ≠ ask.order := fun he =>
        hdisjoint _ (List.mem_map_of_mem List.mem_cons_self) _ (List.mem_map_of_mem hask) he
      have hbidBefore : volume bid.order (b :: bids) = volume bid.order (b.after n bids) + _ :=
        Quote.volume_after (hn ▸ Std.min_le_left)
      have haskBefore : volume ask.order (a :: asks) = volume ask.order (a.after n asks) + _ :=
        Quote.volume_after (hn ▸ Std.min_le_right)
      have hnoAsk : volume bid.order (a.after n asks) = 0 := volume_eq_zero fun hmem =>
        hdisjoint _ (List.mem_map_of_mem hbid) _ ((Quote.after_sublist rfl).subset hmem) rfl
      have hnoBid : volume ask.order (b.after n bids) = 0 := volume_eq_zero fun hmem =>
        hdisjoint _ ((Quote.after_sublist rfl).subset hmem) _ (List.mem_map_of_mem hask) rfl
      have hbidTaken := hrest.taken_le (i := bid.order)
      have haskTaken := hrest.taken_le (i := ask.order)
      simp only [taken_append, Quote.taken_trade, hab, hba, or_false, false_or]
      rcases Quote.after_cases (n := n) hbids hbid with ⟨bid', hbid', hbidOrder, hbidPrice⟩ | hspent
      · rcases Quote.after_cases (n := n) hasks hask with ⟨ask', hask', haskOrder, haskPrice⟩ | hspent
        · have hlater := ih hranked.after hbid' hask' (by rw [hbidPrice, haskPrice]; exact hcross)
          rw [hbidOrder, haskOrder] at hlater
          omega
        · omega
      · omega

/-- Where no bid reaches an ask there are no matches. -/
theorem eq_nil (h : Matching bids asks fs) (hapart : ∀ bid ∈ bids, ∀ ask ∈ asks, bid.price < ask.price) :
    fs = [] := by
  cases h with
  | stop => rfl
  | meet n hcross => exact absurd (hapart _ List.mem_cons_self _ List.mem_cons_self) hcross

end Matching

namespace Quote

theorem bidLe_iff {p q : Quote} : p.bidLe q ↔
    q.price.toInt < p.price.toInt ∨ p.price.toInt = q.price.toInt ∧ p.order.toNat ≤ q.order.toNat := by
  simp only [bidLe, Bool.or_eq_true, Bool.and_eq_true, decide_eq_true_eq, Int64.lt_iff_toInt_lt,
    Int64.toInt_inj]

theorem askLe_iff {p q : Quote} : p.askLe q ↔
    p.price.toInt < q.price.toInt ∨ p.price.toInt = q.price.toInt ∧ p.order.toNat ≤ q.order.toNat := by
  simp only [askLe, Bool.or_eq_true, Bool.and_eq_true, decide_eq_true_eq, Int64.lt_iff_toInt_lt,
    Int64.toInt_inj]

end Quote

namespace Book

variable {b : Book}

/-- The book has one quote for an order. -/
def Distinct (b : Book) : Prop := (b.bids.map (·.order) ++ b.asks.map (·.order)).Nodup

theorem pairwise_rankedBids (b : Book) : b.rankedBids.Pairwise (Quote.bidLe · ·) :=
  List.pairwise_mergeSort
    (fun p q r hpq hqr => by
      rw [Quote.bidLe_iff] at *
      omega)
    (fun p q => by
      rw [Bool.or_eq_true, Quote.bidLe_iff, Quote.bidLe_iff]
      omega) _

theorem pairwise_rankedAsks (b : Book) : b.rankedAsks.Pairwise (Quote.askLe · ·) :=
  List.pairwise_mergeSort
    (fun p q r hpq hqr => by
      rw [Quote.askLe_iff] at *
      omega)
    (fun p q => by
      rw [Bool.or_eq_true, Quote.askLe_iff, Quote.askLe_iff]
      omega) _

theorem graded (b : Book) : Graded b.rankedBids b.rankedAsks where
  falling := List.pairwise_map.2 <| b.pairwise_rankedBids.imp fun hpq => by
    rw [Quote.bidLe_iff] at hpq
    rw [Int64.le_iff_toInt_le]
    omega
  rising := List.pairwise_map.2 <| b.pairwise_rankedAsks.imp fun hpq => by
    rw [Quote.askLe_iff] at hpq
    rw [Int64.le_iff_toInt_le]
    omega

theorem Distinct.ranked (h : b.Distinct) : Ranked b.rankedBids b.rankedAsks where
  falling := b.graded.falling
  rising := b.graded.rising
  distinct := (((List.mergeSort_perm _ _).map _).append ((List.mergeSort_perm _ _).map _)).nodup_iff.2 h

theorem matching (b : Book) : Matching b.rankedBids b.rankedAsks b.fills := matching_matchRanked _ _

/-- The matches of a book take no more from an order than it offers there. -/
theorem taken_le (b : Book) (i : OrderId) : taken i b.fills ≤ volume i b.bids + volume i b.asks := by
  have hle := b.matching.taken_le (i := i)
  rwa [rankedBids, rankedAsks, volume_perm (List.mergeSort_perm _ _),
    volume_perm (List.mergeSort_perm _ _)] at hle

/-- Of a bid and an ask that cross, the matches of the book leave nothing of one. -/
theorem Distinct.exhausts (h : b.Distinct) {bid ask : Quote} (hbid : bid ∈ b.bids) (hask : ask ∈ b.asks)
    (hcross : ¬ bid.price < ask.price) :
    taken bid.order b.fills = bid.remaining.toNat ∨ taken ask.order b.fills = ask.remaining.toNat := by
  obtain ⟨hbids, hasks, -⟩ := List.nodup_append.1 h
  rw [← volume_of_mem hbids hbid, ← volume_of_mem hasks hask,
    ← volume_perm (List.mergeSort_perm b.bids Quote.bidLe),
    ← volume_perm (List.mergeSort_perm b.asks Quote.askLe)]
  exact b.matching.exhausts h.ranked (List.mem_mergeSort.2 hbid) (List.mem_mergeSort.2 hask) hcross

theorem price_le_of_mem_fills {f : Fill} (h : f ∈ b.fills) : f.price ≤ f.bidPrice :=
  b.matching.price_le h

theorem fills_eq_nil (h : ∀ bid ∈ b.bids, ∀ ask ∈ b.asks, bid.price < ask.price) : b.fills = [] :=
  b.matching.eq_nil fun bid hbid ask hask =>
    h bid (List.mem_mergeSort.1 hbid) ask (List.mem_mergeSort.1 hask)

end Book

end Mercantile
