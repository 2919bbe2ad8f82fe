import Mathlib.Data.List.Nodup
import Mathlib.Data.List.Pairwise
import Mercantile.Proofs.Volumes

/-!
In which order the matches of a book reach its quotes. Either side is drawn off its front, a quote at a time
(`Drained`): as long as the first quote has units left nothing behind it trades, and what was left behind is
never returned to. On a side that is ranked this is price-time priority (`Drained.prioritised`), and both
sides of a book are drawn off in this way by the same matches (`Book.Distinct.price_time_priority`). How the
quotes of a side are listed does not matter: ranks and orders decide alone (`Book.fills_eq_of_perm`).
-/

namespace Mercantile

/-- A bid ranks before another: its limit is higher, or the same and it is older. -/
def Quote.bidBefore (x y : Quote) : Prop :=
  y.price < x.price ∨ x.price = y.price ∧ x.order.toNat < y.order.toNat

/-- An ask ranks before another: its limit is lower, or the same and it is older. -/
def Quote.askBefore (x y : Quote) : Prop :=
  x.price < y.price ∨ x.price = y.price ∧ x.order.toNat < y.order.toNat

/-- Matches reach the quotes of one side, each of which is some match's `party`, in the order of their
ranks. -/
structure Prioritised (before : Quote → Quote → Prop) (party : Fill → OrderId) (qs : List Quote)
    (fs : List Fill) : Prop where
  /-- A quote trades only if all that rank before it are filled. -/
  filled : ∀ x ∈ qs, ∀ y ∈ qs, before x y → (∃ f ∈ fs, party f = y.order) →
    taken x.order fs = x.remaining.toNat
  bounded : ∀ q ∈ qs, taken q.order fs ≤ q.remaining.toNat
  /-- A later match is not with a quote that ranks before. -/
  forward : fs.Pairwise fun f g =>
    ∀ x ∈ qs, ∀ y ∈ qs, party f = x.order → party g = y.order → ¬ before y x

/-- A match is between a bid and an ask, at a price that both allow and that the older of them asked. -/
structure Fill.Joins (f : Fill) (bid ask : Quote) : Prop where
  positive : 0 < f.quantity.toNat
  buyOrder : f.buyOrder = bid.order
  buyer : f.buyer = bid.company
  bidPrice : f.bidPrice = bid.price
  sellOrder : f.sellOrder = ask.order
  seller : f.seller = ask.company
  price_of_bid : bid.order.toNat < ask.order.toNat → f.price = bid.price
  price_of_ask : ask.order.toNat < bid.order.toNat → f.price = ask.price
  ask_le : ask.price ≤ f.price
  le_bid : f.price ≤ bid.price

theorem Quote.joins_fill {bid ask : Quote} {q : Quantity} (hq : q ≠ 0) (hcross : ask.price ≤ bid.price) :
    (bid.fill ask q).Joins bid ask := by
  have hpos : 0 < q.toNat := Nat.pos_of_ne_zero fun hzero => hq (UInt64.toNat_inj.1 hzero)
  by_cases hold : bid.order.toNat < ask.order.toNat
  · have hprice : bid.restingPrice ask = bid.price := if_pos hold
    exact
      { positive := hpos, buyOrder := rfl, buyer := rfl, bidPrice := rfl, sellOrder := rfl, seller := rfl
        price_of_bid := fun _ => hprice
        price_of_ask := fun hyoung => absurd hold (Nat.lt_asymm hyoung)
        ask_le := by rw [Quote.fill, hprice]; exact hcross
        le_bid := by rw [Quote.fill, hprice]; exact Int64.le_refl _ }
  · have hprice : bid.restingPrice ask = ask.price := if_neg hold
    exact
      { positive := hpos, buyOrder := rfl, buyer := rfl, bidPrice := rfl, sellOrder := rfl, seller := rfl
        price_of_bid := fun hyoung => absurd hyoung hold
        price_of_ask := fun _ => hprice
        ask_le := by rw [Quote.fill, hprice]; exact Int64.le_refl _
        le_bid := by rw [Quote.fill, hprice]; exact hcross }

/-- The units of the matches with an order for their party. -/
def drawnOff (party : Fill → OrderId) (i : OrderId) (fs : List Fill) : Nat :=
  (fs.map fun f => if party f = i then f.quantity.toNat else 0).sum

/-- Matches draw a side off from its front. -/
inductive Drained (party : Fill → OrderId) : List Quote → List Fill → Prop
  | stop (qs : List Quote) : Drained party qs []
  | take {q : Quote} {qs : List Quote} {fs gs : List Fill} (n : Quantity) :
      n ≤ q.remaining → (∀ f ∈ gs, party f = q.order) →
      (∀ i, drawnOff party i gs = if q.order = i then n.toNat else 0) →
      Drained party (q.after n qs) fs → Drained party (q :: qs) (gs ++ fs)

section

variable {party : Fill → OrderId} {i j : OrderId} {f : Fill} {fs gs : List Fill} {x y : Quote}
  {bids asks qs ps : List Quote} {before : Quote → Quote → Prop}

theorem drawnOff_append : drawnOff party i (fs ++ gs) = drawnOff party i fs + drawnOff party i gs := by
  simp only [drawnOff, List.map_append, List.sum_append]

/-- What an order gives is what it gives as a party, if it is no other party. -/
theorem taken_eq_drawnOff (h : ∀ f ∈ fs, f.buyOrder = i ∨ f.sellOrder = i ↔ party f = i) :
    taken i fs = drawnOff party i fs := by
  have hunits : fs.map (Fill.units i) = fs.map fun f => if party f = i then f.quantity.toNat else 0 :=
    List.map_congr_left fun f hf => by simp only [Fill.units, h f hf]
  rw [taken, hunits, drawnOff]

/-- A meeting draws its units off either side. -/
theorem Quote.drawnOff_trade (party : Fill → OrderId) (bid ask : Quote) (n : Quantity)
    (hj : ∀ m, party (bid.fill ask m) = j) : (∀ f ∈ bid.trade ask n, party f = j) ∧
      ∀ i, drawnOff party i (bid.trade ask n) = if j = i then n.toNat else 0 := by
  by_cases hn : n = 0
  · rw [Quote.trade, if_pos hn, hn]
    exact ⟨fun _ hf => absurd hf List.not_mem_nil, fun i => (ite_self _).symm⟩
  · rw [Quote.trade, if_neg hn]
    refine ⟨fun f hf => by rw [List.mem_singleton.1 hf, hj], fun i => ?_⟩
    simp only [drawnOff, List.map_cons, List.map_nil, List.sum_cons, List.sum_nil, hj, Nat.add_zero]
    rfl

theorem Matching.drained_bids (h : Matching bids asks fs) : Drained Fill.buyOrder bids fs := by
  induction h with
  | stop => exact .stop _
  | @meet bid ask bids asks fs n _ hn _ ih =>
      obtain ⟨hparty, hdrawn⟩ := bid.drawnOff_trade Fill.buyOrder ask n (j := bid.order) fun _ => rfl
      exact .take n (hn ▸ Std.min_le_left) hparty hdrawn ih

theorem Matching.drained_asks (h : Matching bids asks fs) : Drained Fill.sellOrder asks fs := by
  induction h with
  | stop => exact .stop _
  | @meet bid ask bids asks fs n _ hn _ ih =>
      obtain ⟨hparty, hdrawn⟩ := bid.drawnOff_trade Fill.sellOrder ask n (j := ask.order) fun _ => rfl
      exact .take n (hn ▸ Std.min_le_right) hparty hdrawn ih

/-- In a list that is in the order of a relation, the lesser stands in front of the greater. -/
theorem sublist_of_pairwise [Std.Asymm before] (h : qs.Pairwise before) (hx : x ∈ qs) (hy : y ∈ qs)
    (hxy : before x y) : [x, y].Sublist qs := by
  have : Std.Symm fun x y => [x, y].Sublist qs ∨ [y, x].Sublist qs := ⟨fun _ _ => Or.symm⟩
  have heither : qs.Pairwise fun x y => [x, y].Sublist qs ∨ [y, x].Sublist qs :=
    List.pairwise_iff_forall_sublist.2 Or.inl
  have hne : x ≠ y := fun he => Std.Asymm.asymm _ _ hxy (he ▸ hxy)
  refine (heither.forall hx hy hne).resolve_right fun hback => ?_
  exact Std.Asymm.asymm _ _ hxy (List.pairwise_iff_forall_sublist.1 h hback)

namespace Drained

theorem party_mem (h : Drained party qs fs) (hf : f ∈ fs) : party f ∈ qs.map (·.order) := by
  induction h with
  | stop => cases hf
  | take n _ hparty _ _ ih =>
      rcases List.mem_append.1 hf with hf | hf
      · rw [hparty f hf]
        exact List.mem_cons_self
      · exact (Quote.after_sublist rfl).subset (ih hf)

theorem drawnOff_le (h : Drained party qs fs) : drawnOff party i fs ≤ volume i qs := by
  induction h with
  | stop => exact Nat.zero_le _
  | take n hn _ hdrawn _ ih =>
      rw [drawnOff_append, hdrawn, Quote.volume_after hn]
      omega

/-- Nothing is drawn off an order while something is left of one in front of it. -/
theorem drawnOff_eq (h : Drained party qs fs) (hqs : (qs.map (·.order)).Nodup)
    (hij : [i, j].Sublist (qs.map (·.order))) (hf : f ∈ fs) (hj : party f = j) :
    drawnOff party i fs = volume i qs := by
  induction h with
  | stop => cases hf
  | @take q qs fs gs n hn hparty hdrawn hrest ih =>
      obtain ⟨hq, hrestNodup⟩ := List.nodup_cons.1 hqs
      have hjmem : j ∈ qs.map (·.order) := by
        rcases List.sublist_cons_iff.1 hij with hin | ⟨_, ⟨-, rfl⟩, hin⟩
        · exact hin.subset (by simp)
        · exact hin.subset (by simp)
      have hlater : f ∈ fs := by
        refine (List.mem_append.1 hf).resolve_left fun hfirst => ?_
        have hfirst : q.order = j := (hparty f hfirst).symm.trans hj
        rw [← hfirst] at hjmem
        exact hq hjmem
      rw [drawnOff_append, hdrawn, Quote.volume_after hn, Nat.add_comm]
      congr 1
      by_cases hspent : q.remaining ≤ n
      · have hafter : q.after n qs = qs := if_pos hspent
        rw [hafter] at hrest ih ⊢
        rcases List.sublist_cons_iff.1 hij with hin | ⟨_, ⟨rfl, -⟩, -⟩
        · exact ih hrestNodup hin hlater
        · have hnone := hrest.drawnOff_le (i := q.order)
          rw [volume_eq_zero hq] at hnone ⊢
          exact Nat.le_zero.1 hnone
      · have hafter : q.after n qs = q.less n :: qs := if_neg hspent
        rw [hafter] at ih ⊢
        exact ih hqs hij hlater

/-- Matches go on from the quotes in front to those behind. -/
theorem pairwise_party (h : Drained party qs fs) : fs.Pairwise fun f g =>
    party f = party g ∨ [party f, party g].Sublist (qs.map (·.order)) := by
  induction h with
  | stop => exact List.Pairwise.nil
  | @take q qs fs gs n hn hparty _ hrest ih =>
      refine List.pairwise_append.2 ⟨?_, ?_, ?_⟩
      · exact List.pairwise_of_forall_mem_list fun f hf g hg =>
          Or.inl ((hparty f hf).trans (hparty g hg).symm)
      · exact ih.imp fun hfg => hfg.imp_right fun hsub => hsub.trans (Quote.after_sublist rfl)
      · intro f hf g hg
        rw [hparty f hf]
        rcases List.mem_cons.1 ((Quote.after_sublist rfl).subset (hrest.party_mem hg)) with hfirst | hbehind
        · exact Or.inl hfirst.symm
        · exact Or.inr (List.Sublist.cons_cons _ (List.singleton_sublist.2 hbehind))

/-- The order in which a ranked side is drawn off is that of its ranks. -/
theorem prioritised [Std.Asymm before] (h : Drained party qs fs) (hqs : (qs.map (·.order)).Nodup)
    (hranked : qs.Pairwise before)
    (htaken : ∀ q ∈ qs, taken q.order fs = drawnOff party q.order fs) : Prioritised before party qs fs where
  filled := by
    rintro x hx y hy hxy ⟨f, hf, hparty⟩
    have hfront : [x.order, y.order].Sublist (qs.map (·.order)) := (sublist_of_pairwise hranked hx hy hxy).map _
    rw [htaken x hx, ← volume_of_mem hqs hx]
    exact h.drawnOff_eq hqs hfront hf hparty
  bounded q hq := by
    rw [htaken q hq, ← volume_of_mem hqs hq]
    exact h.drawnOff_le
  forward := by
    have hinj := List.inj_on_of_nodup_map hqs
    have hbefore : (qs.map (·.order)).Pairwise fun i j =>
        ∀ x ∈ qs, ∀ y ∈ qs, x.order = i → y.order = j → before x y :=
      List.pairwise_map.2 <| hranked.imp_of_mem fun ha hb hab x hx y hy hxa hyb => by
        rw [hinj hx ha hxa, hinj hy hb hyb]
        exact hab
    refine h.pairwise_party.imp fun {f g} hfg x hx y hy hfx hgy hyx => ?_
    rw [hfx, hgy] at hfg
    rcases hfg with hsame | hforward
    · rw [hinj hx hy hsame] at hyx
      exact Std.Asymm.asymm _ _ hyx hyx
    · have hxy := List.pairwise_iff_forall_sublist.1 hbefore hforward x hx y hy rfl rfl
      exact Std.Asymm.asymm _ _ hxy hyx

end Drained

end

instance : Std.Asymm Quote.bidBefore where
  asymm x y hxy hyx := by
    simp only [Quote.bidBefore, Int64.lt_iff_toInt_lt, ← Int64.toInt_inj] at hxy hyx
    omega

instance : Std.Asymm Quote.askBefore where
  asymm x y hxy hyx := by
    simp only [Quote.askBefore, Int64.lt_iff_toInt_lt, ← Int64.toInt_inj] at hxy hyx
    omega

theorem Prioritised.of_mem {before : Quote → Quote → Prop} {party : Fill → OrderId} {qs ps : List Quote}
    {fs : List Fill} (h : Prioritised before party qs fs) (hps : ∀ q ∈ ps, q ∈ qs) :
    Prioritised before party ps fs where
  filled x hx y hy := h.filled x (hps x hx) y (hps y hy)
  bounded q hq := h.bounded q (hps q hq)
  forward := h.forward.imp fun hfg x hx y hy => hfg x (hps x hx) y (hps y hy)

namespace Book

variable {b : Book}

theorem Distinct.pairwise_bidBefore (h : b.Distinct) : b.rankedBids.Pairwise Quote.bidBefore := by
  have horders := List.pairwise_map.1 (List.nodup_append.1 h.ranked.distinct).1
  refine (b.pairwise_rankedBids.and horders).imp fun {x y} hxy => ?_
  have hne : x.order.toNat ≠ y.order.toNat := fun he => hxy.2 (Id.toNat_inj.1 he)
  have hle := Quote.bidLe_iff.1 hxy.1
  rw [Quote.bidBefore, Int64.lt_iff_toInt_lt, ← Int64.toInt_inj]
  omega

theorem Distinct.pairwise_askBefore (h : b.Distinct) : b.rankedAsks.Pairwise Quote.askBefore := by
  have horders := List.pairwise_map.1 (List.nodup_append.1 h.ranked.distinct).2.1
  refine (b.pairwise_rankedAsks.and horders).imp fun {x y} hxy => ?_
  have hne : x.order.toNat ≠ y.order.toNat := fun he => hxy.2 (Id.toNat_inj.1 he)
  have hle := Quote.askLe_iff.1 hxy.1
  rw [Quote.askBefore, Int64.lt_iff_toInt_lt, ← Int64.toInt_inj]
  omega

/-- A match of the book joins a bid and an ask of it. -/
theorem joins_of_mem_fills {f : Fill} (h : f ∈ b.fills) : ∃ bid ∈ b.bids, ∃ ask ∈ b.asks, f.Joins bid ask := by
  obtain ⟨bid, hbid, ask, hask, hcross, q, hq, rfl⟩ := b.matching.crossed h
  exact ⟨bid, List.mem_mergeSort.1 hbid, ask, List.mem_mergeSort.1 hask, Quote.joins_fill hq hcross⟩

/-- The matches of a book reach both sides in price-time priority, take no more of a quote than it offers,
and join a bid and an ask at the limit of the older, which both allow. -/
theorem Distinct.price_time_priority (h : b.Distinct) :
    Prioritised Quote.bidBefore Fill.buyOrder b.bids b.fills ∧
      Prioritised Quote.askBefore Fill.sellOrder b.asks b.fills ∧
      ∀ f ∈ b.fills, ∃ bid ∈ b.bids, ∃ ask ∈ b.asks, f.Joins bid ask := by
  obtain ⟨hbids, hasks, hdisjoint⟩ := List.nodup_append.1 h.ranked.distinct
  have hbidTaken : ∀ q ∈ b.rankedBids, taken q.order b.fills = drawnOff Fill.buyOrder q.order b.fills := by
    refine fun q hq => taken_eq_drawnOff fun f hf => or_iff_left fun he => ?_
    exact hdisjoint _ (List.mem_map_of_mem hq) _ (b.matching.drained_asks.party_mem hf) he.symm
  have haskTaken : ∀ q ∈ b.rankedAsks, taken q.order b.fills = drawnOff Fill.sellOrder q.order b.fills := by
    refine fun q hq => taken_eq_drawnOff fun f hf => or_iff_right fun he => ?_
    exact hdisjoint _ (b.matching.drained_bids.party_mem hf) _ (List.mem_map_of_mem hq) he
  have hbid := b.matching.drained_bids.prioritised hbids h.pairwise_bidBefore hbidTaken
  have hask := b.matching.drained_asks.prioritised hasks h.pairwise_askBefore haskTaken
  refine ⟨hbid.of_mem fun q hq => ?_, hask.of_mem fun q hq => ?_, fun f hf => joins_of_mem_fills hf⟩
  · exact List.mem_mergeSort.2 hq
  · exact List.mem_mergeSort.2 hq

/-- Two bids of one price, the younger first, and one below them, with three asks, of which one offers
nothing. -/
def ladder : Book where
  bids := [⟨⟨3⟩, ⟨1⟩, 10, 4⟩, ⟨⟨2⟩, ⟨1⟩, 10, 5⟩, ⟨⟨1⟩, ⟨2⟩, 9, 9⟩]
  asks := [⟨⟨6⟩, ⟨4⟩, 10, 6⟩, ⟨⟨5⟩, ⟨3⟩, 8, 0⟩, ⟨⟨4⟩, ⟨3⟩, 9, 7⟩]

/-- The older bid is filled before the younger one trades, and the cheaper ask before the dearer. -/
theorem price_time_priority_on_ladder : ladder.Distinct ∧
    Prioritised Quote.bidBefore Fill.buyOrder ladder.bids ladder.fills ∧
      Prioritised Quote.askBefore Fill.sellOrder ladder.asks ladder.fills ∧
      ∀ f ∈ ladder.fills, ∃ bid ∈ ladder.bids, ∃ ask ∈ ladder.asks, f.Joins bid ask := by
  have hdistinct : ladder.Distinct := by
    rw [Distinct]
    decide
  exact ⟨hdistinct, hdistinct.price_time_priority⟩

example : ladder.fills = [⟨⟨2⟩, ⟨4⟩, ⟨1⟩, ⟨3⟩, 10, 10, 5⟩, ⟨⟨3⟩, ⟨4⟩, ⟨1⟩, ⟨3⟩, 10, 10, 2⟩,
    ⟨⟨3⟩, ⟨6⟩, ⟨1⟩, ⟨4⟩, 10, 10, 2⟩] := by cbv

/-- Quotes that only their orders keep apart are ranked in the same way however they are listed. -/
theorem mergeSort_eq_of_perm {le : Quote → Quote → Bool} {qs ps : List Quote}
    (hle : ∀ rs : List Quote, (rs.mergeSort le).Pairwise (le · ·))
    (htie : ∀ x y, le x y → le y x → x.order = y.order) (hqs : (qs.map (·.order)).Nodup)
    (h : qs.Perm ps) : qs.mergeSort le = ps.mergeSort le := by
  have hinj := List.inj_on_of_nodup_map hqs
  refine List.Perm.eq_of_pairwise (fun x y hx hy hxy hyx => ?_) (hle qs) (hle ps) ?_
  · exact hinj (List.mem_mergeSort.1 hx) (h.mem_iff.2 (List.mem_mergeSort.1 hy)) (htie x y hxy hyx)
  · exact (List.mergeSort_perm qs le).trans (h.trans (List.mergeSort_perm ps le).symm)

theorem rankedBids_eq_of_perm {c : Book} (hbids : (b.bids.map (·.order)).Nodup) (h : b.bids.Perm c.bids) :
    b.rankedBids = c.rankedBids := by
  refine mergeSort_eq_of_perm (fun qs => pairwise_rankedBids ⟨qs, []⟩) (fun x y hxy hyx => ?_) hbids h
  rw [Quote.bidLe_iff] at hxy hyx
  exact Id.toNat_inj.1 (by omega)

theorem rankedAsks_eq_of_perm {c : Book} (hasks : (b.asks.map (·.order)).Nodup) (h : b.asks.Perm c.asks) :
    b.rankedAsks = c.rankedAsks := by
  refine mergeSort_eq_of_perm (fun qs => pairwise_rankedAsks ⟨[], qs⟩) (fun x y hxy hyx => ?_) hasks h
  rw [Quote.askLe_iff] at hxy hyx
  exact Id.toNat_inj.1 (by omega)

/-- The matches of a book do not depend on how either side of it is listed, if no order stands twice on one
side. -/
theorem fills_eq_of_perm {c : Book} (hbids : (b.bids.map (·.order)).Nodup) (hasks : (b.asks.map (·.order)).Nodup)
    (hbc : b.bids.Perm c.bids) (hac : b.asks.Perm c.asks) : b.fills = c.fills := by
  rw [fills, fills, rankedBids_eq_of_perm hbids hbc, rankedAsks_eq_of_perm hasks hac]

/-- The ladder, with two bids of one price, and an order that stands on both sides. -/
def shared : Book where
  bids := ladder.bids
  asks := ⟨⟨3⟩, ⟨1⟩, 9, 2⟩ :: ladder.asks

theorem fills_eq_of_perm_shared : (shared.bids.map (·.order)).Nodup ∧ (shared.asks.map (·.order)).Nodup ∧
    shared.bids.Perm shared.bids.reverse ∧ shared.asks.Perm shared.asks.reverse ∧
      shared.fills = (Book.mk shared.bids.reverse shared.asks.reverse).fills := by
  have hbids : (shared.bids.map (·.order)).Nodup := by decide
  have hasks : (shared.asks.map (·.order)).Nodup := by decide
  have hbc := (List.reverse_perm shared.bids).symm
  have hac := (List.reverse_perm shared.asks).symm
  exact ⟨hbids, hasks, hbc, hac, fills_eq_of_perm (c := ⟨_, _⟩) hbids hasks hbc hac⟩

example : shared.fills.length = 3 := by cbv

end Book

end Mercantile
