import Mathlib.Order.Bounds.Defs
import Mercantile.Proofs.Volumes

/-!
How much a book trades. At a price `p` the units that can change hands are the fewer of two: those of the
bids with that limit or a higher one (`demand`), and those of the asks with that limit or a lower one
(`supply`). A meeting takes as many units off both curves as it trades, and only at prices between the two
limits, so no price ever allows more than what is still traded (`Matching.min_le_turnover`), and one price
allows all of it (`Matching.exists_price`). The matches of a book are therefore worth the greatest volume of
a single price (`Book.turnover_greatest`).
-/

namespace Mercantile

/-- The units of the quotes whose limits are of a kind. -/
def limitVolume (limit : Cents → Bool) (qs : List Quote) : Nat :=
  ((qs.filter fun q => limit q.price).map (·.remaining.toNat)).sum

/-- The units that are wanted at a price. -/
def demand (bids : List Quote) (p : Cents) : Nat := limitVolume (p ≤ ·) bids

/-- The units that are on offer at a price. -/
def supply (asks : List Quote) (p : Cents) : Nat := limitVolume (· ≤ p) asks

/-- The units that change hands. -/
def turnover (fs : List Fill) : Nat := (fs.map (·.quantity.toNat)).sum

section

variable {limit : Cents → Bool} {q bid ask : Quote} {qs ps : List Quote} {fs gs : List Fill} {n : Quantity}

theorem limitVolume_cons : limitVolume limit (q :: qs) =
    (if limit q.price then q.remaining.toNat else 0) + limitVolume limit qs := by
  rw [limitVolume, List.filter_cons]
  by_cases hq : limit q.price
  · rw [if_pos hq, if_pos hq, List.map_cons, List.sum_cons, limitVolume]
  · rw [if_neg hq, if_neg hq, Nat.zero_add, limitVolume]

theorem limitVolume_perm (h : qs.Perm ps) : limitVolume limit qs = limitVolume limit ps :=
  ((h.filter _).map _).sum_eq

theorem limitVolume_eq_zero (h : ∀ q ∈ qs, ¬ limit q.price) : limitVolume limit qs = 0 := by
  have hnone : qs.filter (fun q => limit q.price) = [] := List.filter_eq_nil_iff.2 h
  rw [limitVolume, hnone]
  rfl

/-- A curve falls by the units that trade, at the prices that the quote allows. -/
theorem limitVolume_after (hn : n ≤ q.remaining) : limitVolume limit (q :: qs) =
    limitVolume limit (q.after n qs) + if limit q.price then n.toNat else 0 := by
  have hle := UInt64.le_iff_toNat_le.1 hn
  have hless : (q.remaining - n).toNat = q.remaining.toNat - n.toNat := UInt64.toNat_sub_of_le _ _ hn
  rw [Quote.after]
  by_cases hspent : q.remaining ≤ n
  · rw [if_pos hspent, limitVolume_cons, UInt64.le_antisymm hn hspent]
    exact Nat.add_comm _ _
  · rw [if_neg hspent, limitVolume_cons, limitVolume_cons]
    show _ = (if limit q.price then (q.remaining - n).toNat else 0) + limitVolume limit qs + _
    by_cases hq : limit q.price
    · rw [if_pos hq, if_pos hq, if_pos hq, hless]
      omega
    · rw [if_neg hq, if_neg hq, if_neg hq, Nat.add_zero]

theorem limitVolume_le_after (hn : n ≤ q.remaining) :
    limitVolume limit (q :: qs) ≤ limitVolume limit (q.after n qs) + n.toNat := by
  rw [limitVolume_after hn]
  split <;> omega

theorem turnover_append : turnover (fs ++ gs) = turnover fs + turnover gs := by
  simp only [turnover, List.map_append, List.sum_append]

theorem turnover_trade : turnover (bid.trade ask n) = n.toNat := by
  by_cases hn : n = 0
  · rw [Quote.trade, if_pos hn, hn]
    rfl
  · rw [Quote.trade, if_neg hn]
    exact Nat.add_zero _

end

namespace Graded

variable {bid ask : Quote} {bids asks : List Quote} {p : Cents}

/-- Nothing is wanted above the best bid. -/
theorem demand_eq_zero (h : Graded (bid :: bids) asks) (hp : bid.price < p) : demand (bid :: bids) p = 0 := by
  refine limitVolume_eq_zero fun q hq hle => ?_
  exact Int64.not_le.2 hp (Int64.le_trans (of_decide_eq_true hle) (h.price_le hq))

/-- Nothing is on offer below the best ask. -/
theorem supply_eq_zero (h : Graded bids (ask :: asks)) (hp : p < ask.price) : supply (ask :: asks) p = 0 := by
  refine limitVolume_eq_zero fun q hq hle => ?_
  exact Int64.not_le.2 hp (Int64.le_trans (h.le_price hq) (of_decide_eq_true hle))

/-- Where the best quotes do not cross, no price is met on both sides. -/
theorem min_eq_zero (h : Graded bids asks)
    (hapart : ∀ bid ∈ bids.head?, ∀ ask ∈ asks.head?, bid.price < ask.price) (p : Cents) :
    min (demand bids p) (supply asks p) = 0 := by
  cases bids with
  | nil => exact Nat.zero_min _
  | cons bid bids =>
      cases asks with
      | nil => exact Nat.min_zero _
      | cons ask asks =>
          by_cases hp : bid.price < p
          · rw [h.demand_eq_zero hp, Nat.zero_min]
          · have hlt := hapart bid rfl ask rfl
            rw [h.supply_eq_zero (Int64.lt_of_le_of_lt (Int64.not_lt.1 hp) hlt), Nat.min_zero]

end Graded

namespace Matching

variable {bids asks : List Quote} {fs : List Fill}

/-- No price allows more than what is traded. -/
theorem min_le_turnover (h : Matching bids asks fs) (hgraded : Graded bids asks) (p : Cents) :
    min (demand bids p) (supply asks p) ≤ turnover fs := by
  induction h with
  | stop hapart => exact Nat.le_of_eq (hgraded.min_eq_zero hapart p)
  | @meet bid ask bids asks fs n _ hn _ ih =>
      have hdemand : demand (bid :: bids) p ≤ demand (bid.after n bids) p + n.toNat :=
        limitVolume_le_after (hn ▸ Std.min_le_left)
      have hsupply : supply (ask :: asks) p ≤ supply (ask.after n asks) p + n.toNat :=
        limitVolume_le_after (hn ▸ Std.min_le_right)
      have hrest := ih hgraded.after
      rw [turnover_append, turnover_trade]
      omega

/-- One price allows all that is traded. -/
theorem exists_price (h : Matching bids asks fs) (hgraded : Graded bids asks) :
    ∃ p, turnover fs = min (demand bids p) (supply asks p) := by
  induction h with
  | stop hapart => exact ⟨0, (hgraded.min_eq_zero hapart 0).symm⟩
  | @meet bid ask bids asks fs n hcross hn hrest ih =>
      have hdemand (p : Cents) : demand (bid :: bids) p = demand (bid.after n bids) p + _ :=
        limitVolume_after (hn ▸ Std.min_le_left)
      have hsupply (p : Cents) : supply (ask :: asks) p = supply (ask.after n asks) p + _ :=
        limitVolume_after (hn ▸ Std.min_le_right)
      have hbetween {p : Cents} (hask : ask.price ≤ p) (hbid : p ≤ bid.price) :
          min (demand (bid :: bids) p) (supply (ask :: asks) p) =
            n.toNat + min (demand (bid.after n bids) p) (supply (ask.after n asks) p) := by
        rw [hdemand, hsupply, if_pos (decide_eq_true hbid), if_pos (decide_eq_true hask)]
        omega
      have hgraded' := hgraded.after (n := n)
      obtain ⟨p, hp⟩ := ih hgraded'
      rw [turnover_append, turnover_trade, hp]
      by_cases hin : ask.price ≤ p ∧ p ≤ bid.price
      · exact ⟨p, (hbetween hin.1 hin.2).symm⟩
      · have hnone : min (demand (bid.after n bids) p) (supply (ask.after n asks) p) = 0 := by
          by_cases hask : ask.price ≤ p
          · have hzero := hgraded.demand_eq_zero (Int64.not_le.1 fun hbid => hin ⟨hask, hbid⟩)
            have hfallen := hdemand p
            omega
          · have hzero := hgraded.supply_eq_zero (Int64.not_le.1 hask)
            have hfallen := hsupply p
            omega
        have hbest := hrest.min_le_turnover hgraded' bid.price
        refine ⟨bid.price, ?_⟩
        rw [hbetween (Int64.not_lt.1 hcross) (Int64.le_refl _)]
        omega

end Matching

namespace Book

/-- The matches of a book trade the greatest volume that a single price allows, which is nothing where no
price is met on both sides. -/
theorem turnover_greatest (b : Book) :
    IsGreatest (Set.range fun p : Cents => min (demand b.bids p) (supply b.asks p)) (turnover b.fills) := by
  have hdemand (p : Cents) : demand b.bids p = demand b.rankedBids p :=
    (limitVolume_perm (List.mergeSort_perm _ _)).symm
  have hsupply (p : Cents) : supply b.asks p = supply b.rankedAsks p :=
    (limitVolume_perm (List.mergeSort_perm _ _)).symm
  simp only [hdemand, hsupply]
  constructor
  · obtain ⟨p, hp⟩ := b.matching.exists_price b.graded
    exact ⟨p, hp.symm⟩
  · rintro _ ⟨p, rfl⟩
    exact b.matching.min_le_turnover b.graded p

/-- From 10 to 12 both sides allow five units, and at 9 the asks allow three. -/
example : turnover (Book.fills ⟨[⟨⟨1⟩, ⟨1⟩, 9, 4⟩, ⟨⟨2⟩, ⟨1⟩, 12, 0⟩, ⟨⟨3⟩, ⟨1⟩, 12, 5⟩],
    [⟨⟨4⟩, ⟨2⟩, 10, 3⟩, ⟨⟨5⟩, ⟨2⟩, 9, 3⟩, ⟨⟨6⟩, ⟨2⟩, 13, 7⟩]⟩) = 5 := by cbv

end Book

end Mercantile
