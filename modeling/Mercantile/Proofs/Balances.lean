import Mathlib.Algebra.BigOperators.Finprod
import Mathlib.Data.List.Sort
import Mercantile.Proofs.Documents
import Mercantile.Proofs.Stocks

/-!
Inventories as finite maps. An inventory is known by its quantities (`Inventory.eq_of_quantity`), so nothing of how
it came about is left in it: neither the order in which its balances were listed (`Inventory.ofBalances_perm`), nor
calls that were refused (`StockCall.quantity_run`), nor the slots that adding opens (`Inventory.addInSlot_eq`).
-/

namespace Mercantile

theorem balanceOf_of_mem {bs : List Balance} (h : InOrder bs) {b : Balance} (hb : b ∈ bs) :
    balanceOf b.key bs = b.quantity := by
  induction bs with
  | nil => cases hb
  | cons c bs ih =>
      obtain ⟨hc, hbs⟩ := List.pairwise_cons.1 h.1
      rcases List.mem_cons.1 hb with rfl | hb
      · rw [balanceOf, if_pos rfl]
      · have hne : c.key ≠ b.key := fun he => Nat.lt_irrefl _ (he ▸ hc b hb)
        rw [balanceOf, if_neg hne, ih ⟨hbs, fun d hd => h.2 d (List.mem_cons_of_mem _ hd)⟩ hb]

theorem mem_iff_balanceOf {bs : List Balance} (h : InOrder bs) {b : Balance} :
    b ∈ bs ↔ balanceOf b.key bs = b.quantity ∧ b.quantity ≠ 0 := by
  constructor
  · exact fun hb => ⟨balanceOf_of_mem h hb, h.2 b hb⟩
  · rintro ⟨hquantity, hne⟩
    obtain ⟨c, hc, hkey⟩ := exists_of_balanceOf_ne_zero (hquantity ▸ hne)
    have hsame : c.quantity = b.quantity := by rw [← balanceOf_of_mem h hc, hkey, hquantity]
    obtain rfl : c = b := by
      cases c
      cases b
      cases hkey
      cases hsame
      rfl
    exact hc

namespace StockKey

/-- A place comes before another in the order by company, then region, then item. -/
def Before (k l : StockKey) : Prop :=
  k.company.toNat < l.company.toNat ∨ k.company = l.company ∧
    (k.region.toNat < l.region.toNat ∨ k.region = l.region ∧ k.item.toNat < l.item.toNat)

theorem rank_lt_iff {k l : StockKey} : k.rank < l.rank ↔ k.Before l := by
  have hregion := k.region.toNat_lt
  have hitem := k.item.toNat_lt
  have hregion' := l.region.toNat_lt
  have hitem' := l.item.toNat_lt
  simp only [UInt64.size] at hregion hitem hregion' hitem'
  simp only [rank, Before, UInt64.size, ← Id.toNat_inj]
  omega

end StockKey

namespace Inventory

/-- Inventories with the same quantities are the same. -/
theorem eq_of_quantity {a b : Inventory} (h : ∀ k, a.quantity k = b.quantity k) : a = b := by
  have : Std.Irrefl fun b c : Balance => b.key.rank < c.key.rank := ⟨fun _ => Nat.lt_irrefl _⟩
  have : Std.Antisymm fun b c : Balance => b.key.rank < c.key.rank :=
    ⟨fun _ _ hbc hcb => absurd hbc (Nat.lt_asymm hcb)⟩
  refine eq_of_balances (a.inOrder.1.eq_of_mem_iff b.inOrder.1 fun c => ?_)
  have hc := h c.key
  rw [mem_iff_balanceOf a.inOrder, mem_iff_balanceOf b.inOrder]
  exact and_congr_left fun _ => Eq.congr_left hc

/-- Adding comes to an inventory that has so much more of the one thing, and as much of everything else. -/
theorem add_iff_quantity {inv inv' : Inventory} {k : StockKey} {q : Quantity} : inv.add k q = .ok inv' ↔
    ∀ l, (inv'.quantity l).toNat = (inv.quantity l).toNat + if l = k then q.toNat else 0 := by
  refine ⟨quantity_add, fun h => add_ok.2 ⟨inv'.quantity k, ?_, eq_of_quantity fun l => ?_⟩⟩
  · rw [h k, if_pos rfl]
  · rw [quantity_set]
    by_cases hl : l = k
    · rw [if_pos hl, hl]
    · rw [if_neg hl, ← UInt64.toNat_inj, h l, if_neg hl, Nat.add_zero]

/-- The balances are those of a finite map: in ascending order, one for each place where there is something, and
none of zero. -/
structure Canonical (inv : Inventory) : Prop where
  ascending : inv.balances.Pairwise fun b c => b.key.Before c.key
  mem_iff : ∀ b, b ∈ inv.balances ↔ inv.quantity b.key = b.quantity ∧ b.quantity ≠ 0

theorem canonical (inv : Inventory) : inv.Canonical where
  ascending := inv.inOrder.1.imp StockKey.rank_lt_iff.1
  mem_iff _ := mem_iff_balanceOf inv.inOrder

/-- The units that a list of balances names for a place, all of them together. -/
def listed (k : StockKey) (bs : List Balance) : Nat := ((bs.filter (·.key = k)).map (·.quantity.toNat)).sum

theorem listed_cons (k : StockKey) (b : Balance) (bs : List Balance) :
    listed k (b :: bs) = (if b.key = k then b.quantity.toNat else 0) + listed k bs := by
  by_cases hb : b.key = k
  · rw [listed, List.filter_cons_of_pos (by simp [hb]), List.map_cons, List.sum_cons, if_pos hb, listed]
  · rw [listed, List.filter_cons_of_neg (by simp [hb]), if_neg hb, Nat.zero_add, listed]

/-- Balances that are taken over one after another add up, to the largest word at most. -/
theorem quantity_foldl (inv : Inventory) (bs : List Balance) (k : StockKey) :
    ((bs.foldl (fun inv b => inv.set b.key ((inv.quantity b.key).addSat b.quantity)) inv).quantity k).toNat =
      min ((inv.quantity k).toNat + listed k bs) (UInt64.size - 1) := by
  induction bs generalizing inv with
  | nil =>
      have hlt := (inv.quantity k).toNat_lt_size
      rw [List.foldl_nil, listed, List.filter_nil, List.map_nil, List.sum_nil]
      omega
  | cons b bs ih =>
      rw [List.foldl_cons, ih, quantity_set, listed_cons]
      by_cases hb : b.key = k
      · rw [if_pos hb.symm, if_pos hb, UInt64.toNat_addSat, hb]
        omega
      · rw [if_neg (Ne.symm hb), if_neg hb, Nat.zero_add]

theorem quantity_ofBalances (bs : List Balance) (k : StockKey) :
    ((ofBalances bs).quantity k).toNat = min (listed k bs) (UInt64.size - 1) := by
  have hempty : (empty.quantity k).toNat = 0 := rfl
  rw [ofBalances, quantity_foldl, hempty, Nat.zero_add]

/-- How balances are listed does not matter. -/
theorem ofBalances_perm {bs cs : List Balance} (h : bs.Perm cs) : ofBalances bs = ofBalances cs := by
  refine eq_of_quantity fun k => UInt64.toNat_inj.1 ?_
  have hlisted : listed k bs = listed k cs := ((h.filter _).map _).sum_eq
  rw [quantity_ofBalances, quantity_ofBalances, hlisted]

/-- The units of an item are those of all its places, of which only the listed ones hold any. -/
theorem totalOf_eq_finsum (inv : Inventory) (item : ItemId) :
    inv.totalOf item = ∑ᶠ (k : StockKey) (_ : k.item = item), (inv.quantity k).toNat := by
  have hkeys : (inv.balances.map (·.key)).Nodup :=
    List.pairwise_map.2 (inv.inOrder.1.imp fun hlt => ne_of_apply_ne StockKey.rank (Nat.ne_of_lt hlt))
  have hinner (k : StockKey) : (∑ᶠ _ : k.item = item, (inv.quantity k).toNat) =
      if k.item = item then (inv.quantity k).toNat else 0 := finsum_eq_if
  have hsupport : (Function.support fun k : StockKey => if k.item = item then (inv.quantity k).toNat else 0) ⊆
      (inv.balances.map (·.key)).toFinset := by
    intro k hk
    have hne : balanceOf k inv.balances ≠ 0 := by
      intro hzero
      refine hk ?_
      simp [quantity, hzero]
    obtain ⟨b, hb, rfl⟩ := exists_of_balanceOf_ne_zero hne
    simpa using ⟨b, hb, rfl⟩
  simp only [hinner]
  rw [finsum_eq_sum_of_support_subset _ hsupport, List.sum_toFinset _ hkeys, List.map_map, totalOf_eq_sum]
  refine congrArg List.sum (List.map_congr_left fun b hb => ?_)
  rw [Function.comp_apply, unitsOf, quantity, balanceOf_of_mem inv.inOrder hb]

end Inventory

/-- The list with a slot for a place, which holds nothing if it is new. -/
def openSlot (k : StockKey) : List Balance → List Balance
  | [] => [⟨k, 0⟩]
  | b :: bs =>
    if b.key.rank < k.rank then b :: openSlot k bs
    else if b.key = k then b :: bs
    else ⟨k, 0⟩ :: b :: bs

/-- What adding does in place: it opens the slot first, and then finds out whether the sum is a word. -/
def addInSlot (k : StockKey) (q : Quantity) (bs : List Balance) : Except Failure Unit × List Balance :=
  if q = 0 then (.ok (), bs)
  else
    let slots := openSlot k bs
    match (balanceOf k slots).add? q with
    | some total => (.ok (), slots.map fun b => if b.key = k then ⟨k, total⟩ else b)
    | none => (.error (.overflow .inventoryQuantity), slots)

section

variable {bs : List Balance} {k : StockKey} {q : Quantity}

theorem rank_lt_of_not_lt {k l : StockKey} (hle : ¬ k.rank < l.rank) (hne : k ≠ l) : l.rank < k.rank := by
  have hrank : k.rank ≠ l.rank := fun he => hne (StockKey.rank_inj.1 he)
  omega

theorem balanceOf_openSlot (h : InOrder bs) : balanceOf k (openSlot k bs) = balanceOf k bs := by
  induction bs with
  | nil => simp [openSlot, balanceOf]
  | cons b bs ih =>
      obtain ⟨hb, hbs⟩ := List.pairwise_cons.1 h.1
      rw [openSlot]
      split
      · rw [balanceOf, balanceOf, ih ⟨hbs, fun c hc => h.2 c (List.mem_cons_of_mem _ hc)⟩]
      · next hle =>
        split
        · rfl
        · next hne =>
          have hlt := rank_lt_of_not_lt hle hne
          have hnone : balanceOf k (b :: bs) = 0 := balanceOf_eq_zero fun c hc => by
            rcases List.mem_cons.1 hc with rfl | hc
            · exact hlt
            · exact Nat.lt_trans hlt (hb c hc)
          rw [hnone, balanceOf, if_pos rfl]

/-- A place that holds something has its slot already. -/
theorem openSlot_eq_self (h : balanceOf k bs ≠ 0) (hbs : InOrder bs) : openSlot k bs = bs := by
  induction bs with
  | nil => exact absurd rfl h
  | cons b bs ih =>
      obtain ⟨hb, hrest⟩ := List.pairwise_cons.1 hbs.1
      by_cases hk : b.key = k
      · rw [openSlot, if_neg (hk ▸ Nat.lt_irrefl _), if_pos hk]
      · rw [balanceOf, if_neg hk] at h
        obtain ⟨c, hc, rfl⟩ := exists_of_balanceOf_ne_zero h
        rw [openSlot, if_pos (hb c hc), ih h ⟨hrest, fun d hd => hbs.2 d (List.mem_cons_of_mem _ hd)⟩]

/-- Writing to the slot of a place sets its balance. -/
theorem map_openSlot (h : InOrder bs) (hq : q ≠ 0) :
    ((openSlot k bs).map fun b => if b.key = k then ⟨k, q⟩ else b) = setBalance k q bs := by
  have hbehind (cs : List Balance) (hcs : ∀ c ∈ cs, k.rank < c.key.rank) :
      (cs.map fun b => if b.key = k then ⟨k, q⟩ else b) = cs := by
    refine (List.map_congr_left fun c hc => ?_).trans (List.map_id cs)
    exact if_neg fun he => Nat.lt_irrefl _ (he ▸ hcs c hc)
  induction bs with
  | nil => simp [openSlot, setBalance, hq]
  | cons b bs ih =>
      obtain ⟨hb, hbs⟩ := List.pairwise_cons.1 h.1
      rw [openSlot, setBalance]
      by_cases hlt : b.key.rank < k.rank
      · have hne : b.key ≠ k := fun he => Nat.lt_irrefl _ (he ▸ hlt)
        rw [if_pos hlt, if_pos hlt, List.map_cons, if_neg hne,
          ih ⟨hbs, fun c hc => h.2 c (List.mem_cons_of_mem _ hc)⟩]
      · rw [if_neg hlt, if_neg hlt]
        by_cases hk : b.key = k
        · rw [if_pos hk, if_pos hk, List.map_cons, if_pos hk, hbehind bs (hk ▸ hb), if_neg hq]
        · have hbefore := rank_lt_of_not_lt hlt hk
          rw [if_neg hk, if_neg hk, List.map_cons, if_pos rfl, hbehind (b :: bs), if_neg hq]
          intro c hc
          rcases List.mem_cons.1 hc with rfl | hc
          · exact hbefore
          · exact Nat.lt_trans hbefore (hb c hc)

end

namespace Inventory

/-- Adding in place comes to the same as `add`. In particular a sum that is no word leaves no empty slot behind:
what is added to nothing is a word. -/
theorem addInSlot_eq (inv : Inventory) (k : StockKey) (q : Quantity) :
    addInSlot k q inv.balances = match inv.add k q with
      | .ok inv' => (.ok (), inv'.balances)
      | .error e => (.error e, inv.balances) := by
  have hlt := (inv.quantity k).toNat_lt_size
  have hzero : (0 : Quantity).toNat = 0 := rfl
  by_cases hq : q = 0
  · have hadd : inv.add k q = .ok inv := by
      refine add_iff_quantity.2 fun l => ?_
      rw [hq, hzero, ite_self, Nat.add_zero]
    rw [addInSlot, if_pos hq, hadd]
  · have hslot : balanceOf k (openSlot k inv.balances) = inv.quantity k := balanceOf_openSlot inv.inOrder
    simp only [addInSlot, if_neg hq, hslot]
    cases hsum : (inv.quantity k).add? q with
    | some total =>
        have htotal := UInt64.add?_eq_some.1 hsum
        have hne : total ≠ 0 := by
          rintro rfl
          refine hq (UInt64.toNat_inj.1 ?_)
          omega
        have hadd : inv.add k q = .ok (inv.set k total) := add_ok.2 ⟨total, htotal, rfl⟩
        rw [hadd]
        exact congrArg (Prod.mk _) (map_openSlot inv.inOrder hne)
    | none =>
        have hover := UInt64.add?_eq_none.1 hsum
        have hsome : inv.quantity k ≠ 0 := by
          intro hnone
          have := q.toNat_lt_size
          rw [hnone, hzero] at hover
          omega
        have hadd : inv.add k q = .error (.overflow .inventoryQuantity) := by
          rw [add, hsum]
          rfl
        rw [hadd]
        exact congrArg (Prod.mk _) (openSlot_eq_self hsome inv.inOrder)

end Inventory

/-- A call on the stocks of a world. -/
inductive StockCall
  | add (place : StockKey) (amount : Quantity)
  | remove (place : StockKey) (amount : Quantity)

namespace StockCall

def act : StockCall → Action World Unit
  | add place amount => World.addStock place amount
  | remove place amount => World.removeStock place amount

/-- What a call changes at a place. -/
def change (k : StockKey) : StockCall → Int
  | add place amount => if k = place then amount.toNat else 0
  | remove place amount => if k = place then -amount.toNat else 0

/-- The sum is no word, or there is less than is to be removed. -/
def Refused (inv : Inventory) : StockCall → Prop
  | add place amount => UInt64.size ≤ (inv.quantity place).toNat + amount.toNat
  | remove place amount => (inv.quantity place).toNat < amount.toNat

def failure (inv : Inventory) : StockCall → Failure
  | add _ _ => .overflow .inventoryQuantity
  | remove place amount =>
    .insufficientInventory place.company place.region place.item amount (inv.quantity place)

variable {w : World} {c : StockCall}

theorem act_refused (h : c.Refused w.inventory) : c.act.run w = .error (c.failure w.inventory) w := by
  cases c with
  | add place amount =>
      have hsum := UInt64.add?_eq_none.2 h
      refine Action.update_error.2 ⟨Check.bind_error.2 (Or.inl ?_), rfl⟩
      exact Check.bind_error.2 (Or.inl (orFail_error.2 ⟨hsum, rfl⟩))
  | remove place amount =>
      refine Action.update_error.2 ⟨Check.bind_error.2 (Or.inl ?_), rfl⟩
      exact if_pos (UInt64.lt_iff_toNat_lt.2 h)

theorem act_done (h : ¬ c.Refused w.inventory) : ∃ inv, c.act.run w = .ok () { w with inventory := inv } ∧
    ∀ k, ((inv.quantity k).toNat : Int) = (w.inventory.quantity k).toNat + c.change k := by
  cases c with
  | add place amount =>
      obtain ⟨total, htotal⟩ : ∃ total, (w.inventory.quantity place).add? amount = some total :=
        Option.ne_none_iff_exists'.1 fun hnone => h (UInt64.add?_eq_none.1 hnone)
      have hadd := Inventory.add_ok.2 ⟨total, UInt64.add?_eq_some.1 htotal, rfl⟩
      refine ⟨_, World.addStock_ok.2 ⟨_, hadd, rfl⟩, fun k => ?_⟩
      rw [Inventory.quantity_add hadd, change]
      split <;> simp
  | remove place amount =>
      have hle : amount ≤ w.inventory.quantity place := UInt64.le_iff_toNat_le.2 (Nat.le_of_not_lt h)
      have hremove := Inventory.remove_ok.2 ⟨hle, rfl⟩
      refine ⟨_, World.removeStock_ok.2 ⟨_, hremove, rfl⟩, fun k => ?_⟩
      rw [← Inventory.quantity_remove hremove, change]
      split <;> simp

/-- What a call does where it is made: it moves its amount at its own place, or it is refused and does nothing. -/
structure Exact (c : StockCall) (w : World) : Prop where
  refused : c.Refused w.inventory → c.act.run w = .error (c.failure w.inventory) w
  done : ¬ c.Refused w.inventory → ∃ inv, c.act.run w = .ok () { w with inventory := inv } ∧
    ∀ k, ((inv.quantity k).toNat : Int) = (w.inventory.quantity k).toNat + c.change k

/-- Calls one after another, whether they succeed or fail. -/
def run (w : World) (cs : List StockCall) : World := cs.foldl (fun w c => c.act.after w) w

/-- The calls that succeed when it is their turn. -/
def accepted (w : World) : List StockCall → List StockCall
  | [] => []
  | c :: cs =>
    match c.act.run w with
    | .ok _ w' => c :: accepted w' cs
    | .error _ w' => accepted w' cs

/-- What accepted calls change is all that changes. -/
theorem quantity_run (w : World) (cs : List StockCall) : run w cs = { w with inventory := (run w cs).inventory } ∧
    ∀ k, (((run w cs).inventory.quantity k).toNat : Int) =
      (w.inventory.quantity k).toNat + ((accepted w cs).map (change k)).sum := by
  induction cs generalizing w with
  | nil => exact ⟨rfl, fun k => (Int.add_zero _).symm⟩
  | cons c cs ih =>
      by_cases hc : c.Refused w.inventory
      · have hstep : c.act.after w = w := by rw [Action.after, act_refused hc]
        have haccepted : accepted w (c :: cs) = accepted w cs := by rw [accepted, act_refused hc]
        have hrun : run w (c :: cs) = run w cs := congrArg (run · cs) hstep
        rw [hrun, haccepted]
        exact ih w
      · obtain ⟨inv, hok, hchange⟩ := act_done hc
        have hstep : c.act.after w = { w with inventory := inv } := by rw [Action.after, hok]
        have haccepted : accepted w (c :: cs) = c :: accepted { w with inventory := inv } cs := by
          rw [accepted, hok]
        have hrun : run w (c :: cs) = run { w with inventory := inv } cs := congrArg (run · cs) hstep
        obtain ⟨hframe, hquantity⟩ := ih { w with inventory := inv }
        rw [hrun, haccepted]
        refine ⟨hframe, fun k => ?_⟩
        rw [hquantity k, hchange k, List.map_cons, List.sum_cons, Int.add_assoc]

end StockCall

/-- Inventories are canonical finite maps. A listed one holds what its list adds up to, in whatever order. After any
calls, refused ones among them, it holds what the accepted ones made of it, and the next call is exact; an
addition in place does the same as one that looks first. Totals are exact, and equal quantities mean equal
inventories with one document, the list of balances in the order of their places. -/
theorem inventory_canonical :
    (∀ bs : List Balance, decode? (encode bs) = some (Inventory.ofBalances bs) ∧
      (Inventory.ofBalances bs).Canonical ∧
      (∀ k, ((Inventory.ofBalances bs).quantity k).toNat = min (Inventory.listed k bs) (UInt64.size - 1)) ∧
      ∀ cs, bs.Perm cs → Inventory.ofBalances cs = Inventory.ofBalances bs) ∧
    (∀ (w : World) (cs : List StockCall), (StockCall.run w cs).inventory.Canonical ∧
      StockCall.run w cs = { w with inventory := (StockCall.run w cs).inventory } ∧
      (∀ k, (((StockCall.run w cs).inventory.quantity k).toNat : Int) =
        (w.inventory.quantity k).toNat + ((StockCall.accepted w cs).map (StockCall.change k)).sum) ∧
      ∀ c : StockCall, c.Exact (StockCall.run w cs)) ∧
    (∀ (inv : Inventory) (k : StockKey) (q : Quantity), addInSlot k q inv.balances = match inv.add k q with
      | .ok inv' => (.ok (), inv'.balances)
      | .error e => (.error e, inv.balances)) ∧
    (∀ (inv : Inventory) (item : ItemId),
      inv.totalOf item = ∑ᶠ (k : StockKey) (_ : k.item = item), (inv.quantity k).toNat) ∧
    ∀ a b : Inventory, (∀ k, a.quantity k = b.quantity k) → a = b ∧
      ∃ bs : List Balance, encode a = .arr (bs.map encode) ∧ encode b = .arr (bs.map encode) ∧
        bs.Pairwise fun b c => b.key.Before c.key := by
  refine ⟨fun bs => ⟨?_, Inventory.canonical _, Inventory.quantity_ofBalances bs, fun cs h => ?_⟩, fun w cs => ?_,
    Inventory.addInSlot_eq, Inventory.totalOf_eq_finsum, fun a b h => ?_⟩
  · show (decode? (encode bs)).map Inventory.ofBalances = some (Inventory.ofBalances bs)
    rw [decode?_encode, Option.map_some]
  · exact (Inventory.ofBalances_perm h).symm
  · obtain ⟨hframe, hquantity⟩ := StockCall.quantity_run w cs
    exact ⟨Inventory.canonical _, hframe, hquantity, fun c => ⟨StockCall.act_refused, StockCall.act_done⟩⟩
  · obtain rfl := Inventory.eq_of_quantity h
    exact ⟨rfl, a.balances, rfl, rfl, a.canonical.ascending⟩

/-- Balances of three places: one is zero, and the two of another place come to more than a word. -/
def oddBalances : List Balance :=
  [⟨⟨⟨7⟩, ⟨1⟩, ⟨3⟩⟩, 5⟩, ⟨⟨⟨6⟩, ⟨2⟩, ⟨3⟩⟩, 0⟩, ⟨⟨⟨6⟩, ⟨1⟩, ⟨3⟩⟩, 9⟩, ⟨⟨⟨7⟩, ⟨1⟩, ⟨3⟩⟩, 18446744073709551614⟩]

/-- The stock that they come to is full at one place, so more is refused there. Once that place is emptied and the
other one has got two more, eleven units are left, and without them the inventory is the empty one. -/
theorem inventory_canonical_odd :
    let full : World := { World.empty with inventory := .ofBalances oddBalances }
    let more : StockCall := .add ⟨⟨7⟩, ⟨1⟩, ⟨3⟩⟩ 1
    let left : World := StockCall.run full
      [more, .remove ⟨⟨7⟩, ⟨1⟩, ⟨3⟩⟩ 18446744073709551615, .add ⟨⟨6⟩, ⟨1⟩, ⟨3⟩⟩ 2]
    let rest : StockCall := .remove ⟨⟨6⟩, ⟨1⟩, ⟨3⟩⟩ 11
    oddBalances.Perm oddBalances.reverse ∧
      Inventory.ofBalances oddBalances.reverse = Inventory.ofBalances oddBalances ∧
      more.Refused full.inventory ∧ more.act.run full = .error (.overflow .inventoryQuantity) full ∧
      ¬ rest.Refused left.inventory ∧ ∃ inv, rest.act.run left = .ok () { left with inventory := inv } ∧
        (∀ k, inv.quantity k = Inventory.empty.quantity k) ∧ inv = .empty := by
  intro full more left rest
  have hperm := (List.reverse_perm oddBalances).symm
  have hfull : more.Refused full.inventory := by
    simp only [more, StockCall.Refused]
    decide +kernel
  have hstock : left.inventory = .ofBalances [⟨⟨⟨6⟩, ⟨1⟩, ⟨3⟩⟩, 11⟩] := by decide +kernel
  have hleft : ¬ rest.Refused left.inventory := by
    simp only [rest, StockCall.Refused, hstock]
    decide +kernel
  obtain ⟨hlisted, hcalls, -, -, hequal⟩ := inventory_canonical
  have hexact : rest.Exact left := (hcalls full _).2.2.2 rest
  obtain ⟨inv, hrun, hquantity⟩ := hexact.done hleft
  have hnone : ∀ k, inv.quantity k = Inventory.empty.quantity k := by
    intro k
    refine UInt64.toNat_inj.1 (Int.ofNat_inj.1 ?_)
    have hk := hquantity k
    simp only [hstock, Inventory.quantity_ofBalances, Inventory.listed_cons, rest, StockCall.change] at hk
    by_cases hplace : k = ⟨⟨6⟩, ⟨1⟩, ⟨3⟩⟩
    · subst hplace
      rw [hk, if_pos rfl, if_pos rfl]
      decide
    · rw [hk, if_neg (Ne.symm hplace), if_neg hplace]
      rfl
  exact ⟨hperm, (hlisted oddBalances).2.2.2 _ hperm, hfull, ((hcalls full []).2.2.2 more).refused hfull, hleft,
    inv, hrun, hnone, (hequal inv .empty hnone).1⟩

end Mercantile
