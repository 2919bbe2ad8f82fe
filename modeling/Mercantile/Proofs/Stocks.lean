import Mathlib.Algebra.BigOperators.Group.List.Basic
import Mathlib.Algebra.GroupWithZero.Nat
import Mercantile.Proofs.Execution

/-!
What the operations on stocks do. Adding and removing goods set one balance, to the sum and to the
difference (`Inventory.add_ok`, `Inventory.remove_ok`), so the units of an item over the whole inventory
change by exactly the units moved (`Inventory.totalOf_add`, `Inventory.totalOf_remove`).
-/

namespace Mercantile

/-- A sum over a part of a list, as a sum over all of it. -/
theorem sum_map_filter {α M : Type} [AddCommMonoid M] (p : α → Prop) [DecidablePred p] (f : α → M)
    (as : List α) : ((as.filter p).map f).sum = (as.map fun a => if p a then f a else 0).sum := by
  rw [List.sum_map_ite, List.sum_map_zero, add_zero]

/-- A weighted sum over balances changes by the weight of the balance that is set. -/
theorem sum_setBalance {g : Balance → Nat} (hg : ∀ k, g ⟨k, 0⟩ = 0) {bs : List Balance}
    (h : InOrder bs) (k : StockKey) (q : Quantity) :
    ((setBalance k q bs).map g).sum + g ⟨k, balanceOf k bs⟩ = (bs.map g).sum + g ⟨k, q⟩ := by
  induction bs with
  | nil =>
      simp only [setBalance, balanceOf]
      split
      · next hq => rw [hq]
      · simp [hg]
  | cons b bs ih =>
      obtain ⟨hb, hbs⟩ := List.pairwise_cons.1 h.1
      have hrest : InOrder bs := ⟨hbs, fun c hc => h.2 c (List.mem_cons_of_mem _ hc)⟩
      simp only [setBalance]
      split
      · next hlt =>
        have hbk : b.key ≠ k := fun e => Nat.lt_irrefl _ (e ▸ hlt)
        have := ih hrest
        rw [balanceOf, if_neg hbk, List.map_cons, List.sum_cons, List.map_cons, List.sum_cons]
        omega
      · next hge =>
        by_cases hbk : b.key = k
        · have hself : g ⟨k, b.quantity⟩ = g b := by rw [← hbk]
          rw [balanceOf, if_pos hbk, if_pos hbk, hself]
          split
          · next hq =>
            rw [hq, hg, List.map_cons, List.sum_cons]
            omega
          · simp only [List.map_cons, List.sum_cons]
            omega
        · have hnone : balanceOf k (b :: bs) = 0 := balanceOf_eq_zero fun c hc => by
            have hne : b.key.rank ≠ k.rank := fun e => hbk (StockKey.rank_inj.1 e)
            rcases List.mem_cons.1 hc with rfl | hc
            · omega
            · have := hb c hc
              omega
          rw [hnone, hg, if_neg hbk]
          split
          · next hq => rw [hq, hg]
          · simp only [List.map_cons, List.sum_cons]
            omega

theorem exists_of_balanceOf_ne_zero {k : StockKey} {bs : List Balance} (h : balanceOf k bs ≠ 0) :
    ∃ b ∈ bs, b.key = k := by
  induction bs with
  | nil => exact absurd rfl h
  | cons b bs ih =>
      by_cases hb : b.key = k
      · exact ⟨b, List.mem_cons_self, hb⟩
      · rw [balanceOf, if_neg hb] at h
        obtain ⟨c, hc, hk⟩ := ih h
        exact ⟨c, List.mem_cons_of_mem _ hc, hk⟩

namespace Inventory

variable {inv inv' : Inventory} {k : StockKey} {q : Quantity}

theorem add_ok : inv.add k q = .ok inv' ↔
    ∃ total : Quantity, total.toNat = (inv.quantity k).toNat + q.toNat ∧ inv' = inv.set k total := by
  simp only [add, Check.bind_ok, orFail_ok, Check.pure_ok, UInt64.add?_eq_some]

/-- Goods can be added as long as their number is a word. -/
theorem exists_add (h : (inv.quantity k).toNat + q.toNat < UInt64.size) : ∃ inv', inv.add k q = .ok inv' :=
  ⟨_, add_ok.2 ⟨UInt64.ofNat ((inv.quantity k).toNat + q.toNat), UInt64.toNat_ofNat_of_lt' h, rfl⟩⟩

theorem remove_ok : inv.remove k q = .ok inv' ↔
    q ≤ inv.quantity k ∧ inv' = inv.set k (inv.quantity k - q) := by
  simp only [remove]
  split
  · next hlt =>
    simp only [reduceCtorEq, false_iff, not_and]
    exact fun hle => absurd hlt (UInt64.not_lt.2 hle)
  · next hge =>
    simp only [Except.ok.injEq]
    exact ⟨fun h => ⟨UInt64.not_lt.1 hge, h.symm⟩, fun h => h.2.symm⟩

theorem quantity_add (h : inv.add k q = .ok inv') (l : StockKey) :
    (inv'.quantity l).toNat = (inv.quantity l).toNat + if l = k then q.toNat else 0 := by
  obtain ⟨total, htotal, rfl⟩ := add_ok.1 h
  rw [quantity_set]
  by_cases hl : l = k
  · rw [if_pos hl, if_pos hl, htotal, hl]
  · rw [if_neg hl, if_neg hl, Nat.add_zero]

theorem quantity_remove (h : inv.remove k q = .ok inv') (l : StockKey) :
    (inv'.quantity l).toNat + (if l = k then q.toNat else 0) = (inv.quantity l).toNat := by
  obtain ⟨hle, rfl⟩ := remove_ok.1 h
  rw [quantity_set]
  by_cases hl : l = k
  · rw [if_pos hl, if_pos hl, UInt64.toNat_sub_of_le _ _ hle, hl]
    exact Nat.sub_add_cancel (UInt64.le_iff_toNat_le.1 hle)
  · rw [if_neg hl, if_neg hl, Nat.add_zero]

theorem quantity_add_of_ne {l : StockKey} (h : inv.add k q = .ok inv') (hl : l ≠ k) :
    inv'.quantity l = inv.quantity l := by
  simpa only [if_neg hl, Nat.add_zero, UInt64.toNat_inj] using quantity_add h l

theorem quantity_remove_of_ne {l : StockKey} (h : inv.remove k q = .ok inv') (hl : l ≠ k) :
    inv'.quantity l = inv.quantity l := by
  simpa only [if_neg hl, Nat.add_zero, UInt64.toNat_inj] using quantity_remove h l

theorem mem_set {b : Balance} (h : b ∈ (inv.set k q).balances) : b ∈ inv.balances ∨ b.key = k := by
  rcases mem_setBalance h with hb | ⟨rfl, -⟩
  · exact Or.inl hb
  · exact Or.inr rfl

/-- Taking goods away leaves balances only where there were some before. -/
theorem mem_remove (h : inv.remove k q = .ok inv') {b : Balance} (hb : b ∈ inv'.balances) :
    ∃ b' ∈ inv.balances, b'.key = b.key := by
  obtain ⟨hle, rfl⟩ := remove_ok.1 h
  rcases mem_setBalance hb with hb | ⟨rfl, hleft⟩
  · exact ⟨b, hb, rfl⟩
  · refine exists_of_balanceOf_ne_zero fun hzero => hleft ?_
    have hnone : inv.quantity k = 0 := hzero
    rw [hnone] at hle ⊢
    have := UInt64.le_iff_toNat_le.1 hle
    have hq : q = 0 := UInt64.toNat_inj.1 (Nat.le_zero.1 this)
    rw [hq]
    rfl

/-- The units of an item that stand for one balance. -/
def unitsOf (item : ItemId) (b : Balance) : Nat := if b.key.item = item then b.quantity.toNat else 0

theorem totalOf_eq_sum (inv : Inventory) (item : ItemId) :
    inv.totalOf item = (inv.balances.map (unitsOf item)).sum := by
  rw [totalOf, ← List.sum_eq_foldr, sum_map_filter]
  rfl

theorem totalOf_set (inv : Inventory) (k : StockKey) (q : Quantity) (item : ItemId) :
    (inv.set k q).totalOf item + unitsOf item ⟨k, inv.quantity k⟩ =
      inv.totalOf item + unitsOf item ⟨k, q⟩ := by
  rw [totalOf_eq_sum, totalOf_eq_sum]
  exact sum_setBalance (fun k => by simp [unitsOf]) inv.inOrder k q

theorem totalOf_add (h : inv.add k q = .ok inv') (item : ItemId) :
    inv'.totalOf item = inv.totalOf item + if k.item = item then q.toNat else 0 := by
  obtain ⟨total, htotal, rfl⟩ := add_ok.1 h
  have := totalOf_set inv k total item
  simp only [unitsOf] at this
  split at this
  · simp_all
    omega
  · simp_all

theorem totalOf_remove (h : inv.remove k q = .ok inv') (item : ItemId) :
    inv'.totalOf item + (if k.item = item then q.toNat else 0) = inv.totalOf item := by
  obtain ⟨hle, rfl⟩ := remove_ok.1 h
  have hq := UInt64.le_iff_toNat_le.1 hle
  have := totalOf_set inv k (inv.quantity k - q) item
  simp only [unitsOf, UInt64.toNat_sub_of_le _ _ hle] at this
  split at this
  · simp_all
    omega
  · simp_all

end Inventory

namespace World

variable {w w' : World} {k : StockKey} {q : Quantity} {u : Unit}

theorem addStock_ok : (addStock k q).run w = .ok u w' ↔
    ∃ inv, w.inventory.add k q = .ok inv ∧ w' = { w with inventory := inv } := by
  simp only [addStock, Action.update_ok, Check.bind_ok, Check.pure_ok]

theorem removeStock_ok : (removeStock k q).run w = .ok u w' ↔
    ∃ inv, w.inventory.remove k q = .ok inv ∧ w' = { w with inventory := inv } := by
  simp only [removeStock, Action.update_ok, Check.bind_ok, Check.pure_ok]

/-- A fresh identifier is the number after the last one handed out. -/
theorem allocateId_ok {kind : EntityKind} {i : Id kind} :
    (allocateId kind).run w = .ok i w' ↔
      i.toNat = w.nextId.toNat + 1 ∧ w' = { w with nextId := i.val } := by
  simp only [allocateId, Action.transact_ok, Check.bind_ok, orFail_ok, Check.pure_ok,
    UInt64.add?_eq_some, Prod.mk.injEq]
  constructor
  · rintro ⟨n, hn, rfl, rfl⟩
    exact ⟨hn, rfl⟩
  · rintro ⟨hn, rfl⟩
    exact ⟨i.val, hn, rfl, rfl⟩

end World

end Mercantile
