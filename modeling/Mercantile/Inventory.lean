import Mercantile.Action

/-!
Stocks of goods: how much of an item a company holds in a region. An inventory lists its balances in
ascending order of company, region and item, one for each place, and keeps none of zero, so two
inventories that hold the same quantities are the same. Everything that changes one goes through
`set`; `quantity_set` says what it does.
-/

namespace Mercantile

/-- Where goods are held. -/
structure StockKey where
  company : CompanyId
  region : RegionId
  item : ItemId
deriving DecidableEq

/-- The position of a key in the order by company, then region, then item. -/
def StockKey.rank (k : StockKey) : Nat :=
  (k.company.toNat * UInt64.size + k.region.toNat) * UInt64.size + k.item.toNat

theorem StockKey.rank_inj {k l : StockKey} : k.rank = l.rank ↔ k = l := by
  constructor
  · intro h
    obtain ⟨c, r, i⟩ := k
    obtain ⟨c', r', i'⟩ := l
    have hr := r.toNat_lt
    have hi := i.toNat_lt
    have hr' := r'.toNat_lt
    have hi' := i'.toNat_lt
    simp only [rank, UInt64.size] at h hr hi hr' hi'
    rw [StockKey.mk.injEq, ← Id.toNat_inj, ← Id.toNat_inj, ← Id.toNat_inj]
    omega
  · rintro rfl
    rfl

structure Balance where
  key : StockKey
  quantity : Quantity
deriving DecidableEq

/-- The list with the balance of `k` set to `q`, where zero means none. -/
def setBalance (k : StockKey) (q : Quantity) : List Balance → List Balance
  | [] => if q = 0 then [] else [⟨k, q⟩]
  | b :: bs =>
    if b.key.rank < k.rank then b :: setBalance k q bs
    else
      let rest := if b.key = k then bs else b :: bs
      if q = 0 then rest else ⟨k, q⟩ :: rest

/-- The balance of `k`, zero if there is none. -/
def balanceOf (k : StockKey) : List Balance → Quantity
  | [] => 0
  | b :: bs => if b.key = k then b.quantity else balanceOf k bs

/-- The balances are in order and none is zero. -/
def InOrder (bs : List Balance) : Prop :=
  bs.Pairwise (fun b c => b.key.rank < c.key.rank) ∧ ∀ b ∈ bs, b.quantity ≠ 0

theorem mem_setBalance {k : StockKey} {q : Quantity} {bs : List Balance} {b : Balance}
    (h : b ∈ setBalance k q bs) : b ∈ bs ∨ (b = ⟨k, q⟩ ∧ q ≠ 0) := by
  induction bs with
  | nil =>
    simp only [setBalance] at h
    split at h <;> simp_all
  | cons c bs ih =>
    simp only [setBalance] at h
    split at h
    · rcases List.mem_cons.1 h with rfl | h
      · exact .inl (List.mem_cons_self ..)
      · exact (ih h).imp (List.mem_cons_of_mem _) id
    · split at h
      · split at h
        · exact .inl (List.mem_cons_of_mem _ h)
        · exact .inl h
      · next hq =>
        rcases List.mem_cons.1 h with rfl | h
        · exact .inr ⟨rfl, hq⟩
        · split at h
          · exact .inl (List.mem_cons_of_mem _ h)
          · exact .inl h

theorem InOrder.setBalance {bs : List Balance} (h : InOrder bs) (k : StockKey) (q : Quantity) :
    InOrder (setBalance k q bs) := by
  refine ⟨?_, fun b hb => ?_⟩
  · induction bs with
    | nil =>
      simp only [Mercantile.setBalance]
      split <;> simp
    | cons c bs ih =>
      obtain ⟨hc, hbs⟩ := List.pairwise_cons.1 h.1
      have hrest : InOrder bs := ⟨hbs, fun b hb => h.2 b (List.mem_cons_of_mem _ hb)⟩
      simp only [Mercantile.setBalance]
      split
      · next hlt =>
        refine List.pairwise_cons.2 ⟨fun b hb => ?_, ih hrest⟩
        rcases mem_setBalance hb with hb | ⟨rfl, _⟩
        · exact hc b hb
        · exact hlt
      · next hge =>
        have hafter : ∀ b ∈ (if c.key = k then bs else c :: bs), k.rank < b.key.rank := by
          intro b hb
          split at hb
          · next hk => exact hk ▸ hc b hb
          · next hk =>
            have hck : k.rank < c.key.rank := by
              have : c.key.rank ≠ k.rank := fun e => hk (StockKey.rank_inj.1 e)
              omega
            rcases List.mem_cons.1 hb with rfl | hb
            · exact hck
            · exact Nat.lt_trans hck (hc b hb)
        have hsorted : (if c.key = k then bs else c :: bs).Pairwise
            (fun b c => b.key.rank < c.key.rank) := by
          split
          · exact hbs
          · exact h.1
        split
        · exact hsorted
        · exact List.pairwise_cons.2 ⟨hafter, hsorted⟩
  · rcases mem_setBalance hb with hb | ⟨rfl, hq⟩
    · exact h.2 b hb
    · exact hq

theorem balanceOf_eq_zero {k : StockKey} {bs : List Balance} (h : ∀ b ∈ bs, k.rank < b.key.rank) :
    balanceOf k bs = 0 := by
  induction bs with
  | nil => rfl
  | cons b bs ih =>
    have hb := h b (List.mem_cons_self ..)
    rw [balanceOf, if_neg (fun e => Nat.lt_irrefl _ (e ▸ hb)),
      ih fun c hc => h c (List.mem_cons_of_mem _ hc)]

theorem balanceOf_setBalance {bs : List Balance} (h : InOrder bs) (k l : StockKey) (q : Quantity) :
    balanceOf l (setBalance k q bs) = if l = k then q else balanceOf l bs := by
  induction bs with
  | nil =>
    simp only [setBalance]
    split <;> by_cases hl : l = k <;> simp_all [balanceOf, eq_comm]
  | cons b bs ih =>
    obtain ⟨hb, hbs⟩ := List.pairwise_cons.1 h.1
    have hrest : InOrder bs := ⟨hbs, fun c hc => h.2 c (List.mem_cons_of_mem _ hc)⟩
    simp only [setBalance]
    split
    · next hlt =>
      have hbk : b.key ≠ k := fun e => Nat.lt_irrefl _ (e ▸ hlt)
      rw [balanceOf, balanceOf, ih hrest]
      by_cases hl : l = k
      · rw [if_neg (hl ▸ hbk), if_pos hl, if_pos hl]
      · rw [if_neg hl, if_neg hl]
    · next hge =>
      by_cases hbk : b.key = k
      · have hnone : balanceOf k bs = 0 := balanceOf_eq_zero fun c hc => hbk ▸ hb c hc
        by_cases hl : l = k
        · subst hl
          by_cases hq : q = 0 <;> simp [balanceOf, hbk, hq, hnone]
        · have hlk : ¬ k = l := fun e => hl e.symm
          by_cases hq : q = 0 <;> simp [balanceOf, hbk, hq, hl, hlk]
      · have hkb : k.rank < b.key.rank := by
          have : b.key.rank ≠ k.rank := fun e => hbk (StockKey.rank_inj.1 e)
          omega
        by_cases hl : l = k
        · subst hl
          have hnone : balanceOf l (b :: bs) = 0 := balanceOf_eq_zero fun c hc => by
            rcases List.mem_cons.1 hc with rfl | hc
            · exact hkb
            · exact Nat.lt_trans hkb (hb c hc)
          by_cases hq : q = 0
          · simp [hbk, hq, hnone]
          · simp [balanceOf, hbk, hq]
        · have hlk : ¬ k = l := fun e => hl e.symm
          by_cases hq : q = 0 <;> simp [balanceOf, hbk, hq, hl, hlk]

structure Inventory where
  balances : List Balance
  inOrder : InOrder balances

namespace Inventory

instance : DecidableEq Inventory := fun a b =>
  if h : a.balances = b.balances then
    .isTrue (by cases a; cases b; simp_all)
  else
    .isFalse fun e => h (e ▸ rfl)

def empty : Inventory := ⟨[], by simp [InOrder]⟩

instance : Inhabited Inventory := ⟨empty⟩

def quantity (inv : Inventory) (k : StockKey) : Quantity := balanceOf k inv.balances

/-- At least `q` is held at a place. -/
def has (inv : Inventory) (k : StockKey) (q : Quantity) : Bool := q ≤ inv.quantity k

def set (inv : Inventory) (k : StockKey) (q : Quantity) : Inventory :=
  ⟨setBalance k q inv.balances, inv.inOrder.setBalance k q⟩

theorem quantity_set (inv : Inventory) (k l : StockKey) (q : Quantity) :
    (inv.set k q).quantity l = if l = k then q else inv.quantity l :=
  balanceOf_setBalance inv.inOrder k l q

def add (inv : Inventory) (k : StockKey) (q : Quantity) : Except Failure Inventory := do
  let total ← orOverflow ((inv.quantity k).add? q) .inventoryQuantity
  return inv.set k total

/-- Takes goods from a place, all of them or none. -/
def remove (inv : Inventory) (k : StockKey) (q : Quantity) : Except Failure Inventory :=
  let available := inv.quantity k
  if available < q then
    .error (.insufficientInventory k.company k.region k.item q available)
  else .ok (inv.set k (available - q))

/-- The units of an item over all companies and regions. -/
def totalOf (inv : Inventory) (item : ItemId) : Nat :=
  ((inv.balances.filter (·.key.item = item)).map (·.quantity.toNat)).foldr (· + ·) 0

/-- The inventory that a list of balances describes. Balances of one place are added up, to the
largest word at most. -/
def ofBalances (bs : List Balance) : Inventory :=
  bs.foldl (fun inv b => inv.set b.key ((inv.quantity b.key).addSat b.quantity)) empty

end Inventory

end Mercantile
