import Mercantile.Proofs.Calendar
import Mercantile.Snapshot

/-!
Documents stand for what they were made of. Of most types every value is decoded from its document
(`LawfulCoded`): a record because its names are different, a list because its members are, an inventory because
its balances are in order. A world is, if the time in its clock is one that can be written
(`World.decode?_encode`).
-/

namespace Mercantile

/-- A type whose documents are decoded to the values that they were made of. -/
class LawfulCoded (α : Type) [Coded α] : Prop where
  decode?_encode : ∀ a : α, decode? (encode a) = some a

@[simp] theorem decode?_encode {α : Type} [Coded α] [LawfulCoded α] (a : α) : decode? (encode a) = some a :=
  LawfulCoded.decode?_encode a

@[simp] theorem needed_encode {α : Type} [Coded α] [LawfulCoded α] (a : α) : needed (some (encode a)) = some a :=
  decode?_encode a

/-- Only what is missing has the document `null`. -/
theorem optional_encode {α : Type} [Coded α] {o : Option α}
    (h : ∀ a, o = some a → encode a ≠ .null ∧ decode? (encode a) = some a) : optional (some (encode o)) = some o := by
  cases o with
  | none => rfl
  | some a =>
      obtain ⟨hnull, hdecode⟩ := h a rfl
      change optional (some (encode a)) = some (some a)
      unfold optional
      split
      · next hnone => cases hnone
      · next heq => exact absurd (Option.some.inj heq) hnull
      · next heq =>
        obtain rfl := Option.some.inj heq
        rw [hdecode, Option.map_some]

theorem mapM_eq_some {α β : Type} {f : α → Option β} {g : α → β} {as : List α} (h : ∀ a ∈ as, f a = some (g a)) :
    as.mapM f = some (as.map g) := by
  induction as with
  | nil => rfl
  | cons a as ih =>
      have hrest := ih fun b hb => h b (List.mem_cons_of_mem _ hb)
      rw [List.mapM_cons, h a List.mem_cons_self, hrest]
      rfl

namespace Json

/-- A name that stands once has its own document. -/
theorem member?_of_mem {ms : List (String × Json)} (hnodup : (ms.map (·.1)).Nodup) {m : String × Json}
    (hm : m ∈ ms) : member? ms m.1 = some (some m.2) := by
  have honly : ms.filter (·.1 = m.1) = [m] := by
    induction ms with
    | nil => cases hm
    | cons n ms ih =>
        rw [List.map_cons, List.nodup_cons] at hnodup
        rcases List.mem_cons.1 hm with rfl | hm
        · have hnone : ms.filter (·.1 = m.1) = [] := by
            rw [List.filter_eq_nil_iff]
            intro n hn hname
            exact hnodup.1 (of_decide_eq_true hname ▸ List.mem_map_of_mem hn)
          rw [List.filter_cons_of_pos (by simp), hnone]
        · have hne : n.1 ≠ m.1 := fun h => hnodup.1 (h ▸ List.mem_map_of_mem hm)
          rw [List.filter_cons_of_neg (by simp [hne]), ih hnodup.2 hm]
  rw [member?, honly]

theorem record?_obj {names : List String} {ms : List (String × Json)} (hnames : ms.map (·.1) = names)
    (hnodup : names.Nodup) : record? names (.obj ms) = some (ms.map fun m => some m.2) := by
  subst hnames
  rw [record?, List.mapM_map]
  exact mapM_eq_some fun m hm => member?_of_mem hnodup hm

/-- What a record is decoded to is what its reader makes of the documents of its fields. -/
theorem bind_record? {α : Type} {names : List String} {ms : List (String × Json)}
    {read : List (Option Json) → Option α} {x : Option α} (hnames : ms.map (·.1) = names) (hnodup : names.Nodup)
    (hread : read (ms.map fun m => some m.2) = x) : (record? names (.obj ms) >>= read) = x := by
  rw [record?_obj hnames hnodup]
  exact hread

end Json

namespace Coded

instance : LawfulCoded UInt64 where
  decode?_encode n := by
    have hnonneg : (0 : Int) ≤ n.toNat := Int.natCast_nonneg _
    exact (if_pos hnonneg).trans (UInt64.ofNat?_eq_some.2 rfl)

instance : LawfulCoded UInt32 where
  decode?_encode n := by
    have hword : (0 : Int) ≤ n.toNat ∧ (n.toNat : Int) < UInt32.size :=
      ⟨Int.natCast_nonneg _, Int.ofNat_lt.2 n.toNat_lt⟩
    exact (if_pos hword).trans (congrArg some (UInt32.ofNat_toNat))

instance : LawfulCoded UInt8 where
  decode?_encode n := by
    have hword : (0 : Int) ≤ n.toNat ∧ (n.toNat : Int) < UInt8.size :=
      ⟨Int.natCast_nonneg _, Int.ofNat_lt.2 n.toNat_lt⟩
    exact (if_pos hword).trans (congrArg some (UInt8.ofNat_toNat))

instance : LawfulCoded Int64 := ⟨fun _ => Int64.ofInt?_eq_some.2 rfl⟩

instance : LawfulCoded Bool := ⟨fun _ => rfl⟩

instance : LawfulCoded String := ⟨fun _ => rfl⟩

instance {kind : EntityKind} : LawfulCoded (Id kind) where
  decode?_encode i := by
    change (decode? (encode i.val)).map Id.mk = some i
    rw [Mercantile.decode?_encode, Option.map_some]

instance : LawfulCoded BuildingStatus := ⟨fun s => by cases s <;> rfl⟩

instance : LawfulCoded JobState := ⟨fun s => by cases s <;> rfl⟩

instance : LawfulCoded OrderSide := ⟨fun s => by cases s <;> rfl⟩

instance : LawfulCoded OrderStatus := ⟨fun s => by cases s <;> rfl⟩

instance : LawfulCoded ShipmentStatus := ⟨fun s => by cases s <;> rfl⟩

instance : LawfulCoded ContractStatus := ⟨fun s => by cases s <;> rfl⟩

instance {α : Type} [Coded α] [LawfulCoded α] : LawfulCoded (List α) where
  decode?_encode as := by
    change (as.map encode).mapM decode? = some as
    rw [List.mapM_map]
    have hmembers : as.mapM (decode? ∘ encode) = some (as.map id) :=
      mapM_eq_some fun a _ => Mercantile.decode?_encode a
    rw [hmembers, List.map_id]

instance : LawfulCoded Region := ⟨fun r => Json.bind_record? rfl (by decide) (by simp)⟩

instance : LawfulCoded Item := ⟨fun i => Json.bind_record? rfl (by decide) (by simp)⟩

instance : LawfulCoded Company := ⟨fun c => Json.bind_record? rfl (by decide) (by simp)⟩

instance : LawfulCoded Building := ⟨fun b => Json.bind_record? rfl (by decide) (by simp)⟩

instance : LawfulCoded RecipeInput := ⟨fun i => Json.bind_record? rfl (by decide) (by simp)⟩

instance : LawfulCoded Recipe := ⟨fun r => Json.bind_record? rfl (by decide) (by simp)⟩

instance : LawfulCoded Job := ⟨fun j => Json.bind_record? rfl (by decide) (by simp)⟩

instance : LawfulCoded Order := ⟨fun o => Json.bind_record? rfl (by decide) (by simp)⟩

instance : LawfulCoded Trade := ⟨fun t => Json.bind_record? rfl (by decide) (by simp)⟩

instance : LawfulCoded Shipment := ⟨fun s => Json.bind_record? rfl (by decide) (by simp)⟩

instance : LawfulCoded Allocation := ⟨fun a => Json.bind_record? rfl (by decide) (by simp)⟩

instance : LawfulCoded Balance := ⟨fun b => Json.bind_record? rfl (by decide) (by simp)⟩

instance : LawfulCoded Contract where
  decode?_encode c := by
    have hbuyer : optional (some (encode c.buyer)) = some c.buyer := by
      apply optional_encode
      intro buyer _
      exact ⟨nofun, Mercantile.decode?_encode buyer⟩
    exact Json.bind_record? rfl (by decide) (by simp [hbuyer])

end Coded

/-- A balance that comes after all others is put behind them. -/
theorem setBalance_last {bs : List Balance} {b : Balance} (hlast : ∀ c ∈ bs, c.key.rank < b.key.rank)
    (hb : b.quantity ≠ 0) : setBalance b.key b.quantity bs = bs ++ [b] := by
  induction bs with
  | nil => rw [setBalance, if_neg hb, List.nil_append]
  | cons c bs ih =>
      rw [setBalance, if_pos (hlast c List.mem_cons_self), ih fun d hd => hlast d (List.mem_cons_of_mem _ hd),
        List.cons_append]

theorem balanceOf_last {bs : List Balance} {k : StockKey} (hlast : ∀ c ∈ bs, c.key.rank < k.rank) :
    balanceOf k bs = 0 := by
  induction bs with
  | nil => rfl
  | cons c bs ih =>
      have hne : c.key ≠ k := fun h => Nat.lt_irrefl _ (h ▸ hlast c List.mem_cons_self)
      rw [balanceOf, if_neg hne, ih fun d hd => hlast d (List.mem_cons_of_mem _ hd)]

namespace Inventory

/-- Balances in order are taken over one after another. -/
theorem balances_foldl (inv : Inventory) {bs : List Balance} (h : InOrder (inv.balances ++ bs)) :
    (bs.foldl (fun inv b => inv.set b.key ((inv.quantity b.key).addSat b.quantity)) inv).balances =
      inv.balances ++ bs := by
  induction bs generalizing inv with
  | nil => rw [List.foldl_nil, List.append_nil]
  | cons b bs ih =>
      have hlast : ∀ c ∈ inv.balances, c.key.rank < b.key.rank := fun c hc =>
        (List.pairwise_append.1 h.1).2.2 c hc b List.mem_cons_self
      have hb : b.quantity ≠ 0 := h.2 b (List.mem_append_right _ List.mem_cons_self)
      have hsum : (inv.quantity b.key).addSat b.quantity = b.quantity := by
        rw [quantity, balanceOf_last hlast]
        apply UInt64.toNat_inj.1
        have hlt : b.quantity.toNat < UInt64.size := b.quantity.toNat_lt
        have hzero : (0 : UInt64).toNat = 0 := rfl
        rw [UInt64.toNat_addSat, hzero]
        omega
      have hset : (inv.set b.key b.quantity).balances = inv.balances ++ [b] := setBalance_last hlast hb
      have hsplit : inv.balances ++ b :: bs = (inv.set b.key b.quantity).balances ++ bs := by
        rw [hset, List.append_assoc, List.singleton_append]
      rw [List.foldl_cons, hsum, ih _ (hsplit ▸ h), hsplit]

theorem eq_of_balances {a b : Inventory} (h : a.balances = b.balances) : a = b := by
  cases a
  cases b
  cases h
  rfl

theorem ofBalances_balances (inv : Inventory) : ofBalances inv.balances = inv :=
  eq_of_balances (balances_foldl empty inv.inOrder)

end Inventory

instance : LawfulCoded Inventory where
  decode?_encode inv := by
    change (decode? (encode inv.balances)).map Inventory.ofBalances = some inv
    rw [decode?_encode, Option.map_some, inv.ofBalances_balances]

/-- The time of the last advance, if there was one, can be written. -/
def Clock.Datable (c : Clock) : Prop := ∀ t ∈ c.lastAdvancedAt, t.Valid

instance (c : Clock) : Decidable c.Datable := inferInstanceAs (Decidable (∀ t ∈ c.lastAdvancedAt, t.Valid))

theorem Clock.decode?_encode_eq (c : Clock) : decode? (encode c) =
    (optional (some (encode c.lastAdvancedAt))).map fun t => { c with lastAdvancedAt := t } := by
  refine Json.bind_record? rfl (by decide) ?_
  cases h : optional (α := Timestamp) (some (encode c.lastAdvancedAt)) <;> simp [h]

theorem Clock.decode?_encode {c : Clock} (h : c.Datable) : decode? (encode c) = some c := by
  have hadvanced : optional (some (encode c.lastAdvancedAt)) = some c.lastAdvancedAt := by
    apply optional_encode
    intro t ht
    exact ⟨nofun, Timestamp.parse?_toText (h t ht)⟩
  rw [decode?_encode_eq, hadvanced, Option.map_some]

/-- All that can go wrong with a world is its clock. -/
theorem World.decode?_encode_eq (w : World) :
    decode? (encode w) = (decode? (encode w.clock)).map fun clock => { w with clock } := by
  refine Json.bind_record? rfl (by decide) ?_
  have hclock : needed (some (encode w.clock)) = decode? (α := Clock) (encode w.clock) := rfl
  cases h : decode? (α := Clock) (encode w.clock) <;> simp [hclock, h]

theorem World.decode?_encode {w : World} (h : w.clock.Datable) : decode? (encode w) = some w := by
  rw [decode?_encode_eq, Clock.decode?_encode h, Option.map_some]

end Mercantile
