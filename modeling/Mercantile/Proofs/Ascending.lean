import Mathlib.Algebra.BigOperators.Group.List.Basic
import Mathlib.Data.List.InsertIdx
import Mathlib.Data.List.Nodup
import Mathlib.Tactic.Abel
import Mercantile.Roster

/-!
Rosters in ascending order. On such a roster a look-up finds what is there (`get?_eq_some`), and
replacing or appending an entity keeps the order (`UpTo.modify`, `UpTo.append`, `Ascending.put`). A
change of one entity is also followed without any order: it happens at one place of the list, the one
where the look-up came to rest (`get?_split`), so a sum over the roster changes by that entity alone
(`sum_modify`).
-/

namespace Mercantile

/-- Neither half of a bisected list is empty. -/
theorem halves_ne_nil {ks : List Nat} (h : ¬ ks.length ≤ 1) :
    ks.take (ks.length - ks.length / 2) ≠ [] ∧ ks.drop (ks.length / 2) ≠ [] := by
  rw [← List.length_pos_iff, ← List.length_pos_iff, List.length_take, List.length_drop]
  omega

theorem settle_lt {k : Nat} {ks : List Nat} (h : ks ≠ []) : settle k ks < ks.length := by
  fun_induction settle k ks with
  | case1 ks hle =>
      have := List.length_pos_iff.2 h
      omega
  | case2 ks hle half hk ih =>
      have := ih (halves_ne_nil hle).1
      rw [List.length_take] at this
      omega
  | case3 ks hle half hk ih =>
      have := ih (halves_ne_nil hle).2
      rw [List.length_drop] at this
      omega

/-- A bisection that moves at all rests on a number that is not above the one sought. -/
theorem settle_le {k n : Nat} {ks : List Nat} (h : ks[settle k ks]? = some n) :
    settle k ks = 0 ∨ n ≤ k := by
  fun_induction settle k ks with
  | case1 ks hle => exact Or.inl rfl
  | case2 ks hle half hk ih =>
      refine ih ?_
      have hne : ks.take (ks.length - half) ≠ [] := (halves_ne_nil hle).1
      have hlt := settle_lt (k := k) hne
      rw [List.length_take] at hlt
      rw [List.getElem?_take, if_pos (by omega)]
      exact h
  | case3 ks hle half hk ih =>
      right
      rw [← List.getElem?_drop] at h
      rcases ih h with h0 | hn
      · rw [h0, List.getElem?_drop, Nat.add_zero, List.getElem?_eq_getElem (by omega)] at h
        rw [← Option.some_inj.1 h]
        omega
      · exact hn

/-- Among ascending numbers, those that are not above the one sought lie at or before the place of
rest. -/
theorem le_settle {k n : Nat} {ks : List Nat} (hs : ks.Pairwise (· < ·)) (hn : n ≤ k) :
    ∀ m, ks[m]? = some n → m ≤ settle k ks := by
  fun_induction settle k ks with
  | case1 ks hle =>
      intro m hm
      have := (List.getElem?_eq_some_iff.1 hm).1
      omega
  | case2 ks hle half hk ih =>
      intro m hm
      obtain ⟨hlt, rfl⟩ := List.getElem?_eq_some_iff.1 hm
      have hmh : m < half := by
        by_contra hge
        rcases Nat.lt_or_eq_of_le (Nat.le_of_not_lt hge) with hlt' | rfl
        · have := List.pairwise_iff_getElem.1 hs half m (by omega) hlt hlt'
          omega
        · omega
      refine ih (hs.sublist (List.take_sublist _ _)) m ?_
      rw [List.getElem?_take, if_pos (by omega)]
      exact hm
  | case3 ks hle half hk ih =>
      intro m hm
      by_cases hmh : m < half
      · omega
      · have := ih (hs.sublist (List.drop_sublist _ _)) (m - half) (by
          rw [List.getElem?_drop, ← hm]
          congr 1
          omega)
        omega

theorem pairwise_insertIdx {v n : Nat} {ks : List Nat} (hs : ks.Pairwise (· < ·))
    (hlow : ∀ m x, m < n → ks[m]? = some x → x < v) (hhigh : ∀ m x, n ≤ m → ks[m]? = some x → v < x) :
    (ks.insertIdx n v).Pairwise (· < ·) := by
  induction ks generalizing n with
  | nil => cases n <;> simp
  | cons k ks ih =>
      obtain ⟨hk, hks⟩ := List.pairwise_cons.1 hs
      cases n with
      | zero =>
          refine List.pairwise_cons.2 ⟨fun x hx => ?_, hs⟩
          obtain ⟨m, hm⟩ := List.getElem?_of_mem hx
          exact hhigh m x (Nat.zero_le m) hm
      | succ n =>
          rw [List.insertIdx_succ_cons, List.pairwise_cons]
          refine ⟨fun x hx => ?_, ih hks (fun m x hm hx => hlow (m + 1) x (by omega) hx)
            fun m x hm hx => hhigh (m + 1) x (by omega) hx⟩
          rcases List.eq_or_mem_of_mem_insertIdx hx with rfl | hx
          · exact hlow 0 k (Nat.succ_pos n) rfl
          · exact hk x hx

namespace Roster

variable {α : Type} {kind : EntityKind} [Keyed α kind]

/-- The identifiers ascend. -/
def Ascending (xs : Roster α) : Prop := xs.keys.Pairwise (· < ·)

instance (xs : Roster α) : Decidable xs.Ascending :=
  inferInstanceAs (Decidable (xs.keys.Pairwise (· < ·)))

theorem keys_getElem? (xs : Roster α) (n : Nat) : xs.keys[n]? = xs[n]?.map fun a => (key a).toNat :=
  List.getElem?_map

theorem slot?_of_getElem? {xs : Roster α} (hs : xs.Ascending) {n : Nat} {a : α}
    (h : xs[n]? = some a) : xs.slot? (key a) = some n := by
  have hk : xs.keys[n]? = some (key a).toNat := by rw [keys_getElem?, h, Option.map_some]
  obtain ⟨hn, -⟩ := List.getElem?_eq_some_iff.1 hk
  have hle := le_settle hs (Nat.le_refl _) n hk
  have hlt : settle (key a).toNat xs.keys < xs.keys.length :=
    settle_lt (List.ne_nil_of_length_pos (by omega))
  have hrest : n = settle (key a).toNat xs.keys := by
    rcases settle_le (List.getElem?_eq_getElem hlt) with h0 | hge
    · omega
    · rcases Nat.lt_or_eq_of_le hle with hlt' | heq
      · have := List.pairwise_iff_getElem.1 hs n _ hn hlt hlt'
        have := (List.getElem?_eq_some_iff.1 hk).2
        omega
      · exact heq
  exact slot?_eq_some.2 ⟨hrest.symm, hk⟩

theorem get?_of_mem {xs : Roster α} (hs : xs.Ascending) {a : α} (h : a ∈ xs) :
    xs.get? (key a) = some a := by
  obtain ⟨n, hn⟩ := List.getElem?_of_mem h
  rw [get?, slot?_of_getElem? hs hn]
  exact hn

/-- A look-up in an ascending roster finds exactly what is there. -/
theorem get?_eq_some {xs : Roster α} (hs : xs.Ascending) {i : Id kind} {a : α} :
    xs.get? i = some a ↔ a ∈ xs ∧ key a = i :=
  ⟨fun h => ⟨mem_of_get? h, key_of_get? h⟩, fun ⟨ha, hi⟩ => hi ▸ get?_of_mem hs ha⟩

theorem Ascending.eq_of_key_eq {xs : Roster α} (hs : xs.Ascending) {a b : α} (ha : a ∈ xs) (hb : b ∈ xs)
    (hab : key a = key b) : a = b := by
  have hget := get?_of_mem hs ha
  rw [hab, get?_of_mem hs hb, Option.some_inj] at hget
  exact hget.symm

/-- Ascending identifiers are different, also those of a part of the roster. -/
theorem Ascending.nodup_filter {xs : Roster α} (hs : xs.Ascending) (p : α → Bool) :
    ((xs.filter p).map key).Nodup := by
  have hsub : (xs.keys).Nodup := List.Pairwise.imp Nat.ne_of_lt hs
  have hkeys : ((xs.filter p).map fun a => (key a).toNat).Nodup :=
    hsub.sublist (List.filter_sublist.map _)
  refine List.Nodup.of_map Id.toNat ?_
  rw [List.map_map]
  exact hkeys

/-- What is looked up has a place in the list, and that is where a change happens. -/
theorem get?_split {xs : Roster α} {i : Id kind} {a : α} (h : xs.get? i = some a) :
    ∃ before after, xs = before ++ a :: after ∧ ∀ f, xs.modify i f = before ++ f a :: after := by
  obtain ⟨n, hn, ha⟩ := Option.bind_eq_some_iff.1 h
  obtain ⟨hlt, rfl⟩ := List.getElem?_eq_some_iff.1 ha
  refine ⟨xs.take n, xs.drop (n + 1), ?_, fun f => ?_⟩
  · rw [← List.drop_eq_getElem_cons hlt, List.take_append_drop]
  · rw [modify, hn]
    exact List.modify_eq_take_cons_drop hlt

theorem modify_of_get?_eq_none {xs : Roster α} {i : Id kind} (h : xs.get? i = none) (f : α → α) :
    xs.modify i f = xs := by
  unfold modify
  split
  · next n hn =>
    rw [get?, hn, Option.bind_some, List.getElem?_eq_none_iff] at h
    exact List.modify_eq_self h
  · rfl

/-- A sum over a roster changes by the change of the entity that was changed. -/
theorem sum_modify {M : Type} [AddCommMonoid M] {xs : Roster α} {i : Id kind} {a : α}
    (h : xs.get? i = some a) (f : α → α) (g : α → M) :
    ((xs.modify i f).map g).sum + g a = (xs.map g).sum + g (f a) := by
  obtain ⟨before, after, hxs, hf⟩ := get?_split h
  rw [hf, hxs]
  simp only [List.map_append, List.map_cons, List.sum_append, List.sum_cons]
  abel

/-- Every entity after a change was there before, or is what became of the changed one. -/
theorem mem_modify {xs : Roster α} {i : Id kind} {f : α → α} {b : α} (h : b ∈ xs.modify i f) :
    b ∈ xs ∨ ∃ a, xs.get? i = some a ∧ b = f a := by
  cases ha : xs.get? i with
  | none => exact Or.inl (modify_of_get?_eq_none ha f ▸ h)
  | some a =>
      obtain ⟨before, after, hxs, hf⟩ := get?_split ha
      rw [hf] at h
      rw [hxs]
      simp only [List.mem_append, List.mem_cons] at h ⊢
      rcases h with h | rfl | h
      · exact Or.inl (Or.inl h)
      · exact Or.inr ⟨a, rfl, rfl⟩
      · exact Or.inl (Or.inr (Or.inr h))

/-- A change that a view does not show leaves the list of views as it was. -/
theorem map_modify {β : Type} {xs : Roster α} {i : Id kind} {f : α → α} {g : α → β}
    (hg : ∀ a, g (f a) = g a) : (xs.modify i f).map g = xs.map g := by
  cases ha : xs.get? i with
  | none => rw [modify_of_get?_eq_none ha]
  | some a =>
      obtain ⟨before, after, hxs, hf⟩ := get?_split ha
      rw [hf, hxs, List.map_append, List.map_cons, hg, List.map_append, List.map_cons]

theorem get?_modify_self {xs : Roster α} {i : Id kind} {f : α → α} (hf : ∀ a, key (f a) = key a) :
    (xs.modify i f).get? i = (xs.get? i).map f := by
  unfold get?
  rw [slot?_modify hf]
  unfold modify
  cases hn : xs.slot? i with
  | none => rfl
  | some n => simp

theorem get?_modify_found {xs : Roster α} {i : Id kind} {f : α → α} {a : α} (ha : xs.get? i = some a)
    (hf : ∀ a, key (f a) = key a) : (xs.modify i f).get? i = some (f a) := by
  rw [get?_modify_self hf, ha, Option.map_some]

/-- Two identifiers do not rest on one place, which holds only one of them. -/
theorem slot?_ne {xs : Roster α} {i j : Id kind} {n m : Nat} (hij : i ≠ j) (hn : xs.slot? i = some n)
    (hm : xs.slot? j = some m) : n ≠ m := by
  rintro rfl
  have := (slot?_eq_some.1 hn).2.symm.trans (slot?_eq_some.1 hm).2
  exact hij (Id.toNat_inj.1 (Option.some_inj.1 this))

theorem get?_modify_of_ne {xs : Roster α} {i j : Id kind} {f : α → α}
    (hf : ∀ a, key (f a) = key a) (hij : j ≠ i) : (xs.modify i f).get? j = xs.get? j := by
  unfold get?
  rw [slot?_modify hf]
  cases hm : xs.slot? j with
  | none => rfl
  | some m =>
      unfold modify
      cases hn : xs.slot? i with
      | none => rfl
      | some n =>
          simp [List.getElem?_modify, slot?_ne hij.symm hn hm]

theorem get?_modify {xs : Roster α} {i j : Id kind} {f : α → α} (hf : ∀ a, key (f a) = key a) :
    (xs.modify i f).get? j = if j = i then (xs.get? i).map f else xs.get? j := by
  split
  · next hij => rw [hij, get?_modify_self hf]
  · next hij => exact get?_modify_of_ne hf hij

theorem modify_of_slot? {xs : Roster α} {i : Id kind} {n : Nat} (h : xs.slot? i = some n) (f : α → α) :
    xs.modify i f = List.modify xs n f := by
  rw [modify, h]

/-- Two changes of one entity are one. -/
theorem modify_comp {xs : Roster α} {i : Id kind} {f g : α → α} (hf : ∀ a, key (f a) = key a) :
    (xs.modify i f).modify i g = xs.modify i (g ∘ f) := by
  cases ha : xs.get? i with
  | none => rw [modify_of_get?_eq_none ha, modify_of_get?_eq_none ha, modify_of_get?_eq_none ha]
  | some a =>
      obtain ⟨n, hn, -⟩ := Option.bind_eq_some_iff.1 ha
      have hn' : (xs.modify i f).slot? i = some n := (slot?_modify hf i).trans hn
      rw [modify_of_slot? hn', modify_of_slot? hn, modify_of_slot? hn, List.modify_modify_eq]

/-- Changes of two entities may trade places. -/
theorem modify_comm {xs : Roster α} {i j : Id kind} {f g : α → α} (hf : ∀ a, key (f a) = key a)
    (hg : ∀ a, key (g a) = key a) (hij : i ≠ j) : (xs.modify i f).modify j g = (xs.modify j g).modify i f := by
  cases ha : xs.get? i with
  | none =>
      have hnone : (xs.modify j g).get? i = none := (get?_modify_of_ne hg hij).trans ha
      rw [modify_of_get?_eq_none ha, modify_of_get?_eq_none hnone]
  | some a =>
      cases hb : xs.get? j with
      | none =>
          have hnone : (xs.modify i f).get? j = none := (get?_modify_of_ne hf hij.symm).trans hb
          rw [modify_of_get?_eq_none hb, modify_of_get?_eq_none hnone]
      | some b =>
          obtain ⟨n, hn, -⟩ := Option.bind_eq_some_iff.1 ha
          obtain ⟨m, hm, -⟩ := Option.bind_eq_some_iff.1 hb
          have hn' : (xs.modify j g).slot? i = some n := (slot?_modify hg i).trans hn
          have hm' : (xs.modify i f).slot? j = some m := (slot?_modify hf j).trans hm
          rw [modify_of_slot? hm', modify_of_slot? hn, modify_of_slot? hn', modify_of_slot? hm,
            List.modify_modify_ne f g xs (slot?_ne hij hn hm)]

/-- A change counts for what it makes of the entity that is there. -/
theorem modify_congr {xs : Roster α} {i : Id kind} {f g : α → α} {a : α} (ha : xs.get? i = some a)
    (hfg : f a = g a) : xs.modify i f = xs.modify i g := by
  obtain ⟨before, after, -, hmodify⟩ := get?_split ha
  rw [hmodify, hmodify, hfg]

theorem Ascending.modify {xs : Roster α} (hs : xs.Ascending) (i : Id kind) {f : α → α}
    (hf : ∀ a, key (f a) = key a) : (xs.modify i f).Ascending := by
  rw [Ascending, keys_modify hf]
  exact hs

theorem mem_put {xs : Roster α} {a b : α} (h : b ∈ xs.put a) : b = a ∨ b ∈ xs := by
  simp only [put] at h
  split at h
  · exact List.eq_or_mem_of_mem_insertIdx h
  · split at h
    · exact (List.mem_or_eq_of_mem_set h).symm
    · split at h <;> exact List.eq_or_mem_of_mem_insertIdx h

/-- An entity that is put into an ascending roster goes where it belongs. -/
theorem Ascending.put {xs : Roster α} (hs : xs.Ascending) (a : α) : (xs.put a).Ascending := by
  have hkeys (n : Nat) : Roster.keys (xs.insertIdx n a) = xs.keys.insertIdx n (key a).toNat :=
    List.map_insertIdx _ _ _ _
  simp only [Ascending, Roster.put]
  split
  · next hnone =>
    rw [hkeys]
    have hnil : xs.keys = [] := by
      by_contra hne
      have := settle_lt (k := (key a).toNat) hne
      rw [List.getElem?_eq_getElem this] at hnone
      cases hnone
    exact pairwise_insertIdx hs (by simp [hnil]) (by simp [hnil])
  · next k hk =>
    obtain ⟨hn, rfl⟩ := List.getElem?_eq_some_iff.1 hk
    split
    · next heq =>
      have hset : Roster.keys (xs.set (settle (key a).toNat xs.keys) a) = xs.keys := by
        rw [Roster.keys, List.map_set]
        conv_lhs => arg 3; rw [← heq]
        exact List.set_getElem_self hn
      rw [hset]
      exact hs
    · next hne =>
      split
      · next hlt =>
        rw [hkeys]
        refine pairwise_insertIdx hs (fun m x hm hx => ?_) fun m x hm hx => ?_
        · obtain ⟨hm', rfl⟩ := List.getElem?_eq_some_iff.1 hx
          rcases Nat.lt_or_eq_of_le (Nat.le_of_lt_succ hm) with hlt' | rfl
          · have := List.pairwise_iff_getElem.1 hs m _ hm' hn hlt'
            omega
          · exact hlt
        · by_contra hle
          have := le_settle hs (Nat.le_of_not_lt hle) m hx
          omega
      · next hge =>
        have h0 : settle (key a).toNat xs.keys = 0 := by
          rcases settle_le hk with h0 | hle
          · exact h0
          · omega
        rw [hkeys]
        refine pairwise_insertIdx hs (fun m x hm => by omega) fun m x hm hx => ?_
        obtain ⟨hm', rfl⟩ := List.getElem?_eq_some_iff.1 hx
        rcases Nat.lt_or_eq_of_le hm with hlt' | rfl
        · have := List.pairwise_iff_getElem.1 hs _ m hn hm' hlt'
          omega
        · omega

/-- Ascending, with no identifier above `n`. -/
structure UpTo (n : UInt64) (xs : Roster α) : Prop where
  ascending : xs.Ascending
  bounded : ∀ a ∈ xs, (key a).toNat ≤ n.toNat

namespace UpTo

variable {n m : UInt64} {xs ys : Roster α}

theorem mono (h : UpTo n xs) (hnm : n.toNat ≤ m.toNat) : UpTo m xs :=
  ⟨h.ascending, fun a ha => Nat.le_trans (h.bounded a ha) hnm⟩

theorem congr (h : UpTo n xs) (hk : ys.keys = xs.keys) : UpTo n ys := by
  refine ⟨?_, fun b hb => ?_⟩
  · rw [Ascending, hk]
    exact h.ascending
  · have hmem : (key b).toNat ∈ xs.keys := hk ▸ List.mem_map_of_mem hb
    obtain ⟨a, ha, hab⟩ := List.mem_map.1 hmem
    rw [← hab]
    exact h.bounded a ha

theorem modify (h : UpTo n xs) (i : Id kind) {f : α → α} (hf : ∀ a, key (f a) = key a) :
    UpTo n (xs.modify i f) := by
  refine ⟨h.ascending.modify i hf, fun b hb => ?_⟩
  rcases mem_modify hb with hb | ⟨a, ha, rfl⟩
  · exact h.bounded b hb
  · rw [hf]
    exact h.bounded a (mem_of_get? ha)

theorem filter (h : UpTo n xs) (p : α → Bool) : UpTo n (xs.filter p) :=
  ⟨h.ascending.sublist (List.filter_sublist.map _), fun a ha => h.bounded a (List.mem_of_mem_filter ha)⟩

theorem appendAll (h : UpTo n xs) (hys : UpTo n ys)
    (hlt : ∀ b ∈ ys, ∀ a ∈ xs, (key a).toNat < (key b).toNat) : UpTo n (xs ++ ys : Roster α) := by
  constructor
  · rw [Ascending, keys, List.map_append, List.pairwise_append]
    refine ⟨h.ascending, hys.ascending, fun a ha b hb => ?_⟩
    obtain ⟨x, hx, rfl⟩ := List.mem_map.1 ha
    obtain ⟨y, hy, rfl⟩ := List.mem_map.1 hb
    exact hlt y hy x hx
  · intro a ha
    rcases List.mem_append.1 ha with ha | ha
    · exact h.bounded a ha
    · exact hys.bounded a ha

/-- A fresh identifier goes to the end. -/
theorem append (h : UpTo n xs) {a : α} (ha : n.toNat < (key a).toNat)
    (hm : (key a).toNat ≤ m.toNat) : UpTo m (xs ++ [a] : Roster α) := by
  have hnm : n.toNat ≤ m.toNat := by omega
  refine (h.mono hnm).appendAll ⟨List.pairwise_singleton _ _, by simpa using hm⟩ fun b hb x hx => ?_
  rw [List.mem_singleton.1 hb]
  exact Nat.lt_of_le_of_lt (h.bounded x hx) ha

end UpTo

section

variable {n : UInt64} {xs : Roster α} {a : α}

theorem ascending_append (hxs : UpTo n xs) (ha : n.toNat < (key a).toNat) : (xs ++ [a] : Roster α).Ascending :=
  (hxs.append (m := (key a).val) ha (Nat.le_refl _)).ascending

/-- What was appended under a new number is found. -/
theorem get?_append (hxs : UpTo n xs) (ha : n.toNat < (key a).toNat) :
    Roster.get? (xs ++ [a] : Roster α) (key a) = some a :=
  get?_of_mem (ascending_append hxs ha) (List.mem_append_right _ (List.mem_singleton_self a))

/-- What was found before is found still. -/
theorem get?_append_of_get? (hxs : UpTo n xs) (ha : n.toNat < (key a).toNat) {i : Id kind} {b : α}
    (hb : xs.get? i = some b) : Roster.get? (xs ++ [a] : Roster α) i = some b :=
  (get?_eq_some (ascending_append hxs ha)).2 ⟨List.mem_append_left _ (mem_of_get? hb), key_of_get? hb⟩

theorem modify_append (hxs : UpTo n xs) (ha : n.toNat < (key a).toNat) (f : α → α) :
    Roster.modify (xs ++ [a] : Roster α) (key a) f = xs ++ [f a] := by
  have hslot : Roster.slot? (xs ++ [a] : Roster α) (key a) = some xs.length :=
    slot?_of_getElem? (ascending_append hxs ha) List.getElem?_concat_length
  have hmodify := List.modify_eq_take_cons_drop (f := f) (i := xs.length) (l := xs ++ [a]) (by simp)
  rw [modify, hslot]
  simpa using hmodify

end

end Roster

end Mercantile
