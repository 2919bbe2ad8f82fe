import Mercantile.Failure

/-!
Lists of entities, looked up by identifier. A look-up bisects, so it is meant for a list in ascending
order; on any other list it still settles on one place, and every operation on the same identifiers
settles on the same one. Main statements: what is found has the identifier asked for
(`key_of_get?`), and a change that keeps identifiers keeps all look-ups in place (`slot?_modify`).
-/

namespace Mercantile

/-- A type whose values are told apart by an identifier. -/
class Keyed (α : Type) (kind : outParam EntityKind) where
  key : α → Id kind

export Keyed (key)

instance : Keyed Company .company := ⟨Company.id⟩
instance : Keyed Region .region := ⟨Region.id⟩
instance : Keyed Item .item := ⟨Item.id⟩
instance : Keyed Building .building := ⟨Building.id⟩
instance : Keyed Recipe .recipe := ⟨Recipe.id⟩
instance : Keyed Job .job := ⟨Job.id⟩
instance : Keyed Order .order := ⟨Order.id⟩
instance : Keyed Trade .trade := ⟨Trade.id⟩
instance : Keyed Shipment .shipment := ⟨Shipment.id⟩
instance : Keyed Contract .contract := ⟨Contract.id⟩
instance : Keyed Allocation .company := ⟨Allocation.company⟩

/-- Where a bisection for `k` comes to rest. While there are two or more numbers, the half from the
middle on is kept unless it starts above `k`. -/
def settle (k : Nat) (ks : List Nat) : Nat :=
  if h : ks.length ≤ 1 then 0
  else
    let half := ks.length / 2
    if k < ks[half] then settle k (ks.take (ks.length - half))
    else half + settle k (ks.drop half)
termination_by ks.length
decreasing_by
  all_goals simp
  all_goals omega

abbrev Roster (α : Type) := List α

namespace Roster

variable {α : Type} {kind : EntityKind} [Keyed α kind]

/-- The numbers of the identifiers, in the order of the list. -/
def keys (xs : Roster α) : List Nat := xs.map fun a => (key a).toNat

def slot? (xs : Roster α) (i : Id kind) : Option Nat :=
  let n := settle i.toNat xs.keys
  if xs.keys[n]? = some i.toNat then some n else none

def get? (xs : Roster α) (i : Id kind) : Option α := (xs.slot? i).bind fun n => xs[n]?

/-- The entity with the identifier, which has to be there. -/
def require (xs : Roster α) (i : Id kind) : Except Failure α :=
  match xs.get? i with
  | some a => .ok a
  | none => .error (.notFound kind i.val)

/-- Changes the entity with the identifier, if it is there. -/
def modify (xs : Roster α) (i : Id kind) (f : α → α) : Roster α :=
  match xs.slot? i with
  | some n => List.modify xs n f
  | none => xs

/-- Replaces the entity that has the identifier of `a`, or puts `a` where it keeps the order. -/
def put (xs : Roster α) (a : α) : Roster α :=
  let n := settle (key a).toNat xs.keys
  match xs.keys[n]? with
  | none => xs.insertIdx n a
  | some k =>
    if k = (key a).toNat then xs.set n a
    else if k < (key a).toNat then xs.insertIdx (n + 1) a
    else xs.insertIdx n a

theorem slot?_eq_some {xs : Roster α} {i : Id kind} {n : Nat} :
    xs.slot? i = some n ↔ settle i.toNat xs.keys = n ∧ xs.keys[n]? = some i.toNat := by
  unfold slot?
  constructor
  · intro h
    by_cases hk : xs.keys[settle i.toNat xs.keys]? = some i.toNat
    · rw [if_pos hk, Option.some_inj] at h
      exact ⟨h, h ▸ hk⟩
    · rw [if_neg hk] at h
      cases h
  · rintro ⟨rfl, hk⟩
    exact if_pos hk

theorem key_of_get? {xs : Roster α} {i : Id kind} {a : α} (h : xs.get? i = some a) :
    key a = i := by
  obtain ⟨n, hn, ha⟩ := Option.bind_eq_some_iff.1 h
  have hk := (slot?_eq_some.1 hn).2
  rw [keys, List.getElem?_map, ha] at hk
  exact Id.toNat_inj.1 (Option.some_inj.1 hk)

theorem mem_of_get? {xs : Roster α} {i : Id kind} {a : α} (h : xs.get? i = some a) : a ∈ xs := by
  obtain ⟨n, _, ha⟩ := Option.bind_eq_some_iff.1 h
  exact List.mem_of_getElem? ha

theorem require_ok {xs : Roster α} {i : Id kind} {a : α} :
    xs.require i = .ok a ↔ xs.get? i = some a := by
  unfold require
  cases xs.get? i <;> simp

theorem require_error {xs : Roster α} {i : Id kind} {e : Failure} :
    xs.require i = .error e ↔ xs.get? i = none ∧ e = .notFound kind i.val := by
  unfold require
  cases xs.get? i <;> simp [eq_comm]

theorem keys_modify {xs : Roster α} {i : Id kind} {f : α → α} (hf : ∀ a, key (f a) = key a) :
    (xs.modify i f).keys = xs.keys := by
  unfold modify
  split
  · next n _ =>
    refine List.ext_getElem? fun m => ?_
    rw [keys, keys, List.getElem?_map, List.getElem?_map, List.getElem?_modify]
    cases xs[m]? with
    | none => rfl
    | some a => by_cases hm : n = m <;> simp [hm, hf]
  · rfl

theorem slot?_congr {xs ys : Roster α} (h : xs.keys = ys.keys) (i : Id kind) :
    xs.slot? i = ys.slot? i := by
  simp only [slot?, h]

theorem slot?_modify {xs : Roster α} {i : Id kind} {f : α → α} (hf : ∀ a, key (f a) = key a)
    (j : Id kind) : (xs.modify i f).slot? j = xs.slot? j :=
  slot?_congr (keys_modify hf) j

end Roster

end Mercantile
