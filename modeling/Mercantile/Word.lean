/-!
Machine words with their range in view. Sums, differences and products are formed exactly, in the
naturals or the integers, and become words again only where they fit. All overflow checks of the
economy go through `UInt64.ofNat?` and `Int64.ofInt?`, and `ofNat?_eq_some` and `ofInt?_eq_some`
say what these two accept.
-/

namespace UInt64

/-- The word for `n`, if there is one. -/
def ofNat? (n : Nat) : Option UInt64 :=
  if n < UInt64.size then some (UInt64.ofNat n) else none

theorem ofNat?_eq_some {n : Nat} {a : UInt64} : ofNat? n = some a ↔ a.toNat = n := by
  unfold ofNat?
  constructor
  · intro h
    split at h
    · next hn =>
      cases h
      exact UInt64.toNat_ofNat_of_lt' hn
    · cases h
  · intro h
    rw [← h, if_pos a.toNat_lt, UInt64.ofNat_toNat]

theorem ofNat?_eq_none {n : Nat} : ofNat? n = none ↔ UInt64.size ≤ n := by
  unfold ofNat?
  split <;> simp <;> omega

def add? (a b : UInt64) : Option UInt64 := ofNat? (a.toNat + b.toNat)

def mul? (a b : UInt64) : Option UInt64 := ofNat? (a.toNat * b.toNat)

def sub? (a b : UInt64) : Option UInt64 := if b ≤ a then some (a - b) else none

/-- The sum, or the largest word where it does not fit. -/
def addSat (a b : UInt64) : UInt64 := UInt64.ofNat (min (a.toNat + b.toNat) (UInt64.size - 1))

/-- The difference, or zero where it would be negative. -/
def subSat (a b : UInt64) : UInt64 := UInt64.ofNat (a.toNat - b.toNat)

theorem add?_eq_some {a b c : UInt64} : add? a b = some c ↔ c.toNat = a.toNat + b.toNat :=
  ofNat?_eq_some

theorem add?_eq_none {a b : UInt64} : add? a b = none ↔ UInt64.size ≤ a.toNat + b.toNat :=
  ofNat?_eq_none

theorem mul?_eq_some {a b c : UInt64} : mul? a b = some c ↔ c.toNat = a.toNat * b.toNat :=
  ofNat?_eq_some

theorem mul?_eq_none {a b : UInt64} : mul? a b = none ↔ UInt64.size ≤ a.toNat * b.toNat :=
  ofNat?_eq_none

theorem sub?_eq_some {a b c : UInt64} : sub? a b = some c ↔ b.toNat + c.toNat = a.toNat := by
  unfold sub?
  constructor
  · intro h
    split at h
    · next hle =>
      cases h
      rw [UInt64.toNat_sub_of_le _ _ hle]
      have := UInt64.le_iff_toNat_le.1 hle
      omega
    · cases h
  · intro h
    have hle : b ≤ a := UInt64.le_iff_toNat_le.2 (by omega)
    rw [if_pos hle, Option.some_inj, ← UInt64.toNat_inj, UInt64.toNat_sub_of_le _ _ hle]
    omega

theorem toNat_addSat (a b : UInt64) : (addSat a b).toNat = min (a.toNat + b.toNat) (UInt64.size - 1) := by
  rw [addSat, UInt64.toNat_ofNat_of_lt']
  exact Nat.lt_of_le_of_lt (Nat.min_le_right _ _) (by decide)

theorem toNat_subSat (a b : UInt64) : (subSat a b).toNat = a.toNat - b.toNat := by
  rw [subSat, UInt64.toNat_ofNat_of_lt']
  exact Nat.lt_of_le_of_lt (Nat.sub_le _ _) a.toNat_lt

end UInt64

namespace Int64

/-- The word for `n`, if there is one. -/
def ofInt? (n : Int) : Option Int64 :=
  if Int64.minValue.toInt ≤ n ∧ n ≤ Int64.maxValue.toInt then some (Int64.ofInt n) else none

theorem ofInt?_eq_some {n : Int} {a : Int64} : ofInt? n = some a ↔ a.toInt = n := by
  unfold ofInt?
  constructor
  · intro h
    split at h
    · next hn =>
      cases h
      exact Int64.toInt_ofInt_of_le hn.1 (Int.lt_of_le_of_lt hn.2 Int64.maxValue.toInt_lt)
    · cases h
  · intro h
    rw [← h, if_pos ⟨a.minValue_le_toInt, a.toInt_le⟩, Int64.ofInt_toInt]

theorem ofInt?_eq_none {n : Int} :
    ofInt? n = none ↔ n < Int64.minValue.toInt ∨ Int64.maxValue.toInt < n := by
  unfold ofInt?
  split
  · simp only [reduceCtorEq, false_iff]
    omega
  · simp only [true_iff]
    omega

def add? (a b : Int64) : Option Int64 := ofInt? (a.toInt + b.toInt)

def sub? (a b : Int64) : Option Int64 := ofInt? (a.toInt - b.toInt)

def mul? (a b : Int64) : Option Int64 := ofInt? (a.toInt * b.toInt)

theorem add?_eq_some {a b c : Int64} : add? a b = some c ↔ c.toInt = a.toInt + b.toInt :=
  ofInt?_eq_some

theorem sub?_eq_some {a b c : Int64} : sub? a b = some c ↔ c.toInt = a.toInt - b.toInt :=
  ofInt?_eq_some

theorem mul?_eq_some {a b c : Int64} : mul? a b = some c ↔ c.toInt = a.toInt * b.toInt :=
  ofInt?_eq_some

end Int64

namespace Mercantile

/-- Money, in hundredths of the currency unit. -/
abbrev Cents := Int64

/-- A number of units of some good. -/
abbrev Quantity := UInt64

/-- Discrete time. -/
abbrev Tick := UInt64

end Mercantile
