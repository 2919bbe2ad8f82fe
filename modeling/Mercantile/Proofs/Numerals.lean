import Mathlib.Data.Nat.Digits.Defs
import Mercantile.Proofs.Calendar
import Mercantile.Proofs.Execution
import Mercantile.Validation

/-!
Integers within bounds, read from a text. A numeral is one or more ASCII digits after at most one sign
(`Text.Numeral`), and of a text counts what is left without the white space at both ends (`Text.Trimmed`). Main
statement: `readBoundedInt_exact`, an integer is read exactly if what is left is a numeral of a word within the
bounds; a numeral of another word is out of range, and anything else is no integer.
-/

namespace Mercantile

namespace Text

/-- What is left of a text without the white space at both ends. -/
structure Trimmed (cs t : List Char) : Prop where
  around : ∃ before after, cs = before ++ t ++ after ∧ (∀ c ∈ before, isBlank c) ∧ ∀ c ∈ after, isBlank c
  head : ∀ c ∈ t.head?, isBlank c = false
  last : ∀ c ∈ t.getLast?, isBlank c = false

/-- Blanks before a text that does not start with one are skipped, and nothing else. -/
theorem trimStart_blanks {before t : List Char} (hbefore : ∀ c ∈ before, isBlank c)
    (ht : ∀ c ∈ t.head?, isBlank c = false) : trimStart (before ++ t) = t := by
  rw [trimStart, List.dropWhile_append_of_pos hbefore]
  cases t with
  | nil => rfl
  | cons c t => exact trimStart_cons (ht c rfl)

theorem Trimmed.trim_eq {cs t : List Char} (h : Trimmed cs t) : trim cs = t := by
  obtain ⟨before, after, rfl, hbefore, hafter⟩ := h.around
  have hlast : trimStart (after.reverse ++ t.reverse) = t.reverse := by
    refine trimStart_blanks (fun c hc => hafter c (List.mem_reverse.1 hc)) ?_
    rw [List.head?_reverse]
    exact h.last
  cases t with
  | nil =>
      have hblank : trimStart (before ++ after ++ []) = [] :=
        trimStart_blanks (List.forall_mem_append.2 ⟨hbefore, hafter⟩) nofun
      rw [List.append_nil] at hblank
      rw [trim, List.append_nil, hblank]
      rfl
  | cons c t =>
      rw [trim, List.append_assoc, trimStart_blanks hbefore (by simpa using h.head), List.reverse_append, hlast,
        List.reverse_reverse]

theorem exists_trimStart (cs : List Char) :
    ∃ before, cs = before ++ trimStart cs ∧ (∀ c ∈ before, isBlank c) ∧
      ∀ c ∈ (trimStart cs).head?, isBlank c = false := by
  refine ⟨cs.takeWhile isBlank, List.takeWhile_append_dropWhile.symm, ?_, fun c hc => ?_⟩
  · exact fun c hc => List.all_eq_true.1 List.all_takeWhile c hc
  · have hhead := List.head?_dropWhile_not isBlank cs
    rw [trimStart] at hc
    rw [hc] at hhead
    exact hhead

theorem trimmed_trim (cs : List Char) : Trimmed cs (trim cs) := by
  obtain ⟨before, hcs, hbefore, hhead⟩ := exists_trimStart cs
  obtain ⟨after, hrest, hafter, hlast⟩ := exists_trimStart (trimStart cs).reverse
  have hrest : trimStart cs = trim cs ++ after.reverse := by
    rw [trim, ← List.reverse_append, ← hrest, List.reverse_reverse]
  refine ⟨⟨before, after.reverse, ?_, hbefore, fun c hc => hafter c (List.mem_reverse.1 hc)⟩, ?_, ?_⟩
  · rw [List.append_assoc, ← hrest]
    exact hcs
  · intro c hc
    refine hhead c ?_
    rw [hrest, List.head?_append, hc]
    rfl
  · rw [trim, List.getLast?_reverse]
    exact hlast

/-- Of every text exactly one text is left. -/
theorem trimmed_iff {cs t : List Char} : Trimmed cs t ↔ t = trim cs :=
  ⟨fun h => h.trim_eq.symm, fun h => h ▸ trimmed_trim cs⟩

/-- One or more ASCII digits. -/
def IsDigits (ds : List Char) : Prop := ds ≠ [] ∧ ∀ c ∈ ds, c.isDigit

/-- The number that digits stand for; the last one counts the units. -/
def digitsValue (ds : List Char) : Nat := Nat.ofDigits 10 (ds.reverse.map fun c => c.toNat - '0'.toNat)

/-- Digits after at most one sign, with the integer that they stand for. -/
inductive Numeral : List Char → Int → Prop
  | unsigned {ds : List Char} (h : IsDigits ds) : Numeral ds (digitsValue ds)
  | positive {ds : List Char} (h : IsDigits ds) : Numeral ('+' :: ds) (digitsValue ds)
  | negative {ds : List Char} (h : IsDigits ds) : Numeral ('-' :: ds) (-(digitsValue ds : Int))

theorem digitValue?_eq_some {c : Char} {d : Nat} :
    digitValue? c = some d ↔ c.isDigit ∧ d = c.toNat - '0'.toNat := by
  have hdigit : c.isDigit ↔ (digitValue? c).isSome := by
    rw [isSome_digitValue?, Char.isDigit, Bool.and_eq_true, decide_eq_true_iff, decide_eq_true_iff]
    exact Iff.rfl
  rw [hdigit]
  unfold digitValue?
  split
  · rw [Option.some_inj, Option.isSome_some, eq_comm]
    exact (and_iff_right rfl).symm
  · simp

theorem digitsValue_cons (c : Char) (cs : List Char) :
    digitsValue (c :: cs) = (c.toNat - '0'.toNat) * 10 ^ cs.length + digitsValue cs := by
  rw [digitsValue, digitsValue, List.reverse_cons, List.map_append, List.map_singleton, Nat.ofDigits_append,
    Nat.ofDigits_singleton, List.length_map, List.length_reverse, Nat.mul_comm, Nat.add_comm]

/-- Further digits are read if they are digits, and the number read so far moves to the front of theirs. -/
theorem readDigits?_eq_some {acc n : Nat} {cs : List Char} :
    readDigits? acc cs = some n ↔ (∀ c ∈ cs, c.isDigit) ∧ n = acc * 10 ^ cs.length + digitsValue cs := by
  induction cs generalizing acc with
  | nil => simp [readDigits?, digitsValue, @eq_comm Nat n]
  | cons c cs ih =>
      have hvalue : (10 * acc + (c.toNat - '0'.toNat)) * 10 ^ cs.length + digitsValue cs =
          acc * 10 ^ (c :: cs).length + digitsValue (c :: cs) := by
        rw [digitsValue_cons, List.length_cons, Nat.pow_succ', Nat.add_mul, Nat.add_assoc, Nat.mul_comm 10 acc,
          Nat.mul_assoc]
      simp only [readDigits?, Option.bind_eq_some_iff, digitValue?_eq_some, ih, List.forall_mem_cons, ← hvalue]
      constructor
      · rintro ⟨d, ⟨hc, rfl⟩, hcs, hn⟩
        exact ⟨⟨hc, hcs⟩, hn⟩
      · rintro ⟨⟨hc, hcs⟩, hn⟩
        exact ⟨_, ⟨hc, rfl⟩, hcs, hn⟩

theorem readNat?_eq_some {cs : List Char} {n : Nat} : readNat? cs = some n ↔ IsDigits cs ∧ n = digitsValue cs := by
  rw [readNat?, Option.ite_none_left_eq_some, readDigits?_eq_some, Nat.zero_mul, Nat.zero_add, IsDigits, and_assoc]

/-- A sign is no digit. -/
theorem IsDigits.head_ne {c : Char} {cs : List Char} (h : IsDigits (c :: cs)) : c ≠ '-' ∧ c ≠ '+' := by
  have hc := h.2 c List.mem_cons_self
  constructor <;> (rintro rfl; exact absurd hc (by decide))

/-- What is read as an integer are the numerals. -/
theorem readInt?_eq_some {cs : List Char} {v : Int} : readInt? cs = some v ↔ Numeral cs v := by
  constructor
  · intro h
    unfold readInt? at h
    split at h <;>
    · obtain ⟨m, hm, rfl⟩ := Option.map_eq_some_iff.1 h
      obtain ⟨n, hn, hcast⟩ := Option.bind_eq_some_iff.1 hm
      obtain rfl := Option.some.inj hcast
      obtain ⟨hds, rfl⟩ := readNat?_eq_some.1 hn
      constructor
      exact hds
  · intro h
    cases h with
    | unsigned hds =>
        have hread := readNat?_eq_some.2 ⟨hds, rfl⟩
        unfold readInt?
        split
        · exact absurd rfl hds.head_ne.1
        · exact absurd rfl hds.head_ne.2
        · rw [hread]
          rfl
    | positive hds =>
        rw [readInt?, readNat?_eq_some.2 ⟨hds, rfl⟩]
        rfl
    | negative hds =>
        rw [readInt?, readNat?_eq_some.2 ⟨hds, rfl⟩]
        rfl

/-- An integer is written as a numeral of it. -/
theorem numeral_ofInt (n : Int) : Numeral (ofInt n).toList n := by
  have hdigits := readNat?_eq_some.1 (readNat?_digits n.natAbs)
  rw [ofInt]
  split
  · next hneg =>
    have hvalue : n = -(digitsValue (digits n.natAbs) : Int) := by
      rw [← hdigits.2]
      omega
    rw [String.toList_ofList]
    conv => arg 2; rw [hvalue]
    exact .negative hdigits.1
  · next hnonneg =>
    have hvalue : n = digitsValue (digits n.natAbs) := by
      rw [← hdigits.2]
      omega
    rw [ofNat, String.toList_ofList]
    conv => arg 2; rw [hvalue]
    exact .unsigned hdigits.1

theorem Numeral.unique {cs : List Char} {v u : Int} (hv : Numeral cs v) (hu : Numeral cs u) : v = u :=
  Option.some.inj ((readInt?_eq_some.2 hv).symm.trans (readInt?_eq_some.2 hu))

/-- A numeral is written without white space. -/
theorem Numeral.not_blank {cs : List Char} {v : Int} (h : Numeral cs v) : ∀ c ∈ cs, isBlank c = false := by
  have hdigits {ds : List Char} (hds : IsDigits ds) : ∀ c ∈ ds, isBlank c = false := fun c hc =>
    isBlank_of_isSome_digitValue? (Option.isSome_of_eq_some (digitValue?_eq_some.2 ⟨hds.2 c hc, rfl⟩))
  cases h with
  | unsigned hds => exact hdigits hds
  | positive hds => exact List.forall_mem_cons.2 ⟨by decide, hdigits hds⟩
  | negative hds => exact List.forall_mem_cons.2 ⟨by decide, hdigits hds⟩

theorem Numeral.trimmed {before t after : List Char} {v : Int} (h : Numeral t v)
    (hbefore : ∀ c ∈ before, isBlank c) (hafter : ∀ c ∈ after, isBlank c) : Trimmed (before ++ t ++ after) t where
  around := ⟨before, after, rfl, hbefore, hafter⟩
  head := fun c hc => h.not_blank c (List.mem_of_mem_head? hc)
  last := fun c hc => h.not_blank c (List.mem_of_mem_getLast? hc)

end Text

section

variable {field raw : String} {min max v : Int64} {e : ValidationError}

/-- A value lies within bounds, both of them included. -/
def Within (min max v : Int64) : Prop := min.toInt ≤ v.toInt ∧ v.toInt ≤ max.toInt

instance (min max v : Int64) : Decidable (Within min max v) :=
  inferInstanceAs (Decidable (min.toInt ≤ v.toInt ∧ v.toInt ≤ max.toInt))

theorem not_within : ¬ Within min max v ↔ v < min ∨ max < v := by
  rw [Int64.lt_iff_toInt_lt, Int64.lt_iff_toInt_lt, Within]
  omega

theorem checkRange_ok {u : Int64} : checkRange field v min max = .ok u ↔ Within min max v ∧ u = v := by
  rw [checkRange, Check.bound_ok, ← not_within, not_not]

theorem checkRange_error :
    checkRange field v min max = .error e ↔ ¬ Within min max v ∧ e = .outOfRange field v min max := by
  rw [checkRange, not_within]
  split
  · next hout => simp [hout, eq_comm]
  · next hin => simp [hin]

/-- A text is a numeral of a word, which is then looked at, or it is no integer. -/
theorem readBoundedInt_cases (field raw : String) (min max : Int64) :
    (∃ v : Int64, Text.Numeral (Text.trim raw.toList) v.toInt ∧
      readBoundedInt field raw min max = checkRange field v min max) ∨
    (∀ v : Int64, ¬ Text.Numeral (Text.trim raw.toList) v.toInt) ∧
      readBoundedInt field raw min max = .error (.notAnInteger field raw) := by
  have hword (v : Int64) : (Text.readInt? (Text.trim raw.toList)).bind Int64.ofInt? = some v ↔
      Text.Numeral (Text.trim raw.toList) v.toInt := by
    simp only [Option.bind_eq_some_iff, Text.readInt?_eq_some, Int64.ofInt?_eq_some, exists_eq_right']
  unfold readBoundedInt
  split
  · next v hv => exact Or.inl ⟨v, (hword v).1 hv, rfl⟩
  · next hnone =>
    refine Or.inr ⟨fun v hv => ?_, rfl⟩
    rw [← hword, hnone] at hv
    cases hv

/-- White space around the decimal text of a word does not matter, and the word is looked at. -/
theorem readBoundedInt_padded {before after : List Char} (hbefore : ∀ c ∈ before, Text.isBlank c)
    (hafter : ∀ c ∈ after, Text.isBlank c) (hraw : raw.toList = before ++ (Text.ofInt v.toInt).toList ++ after)
    (field : String) (min max : Int64) : readBoundedInt field raw min max = checkRange field v min max := by
  have hnumeral : Text.Numeral (Text.trim raw.toList) v.toInt := by
    rw [hraw, ((Text.numeral_ofInt v.toInt).trimmed hbefore hafter).trim_eq]
    exact Text.numeral_ofInt v.toInt
  rcases readBoundedInt_cases field raw min max with ⟨u, hu, hread⟩ | ⟨hnone, -⟩
  · obtain rfl := Int64.toInt_inj.1 (hu.unique hnumeral)
    exact hread
  · exact absurd hnumeral (hnone v)

theorem readBoundedInt_ok : readBoundedInt field raw min max = .ok v ↔
    Text.Numeral (Text.trim raw.toList) v.toInt ∧ Within min max v := by
  rcases readBoundedInt_cases field raw min max with ⟨u, hu, hread⟩ | ⟨hnone, hread⟩
  · rw [hread, checkRange_ok]
    constructor
    · rintro ⟨hwithin, rfl⟩
      exact ⟨hu, hwithin⟩
    · rintro ⟨hv, hwithin⟩
      obtain rfl := Int64.toInt_inj.1 (hu.unique hv)
      exact ⟨hwithin, rfl⟩
  · rw [hread]
    exact iff_of_false nofun fun h => hnone v h.1

theorem readBoundedInt_outOfRange : readBoundedInt field raw min max = .error (.outOfRange field v min max) ↔
    Text.Numeral (Text.trim raw.toList) v.toInt ∧ ¬ Within min max v := by
  rcases readBoundedInt_cases field raw min max with ⟨u, hu, hread⟩ | ⟨hnone, hread⟩
  · rw [hread, checkRange_error]
    constructor
    · rintro ⟨hout, he⟩
      cases he
      exact ⟨hu, hout⟩
    · rintro ⟨hv, hout⟩
      obtain rfl := Int64.toInt_inj.1 (hu.unique hv)
      exact ⟨hout, rfl⟩
  · rw [hread]
    exact iff_of_false nofun fun h => hnone v h.1

theorem readBoundedInt_notAnInteger : readBoundedInt field raw min max = .error (.notAnInteger field raw) ↔
    ∀ v : Int64, ¬ Text.Numeral (Text.trim raw.toList) v.toInt := by
  rcases readBoundedInt_cases field raw min max with ⟨u, hu, hread⟩ | ⟨hnone, hread⟩
  · rw [hread, checkRange_error]
    exact iff_of_false (fun h => nomatch h.2) fun h => h u hu
  · exact iff_of_true hread hnone

end

/-- What is read from a text. White space at both ends does not count, which leaves one text. It is read as the
integer `v` exactly if it is a numeral of `v` and `v` lies within the bounds; it is out of range with `v` exactly
if it is a numeral of the word `v` and `v` lies outside; and the whole text, with its white space, is no integer
exactly if what is left is no numeral of a word. In particular every word within the bounds is read back from its
decimal text, whatever white space surrounds that. -/
theorem readBoundedInt_exact (field raw : String) (min max : Int64) :
    ∃ t, (∀ u, Text.Trimmed raw.toList u ↔ u = t) ∧
      (∀ v, readBoundedInt field raw min max = .ok v ↔
        Text.Numeral t v.toInt ∧ min.toInt ≤ v.toInt ∧ v.toInt ≤ max.toInt) ∧
      (∀ v, readBoundedInt field raw min max = .error (.outOfRange field v min max) ↔
        Text.Numeral t v.toInt ∧ ¬ (min.toInt ≤ v.toInt ∧ v.toInt ≤ max.toInt)) ∧
      (readBoundedInt field raw min max = .error (.notAnInteger field raw) ↔
        ∀ v, Text.Numeral t v → ¬ (-2 ^ 63 ≤ v ∧ v < 2 ^ 63)) ∧
      ∀ n : Int64, min.toInt ≤ n.toInt → n.toInt ≤ max.toInt → ∀ before after : List Char,
        (∀ c ∈ before, Text.isBlank c) → (∀ c ∈ after, Text.isBlank c) →
        raw.toList = before ++ (Text.ofInt n.toInt).toList ++ after → readBoundedInt field raw min max = .ok n := by
  refine ⟨Text.trim raw.toList, fun u => Text.trimmed_iff, fun v => readBoundedInt_ok,
    fun v => readBoundedInt_outOfRange, ?_, ?_⟩
  · rw [readBoundedInt_notAnInteger]
    constructor
    · rintro h v hv ⟨hlow, hhigh⟩
      have hword : (Int64.ofInt v).toInt = v := Int64.toInt_ofInt_of_le hlow hhigh
      exact h (Int64.ofInt v) (hword.symm ▸ hv)
    · exact fun h v hv => h v.toInt hv ⟨v.le_toInt, v.toInt_lt⟩
  · intro n hmin hmax before after hbefore hafter hraw
    rw [readBoundedInt_padded hbefore hafter hraw, checkRange_ok]
    exact ⟨⟨hmin, hmax⟩, rfl⟩

/-- The least word of all is read from between an ideographic space and the end of a line. -/
theorem readBoundedInt_exact_least :
    Int64.minValue.toInt ≤ Int64.minValue.toInt ∧ Int64.minValue.toInt ≤ (0 : Int64).toInt ∧
    (∀ c ∈ ['\u3000'], Text.isBlank c) ∧ (∀ c ∈ ['\r', '\n'], Text.isBlank c) ∧
    "\u3000-9223372036854775808\r\n".toList =
      ['\u3000'] ++ (Text.ofInt Int64.minValue.toInt).toList ++ ['\r', '\n'] ∧
    readBoundedInt "price" "\u3000-9223372036854775808\r\n" .minValue 0 = .ok .minValue := by
  have hmax : Int64.minValue.toInt ≤ (0 : Int64).toInt := by decide
  have hbefore : ∀ c ∈ ['\u3000'], Text.isBlank c := List.all_eq_true.1 (by decide)
  have hafter : ∀ c ∈ ['\r', '\n'], Text.isBlank c := List.all_eq_true.1 (by decide)
  have hraw : "\u3000-9223372036854775808\r\n".toList =
      ['\u3000'] ++ (Text.ofInt Int64.minValue.toInt).toList ++ ['\r', '\n'] := by decide +kernel
  obtain ⟨-, -, -, -, -, hread⟩ :=
    readBoundedInt_exact "price" "\u3000-9223372036854775808\r\n" .minValue 0
  exact ⟨le_refl _, hmax, hbefore, hafter, hraw, hread _ (le_refl _) hmax _ _ hbefore hafter hraw⟩

end Mercantile
