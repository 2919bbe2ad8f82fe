import Mathlib.Tactic.IntervalCases
import Mercantile.Timestamp

/-!
Reading instants back. Main statements: `parse?_toText`, the text of an instant that a date and a time of day can
stand for reads back as that instant, and `valid_of_parse?`, no other instant is read. The first rests on the
calendar (`dateOfDays_spec`: a day has a date, and the date has that day) and on numbers of a fixed width
(`number?_append`).
-/

namespace Mercantile

namespace Text

theorem isSome_digitValue? {c : Char} : (digitValue? c).isSome ↔ 48 ≤ c.toNat ∧ c.toNat ≤ 57 := by
  have hle : ∀ a b : Char, a ≤ b ↔ a.toNat ≤ b.toNat := by
    intro a b
    exact UInt32.le_iff_toNat_le
  have hzero : ('0' : Char).toNat = 48 := rfl
  have hnine : ('9' : Char).toNat = 57 := rfl
  rw [digitValue?, Option.isSome_ite, hle, hle, hzero, hnine]

theorem isBlank_of_isSome_digitValue? {c : Char} (h : (digitValue? c).isSome) : isBlank c = false := by
  rw [isSome_digitValue?] at h
  simp only [isBlank, blankRanges, List.any_cons, List.any_nil, Bool.or_false, Bool.or_eq_false_iff,
    Bool.and_eq_false_iff, decide_eq_false_iff_not]
  omega

theorem isSome_of_mem_digits {c : Char} {n : Nat} (h : c ∈ digits n) : (digitValue? c).isSome := by
  fun_induction digits n with
  | case1 n hn =>
      obtain rfl := List.mem_singleton.1 h
      rw [digitValue?_digitChar hn, Option.isSome_some]
  | case2 n hn ih =>
      rcases List.mem_append.1 h with h | h
      · exact ih h
      · obtain rfl := List.mem_singleton.1 h
        rw [digitValue?_digitChar (Nat.mod_lt n (by decide)), Option.isSome_some]

theorem length_digits_le {n width : Nat} (h : n < 10 ^ (width + 1)) : (digits n).length ≤ width + 1 := by
  induction width generalizing n with
  | zero =>
      rw [digits, if_pos (by omega), List.length_singleton]
  | succ width ih =>
      rw [digits]
      split
      · rw [List.length_singleton]
        omega
      · have hdiv : n / 10 < 10 ^ (width + 1) := by
          rw [pow_succ] at h
          omega
        have hlen := ih hdiv
        rw [List.length_append, List.length_singleton]
        omega

theorem readDigits?_replicate (k : Nat) (cs : List Char) :
    readDigits? 0 (List.replicate k '0' ++ cs) = readDigits? 0 cs := by
  induction k with
  | zero => rfl
  | succ k ih => exact ih

theorem digitValue?_lt {c : Char} {d : Nat} (h : digitValue? c = some d) : d < 10 := by
  have hc := isSome_digitValue?.1 (Option.isSome_of_eq_some h)
  rw [digitValue?, Option.ite_none_right_eq_some, Option.some.injEq] at h
  omega

theorem readDigits?_lt {acc n : Nat} {cs : List Char} (h : readDigits? acc cs = some n) :
    n < (acc + 1) * 10 ^ cs.length := by
  induction cs generalizing acc with
  | nil =>
      cases h
      simp
  | cons c cs ih =>
      obtain ⟨d, hd, h⟩ := Option.bind_eq_some_iff.1 h
      have hdigit := digitValue?_lt hd
      calc n < (10 * acc + d + 1) * 10 ^ cs.length := ih h
        _ ≤ ((acc + 1) * 10) * 10 ^ cs.length := Nat.mul_le_mul_right _ (by omega)
        _ = (acc + 1) * 10 ^ (c :: cs).length := by rw [List.length_cons, pow_succ', Nat.mul_assoc]

theorem readNat?_lt {n : Nat} {cs : List Char} (h : readNat? cs = some n) : n < 10 ^ cs.length := by
  rw [readNat?, Option.ite_none_left_eq_some] at h
  have hlt := readDigits?_lt h.2
  rwa [Nat.zero_add, Nat.one_mul] at hlt

theorem trimStart_cons {c : Char} {cs : List Char} (h : isBlank c = false) : trimStart (c :: cs) = c :: cs := by
  rw [trimStart, List.dropWhile_cons_of_neg (by simp [h])]

theorem trimStart_append {ds cs : List Char} (hne : ds ≠ []) (h : ∀ c ∈ ds, (digitValue? c).isSome) :
    trimStart (ds ++ cs) = ds ++ cs := by
  obtain ⟨d, ds, rfl⟩ := List.exists_cons_of_ne_nil hne
  exact trimStart_cons (isBlank_of_isSome_digitValue? (h d List.mem_cons_self))

end Text

namespace Timestamp

/-- A day of an era, which are the four centuries after the last day of a February: the day of a year among four
years among the twenty-five groups of a century. -/
structure EraDay where
  century : Nat
  group : Nat
  year : Nat
  day : Nat
  century_le : century ≤ 3
  group_le : group ≤ 24
  year_le : year ≤ 3
  /-- The leap day ends every fourth year but the last of a century, and the last of the era. -/
  day_le : day ≤ 364 ∨ day = 365 ∧ year = 3 ∧ (group ≤ 23 ∨ century = 3)

namespace EraDay

def number (d : EraDay) : Nat := 36524 * d.century + 1461 * d.group + 365 * d.year + d.day

def yearOfEra (d : EraDay) : Nat := 100 * d.century + 4 * d.group + d.year

theorem exists_number {n : Nat} (hn : n < 146097) : ∃ d : EraDay, d.number = n := by
  obtain ⟨c, hc⟩ : ∃ c, c = min (n / 36524) 3 := ⟨_, rfl⟩
  obtain ⟨g, hg⟩ : ∃ g, g = (n - 36524 * c) / 1461 := ⟨_, rfl⟩
  obtain ⟨y, hy⟩ : ∃ y, y = min ((n - 36524 * c - 1461 * g) / 365) 3 := ⟨_, rfl⟩
  refine ⟨⟨c, g, y, n - 36524 * c - 1461 * g - 365 * y, ?_, ?_, ?_, ?_⟩, ?_⟩
  · omega
  · omega
  · omega
  · omega
  · simp only [number]
    omega

theorem div_number (d : EraDay) :
    (d.number - d.number / 1460 + d.number / 36524 - d.number / 146096) / 365 = d.yearOfEra := by
  obtain ⟨c, g, y, d, hc, hg, hy, hd⟩ := d
  simp only [number, yearOfEra]
  generalize hn : 36524 * c + 1461 * g + 365 * y + d = n
  have hcenturies : n / 36524 = c + n / 146096 := by
    rcases Nat.lt_or_ge n 146096 with hlt | hge
    · rw [Nat.div_eq_of_lt hlt]
      omega
    · obtain rfl : n = 146096 := by omega
      omega
  have hquarters : n / 1460 = 25 * c + g ∧ d ≤ 364 ∨ n / 1460 = 25 * c + g + 1 ∧ 1 ≤ d := by
    rcases Nat.lt_or_ge (24 * c + g + 365 * y + d) 1460 with hlt | hge <;> omega
  rcases hquarters with ⟨hquarters, hday⟩ | ⟨hquarters, hday⟩ <;> omega

theorem number_eq (d : EraDay) :
    d.number = 365 * d.yearOfEra + d.yearOfEra / 4 - d.yearOfEra / 100 + d.day := by
  obtain ⟨c, g, y, d, hc, hg, hy, hd⟩ := d
  simp only [number, yearOfEra]
  omega

/-- The last day of a long year is the day before a March of a leap year. -/
theorem leap (d : EraDay) (h : d.day = 365) :
    (d.yearOfEra + 1) % 4 = 0 ∧ ((d.yearOfEra + 1) % 100 ≠ 0 ∨ (d.yearOfEra + 1) % 400 = 0) := by
  obtain ⟨c, g, y, d, hc, hg, hy, hd⟩ := d
  simp only [yearOfEra] at h ⊢
  omega

theorem day_le_365 (d : EraDay) : d.day ≤ 365 := by
  have hday := d.day_le
  omega

theorem yearOfEra_le (d : EraDay) : d.yearOfEra ≤ 399 := by
  obtain ⟨c, g, y, d, hc, hg, hy, hd⟩ := d
  simp only [yearOfEra]
  omega

end EraDay

/-- The month of a day of the year that starts in March, and the day of the month. -/
theorem exists_month {n : Nat} (hn : n ≤ 365) : ∃ shifted day, shifted = (5 * n + 2) / 153 ∧ shifted ≤ 11 ∧
    n + 1 = (153 * shifted + 2) / 5 + day ∧ 1 ≤ day ∧ day ≤ 31 ∧
    (shifted = 1 ∨ shifted = 3 ∨ shifted = 6 ∨ shifted = 8 → day ≤ 30) ∧
    (shifted = 11 → day ≤ 29 ∧ (day = 29 → n = 365)) := by
  obtain ⟨shifted, hshifted⟩ : ∃ shifted, shifted = (5 * n + 2) / 153 := ⟨_, rfl⟩
  have hle : shifted ≤ 11 := by omega
  refine ⟨shifted, n + 1 - (153 * shifted + 2) / 5, hshifted, hle, ?_⟩
  interval_cases shifted <;> omega

theorem daysOfDate_eq {year era : Int} {month day y shifted n : Nat} (hy : y ≤ 399)
    (hyear : (if month ≤ 2 then year - 1 else year) = era * 400 + y) (hmonth : ((month : Int) + 9) % 12 = shifted)
    (hday : n + 1 = (153 * shifted + 2) / 5 + day) :
    daysOfDate year month day = era * 146097 + (365 * y + y / 4 - y / 100 + n : Nat) - 719468 := by
  have hera : (era * 400 + y) / 400 = era := by omega
  have hrest : (era * 400 + y) % 400 = (y : Int) := by omega
  simp only [daysOfDate, hyear, hmonth, hera, hrest]
  omega

theorem dateOfDays_spec {days year : Int} {month day : Nat} (h : dateOfDays days = (year, month, day)) :
    daysOfDate year month day = days ∧ 1 ≤ month ∧ month ≤ 12 ∧ 1 ≤ day ∧ day ≤ monthLength year month := by
  obtain ⟨d, hd⟩ := EraDay.exists_number (n := ((days + 719468) % 146097).toNat) (by omega)
  obtain ⟨shifted, dom, hshifted, hmonth, hday, hpos, hlong, hshort, hfebruary⟩ := exists_month d.day_le_365
  have hsub : d.number - (365 * d.yearOfEra + d.yearOfEra / 4 - d.yearOfEra / 100) = d.day := by
    rw [d.number_eq, Nat.add_sub_cancel_left]
  have hdom : d.day - (153 * shifted + 2) / 5 + 1 = dom := by omega
  have hdays : (days + 719468) / 146097 * 146097 + (d.number : Int) - 719468 = days := by omega
  simp only [dateOfDays, ← hd, EraDay.div_number, hsub, ← hshifted, hdom, Prod.mk.injEq] at h
  obtain ⟨rfl, rfl, rfl⟩ := h
  by_cases hten : shifted < 10
  · have hlate : ¬ shifted + 3 ≤ 2 := by omega
    have hshift : (((shifted + 3 : Nat) : Int) + 9) % 12 = shifted := by omega
    simp only [if_pos hten, if_neg hlate, add_zero]
    refine ⟨?_, by omega, by omega, hpos, ?_⟩
    · rw [daysOfDate_eq d.yearOfEra_le (by rw [if_neg hlate]) hshift hday, ← d.number_eq, hdays]
    · unfold monthLength
      split_ifs <;> omega
  · have hearly : shifted - 9 ≤ 2 := by omega
    have hshift : (((shifted - 9 : Nat) : Int) + 9) % 12 = shifted := by omega
    simp only [if_neg hten, if_pos hearly]
    refine ⟨?_, by omega, by omega, hpos, ?_⟩
    · rw [daysOfDate_eq d.yearOfEra_le (by rw [if_pos hearly, add_sub_cancel_right]) hshift hday,
        ← d.number_eq, hdays]
    · have hleap := d.leap
      unfold monthLength
      split_ifs <;> omega

theorem isSome_of_mem_padded {c : Char} {width n : Nat} (h : c ∈ padded width n) : (Text.digitValue? c).isSome := by
  rcases List.mem_append.1 h with h | h
  · rw [List.eq_of_mem_replicate h]
    decide
  · exact Text.isSome_of_mem_digits h

theorem padded_ne_nil (width n : Nat) : padded width n ≠ [] :=
  List.append_ne_nil_of_right_ne_nil _ (Text.digits_ne_nil n)

theorem isSome_of_padded_append {c : Char} {width n : Nat} {cs rest : List Char}
    (h : padded width n ++ cs = c :: rest) : (Text.digitValue? c).isSome := by
  obtain ⟨d, ds, hds⟩ := List.exists_cons_of_ne_nil (padded_ne_nil width n)
  have hd : d ∈ padded width n := hds ▸ List.mem_cons_self
  rw [hds, List.cons_append, List.cons.injEq] at h
  rw [← h.1]
  exact isSome_of_mem_padded hd

theorem readNat?_padded (width n : Nat) : Text.readNat? (padded width n) = some n := by
  rw [Text.readNat?, if_neg (padded_ne_nil width n)]
  exact (Text.readDigits?_replicate _ _).trans (Text.readDigits?_digits n)

theorem length_padded {width n : Nat} (h : n < 10 ^ (width + 1)) : (padded (width + 1) n).length = width + 1 := by
  have hlen := Text.length_digits_le h
  simp only [padded, List.length_append, List.length_replicate]
  omega

/-- A number is read up to its width, or up to what is no digit. -/
theorem number?_append {width n : Nat} {ds cs : List Char} (hdigits : ∀ c ∈ ds, (Text.digitValue? c).isSome)
    (hread : Text.readNat? ds = some n) (hwidth : ds.length ≤ width)
    (hstop : ds.length = width ∨ ∀ c ∈ cs.head?, Text.digitValue? c = none) :
    number? width (ds ++ cs) = some (n, cs) := by
  have htail : (cs.take (width - ds.length)).takeWhile (Text.digitValue? · |>.isSome) = [] := by
    rcases hstop with hfull | hnone
    · rw [hfull, Nat.sub_self]
      rfl
    · cases cs with
      | nil => rw [List.take_nil, List.takeWhile_nil]
      | cons c cs =>
          cases width - ds.length with
          | zero => rfl
          | succ k =>
              have hc : Text.digitValue? c = none := hnone c rfl
              rw [List.take_succ_cons, List.takeWhile_cons_of_neg (by simp [hc])]
  have hall : ((ds ++ cs).take width).takeWhile (Text.digitValue? · |>.isSome) = ds := by
    rw [List.take_append, List.take_of_length_le hwidth, List.takeWhile_append_of_pos hdigits, htail,
      List.append_nil]
  simp only [number?, hall, hread, List.drop_left]
  rfl

theorem number?_padded {width n : Nat} (h : n < 10 ^ (width + 1)) (cs : List Char) :
    number? (width + 1) (padded (width + 1) n ++ cs) = some (n, cs) :=
  number?_append (fun _ => isSome_of_mem_padded) (readNat?_padded _ n) (length_padded h).le (Or.inl (length_padded h))

theorem field?_padded {n : Nat} (h : n < 100) (cs : List Char) : field? 2 (padded 2 n ++ cs) = some (n, cs) := by
  rw [field?, Text.trimStart_append (padded_ne_nil 2 n) fun _ => isSome_of_mem_padded]
  exact number?_padded h cs

theorem separator?_cons {c : Char} (h : Text.isBlank c = false) (cs : List Char) :
    separator? c (c :: cs) = some cs := by
  rw [separator?, Text.trimStart_cons h]
  exact if_pos rfl

/-- The years of dates, which end where a hyphen follows. -/
theorem year?_yearText (year : Int) (cs : List Char) :
    year? (yearText year ++ '-' :: cs) = some (year, '-' :: cs) := by
  have hstop : ∀ c ∈ ('-' :: cs).head?, Text.digitValue? c = none := by
    intro c hc
    obtain rfl := Option.some.inj hc
    rfl
  have hsigned : number? (padded 4 year.natAbs ++ '-' :: cs).length (padded 4 year.natAbs ++ '-' :: cs) =
      some (year.natAbs, '-' :: cs) := by
    apply number?_append (fun _ => isSome_of_mem_padded) (readNat?_padded _ _) _ (Or.inr hstop)
    rw [List.length_append]
    exact Nat.le_add_right _ _
  unfold yearText
  split_ifs with hneg hbig
  · rw [List.cons_append, year?, Text.trimStart_cons (by decide)]
    simp only [hsigned, Option.map_some, Option.some.injEq, Prod.mk.injEq, and_true]
    omega
  · rw [List.cons_append, year?, Text.trimStart_cons (by decide)]
    simp only [hsigned, Option.map_some, Option.some.injEq, Prod.mk.injEq, and_true]
    omega
  · rw [year?, Text.trimStart_append (padded_ne_nil _ _) fun _ => isSome_of_mem_padded]
    split
    · next hminus => exact absurd (isSome_of_padded_append hminus) (by decide)
    · next hplus => exact absurd (isSome_of_padded_append hplus) (by decide)
    · rw [number?_padded (by omega)]
      simp only [Option.map_some, Option.some.injEq, Prod.mk.injEq, and_true]
      omega

theorem fraction?_padded {width n : Nat} (h : n < 10 ^ (width + 1)) (hwidth : width + 1 ≤ 9) :
    fraction? ('.' :: padded (width + 1) n ++ ['Z']) = some (n * Text.tenTo (9 - (width + 1)), ['Z']) := by
  have hlen := length_padded h
  have hnumber : number? 9 (padded (width + 1) n ++ ['Z']) = some (n, ['Z']) := by
    apply number?_append (fun _ => isSome_of_mem_padded) (readNat?_padded _ _) (by omega) (Or.inr _)
    intro c hc
    obtain rfl := Option.some.inj hc
    rfl
  have hsize : (padded (width + 1) n ++ ['Z']).length - ['Z'].length = width + 1 := by
    rw [List.length_append, hlen, Nat.add_sub_cancel]
  simp only [List.cons_append, fraction?, hnumber, Option.bind_eq_bind, Option.bind_some, hsize]
  rfl

/-- The fraction is read up to the `Z` that follows it. -/
theorem fraction?_fractionText {nano : Nat} (h : nano < 1000000000) :
    fraction? (fractionText nano ++ ['Z']) = some (nano, ['Z']) := by
  unfold fractionText
  split_ifs with hzero hmilli hmicro
  · rw [hzero]
    rfl
  · have hscale : nano / 1000000 * Text.tenTo 6 = nano := Nat.div_mul_cancel (Nat.dvd_of_mod_eq_zero hmilli)
    rw [fraction?_padded (by omega) (by decide), hscale]
  · have hscale : nano / 1000 * Text.tenTo 3 = nano := Nat.div_mul_cancel (Nat.dvd_of_mod_eq_zero hmicro)
    rw [fraction?_padded (by omega) (by decide), hscale]
  · rw [fraction?_padded (by omega) (by decide)]
    exact congrArg (fun n => some (n, ['Z'])) (Nat.mul_one nano)

/-- A number that was read has as many digits as the text lost. -/
theorem number?_lt {width n : Nat} {cs rest : List Char} (h : number? width cs = some (n, rest)) :
    cs.length - rest.length ≤ width ∧ n < 10 ^ (cs.length - rest.length) := by
  obtain ⟨m, hm, h⟩ := Option.bind_eq_some_iff.1 h
  obtain ⟨rfl, rfl⟩ := Prod.mk.inj (Option.some.inj h)
  have hlt := Text.readNat?_lt hm
  have htake := (List.takeWhile_prefix (Text.digitValue? · |>.isSome) (l := cs.take width)).length_le
  rw [List.length_take] at htake
  have hlength : cs.length - (cs.drop ((cs.take width).takeWhile (Text.digitValue? · |>.isSome)).length).length =
      ((cs.take width).takeWhile (Text.digitValue? · |>.isSome)).length := by
    rw [List.length_drop]
    omega
  rw [hlength]
  exact ⟨by omega, hlt⟩

theorem fraction?_lt {nano : Nat} {cs rest : List Char} (h : fraction? cs = some (nano, rest)) :
    nano < 1000000000 := by
  unfold fraction? at h
  split at h
  · obtain ⟨⟨n, tail⟩, hn, h⟩ := Option.bind_eq_some_iff.1 h
    obtain ⟨rfl, -⟩ := Prod.mk.inj (Option.some.inj h)
    obtain ⟨hwidth, hlt⟩ := number?_lt hn
    generalize List.length _ - tail.length = width at hwidth hlt ⊢
    calc n * Text.tenTo (9 - width) < 10 ^ width * 10 ^ (9 - width) :=
          Nat.mul_lt_mul_of_pos_right hlt (Nat.pow_pos (by decide))
      _ = 10 ^ 9 := by rw [← pow_add, Nat.add_sub_cancel' hwidth]
  · cases h
    decide

theorem offsetSize?_minutes {n : Nat} {cs rest : List Char} (h : offsetSize? cs = some (n, rest)) : n % 60 = 0 := by
  obtain ⟨⟨hours, cs₁⟩, -, h⟩ := Option.bind_eq_some_iff.1 h
  obtain ⟨⟨minutes, cs₂⟩, -, h⟩ := Option.bind_eq_some_iff.1 h
  dsimp only at h
  split at h
  · cases h
    omega
  · cases h

/-- An offset is a number of whole minutes. -/
theorem offset?_minutes {ahead : Int} {cs rest : List Char} (h : offset? cs = some (ahead, rest)) :
    ahead % 60 = 0 := by
  unfold offset? at h
  split at h
  case h_1 | h_2 =>
    cases h
    rfl
  case h_3 | h_4 | h_5 =>
    obtain ⟨⟨n, tail⟩, hn, h⟩ := Option.map_eq_some_iff.1 h
    cases h
    have hminutes := offsetSize?_minutes hn
    omega
  case h_6 =>
    rw [Option.ite_none_right_eq_some] at h
    cases h.2
    rfl

/-- What a date and a time of day can stand for: a year of the calendar, and a fraction that reaches into a second
second only at the end of a minute. -/
structure Valid (t : Timestamp) : Prop where
  year : -262143 ≤ (dateOfDays (t.second / 86400)).1 ∧ (dateOfDays (t.second / 86400)).1 ≤ 262142
  nano : t.nano < 1000000000 ∨ t.nano < 2000000000 ∧ t.second % 60 = 59

instance (t : Timestamp) : Decidable t.Valid :=
  decidable_of_iff (_ ∧ _) ⟨fun h => ⟨h.1, h.2⟩, fun h => ⟨h.year, h.nano⟩⟩

theorem parse?_toText {t : Timestamp} (h : t.Valid) : parse? t.toText = some t := by
  obtain ⟨⟨year, month, day⟩, hdate⟩ : ∃ date, dateOfDays (t.second / 86400) = date := ⟨_, rfl⟩
  obtain ⟨hdays, hmonth, hmonth', hday, hday'⟩ := dateOfDays_spec hdate
  obtain ⟨hyear, hnano⟩ := h
  rw [hdate] at hyear
  have hlength : monthLength year month ≤ 31 := by
    unfold monthLength
    split_ifs <;> omega
  obtain ⟨rest, hrest⟩ : ∃ rest, (t.second % 86400).toNat = rest := ⟨_, rfl⟩
  have htext : t.toText.toList = yearText year ++ '-' :: (padded 2 month ++ '-' :: (padded 2 day ++
      'T' :: (padded 2 (rest / 3600) ++ ':' :: (padded 2 (rest / 60 % 60) ++
        ':' :: (padded 2 (rest % 60 + t.nano / 1000000000) ++
          (fractionText (t.nano % 1000000000) ++ ['Z'])))))) := by
    simp only [toText, hdate, hrest, String.toList_ofList, List.append_assoc, List.cons_append]
  have hsecond : rest % 60 + t.nano / 1000000000 ≤ 60 := by omega
  unfold parse?
  rw [htext]
  refine Option.bind_eq_some_iff.2 ⟨_, year?_yearText year _, ?_⟩
  refine Option.bind_eq_some_iff.2 ⟨_, separator?_cons rfl _, ?_⟩
  refine Option.bind_eq_some_iff.2 ⟨_, field?_padded (by omega) _, ?_⟩
  refine Option.bind_eq_some_iff.2 ⟨_, separator?_cons rfl _, ?_⟩
  refine Option.bind_eq_some_iff.2 ⟨_, field?_padded (by omega) _, ?_⟩
  refine Option.bind_eq_some_iff.2 ⟨_, rfl, ?_⟩
  refine Option.bind_eq_some_iff.2 ⟨_, field?_padded (by omega) _, ?_⟩
  refine Option.bind_eq_some_iff.2 ⟨_, separator?_cons rfl _, ?_⟩
  refine Option.bind_eq_some_iff.2 ⟨_, field?_padded (by omega) _, ?_⟩
  refine Option.bind_eq_some_iff.2 ⟨_, separator?_cons rfl _, ?_⟩
  refine Option.bind_eq_some_iff.2 ⟨_, field?_padded (by omega) _, ?_⟩
  refine Option.bind_eq_some_iff.2 ⟨_, fraction?_fractionText (by omega), ?_⟩
  refine Option.bind_eq_some_iff.2 ⟨(0, []), rfl, ?_⟩
  refine (if_neg (by decide)).trans ?_
  have hwall : daysOfDate year month day * 86400 + (rest / 3600 : Nat) * 3600 + (rest / 60 % 60 : Nat) * 60 +
      (min (rest % 60 + t.nano / 1000000000) 59 : Nat) - 0 = t.second := by omega
  have hfraction : (if rest % 60 + t.nano / 1000000000 = 60 then t.nano % 1000000000 + 1000000000
      else t.nano % 1000000000) = t.nano := by split_ifs <;> omega
  simp only [instant?, hwall, hdate, hfraction]
  exact if_pos ⟨hyear, ⟨hmonth, hmonth', hday, hday'⟩, ⟨by omega, by omega, hsecond, by decide⟩, hyear⟩

theorem valid_of_instant? {year ahead : Int} {month day hour minute second nano : Nat} {t : Timestamp}
    (hnano : nano < 1000000000) (hahead : ahead % 60 = 0)
    (h : instant? year month day hour minute second nano ahead = some t) : t.Valid := by
  rw [instant?, Option.ite_none_right_eq_some] at h
  obtain ⟨⟨-, -, ⟨-, -, hsecond, -⟩, hyear⟩, h⟩ := h
  obtain rfl := Option.some.inj h
  refine ⟨hyear, ?_⟩
  dsimp only
  split
  · omega
  · exact Or.inl hnano

/-- Every instant that is read is one that a date and a time of day can stand for, also where an offset leads
from one day to another. -/
theorem valid_of_parse? {s : String} {t : Timestamp} (h : parse? s = some t) : t.Valid := by
  unfold parse? at h
  obtain ⟨⟨year, cs₁⟩, -, h⟩ := Option.bind_eq_some_iff.1 h
  obtain ⟨cs₂, -, h⟩ := Option.bind_eq_some_iff.1 h
  obtain ⟨⟨month, cs₃⟩, -, h⟩ := Option.bind_eq_some_iff.1 h
  obtain ⟨cs₄, -, h⟩ := Option.bind_eq_some_iff.1 h
  obtain ⟨⟨day, cs₅⟩, -, h⟩ := Option.bind_eq_some_iff.1 h
  obtain ⟨cs₆, -, h⟩ := Option.bind_eq_some_iff.1 h
  obtain ⟨⟨hour, cs₇⟩, -, h⟩ := Option.bind_eq_some_iff.1 h
  obtain ⟨cs₈, -, h⟩ := Option.bind_eq_some_iff.1 h
  obtain ⟨⟨minute, cs₉⟩, -, h⟩ := Option.bind_eq_some_iff.1 h
  obtain ⟨cs₁₀, -, h⟩ := Option.bind_eq_some_iff.1 h
  obtain ⟨⟨second, cs₁₁⟩, -, h⟩ := Option.bind_eq_some_iff.1 h
  obtain ⟨⟨nano, cs₁₂⟩, hnano, h⟩ := Option.bind_eq_some_iff.1 h
  obtain ⟨⟨ahead, cs₁₃⟩, hahead, h⟩ := Option.bind_eq_some_iff.1 h
  dsimp only at h
  split at h
  · cases h
  · exact valid_of_instant? (fraction?_lt hnano) (offset?_minutes hahead) h

end Timestamp

end Mercantile
