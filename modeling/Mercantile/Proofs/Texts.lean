import Mathlib.Data.List.Basic
import Mercantile.Json.Parser
import Mercantile.Json.Printer
import Mercantile.Proofs.Documents

/-!
Texts of documents. Main statement: `parse?_print`, the text of a document whose numbers are words is read as that
document. What is printed is read part by part, with what follows left over: a string up to its closing quote
(`readString?_escaped`), a number up to what does not go on with it (`readNumber?_ofInt`), and items and members up
to their bracket. The induction is on the document (`Plain.readsBack`); a reader's fuel is the length of the text.
-/

namespace Mercantile

namespace Text

/-- Only zero starts with a zero. -/
theorem head?_digits {n : Nat} (hn : 0 < n) : (digits n).head? ≠ some '0' := by
  fun_induction digits n with
  | case1 n hlt =>
      have hchar : ∀ d < 10, 0 < d → digitChar d ≠ '0' := by decide
      exact fun h => hchar n hlt hn (Option.some.inj h)
  | case2 n hge ih =>
      rw [List.head?_append_of_ne_nil _ (digits_ne_nil _)]
      exact ih (by omega)

theorem exists_digits_cons (n : Nat) : ∃ d ds, digits n = d :: ds ∧ (digitValue? d).isSome := by
  obtain ⟨d, ds, hds⟩ := List.exists_cons_of_ne_nil (digits_ne_nil n)
  exact ⟨d, ds, hds, isSome_of_mem_digits (hds ▸ List.mem_cons_self)⟩

theorem toList_ofInt (n : Int) :
    (ofInt n).toList = if n < 0 then '-' :: digits n.natAbs else digits n.natAbs := by
  rw [ofInt]
  split
  · exact String.toList_ofList
  · exact String.toList_ofList

/-- An integer starts with a minus or a digit. -/
theorem exists_ofInt_cons (n : Int) :
    ∃ c cs, (ofInt n).toList = c :: cs ∧ (c = '-' ∨ (digitValue? c).isSome) := by
  rw [toList_ofInt]
  split
  · exact ⟨_, _, rfl, Or.inl rfl⟩
  · obtain ⟨d, ds, hds, hd⟩ := exists_digits_cons n.natAbs
    exact ⟨d, ds, hds, Or.inr hd⟩

end Text

namespace Json

theorem readCodePoints?_letter {c : Char} {u : Nat} (h : unescape? c = some u) (cs : List Char) :
    readCodePoints? ('\\' :: c :: cs) = (readCodePoints? cs).map fun r => (u :: r.1, r.2) := by
  rw [readCodePoints?]
  · rw [h]
    cases readCodePoints? cs <;> rfl
  · rintro a b d e ds rfl
    cases h

theorem readInBase?_hex4 : ∀ n < 32, Text.readInBase? 16 (hex4 n) = some n := by decide

/-- A character inside a string is written as a letter after a backslash, as four hexadecimal digits, or as
it is. -/
theorem escape_cases (c : Char) : (∃ d, escape c = ['\\', d] ∧ unescape? d = some c.toNat) ∨
    (c.toNat < 32 ∧ escape c = '\\' :: 'u' :: hex4 c.toNat) ∨
    (¬ c.toNat < 32 ∧ c ≠ '"' ∧ c ≠ '\\' ∧ escape c = [c]) := by
  unfold escape
  split
  case h_8 _ hquote hbackslash _ _ _ _ _ =>
    split
    · next hcontrol => exact Or.inr (Or.inl ⟨hcontrol, rfl⟩)
    · next hprinted => exact Or.inr (Or.inr ⟨hprinted, hquote, hbackslash, rfl⟩)
  all_goals exact Or.inl ⟨_, rfl, rfl⟩

/-- An escaped character is read as its code point. -/
theorem readCodePoints?_escape (c : Char) (cs : List Char) :
    readCodePoints? (escape c ++ cs) = (readCodePoints? cs).map fun r => (c.toNat :: r.1, r.2) := by
  rcases escape_cases c with ⟨d, hescape, hd⟩ | ⟨hcontrol, hescape⟩ | ⟨hprinted, hquote, hbackslash, hescape⟩
  · rw [hescape]
    exact readCodePoints?_letter hd cs
  · have hread := readInBase?_hex4 c.toNat hcontrol
    simp only [hex4, List.map_cons, List.map_nil] at hread
    simp only [hescape, hex4, List.map_cons, List.map_nil, List.cons_append, List.nil_append]
    rw [readCodePoints?, hread]
    cases readCodePoints? cs <;> rfl
  · rw [hescape, List.singleton_append, readCodePoints?]
    · rw [if_neg hprinted]
      cases readCodePoints? cs <;> rfl
    · exact hquote
    · intro _ _ _ _ _ h
      exact absurd h hbackslash
    · intro _ _ h
      exact absurd h hbackslash

theorem readCodePoints?_flatMap (cs rest : List Char) :
    readCodePoints? (cs.flatMap escape ++ '"' :: rest) = some (cs.map Char.toNat, rest) := by
  induction cs with
  | nil => rfl
  | cons c cs ih =>
      rw [List.flatMap_cons, List.append_assoc, readCodePoints?_escape, ih, Option.map_some, List.map_cons]

/-- No character is half of a surrogate pair. -/
theorem not_surrogate (c : Char) : isHighSurrogate c.toNat = false ∧ isLowSurrogate c.toNat = false := by
  have hvalid : c.toNat < 0xd800 ∨ 0xdfff < c.toNat ∧ c.toNat < 0x110000 := c.valid
  simp only [isHighSurrogate, isLowSurrogate, Bool.and_eq_false_iff, decide_eq_false_iff_not]
  omega

theorem joinSurrogates?_toNat (cs : List Char) : joinSurrogates? (cs.map Char.toNat) = some cs := by
  induction cs with
  | nil => rfl
  | cons c cs ih =>
      obtain ⟨hhigh, hlow⟩ := not_surrogate c
      cases cs with
      | nil => simp [joinSurrogates?, hhigh, hlow]
      | cons d cs =>
          rw [List.map_cons] at ih
          simp [joinSurrogates?, hhigh, hlow, ih]

theorem readString?_escaped (s : String) (rest : List Char) :
    readString? (s.toList.flatMap escape ++ '"' :: rest) = some (some s, rest) := by
  rw [readString?, readCodePoints?_flatMap]
  simp [joinSurrogates?_toNat]

/-- A rest that does not go on with a number. -/
def EndsNumber (rest : List Char) : Prop :=
  ∀ c ∈ rest.head?, Text.digitValue? c = none ∧ c ≠ '.' ∧ c ≠ 'e' ∧ c ≠ 'E'

theorem splitDigits_append {ds rest : List Char} (hds : ∀ c ∈ ds, (Text.digitValue? c).isSome)
    (hrest : EndsNumber rest) : splitDigits (ds ++ rest) = (ds, rest) := by
  have hstop : rest.takeWhile (Text.digitValue? · |>.isSome) = [] ∧
      rest.dropWhile (Text.digitValue? · |>.isSome) = rest := by
    cases rest with
    | nil => exact ⟨rfl, rfl⟩
    | cons c rest =>
        have hc := (hrest c rfl).1
        exact ⟨List.takeWhile_cons_of_neg (by simp [hc]), List.dropWhile_cons_of_neg (by simp [hc])⟩
  rw [splitDigits, List.takeWhile_append_of_pos hds, List.dropWhile_append_of_pos hds, hstop.1, hstop.2,
    List.append_nil]

theorem readWhole?_digits {rest : List Char} (n : Nat) (hrest : EndsNumber rest) :
    readWhole? (Text.digits n ++ rest) = some (Text.digits n, rest) := by
  rw [readWhole?, splitDigits_append (fun _ => Text.isSome_of_mem_digits) hrest]
  split
  · next h => exact absurd (congrArg Prod.fst h) (Text.digits_ne_nil n)
  · next h =>
    have hdigits : Text.digits n = '0' :: _ :: _ := congrArg Prod.fst h
    rcases Nat.eq_zero_or_pos n with rfl | hpos
    · rw [Text.digits, if_pos (by decide)] at hdigits
      cases hdigits
    · exact absurd (by rw [hdigits]; rfl) (Text.head?_digits hpos)
  · rfl

theorem readFraction?_none {rest : List Char} (hrest : EndsNumber rest) :
    readFraction? rest = some ([], rest) := by
  unfold readFraction?
  split
  · exact absurd rfl (hrest _ rfl).2.1
  · rfl

theorem readExponent?_none {rest : List Char} (hrest : EndsNumber rest) :
    readExponent? rest = some (none, rest) := by
  unfold readExponent?
  split
  case h_7 => rfl
  all_goals
    have h := hrest _ rfl
    simp at h

/-- Digits do not start with a minus. -/
theorem digits_append_ne_minus (n : Nat) (rest cs : List Char) : Text.digits n ++ rest ≠ '-' :: cs := by
  obtain ⟨d, ds, hds, hd⟩ := Text.exists_digits_cons n
  intro h
  rw [hds, List.cons_append, List.cons.injEq] at h
  rw [h.1] at hd
  exact absurd hd (by decide)

/-- An integer is read as such, if a word can hold it. -/
theorem readNumber?_ofInt {n : Int} {rest : List Char} (hlow : Int64.minValue.toInt ≤ n)
    (hhigh : n < UInt64.size) (hrest : EndsNumber rest) :
    readNumber? ((Text.ofInt n).toList ++ rest) = some (.int n, rest) := by
  rw [Text.toList_ofInt]
  unfold readNumber?
  split
  next negative cs hsigned =>
  have hparts : negative = decide (n < 0) ∧ cs = Text.digits n.natAbs ++ rest := by
    by_cases hneg : n < 0
    · rw [if_pos hneg, List.cons_append] at hsigned
      cases hsigned
      exact ⟨(decide_eq_true hneg).symm, rfl⟩
    · rw [if_neg hneg] at hsigned
      split at hsigned
      · next hminus => exact absurd hminus (digits_append_ne_minus _ _ _)
      · cases hsigned
        exact ⟨(decide_eq_false hneg).symm, rfl⟩
  obtain ⟨rfl, rfl⟩ := hparts
  have hread : Text.readNat? (Text.digits n.natAbs ++ []) = some n.natAbs := by
    rw [List.append_nil, Text.readNat?_digits]
  have hvalue : (if decide (n < 0) then -(n.natAbs : Int) else (n.natAbs : Int)) = n := by
    simp only [decide_eq_true_eq]
    split <;> omega
  have hzero : (decide (n < 0) && n == 0) = false := by grind
  refine Option.bind_eq_some_iff.2 ⟨_, readWhole?_digits _ hrest, ?_⟩
  refine Option.bind_eq_some_iff.2 ⟨_, readFraction?_none hrest, ?_⟩
  refine Option.bind_eq_some_iff.2 ⟨_, readExponent?_none hrest, ?_⟩
  refine Option.bind_eq_some_iff.2 ⟨_, hread, ?_⟩
  simp only [hvalue, hzero, decide_eq_true hlow, decide_eq_true hhigh]
  rfl

/-- A document that has a text of its own: its numbers are words, and nothing in it is illegible. -/
inductive Plain : Json → Prop
  | null : Plain .null
  | bool (b : Bool) : Plain (.bool b)
  | int {n : Int} (low : Int64.minValue.toInt ≤ n) (high : n < UInt64.size) : Plain (.int n)
  | str (s : String) : Plain (.str s)
  | arr {js : List Json} (items : ∀ j ∈ js, Plain j) : Plain (.arr js)
  | obj {ms : List (String × Json)} (members : ∀ m ∈ ms, Plain m.2) : Plain (.obj ms)

theorem toList_print_str (s : String) : (print (.str s)).toList = '"' :: (s.toList.flatMap escape ++ ['"']) := by
  simp [print, printString]

theorem toList_print_arr (js : List Json) :
    (print (.arr js)).toList = '[' :: ((printItems js).toList ++ [']']) := by
  simp [print]

theorem toList_print_obj (ms : List (String × Json)) :
    (print (.obj ms)).toList = '\x7b' :: ((printMembers ms).toList ++ ['\x7d']) := by
  simp [print]

theorem toList_printItems_cons (j k : Json) (js : List Json) : (printItems (j :: k :: js)).toList =
    j.print.toList ++ ',' :: (printItems (k :: js)).toList := by
  simp [printItems]

theorem toList_printMember (m : String × Json) : (printMembers [m]).toList =
    '"' :: (m.1.toList.flatMap escape ++ '"' :: ':' :: m.2.print.toList) := by
  simp [printMembers, printString]

theorem toList_printMembers_cons (m n : String × Json) (ms : List (String × Json)) :
    (printMembers (m :: n :: ms)).toList =
      (printMembers [m]).toList ++ ',' :: (printMembers (n :: ms)).toList := by
  simp [printMembers, printString]

theorem skip_cons {c : Char} (hc : isSpace c = false) (cs : List Char) : skip (c :: cs) = c :: cs :=
  List.dropWhile_cons_of_neg (by simp [hc])

theorem not_space_of_number {c : Char} (hc : c = '-' ∨ (Text.digitValue? c).isSome) :
    isSpace c = false ∧ c ≠ ']' := by
  rcases hc with rfl | hc
  · exact ⟨by decide, by decide⟩
  · constructor
    · rw [Text.isSome_digitValue?] at hc
      have hne : c ≠ ' ' ∧ c ≠ '\n' ∧ c ≠ '\t' ∧ c ≠ '\r' := by
        refine ⟨?_, ?_, ?_, ?_⟩ <;> (rintro rfl; revert hc; decide)
      simp [isSpace, hne]
    · rintro rfl
      revert hc
      decide

/-- A text starts with neither a blank nor a closing bracket. -/
theorem print_head (j : Json) : ∃ c cs, j.print.toList = c :: cs ∧ isSpace c = false ∧ c ≠ ']' := by
  cases j with
  | null => exact ⟨_, _, rfl, by decide, by decide⟩
  | bool b => cases b <;> exact ⟨_, _, rfl, by decide, by decide⟩
  | int n =>
      obtain ⟨c, cs, hcs, hc⟩ := Text.exists_ofInt_cons n
      exact ⟨c, cs, hcs, not_space_of_number hc⟩
  | real m e =>
      obtain ⟨c, cs, hcs, hc⟩ := Text.exists_ofInt_cons m
      refine ⟨c, cs ++ 'e' :: (Text.ofInt e).toList, ?_, not_space_of_number hc⟩
      simp [print, hcs]
  | str s => exact ⟨_, _, toList_print_str s, by decide, by decide⟩
  | arr js => exact ⟨_, _, toList_print_arr js, by decide, by decide⟩
  | obj ms => exact ⟨_, _, toList_print_obj ms, by decide, by decide⟩
  | illegible => exact ⟨_, _, rfl, by decide, by decide⟩

theorem readValue?_number {c : Char} (hc : c = '-' ∨ (Text.digitValue? c).isSome) (fuel : Nat) (cs : List Char) :
    readValue? (fuel + 1) (c :: cs) = readNumber? (c :: cs) := by
  rw [readValue?, skip_cons (not_space_of_number hc).1]
  split
  case h_7 => rfl
  all_goals
    next h =>
    rw [List.cons.injEq] at h
    rw [h.1] at hc
    exact absurd hc (by decide)

theorem endsNumber_cons {c : Char} (hc : Text.digitValue? c = none ∧ c ≠ '.' ∧ c ≠ 'e' ∧ c ≠ 'E')
    (cs : List Char) : EndsNumber (c :: cs) := by
  intro d hd
  rw [← Option.some.inj hd]
  exact hc

/-- The text of a document is read as the document, whatever follows that does not go on with a number. -/
def ReadsBack (j : Json) : Prop :=
  ∀ (fuel : Nat) (rest : List Char), j.print.toList.length ≤ fuel + 1 → EndsNumber rest →
    readValue? (fuel + 1) (j.print.toList ++ rest) = some (j, rest)

theorem ReadsBack.readValue?_print {j : Json} (h : ReadsBack j) (fuel : Nat) {rest : List Char}
    (hfuel : j.print.toList.length ≤ fuel) (hrest : EndsNumber rest) :
    readValue? fuel (j.print.toList ++ rest) = some (j, rest) := by
  obtain ⟨c, cs, hcs, -⟩ := j.print_head
  have hpos : 0 < j.print.toList.length := by
    rw [hcs]
    exact Nat.succ_pos _
  obtain ⟨fuel, rfl⟩ := Nat.exists_eq_succ_of_ne_zero (n := fuel) (by omega)
  exact h fuel rest hfuel hrest

/-- Items are read up to the closing bracket. -/
theorem readItems?_print {js : List Json} (hne : js ≠ []) (hjs : ∀ j ∈ js, ReadsBack j) (fuel : Nat)
    (rest : List Char) (hfuel : (printItems js).toList.length + 1 ≤ fuel) :
    readItems? fuel ((printItems js).toList ++ ']' :: rest) = some (js, rest) := by
  induction js generalizing fuel with
  | nil => exact absurd rfl hne
  | cons j js ih =>
      obtain ⟨fuel, rfl⟩ := Nat.exists_eq_succ_of_ne_zero (n := fuel) (by omega)
      have hj := hjs j List.mem_cons_self
      cases js with
      | nil =>
          rw [printItems] at hfuel
          have hread := hj.readValue?_print fuel (Nat.le_of_succ_le_succ hfuel)
            (endsNumber_cons (c := ']') (by decide) rest)
          rw [printItems, readItems?]
          simp (disch := decide) [hread, skip_cons]
      | cons k js =>
          have hlen : (printItems (j :: k :: js)).toList.length =
              j.print.toList.length + 1 + (printItems (k :: js)).toList.length := by
            rw [toList_printItems_cons, List.length_append, List.length_cons]
            omega
          have hread := hj.readValue?_print fuel (by omega)
            (endsNumber_cons (c := ',') (by decide) ((printItems (k :: js)).toList ++ ']' :: rest))
          have hmore := ih (by simp) (fun i hi => hjs i (List.mem_cons_of_mem _ hi)) fuel (by omega)
          rw [toList_printItems_cons, List.append_assoc, List.cons_append, readItems?]
          simp (disch := decide) [hread, skip_cons, hmore]

/-- Members are read up to the closing brace. -/
theorem readMembers?_print {ms : List (String × Json)} (hne : ms ≠ []) (hms : ∀ m ∈ ms, ReadsBack m.2)
    (fuel : Nat) (rest : List Char) (hfuel : (printMembers ms).toList.length + 1 ≤ fuel) :
    readMembers? fuel ((printMembers ms).toList ++ '\x7d' :: rest) =
      some (ms.map fun m => (some m.1, m.2), rest) := by
  induction ms generalizing fuel with
  | nil => exact absurd rfl hne
  | cons m ms ih =>
      obtain ⟨fuel, rfl⟩ := Nat.exists_eq_succ_of_ne_zero (n := fuel) (by omega)
      have hm := hms m List.mem_cons_self
      have hlen : (printMembers [m]).toList.length =
          (m.1.toList.flatMap escape).length + 3 + m.2.print.toList.length := by
        rw [toList_printMember]
        simp only [List.length_append, List.length_cons]
        omega
      cases ms with
      | nil =>
          have hread := hm.readValue?_print fuel (by omega) (endsNumber_cons (c := '\x7d') (by decide) rest)
          rw [toList_printMember, readMembers?]
          simp (disch := decide) [hread, skip_cons, readString?_escaped]
      | cons n ms =>
          have hlen' : (printMembers (m :: n :: ms)).toList.length =
              (printMembers [m]).toList.length + 1 + (printMembers (n :: ms)).toList.length := by
            rw [toList_printMembers_cons, List.length_append, List.length_cons]
            omega
          have hread := hm.readValue?_print fuel (by omega)
            (endsNumber_cons (c := ',') (by decide) ((printMembers (n :: ms)).toList ++ '\x7d' :: rest))
          have hmore := ih (by simp) (fun i hi => hms i (List.mem_cons_of_mem _ hi)) fuel (by omega)
          rw [toList_printMembers_cons, toList_printMember, readMembers?]
          simp (disch := decide) [hread, skip_cons, readString?_escaped, hmore]

theorem ofMembers_some (ms : List (String × Json)) : ofMembers (ms.map fun m => (some m.1, m.2)) = .obj ms := by
  have hread : (ms.map fun m => (some m.1, m.2)).mapM (fun m => m.1.map (·, m.2)) = some ms := by
    rw [List.mapM_map]
    exact (mapM_eq_some (g := id) fun _ _ => rfl).trans (congrArg some (List.map_id ms))
  rw [ofMembers, hread]

theorem readValue?_arr {c : Char} (hspace : isSpace c = false) (hclose : c ≠ ']') (fuel : Nat) (cs : List Char) :
    readValue? (fuel + 1) ('[' :: c :: cs) = (readItems? fuel (c :: cs)).map fun r => (.arr r.1, r.2) := by
  rw [readValue?, skip_cons (by decide)]
  simp only [skip_cons hspace]
  split
  · next h => exact absurd (List.cons.inj h).1 hclose
  · cases readItems? fuel (c :: cs) <;> rfl

theorem readValue?_obj (fuel : Nat) (cs : List Char) : readValue? (fuel + 1) ('\x7b' :: '"' :: cs) =
    (readMembers? fuel ('"' :: cs)).map fun r => (ofMembers r.1, r.2) := by
  rw [readValue?, skip_cons (by decide)]
  simp only [skip_cons (show isSpace '"' = false by decide)]
  split
  · next h => exact absurd (List.cons.inj h).1 (by decide)
  · cases readMembers? fuel ('"' :: cs) <;> rfl

theorem printItems_head (j : Json) (js : List Json) :
    ∃ c cs, (printItems (j :: js)).toList = c :: cs ∧ isSpace c = false ∧ c ≠ ']' := by
  obtain ⟨c, cs, hcs, hc⟩ := j.print_head
  cases js with
  | nil => exact ⟨c, cs, hcs, hc⟩
  | cons k js => exact ⟨c, _, by rw [toList_printItems_cons, hcs]; rfl, hc⟩

theorem printMembers_head (m : String × Json) (ms : List (String × Json)) :
    ∃ cs, (printMembers (m :: ms)).toList = '"' :: cs := by
  cases ms with
  | nil => exact ⟨_, toList_printMember m⟩
  | cons n ms => exact ⟨_, by rw [toList_printMembers_cons, toList_printMember]; rfl⟩

theorem Plain.readsBack {j : Json} (h : j.Plain) : ReadsBack j := by
  induction h with
  | null =>
      intro fuel rest hfuel hrest
      rfl
  | bool b =>
      intro fuel rest hfuel hrest
      cases b <;> rfl
  | @int n low high =>
      intro fuel rest hfuel hrest
      obtain ⟨c, cs, hcs, hc⟩ := Text.exists_ofInt_cons n
      have hread := readNumber?_ofInt low high hrest
      rw [hcs, List.cons_append] at hread
      rw [print, hcs, List.cons_append, readValue?_number hc, hread]
  | str s =>
      intro fuel rest hfuel hrest
      rw [toList_print_str, List.cons_append, List.append_assoc, List.singleton_append, readValue?,
        skip_cons (by decide)]
      simp only [readString?_escaped]
      rfl
  | @arr js items ih =>
      intro fuel rest hfuel hrest
      rw [toList_print_arr] at hfuel ⊢
      cases js with
      | nil => rfl
      | cons j js =>
          obtain ⟨c, cs, hcs, hspace, hclose⟩ := printItems_head j js
          have hread := readItems?_print (by simp) ih fuel rest (by simpa using hfuel)
          rw [List.cons_append, List.append_assoc, List.singleton_append]
          rw [hcs, List.cons_append] at hread ⊢
          rw [readValue?_arr hspace hclose, hread, Option.map_some]
  | @obj ms members ih =>
      intro fuel rest hfuel hrest
      rw [toList_print_obj] at hfuel ⊢
      cases ms with
      | nil => rfl
      | cons m ms =>
          obtain ⟨cs, hcs⟩ := printMembers_head m ms
          have hread := readMembers?_print (by simp) ih fuel rest (by simpa using hfuel)
          rw [List.cons_append, List.append_assoc, List.singleton_append]
          rw [hcs, List.cons_append] at hread ⊢
          rw [readValue?_obj, hread, Option.map_some, ofMembers_some]

/-- The text of a plain document is read as that document. -/
theorem parse?_print {j : Json} (h : j.Plain) : parse? j.print = some j := by
  have hread := h.readsBack j.print.toList.length [] (Nat.le_succ _) nofun
  rw [List.append_nil] at hread
  rw [parse?, hread]
  rfl

end Json

end Mercantile
