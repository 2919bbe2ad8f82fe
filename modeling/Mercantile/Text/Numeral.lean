/-!
Numbers written in decimal digits. Main statement: `readNat?_digits`, a written number reads back as
itself.
-/

namespace Mercantile.Text

def tenTo (n : Nat) : Nat := Nat.pow 10 n

/-- The character of a digit below ten. -/
def digitChar (d : Nat) : Char := Char.ofNat (48 + d)

def digitValue? (c : Char) : Option Nat :=
  if '0' ≤ c ∧ c ≤ '9' then some (c.toNat - 48) else none

def hexValue? (c : Char) : Option Nat :=
  if '0' ≤ c ∧ c ≤ '9' then some (c.toNat - 48)
  else if 'a' ≤ c ∧ c ≤ 'f' then some (c.toNat - 87)
  else if 'A' ≤ c ∧ c ≤ 'F' then some (c.toNat - 55)
  else none

/-- The number that one or more digits in a base of at most sixteen stand for. -/
def readInBase? (base : Nat) (cs : List Char) : Option Nat := do
  let ds ← cs.mapM hexValue?
  if ds.isEmpty || ds.any (base ≤ ·) then none else some (ds.foldl (fun n d => base * n + d) 0)

/-- The decimal digits of `n`, without leading zeros. -/
def digits (n : Nat) : List Char :=
  if n < 10 then [digitChar n] else digits (n / 10) ++ [digitChar (n % 10)]

/-- Reads more digits after those that made `acc`. -/
def readDigits? (acc : Nat) : List Char → Option Nat
  | [] => some acc
  | c :: cs => (digitValue? c).bind fun d => readDigits? (10 * acc + d) cs

/-- The number that one or more ASCII digits stand for; leading zeros are allowed. -/
def readNat? (cs : List Char) : Option Nat :=
  if cs = [] then none else readDigits? 0 cs

def ofNat (n : Nat) : String := String.ofList (digits n)

def ofInt (n : Int) : String :=
  if n < 0 then String.ofList ('-' :: digits n.natAbs) else ofNat n.natAbs

/-- The integer that ASCII digits after at most one sign stand for. -/
def readInt? : List Char → Option Int
  | '-' :: cs => (readNat? cs).map fun n => -(n : Int)
  | '+' :: cs => (readNat? cs).map fun n => (n : Int)
  | cs => (readNat? cs).map fun n => (n : Int)

theorem digitValue?_digitChar {d : Nat} (hd : d < 10) : digitValue? (digitChar d) = some d := by
  have : ∀ d < 10, digitValue? (digitChar d) = some d := by decide
  exact this d hd

theorem readDigits?_append (acc : Nat) (xs ys : List Char) :
    readDigits? acc (xs ++ ys) = (readDigits? acc xs).bind fun n => readDigits? n ys := by
  induction xs generalizing acc with
  | nil => rfl
  | cons c cs ih =>
    simp only [List.cons_append, readDigits?]
    cases digitValue? c with
    | none => rfl
    | some d => exact ih _

theorem digits_ne_nil (n : Nat) : digits n ≠ [] := by
  rw [digits]
  split <;> simp

theorem readDigits?_digits (n : Nat) : readDigits? 0 (digits n) = some n := by
  fun_induction digits n with
  | case1 n hn => simp [readDigits?, digitValue?_digitChar hn]
  | case2 n hn ih =>
    rw [readDigits?_append, ih]
    simp [readDigits?, digitValue?_digitChar (Nat.mod_lt n (by decide : 0 < 10))]
    omega

theorem readNat?_digits (n : Nat) : readNat? (digits n) = some n := by
  rw [readNat?, if_neg (digits_ne_nil n), readDigits?_digits]

end Mercantile.Text
