import Mercantile.Decimal.Shortest

/-!
What the text of a plain scalar can be besides a text: nothing, a truth value, or a number. Digits with a
zero in front are no number.
-/

namespace Mercantile.Yaml.Plain

def isNull (s : String) : Bool := ["null", "Null", "NULL", "~"].contains s

def isBool (s : String) : Bool := ["true", "True", "TRUE", "false", "False", "FALSE"].contains s

/-- The text without one sign in front, if it is among `signs`. -/
def dropSign (signs : List Char) : List Char → List Char
  | [] => []
  | c :: cs => if signs.contains c then cs else c :: cs

/-- Two digits or more, the first of them a zero, after at most one sign. -/
def isZeroPadded (cs : List Char) : Bool :=
  match dropSign ['+', '-'] cs with
  | '0' :: d :: ds => (d :: ds).all (Text.digitValue? · |>.isSome)
  | _ => false

/-- A number without a sign, in base 16, 8 or 2 where it says so. -/
def unsigned? : List Char → Option Nat
  | '0' :: 'x' :: ds => Text.readInBase? 16 ds
  | '0' :: 'o' :: ds => Text.readInBase? 8 ds
  | '0' :: 'b' :: ds => Text.readInBase? 2 ds
  | ds => if isZeroPadded ds then none else Text.readInBase? 10 ds

/-- A number that may have a plus in front. -/
def natural? (s : String) : Option Nat := unsigned? (dropSign ['+'] s.toList)

/-- A number that may have either sign. -/
def integer? (s : String) : Option Int :=
  match s.toList with
  | '-' :: cs => (unsigned? cs).map fun n => -(n : Int)
  | _ => (natural? s).map fun n => (n : Int)

/-- The digits of a number with at most one point among them, and how many stand behind it. -/
def readDigits? (cs : List Char) : Option (Nat × Nat) := do
  let whole := cs.takeWhile (· ≠ '.')
  let fraction := (cs.dropWhile (· ≠ '.')).drop 1
  return (← Text.readNat? (whole ++ fraction), fraction.length)

/-- The exponent behind its mark; no mark means none. -/
def readExponent? : List Char → Option Int
  | [] => some 0
  | _ :: cs => Text.readInt? cs

/-- A number with a point or an exponent, as `m * 10 ^ e`. -/
def float? (s : String) : Option (Int × Int) := do
  let unplussed := dropSign ['+'] s.toList
  let cs := dropSign ['-'] unplussed
  if s.toList.head? = some '+' ∧ unplussed.head? = some '-' then none
  let isMark (c : Char) : Bool := c = 'e' || c = 'E'
  let (m, places) ← readDigits? (cs.takeWhile (!isMark ·))
  let e ← readExponent? (cs.dropWhile (!isMark ·))
  return (if cs.length < unplussed.length then -(m : Int) else m, e - places)

end Mercantile.Yaml.Plain
