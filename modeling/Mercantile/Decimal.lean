import Mercantile.Text.Numeral

/-!
Decimal numbers with at most 28 fractional digits and a 96-bit mantissa. A decimal is its value, an
exact rational; `Decimal.fit?` says which decimal stands for a result that the format cannot hold
exactly, and products and quotients are the exact ones passed through it.
-/

namespace Mercantile

abbrev Decimal := Rat

namespace Decimal

/-- Where a value half way between two integers goes. -/
inductive Tie
  | even
  | away
deriving DecidableEq

/-- The integer nearest to `n / d`. -/
def roundQuotient (tie : Tie) (n : Int) (d : Nat) : Int :=
  let q := n / d
  let r := 2 * (n % d)
  if r < d then q
  else if d < r then q + 1
  else
    match tie with
    | .even => if q % 2 = 0 then q else q + 1
    | .away => if q < 0 then q else q + 1

/-- The number of mantissas of 96 bits. -/
def mantissaSize : Nat := 79228162514264337593543950336

/-- The nearest decimal with `places` fractional digits, if its mantissa has 96 bits or fewer. -/
def fitAt? (tie : Tie) (x : Rat) (places : Nat) : Option Decimal :=
  let m := roundQuotient tie (x.num * Text.tenTo places) x.den
  if m.natAbs < mantissaSize then some (mkRat m (Text.tenTo places)) else none

/-- The nearest decimal with as many fractional digits as fit, `places` at most. -/
def fitWithin? (tie : Tie) (x : Rat) : Nat → Option Decimal
  | 0 => fitAt? tie x 0
  | places + 1 => (fitAt? tie x (places + 1)).or (fitWithin? tie x places)

/-- The decimal that stands for `x`; there is none where even the nearest integer is too large. -/
def fit? (x : Rat) : Option Decimal := fitWithin? .even x 28

def mul? (a b : Decimal) : Option Decimal := fit? (a * b)

def div? (a b : Decimal) : Option Decimal := if b = 0 then none else fit? (a / b)

/-- The fewest fractional digits that write the value exactly. -/
def places (x : Decimal) : Nat := ((List.range 28).find? fun s => Text.tenTo s % x.den = 0).getD 28

/-- The shortest exact text, without trailing zeros. -/
def toText (x : Decimal) : String :=
  let s := x.places
  let ds := Text.digits (x.num.natAbs * Text.tenTo s / x.den)
  let ds := List.replicate (s + 1 - ds.length) '0' ++ ds
  let whole := ds.take (ds.length - s)
  let text := if s = 0 then whole else whole ++ '.' :: ds.drop (ds.length - s)
  String.ofList (if x < 0 then '-' :: text else text)

/-- A numeral as it is written: its digits as one number, and how many follow the point. -/
structure Numeral where
  mantissa : Nat
  scale : Nat
  anyDigit : Bool

/-- Digits with at most one point; an underscore may stand after a digit. -/
def readNumeral? (seen : Numeral) (point : Bool) : List Char → Option Numeral
  | [] => if seen.anyDigit then some seen else none
  | c :: cs =>
    match Text.digitValue? c with
    | some d =>
      let scale := if point then seen.scale + 1 else seen.scale
      readNumeral? ⟨10 * seen.mantissa + d, scale, true⟩ point cs
    | none =>
      if c = '.' ∧ !point then readNumeral? seen true cs
      else if c = '_' ∧ seen.anyDigit then readNumeral? seen point cs
      else none

/-- A numeral after at most one sign, with the scale it is written at. -/
def readSigned? (cs : List Char) : Option (Rat × Nat) := do
  let (negative, cs) := match cs with
    | '-' :: cs => (true, cs)
    | '+' :: cs => (false, cs)
    | cs => (false, cs)
  let n ← readNumeral? ⟨0, 0, false⟩ false cs
  let m : Int := if negative then -n.mantissa else n.mantissa
  return (mkRat m (Text.tenTo n.scale), n.scale)

/-- Positional notation; digits that the format cannot hold are rounded away, a half going up. -/
def readPositional? (cs : List Char) : Option Decimal := do
  let (x, _) ← readSigned? cs
  fitWithin? .away x 28

/-- The exponent after `e`: digits after at most one plus sign. -/
def readExponent? : List Char → Option Nat
  | '+' :: cs => Text.readNat? cs
  | cs => Text.readNat? cs

/-- Scientific notation; a negative exponent may not push digits past the 28th place. -/
def readScientific? (cs : List Char) : Option Decimal := do
  let isMark (c : Char) : Bool := c = 'e' || c = 'E'
  let base := cs.takeWhile (!isMark ·)
  let x ← readPositional? base
  let (_, scale) ← readSigned? base
  match cs.dropWhile (!isMark ·) with
  | _ :: '-' :: ds =>
    let e ← readExponent? ds
    if min scale 28 + e ≤ 28 then some (x / Text.tenTo e) else none
  | _ :: ds =>
    let e ← readExponent? ds
    if e ≤ 28 then fit? (x * Text.tenTo e) else none
  | [] => none

def parse? (s : String) : Option Decimal :=
  (readPositional? s.toList).or (readScientific? s.toList)

end Decimal

end Mercantile
