import Mercantile.Decimal

/-!
Numbers that went through a 64-bit binary float. Such a number counts as the shortest decimal that the
float is nearest to, and among those of one length as the one closest to the float.
-/

namespace Mercantile.Decimal

/-- An integer power of a base. -/
def power (base : Nat) (e : Int) : Rat :=
  if 0 ≤ e then (Nat.pow base e.toNat : Rat) else mkRat 1 (Nat.pow base e.natAbs)

/-- The greatest `e` with `2 ^ e ≤ x`, for a positive `x`. -/
def binaryOrder (x : Rat) : Int :=
  let e : Int := (x.num.natAbs.log2 : Int) - x.den.log2
  if x < power 2 e then e - 1 else e

/-- The greatest `e` with `10 ^ e ≤ x`, for a positive `x` that a float can hold. -/
def decimalOrder (x : Rat) : Int :=
  if 1 ≤ x then (Text.digits x.floor.toNat).length - 1
  else
    let shift := ((List.range 400).find? fun e => decide (1 ≤ x * Text.tenTo e)).getD 400
    0 - shift

/-- A positive float, `significand * 2 ^ exponent`. -/
structure Float64 where
  significand : Nat
  exponent : Int

namespace Float64

/-- The least significand of 53 bits. -/
def fullWidth : Nat := 4503599627370496

/-- The float nearest to a positive number, a tie going to the even significand; there is none for a
number too large. -/
def nearest? (x : Rat) : Option Float64 :=
  let q := max (binaryOrder x - 52) (-1074)
  let y := x * power 2 (-q)
  let m := (roundQuotient .even y.num y.den).toNat
  let f : Float64 := if m = 2 * fullWidth then ⟨fullWidth, q + 1⟩ else ⟨m, q⟩
  if f.exponent ≤ 971 then some f else none

def value (f : Float64) : Rat := f.significand * power 2 f.exponent

/-- The number reads as this float: it is closer to it than to a neighbour, or as close and the
significand is even. Below a power of two the neighbour is half as far. -/
def reads (f : Float64) (x : Rat) : Bool :=
  let isLeast := f.significand = fullWidth ∧ -1074 < f.exponent
  let low := f.value - power 2 (if isLeast then f.exponent - 2 else f.exponent - 1)
  let high := f.value + power 2 (f.exponent - 1)
  if f.significand % 2 = 0 then low ≤ x && x ≤ high else low < x && x < high

/-- The closest number with `length` digits that reads as this float. -/
def withDigits? (f : Float64) (length : Nat) : Option Rat :=
  let unit := power 10 (decimalOrder f.value + 1 - length)
  let n := (f.value / unit).floor
  let down := n * unit
  let up := (n + 1 : Int) * unit
  let first := f.value - down < up - f.value
  let tied := f.value - down = up - f.value
  let preferDown := first || tied && n % 2 = 0
  let candidates := if preferDown then [down, up] else [up, down]
  candidates.find? f.reads

/-- The shortest decimal that reads as this float; 17 digits are always enough. -/
def shortest (f : Float64) : Rat :=
  ((List.range 17).findSome? fun k => f.withDigits? (k + 1)).getD f.value

end Float64

/-- The decimal for a number that is held as a float in between. -/
def ofFloat? (x : Rat) : Option Decimal :=
  if x = 0 then some 0
  else do
    let size := if x < 0 then -x else x
    let f ← Float64.nearest? size
    if f.significand = 0 then return 0
    let s := f.shortest
    fitWithin? .away (if x < 0 then -s else s) 28

/-- The decimal for `mantissa * 10 ^ exponent` as a float. Far outside of the range of floats the number
is not worked out. -/
def ofFloatNumeral? (mantissa exponent : Int) : Option Decimal :=
  let order := (Text.digits mantissa.natAbs).length + exponent
  if mantissa = 0 ∨ order < -400 then some 0
  else if 400 < order then none
  else ofFloat? (mantissa * power 10 exponent)

end Mercantile.Decimal
