import Mercantile.Json.Basic
import Mercantile.Text.Numeral

/-!
Text to documents. One value with blanks around it, and nothing after.
A reader takes the characters from the front and returns what it leaves.
-/

namespace Mercantile.Json

/-- The four blanks that may stand between tokens. -/
def isSpace (c : Char) : Bool := c = ' ' || c = '\n' || c = '\t' || c = '\r'

def skip (cs : List Char) : List Char := cs.dropWhile isSpace

/-- What the letter after a backslash stands for, the hexadecimal escape apart. -/
def unescape? : Char → Option Nat
  | '"' => some 0x22
  | '\\' => some 0x5c
  | '/' => some 0x2f
  | 'b' => some 0x08
  | 'f' => some 0x0c
  | 'n' => some 0x0a
  | 'r' => some 0x0d
  | 't' => some 0x09
  | _ => none

/-- The code points up to the closing quote; an escape may be half of a surrogate pair. -/
def readCodePoints? : List Char → Option (List Nat × List Char)
  | '"' :: cs => some ([], cs)
  | '\\' :: 'u' :: a :: b :: c :: d :: cs => do
    let unit ← Text.readInBase? 16 [a, b, c, d]
    let (us, cs) ← readCodePoints? cs
    return (unit :: us, cs)
  | '\\' :: c :: cs => do
    let u ← unescape? c
    let (us, cs) ← readCodePoints? cs
    return (u :: us, cs)
  | c :: cs => do
    if c.toNat < 32 then none
    let (us, cs) ← readCodePoints? cs
    return (c.toNat :: us, cs)
  | [] => none

def isHighSurrogate (u : Nat) : Bool := 0xd800 ≤ u && u < 0xdc00

def isLowSurrogate (u : Nat) : Bool := 0xdc00 ≤ u && u < 0xe000

/-- Joins surrogate pairs; a surrogate without its partner is no character. -/
def joinSurrogates? : List Nat → Option (List Char)
  | [] => some []
  | [u] => if isHighSurrogate u || isLowSurrogate u then none else some [Char.ofNat u]
  | u :: v :: us =>
    if isHighSurrogate u then
      if isLowSurrogate v then
        (joinSurrogates? us).map (Char.ofNat (0x10000 + (u - 0xd800) * 0x400 + (v - 0xdc00)) :: ·)
      else none
    else if isLowSurrogate u then none
    else (joinSurrogates? (v :: us)).map (Char.ofNat u :: ·)

/-- A string after its opening quote, with its text if it has one. -/
def readString? (cs : List Char) : Option (Option String × List Char) := do
  let (us, cs) ← readCodePoints? cs
  return ((joinSurrogates? us).map String.ofList, cs)

def splitDigits (cs : List Char) : List Char × List Char :=
  (cs.takeWhile (Text.digitValue? · |>.isSome), cs.dropWhile (Text.digitValue? · |>.isSome))

/-- The whole part: a zero alone, or digits that start with another one. -/
def readWhole? (cs : List Char) : Option (List Char × List Char) :=
  match splitDigits cs with
  | ([], _) => none
  | ('0' :: _ :: _, _) => none
  | r => some r

/-- An optional fraction: a point and one or more digits. -/
def readFraction? : List Char → Option (List Char × List Char)
  | '.' :: cs =>
    match splitDigits cs with
    | ([], _) => none
    | r => some r
  | cs => some ([], cs)

/-- An optional exponent: a mark, an optional sign and one or more digits. -/
def readExponent? (cs : List Char) : Option (Option Int × List Char) :=
  let signed (negative : Bool) (cs : List Char) : Option (Option Int × List Char) := do
    let (ds, cs) := splitDigits cs
    let n ← Text.readNat? ds
    return (some (if negative then -(n : Int) else n), cs)
  match cs with
  | 'e' :: '-' :: cs | 'E' :: '-' :: cs => signed true cs
  | 'e' :: '+' :: cs | 'E' :: '+' :: cs => signed false cs
  | 'e' :: cs | 'E' :: cs => signed false cs
  | cs => some (none, cs)

/-- A number. A zero with a sign is not an integer. -/
def readNumber? (cs : List Char) : Option (Json × List Char) := do
  let (negative, cs) := match cs with
    | '-' :: cs => (true, cs)
    | cs => (false, cs)
  let (whole, cs) ← readWhole? cs
  let (fraction, cs) ← readFraction? cs
  let (exponent, cs) ← readExponent? cs
  let n ← Text.readNat? (whole ++ fraction)
  let m : Int := if negative then -(n : Int) else n
  let isWord := Int64.minValue.toInt ≤ m && m < UInt64.size && !(negative && m == 0)
  if fraction.isEmpty && exponent.isNone && isWord then return (.int m, cs)
  return (.real m (exponent.getD 0 - fraction.length), cs)

/-- An object whose names all have a text; any other is illegible. -/
def ofMembers (ms : List (Option String × Json)) : Json :=
  match ms.mapM fun m => m.1.map (·, m.2) with
  | some ms => .obj ms
  | none => .illegible

mutual

/-- One value after blanks; `fuel` bounds its size. -/
def readValue? : Nat → List Char → Option (Json × List Char)
  | 0, _ => none
  | fuel + 1, cs =>
    match skip cs with
    | 'n' :: 'u' :: 'l' :: 'l' :: cs => some (.null, cs)
    | 't' :: 'r' :: 'u' :: 'e' :: cs => some (.bool true, cs)
    | 'f' :: 'a' :: 'l' :: 's' :: 'e' :: cs => some (.bool false, cs)
    | '"' :: cs => do
      let (s, cs) ← readString? cs
      return (s.elim .illegible .str, cs)
    | '[' :: cs =>
      match skip cs with
      | ']' :: cs => some (.arr [], cs)
      | cs => do
        let (js, cs) ← readItems? fuel cs
        return (.arr js, cs)
    | '\x7b' :: cs =>
      match skip cs with
      | '\x7d' :: cs => some (.obj [], cs)
      | cs => do
        let (ms, cs) ← readMembers? fuel cs
        return (ofMembers ms, cs)
    | cs => readNumber? cs

/-- One or more items up to the closing bracket. -/
def readItems? : Nat → List Char → Option (List Json × List Char)
  | 0, _ => none
  | fuel + 1, cs => do
    let (j, cs) ← readValue? fuel cs
    match skip cs with
    | ',' :: cs => do
      let (js, cs) ← readItems? fuel cs
      return (j :: js, cs)
    | ']' :: cs => return ([j], cs)
    | _ => none

/-- One or more members up to the closing brace. -/
def readMembers? : Nat → List Char → Option (List (Option String × Json) × List Char)
  | 0, _ => none
  | fuel + 1, cs =>
    match skip cs with
    | '"' :: cs => do
      let (k, cs) ← readString? cs
      match skip cs with
      | ':' :: cs => do
        let (j, cs) ← readValue? fuel cs
        match skip cs with
        | ',' :: cs => do
          let (ms, cs) ← readMembers? fuel cs
          return ((k, j) :: ms, cs)
        | '\x7d' :: cs => return ([(k, j)], cs)
        | _ => none
      | _ => none
    | _ => none

end

def parse? (s : String) : Option Json := do
  let cs := s.toList
  let (j, cs) ← readValue? (cs.length + 1) cs
  if skip cs = [] then some j else none

end Mercantile.Json
