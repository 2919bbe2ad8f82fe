import Mercantile.Text.Blank
import Mercantile.Text.Numeral

/-!
Instants in universal time, and their date-and-time texts. An instant is written with a `T`, the
fewest of 0, 3, 6 or 9 fraction digits that are exact, and a `Z`; it is read with any offset, with
blanks between the parts of the date and of the time, and with a blank or a small letter for `T`.
-/

namespace Mercantile

/-- An instant: whole seconds since the start of 1970, and nanoseconds, which reach into a second
second during a leap second. -/
structure Timestamp where
  second : Int
  nano : Nat
deriving DecidableEq

namespace Timestamp

/-- Days from the start of 1970 to a date of the proleptic Gregorian calendar. The year is taken to
start in March, so that the leap day is its last. -/
def daysOfDate (year : Int) (month day : Nat) : Int :=
  let y := if month ≤ 2 then year - 1 else year
  let era := y / 400
  let yearOfEra := y % 400
  let dayOfYear : Int := (153 * ((month + 9) % 12) + 2) / 5 + day - 1
  era * 146097 + (yearOfEra * 365 + yearOfEra / 4 - yearOfEra / 100 + dayOfYear) - 719468

def dateOfDays (days : Int) : Int × Nat × Nat :=
  let z := days + 719468
  let era := z / 146097
  let dayOfEra := (z % 146097).toNat
  let yearOfEra := (dayOfEra - dayOfEra / 1460 + dayOfEra / 36524 - dayOfEra / 146096) / 365
  let dayOfYear := dayOfEra - (365 * yearOfEra + yearOfEra / 4 - yearOfEra / 100)
  let shifted := (5 * dayOfYear + 2) / 153
  let day := dayOfYear - (153 * shifted + 2) / 5 + 1
  let month := if shifted < 10 then shifted + 3 else shifted - 9
  let year := era * 400 + yearOfEra + if month ≤ 2 then 1 else 0
  (year, month, day)

def monthLength (year : Int) (month : Nat) : Nat :=
  if month = 2 then
    if year % 4 = 0 ∧ (year % 100 ≠ 0 ∨ year % 400 = 0) then 29 else 28
  else if month = 4 ∨ month = 6 ∨ month = 9 ∨ month = 11 then 30
  else 31

/-- `n` with zeros in front, to at least `width` digits. -/
def padded (width n : Nat) : List Char :=
  let ds := Text.digits n
  List.replicate (width - ds.length) '0' ++ ds

/-- Four digits, and a sign outside of the years that four digits can write. -/
def yearText (year : Int) : List Char :=
  if year < 0 then '-' :: padded 4 year.natAbs
  else if 9999 < year then '+' :: padded 4 year.natAbs
  else padded 4 year.natAbs

/-- The fraction of a second, with the fewest of 0, 3, 6 or 9 digits that are exact. -/
def fractionText (nano : Nat) : List Char :=
  if nano = 0 then []
  else if nano % 1000000 = 0 then '.' :: padded 3 (nano / 1000000)
  else if nano % 1000 = 0 then '.' :: padded 6 (nano / 1000)
  else '.' :: padded 9 nano

def toText (t : Timestamp) : String :=
  let (year, month, day) := dateOfDays (t.second / 86400)
  let rest := (t.second % 86400).toNat
  let second := rest % 60 + t.nano / 1000000000
  String.ofList <| yearText year ++ '-' :: padded 2 month ++ '-' :: padded 2 day
    ++ 'T' :: padded 2 (rest / 3600) ++ ':' :: padded 2 (rest / 60 % 60) ++ ':' :: padded 2 second
    ++ fractionText (t.nano % 1000000000) ++ ['Z']

/-- A number of one to `width` digits, and what follows it. -/
def number? (width : Nat) (cs : List Char) : Option (Nat × List Char) := do
  let ds := (cs.take width).takeWhile (Text.digitValue? · |>.isSome)
  let n ← Text.readNat? ds
  return (n, cs.drop ds.length)

def field? (width : Nat) (cs : List Char) : Option (Nat × List Char) :=
  number? width (Text.trimStart cs)

def separator? (c : Char) (cs : List Char) : Option (List Char) :=
  match Text.trimStart cs with
  | d :: ds => if c = d then some ds else none
  | [] => none

/-- A year: at most four digits, or any number of them after a sign. -/
def year? (cs : List Char) : Option (Int × List Char) :=
  match Text.trimStart cs with
  | '-' :: ds => (number? ds.length ds).map fun (n, r) => (-(n : Int), r)
  | '+' :: ds => (number? ds.length ds).map fun (n, r) => ((n : Int), r)
  | ds => (number? 4 ds).map fun (n, r) => ((n : Int), r)

/-- The nanoseconds of an optional fraction; digits after the ninth are dropped. -/
def fraction? : List Char → Option (Nat × List Char)
  | '.' :: cs => do
    let (n, rest) ← number? 9 cs
    let width := cs.length - rest.length
    return (n * Text.tenTo (9 - width), rest.dropWhile (Text.digitValue? · |>.isSome))
  | cs => some (0, cs)

/-- Hours and minutes of two digits each, as seconds. -/
def offsetSize? (cs : List Char) : Option (Nat × List Char) := do
  let two? (cs : List Char) : Option (Nat × List Char) := do
    let n ← Text.readNat? (cs.take 2)
    if (cs.take 2).length = 2 then some (n, cs.drop 2) else none
  let (hours, cs) ← two? cs
  let (minutes, cs) ← two? (cs.dropWhile fun c => c = ':' || Text.isBlank c)
  if minutes < 60 then some (hours * 3600 + minutes * 60, cs) else none

/-- How far local time is ahead of universal time, in seconds. -/
def offset? : List Char → Option (Int × List Char)
  | 'Z' :: cs | 'z' :: cs => some (0, cs)
  | '+' :: cs => (offsetSize? cs).map fun (n, r) => ((n : Int), r)
  | '-' :: cs | '\u2212' :: cs => (offsetSize? cs).map fun (n, r) => (-(n : Int), r)
  | cs =>
    if (cs.take 3).map Char.toUpper = ['U', 'T', 'C'] then some (0, cs.drop 3) else none

/-- What stands between a date and a time of day. -/
def divider? : List Char → Option (List Char)
  | 'T' :: cs | 't' :: cs | ' ' :: cs => some cs
  | _ => none

/-- The instant of a date and a time of day, `ahead` seconds ahead of universal time. Neither local nor
universal time leaves the calendar. -/
def instant? (year : Int) (month day hour minute second nano : Nat) (ahead : Int) :
    Option Timestamp :=
  let wall := daysOfDate year month day * 86400 + hour * 3600 + minute * 60 + min second 59
  let universal := (dateOfDays ((wall - ahead) / 86400)).1
  if (-262143 ≤ year ∧ year ≤ 262142) ∧
      (1 ≤ month ∧ month ≤ 12 ∧ 1 ≤ day ∧ day ≤ monthLength year month) ∧
      (hour < 24 ∧ minute < 60 ∧ second ≤ 60 ∧ ahead.natAbs < 86400) ∧
      (-262143 ≤ universal ∧ universal ≤ 262142) then
    some ⟨wall - ahead, if second = 60 then nano + 1000000000 else nano⟩
  else none

def parse? (s : String) : Option Timestamp := do
  let (year, cs) ← year? s.toList
  let cs ← separator? '-' cs
  let (month, cs) ← field? 2 cs
  let cs ← separator? '-' cs
  let (day, cs) ← field? 2 cs
  let cs ← divider? cs
  let (hour, cs) ← field? 2 cs
  let cs ← separator? ':' cs
  let (minute, cs) ← field? 2 cs
  let cs ← separator? ':' cs
  let (second, cs) ← field? 2 cs
  let (nano, cs) ← fraction? cs
  let (ahead, cs) ← offset? (Text.trimStart cs)
  if Text.trimStart cs ≠ [] then none
  instant? year month day hour minute second nano ahead

end Timestamp

end Mercantile
