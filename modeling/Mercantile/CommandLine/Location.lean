import Mercantile.Text.Numeral

/-!
Where a database is kept, by its address: a path, which may stand behind a scheme, with parameters after a
question mark. Only the folder of an address with a scheme is made where it is missing.
-/

namespace Mercantile.CommandLine

inductive Location
  | file (path : String)
  /-- In memory; it is gone when the program ends. -/
  | transient
deriving DecidableEq

namespace Location

/-- The database of a program that is told nothing else. -/
def defaultAddress : String := "sqlite://./saves/world.db"

/-- The text without a start, if it has it. -/
def dropStart? (start : List Char) (cs : List Char) : Option (List Char) :=
  if start.isPrefixOf cs then some (cs.drop start.length) else none

/-- The text without a start, however often it stands there. -/
def dropStarts (start : List Char) : Nat → List Char → List Char
  | 0, cs => cs
  | fuel + 1, cs =>
    match dropStart? start cs with
    | some rest => dropStarts start fuel rest
    | none => cs

def longScheme : List Char := "sqlite://".toList

def shortScheme : List Char := "sqlite:".toList

/-- The path with its numbered bytes in their place. -/
def decodeBytes : List UInt8 → List UInt8
  | 0x25 :: a :: b :: bs =>
    match Text.readInBase? 16 [Char.ofNat a.toNat, Char.ofNat b.toNat] with
    | some n => UInt8.ofNat n :: decodeBytes bs
    | none => 0x25 :: decodeBytes (a :: b :: bs)
  | b :: bs => b :: decodeBytes bs
  | [] => []

/-- The values that a parameter may have, any if none are listed. -/
def parameterValues : List (String × List String) :=
  [("mode", ["ro", "rw", "rwc", "memory"]), ("cache", ["private", "shared"]),
    ("immutable", ["true", "1", "false", "0"]), ("vfs", [])]

/-- A parameter that is known and has a value that it may have. -/
def isParameter (s : String) : Bool :=
  let cs := s.toList
  let name := String.ofList (cs.takeWhile (· ≠ '='))
  let value := String.ofList ((cs.dropWhile (· ≠ '=')).drop 1)
  parameterValues.any fun p => p.1 = name && (p.2.isEmpty || p.2.contains value)

def ofAddress? (address : String) : Option Location := do
  let cs := address.toList
  let cs := dropStarts shortScheme cs.length (dropStarts longScheme cs.length cs)
  let path := String.ofList (cs.takeWhile (· ≠ '?'))
  let parameters := (String.ofList ((cs.dropWhile (· ≠ '?')).drop 1)).splitOn "&" |>.filter (· ≠ "")
  if !parameters.all isParameter then none
  if path = "" ∨ path = ":memory:" ∨ parameters.contains "mode=memory" then return .transient
  let bytes := decodeBytes path.toUTF8.toList
  return .file (← String.fromUTF8? ⟨bytes.toArray⟩)

/-- The steps of a path. A point leads nowhere, unless it is the first step. -/
def steps (path : String) : List String :=
  let all := path.splitOn "/"
  all.take 1 |>.filter (· ≠ "") |>.append ((all.drop 1).filter fun s => s ≠ "" && s ≠ ".")

def parent? (path : String) : Option String :=
  let steps := steps path
  let folder := "/".intercalate steps.dropLast
  let folder := if path.startsWith "/" then "/" ++ folder else folder
  if steps.isEmpty || folder = "" then none else some folder

/-- The folder that has to be made for an address. -/
def folder? (address : String) : Option String := do
  let cs := address.toList
  let path ← (dropStart? longScheme cs).or (dropStart? shortScheme cs)
  parent? (String.ofList path)

end Location

end Mercantile.CommandLine
