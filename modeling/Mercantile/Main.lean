import Mercantile.CommandLine.Program
import Mercantile.Json.Parser
import Std.Time.DateTime.Timestamp

/-!
The program on the real files. A database file holds the document of its tables, or nothing as long as no
program has written to it.
-/

namespace Mercantile.CommandLine

def databaseOfText? (text : String) : Option Database :=
  if text = "" then some .empty else (Json.parse? text).bind decode?

instance : Host IO where
  readText? path := do
    match ← (IO.FS.readFile path).toBaseIO with
    | .ok text => return some text
    | .error _ => return none
  makeFolder folder := do
    match ← (IO.FS.createDirAll folder).toBaseIO with
    | .ok _ => return .ok ()
    | .error (.alreadyExists ..) => return .error .nameTaken
    | .error _ => return .error .noWay
  openDatabase? path := do
    match ← (IO.FS.readFile path).toBaseIO with
    | .ok text => return databaseOfText? text
    | .error _ =>
      match ← (IO.FS.Handle.mk path .writeNew).toBaseIO with
      | .ok _ => return some .empty
      | .error _ => return none
  saveDatabase path db := IO.FS.writeFile path ((encode db).print ++ "\n")
  now := do
    let t ← Std.Time.Timestamp.now
    return ⟨t.val.second.val, t.val.nano.val.toNat⟩

end Mercantile.CommandLine

def main (args : List String) : IO UInt32 := do
  let reply ← Mercantile.CommandLine.runProgram (m := IO) args
  IO.print reply.output
  IO.eprint reply.complaint
  return reply.exit
