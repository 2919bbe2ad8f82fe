import Mercantile.CommandLine.Program

/-!
A working directory in memory, and the programs on it.
-/

namespace Mercantile.CommandLine

/-- The steps from the working directory, or from the root if the first is a slash. -/
abbrev Path := List String

def Path.ofText (s : String) : Path :=
  (s.splitOn "/").foldl (fun p step =>
    if step = "" ∨ step = "." then p
    else if step = ".." ∧ p ≠ [] ∧ p.getLast? ≠ some ".." then p.dropLast
    else p ++ [step]) (if s.startsWith "/" then ["/"] else [])

structure Directory where
  texts : List (Path × String)
  folders : List Path
  databases : List (Path × Database)

namespace Directory

def ofTexts (texts : List (String × String)) : Directory :=
  ⟨texts.map fun t => (Path.ofText t.1, t.2), [], []⟩

/-- The working directory, a folder above it, the root, or a folder that was made. -/
def isFolder (d : Directory) (p : Path) : Bool :=
  p.all (· = "..") || p = ["/"] || d.folders.contains p

def isFile (d : Directory) (p : Path) : Bool :=
  d.texts.any (·.1 = p) || d.databases.any (·.1 = p)

/-- The folders on the way to a path, and the path itself. -/
def wayTo (p : Path) : List Path := (List.range p.length).map fun n => p.take (n + 1)

def makeFolder (p : Path) (d : Directory) : Except FolderError Unit × Directory :=
  if (wayTo p.dropLast).any d.isFile then (.error .noWay, d)
  else if d.isFile p then (.error .nameTaken, d)
  else (.ok (), { d with folders := wayTo p ++ d.folders })

/-- Only an empty text can become a database. -/
def openDatabase? (path : String) (d : Directory) : Option Database :=
  let p := Path.ofText path
  if path.endsWith "/" || d.isFolder p || !d.isFolder p.dropLast then none
  else if (List.lookup p d.texts).any (· ≠ "") then none
  else some ((List.lookup p d.databases).getD .empty)

def saveDatabase (p : Path) (db : Database) (d : Directory) : Directory :=
  { d with databases := (p, db) :: d.databases.filter (·.1 ≠ p) }

end Directory

/-- The programs on a directory, at a fixed time of day. -/
abbrev InDirectory := ReaderT Timestamp (StateM Directory)

instance : Host InDirectory where
  readText? path := return List.lookup (Path.ofText path) (← get).texts
  makeFolder folder := modifyGet (Directory.makeFolder (Path.ofText folder))
  openDatabase? path := do
    match (← get).openDatabase? path with
    | some db =>
      modify (Directory.saveDatabase (Path.ofText path) db)
      return some db
    | none => return none
  saveDatabase path db := modify (Directory.saveDatabase (Path.ofText path) db)
  now := read

end Mercantile.CommandLine
