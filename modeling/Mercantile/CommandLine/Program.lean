import Mercantile.CommandLine.Arguments
import Mercantile.CommandLine.Location
import Mercantile.Config.Yaml
import Mercantile.Json.Printer
import Mercantile.Report
import Mercantile.Scenario
import Mercantile.Store.Database

/-!
The programs, over whatever they run on. A host answers for files and the time of day; all decisions are
made here, so that a host in memory and the real one behave alike.
-/

namespace Mercantile.CommandLine

inductive FolderError
  /-- Something that is no folder has its name. -/
  | nameTaken
  /-- Something on the way to it is no folder. -/
  | noWay
deriving DecidableEq

def FolderError.message : FolderError → String
  | .nameTaken => "File exists (os error 17)"
  | .noWay => "Not a directory (os error 20)"

/-- What a program needs from where it runs. -/
class Host (m : Type → Type) where
  /-- The text of a file, if it can be read. -/
  readText? : String → m (Option String)
  /-- Makes a folder and those on the way to it, where they are missing. -/
  makeFolder : String → m (Except FolderError Unit)
  /-- The database in a file, which is created where it is missing. -/
  openDatabase? : String → m (Option Database)
  saveDatabase : String → Database → m Unit
  now : m Timestamp

/-- What a program leaves behind. -/
structure Reply where
  exit : UInt32
  output : String
  complaint : String
deriving DecidableEq

inductive RunError
  | loading (path : String)
  | creating (path : String) (cause : FolderError)
  | folder (cause : FolderError)
  | store (cause : StoreError)
  | failure (cause : Failure)
deriving DecidableEq

def RunError.message : RunError → String
  | .loading path => "loading " ++ path
  | .creating path _ => "creating " ++ path
  | .folder cause => cause.message
  | .store cause => cause.message
  | .failure cause => cause.message

namespace Reply

def done (output : String) : Reply := ⟨0, output, ""⟩

def usage (e : UsageError) : Reply := ⟨2, "", "error: " ++ e.message ++ "\n"⟩

/-- A run that failed. Arithmetic without a result ends it on the spot. -/
def failed : RunError → Reply
  | .failure .undefined => ⟨101, "", Failure.undefined.message ++ "\n"⟩
  | e => ⟨1, "", "Error: " ++ e.message ++ "\n"⟩

end Reply

def versionText : String := "cli 0.1.0\n"

/-- Carries out a command on an open database: the document that it prints, if any, and the database that
it leaves. -/
def Command.run (now : Timestamp) (cfg : EngineConfig) (db : Database) :
    Command → Except RunError (Option Json × Database)
  | .init seed => do
    let w ← lift (demoWorld seed {})
    match db.init w with
    | .ok db => return (some (report w.tickState), db)
    | .error e => throw (.store e)
  | .advance ticks => simulate (return some (report (← Simulation.advance ticks now)))
  | .health limit => simulate (return some (report (← Action.observe (·.health (some limit)))))
  | .state => simulate (return some (report (← Action.observe (·.tickState))))
  | .order request =>
    simulate (return some (.obj [("orderId", encode (← Simulation.placeOrder request))]))
  | .cancelOrder id => simulate do
    Simulation.cancelOrder id
    return none
  | .version => .ok (none, db)
where
  lift {α : Type} : Except Failure α → Except RunError α
    | .ok a => .ok a
    | .error e => .error (.failure e)
  simulate (x : Action (Simulation Database) (Option Json)) :
      Except RunError (Option Json × Database) := lift do
    let (j, s) ← x.outcome (← Simulation.new db cfg)
    return (j, s.store)

variable {m : Type → Type} [Monad m] [Host m]

/-- Opens the database of an address; nothing is saved to one in memory. -/
def openAddress (address : String) : m (Except RunError (Database × (Database → m Unit))) := do
  match Location.folder? address with
  | some folder =>
    if let .error e ← Host.makeFolder folder then return .error (.creating folder e)
  | none => pure ()
  match Location.ofAddress? address with
  | none => return .error (.store .database)
  | some .transient => return .ok (.empty, fun _ => pure ())
  | some (.file path) =>
    match ← Host.openDatabase? path with
    | some db => return .ok (db, Host.saveDatabase path)
    | none => return .error (.store .database)

def execute (address : String) (cfg : EngineConfig) (command : Command) : m Reply := do
  if command = .version then return .done versionText
  match ← openAddress address with
  | .error e => return .failed e
  | .ok (db, save) =>
    match command.run (← Host.now) cfg db with
    | .error e => return .failed e
    | .ok (document, db) =>
      save db
      return .done (document.elim "" fun j => j.indented 0 ++ "\n")

def loadConfig (path : Option String) : m (Except RunError EngineConfig) := do
  match path with
  | none => return .ok {}
  | some path =>
    match (← Host.readText? path).map EngineConfig.load with
    | some (.ok cfg) => return .ok cfg
    | _ => return .error (.loading path)

/-- The program that seeds a world, advances it and looks at it. -/
def runProgram (args : List String) : m Reply := do
  match Arguments.ofList args with
  | .error e => return .usage e
  | .ok a =>
    match ← loadConfig (a.value? .config) with
    | .error e => return .failed e
    | .ok cfg =>
      match a.toCommand cfg with
      | .error e => return .usage (.invalid e)
      | .ok command => execute ((a.value? .database).getD Location.defaultAddress) cfg command

/-- The program that makes a database ready for use; arguments after its address are not looked at. Of a
folder that cannot be made it gives the cause alone. -/
def prepareDatabase (args : List String) : m Reply := do
  let address := args.head?.getD Location.defaultAddress
  match ← openAddress address with
  | .error (.creating _ cause) => return .failed (.folder cause)
  | .error e => return .failed e
  | .ok _ => return .done ("DB migrated at " ++ address ++ "\n")

end Mercantile.CommandLine
