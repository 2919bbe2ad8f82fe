import Mercantile.Config
import Mercantile.Market.Placement

/-!
What an argument list asks for. Arguments are taken apart first, into a command and options of which the
last of a name counts; then the command is read from the options it needs, under the limits of the
configuration. Options that a command does not need are not looked at.
-/

namespace Mercantile.CommandLine

/-- The options; each takes a value. -/
inductive Flag
  | ticks
  | invariantLimit
  | seed
  | company
  | region
  | item
  | side
  | price
  | quantity
  | order
  | database
  | config
deriving DecidableEq

def Flag.all : List Flag :=
  [.ticks, .invariantLimit, .seed, .company, .region, .item, .side, .price, .quantity, .order,
    .database, .config]

def Flag.name : Flag → String
  | .ticks => "ticks"
  | .invariantLimit => "invariant-limit"
  | .seed => "seed"
  | .company => "company"
  | .region => "region"
  | .item => "item"
  | .side => "side"
  | .price => "price"
  | .quantity => "qty"
  | .order => "order"
  | .database => "db"
  | .config => "config"

def Flag.text (f : Flag) : String := "--" ++ f.name

def Flag.ofText? (s : String) : Option Flag := Flag.all.find? (·.text = s)

inductive UsageError
  | missingCommand
  | missingValue (flag : Flag)
  | unknownArgument (arg : String)
  | invalid (cause : ValidationError)
deriving DecidableEq

def UsageError.message : UsageError → String
  | .missingCommand => "missing command (init|advance|health|state|order|cancel-order)"
  | .missingValue flag => flag.text ++ " needs a value"
  | .unknownArgument arg => "unknown argument " ++ arg
  | .invalid cause => cause.message

structure Arguments where
  command : String
  /-- In the order in which they are given. -/
  options : List (Flag × String)
deriving DecidableEq

/-- Flags with their values; the argument after a flag is its value, whatever it looks like. -/
def readOptions : List String → Except UsageError (List (Flag × String))
  | [] => .ok []
  | arg :: args =>
    match Flag.ofText? arg, args with
    | none, _ => .error (.unknownArgument arg)
    | some f, [] => .error (.missingValue f)
    | some f, v :: args => do return (f, v) :: (← readOptions args)

def Arguments.ofList : List String → Except UsageError Arguments
  | [] => .error .missingCommand
  | command :: args => do return ⟨command, ← readOptions args⟩

/-- The value of a flag, the last one if it is given more than once. -/
def Arguments.value? (a : Arguments) (f : Flag) : Option String :=
  (a.options.reverse.find? (·.1 = f)).map (·.2)

inductive Command
  | init (seed : UInt64)
  | advance (ticks : Int64)
  | health (limit : Nat)
  | state
  | order (request : OrderRequest)
  | cancelOrder (id : OrderId)
  | version
deriving DecidableEq

namespace Arguments

def required (a : Arguments) (f : Flag) : Check String :=
  match a.value? f with
  | some s => .ok s
  | none => .error (.missing f.name)

/-- An integer within bounds, with a default. -/
def boundedInt (a : Arguments) (f : Flag) (default min max : Int64) : Check Int64 :=
  match a.value? f with
  | some s => readBoundedInt f.name s min max
  | none => .ok default

/-- An integer of at least one that has to be given. -/
def positiveInt (a : Arguments) (f : Flag) : Check Int64 := do
  readBoundedInt f.name (← a.required f) 1 Int64.maxValue

def positive (a : Arguments) (f : Flag) : Check UInt64 := do
  return UInt64.ofNat (← a.positiveInt f).toInt.toNat

def orderRequest (a : Arguments) : Check OrderRequest := do
  let company ← a.positive .company
  let region ← a.positive .region
  let item ← a.positive .item
  let side ← readMember Flag.side.name (← a.required .side) OrderSide.members
  let price ← a.positiveInt .price
  let quantity ← a.positive .quantity
  return ⟨⟨company⟩, ⟨region⟩, ⟨item⟩, side, price, quantity⟩

def commandNames : List String :=
  ["init", "advance", "health", "state", "order", "cancel-order", "version"]

def maxIssueLimit : Int64 := 10000

def toCommand (a : Arguments) (cfg : EngineConfig) : Check Command :=
  match a.command with
  | "init" => do
    let seed ← a.boundedInt .seed 42 0 Int64.maxValue
    return .init (UInt64.ofNat seed.toInt.toNat)
  | "advance" => do
    let most := Int64.ofNat cfg.maxTicksPerRequest.toNat
    return .advance (← a.boundedInt .ticks 1 1 most)
  | "health" => do
    let limit ← a.boundedInt .invariantLimit 20 0 maxIssueLimit
    return .health limit.toInt.toNat
  | "state" => .ok .state
  | "order" => do return .order (← a.orderRequest)
  | "cancel-order" => do return .cancelOrder ⟨← a.positive .order⟩
  | "version" | "--version" => .ok .version
  | other => .error (.notAMember "command" other commandNames)

end Arguments

end Mercantile.CommandLine
