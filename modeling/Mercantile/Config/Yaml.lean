import Mercantile.Config.Settings
import Mercantile.Text.Blank
import Mercantile.Yaml.Node
import Mercantile.Yaml.Plain

/-!
A configuration from a text that people write. Numbers are plain scalars; only a decimal may stand in
quotes as well.
-/

namespace Mercantile

inductive ConfigError
  /-- It is not well formed, or something in it is not of the right sort. -/
  | unreadable
  /-- A setting is out of its bounds. -/
  | invalid (cause : ValidationError)
deriving DecidableEq

namespace Yaml

/-- What an alias refers to. -/
def Document.node (d : Document) : Node :=
  match d.root with
  | .alias n => (List.lookup n d.anchored).getD d.root
  | node => node

def Document.at (d : Document) (node : Node) : Document := { d with root := node }

/-- The name that a key spells; tags and quotes do not matter. -/
def Document.name? (d : Document) : Option String :=
  match d.node with
  | .scalar _ _ s => some s
  | _ => none

/-- The value of a named entry, if the name stands once or not at all. -/
def valueOf? (entries : List (String × Document)) (name : String) : Option (Option Document) :=
  match entries.filter (·.1 = name) with
  | [] => some none
  | [e] => some (some e.2)
  | _ => none

/-- The entries of a mapping, which has none where nothing is written. -/
def Document.fields? (names : List String) (d : Document) : Option (List (Option Document)) :=
  match d.node with
  | .mapping entries => do
    let entries ← entries.mapM fun e => do return (← (d.at e.1).name?, d.at e.2)
    names.mapM (valueOf? entries)
  | .scalar _ .plain "" => some (names.map fun _ => none)
  | _ => none

/-- The full name of a tag of the language itself. -/
def coreTag (name : String) : String := "tag:yaml.org,2002:" ++ name

/-- The text of a scalar that may be an integer: a plain one, or a literal one that is tagged as one. -/
def Document.integerText? (d : Document) : Option String :=
  match d.node with
  | .scalar _ .plain s => some s
  | .scalar (some t) .literal s => if t = coreTag "int" then some s else none
  | _ => none

/-- An integer, as a decimal; beyond a machine word it is none. -/
def integerDecimal? (n : Int) : Option Decimal :=
  if Int64.minValue.toInt ≤ n ∧ n < UInt64.size then some n else none

def floatDecimal? (s : String) : Option Decimal := do
  let (m, e) ← Plain.float? s
  Decimal.ofFloatNumeral? m e

/-- The decimal that a plain scalar without a tag stands for. A number is read as one, and as a text only
if it is not written as a number. -/
def plainDecimal? (s : String) : Option Decimal :=
  if s = "" || Plain.isNull s || Plain.isBool s then none
  else
    match Plain.integer? s with
    | some n => integerDecimal? n
    | none =>
      if Plain.isZeroPadded s.toList || (Plain.float? s).isNone then Decimal.parse? s
      else floatDecimal? s

/-- The decimal of a scalar with a tag: a number if the tag says so, or else a text. A tag of one's own
is none of these. -/
def taggedDecimal? (tag s : String) : Option Decimal :=
  if tag = coreTag "int" then (Plain.integer? s).bind integerDecimal?
  else if tag = coreTag "float" then floatDecimal? s
  else if tag = coreTag "bool" ∨ tag = coreTag "null" ∨ tag.startsWith "!" then none
  else Decimal.parse? s

def Document.decimal? (d : Document) : Option Decimal :=
  match d.node with
  | .scalar none .plain s => plainDecimal? s
  | .scalar none _ s => Decimal.parse? s
  | .scalar (some t) _ s => taggedDecimal? t s
  | _ => none

instance : SettingSource Document where
  fields? := Document.fields?
  natural? d := d.integerText?.bind fun s => (Plain.natural? s).bind UInt64.ofNat?
  integer? d := d.integerText?.bind fun s => (Plain.integer? s).bind Int64.ofInt?
  decimal? := Document.decimal?

end Yaml

namespace EngineConfig

def ofYaml? (text : String) : Option EngineConfig :=
  if (Text.trim text.toList).isEmpty then some {}
  else
    match Yaml.parse? text with
    | none => none
    | some none => some {}
    | some (some d) => SettingSource.config? d

def load (text : String) : Except ConfigError EngineConfig :=
  match ofYaml? text with
  | none => .error .unreadable
  | some cfg =>
    match cfg.check with
    | .ok () => .ok cfg
    | .error e => .error (.invalid e)

end EngineConfig

end Mercantile
