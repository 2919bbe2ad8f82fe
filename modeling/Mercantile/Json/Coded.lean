import Mercantile.Json.Basic
import Mercantile.Timestamp
import Mercantile.Word

/-!
Values as documents and back. A record is an object with the names of its fields; it is also read from a
list of the fields in order. In an object other names are ignored, a field that stands twice is refused,
and only an optional field may be missing. A state is its name.
-/

namespace Mercantile

/-- A type whose values have a document. -/
class Coded (α : Type) where
  encode : α → Json
  decode? : Json → Option α

export Coded (encode decode?)

namespace Json

/-- The document of a named member, if the name stands once or not at all. -/
def member? (ms : List (String × Json)) (name : String) : Option (Option Json) :=
  match ms.filter (·.1 = name) with
  | [] => some none
  | [m] => some (some m.2)
  | _ => none

/-- The fields of a record in the order of `names`, each if it is there. -/
def record? (names : List String) : Json → Option (List (Option Json))
  | .obj ms => names.mapM (member? ms)
  | .arr js => if js.length = names.length then some (js.map some) else none
  | _ => none

/-- The fields of a record that has a default for each; a list may end early. -/
def settings? (names : List String) : Json → Option (List (Option Json))
  | .obj ms => names.mapM (member? ms)
  | .arr js =>
    if js.length ≤ names.length then
      some (js.map some ++ List.replicate (names.length - js.length) none)
    else none
  | _ => none

end Json

/-- A field that has to be there. -/
def needed {α : Type} [Coded α] (j : Option Json) : Option α := j.bind decode?

/-- A field that may be missing or null. -/
def optional {α : Type} [Coded α] : Option Json → Option (Option α)
  | none => some none
  | some .null => some none
  | some j => (decode? j).map some

def setting {α : Type} [Coded α] (default : α) : Option Json → Option α
  | none => some default
  | some j => decode? j

/-- The state that a document names. -/
def decodeName? {α : Type} (all : List α) (name : α → String) (j : Json) : Option α := do
  let s ← match j with
    | .str s => some s
    | .obj [(s, .null)] => some s
    | _ => none
  all.find? fun a => name a = s

namespace Coded

instance : Coded UInt64 where
  encode n := .int n.toNat
  decode?
    | .int n => if 0 ≤ n then UInt64.ofNat? n.toNat else none
    | _ => none

instance : Coded UInt32 where
  encode n := .int n.toNat
  decode?
    | .int n => if 0 ≤ n ∧ n < UInt32.size then some (UInt32.ofNat n.toNat) else none
    | _ => none

instance : Coded UInt8 where
  encode n := .int n.toNat
  decode?
    | .int n => if 0 ≤ n ∧ n < UInt8.size then some (UInt8.ofNat n.toNat) else none
    | _ => none

instance : Coded Int64 where
  encode n := .int n.toInt
  decode?
    | .int n => Int64.ofInt? n
    | _ => none

instance : Coded Bool where
  encode := .bool
  decode?
    | .bool b => some b
    | _ => none

instance : Coded String where
  encode := .str
  decode?
    | .str s => some s
    | _ => none

instance : Coded Timestamp where
  encode t := .str t.toText
  decode?
    | .str s => Timestamp.parse? s
    | _ => none

instance {α : Type} [Coded α] : Coded (List α) where
  encode as := .arr (as.map encode)
  decode?
    | .arr js => js.mapM decode?
    | _ => none

instance {α : Type} [Coded α] : Coded (Option α) where
  encode
    | some a => encode a
    | none => .null
  decode?
    | .null => some none
    | j => (decode? j).map some

end Coded

end Mercantile
