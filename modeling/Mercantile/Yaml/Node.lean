import Mercantile.Yaml.Token

/-!
The one document of a text, as a tree. An alias stays in the tree as a reference to the node with its
anchor, which may be a node that it is part of.
-/

namespace Mercantile.Yaml

inductive Node
  | scalar (tag : Option String) (style : Style) (text : String)
  | sequence (items : List Node)
  | mapping (entries : List (Node × Node))
  /-- A reference to an anchored node, by the number of its anchor. -/
  | alias (number : Nat)
deriving Inhabited

structure Document where
  root : Node
  /-- Nodes under the numbers of their anchors. -/
  anchored : List (Nat × Node)

/-- The scalar that stands where nothing is written. -/
def Node.empty (tag : Option String) : Node := .scalar tag .plain ""

structure Reading where
  tokens : List Token
  /-- What the handles of tags stand for. -/
  handles : List (String × String)
  /-- The anchors seen so far, newest first, with their numbers. -/
  anchors : List (String × Nat)
  anchored : List (Nat × Node)

abbrev Reader := StateT Reading Option

namespace Reader

def peek : Reader (Option Token) := do return (← get).tokens.head?

def skip : Reader Unit := modify fun r => { r with tokens := r.tokens.drop 1 }

def accept (t : Token) : Reader Bool := do
  if (← peek) = some t then
    skip
    return true
  return false

def expect (t : Token) : Reader Unit := do
  if !(← accept t) then failure

def atAny (ts : List Token) : Reader Bool := do return (← peek).any (ts.contains ·)

def resolveTag (handle name : String) : Reader String := do
  if handle = "" then return name
  match List.lookup handle (← get).handles with
  | some expansion => return expansion ++ name
  | none => failure

def anchor? : Reader (Option String) := do
  match ← peek with
  | some (.anchor name) =>
    skip
    return some name
  | _ => return none

def tag? : Reader (Option String) := do
  match ← peek with
  | some (.tag handle name) =>
    skip
    return some (← resolveTag handle name)
  | _ => return none

/-- The anchor and the tag in front of a node, in either order. -/
def properties : Reader (Option String × Option String) := do
  match ← anchor? with
  | some a => return (some a, ← tag?)
  | none =>
    match ← tag? with
    | some t => return (← anchor?, some t)
    | none => return (none, none)

/-- Gives an anchor its number; an anchor of the same name is not referred to any more. -/
def register (name : String) : Reader Nat := do
  let r ← get
  let n := r.anchors.length
  set { r with anchors := (name, n) :: r.anchors }
  return n

def store (n : Nat) (node : Node) : Reader Unit :=
  modify fun r => { r with anchored := (n, node) :: r.anchored }

mutual

/-- A node; `block` allows for block collections, `indentless` for items that are not indented. -/
def node (block indentless : Bool) : Nat → Reader Node
  | 0 => failure
  | fuel + 1 => do
    match ← peek with
    | some (.alias name) =>
      skip
      match List.lookup name (← get).anchors with
      | some n => return .alias n
      | none => failure
    | _ =>
      let (anchor, tag) ← properties
      match anchor with
      | none => content block indentless (tag.isSome) tag fuel
      | some name =>
        let n ← register name
        let result ← content block indentless true tag fuel
        store n result
        return result

/-- What follows the properties of a node, which may be nothing where `optional` is set. -/
def content (block indentless optional : Bool) (tag : Option String) : Nat → Reader Node
  | 0 => failure
  | fuel + 1 => do
    match ← peek with
    | some (.scalar style text) =>
      skip
      return .scalar (if tag = some "!" then none else tag) style text
    | some .item =>
      if indentless then return .sequence (← looseItems fuel)
      else if optional then return .empty tag
      else failure
    | some .openList =>
      skip
      return .sequence (← listItems true fuel)
    | some .openMap =>
      skip
      return .mapping (← mapEntries true fuel)
    | some .blockSequence =>
      if block then
        skip
        return .sequence (← blockItems fuel)
      else if optional then return .empty tag
      else failure
    | some .blockMapping =>
      if block then
        skip
        return .mapping (← blockEntries fuel)
      else if optional then return .empty tag
      else failure
    | _ => if optional then return .empty tag else failure

/-- A node, or an empty scalar if one of these tokens comes next. -/
def nodeUnless (ends : List Token) (block indentless : Bool) : Nat → Reader Node
  | 0 => failure
  | fuel + 1 => do
    if ← atAny ends then return .empty none
    node block indentless fuel

def blockItems : Nat → Reader (List Node)
  | 0 => failure
  | fuel + 1 => do
    if ← accept .blockEnd then return []
    expect .item
    let n ← nodeUnless [.item, .blockEnd] true false fuel
    return n :: (← blockItems fuel)

/-- The items that stand at the column of their parent. -/
def looseItems : Nat → Reader (List Node)
  | 0 => failure
  | fuel + 1 => do
    if !(← accept .item) then return []
    let n ← nodeUnless [.item, .key, .value, .blockEnd] true false fuel
    return n :: (← looseItems fuel)

def blockEntries : Nat → Reader (List (Node × Node))
  | 0 => failure
  | fuel + 1 => do
    if ← accept .blockEnd then return []
    expect .key
    let k ← nodeUnless [.key, .value, .blockEnd] true true fuel
    let v ←
      if ← accept .value then nodeUnless [.key, .value, .blockEnd] true true fuel
      else pure (.empty none)
    return (k, v) :: (← blockEntries fuel)

/-- The value after a key inside brackets, up to a comma or the bracket that closes. -/
def flowValue (close : Token) : Nat → Reader Node
  | 0 => failure
  | fuel + 1 => do
    if ← accept .value then nodeUnless [.comma, close] false false fuel
    else return .empty none

/-- The items up to the closing bracket. An item with a key is a mapping of one entry. -/
def listItems (first : Bool) : Nat → Reader (List Node)
  | 0 => failure
  | fuel + 1 => do
    if ← accept .closeList then return []
    if !first then expect .comma
    if ← accept .closeList then return []
    let n ← listItem fuel
    return n :: (← listItems false fuel)

def listItem : Nat → Reader Node
  | 0 => failure
  | fuel + 1 => do
    if ← accept .key then
      if ← atAny [.value, .comma, .closeList] then
        skip
        return .mapping [(.empty none, ← flowValue .closeList fuel)]
      let k ← node false false fuel
      return .mapping [(k, ← flowValue .closeList fuel)]
    else node false false fuel

def mapEntries (first : Bool) : Nat → Reader (List (Node × Node))
  | 0 => failure
  | fuel + 1 => do
    if ← accept .closeMap then return []
    if !first then expect .comma
    if ← accept .closeMap then return []
    let e ← mapEntry fuel
    return e :: (← mapEntries false fuel)

/-- An entry inside braces; one without a key announced has no value. -/
def mapEntry : Nat → Reader (Node × Node)
  | 0 => failure
  | fuel + 1 => do
    if ← accept .key then
      let k ← nodeUnless [.value, .comma, .closeMap] false false fuel
      return (k, ← flowValue .closeMap fuel)
    else return (← node false false fuel, .empty none)

end

/-- The directives in front of a document: at most one version, which is 1.1 or 1.2, and handles, none of
them twice. -/
def directives (version : Bool) (handles : List (String × String)) :
    Nat → Reader (List (String × String))
  | 0 => failure
  | fuel + 1 => do
    match ← peek with
    | some (.version major minor) =>
      if version || major ≠ 1 || minor ≠ 1 && minor ≠ 2 then failure
      skip
      directives true handles fuel
    | some (.tagHandle handle expansion) =>
      if handles.any (·.1 = handle) then failure
      skip
      directives version ((handle, expansion) :: handles) fuel
    | _ => return handles

/-- The handles that need no directive. -/
def commonHandles : List (String × String) := [("!", "!"), ("!!", "tag:yaml.org,2002:")]

def atDirective : Reader Bool := do
  match ← peek with
  | some (.version _ _) | some (.tagHandle _ _) => return true
  | _ => return false

/-- The only document, or nothing at all. -/
def document (fuel : Nat) : Reader (Option Node) := do
  if (← peek).isNone then return none
  let directed ← atDirective
  let handles ← directives false [] fuel
  modify fun r => { r with handles := handles ++ commonHandles }
  let explicit ← accept .documentStart
  if directed && !explicit then failure
  let isOver := (← peek).isNone || (← atDirective) || (← atAny [.documentStart, .documentEnd])
  let root ← if explicit && isOver then pure (.empty none) else node true false fuel
  ends fuel
  if (← peek).isSome then failure
  return some root
where
  /-- The marks after a document. -/
  ends : Nat → Reader Unit
    | 0 => failure
    | fuel + 1 => do if ← accept .documentEnd then ends fuel

end Reader

/-- The document of a text; no document at all is one without a root. -/
def parse? (text : String) : Option (Option Document) := do
  let tokens ← tokens? text
  let (root, r) ← (Reader.document (4 * tokens.length + 8)).run ⟨tokens, [], [], []⟩
  return root.map (⟨·, r.anchored⟩)

end Mercantile.Yaml
