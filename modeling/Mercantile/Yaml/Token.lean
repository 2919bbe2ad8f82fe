import Mercantile.Yaml.Scalar

/-!
The tokens of a document. Indentation becomes tokens that open and close block collections. A key
announces itself only by the colon after it, so the lexer remembers where the last one may have begun and
puts its tokens in there afterwards.
-/

namespace Mercantile.Yaml

inductive Token
  | version (major minor : Nat)
  | tagHandle (handle expansion : String)
  | documentStart
  | documentEnd
  | blockSequence
  | blockMapping
  | blockEnd
  | openList
  | closeList
  | openMap
  | closeMap
  | item
  | comma
  | key
  | value
  | alias (name : String)
  | anchor (name : String)
  | tag (handle name : String)
  | scalar (style : Style) (text : String)
deriving DecidableEq

/-- A place where a key may have begun. -/
structure PossibleKey where
  /-- The number of tokens before it. -/
  position : Nat
  line : Nat
  column : Nat
  /-- Nothing but a key can stand there. -/
  required : Bool

structure Lexer where
  cursor : Cursor
  /-- Newest first. -/
  tokens : List Token
  /-- The columns of the open block collections, innermost first. -/
  indents : List Nat
  /-- The possible key of the block context, behind those of the open brackets. -/
  blockKey : Option PossibleKey
  flowKeys : List (Option PossibleKey)
  keyAllowed : Bool

namespace Lexer

def start (cs : List Char) : Lexer := ⟨⟨cs, 0, 0⟩, [], [], none, [], true⟩

/-- Inside of brackets, where indentation does not count. -/
def inFlow (l : Lexer) : Bool := !l.flowKeys.isEmpty

/-- The column at or right of which the children of the innermost block collection lie. -/
def margin (l : Lexer) : Nat :=
  match l.indents with
  | [] => 0
  | i :: _ => i + 1

def possibleKey (l : Lexer) : Option PossibleKey := l.flowKeys.head?.getD l.blockKey

def setKey (k : Option PossibleKey) (l : Lexer) : Lexer :=
  match l.flowKeys with
  | [] => { l with blockKey := k }
  | _ :: ks => { l with flowKeys := k :: ks }

def allowKey (allowed : Bool) (l : Lexer) : Lexer := { l with keyAllowed := allowed }

def emit (t : Token) (l : Lexer) : Lexer := { l with tokens := t :: l.tokens }

def take (n : Nat) (t : Token) (l : Lexer) : Lexer := { l.emit t with cursor := l.cursor.skip n }

/-- Puts a token where only `position` tokens are before it. -/
def insert (position : Nat) (t : Token) (l : Lexer) : Lexer :=
  { l with tokens := l.tokens.insertIdx (l.tokens.length - position) t }

/-- Closes the block collections that begin right of a column. -/
def closeTo (column : Nat) (l : Lexer) : Lexer :=
  if l.inFlow then l
  else
    let closed := l.indents.takeWhile (column < ·)
    { l with
      tokens := List.replicate closed.length .blockEnd ++ l.tokens
      indents := l.indents.drop closed.length }

def closeAll (l : Lexer) : Lexer :=
  if l.inFlow then l
  else { l with tokens := List.replicate l.indents.length .blockEnd ++ l.tokens, indents := [] }

/-- Opens a block collection at a column, unless one that begins there or further right is open. -/
def openBlock (position column : Nat) (t : Token) (l : Lexer) : Lexer :=
  if l.inFlow || column < l.margin then l
  else { l.insert position t with indents := column :: l.indents }

/-- Gives up the possible key, which must not be a required one. -/
def dropKey? (l : Lexer) : Option Lexer :=
  if l.possibleKey.any (·.required) then none else some (l.setKey none)

def noteKey? (l : Lexer) : Option Lexer :=
  if l.keyAllowed then do
    let required := !l.inFlow && l.indents.head? = some l.cursor.column
    let k : PossibleKey := ⟨l.tokens.length, l.cursor.line, l.cursor.column, required⟩
    return (← l.dropKey?).setKey (some k)
  else some l

/-- A key lies on one line and is not too long. -/
def reaches (k : PossibleKey) (c : Cursor) : Bool := k.line = c.line && c.column ≤ k.column + 1024

/-- Skips white space, comments and line ends. A tab is not skipped where a block collection could
begin, and a line end makes room for a key. -/
def skipGap (flow : Bool) (comment allowed : Bool) (line column : Nat) :
    List Char → Bool × Cursor
  | [] => (allowed, ⟨[], line, column⟩)
  | c :: cs =>
    if isBreak c then skipGap flow false (allowed || !flow) (line + 1) 0 cs
    else if comment || c = ' ' || c = '\t' && (flow || !allowed) then
      skipGap flow comment allowed line (column + 1) cs
    else if c = '#' then skipGap flow true allowed line (column + 1) cs
    else (allowed, ⟨c :: cs, line, column⟩)

/-- Forward to where the next token begins, with the collections closed that end before it. -/
def advance (l : Lexer) : Lexer :=
  let (allowed, c) :=
    skipGap l.inFlow false l.keyAllowed l.cursor.line l.cursor.column l.cursor.rest
  { l with cursor := c, keyAllowed := allowed }.closeTo c.column

def isNameChar (c : Char) : Bool := c.isAlphanum || c = '_' || c = '-'

/-- A character of a tag; the marks of lists only where `wide` is set. -/
def isTagChar (wide : Bool) (c : Char) : Bool :=
  isNameChar c || ";/?:@&=+$.!~*()\x27".contains c || wide && ",[]".contains c

/-- The characters of a tag, with the numbered ones decoded. -/
def readTagText? (wide : Bool) : List Char → Option (List Char × List Char)
  | '%' :: a :: b :: cs => do
    let n ← Text.readInBase? 16 [a, b]
    (readTagText? wide cs).map fun (run, rest) => (Char.ofNat n :: run, rest)
  | '%' :: _ => none
  | c :: cs =>
    if isTagChar wide c then (readTagText? wide cs).map fun (run, rest) => (c :: run, rest)
    else some ([], c :: cs)
  | [] => some ([], [])

/-- The handle in front of a tag, between two exclamation marks or only after one. -/
def readHandle? : List Char → Option (List Char × List Char)
  | '!' :: cs =>
    let name := '!' :: cs.takeWhile isNameChar
    match cs.dropWhile isNameChar with
    | '!' :: rest => some (name ++ ['!'], rest)
    | rest => some (name, rest)
  | _ => none

def readVersionNumber? (cs : List Char) : Option (Nat × List Char) := do
  let ds := cs.takeWhile (Text.digitValue? · |>.isSome)
  if 9 < ds.length then none
  return (← Text.readNat? ds, cs.drop ds.length)

def readDirective? (name : String) (cs : List Char) : Option (Token × List Char) := do
  let cs := cs.dropWhile isWhite
  match name with
  | "YAML" => do
    let (major, cs) ← readVersionNumber? cs
    if cs.head? ≠ some '.' then none
    let (minor, cs) ← readVersionNumber? (cs.drop 1)
    return (.version major minor, cs)
  | "TAG" => do
    let (handle, cs) ← readHandle? cs
    if handle.length ≠ 1 ∧ handle.getLast? ≠ some '!' then none
    if !cs.head?.any isWhite then none
    let (expansion, cs) ← readTagText? true (cs.dropWhile isWhite)
    if expansion.isEmpty || !atGap cs then none
    return (.tagHandle (String.ofList handle) (String.ofList expansion), cs)
  | _ => none

def directive? (l : Lexer) : Option Lexer := do
  let l := (← l.closeAll.dropKey?).allowKey false
  let cs := l.cursor.rest.drop 1
  let name := cs.takeWhile isNameChar
  let rest := cs.drop name.length
  if !atGap rest then none
  let (t, rest) ← readDirective? (String.ofList name) rest
  let rest ← endOfLine? rest
  return { l.emit t with cursor := (l.cursor.goTo rest).skipBreak }

def documentMark? (t : Token) (l : Lexer) : Option Lexer := do
  return (← l.closeAll.dropKey?).allowKey false |>.take 3 t

def openBracket? (t : Token) (l : Lexer) : Option Lexer := do
  let l ← l.noteKey?
  return { l with flowKeys := none :: l.flowKeys }.allowKey true |>.take 1 t

def closeBracket? (t : Token) (l : Lexer) : Option Lexer := do
  let l ← l.dropKey?
  return { l with flowKeys := l.flowKeys.drop 1 }.allowKey false |>.take 1 t

def comma? (l : Lexer) : Option Lexer := do
  return (← l.dropKey?).allowKey true |>.take 1 .comma

/-- A dash in front of an item, or a question mark in front of a key: outside of brackets they open a
collection, and need a place where one may begin. -/
def opener? (t opening : Token) (allowed : Bool) (l : Lexer) : Option Lexer := do
  if !l.inFlow && !l.keyAllowed then none
  let l := l.openBlock l.tokens.length l.cursor.column opening
  return (← l.dropKey?).allowKey allowed |>.take 1 t

/-- A colon. It makes a key of what is remembered as one; without that the key is empty or was announced
by a question mark. -/
def value? (l : Lexer) : Option Lexer :=
  match l.possibleKey with
  | some k =>
    if reaches k l.cursor then
      some <| (l.insert k.position .key |>.openBlock k.position k.column .blockMapping
        |>.setKey none |>.allowKey false |>.take 1 .value)
    else if k.required then none
    else bare? (l.setKey none)
  | none => bare? l
where
  bare? (l : Lexer) : Option Lexer :=
    if l.inFlow then some (l.allowKey false |>.take 1 .value)
    else if l.keyAllowed then
      some (l.openBlock l.tokens.length l.cursor.column .blockMapping |>.allowKey true
        |>.take 1 .value)
    else none

/-- An anchor or an alias: a name after a mark. -/
def name? (t : String → Token) (l : Lexer) : Option Lexer := do
  let l := (← l.noteKey?).allowKey false
  let cs := l.cursor.rest.drop 1
  let name := cs.takeWhile isNameChar
  let next := cs.drop name.length
  if name.isEmpty || !(atGap next || next.head?.any ("?:,]\x7d%@\x60".contains ·)) then none
  return l.take (name.length + 1) (t (String.ofList name))

/-- A tag, in full between angle brackets or after a handle. -/
def readTag? (cs : List Char) : Option (Token × List Char) :=
  match cs with
  | '!' :: '<' :: cs => do
    let (name, cs) ← readTagText? true cs
    if name.isEmpty || cs.head? ≠ some '>' then none
    return (.tag "" (String.ofList name), cs.drop 1)
  | cs => do
    let (handle, rest) ← readHandle? cs
    if 1 < handle.length && handle.getLast? = some '!' then
      let (name, rest) ← readTagText? false rest
      if name.isEmpty then none
      return (.tag (String.ofList handle) (String.ofList name), rest)
    else
      let (more, rest) ← readTagText? false rest
      let name := handle.drop 1 ++ more
      return if name.isEmpty then (.tag "" "!", rest) else (.tag "!" (String.ofList name), rest)

def tag? (l : Lexer) : Option Lexer := do
  let l := (← l.noteKey?).allowKey false
  let (t, rest) ← readTag? l.cursor.rest
  if !(atGap rest || l.inFlow && rest.head? = some ',') then none
  return { l.emit t with cursor := l.cursor.goTo rest }

def block? (style : Style) (l : Lexer) : Option Lexer := do
  let l := (← l.dropKey?).allowKey true
  let (text, c) ← readBlock? (style = .folded) l.margin (l.cursor.skip 1)
  return { l.emit (.scalar style (String.ofList text)) with cursor := c }

def quoted? (quote : Char) (l : Lexer) : Option Lexer := do
  let l := (← l.noteKey?).allowKey false
  let c := l.cursor.skip 1
  let (text, c) ← readQuoted? quote (c.rest.length + 1) c
  return { l.emit (.scalar .quoted (String.ofList text)) with cursor := c }

def plain? (l : Lexer) : Option Lexer := do
  let l := (← l.noteKey?).allowKey false
  let c := l.cursor
  let (text, broken, c) ← readPlain? l.inFlow l.margin (c.rest.length + 1) .none c
  return { l.emit (.scalar .plain (String.ofList text)) with cursor := c }.allowKey broken

/-- A plain scalar may begin with these characters; with a dash, and outside of brackets with a question
mark or a colon, if no gap comes after. -/
def startsPlain (flow : Bool) (c : Char) (cs : List Char) : Bool :=
  if c = '-' then !cs.head?.any isWhite
  else if c = '?' || c = ':' then !flow && !atGap cs
  else !isWhite c && !",[]\x7b\x7d#&*!|>\x27\"%@\x60".contains c

/-- The next token, of which `c` is the first character. -/
def token? (c : Char) (cs : List Char) (l : Lexer) : Option Lexer :=
  let flow := l.inFlow
  if l.cursor.column = 0 ∧ c = '%' then l.directive?
  else if l.cursor.atMarker '-' then l.documentMark? .documentStart
  else if l.cursor.atMarker '.' then l.documentMark? .documentEnd
  else if c = '[' then l.openBracket? .openList
  else if c = '\x7b' then l.openBracket? .openMap
  else if c = ']' then l.closeBracket? .closeList
  else if c = '\x7d' then l.closeBracket? .closeMap
  else if c = ',' then l.comma?
  else if c = '-' ∧ atGap cs then l.opener? .item .blockSequence true
  else if c = '?' ∧ (flow ∨ atGap cs) then l.opener? .key .blockMapping !flow
  else if c = ':' ∧ (flow ∨ atGap cs) then l.value?
  else if c = '*' then l.name? .alias
  else if c = '&' then l.name? .anchor
  else if c = '!' then l.tag?
  else if c = '|' ∧ !flow then l.block? .literal
  else if c = '>' ∧ !flow then l.block? .folded
  else if c = '\x27' ∨ c = '"' then l.quoted? c
  else if startsPlain flow c cs then l.plain?
  else none

/-- The tokens that are left, and all before them. -/
def run? : Nat → Lexer → Option (List Token)
  | 0, _ => none
  | fuel + 1, l =>
    let l := l.advance
    match l.cursor.rest with
    | [] => l.closeAll.dropKey?.map (·.tokens.reverse)
    | c :: cs => (l.token? c cs).bind (run? fuel)

end Lexer

/-- The tokens of a text, which may start with a byte order mark. -/
def tokens? (text : String) : Option (List Token) :=
  let cs := text.toList
  let cs := if cs.head? = some '\ufeff' then cs.drop 1 else cs
  if cs.all isLegal then (Lexer.start (unifyBreaks cs)).run? (cs.length + 2) else none

end Mercantile.Yaml
