import Mercantile.Text.Numeral
import Mercantile.Yaml.Cursor

/-!
The texts of scalars: plain ones, which end where something else could begin, ones in quotes, and blocks
of lines below an indicator. A reader starts at a cursor and returns the text and the cursor after it.
-/

namespace Mercantile.Yaml

inductive Style
  | plain
  | quoted
  | literal
  | folded
deriving DecidableEq

/-- A character that has a meaning of its own inside brackets. -/
def isFlowMark (c : Char) : Bool := c = ',' || c = '[' || c = ']' || c = '\x7b' || c = '\x7d'

/-- Plain text up to a gap or to a mark that ends it. Inside brackets a colon may not stand right before
a mark. -/
def plainRun? (flow : Bool) : List Char → Option (List Char × List Char)
  | [] => some ([], [])
  | ':' :: cs =>
    if atGap cs then some ([], ':' :: cs)
    else if flow && cs.head?.any (fun c => isFlowMark c || c = '?') then none
    else (plainRun? flow cs).map fun (run, rest) => (':' :: run, rest)
  | c :: cs =>
    if isWhite c || isBreak c || flow && isFlowMark c then some ([], c :: cs)
    else (plainRun? flow cs).map fun (run, rest) => (c :: run, rest)

/-- Plain text over several lines, which all lie at or right of `margin` outside of brackets, and
whether a line end follows it. `gap` is what came before. -/
def readPlain? (flow : Bool) (margin : Nat) :
    Nat → Gap → Cursor → Option (List Char × Bool × Cursor)
  | 0, gap, c => some ([], gap.broken, c)
  | fuel + 1, gap, c =>
    if c.atAnyMarker || c.rest.head? = some '#' then some ([], gap.broken, c)
    else do
      let (run, rest) ← plainRun? flow c.rest
      if run.isEmpty then return ([], gap.broken, c)
      let (next, c) ← Gap.none.at? margin (c.goTo rest)
      let (more, broken, c) ←
        if next.isEmpty || !flow && c.column < margin then some ([], next.broken, c)
        else readPlain? flow margin fuel next c
      return (gap.folded ++ run ++ more, broken, c)

/-- Text between single quotes up to a gap or a quote; a quote in it is written twice. -/
def singleRun : List Char → List Char × List Char
  | '\x27' :: '\x27' :: cs => ('\x27' :: (singleRun cs).1, (singleRun cs).2)
  | '\x27' :: cs => ([], '\x27' :: cs)
  | c :: cs =>
    if isWhite c || isBreak c then ([], c :: cs) else (c :: (singleRun cs).1, (singleRun cs).2)
  | [] => ([], [])

/-- What the letter after a backslash stands for, the numbered escapes apart. -/
def unescape? : Char → Option Nat
  | '0' => some 0x00
  | 'a' => some 0x07
  | 'b' => some 0x08
  | 't' | '\t' => some 0x09
  | 'n' => some 0x0a
  | 'v' => some 0x0b
  | 'f' => some 0x0c
  | 'r' => some 0x0d
  | 'e' => some 0x1b
  | ' ' => some 0x20
  | '"' => some 0x22
  | '/' => some 0x2f
  | '\\' => some 0x5c
  | 'N' => some 0x85
  | '_' => some 0xa0
  | 'L' => some 0x2028
  | 'P' => some 0x2029
  | _ => none

def numbered? (ds : List Char) : Option Char := do
  let n ← Text.readInBase? 16 ds
  if n < 0xd800 ∨ 0xdfff < n ∧ n < 0x110000 then some (Char.ofNat n) else none

/-- Text between double quotes up to a gap, a quote or past an escaped line end, and whether it is the
last of these. -/
def doubleRun? : List Char → Option (List Char × Bool × List Char)
  | [] => some ([], false, [])
  | '"' :: cs => some ([], false, '"' :: cs)
  | '\\' :: 'x' :: a :: b :: cs => do
    let c ← numbered? [a, b]
    (doubleRun? cs).map fun (run, r) => (c :: run, r)
  | '\\' :: 'u' :: a :: b :: d :: e :: cs => do
    let c ← numbered? [a, b, d, e]
    (doubleRun? cs).map fun (run, r) => (c :: run, r)
  | '\\' :: 'U' :: a :: b :: d :: e :: f :: g :: h :: i :: cs => do
    let c ← numbered? [a, b, d, e, f, g, h, i]
    (doubleRun? cs).map fun (run, r) => (c :: run, r)
  | '\\' :: c :: cs =>
    if isBreak c then some ([], true, cs)
    else do
      let n ← unescape? c
      (doubleRun? cs).map fun (run, r) => (Char.ofNat n :: run, r)
  | c :: cs =>
    if isWhite c || isBreak c then some ([], false, c :: cs)
    else (doubleRun? cs).map fun (run, r) => (c :: run, r)

/-- Quoted text after its opening quote. No line of it may look like a document marker. -/
def readQuoted? (quote : Char) : Nat → Cursor → Option (List Char × Cursor)
  | 0, _ => none
  | fuel + 1, c =>
    if c.atAnyMarker then none
    else do
      let (run, escaped, rest) ←
        if quote = '"' then doubleRun? c.rest
        else some ((singleRun c.rest).1, false, (singleRun c.rest).2)
      let c := if escaped then ⟨rest, c.line + 1, 0⟩ else c.goTo rest
      if c.rest.head? = some quote then return (run, c.skip 1)
      if c.rest.isEmpty then none
      let (gap, c) ← Gap.at? 0 { Gap.none with escaped } c
      let (more, c) ← readQuoted? quote fuel c
      return (run ++ gap.folded ++ more, c)

/-- What becomes of the line ends at the end of a block. -/
inductive Chomp
  | strip
  | clip
  | keep
deriving DecidableEq

/-- The sign that says what becomes of the last line ends. -/
def readChomp : List Char → Chomp × List Char
  | '-' :: cs => (.strip, cs)
  | '+' :: cs => (.keep, cs)
  | cs => (.clip, cs)

/-- The digit that says how far a block is indented, which is not zero; none is zero here. -/
def readIndent? : List Char → Option (Nat × List Char)
  | '0' :: _ => none
  | c :: cs =>
    match Text.digitValue? c with
    | some d => some (d, cs)
    | none => some (0, c :: cs)
  | [] => some (0, [])

/-- What follows the indicator of a block on its line, the sign and the digit in either order. -/
def blockHeader? (cs : List Char) : Option (Chomp × Nat × List Char) :=
  match readChomp cs with
  | (.clip, _) => do
    let (indent, cs) ← readIndent? cs
    let (chomp, cs) := if indent = 0 then (.clip, cs) else readChomp cs
    return (chomp, indent, cs)
  | (chomp, cs) => do
    let (indent, cs) ← readIndent? cs
    return (chomp, indent, cs)

/-- The rest of a line that holds nothing but white space and a comment. -/
def endOfLine? (cs : List Char) : Option (List Char) :=
  let cs := cs.dropWhile isWhite
  let cs := if cs.head? = some '#' then cs.dropWhile (!isBreak ·) else cs
  if cs.head?.all isBreak then some cs else none

/-- Empty lines of a block, and the indentation of the line after them, up to the column `indent`; zero
stands for a column that is not known yet. Also the widest indentation seen. -/
def emptyLines? (indent : Nat) (breaks : List Char) (widest line column : Nat) :
    List Char → Option (List Char × Nat × Cursor)
  | [] => some (breaks, max widest column, ⟨[], line, column⟩)
  | c :: cs =>
    let inside := indent = 0 || column < indent
    if c = ' ' && inside then emptyLines? indent breaks widest line (column + 1) cs
    else if c = '\t' && inside then none
    else if isBreak c then emptyLines? indent (breaks ++ [c]) (max widest column) (line + 1) 0 cs
    else some (breaks, max widest column, ⟨c :: cs, line, column⟩)

/-- The line ends between two lines of a block. In a folded one a single line end counts as a blank,
unless one of the lines begins with white space. -/
def joint (folded indented : Bool) (first breaks : List Char) : List Char :=
  if folded && first = ['\n'] && !indented then
    if breaks.isEmpty then [' '] else breaks
  else first ++ breaks

/-- The lines of a block at the column `indent`, with the line ends that follow them. `first` and
`breaks` are the line ends in front, `wasIndented` tells whether the line before begins with white
space. -/
def blockLines? (folded : Bool) (indent : Nat) :
    Nat → List Char → List Char → Bool → Cursor →
      Option (List Char × List Char × List Char × Cursor)
  | 0, _, _, _, _ => none
  | fuel + 1, first, breaks, wasIndented, c =>
    if c.column = indent ∧ c.rest ≠ [] then do
      let isIndented := c.rest.head?.any isWhite
      let text := c.rest.takeWhile (!isBreak ·)
      let rest := c.rest.dropWhile (!isBreak ·)
      let after := (c.goTo rest).skipBreak
      let (breaks', _, next) ← emptyLines? indent [] 0 after.line after.column after.rest
      let (more, ends) ← blockLines? folded indent fuel (rest.take 1) breaks' isIndented next
      return (joint folded (wasIndented || isIndented) first breaks ++ text ++ more, ends)
    else some ([], first, breaks, c)

/-- A block after its indicator, below a parent whose children lie at or right of `margin`. -/
def readBlock? (folded : Bool) (margin : Nat) (c : Cursor) : Option (List Char × Cursor) := do
  let (chomp, increment, rest) ← blockHeader? c.rest
  let c := (c.goTo (← endOfLine? rest)).skipBreak
  let fixed := if increment = 0 then 0 else (margin - 1) + increment
  let (breaks, widest, c) ← emptyLines? fixed [] 0 c.line c.column c.rest
  let indent := if increment = 0 then max (max widest margin) 1 else fixed
  let (text, first, breaks, c) ← blockLines? folded indent (c.rest.length + 1) [] breaks false c
  let ends := match chomp with
    | .strip => []
    | .clip => first
    | .keep => first ++ breaks
  return (text ++ ends, c)

end Mercantile.Yaml
