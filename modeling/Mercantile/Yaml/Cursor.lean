/-!
A place in a document, and what lies between two pieces of its text. Line ends in all their spellings
are one character here, so a cursor knows its line and column by counting.
-/

namespace Mercantile.Yaml

def isWhite (c : Char) : Bool := c = ' ' || c = '\t'

/-- A line end; the two separators of Unicode stay as they are. -/
def isBreak (c : Char) : Bool := c = '\n' || c = '\u2028' || c = '\u2029'

def atGap : List Char → Bool
  | [] => true
  | c :: _ => isWhite c || isBreak c

def isLegal (c : Char) : Bool :=
  let n := c.toNat
  c = '\t' || c = '\n' || c = '\r' || 0x20 ≤ n && n ≤ 0x7e || n = 0x85 || 0xa0 ≤ n && n ≤ 0xd7ff
    || 0xe000 ≤ n && n ≤ 0xfffd && n ≠ 0xfeff || 0x10000 ≤ n

/-- One spelling for line ends. -/
def unifyBreaks : List Char → List Char
  | '\r' :: '\n' :: cs => '\n' :: unifyBreaks cs
  | '\r' :: cs => '\n' :: unifyBreaks cs
  | '\u0085' :: cs => '\n' :: unifyBreaks cs
  | c :: cs => c :: unifyBreaks cs
  | [] => []

/-- What is still to be read, and where it starts. -/
structure Cursor where
  rest : List Char
  line : Nat
  column : Nat

namespace Cursor

def skip (n : Nat) (c : Cursor) : Cursor := { c with rest := c.rest.drop n, column := c.column + n }

def goTo (rest : List Char) (c : Cursor) : Cursor :=
  { c with rest, column := c.column + (c.rest.length - rest.length) }

/-- Past the line end that comes next, if there is one. -/
def skipBreak (c : Cursor) : Cursor :=
  match c.rest with
  | [] => c
  | _ :: cs => ⟨cs, c.line + 1, 0⟩

/-- A line starts here with three of a character, and a gap after them. -/
def atMarker (mark : Char) (c : Cursor) : Bool :=
  c.column = 0 && c.rest.take 3 = [mark, mark, mark] && atGap (c.rest.drop 3)

/-- The start or the end of a document is marked here. -/
def atAnyMarker (c : Cursor) : Bool := c.atMarker '-' || c.atMarker '.'

end Cursor

/-- White space and line ends between two pieces of a text. -/
structure Gap where
  /-- White space, if there is no line end. -/
  white : List Char
  breaks : List Char
  /-- The first line end was escaped and is not among the others. -/
  escaped : Bool

namespace Gap

def none : Gap := ⟨[], [], false⟩

def broken (g : Gap) : Bool := g.escaped || !g.breaks.isEmpty

def isEmpty (g : Gap) : Bool := g.white.isEmpty && !g.broken

/-- What a gap adds to the text: a single line end counts as a blank, and of more the first is
dropped. -/
def folded (g : Gap) : List Char :=
  if g.escaped then g.breaks
  else
    match g.breaks with
    | [] => g.white
    | ['\n'] => [' ']
    | '\n' :: bs => bs
    | bs => bs

/-- Takes white space and line ends. After a line end no tab may stand before the column `margin`. -/
def read? (margin : Nat) (g : Gap) (line column : Nat) : List Char → Option (Gap × Cursor)
  | [] => some (g, ⟨[], line, column⟩)
  | c :: cs =>
    if isWhite c then
      if !g.broken then read? margin { g with white := g.white ++ [c] } line (column + 1) cs
      else if c = '\t' ∧ column < margin then Option.none
      else read? margin g line (column + 1) cs
    else if isBreak c then
      read? margin { g with white := [], breaks := g.breaks ++ [c] } (line + 1) 0 cs
    else some (g, ⟨c :: cs, line, column⟩)

def at? (margin : Nat) (g : Gap) (c : Cursor) : Option (Gap × Cursor) :=
  g.read? margin c.line c.column c.rest

end Gap

end Mercantile.Yaml
