import Mercantile.Json.Basic
import Mercantile.Text.Numeral

/-!
Documents as text, on one line or indented.
-/

namespace Mercantile.Json

def hex4 (n : Nat) : List Char :=
  [n / 4096 % 16, n / 256 % 16, n / 16 % 16, n % 16].map Nat.digitChar

/-- One character inside a string: quotes, backslashes and controls are escaped. -/
def escape (c : Char) : List Char :=
  match c with
  | '"' => ['\\', '"']
  | '\\' => ['\\', '\\']
  | '\n' => ['\\', 'n']
  | '\r' => ['\\', 'r']
  | '\t' => ['\\', 't']
  | '\x08' => ['\\', 'b']
  | '\x0c' => ['\\', 'f']
  | c => if c.toNat < 32 then '\\' :: 'u' :: hex4 c.toNat else [c]

def printString (s : String) : String :=
  String.ofList ('"' :: s.toList.flatMap escape ++ ['"'])

mutual

def print : Json → String
  | .null => "null"
  | .bool true => "true"
  | .bool false => "false"
  | .int n => Text.ofInt n
  | .real m e => Text.ofInt m ++ "e" ++ Text.ofInt e
  | .str s => printString s
  | .arr js => "[" ++ printItems js ++ "]"
  | .obj ms => "\x7b" ++ printMembers ms ++ "\x7d"
  | .illegible => "null"

def printItems : List Json → String
  | [] => ""
  | [j] => j.print
  | j :: js => j.print ++ "," ++ printItems js

def printMembers : List (String × Json) → String
  | [] => ""
  | [(k, j)] => printString k ++ ":" ++ j.print
  | (k, j) :: ms => printString k ++ ":" ++ j.print ++ "," ++ printMembers ms

end

/-- A line break, and two blanks for each level. -/
def newline (level : Nat) : String := String.ofList ('\n' :: List.replicate (2 * level) ' ')

mutual

/-- The text with one item or member a line. -/
def indented (level : Nat) : Json → String
  | .arr (j :: js) =>
    "[" ++ newline (level + 1) ++ indentedItems (level + 1) (j :: js) ++ newline level ++ "]"
  | .obj (m :: ms) =>
    "\x7b" ++ newline (level + 1) ++ indentedMembers (level + 1) (m :: ms) ++ newline level ++ "\x7d"
  | .null => "null"
  | .bool b => if b then "true" else "false"
  | .int n => Text.ofInt n
  | .real m e => Text.ofInt m ++ "e" ++ Text.ofInt e
  | .str s => printString s
  | .arr [] => "[]"
  | .obj [] => "\x7b\x7d"
  | .illegible => "null"

def indentedItems (level : Nat) : List Json → String
  | [] => ""
  | [j] => j.indented level
  | j :: js => j.indented level ++ "," ++ newline level ++ indentedItems level js

def indentedMembers (level : Nat) : List (String × Json) → String
  | [] => ""
  | [(k, j)] => printString k ++ ": " ++ j.indented level
  | (k, j) :: ms =>
    printString k ++ ": " ++ j.indented level ++ "," ++ newline level ++ indentedMembers level ms

end

end Mercantile.Json
