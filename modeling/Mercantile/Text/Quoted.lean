import Mercantile.Text.Printable

/-!
A text between double quotes, so that every character of it can be seen. Quotes and backslashes are
escaped, a few controls have short escapes, and all else without a shape is written by its code point.
-/

namespace Mercantile.Text

/-- The lower-case hexadecimal digits of `n`, without leading zeros. -/
def hexDigits (n : Nat) : List Char :=
  if n < 16 then [(Nat.digitChar n)] else hexDigits (n / 16) ++ [Nat.digitChar (n % 16)]

/-- How one character stands inside the quotes. -/
def quoteChar (c : Char) : List Char :=
  match c with
  | '"' => ['\\', '"']
  | '\\' => ['\\', '\\']
  | '\t' => ['\\', 't']
  | '\r' => ['\\', 'r']
  | '\n' => ['\\', 'n']
  | '\x00' => ['\\', '0']
  | c => if isPrintable c then [c] else ['\\', 'u', '\x7b'] ++ hexDigits c.toNat ++ ['\x7d']

def quoted (s : String) : String :=
  String.ofList ('"' :: s.toList.flatMap quoteChar ++ ['"'])

end Mercantile.Text
