/-!
JSON documents. Members of an object keep their order, and a name may stand more than once. A number is
an integer if it is written as one and a machine word can hold it.
-/

namespace Mercantile

inductive Json
  | null
  | bool (b : Bool)
  /-- An integer between `-2 ^ 63` and `2 ^ 64 - 1`, written without fraction or exponent. -/
  | int (n : Int)
  /-- Any other number, `mantissa * 10 ^ exponent`. -/
  | real (mantissa exponent : Int)
  | str (s : String)
  | arr (items : List Json)
  | obj (members : List (String × Json))
  /-- Well-formed text without a value: half of a surrogate pair stands in a string or a name. -/
  | illegible
deriving Inhabited

end Mercantile
