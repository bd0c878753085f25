import ChainTable.Text.Decimal
import ChainTable.Text.Quoted

/-! # Values

A stored value is a 64-bit integer or a text; it can be printed and bumped.
-/

namespace ChainTable

inductive Value where
  | int (n : Int64)
  | text (s : String)
  deriving DecidableEq

namespace Value

/-- The value moved on by `amount`: an integer by wrapping addition, a text by
writing `+` and the amount behind it. -/
def bump (amount : Int64) : Value → Value
  | .int n => .int (n + amount)
  | .text s => .text (s ++ String.ofList ('+' :: Decimal.ofInt amount.toInt))

def print (value : Value) (hidden : Char → Bool := Quoted.isControl) : List Char :=
  match value with
  | .int n => Decimal.ofInt n.toInt
  | .text s => Quoted.encode s.toList hidden

end Value

end ChainTable
