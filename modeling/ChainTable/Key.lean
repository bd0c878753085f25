import ChainTable.Text.Utf8
import ChainTable.Text.Decimal
import ChainTable.Text.Quoted

/-! # Keys

The two kinds of key the named hash functions know: 32-bit integers and texts.
A key has bytes (for hashing), an order, and a printed form.
-/

namespace ChainTable

inductive Key where
  | int (n : Int32)
  | text (s : String)
  deriving DecidableEq

namespace Key

def littleEndian (word : UInt32) : List UInt8 :=
  [word.toUInt8, (word >>> 8).toUInt8, (word >>> 16).toUInt8, (word >>> 24).toUInt8]

/-- The bytes a key stands for: little-endian for an integer, UTF-8 for a text. -/
def bytes : Key → List UInt8
  | .int n => littleEndian n.toUInt32
  | .text s => Utf8.encode s.toList

/-- The bytes a key feeds to a hash builder; a text is closed by a byte that occurs
in no text, so that no text feeds the beginning of another. -/
def feed : Key → List UInt8
  | .int n => bytes (.int n)
  | .text s => bytes (.text s) ++ [0xff]

/-- The order of keys: integers by value, texts by code point, integers first. -/
def le : Key → Key → Bool
  | .int a, .int b => decide (a ≤ b)
  | .text a, .text b => decide (a ≤ b)
  | .int _, .text _ => true
  | .text _, .int _ => false

def print (key : Key) (hidden : Char → Bool := Quoted.isControl) : List Char :=
  match key with
  | .int n => Decimal.ofInt n.toInt
  | .text s => Quoted.encode s.toList hidden

end Key

end ChainTable
