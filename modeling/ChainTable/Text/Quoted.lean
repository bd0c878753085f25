/-! # Quoted text

Text between double quotes on one line: the quote, the backslash and every hidden
character are written as escapes, all else as itself.  Which characters are hidden
besides those with a short escape is up to the writer; by default the control
characters are.
-/

namespace ChainTable.Quoted

def isControl (c : Char) : Bool := c.toNat < 0x20 || (0x7f ≤ c.toNat && c.toNat ≤ 0x9f)

/-- The characters with a short escape, each with the letter it is written by. -/
def marks : List (Char × Char) :=
  [('"', '"'), ('\\', '\\'), ('\n', 'n'), ('\r', 'r'), ('\t', 't'), ('\x00', '0')]

/-- The written form of one character: a short escape where one exists, the code
point in lower-case hexadecimal for the other hidden characters. -/
def escape (hidden : Char → Bool) (c : Char) : List Char :=
  match marks.lookup c with
  | some mark => ['\\', mark]
  | none =>
    if hidden c then ['\\', 'u', '\x7b'] ++ Nat.toDigits 16 c.toNat ++ ['\x7d'] else [c]

def encode (text : List Char) (hidden : Char → Bool := isControl) : List Char :=
  '"' :: text.flatMap (escape hidden) ++ ['"']

end ChainTable.Quoted
