/-! # UTF-8

The bytes of a text, and the longest text a limited number of bytes can hold.
-/

namespace ChainTable.Utf8

def encode (text : List Char) : List UInt8 := text.flatMap String.utf8EncodeChar

def size (text : List Char) : Nat := text.foldr (fun c count => c.utf8Size + count) 0

/-- What shows of a text when only its first `limit` bytes are kept: the characters
that fit, and a replacement mark for a character that is cut. -/
def clip (limit : Nat) : List Char → List Char
  | [] => []
  | c :: rest =>
    if c.utf8Size ≤ limit then c :: clip (limit - c.utf8Size) rest
    else if limit = 0 then [] else ['\uFFFD']

end ChainTable.Utf8
