/-! # 64-bit hash builders and their 32-bit fold

A builder turns the bytes a key feeds it into a 64-bit word; the table routes on
that word with its two halves folded together.
-/

namespace ChainTable

/-- A ready-made 64-bit hash: FNV-1a over the bytes fed, or one fixed word. -/
inductive Builder where
  | fnv
  | constant (word : UInt64)
  deriving DecidableEq, Repr

namespace Builder

def fnvOffset : UInt64 := 0xcbf29ce484222325

def fnvPrime : UInt64 := 0x100000001b3

/-- One byte of FNV-1a: flip, then multiply modulo 2^64. -/
def fnvAbsorb (h : UInt64) (byte : UInt8) : UInt64 := (h ^^^ byte.toUInt64) * fnvPrime

def word (builder : Builder) (fed : List UInt8) : UInt64 :=
  match builder with
  | .fnv => fed.foldl fnvAbsorb fnvOffset
  | .constant word => word

/-- The high half of a word flipped into its low half. -/
def fold (word : UInt64) : UInt32 := (word ^^^ (word >>> 32)).toUInt32

def hash (builder : Builder) (fed : List UInt8) : UInt32 := fold (builder.word fed)

end Builder

end ChainTable
