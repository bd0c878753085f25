import ChainTable.Hash.Builder
import ChainTable.Hash.Djb2
import ChainTable.Key
import ChainTable.Keying

/-! # The named hash functions and sameness tests

The functions a table of `Key`s can be set up with, as data: `Hashing` names a
hash, `Sameness` names a test, and a pair of them is a `Keying`.  A builder always
comes with plain equality.
-/

namespace ChainTable

inductive Hashing where
  -- Every key hashes to one number.
  | constant (hash : UInt32)
  -- The xor variant of djb2 over the key's bytes.
  | djb2
  -- djb2 with the ASCII letters of a text in lower case.
  | djb2Lower
  -- An integer as the word it is stored in; a text counts as 0.
  | identity
  -- The length of the key's bytes.
  | byteLength
  -- The first of the key's bytes, 0 if it has none.
  | firstByte

inductive Sameness where
  | equal
  | never
  | always
  -- The key asked for is at most the key stored.
  | atMost
  -- Both keys are integers with the same remainder, never negative, by the modulus.
  | congruent (modulus : Int)
  -- Both texts are equal but for the case of ASCII letters.
  | ignoringCase
  -- The key stored begins with the key asked for.
  | beginning

def Key.djb2 (key : Key) : UInt32 := Djb2.hash key.bytes

/-- A text with its ASCII letters in lower case; an integer stays as it is. -/
def Key.lower : Key → Key
  | .int n => .int n
  | .text s => .text (String.ofList (s.toList.map Char.toLower))

namespace Hashing

/-- The hash function a name stands for. -/
def apply (hashing : Hashing) (key : Key) : UInt32 :=
  match hashing with
  | .constant hash => hash
  | .djb2 => key.djb2
  | .djb2Lower => key.lower.djb2
  | .identity =>
    match key with
    | .int n => n.toUInt32
    | .text _ => 0
  | .byteLength => UInt32.ofNat key.bytes.length
  | .firstByte => (key.bytes.head?.getD 0).toUInt32

end Hashing

namespace Sameness

/-- The test a name stands for, given the key asked for and the key stored. -/
def apply (sameness : Sameness) (asked stored : Key) : Bool :=
  match sameness with
  | .equal => decide (asked = stored)
  | .never => false
  | .always => true
  | .atMost => asked.le stored
  | .congruent modulus =>
    match asked, stored with
    | .int a, .int b => decide (a.toInt % modulus = b.toInt % modulus)
    | _, _ => false
  | .ignoringCase => decide (asked.lower = stored.lower)
  | .beginning => asked.bytes.isPrefixOf stored.bytes

end Sameness

namespace Keying

def named (hashing : Hashing) (sameness : Sameness) : Keying Key where
  hash := hashing.apply
  same := sameness.apply

/-- The keying of a builder: its folded hash and plain equality. -/
def ofBuilder (builder : Builder) : Keying Key where
  hash key := builder.hash key.feed
  same asked stored := decide (asked = stored)

end Keying

end ChainTable
