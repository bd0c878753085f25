/-! # The xor variant of djb2

A 32-bit hash of a list of bytes: from a fixed seed, every byte is absorbed by
multiplying the state by 33 modulo 2^32 and flipping its low bits with the byte.
It depends on nothing but the bytes, so routing is the same in every run.
-/

namespace ChainTable.Djb2

def seed : UInt32 := 5381

/-- One byte folded into the state; `(h <<< 5) + h` is `33 * h` modulo 2^32. -/
def absorb (h : UInt32) (byte : UInt8) : UInt32 := ((h <<< 5) + h) ^^^ byte.toUInt32

def absorbAll (h : UInt32) (bytes : List UInt8) : UInt32 := bytes.foldl absorb h

def hash (bytes : List UInt8) : UInt32 := absorbAll seed bytes

@[simp] theorem absorbAll_nil (h : UInt32) : absorbAll h [] = h := rfl

@[simp] theorem absorbAll_cons (h : UInt32) (byte : UInt8) (bytes : List UInt8) :
    absorbAll h (byte :: bytes) = absorbAll (absorb h byte) bytes := rfl

theorem absorbAll_append (h : UInt32) (front back : List UInt8) :
    absorbAll h (front ++ back) = absorbAll (absorbAll h front) back := by
  simp [absorbAll, List.foldl_append]

end ChainTable.Djb2
