/-! # Keying

What a table has to know about its keys: a 32-bit hash and a test of sameness.
Nothing is assumed about either; in particular the test need not be symmetric
and need not agree with the hash.
-/

namespace ChainTable

/-- The two functions a table works with. -/
structure Keying (K : Type) where
  -- The hash of a key.
  hash : K → UInt32
  -- The test of sameness, given the key asked for and a key stored.
  same : K → K → Bool

namespace Keying

variable {K : Type}

/-- The routing hash of a key: its hash, with 0 moved to 1. -/
def route (keying : Keying K) (key : K) : UInt32 :=
  if keying.hash key = 0 then 1 else keying.hash key

theorem route_ne_zero (keying : Keying K) (key : K) : keying.route key ≠ 0 := by
  unfold route
  split
  · decide
  · assumption

end Keying

end ChainTable
