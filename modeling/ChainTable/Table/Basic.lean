import ChainTable.Directory.Basic
import ChainTable.Registry

/-! # Tables

A table is a directory of buckets, the recorded number of entries, and the
registry of the cursors open on it.  This module holds what can be read off a
table; a lookup needs the table's keying and looks at one bucket only.
-/

namespace ChainTable

variable {K V : Type}

/-- The number of buckets of a new table, below which no resize goes. -/
def leastCapacity : Nat := 4

/-- A separately chained hash table. -/
structure Table (K V : Type) where
  -- The buckets.
  directory : Directory K V
  -- The recorded number of entries.
  size : Nat
  -- The open cursors.
  cursors : Registry
  deriving DecidableEq

namespace Table

def new (owner : Nat) : Table K V where
  directory := Directory.blank leastCapacity
  size := 0
  cursors := Registry.new owner

def capacity (t : Table K V) : Nat := t.directory.size

def isEmpty (t : Table K V) : Bool := t.size == 0

def liveCursors (t : Table K V) : Nat := t.cursors.live

def isQuiet (t : Table K V) : Bool := t.liveCursors == 0

def locate (keying : Keying K) (key : K) (t : Table K V) : Option Location :=
  t.directory.locate keying key

def entryAt? (t : Table K V) (loc : Location) : Option (Entry K V) :=
  (t.directory.slotAt? loc).join

def lookup (keying : Keying K) (key : K) (t : Table K V) : Option V :=
  (t.locate keying key).bind fun loc => (t.entryAt? loc).map Entry.value

def contains (keying : Keying K) (key : K) (t : Table K V) : Bool :=
  (t.locate keying key).isSome

/-- Whether the table is due to grow before the next entry comes in. -/
def isFull (t : Table K V) : Bool := t.capacity ≤ t.size

/-- Whether the table is due to shrink after an entry went out. -/
def isSparse (t : Table K V) : Bool := leastCapacity < t.capacity && t.size * 4 ≤ t.capacity

end Table

end ChainTable
