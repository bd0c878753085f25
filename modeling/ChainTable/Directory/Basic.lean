import ChainTable.Bucket
import ChainTable.Keying

/-! # The directory of buckets

A directory is an array of buckets; its size is the table's capacity.  The entry
with routing hash `h` lives in bucket `h % capacity`.  A location names a slot by
bucket and slot number.
-/

namespace ChainTable

variable {K V : Type}

structure Location where
  bucket : Nat
  slot : Nat
  deriving DecidableEq, Repr

abbrev Directory (K V : Type) := Array (Bucket K V)

namespace Directory

def blank (capacity : Nat) : Directory K V := Array.replicate capacity []

/-- The bucket for a routing hash in a directory of `capacity` buckets. -/
def home (hash : UInt32) (capacity : Nat) : Nat := hash.toNat % capacity

/-- Bucket number `i`; a bucket without slots if there is none. -/
def bucketAt (d : Directory K V) (i : Nat) : Bucket K V := d[i]?.getD []

def slotAt? (d : Directory K V) (loc : Location) : Option (Slot K V) :=
  (d.bucketAt loc.bucket)[loc.slot]?

def setSlot (d : Directory K V) (loc : Location) (slot : Slot K V) : Directory K V :=
  d.modify loc.bucket fun bucket => bucket.set loc.slot slot

def entries (d : Directory K V) : List (Entry K V) := d.toList.flatMap Bucket.entries

def occupied (d : Directory K V) : Nat :=
  d.toList.foldr (fun bucket count => bucket.occupied + count) 0

/-- Whether an entry answers to a key: its stored hash is the key's routing hash
and the two keys are the same to `keying`. -/
def answers (keying : Keying K) (key : K) (e : Entry K V) : Bool :=
  e.hash == keying.route key && keying.same key e.key

/-- The first slot of the key's bucket whose entry answers to the key. -/
def locate (keying : Keying K) (key : K) (d : Directory K V) : Option Location :=
  let i := home (keying.route key) d.size
  (Bucket.position? (answers keying key) (d.bucketAt i)).map (Location.mk i)

def store (e : Entry K V) (d : Directory K V) : Directory K V :=
  d.modify (home e.hash d.size) (Bucket.store e)

def vacated (d : Directory K V) : Directory K V := d.map Bucket.vacated

/-- The first occupied slot of the `count` buckets numbered from `i` on, starting in
the first of them at slot `start`. -/
def seekAmong (d : Directory K V) : (count i start : Nat) → Option Location
  | 0, _, _ => none
  | count + 1, i, start =>
    match (d.bucketAt i).seek start with
    | some s => some ⟨i, s⟩
    | none => seekAmong d count (i + 1) 0

def seek (d : Directory K V) (loc : Location) : Option Location :=
  d.seekAmong (d.size - loc.bucket) loc.bucket loc.slot

/-! ## What each operation keeps -/

theorem home_lt (hash : UInt32) {capacity : Nat} (positive : 0 < capacity) :
    home hash capacity < capacity :=
  Nat.mod_lt _ positive

@[simp] theorem size_blank (capacity : Nat) :
    (blank capacity : Directory K V).size = capacity := by
  simp [blank]

@[simp] theorem size_setSlot (d : Directory K V) (loc : Location) (slot : Slot K V) :
    (d.setSlot loc slot).size = d.size := by
  simp [setSlot]

@[simp] theorem size_store (e : Entry K V) (d : Directory K V) : (d.store e).size = d.size := by
  simp [store]

@[simp] theorem size_vacated (d : Directory K V) : d.vacated.size = d.size := by
  simp [vacated]

@[simp] theorem entries_vacated (d : Directory K V) : d.vacated.entries = [] := by
  simp [entries, vacated]

theorem occupied_eq_length_entries (d : Directory K V) : d.occupied = d.entries.length := by
  obtain ⟨buckets⟩ := d
  induction buckets with
  | nil => rfl
  | cons bucket rest ih =>
    simp only [occupied, entries, List.foldr_cons, List.flatMap_cons, List.length_append,
      Bucket.occupied_eq_length_entries] at ih ⊢
    rw [ih]

end Directory

end ChainTable
