/-! # Slots and buckets

A slot is vacant or holds an entry: a key, a value and the routing hash the key
had when it came in.  A bucket is a list of slots.  Taking an entry out leaves a
vacant slot behind, which the next entry stored in the bucket fills; slots are
never moved, and only an unfilled bucket of full slots grows, by one.
-/

namespace ChainTable

variable {K V : Type}

/-- A stored key and value with the key's routing hash. -/
structure Entry (K V : Type) where
  key : K
  value : V
  hash : UInt32
  deriving DecidableEq

def Entry.pair (e : Entry K V) : K × V := (e.key, e.value)

/-- A place for one entry; `none` is a vacant slot. -/
abbrev Slot (K V : Type) := Option (Entry K V)

abbrev Bucket (K V : Type) := List (Slot K V)

namespace Bucket

/-- The first slot whose entry satisfies `p`. -/
def position? (p : Entry K V → Bool) (bucket : Bucket K V) : Option Nat :=
  bucket.findIdx? fun slot => slot.any p

def hasVacancy (bucket : Bucket K V) : Bool := bucket.any Option.isNone

/-- Puts an entry into the first vacant slot, or behind the last slot. -/
def store (e : Entry K V) : Bucket K V → Bucket K V
  | [] => [some e]
  | none :: rest => some e :: rest
  | some other :: rest => some other :: store e rest

def entries (bucket : Bucket K V) : List (Entry K V) := bucket.filterMap id

def occupied (bucket : Bucket K V) : Nat := bucket.countP Option.isSome

def vacated (bucket : Bucket K V) : Bucket K V := bucket.map fun _ => none

/-- The first occupied slot from slot `start` on. -/
def seek (start : Nat) (bucket : Bucket K V) : Option Nat :=
  ((bucket.drop start).findIdx? Option.isSome).map (start + ·)

/-! ## What each operation does to the entries -/

@[simp] theorem entries_nil : entries ([] : Bucket K V) = [] := rfl

@[simp] theorem entries_vacant_cons (rest : Bucket K V) :
    entries (none :: rest) = entries rest := rfl

@[simp] theorem entries_occupied_cons (e : Entry K V) (rest : Bucket K V) :
    entries (some e :: rest) = e :: entries rest := rfl

@[simp] theorem entries_vacated (bucket : Bucket K V) : bucket.vacated.entries = [] := by
  simp [entries, vacated]

theorem occupied_eq_length_entries (bucket : Bucket K V) :
    bucket.occupied = bucket.entries.length := by
  induction bucket with
  | nil => rfl
  | cons slot rest ih =>
    cases slot with
    | none => simpa [occupied] using ih
    | some e => simpa [occupied] using ih

theorem entries_store_perm (e : Entry K V) (bucket : Bucket K V) :
    (bucket.store e).entries.Perm (e :: bucket.entries) := by
  induction bucket with
  | nil => exact .refl _
  | cons slot rest ih =>
    cases slot with
    | none => exact .refl _
    | some other => exact (ih.cons other).trans (.swap e other _)

/-- Storing takes a new slot exactly where none is vacant. -/
theorem length_store (e : Entry K V) (bucket : Bucket K V) :
    (bucket.store e).length = if bucket.hasVacancy then bucket.length else bucket.length + 1 := by
  induction bucket with
  | nil => rfl
  | cons slot rest ih =>
    cases slot with
    | none => simp [store, hasVacancy]
    | some other =>
      simp only [hasVacancy, List.any_cons, Option.isNone_some, Bool.false_or] at ih ⊢
      simp only [store, List.length_cons, ih]
      by_cases vacancy : rest.any Option.isNone = true <;> simp [vacancy]

@[simp] theorem length_vacated (bucket : Bucket K V) : bucket.vacated.length = bucket.length := by
  simp [vacated]

end Bucket

end ChainTable
