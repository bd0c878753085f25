import ChainTable.Table.Resize

/-! # Insertion

Two ways to put a pair into a table.  `insert` keeps the stored key of an equal
key and replaces the value; it makes room before it looks.  `exchange` replaces
key and value, hands back the pair it displaced, and looks before it makes room,
so that a replacement never grows the table.  Either refuses while a cursor is
open.
-/

namespace ChainTable

inductive Outcome where
  -- The key was absent; an entry came in.
  | inserted
  -- An equal key was present; its value was replaced.
  | updated
  deriving DecidableEq, Repr

namespace Table

variable {K V : Type}

def growIfFull : Call K V Unit := do
  let t ← Call.table
  if t.isFull then
    match ← resize (t.capacity * 2) with
    | some refused => Call.fail (.refused refused)
    | none => pure ()
  else pure ()

/-- Stores a new entry, in the first vacant slot of its bucket or, if there is none,
in one more slot, for which room is asked. -/
def storeFresh (keying : Keying K) (key : K) (value : V) : Call K V Unit := do
  let t ← Call.table
  let hash := keying.route key
  let bucket := t.directory.bucketAt (Directory.home hash t.capacity)
  let wanted := if bucket.hasVacancy then [] else [⟨.slots, 1⟩]
  match ← Call.reserveAll wanted with
  | some refused => Call.fail (.refused refused)
  | none =>
    Call.update fun t => { t with directory := t.directory.store ⟨key, value, hash⟩ }
    countIn

/-- Replaces the value at a location, and the key as well if `replaceKey`, handing
over what the new pair displaced; the stored hash stays. -/
def replaceAt (loc : Location) (key : K) (value : V) (replaceKey : Bool) :
    Call K V (K × V) := do
  let e ← entryAt loc
  writeSlot loc (some { e with value, key := if replaceKey then key else e.key })
  pure (if replaceKey then e.key else key, e.value)

/-- Makes room, looks for the key, and replaces or stores. -/
def growAndPut (keying : Keying K) (key : K) (value : V) (replaceKey : Bool) :
    Call K V (Option (K × V)) := do
  growIfFull
  let t ← Call.table
  match t.locate keying key with
  | some loc => some <$> replaceAt loc key value replaceKey
  | none =>
    storeFresh keying key value
    pure none

/-- Inserts a pair; an equal stored key is kept and its value replaced. -/
def insert (keying : Keying K) (key : K) (value : V) : Call K V Outcome := do
  refuseWhileOpen .insert
  match ← growAndPut keying key value false with
  | some _ => pure .updated
  | none => pure .inserted

/-- Inserts a pair in place of the pair with an equal key, if there is one, which is
handed back. -/
def exchange (keying : Keying K) (key : K) (value : V) : Call K V (Option (K × V)) := do
  refuseWhileOpen .insert
  let t ← Call.table
  match t.locate keying key with
  | some loc => some <$> replaceAt loc key value true
  | none => growAndPut keying key value true

end Table

end ChainTable
