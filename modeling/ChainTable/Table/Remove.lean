import ChainTable.Table.Resize

/-! # Removal

Removal by key vacates the slot.  A table that has become sparse is halved at
once; with a cursor open this is put off to a later removal, and where storage is
refused the removal is undone.  `clear` vacates all slots and refuses while a
cursor is open.
-/

namespace ChainTable.Table

variable {K V : Type}

/-- Halves a sparse table after the entry `e` was vacated at `loc`. -/
def shrinkIfSparse (loc : Location) (e : Entry K V) : Call K V Unit := do
  let t ← Call.table
  if t.isSparse then
    if t.isQuiet then
      match ← resize (t.capacity / 2) with
      | some refused =>
        restore loc e
        Call.fail (.refused refused)
      | none => pure ()
    else Call.emit (.shrinkPostponed t.liveCursors t.size t.capacity)
  else pure ()

def extract (keying : Keying K) (key : K) : Call K V (Option (K × V)) := do
  let t ← Call.table
  match t.locate keying key with
  | some loc =>
    let e ← vacate loc
    shrinkIfSparse loc e
    pure (some e.pair)
  | none => pure none

def remove (keying : Keying K) (key : K) : Call K V Bool := do
  let pair ← extract keying key
  pure pair.isSome

/-- Removes every entry; all slots stay and the capacity does not change. -/
def clear : Call K V Unit := do
  refuseWhileOpen .clear
  Call.update fun t => { t with directory := t.directory.vacated, size := 0 }

end ChainTable.Table
