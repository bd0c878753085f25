import ChainTable.Table.Slots

/-! # Cursors on a table

A cursor walks the slots in bucket-then-slot order without holding the table:
between two steps entries may be removed and values changed.  It stands before
the first entry, on a slot, or behind the last one.  A cursor of another table is
refused before anything else is looked at.
-/

namespace ChainTable.Table

variable {K V : Type}

def openCursor : Call K V Cursor := do
  let t ← Call.table
  let (c, cursors) := t.cursors.opened
  Call.update fun t => { t with cursors }
  Call.emit (.cursorOpened cursors.live)
  pure c

def closeCursor (c : Cursor) : Call K V Unit := do
  let t ← Call.table
  match t.cursors.standing c with
  | .error .staleCursor => Call.fail (.misuse .closedTwice)
  | .error cause => Call.fail (.misuse cause)
  | .ok _ =>
    let cursors := t.cursors.closed c
    Call.update fun t => { t with cursors }
    Call.emit (.cursorClosed cursors.live)

def standing (c : Cursor) : Call K V Position := do
  let t ← Call.table
  Call.ofMisuse (t.cursors.standing c)

def stand (c : Cursor) (position : Position) : Call K V Unit :=
  Call.update fun t => { t with cursors := t.cursors.moved c position }

/-- Moves a cursor to the first occupied slot at `start` or behind it, or behind the
last entry, and answers the pair it now stands on. -/
def standFrom (c : Cursor) (start : Location) : Call K V (Option (K × V)) := do
  let t ← Call.table
  match t.directory.seek start with
  | some loc =>
    stand c (.on loc)
    let e ← entryAt loc
    pure (some e.pair)
  | none =>
    stand c .exhausted
    pure none

/-- Moves a cursor to the next entry and answers its pair, or nothing once all
buckets have been passed. -/
def advance (c : Cursor) : Call K V (Option (K × V)) := do
  match ← standing c with
  | .beforeFirst => standFrom c ⟨0, 0⟩
  | .on loc => standFrom c ⟨loc.bucket, loc.slot + 1⟩
  | .exhausted => pure none

/-- Replaces the value under a cursor, answering the former one; nothing happens if
the cursor stands on no live entry. -/
def setCurrent (c : Cursor) (value : V) : Call K V (Option V) := do
  match ← standing c with
  | .on loc =>
    match ← slotAt loc with
    | some _ => some <$> writeValue loc value
    | none => pure none
  | _ => pure none

/-- Removes the entry under a cursor, answering its pair; the cursor keeps its place. -/
def removeCurrent (c : Cursor) : Call K V (Option (K × V)) := do
  match ← standing c with
  | .on loc =>
    match ← slotAt loc with
    | some _ =>
      let e ← vacate loc
      pure (some e.pair)
    | none => pure none
  | _ => pure none

end ChainTable.Table
