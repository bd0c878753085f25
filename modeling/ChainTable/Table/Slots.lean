import ChainTable.Call

/-! # Reading and writing single slots

The steps the longer calls are made of: read the entry at a location, take it out,
put one back, and keep count.  Each checks what it relies on.
-/

namespace ChainTable.Table

variable {K V : Type}

def slotAt (loc : Location) : Call K V (Slot K V) := do
  let t ← Call.table
  match t.directory.slotAt? loc with
  | some slot => pure slot
  | none => Call.fail (.breach .slotMissing)

def writeSlot (loc : Location) (slot : Slot K V) : Call K V Unit :=
  Call.update fun t => { t with directory := t.directory.setSlot loc slot }

/-- The entry at a location that is known to be occupied. -/
def entryAt (loc : Location) : Call K V (Entry K V) := do
  match ← slotAt loc with
  | some e => pure e
  | none => Call.fail (.breach .slotVacant)

def countIn : Call K V Unit := Call.update fun t => { t with size := t.size + 1 }

def countOut : Call K V Unit := do
  let t ← Call.table
  Call.check (0 < t.size) .sizeUnderflow
  Call.update fun t => { t with size := t.size - 1 }

def vacate (loc : Location) : Call K V (Entry K V) := do
  let e ← entryAt loc
  writeSlot loc none
  countOut
  pure e

/-- Puts an entry back into the slot it was vacated from and counts it in. -/
def restore (loc : Location) (e : Entry K V) : Call K V Unit := do
  let slot ← slotAt loc
  Call.check slot.isNone .slotTaken
  writeSlot loc (some e)
  countIn

def writeValue (loc : Location) (value : V) : Call K V V := do
  let e ← entryAt loc
  writeSlot loc (some { e with value })
  pure e.value

def refuseWhileOpen (call : QuietCall) : Call K V Unit := do
  let t ← Call.table
  if t.isQuiet then pure () else Call.fail (.misuse (.whileOpen call t.liveCursors))

end ChainTable.Table
