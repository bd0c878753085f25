import ChainTable.Directory.Rehash
import ChainTable.Table.Slots

/-! # Resizing

All storage a resize takes is asked for before the first entry moves, so a refused
reservation leaves the directory as it was.  Either outcome is logged.
-/

namespace ChainTable.Table

variable {K V : Type}

def rebuild (capacity : Nat) : Call K V Unit := do
  let t ← Call.table
  let directory ← Call.ofBreach (Directory.rehash capacity t.directory.entries)
  Call.update fun t => { t with directory }
  Call.check (directory.occupied == t.size) .miscounted

/-- Resizes the table to `capacity` buckets; the answer is the reservation that was
refused, if one was. -/
def resize (capacity : Nat) : Call K V (Option Reservation) := do
  let t ← Call.table
  Call.check t.isQuiet .resizeWhileOpen
  Call.check (leastCapacity ≤ capacity) .belowLeastCapacity
  match ← Call.reserveAll (Directory.reservations capacity t.directory.entries) with
  | some refused =>
    Call.emit (.resizeFailed t.capacity capacity refused)
    pure (some refused)
  | none =>
    rebuild capacity
    Call.emit (.resized t.capacity capacity t.size)
    pure none

end ChainTable.Table
