import ChainTable.Table.Slots

/-! # Changing a value in place

The value stored for a key can be changed where it is; this never moves an entry
and is allowed while cursors are open.
-/

namespace ChainTable.Table

variable {K V : Type}

/-- Applies `f` to the value stored for a key, handing back the former value. -/
def modify (keying : Keying K) (key : K) (f : V → V) : Call K V (Option V) := do
  let t ← Call.table
  match t.locate keying key with
  | some loc =>
    let e ← entryAt loc
    some <$> writeValue loc (f e.value)
  | none => pure none

end ChainTable.Table
