import ChainTable.Table.Cursors
import ChainTable.Table.Iterator
import ChainTable.Table.Remove

/-! # Walking a table with a cursor of its own

A walk opens a cursor, visits every entry, and closes the cursor.  At each entry a
plan says whether its value is revised, whether it is removed, and which other key
is removed; what happened is noted.
-/

namespace ChainTable.Bulk

variable {K V : Type}

/-- What to do at the entries of a walk; the masks speak of the entry's number modulo 8. -/
structure WalkPlan (K V : Type) where
  -- The entries whose value is revised.
  setMask : Nat
  -- The entries that are removed.
  removeMask : Nat
  -- How a value is revised.
  revise : V → V
  -- A value to write at an entry just removed, in vain.
  filler : V
  -- A key to remove at each entry, as far as they go.
  victims : List K

inductive WalkNote (K V : Type) where
  | set (former : Option V)
  | removed (pair : Option (K × V))
  | setAfter (former : Option V)
  | victim (present : Bool)

structure WalkRow (K V : Type) where
  key : K
  value : V
  notes : List (WalkNote K V)

namespace WalkPlan

def marks (mask n : Nat) : Bool := mask.testBit (n % 8)

def noteSet (plan : WalkPlan K V) (c : Cursor) (n : Nat) (value : V) :
    Call K V (List (WalkNote K V)) := do
  if marks plan.setMask n then
    let former ← Table.setCurrent c (plan.revise value)
    pure [.set former]
  else pure []

/-- Removes entry number `n` if the plan says so: through the cursor if `n` is even, by
its key if `n` is odd; then writes a value in vain. -/
def noteRemoved (plan : WalkPlan K V) (keying : Keying K) (c : Cursor) (n : Nat) (key : K) :
    Call K V (List (WalkNote K V)) := do
  if marks plan.removeMask n then
    let pair ← if n % 2 = 0 then Table.removeCurrent c else Table.extract keying key
    let former ← Table.setCurrent c plan.filler
    pure [.removed pair, .setAfter former]
  else pure []

/-- Removes the key the plan names for entry number `n`, if it names one. -/
def noteVictim (plan : WalkPlan K V) (keying : Keying K) (n : Nat) :
    Call K V (List (WalkNote K V)) := do
  match plan.victims[n]? with
  | some victim =>
    let present ← Table.remove keying victim
    pure [.victim present]
  | none => pure []

/-- Visits the entries from number `n` on, at most `steps` of them. -/
def visit (plan : WalkPlan K V) (keying : Keying K) (c : Cursor) :
    (steps n : Nat) → Call K V (List (WalkRow K V))
  | 0, _ => pure []
  | steps + 1, n => do
    match ← Table.advance c with
    | none => pure []
    | some (key, value) =>
      let set ← plan.noteSet c n value
      let removed ← plan.noteRemoved keying c n key
      let victim ← plan.noteVictim keying n
      let rows ← visit plan keying c steps (n + 1)
      pure (⟨key, value, set ++ removed ++ victim⟩ :: rows)

end WalkPlan

def walk (keying : Keying K) (plan : WalkPlan K V) : Call K V (List (WalkRow K V)) := do
  let c ← Table.openCursor
  let t ← Call.table
  let rows ← plan.visit keying c t.stepsToEnd 0
  Table.closeCursor c
  pure rows

def advanceMany (c : Cursor) : (count : Nat) → Call K V (List (Option (K × V)))
  | 0 => pure []
  | count + 1 => do
    let pair ← Table.advance c
    let pairs ← advanceMany c count
    pure (pair :: pairs)

end ChainTable.Bulk
