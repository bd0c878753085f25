import ChainTable.Table.Cursors
import ChainTable.Table.Insert
import ChainTable.Table.Iterator
import ChainTable.Table.Modify
import ChainTable.Table.Remove

/-! # Requests and actions

Every call of a table as data.  A `Request` is a call that needs no cursor, a
`CursorRequest` one that is made through a cursor.  An `Action` is any call: a
request, or a request through a given handle, or the opening or closing of a
cursor.  Running an action gives an `Answer`.
-/

namespace ChainTable

variable {K V : Type}

/-- A call of a table that needs no cursor. -/
inductive Request (K V : Type) where
  | insert (key : K) (value : V)
  | exchange (key : K) (value : V)
  | remove (key : K)
  | extract (key : K)
  | lookup (key : K)
  | modify (key : K) (f : V → V)
  | contains (key : K)
  | isEmpty
  | clear
  | keys
  | iterate (limit : Option Nat)
  | reviseEach (limit : Option Nat) (f : Nat → V → V)

/-- A call of a table through one of its cursors. -/
inductive CursorRequest (V : Type) where
  | advance
  | setCurrent (value : V)
  | removeCurrent

inductive Action (K V : Type) where
  | ask (request : Request K V)
  | openCursor
  | steer (c : Cursor) (request : CursorRequest V)
  | closeCursor (c : Cursor)

inductive Answer (K V : Type) where
  | outcome (outcome : Outcome)
  | pair (pair : Option (K × V))
  | value (value : Option V)
  | flag (flag : Bool)
  | keys (keys : List K)
  | listing (listing : Listing K V)
  | cursor (c : Cursor)
  | done
  deriving DecidableEq

/-- The request that changes the values of a table, at most `limit` of them, all by `f`. -/
def Request.updateEach (limit : Option Nat) (f : V → V) : Request K V :=
  .reviseEach limit fun _ => f

def Request.run (keying : Keying K) : Request K V → Call K V (Answer K V)
  | .insert key value => Answer.outcome <$> Table.insert keying key value
  | .exchange key value => Answer.pair <$> Table.exchange keying key value
  | .remove key => Answer.flag <$> Table.remove keying key
  | .extract key => Answer.pair <$> Table.extract keying key
  | .lookup key => do
    let t ← Call.table
    pure (.value (t.lookup keying key))
  | .modify key f => Answer.value <$> Table.modify keying key f
  | .contains key => do
    let t ← Call.table
    pure (.flag (t.contains keying key))
  | .isEmpty => do
    let t ← Call.table
    pure (.flag t.isEmpty)
  | .clear => do
    Table.clear
    pure .done
  | .keys => Answer.keys <$> Table.keys
  | .iterate limit => Answer.listing <$> Table.iterate limit
  | .reviseEach limit f => Answer.listing <$> Table.reviseEach limit f

def CursorRequest.run (c : Cursor) : CursorRequest V → Call K V (Answer K V)
  | .advance => Answer.pair <$> Table.advance c
  | .setCurrent value => Answer.value <$> Table.setCurrent c value
  | .removeCurrent => Answer.pair <$> Table.removeCurrent c

def Action.run (keying : Keying K) : Action K V → Call K V (Answer K V)
  | .ask request => request.run keying
  | .openCursor => Answer.cursor <$> Table.openCursor
  | .steer c request => request.run c
  | .closeCursor c => do
    Table.closeCursor c
    pure .done

end ChainTable
