import ChainTable.Request

/-! # Sessions: several tables and the cursors held

A session is a row of tables and the cursor handles the caller holds, each under an
integer of the caller's choice as its name.  Handles are never copied: a handle comes from an
open, and closing or dropping the cursor uses it up, also where the close is
refused because the table is not the cursor's own.  A table may be given up; its
cursors are then foreign everywhere.

A step that speaks of a table or a cursor that is not there is no step at all
(`none`).
-/

namespace ChainTable

variable {K V α : Type}

/-- Several tables and the cursors held. -/
structure Session (K V : Type) where
  -- The tables; `none` where a table was given up.
  tables : List (Option (Table K V))
  -- The handles held, by name.
  held : List (Int × Cursor)
  deriving DecidableEq

inductive Step (K V : Type) where
  -- A call of a table with an allowance of reservations.
  | ask (table : Nat) (allowance : Option Nat) (request : Request K V)
  -- Opens a cursor and holds it under a name.
  | openCursor (table : Nat) (name : Int)
  -- A call of a table through a cursor, which need not be the table's own.
  | steer (table : Nat) (name : Int) (request : CursorRequest V)
  -- Hands a cursor back to a table.
  | closeCursor (table : Nat) (name : Int)
  -- Gives a cursor up without closing it, be it in the course of a failure.
  | dropCursor (name : Int) (failing : Bool)
  -- Gives a table up, be it in the course of a failure.
  | dropTable (table : Nat) (failing : Bool)

namespace Session

/-- A session of `count` new tables, numbered from 1, and no cursors. -/
def start (count : Nat) : Session K V where
  tables := (List.range count).map fun i => some (Table.new (i + 1))
  held := []

def tableAt? (s : Session K V) (i : Nat) : Option (Table K V) := s.tables[i]?.join

def cursor? (s : Session K V) (name : Int) : Option Cursor := s.held.lookup name

def release (s : Session K V) (name : Int) : Session K V :=
  { s with held := s.held.filter fun handle => handle.1 != name }

def perform (s : Session K V) (i : Nat) (allowance : Option Nat) (call : Call K V α) :
    Option (Reply α × Session K V) :=
  (s.tableAt? i).map fun t =>
    let (reply, t) := call.perform allowance t
    (reply, { s with tables := s.tables.set i (some t) })

def act (keyings : Nat → Keying K) (s : Session K V) (i : Nat) (allowance : Option Nat)
    (action : Action K V) : Option (Reply (Answer K V) × Session K V) :=
  s.perform i allowance (action.run (keyings i))

/-- Holds the handle that was answered, if one was, under a name. -/
def hold (name : Int) (result : Reply (Answer K V) × Session K V) :
    Reply (Answer K V) × Session K V :=
  match result.1.answer with
  | .ok (.cursor c) => (result.1, { result.2 with held := (name, c) :: result.2.held })
  | _ => result

/-- The reply to giving something up: a misuse if there is one, unless a failure is
already under way. -/
def farewell (failing : Bool) (misuse : Option Misuse) : Reply (Answer K V) :=
  match misuse with
  | some cause => ⟨if failing then .ok .done else .error (.misuse cause), [], []⟩
  | none => ⟨.ok .done, [], []⟩

/-- Gives up the cursor held under a name; its table goes on counting it. -/
def dropCursor (s : Session K V) (name : Int) (failing : Bool) :
    Option (Reply (Answer K V) × Session K V) :=
  (s.cursor? name).map fun _ => (farewell failing (some .abandonedCursor), s.release name)

def dropTable (s : Session K V) (i : Nat) (failing : Bool) :
    Option (Reply (Answer K V) × Session K V) :=
  (s.tableAt? i).map fun t =>
    let misuse := if t.isQuiet then none else some (.abandonedTable t.liveCursors)
    (farewell failing misuse, { s with tables := s.tables.set i none })

/-- One step of a session whose table number `i` works with `keyings i`. -/
def step (keyings : Nat → Keying K) (s : Session K V) :
    Step K V → Option (Reply (Answer K V) × Session K V)
  | .ask i allowance request => s.act keyings i allowance (.ask request)
  | .openCursor i name =>
    if (s.cursor? name).isSome then none
    else (s.act keyings i none .openCursor).map (hold name)
  | .steer i name request =>
    (s.cursor? name).bind fun c => s.act keyings i none (.steer c request)
  | .closeCursor i name =>
    (s.cursor? name).bind fun c => (s.release name).act keyings i none (.closeCursor c)
  | .dropCursor name failing => s.dropCursor name failing
  | .dropTable i failing => s.dropTable i failing

end Session

end ChainTable
