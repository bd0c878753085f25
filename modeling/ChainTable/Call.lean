import ChainTable.Log
import ChainTable.Table.Basic

/-! # Calls on a table

A call reads and changes one table; besides, it asks for storage and writes log
records.  When it ends in a fault, what it had changed stays changed: the fault
and the state it left behind both belong to the outcome.

Storage is granted by an allowance, the number of reservations that are still to
succeed; without an allowance all of them do.
-/

namespace ChainTable

variable {K V α : Type}

/-- What a running call reads and changes. -/
structure Context (K V : Type) where
  table : Table K V
  -- The number of reservations still granted, `none` for all of them.
  allowance : Option Nat
  -- The reservations asked for, latest first.
  reservations : List Reservation
  -- The records written, latest first.
  log : List Record

abbrev Call (K V : Type) (α : Type) := EStateM Fault (Context K V) α

/-- What a finished call hands back besides the changed table. -/
structure Reply (α : Type) where
  answer : Except Fault α
  -- The reservations asked for, in order.
  reservations : List Reservation
  -- The records written, in order.
  log : List Record

namespace Call

def table : Call K V (Table K V) := fun c => .ok c.table c

def update (f : Table K V → Table K V) : Call K V Unit :=
  fun c => .ok () { c with table := f c.table }

def emit (record : Record) : Call K V Unit :=
  fun c => .ok () { c with log := record :: c.log }

def fail (fault : Fault) : Call K V α := fun c => .error fault c

/-- Stops at a breach unless `holds`. -/
def check (holds : Bool) (breach : Breach) : Call K V Unit :=
  if holds then pure () else fail (.breach breach)

/-- Asks for storage and tells whether it was granted. -/
def reserve (r : Reservation) : Call K V Bool := fun c =>
  let asked := { c with reservations := r :: c.reservations }
  match c.allowance with
  | none => .ok true asked
  | some 0 => .ok false asked
  | some (n + 1) => .ok true { asked with allowance := some n }

/-- Asks for several pieces of storage in order, up to the first that is refused,
which is the answer. -/
def reserveAll : List Reservation → Call K V (Option Reservation)
  | [] => pure none
  | r :: rest => do
    if ← reserve r then reserveAll rest else pure (some r)

def ofMisuse : Except Misuse α → Call K V α
  | .ok a => pure a
  | .error cause => fail (.misuse cause)

def ofBreach : Except Breach α → Call K V α
  | .ok a => pure a
  | .error cause => fail (.breach cause)

/-- Runs a call on a table. -/
def perform (call : Call K V α) (allowance : Option Nat) (t : Table K V) :
    Reply α × Table K V :=
  match call.run ⟨t, allowance, [], []⟩ with
  | .ok a c => (⟨.ok a, c.reservations.reverse, c.log.reverse⟩, c.table)
  | .error fault c => (⟨.error fault, c.reservations.reverse, c.log.reverse⟩, c.table)

end Call

end ChainTable
