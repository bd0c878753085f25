import ChainTable.Directory.Basic
import ChainTable.Fault

/-! # Cursors and their registry

A cursor is a handle: it names the table that opened it, a place in that table's
registry, and the generation of the place.  The registry knows where every open
cursor stands.  A place freed by a close is taken again by the next open, most
recently freed first, under a new generation, so no handle is ever issued twice.
-/

namespace ChainTable

inductive Position where
  | beforeFirst
  | on (loc : Location)
  | exhausted
  deriving DecidableEq, Repr

/-- The handle of a cursor. -/
structure Cursor where
  -- The table that opened it.
  owner : Nat
  -- Its place in the table's registry, counted from 1.
  place : Nat
  -- The generation of the place it was opened in.
  generation : Nat
  deriving DecidableEq, Repr

/-- A place of a registry: its generation, and where its cursor stands if one is open. -/
structure Place where
  generation : Nat
  position : Option Position
  deriving DecidableEq, Repr

/-- The open cursors of one table. -/
structure Registry where
  -- The table's own number, carried by every cursor it opens.
  owner : Nat
  -- All places ever taken.
  places : List Place
  -- The indices of the free places, most recently freed first.
  free : List Nat
  deriving DecidableEq, Repr

namespace Registry

def new (owner : Nat) : Registry := ⟨owner, [], []⟩

def live (r : Registry) : Nat := r.places.countP fun place => place.position.isSome

/-- Opens a cursor before the first entry: in the place freed last, or in a new one. -/
def opened (r : Registry) : Cursor × Registry :=
  match r.free with
  | i :: free =>
    let generation := (r.places[i]?.map Place.generation).getD 0 + 2
    (⟨r.owner, i + 1, generation⟩,
      { r with places := r.places.set i ⟨generation, some .beforeFirst⟩, free })
  | [] =>
    (⟨r.owner, r.places.length + 1, 1⟩,
      { r with places := r.places ++ [⟨1, some .beforeFirst⟩] })

def position? (r : Registry) (c : Cursor) : Option Position :=
  if c.place = 0 then none
  else
    match r.places[c.place - 1]? with
    | some place => if place.generation = c.generation then place.position else none
    | none => none

def moved (r : Registry) (c : Cursor) (position : Position) : Registry :=
  { r with places := r.places.modify (c.place - 1) ({ · with position := some position }) }

def closed (r : Registry) (c : Cursor) : Registry :=
  { r with
    places := r.places.modify (c.place - 1) ({ · with position := none })
    free := (c.place - 1) :: r.free }

/-- Where the cursor stands, if the handle is this table's and open. -/
def standing (r : Registry) (c : Cursor) : Except Misuse Position :=
  if c.owner = r.owner then
    match r.position? c with
    | some position => .ok position
    | none => .error .staleCursor
  else .error .foreignCursor

end Registry

end ChainTable
