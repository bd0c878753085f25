import ChainTable.Text.Decimal

/-! # Why a call ends without an answer

Three causes: storage was refused, the caller broke the rules of cursors, or the
table found its own records inconsistent.  The first leaves an ordinary error
behind, the other two stop the call where it stands.
-/

namespace ChainTable

inductive Purpose where
  | buckets
  | counters
  | slots
  deriving DecidableEq, Repr

def Purpose.name : Purpose → String
  | .buckets => "buckets"
  | .counters => "rehash counters"
  | .slots => "bucket slots"

/-- A request for room for `amount` more elements of one purpose. -/
structure Reservation where
  purpose : Purpose
  amount : Nat
  deriving DecidableEq, Repr

def Reservation.refusal (r : Reservation) : String :=
  "cannot allocate " ++ r.purpose.name ++ ": " ++ String.ofList (Decimal.ofNat r.amount)
    ++ " more element(s) requested"

/-- The calls a table refuses while a cursor is open on it. -/
inductive QuietCall where
  | insert
  | clear
  deriving DecidableEq, Repr

def QuietCall.phrase : QuietCall → String
  | .insert => "insert into"
  | .clear => "clear"

/-- A breach of the rules of cursors by the caller. -/
inductive Misuse where
  -- A call that needs a table without open cursors met one with `cursors` of them.
  | whileOpen (call : QuietCall) (cursors : Nat)
  -- A cursor was handed to a table that did not open it.
  | foreignCursor
  -- A cursor was used that is not open any more.
  | staleCursor
  -- A cursor was closed that is not open any more.
  | closedTwice
  -- A cursor was given up without being closed.
  | abandonedCursor
  -- A table was given up with `cursors` cursors open.
  | abandonedTable (cursors : Nat)
  deriving DecidableEq, Repr

def Misuse.message : Misuse → String
  | .whileOpen call cursors =>
    "cannot " ++ call.phrase ++ " a hash table while " ++ String.ofList (Decimal.ofNat cursors)
      ++ " cursor(s) are open"
  | .foreignCursor => "cursor belongs to a different hash table"
  | .staleCursor => "cursor is not open on this hash table"
  | .closedTwice => "cursor closed more than once"
  | .abandonedCursor => "Cursor dropped without close_iterator"
  | .abandonedTable cursors =>
    "hash table dropped while " ++ String.ofList (Decimal.ofNat cursors)
      ++ " cursor(s) are open"

/-- A failed check of the table's own records. -/
inductive Breach where
  -- A resize began while a cursor was open.
  | resizeWhileOpen
  -- A resize aimed below the least capacity.
  | belowLeastCapacity
  -- An entry found no reserved room in its new bucket.
  | noRoom
  -- After a resize the directory holds another number of entries than recorded.
  | miscounted
  -- An entry was put back into a slot that is not vacant.
  | slotTaken
  -- A location designates no slot.
  | slotMissing
  -- A slot that should hold an entry is vacant.
  | slotVacant
  -- The recorded number of entries would fall below zero.
  | sizeUnderflow
  -- An iterator met more entries than were recorded.
  | iteratorUnderflow
  deriving DecidableEq, Repr

def Breach.message : Breach → String
  | .resizeWhileOpen => "resize with an open cursor"
  | .belowLeastCapacity => "resize below the least capacity"
  | .noRoom => "no reserved room for a rehashed entry"
  | .miscounted => "entries lost or gained by a resize"
  | .slotTaken => "entry restored to an occupied slot"
  | .slotMissing => "location outside the directory"
  | .slotVacant => "entry expected in a vacant slot"
  | .sizeUnderflow => "number of entries below zero"
  | .iteratorUnderflow => "iterator met more entries than recorded"

inductive Fault where
  | refused (reservation : Reservation)
  | misuse (cause : Misuse)
  | breach (cause : Breach)
  deriving DecidableEq, Repr

def Fault.message : Fault → String
  | .refused reservation => reservation.refusal
  | .misuse cause => cause.message
  | .breach cause => cause.message

end ChainTable
