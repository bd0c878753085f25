import ChainTable.Fault

/-! # The log

What a table reports about itself: resizes that succeeded, failed or were
postponed, and cursors opened and closed.  A record keeps the numbers; its level
and text are derived.
-/

namespace ChainTable

inductive Level where
  | trace
  | debug
  | warn
  deriving DecidableEq, Repr

/-- One record of the log. -/
inductive Record where
  -- The table went from `before` to `after` buckets, holding `entries` entries.
  | resized (before after entries : Nat)
  -- A resize from `before` to `after` buckets failed on a refused reservation.
  | resizeFailed (before after : Nat) (refused : Reservation)
  -- A removal would have shrunk the table, but cursors were open.
  | shrinkPostponed (cursors entries buckets : Nat)
  -- A cursor was opened; `live` cursors are open now.
  | cursorOpened (live : Nat)
  -- A cursor was closed; `live` cursors are open now.
  | cursorClosed (live : Nat)
  deriving DecidableEq, Repr

namespace Record

def level : Record → Level
  | .resized .. => .debug
  | .resizeFailed .. => .warn
  | .shrinkPostponed .. => .debug
  | .cursorOpened .. => .trace
  | .cursorClosed .. => .trace

def numeral (n : Nat) : String := String.ofList (Decimal.ofNat n)

def text : Record → String
  | .resized before after entries =>
    "resized hash table from " ++ numeral before ++ " to " ++ numeral after ++ " buckets ("
      ++ numeral entries ++ " entries)"
  | .resizeFailed before after refused =>
    "failed to resize hash table from " ++ numeral before ++ " to " ++ numeral after
      ++ " buckets: " ++ refused.refusal
  | .shrinkPostponed cursors entries buckets =>
    "shrink of hash table postponed: " ++ numeral cursors ++ " cursor(s) open ("
      ++ numeral entries ++ " entries, " ++ numeral buckets ++ " buckets)"
  | .cursorOpened live => "cursor opened; " ++ numeral live ++ " live"
  | .cursorClosed live => "cursor closed; " ++ numeral live ++ " live"

end Record

end ChainTable
