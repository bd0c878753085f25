import ChainTable.Directory.Basic
import ChainTable.Fault

/-! # Moving all entries into a new directory

A resize counts first, reserves second and moves last.  `tally` counts how many
entries every new bucket will receive, `reservations` lists the storage this
takes, and `rehash` moves the entries, each checked against the room its bucket
has left.
-/

namespace ChainTable

variable {K V : Type}

/-- A bucket being filled, with the number of slots it still has room for. -/
structure Berth (K V : Type) where
  -- The entries taken in, latest first.
  taken : List (Entry K V)
  room : Nat

namespace Berth

def ofRoom (room : Nat) : Berth K V := ⟨[], room⟩

def push (e : Entry K V) (berth : Berth K V) : Except Breach (Berth K V) :=
  if berth.room = 0 then .error .noRoom else .ok ⟨e :: berth.taken, berth.room - 1⟩

def bucket (berth : Berth K V) : Bucket K V := berth.taken.reverse.map some

end Berth

namespace Directory

/-- How many of the entries each of `capacity` buckets will receive. -/
def tally (capacity : Nat) (entries : List (Entry K V)) : Array Nat :=
  entries.foldl (fun counts e => counts.modify (home e.hash capacity) (· + 1))
    (Array.replicate capacity 0)

theorem size_tally (capacity : Nat) (entries : List (Entry K V)) :
    (tally capacity entries).size = capacity := by
  have counters : ∀ counts : Array Nat, (entries.foldl (fun counts e =>
      counts.modify (home e.hash capacity) (· + 1)) counts).size = counts.size := by
    induction entries with
    | nil => intro counts; rfl
    | cons e rest ih => intro counts; simp [ih]
  simp [tally, counters]

/-- The storage a resize to `capacity` buckets takes, in the order it is asked for:
the buckets, the counters, then the slots of each bucket that receives any. -/
def reservations (capacity : Nat) (entries : List (Entry K V)) : List Reservation :=
  ⟨.buckets, capacity⟩ :: ⟨.counters, capacity⟩ ::
    ((tally capacity entries).toList.filter (0 < ·)).map (Reservation.mk .slots)

def settle (e : Entry K V) (berths : Array (Berth K V)) : Except Breach (Array (Berth K V)) :=
  let i := home e.hash berths.size
  match berths[i]? with
  | none => .error .noRoom
  | some berth =>
    match berth.push e with
    | .error breach => .error breach
    | .ok berth => .ok (berths.setIfInBounds i berth)

def settleAll : List (Entry K V) → Array (Berth K V) → Except Breach (Array (Berth K V))
  | [], berths => .ok berths
  | e :: rest, berths =>
    match settle e berths with
    | .error breach => .error breach
    | .ok berths => settleAll rest berths

/-- The directory of `capacity` buckets that holds the given entries in order. -/
def rehash (capacity : Nat) (entries : List (Entry K V)) : Except Breach (Directory K V) :=
  (settleAll entries ((tally capacity entries).map Berth.ofRoom)).map (·.map Berth.bucket)

end Directory

end ChainTable
