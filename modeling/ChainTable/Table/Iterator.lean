import ChainTable.Table.Slots

/-! # Iterators

Two iterators over the live entries, both in bucket-then-slot order.  `Iter` reads:
it keeps the slots and buckets not yet passed.  `Sweep` changes every value it
passes: it keeps the location to go on from, and has a scan of its own.  Either counts
down from the recorded number of entries, so that its length is known before it ends.
-/

namespace ChainTable

variable {K V : Type}

def firstEntry : List (Slot K V) → Option (Entry K V × List (Slot K V))
  | [] => none
  | some e :: rest => some (e, rest)
  | none :: rest => firstEntry rest

/-- The first entry of some slots and the buckets behind them, with what is behind it. -/
def firstEntryAmong (slots : List (Slot K V)) :
    List (Bucket K V) → Option (Entry K V × List (Slot K V) × List (Bucket K V))
  | [] => (firstEntry slots).map fun (e, rest) => (e, rest, [])
  | bucket :: buckets =>
    match firstEntry slots with
    | some (e, rest) => some (e, rest, bucket :: buckets)
    | none => firstEntryAmong bucket buckets

structure Iter (K V : Type) where
  -- The slots of the present bucket still to pass.
  slots : List (Slot K V)
  -- The buckets still to pass.
  buckets : List (Bucket K V)
  -- The number of entries still to come.
  remaining : Nat

/-- What an iterator gave: its items, and its length at the start and behind each item. -/
structure Listing (K V : Type) where
  items : List (K × V)
  lengths : List Nat
  deriving DecidableEq

namespace Listing

def stop (remaining : Nat) : Listing K V := ⟨[], [remaining]⟩

def cons (item : K × V) (remaining : Nat) (rest : Listing K V) : Listing K V :=
  ⟨item :: rest.items, remaining :: rest.lengths⟩

end Listing

namespace Iter

/-- The next pair and the iterator behind it; at the end nothing, again and again. -/
def next (it : Iter K V) : Except Breach (Option (K × V) × Iter K V) :=
  match firstEntryAmong it.slots it.buckets with
  | none => .ok (none, ⟨[], [], it.remaining⟩)
  | some (e, slots, buckets) =>
    if it.remaining = 0 then .error .iteratorUnderflow
    else .ok (some e.pair, ⟨slots, buckets, it.remaining - 1⟩)

/-- What the iterator gives in at most `limit` steps. -/
def take : (limit : Nat) → Iter K V → Except Breach (Listing K V)
  | 0, it => .ok (.stop it.remaining)
  | limit + 1, it =>
    match it.next with
    | .error breach => .error breach
    | .ok (none, rest) => .ok (.stop rest.remaining)
    | .ok (some item, rest) => (take limit rest).map (.cons item it.remaining)

end Iter

/-- The number of the first occupied slot of some slots that are numbered from `i` on. -/
def firstOccupied : (i : Nat) → List (Slot K V) → Option Nat
  | _, [] => none
  | i, some _ :: _ => some i
  | i, none :: rest => firstOccupied (i + 1) rest

/-- The first occupied slot of some slots in bucket `b`, numbered from `i` on, and of the
`count` buckets behind that one. -/
def firstOccupiedAmong (d : Directory K V) :
    (count b i : Nat) → List (Slot K V) → Option Location
  | 0, b, i, slots => (firstOccupied i slots).map (Location.mk b)
  | count + 1, b, i, slots =>
    match firstOccupied i slots with
    | some s => some ⟨b, s⟩
    | none => firstOccupiedAmong d count (b + 1) 0 (d.bucketAt (b + 1))

/-- The changing iterator.  It holds no slots or buckets, since what it passes changes in the
table; it scans those from `start` on, bucket by bucket and slot by slot as `Iter` does, and
not by the search that moves a cursor. -/
structure Sweep where
  -- The location behind the entry passed last.
  start : Location
  -- The number of entries still to come.
  remaining : Nat

namespace Sweep

/-- The slot of the next entry: in what is left of the present bucket, or in a later one. -/
def nextSlot (sweep : Sweep) (d : Directory K V) : Option Location :=
  let b := sweep.start.bucket
  let i := sweep.start.slot
  firstOccupiedAmong d (d.size - (b + 1)) b i ((d.bucketAt b).drop i)

/-- The next pair, whose value is then changed by `f`, and the iterator behind it. -/
def next (f : V → V) (sweep : Sweep) : Call K V (Option (K × V) × Sweep) := do
  let t ← Call.table
  match sweep.nextSlot t.directory with
  | none => pure (none, sweep)
  | some loc =>
    let e ← Table.entryAt loc
    Call.check (0 < sweep.remaining) .iteratorUnderflow
    let former ← Table.writeValue loc (f e.value)
    pure (some (e.key, former), ⟨⟨loc.bucket, loc.slot + 1⟩, sweep.remaining - 1⟩)

/-- What the iterator gives in at most `limit` steps, where item number `n` is the next
and the value of item number `i` is changed by `f i`. -/
def take (f : Nat → V → V) : (limit n : Nat) → Sweep → Call K V (Listing K V)
  | 0, _, sweep => pure (.stop sweep.remaining)
  | limit + 1, n, sweep => do
    match ← sweep.next (f n) with
    | (none, rest) => pure (.stop rest.remaining)
    | (some item, rest) => Listing.cons item sweep.remaining <$> take f limit (n + 1) rest

end Sweep

namespace Table

def iter (t : Table K V) : Iter K V := ⟨[], t.directory.toList, t.size⟩

def sweep (t : Table K V) : Sweep := ⟨⟨0, 0⟩, t.size⟩

/-- A number of steps that brings every iterator of the table to its end. -/
def stepsToEnd (t : Table K V) : Nat := t.directory.occupied + 1

def iterate (limit : Option Nat) : Call K V (Listing K V) := do
  let t ← Call.table
  Call.ofBreach (t.iter.take (limit.getD t.stepsToEnd))

/-- Changes the values of the table in order, item number `i` by `f i`, at most `limit`
of them; the listing shows them as they were. -/
def reviseEach (limit : Option Nat) (f : Nat → V → V) : Call K V (Listing K V) := do
  let t ← Call.table
  t.sweep.take f (limit.getD t.stepsToEnd) 0

def keys : Call K V (List K) := do
  let listing ← iterate none
  pure (listing.items.map Prod.fst)

end Table

end ChainTable
