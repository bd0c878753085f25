import ChainTable.Table.Insert
import ChainTable.Table.Remove

/-! # Filling and draining by range

Calls over a range of numbered keys: store them all, remove them all, look them all
up.  A report counts what happened and lists the numbers at which the capacity
changed.
-/

namespace ChainTable.Bulk

variable {K V : Type}

/-- The numbers from `first` up or down to, but not including, `bound` by `step`; none
where `step` is 0. -/
def range (first bound step : Int) : List Int :=
  let count :=
    if 0 < step then (bound - first + step - 1) / step
    else if step < 0 then (first - bound - step - 1) / (-step)
    else 0
  (List.range count.toNat).map fun i => first + step * Int.ofNat i

def capacity : Call K V Nat := do
  let t ← Call.table
  pure t.capacity

/-- The number at which a call changed the capacity, with the new capacity. -/
def capacityChange (number : Int) (before after : Nat) : List (Int × Nat) :=
  if after = before then [] else [(number, after)]

structure FillReport where
  inserted : Nat
  updated : Nat
  capacities : List (Int × Nat)

namespace FillReport

def empty : FillReport := ⟨0, 0, []⟩

def add (report : FillReport) (outcome : Outcome) (change : List (Int × Nat)) : FillReport :=
  match outcome with
  | .inserted => ⟨report.inserted + 1, report.updated, report.capacities ++ change⟩
  | .updated => ⟨report.inserted, report.updated + 1, report.capacities ++ change⟩

end FillReport

/-- Puts one pair into the table, by `exchange` if `exchanging`, else by `insert`. -/
def put (keying : Keying K) (exchanging : Bool) (key : K) (value : V) : Call K V Outcome := do
  if exchanging then
    match ← Table.exchange keying key value with
    | some _ => pure .updated
    | none => pure .inserted
  else Table.insert keying key value

/-- Puts numbered pairs into the table, in order, and goes on with a report. -/
def fillFrom (keying : Keying K) (exchanging : Bool) :
    List (Int × K × V) → FillReport → Call K V FillReport
  | [], report => pure report
  | (number, key, value) :: rest, report => do
    let before ← capacity
    let outcome ← put keying exchanging key value
    let after ← capacity
    fillFrom keying exchanging rest (report.add outcome (capacityChange number before after))

def fill (keying : Keying K) (exchanging : Bool) (pairs : List (Int × K × V)) :
    Call K V FillReport :=
  fillFrom keying exchanging pairs .empty

structure DrainReport where
  removed : Nat
  absent : Nat
  capacities : List (Int × Nat)

namespace DrainReport

def empty : DrainReport := ⟨0, 0, []⟩

def add (report : DrainReport) (present : Bool) (change : List (Int × Nat)) : DrainReport :=
  if present then ⟨report.removed + 1, report.absent, report.capacities ++ change⟩
  else ⟨report.removed, report.absent + 1, report.capacities ++ change⟩

end DrainReport

/-- Removes numbered keys from the table, in order, and goes on with a report. -/
def drainFrom (keying : Keying K) : List (Int × K) → DrainReport → Call K V DrainReport
  | [], report => pure report
  | (number, key) :: rest, report => do
    let before ← capacity
    let present ← Table.remove keying key
    let after ← capacity
    drainFrom keying rest (report.add present (capacityChange number before after))

def drain (keying : Keying K) (keys : List (Int × K)) : Call K V DrainReport :=
  drainFrom keying keys .empty

def lookupAll (keying : Keying K) (keys : List K) : Call K V (List (Option V)) := do
  let t ← Call.table
  pure (keys.map fun key => t.lookup keying key)

end ChainTable.Bulk
