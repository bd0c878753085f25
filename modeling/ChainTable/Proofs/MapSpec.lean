import ChainTable.Proofs.Preservation
import Mathlib.Data.Finmap

/-! # The finite map a table stands for

Under a test of sameness that is an equivalence, keys that are alike form classes, and
a table stands for a finite map from classes to pairs of stored key and value.  This
module is the map's side: `MapStep` lists what every action answers and does to the
map, in terms of the map only.  An open cursor is known by the class of the pair that
it answered last.

An action may fail in three ways, and none of them changes the map: storage is refused,
which takes an allowance; a cursor is open and the call needs that none is; or the call
goes through a cursor that is not open.
-/

namespace ChainTable

variable {K V : Type} {keying : Keying K}

instance (a b : K) : Decidable (keying.Alike a b) := inferInstanceAs (Decidable (_ ∧ _))

def Keying.IsEquivalence.setoid (equivalence : keying.IsEquivalence) : Setoid K where
  r := keying.Alike
  iseqv := ⟨equivalence.alike_refl, equivalence.alike_symm, equivalence.alike_trans⟩

/-- The classes of keys that are alike. -/
def KeyClass (equivalence : keying.IsEquivalence) : Type := Quotient equivalence.setoid

variable {equivalence : keying.IsEquivalence}

instance : DecidableEq (KeyClass equivalence) :=
  @Quotient.decidableEq K equivalence.setoid fun a b =>
    inferInstanceAs (Decidable (keying.Alike a b))

def Keying.IsEquivalence.classOf (equivalence : keying.IsEquivalence) (key : K) :
    KeyClass equivalence :=
  Quotient.mk equivalence.setoid key

theorem classOf_eq {a b : K} :
    equivalence.classOf a = equivalence.classOf b ↔ keying.Alike a b :=
  Quotient.eq

/-- The finite maps from classes to pairs of stored key and value. -/
abbrev PairMap (V : Type) (equivalence : keying.IsEquivalence) :=
  Finmap fun _ : KeyClass equivalence => K × V

namespace PairMap

def card (pairs : PairMap V equivalence) : Nat := pairs.keys.card

theorem card_eq_zero {pairs : PairMap V equivalence} : pairs.card = 0 ↔ pairs = ∅ := by
  rw [card, Finset.card_eq_zero]
  constructor
  · intro none
    apply Finmap.ext_lookup
    intro κ
    rw [Finmap.lookup_empty, Finmap.lookup_eq_none, ← Finmap.mem_keys, none]
    exact Finset.notMem_empty κ
  · rintro rfl
    exact Finmap.keys_empty

def revalued (κ : KeyClass equivalence) (f : V → V) (pairs : PairMap V equivalence) :
    PairMap V equivalence :=
  match pairs.lookup κ with
  | some (key, value) => pairs.insert κ (key, f value)
  | none => pairs

def revised (f : Nat → V → V) :
    Nat → List (KeyClass equivalence × K × V) → PairMap V equivalence → PairMap V equivalence
  | _, [], pairs => pairs
  | n, (κ, key, value) :: rest, pairs => revised f (n + 1) rest (pairs.insert κ (key, f n value))

theorem revalued_of_present {κ : KeyClass equivalence} {pairs : PairMap V equivalence} {key : K}
    {value : V} (present : pairs.lookup κ = some (key, value)) (f : V → V) :
    pairs.revalued κ f = pairs.insert κ (key, f value) := by
  simp [revalued, present]

theorem revalued_of_absent {κ : KeyClass equivalence} {pairs : PairMap V equivalence}
    (absent : pairs.lookup κ = none) (f : V → V) : pairs.revalued κ f = pairs := by
  simp [revalued, absent]

theorem erase_of_absent {κ : KeyClass equivalence} {pairs : PairMap V equivalence}
    (absent : pairs.lookup κ = none) : pairs.erase κ = pairs := by
  apply Finmap.ext_lookup
  intro κ'
  by_cases same : κ' = κ
  · rw [same, Finmap.lookup_erase, absent]
  · rw [Finmap.lookup_erase_ne same]

/-- Some pairs of a map with their classes, each once and as many as an iteration with a
limit gives. -/
structure Tour (pairs : PairMap V equivalence) (limit : Option Nat)
    (items : List (KeyClass equivalence × K × V)) : Prop where
  apart : (items.map Prod.fst).Nodup
  present : ∀ item ∈ items, pairs.lookup item.1 = some item.2
  length : items.length = limit.elim pairs.card (min · pairs.card)

end PairMap

/-- A finite map with the cursors open on it. -/
structure MapState (V : Type) (equivalence : keying.IsEquivalence) where
  pairs : PairMap V equivalence
  -- The class of the pair that an open cursor answered last, `some none` if it answered
  -- none; `none` for a cursor that is not open.
  cursors : Cursor → Option (Option (KeyClass equivalence))

namespace MapState

def empty : MapState V equivalence := ⟨∅, fun _ => none⟩

def Quiet (m : MapState V equivalence) : Prop := ∀ c, m.cursors c = none

def steered (m : MapState V equivalence) (c : Cursor)
    (current : Option (Option (KeyClass equivalence))) : MapState V equivalence :=
  { m with cursors := Function.update m.cursors c current }

@[simp] theorem cursors_steered_self (m : MapState V equivalence) (c : Cursor)
    (current : Option (Option (KeyClass equivalence))) :
    (m.steered c current).cursors c = current := by
  simp [steered]

theorem cursors_steered_of_ne (m : MapState V equivalence) {c other : Cursor}
    (differs : other ≠ c) (current : Option (Option (KeyClass equivalence))) :
    (m.steered c current).cursors other = m.cursors other := by
  simp [steered, differs]

inductive Fails (m : MapState V equivalence) (allowance : Option Nat) :
    Action K V → Fault → Prop where
  | refusedPut {request key value r} (puts : Puts request key value)
      (limited : allowance ≠ none) : Fails m allowance (.ask request) (.refused r)
  | refusedTake {request key answer r} (takes : Takes request key answer)
      (limited : allowance ≠ none) : Fails m allowance (.ask request) (.refused r)
  | whileOpen {request call count} (needs : NeedsQuiet request call) (busy : ¬ m.Quiet) :
      Fails m allowance (.ask request) (.misuse (.whileOpen call count))
  | notOpen {action c cause} (uses : Uses action c) (closed : m.cursors c = none) :
      Fails m allowance action (.misuse cause)

/-- What an action may answer and do to the map. -/
inductive MapStep (allowance : Option Nat) (m : MapState V equivalence) :
    Action K V → Except Fault (Answer K V) → MapState V equivalence → Prop where
  | failed {action fault} (fails : m.Fails allowance action fault) :
      MapStep allowance m action (.error fault) m
  | inserted {key value} (quiet : m.Quiet)
      (absent : m.pairs.lookup (equivalence.classOf key) = none) :
      MapStep allowance m (.ask (.insert key value)) (.ok (.outcome .inserted))
        { m with pairs := m.pairs.insert (equivalence.classOf key) (key, value) }
  | updated {key value stored} (quiet : m.Quiet)
      (present : m.pairs.lookup (equivalence.classOf key) = some stored) :
      MapStep allowance m (.ask (.insert key value)) (.ok (.outcome .updated))
        { m with pairs := m.pairs.insert (equivalence.classOf key) (stored.1, value) }
  | exchanged {key value} (quiet : m.Quiet) :
      MapStep allowance m (.ask (.exchange key value))
        (.ok (.pair (m.pairs.lookup (equivalence.classOf key))))
        { m with pairs := m.pairs.insert (equivalence.classOf key) (key, value) }
  | taken {request key answer} (takes : Takes request key answer) :
      MapStep allowance m (.ask request)
        (.ok (answer (m.pairs.lookup (equivalence.classOf key))))
        { m with pairs := m.pairs.erase (equivalence.classOf key) }
  | lookup {key} :
      MapStep allowance m (.ask (.lookup key))
        (.ok (.value ((m.pairs.lookup (equivalence.classOf key)).map Prod.snd))) m
  | contains {key} :
      MapStep allowance m (.ask (.contains key))
        (.ok (.flag (m.pairs.lookup (equivalence.classOf key)).isSome)) m
  | isEmpty : MapStep allowance m (.ask .isEmpty) (.ok (.flag (m.pairs.card == 0))) m
  | modified {key f} :
      MapStep allowance m (.ask (.modify key f))
        (.ok (.value ((m.pairs.lookup (equivalence.classOf key)).map Prod.snd)))
        { m with pairs := m.pairs.revalued (equivalence.classOf key) f }
  | cleared (quiet : m.Quiet) : MapStep allowance m (.ask .clear) (.ok .done) { m with pairs := ∅ }
  | keys {items} (tour : m.pairs.Tour none items) :
      MapStep allowance m (.ask .keys) (.ok (.keys (items.map fun item => item.2.1))) m
  | iterated {limit items} (tour : m.pairs.Tour limit items) :
      MapStep allowance m (.ask (.iterate limit))
        (.ok (.listing ⟨items.map Prod.snd, Listing.countdown m.pairs.card items.length⟩)) m
  | revised {limit f items} (tour : m.pairs.Tour limit items) :
      MapStep allowance m (.ask (.reviseEach limit f))
        (.ok (.listing ⟨items.map Prod.snd, Listing.countdown m.pairs.card items.length⟩))
        { m with pairs := m.pairs.revised f 0 items }
  | opened {c} (fresh : m.cursors c = none) :
      MapStep allowance m .openCursor (.ok (.cursor c)) (m.steered c (some none))
  | closed {c current} (held : m.cursors c = some current) :
      MapStep allowance m (.closeCursor c) (.ok .done) (m.steered c none)
  | advanced {c current κ pair} (held : m.cursors c = some current)
      (present : m.pairs.lookup κ = some pair) :
      MapStep allowance m (.steer c .advance) (.ok (.pair (some pair)))
        (m.steered c (some (some κ)))
  | advancedEnd {c current} (held : m.cursors c = some current) :
      MapStep allowance m (.steer c .advance) (.ok (.pair none)) (m.steered c (some none))
  | currentSet {c κ value} (held : m.cursors c = some (some κ)) :
      MapStep allowance m (.steer c (.setCurrent value))
        (.ok (.value ((m.pairs.lookup κ).map Prod.snd)))
        { m with pairs := m.pairs.revalued κ fun _ => value }
  | currentSetNowhere {c value} (held : m.cursors c = some none) :
      MapStep allowance m (.steer c (.setCurrent value)) (.ok (.value none)) m
  | currentRemoved {c κ} (held : m.cursors c = some (some κ)) :
      MapStep allowance m (.steer c .removeCurrent) (.ok (.pair (m.pairs.lookup κ)))
        { m with pairs := m.pairs.erase κ }
  | currentRemovedNowhere {c} (held : m.cursors c = some none) :
      MapStep allowance m (.steer c .removeCurrent) (.ok (.pair none)) m

end MapState

/-- A run of a map that answers what a table answered and has its size after every call. -/
inductive Tracks : MapState V equivalence → List (Event K V) → Prop where
  | nil (m : MapState V equivalence) : Tracks m []
  | cons {m m' event rest}
      (step : MapState.MapStep event.call.allowance m event.call.action event.answer m')
      (size : event.after.size = m'.pairs.card)
      (isEmpty : event.after.isEmpty = true ↔ m'.pairs = ∅)
      (others : Tracks m' rest) : Tracks m (event :: rest)

end ChainTable
