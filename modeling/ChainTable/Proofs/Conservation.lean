import ChainTable.Proofs.Bag
import ChainTable.Proofs.Refusal
import ChainTable.Proofs.Resize

/-! # No pair is lost or doubled

`PairBag.Step` lists what an action may answer of a bag of pairs, and what it makes of the
bag, in terms of the bag only.  Every call of a table is such a step of its bag
(`conservation`), whatever its hash and its test of sameness are, whether the table was
resized on the way or not, and however the call ended.
-/

namespace ChainTable

variable {K V : Type}

/-- What an action may answer, and what the bag of pairs is then; `alike` tells the stored
keys that a key matches.  Where several match, any of them may be the one that is found. -/
inductive PairBag.Step (alike : K → K → Prop) (bag : PairBag K V) :
    Action K V → Except Fault (Answer K V) → PairBag K V → Prop where
  -- Storage was refused, or the call was.
  | failed {action} (fault : Fault) : Step alike bag action (.error fault) bag
  | inserted {key value rest} (finds : Finds alike key bag none rest) :
      Step alike bag (.ask (.insert key value)) (.ok (.outcome .inserted)) ((key, value) ::ₘ bag)
  | updated {key value stored rest} (finds : Finds alike key bag (some stored) rest) :
      Step alike bag (.ask (.insert key value)) (.ok (.outcome .updated))
        ((stored.1, value) ::ₘ rest)
  | exchangedFresh {key value rest} (finds : Finds alike key bag none rest) :
      Step alike bag (.ask (.exchange key value)) (.ok (.pair none)) ((key, value) ::ₘ bag)
  | exchanged {key value stored rest} (finds : Finds alike key bag (some stored) rest) :
      Step alike bag (.ask (.exchange key value)) (.ok (.pair (some stored)))
        ((key, value) ::ₘ rest)
  | takenNone {request key answer rest} (takes : Takes request key answer)
      (finds : Finds alike key bag none rest) :
      Step alike bag (.ask request) (.ok (answer none)) bag
  | taken {request key answer stored rest} (takes : Takes request key answer)
      (finds : Finds alike key bag (some stored) rest) :
      Step alike bag (.ask request) (.ok (answer (some stored))) rest
  | lookup {key found rest} (finds : Finds alike key bag found rest) :
      Step alike bag (.ask (.lookup key)) (.ok (.value (found.map Prod.snd))) bag
  | contains {key found rest} (finds : Finds alike key bag found rest) :
      Step alike bag (.ask (.contains key)) (.ok (.flag found.isSome)) bag
  | modifiedNone {key f rest} (finds : Finds alike key bag none rest) :
      Step alike bag (.ask (.modify key f)) (.ok (.value none)) bag
  | modified {key f stored rest} (finds : Finds alike key bag (some stored) rest) :
      Step alike bag (.ask (.modify key f)) (.ok (.value (some stored.2)))
        ((stored.1, f stored.2) ::ₘ rest)
  | isEmpty : Step alike bag (.ask .isEmpty) (.ok (.flag (Multiset.card bag == 0))) bag
  | cleared : Step alike bag (.ask .clear) (.ok .done) 0
  | keys {items : List (K × V)} (whole : bag = ↑items) :
      Step alike bag (.ask .keys) (.ok (.keys (items.map Prod.fst))) bag
  -- An iteration gives some of the pairs, all of them where it has no limit.
  | iterated {limit rest} {items : List (K × V)} (whole : bag = ↑items + rest)
      (length : items.length = limit.elim (Multiset.card bag) (min · (Multiset.card bag))) :
      Step alike bag (.ask (.iterate limit))
        (.ok (.listing ⟨items, Listing.countdown (Multiset.card bag) items.length⟩)) bag
  | revised {limit f rest} {items : List (K × V)} (whole : bag = ↑items + rest)
      (length : items.length = limit.elim (Multiset.card bag) (min · (Multiset.card bag))) :
      Step alike bag (.ask (.reviseEach limit f))
        (.ok (.listing ⟨items, Listing.countdown (Multiset.card bag) items.length⟩))
        (↑(items.mapIdx fun i pair => (pair.1, f i pair.2)) + rest)
  | opened (c : Cursor) : Step alike bag .openCursor (.ok (.cursor c)) bag
  | closed {c} : Step alike bag (.closeCursor c) (.ok .done) bag
  | advanced {c found} (among : ∀ pair, found = some pair → pair ∈ bag) :
      Step alike bag (.steer c .advance) (.ok (.pair found)) bag
  | currentSetNone {c value} : Step alike bag (.steer c (.setCurrent value)) (.ok (.value none)) bag
  | currentSet {c value stored rest} (whole : bag = stored ::ₘ rest) :
      Step alike bag (.steer c (.setCurrent value)) (.ok (.value (some stored.2)))
        ((stored.1, value) ::ₘ rest)
  | currentRemovedNone {c} : Step alike bag (.steer c .removeCurrent) (.ok (.pair none)) bag
  | currentRemoved {c stored rest} (whole : bag = stored ::ₘ rest) :
      Step alike bag (.steer c .removeCurrent) (.ok (.pair (some stored))) rest

namespace Table

variable {keying : Keying K} {allowance : Option Nat} {t t' : Table K V} {action : Action K V}
  {reply : Reply (Answer K V)}

/-! ## One action -/

theorem Counted.listing_eq (counted : t.Counted) (limit : Option Nat) :
    t.listing limit = ⟨(t.passed limit).map fun p => p.2.pair,
      Listing.countdown (Multiset.card t.bag) ((t.passed limit).map fun p => p.2.pair).length⟩ := by
  simp [listing, Listing.ofEntries, counted.card_bag, Function.comp_def]

theorem Counted.length_items (counted : t.Counted) (limit : Option Nat) :
    ((t.passed limit).map fun p => p.2.pair).length =
      limit.elim (Multiset.card t.bag) (min · (Multiset.card t.bag)) := by
  rw [List.length_map, counted.length_passed, counted.card_bag]

theorem bagStep_of_reads {request : Request K V} {answer : Answer K V}
    (sound : t.Sound keying) (reads : Reads keying t request answer) :
    PairBag.Step keying.Alike t.bag (.ask request) (.ok answer) t.bag := by
  cases reads with
  | lookup key =>
    obtain ⟨rest, finds⟩ := exists_finds_found sound key
    have step := PairBag.Step.lookup finds
    rw [Option.map_map] at step
    exact step
  | contains key =>
    obtain ⟨rest, finds⟩ := exists_finds_found sound key
    have step := PairBag.Step.contains finds
    rw [Option.isSome_map] at step
    exact step
  | isEmpty =>
    have step : PairBag.Step keying.Alike t.bag _ _ t.bag := .isEmpty
    rw [sound.card_bag] at step
    exact step
  | keys =>
    have step : PairBag.Step keying.Alike t.bag _ _ t.bag := .keys rfl
    rw [List.map_map] at step
    exact step
  | iterate limit =>
    obtain ⟨rest, whole, -⟩ := exists_bag_swept limit (fun _ => id) t
    rw [sound.listing_eq]
    exact .iterated whole (sound.length_items limit)

/-- Every way to end is a step of the bag. -/
theorem Effect.bagStep (sound : t.Sound keying)
    (effect : Effect keying allowance t action reply t') :
    PairBag.Step keying.Alike t.bag action reply.answer t'.bag := by
  cases effect with
  | whileOpen | notOpen | growthRefused | shrinkRefused => exact .failed _
  | slotRefused =>
    rw [sound.bag_roomy]
    exact .failed _
  -- The pairs are the same while the table grows, so the new one is added to the former bag.
  | inserted quiet absent =>
    rw [bag_stored (sound.roomy quiet).capacity_pos, sound.bag_roomy]
    exact .inserted (finds_none sound absent)
  | exchangedFresh quiet absent =>
    rw [bag_stored (sound.roomy quiet).capacity_pos, sound.bag_roomy]
    exact .exchangedFresh (finds_none sound absent)
  | updated quiet located live =>
    obtain ⟨rest, finds, -, rewritten⟩ := exists_finds (sound.roomy quiet) located live
    rw [sound.bag_roomy] at finds
    rw [rewritten]
    exact .updated finds
  | exchanged quiet located live =>
    obtain ⟨rest, finds, -, rewritten⟩ := exists_finds sound located live
    rw [rewritten]
    exact .exchanged finds
  | takenNone takes absent => exact .takenNone takes (finds_none sound absent)
  | taken takes located live =>
    obtain ⟨rest, finds, left, -⟩ := exists_finds sound located live
    rw [(sound.without live).bag_slimmed, left]
    exact .taken takes finds
  | read reads => exact bagStep_of_reads sound reads
  | modifiedNone absent => exact .modifiedNone (finds_none sound absent)
  | modified located live =>
    obtain ⟨rest, finds, -, rewritten⟩ := exists_finds sound located live
    rw [rewritten]
    exact .modified finds
  | cleared =>
    rw [bag_cleared]
    exact .cleared
  | revised limit f =>
    obtain ⟨rest, whole, swept⟩ := exists_bag_swept limit f t
    rw [sound.listing_eq, swept]
    exact .revised whole (sound.length_items limit)
  | opened => exact .opened _
  | closed => exact .closed
  | advanced standing pending =>
    refine .advanced fun pair given => ?_
    cases given
    exact mem_bag.mpr ⟨_, _, entryAt?_of_pending pending, rfl⟩
  | advancedEnd => exact .advanced fun pair given => by cases given
  | currentSet standing under =>
    obtain ⟨rest, whole, -, rewritten⟩ := exists_bag_around (entryUnder_eq_some.mp under).2
    rw [rewritten]
    exact .currentSet whole
  | currentSetNone => exact .currentSetNone
  | currentRemoved standing under =>
    obtain ⟨rest, whole, left, -⟩ := exists_bag_around (entryUnder_eq_some.mp under).2
    rw [left]
    exact .currentRemoved whole
  | currentRemovedNone => exact .currentRemovedNone

/-! ## Every call of every run -/

/-- Whatever was called on a table before, with any hash and any test of sameness, a call
moves exactly the pairs in and out that its answer speaks of, none where it fails or finds
nothing, and the recorded size is the number of pairs before and after it. -/
theorem conservation (reachable : t.Reachable keying)
    (ended : t.act keying allowance action = (reply, t')) :
    PairBag.Step keying.Alike t.bag action reply.answer t'.bag ∧
      t.size = Multiset.card t.bag ∧ t'.size = Multiset.card t'.bag := by
  have sound := reachable.sound
  have effect := effect_of_act sound ended
  exact ⟨effect.bagStep sound, sound.card_bag.symm, (sound.effect effect).card_bag.symm⟩

/-- Where two entries answer to a key the removal takes one of them, and a refused insertion
that has grown the table still moves no pair. -/
theorem conservation_tangled :
    let taken := tangled.act atMost none (.ask (.extract 4))
    let refused := crowded.act Session.lastDigit (some 6) (.ask (.insert 9 90))
    PairBag.Step atMost.Alike tangled.bag (.ask (.extract 4)) (.ok (.pair (some (9, 90))))
        {(12, 120)} ∧
      taken.2.size = 1 ∧ refused.2.capacity = 8 ∧
      PairBag.Step Session.lastDigit.Alike crowded.bag (.ask (.insert 9 90))
        (.error (.refused ⟨.slots, 1⟩)) crowded.bag ∧
      refused.2.size = Multiset.card crowded.bag := by
  intro taken refused
  have answered : taken.1.answer = .ok (.pair (some (9, 90))) := by decide +kernel
  have left : taken.2.bag = {(12, 120)} := by decide +kernel
  have failed : refused.1.answer = .error (.refused ⟨.slots, 1⟩) := by decide +kernel
  have kept : refused.2.bag = crowded.bag := by decide +kernel
  obtain ⟨takes, -, one⟩ := conservation reachable_tangled (Prod.eta taken).symm
  obtain ⟨fails, -, four⟩ := conservation reachable_crowded (Prod.eta refused).symm
  rw [answered, left] at takes
  rw [left] at one
  rw [failed, kept] at fails
  rw [kept] at four
  exact ⟨takes, one, by decide +kernel, fails, four⟩

end Table

end ChainTable
