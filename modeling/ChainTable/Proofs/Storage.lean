import ChainTable.Proofs.Refusal
import Mathlib.Algebra.GroupWithZero.Nat

/-! # What every call asks for

An insertion or a removal asks for storage in a fixed order: first for what a resize takes, if
one is due, and then for the slot of a new entry, if its bucket has none vacant.  How much that
is depends on the table and the request only.  The allowance decides nothing but whether a
reservation of this list is refused (`Settles`): if so the call fails with that one, and if
not it ends as it does without any limit.  The list is given in words too, which are those of
the message that such a failure has (`Reservation.named`).
-/

namespace ChainTable

variable {K V : Type}

/-- A reservation as its refusal names it: what it is for, and for how many elements. -/
def Reservation.named (r : Reservation) : String × Nat := (r.purpose.name, r.amount)

section Allowances

variable {allowance : Option Nat} {rs rs' asked : List Reservation} {r : Reservation}

theorem grants_nil : Grants allowance [] := fun n _ => Nat.zero_le n

theorem Refuses.append_left (refused : Refuses allowance rs r asked) (rs' : List Reservation) :
    Refuses allowance (rs ++ rs') r asked := by
  obtain ⟨n, held, present, rfl⟩ := refused
  obtain ⟨inside, -⟩ := List.getElem?_eq_some_iff.mp present
  refine ⟨n, held, ?_, ?_⟩
  · rw [List.getElem?_append_left inside, present]
  · rw [List.take_append_of_le_length inside]

theorem Refuses.append_right (granted : Grants allowance rs)
    (refused : Refuses (allowance.map (· - rs.length)) rs' r asked) :
    Refuses allowance (rs ++ rs') r (rs ++ asked) := by
  obtain ⟨m, held, present, rfl⟩ := refused
  obtain ⟨n, limited, rfl⟩ := Option.map_eq_some_iff.mp held
  have covered := granted n limited
  refine ⟨n, limited, ?_, ?_⟩
  · rw [List.getElem?_append_right covered, present]
  · have more : n + 1 = rs.length + (n - rs.length + 1) := by omega
    rw [more, List.take_length_add_append]

end Allowances

namespace Directory

variable {capacity : Nat} {entries entries' : List (Entry K V)}

/-- How many of the entries the buckets receive that receive any, in the order of the buckets. -/
def receipts (capacity : Nat) (entries : List (Entry K V)) : List Nat :=
  ((List.range capacity).map fun i => (belonging capacity entries i).length).filter (0 < ·)

theorem toList_tally (capacity : Nat) (entries : List (Entry K V)) :
    (tally capacity entries).toList =
      (List.range capacity).map fun i => (belonging capacity entries i).length := by
  apply List.ext_getElem?
  intro i
  rw [Array.getElem?_toList]
  by_cases inside : i < capacity
  · rw [getElem?_tally inside]
    simp [inside]
  · have outside : capacity ≤ i := Nat.not_lt.mp inside
    simp [size_tally, outside]

theorem reservations_eq (capacity : Nat) (entries : List (Entry K V)) :
    reservations capacity entries = ⟨.buckets, capacity⟩ :: ⟨.counters, capacity⟩ ::
      (receipts capacity entries).map (Reservation.mk .slots) := by
  rw [reservations, toList_tally, receipts]

/-- The storage that it takes to come from `former` to `capacity` buckets with the entries. -/
def moving (former capacity : Nat) (entries : List (Entry K V)) : List Reservation :=
  if capacity = former then []
  else ⟨.buckets, capacity⟩ :: ⟨.counters, capacity⟩ ::
    (receipts capacity entries).map (Reservation.mk .slots)

/-- The storage of `moving` in words. -/
def manifest (former capacity : Nat) (entries : List (Entry K V)) : List (String × Nat) :=
  if capacity = former then []
  else ("buckets", capacity) :: ("rehash counters", capacity) ::
    (receipts capacity entries).map (Prod.mk "bucket slots")

theorem map_named_moving (former capacity : Nat) (entries : List (Entry K V)) :
    (moving former capacity entries).map Reservation.named = manifest former capacity entries := by
  unfold moving manifest
  split
  case isTrue => rfl
  case isFalse =>
    rw [List.map_cons, List.map_cons, List.map_map]
    rfl

@[simp] theorem moving_self (capacity : Nat) (entries : List (Entry K V)) :
    moving capacity capacity entries = [] := if_pos rfl

theorem moving_of_ne {former : Nat} (differs : capacity ≠ former) (entries : List (Entry K V)) :
    moving former capacity entries = reservations capacity entries := by
  rw [moving, if_neg differs, reservations_eq]

theorem sum_filter_pos (counts : List Nat) : (counts.filter (0 < ·)).sum = counts.sum := by
  induction counts with
  | nil => rfl
  | cons count rest ih =>
    rw [List.filter_cons, List.sum_cons]
    split
    case isTrue => rw [List.sum_cons, ih]
    case isFalse empty =>
      have zero : count = 0 := by simpa using empty
      rw [ih, zero, Nat.zero_add]

/-- Every entry is received once. -/
theorem sum_receipts (positive : 0 < capacity) (entries : List (Entry K V)) :
    (receipts capacity entries).sum = entries.length := by
  rw [receipts, sum_filter_pos, ← List.length_flatMap, ← entries_gather,
    (entries_gather_perm positive entries).length_eq]

theorem reservations_of_perm (same : entries.Perm entries') :
    reservations capacity entries = reservations capacity entries' := by
  have lengths : ∀ i, (belonging capacity entries i).length =
      (belonging capacity entries' i).length := fun i => (same.filter _).length_eq
  simp only [reservations_eq, receipts, lengths]

end Directory

namespace Table

variable {keying : Keying K} {allowance : Option Nat} {t t' : Table K V}
  {request : Request K V} {reply : Reply (Answer K V)} {key : K} {value : V}
  {ended : Reply (Answer K V) × Table K V}

/-- How a call ends that ends in `ended` where all its storage is granted. -/
inductive Settles (allowance : Option Nat) (ended : Reply (Answer K V) × Table K V)
    (reply : Reply (Answer K V)) (t' : Table K V) : Prop where
  | granted (granted : Grants allowance ended.1.reservations) (same : (reply, t') = ended)
  | refused {r : Reservation}
      (refused : Refuses allowance ended.1.reservations r reply.reservations)
      (answer : reply.answer = .error (.refused r))

/-! ## One call -/

/-- A key that is absent: the table grows if it is full, and then the entry gets a slot. -/
theorem Effect.settles_fresh (quiet : t.isQuiet = true) (puts : Puts request key value)
    (absent : t.found keying key = none)
    (effect : Effect keying allowance t (.ask request) reply t') :
    Settles allowance (⟨.ok request.freshAnswer, t.growth ++ t.roomy.berthing keying key,
      t.growthRecords⟩, t.roomy.stored ⟨key, value, keying.route key⟩) reply t' := by
  cases effect.putting puts with
  | whileOpen busy =>
    rw [quiet] at busy
    cases busy
  | growthRefused short => exact .refused (short.append_left _) rfl
  | slotRefused _ growing short => exact .refused (short.append_right growing) rfl
  | fresh _ granted => exact .granted granted rfl
  | present found =>
    rw [absent] at found
    cases found

/-- An insertion grows a full table even where the key is present. -/
theorem Effect.settles_update {loc : Location} {e : Entry K V} (quiet : t.isQuiet = true)
    (found : t.found keying key = some e) (located : t.roomy.locate keying key = some loc)
    (effect : Effect keying allowance t (.ask (.insert key value)) reply t') :
    Settles allowance (⟨.ok (.outcome .updated), t.growth, t.growthRecords⟩,
      t.roomy.rewritten loc { e with value }) reply t' := by
  cases effect with
  | whileOpen _ busy =>
    rw [quiet] at busy
    cases busy
  | growthRefused _ _ short => exact .refused short rfl
  | slotRefused puts' _ absent =>
    cases puts'
    rw [absent] at found
    cases found
  | inserted _ absent =>
    rw [absent] at found
    cases found
  | updated _ located' _ found' granted =>
    cases located.symm.trans located'
    cases found.symm.trans found'
    exact .granted granted rfl
  | takenNone takes | taken takes | shrinkRefused takes => cases takes
  | notOpen uses => cases uses
  | read reads => cases reads

/-- An exchange looks for the key first, and asks for nothing where it is present. -/
theorem act_exchange {loc : Location} {e : Entry K V} (quiet : t.isQuiet = true)
    (located : t.locate keying key = some loc) (live : t.entryAt? loc = some e) (value : V)
    (allowance : Option Nat) : t.act keying allowance (.ask (.exchange key value)) =
      (⟨.ok (.pair (some e.pair)), [], []⟩, t.rewritten loc { e with key, value }) := by
  have open' := run_refuseWhileOpen (c := ⟨t, allowance, [], []⟩) .insert quiet
  have put := run_replaceAt (c := ⟨t, allowance, [], []⟩) live key value true
  exact Call.perform_of_ok (by simp [Action.run, Request.run, exchange, open', located, put]; rfl)

theorem Effect.settles_absent {answer : Option (K × V) → Answer K V}
    (takes : Takes request key answer) (absent : t.found keying key = none)
    (effect : Effect keying allowance t (.ask request) reply t') :
    Settles allowance (⟨.ok (answer none), [], []⟩, t) reply t' := by
  cases effect.taking takes with
  | absent => exact .granted grants_nil rfl
  | taken located | refused located =>
    rw [locate_eq_none.mpr absent] at located
    cases located

/-- A removal asks for what a shrink takes, with the entry counted out, if one is due then. -/
theorem Effect.settles_take {answer : Option (K × V) → Answer K V} {loc : Location}
    {e : Entry K V} (takes : Takes request key answer)
    (located : t.locate keying key = some loc) (live : t.entryAt? loc = some e)
    (effect : Effect keying allowance t (.ask request) reply t') :
    Settles allowance (⟨.ok (answer (some e.pair)), (t.without loc).shrinkage,
      (t.without loc).shrinkageRecords⟩, (t.without loc).slimmed) reply t' := by
  cases effect.taking takes with
  | taken located' live' granted =>
    cases located.symm.trans located'
    cases live.symm.trans live'
    exact .granted granted rfl
  | refused located' _ short =>
    cases located.symm.trans located'
    exact .refused short rfl
  | absent absent =>
    rw [locate_eq_none.mpr absent] at located
    cases located

/-! ## Every allowance -/

/-- The call succeeds with all its storage granted, and for any allowance settles so. -/
structure Metered (keying : Keying K) (t : Table K V) (request : Request K V) : Prop where
  answered : ∃ answer, (t.act keying none (.ask request)).1.answer = .ok answer
  settles : ∀ allowance, Settles allowance (t.act keying none (.ask request))
    (t.act keying allowance (.ask request)).1 (t.act keying allowance (.ask request)).2

theorem Settles.eq_of_grants (granted : Grants allowance ended.1.reservations)
    (settles : Settles allowance ended reply t') : (reply, t') = ended := by
  cases settles with
  | granted _ same => exact same
  | refused short => exact absurd granted short.not_grants

theorem metered_of_settles {answer : Answer K V} (answered : ended.1.answer = .ok answer)
    (settles : ∀ allowance, Settles allowance ended (t.act keying allowance (.ask request)).1
      (t.act keying allowance (.ask request)).2) :
    t.act keying none (.ask request) = ended ∧ Metered keying t request := by
  have unlimited : t.act keying none (.ask request) = ended :=
    (settles none).eq_of_grants (grants_none _)
  subst unlimited
  exact ⟨rfl, ⟨answer, answered⟩, settles⟩

/-- With an allowance of `n` the reservation behind `n` others is the first that is refused, and
the message of the failure names it. -/
theorem Metered.act_some (metered : Metered keying t request) (n : Nat) :
    let ended := t.act keying none (.ask request)
    let short := t.act keying (some n) (.ask request)
    short.1.reservations = ended.1.reservations.take (n + 1) ∧
      (∀ r, short.1.answer = .error (.refused r) ↔ ended.1.reservations[n]? = some r) ∧
      (ended.1.reservations.length ≤ n → short = ended) ∧
      ∀ fault, short.1.answer = .error fault → ∃ what amount,
        (ended.1.reservations.map Reservation.named)[n]? = some (what, amount) ∧
        fault.message = s!"cannot allocate {what}: {amount} more element(s) requested" := by
  intro ended short
  have settles : Settles (some n) ended short.1 short.2 := metered.settles (some n)
  cases settles with
  | granted granted same =>
    have covered := granted n rfl
    obtain ⟨answer, answered⟩ := metered.answered
    rw [show short = ended from same, answered, List.getElem?_eq_none covered,
      List.take_of_length_le (Nat.le_succ_of_le covered)]
    exact ⟨rfl, fun r => iff_of_false nofun nofun, fun _ => rfl, nofun⟩
  | refused refused answer =>
    obtain ⟨m, held, present, asked⟩ := refused
    cases held
    obtain ⟨inside, -⟩ := List.getElem?_eq_some_iff.mp present
    rw [answer, present, List.getElem?_map, present]
    refine ⟨asked, fun r => by simp, fun covered => absurd inside (Nat.not_lt.mpr covered), ?_⟩
    intro fault failed
    cases failed
    exact ⟨_, _, rfl, rfl⟩

/-! ## What is asked for -/

theorem map_named_berthing (t : Table K V) (keying : Keying K) (key : K) :
    (t.berthing keying key).map Reservation.named =
      if (t.directory.bucketAt (Directory.home (keying.route key) t.capacity)).hasVacancy then []
      else [("bucket slots", 1)] := by
  unfold berthing
  split <;> rfl

theorem growth_eq (positive : 0 < t.capacity) :
    t.growth = Directory.moving t.capacity t.roomy.capacity t.directory.entries := by
  cases full : t.isFull with
  | false => rw [roomy_of_room full, Directory.moving_self, growth, full, if_neg Bool.false_ne_true]
  | true =>
    rw [roomy_of_full full, capacity_rehashed, Directory.moving_of_ne (by omega), growth,
      if_pos full]

theorem roomy_eq (positive : 0 < t.capacity) :
    t.roomy = if t.roomy.capacity = t.capacity then t else t.rehashed t.roomy.capacity := by
  cases full : t.isFull with
  | false => rw [roomy_of_room full, if_pos rfl]
  | true => rw [roomy_of_full full, capacity_rehashed, if_neg (by omega)]

theorem Counted.shrinkage_eq (counted : t.Counted) :
    t.shrinkage = Directory.moving t.capacity t.slimmed.capacity t.slimmed.directory.entries := by
  unfold shrinkage slimmed
  split
  case isTrue due =>
    obtain ⟨sparse, -⟩ := Bool.and_eq_true_iff.mp due
    have least := counted.least_le_half sparse
    have positive := counted.capacity_pos
    have half : 0 < t.capacity / 2 := Nat.lt_of_lt_of_le (by decide) least
    rw [capacity_rehashed, Directory.moving_of_ne (by omega)]
    exact (Directory.reservations_of_perm (Directory.entries_gather_perm half _)).symm
  case isFalse => rw [Directory.moving_self]

/-- What an insertion asks for where nothing is refused. -/
theorem Sound.metered_put (sound : t.Sound keying) (quiet : t.isQuiet = true)
    (puts : Puts request key value) :
    let ended := t.act keying none (.ask request)
    let capacity := ended.2.capacity
    Metered keying t request ∧
      ended.1.reservations = Directory.moving t.capacity capacity t.directory.entries ++
        if t.locate keying key = none then
          (if capacity = t.capacity then t else t.rehashed capacity).berthing keying key
        else [] := by
  intro ended capacity
  have positive := sound.capacity_pos
  cases located : t.locate keying key with
  | none =>
    have absent := locate_eq_none.mp located
    obtain ⟨stores, metered⟩ := metered_of_settles rfl fun allowance =>
      (effect_act sound allowance (.ask request)).settles_fresh quiet puts absent
    refine ⟨metered, ?_⟩
    simp only [ended, capacity, stores, capacity_stored, if_true]
    rw [← roomy_eq positive, ← growth_eq positive]
  | some loc =>
    obtain ⟨e, live, -, found⟩ := exists_of_locate located
    simp only [reduceCtorEq, if_false, List.append_nil]
    cases puts with
    | insert =>
      cases stays : t.roomy.locate keying key with
      | none =>
        rw [locate_eq_none, sound.found_roomy, found] at stays
        cases stays
      | some loc' =>
        obtain ⟨updates, metered⟩ := metered_of_settles rfl fun allowance =>
          (effect_act sound allowance (.ask (.insert key value))).settles_update quiet found stays
        refine ⟨metered, ?_⟩
        simp only [ended, capacity, updates, capacity_rewritten]
        exact growth_eq positive
    | exchange =>
      obtain ⟨exchanges, metered⟩ := metered_of_settles rfl fun allowance =>
        .granted grants_nil (act_exchange quiet located live value allowance)
      refine ⟨metered, ?_⟩
      simp only [ended, capacity, exchanges, capacity_rewritten, Directory.moving_self]

/-- What a removal asks for where nothing is refused. -/
theorem Sound.metered_take (sound : t.Sound keying) {answer : Option (K × V) → Answer K V}
    (takes : Takes request key answer) :
    let ended := t.act keying none (.ask request)
    Metered keying t request ∧ ended.1.reservations =
      Directory.moving t.capacity ended.2.capacity ended.2.directory.entries := by
  intro ended
  cases located : t.locate keying key with
  | none =>
    have absent := locate_eq_none.mp located
    obtain ⟨same, metered⟩ := metered_of_settles rfl fun allowance =>
      (effect_act sound allowance (.ask request)).settles_absent takes absent
    refine ⟨metered, ?_⟩
    simp only [ended, same, Directory.moving_self]
  | some loc =>
    obtain ⟨e, live, -, -⟩ := exists_of_locate located
    obtain ⟨removes, metered⟩ := metered_of_settles rfl fun allowance =>
      (effect_act sound allowance (.ask request)).settles_take takes located live
    refine ⟨metered, ?_⟩
    simp only [ended, removes]
    rw [← capacity_without t loc]
    exact (sound.toCounted.without live).shrinkage_eq

/-- With the key present, an exchange and an insertion below full load need no storage. -/
theorem Sound.act_unlimited (sound : t.Sound keying) (quiet : t.isQuiet = true)
    (present : t.locate keying key ≠ none)
    (calls : request = .exchange key value ∨ request = .insert key value ∧ t.size < t.capacity) :
    ∃ ended, ended.1.reservations = [] ∧
      ∀ allowance, t.act keying allowance (.ask request) = ended := by
  obtain ⟨loc, located⟩ := Option.ne_none_iff_exists'.mp present
  obtain ⟨e, live, -, found⟩ := exists_of_locate located
  rcases calls with rfl | ⟨rfl, room⟩
  · exact ⟨_, rfl, act_exchange quiet located live value⟩
  · have loose : t.isFull = false := decide_eq_false (Nat.not_le.mpr room)
    have nothing : t.growth = [] := by rw [growth, loose, if_neg Bool.false_ne_true]
    have stays : t.roomy.locate keying key = some loc := by rw [roomy_of_room loose, located]
    refine ⟨_, nothing, fun allowance =>
      ((effect_act sound allowance _).settles_update quiet found stays).eq_of_grants ?_⟩
    rw [nothing]
    exact grants_nil

/-- Of any table that actions lead to, while no cursor is open, and for any insertion, exchange
or removal by key.  Where nothing is refused the call succeeds, and what it asks for is this:
if it resizes the table, so that the capacity is another one after it, the buckets, the
counters, and the slots of each new bucket that receives any of the entries that are live by
then, in order, which add up to all of them; then, if it puts in a new entry and the bucket of
that has no vacant slot, one slot.  The list stands once as it is and once in words.  With an
allowance of `n` the call fails exactly where more than `n` reservations are on it, and then
with number `n` of them, counted from 0, and a message that has the words and the amount of
that one; else it ends as where nothing is refused.  To exchange a pair for one with a present
key needs no storage, and neither does an insertion of one below full load. -/
theorem storage_asked (reachable : t.Reachable keying) (quiet : t.isQuiet = true)
    (request : Request K V) :
    let ended := t.act keying none (.ask request)
    let capacity := ended.2.capacity
    let ready := if capacity = t.capacity then t else t.rehashed capacity
    (∀ key value, Puts request key value →
      ended.1.reservations = Directory.moving t.capacity capacity t.directory.entries ++
        (if t.locate keying key = none then ready.berthing keying key else []) ∧
      ended.1.reservations.map Reservation.named =
        Directory.manifest t.capacity capacity t.directory.entries ++
          (if t.locate keying key = none then
            if (ready.directory.bucketAt
              (Directory.home (keying.route key) ready.capacity)).hasVacancy then []
            else [("bucket slots", 1)]
          else []) ∧
      (Directory.receipts capacity t.directory.entries).sum = t.size) ∧
    (∀ key answer, Takes request key answer →
      ended.1.reservations = Directory.moving t.capacity capacity ended.2.directory.entries ∧
      ended.1.reservations.map Reservation.named =
        Directory.manifest t.capacity capacity ended.2.directory.entries ∧
      (Directory.receipts capacity ended.2.directory.entries).sum = ended.2.size) ∧
    ((∃ key value, Puts request key value) ∨ (∃ key answer, Takes request key answer) →
      (∃ answer, ended.1.answer = .ok answer) ∧
      ∀ n, let short := t.act keying (some n) (.ask request)
        short.1.reservations = ended.1.reservations.take (n + 1) ∧
        (∀ r, short.1.answer = .error (.refused r) ↔ ended.1.reservations[n]? = some r) ∧
        (ended.1.reservations.length ≤ n → short = ended) ∧
        ∀ fault, short.1.answer = .error fault → ∃ what amount,
          (ended.1.reservations.map Reservation.named)[n]? = some (what, amount) ∧
          fault.message = s!"cannot allocate {what}: {amount} more element(s) requested") ∧
    ∀ key value, t.locate keying key ≠ none →
      request = .exchange key value ∨ request = .insert key value ∧ t.size < t.capacity →
      ended.1.reservations = [] ∧
        ∀ allowance, t.act keying allowance (.ask request) = ended := by
  intro ended capacity ready
  have sound := reachable.sound
  have left : ended.2.Sound keying := (reachable.act none (.ask request)).sound
  refine ⟨fun key value puts => ?_, fun key answer takes => ?_, fun calls => ?_, ?_⟩
  · have asked : ended.1.reservations =
        Directory.moving t.capacity capacity t.directory.entries ++
          if t.locate keying key = none then ready.berthing keying key else [] :=
      (sound.metered_put quiet puts).2
    refine ⟨asked, ?_, ?_⟩
    · rw [asked, List.map_append, Directory.map_named_moving, apply_ite (List.map _),
        map_named_berthing, List.map_nil]
    · rw [Directory.sum_receipts left.capacity_pos, sound.size_eq_length]
  · have asked := (sound.metered_take takes).2
    refine ⟨asked, ?_, ?_⟩
    · exact (congrArg _ asked).trans (Directory.map_named_moving _ _ _)
    · rw [Directory.sum_receipts left.capacity_pos, left.size_eq_length]
  · have metered : Metered keying t request := by
      rcases calls with ⟨key, value, puts⟩ | ⟨key, answer, takes⟩
      · exact (sound.metered_put quiet puts).1
      · exact (sound.metered_take takes).1
    exact ⟨metered.answered, metered.act_some⟩
  · intro key value present calls
    obtain ⟨other, nothing, always⟩ := sound.act_unlimited quiet present calls
    have same : ended = other := always none
    exact ⟨same ▸ nothing, fun allowance => (always allowance).trans same.symm⟩

/-- A growth with a new slot behind it, and a shrink; either is refused at each of its places. -/
theorem storage_asked_crowded :
    let grown := crowded.act Session.lastDigit none (.ask (.insert 9 90))
    let shrunk := hollow.act Session.lastDigit none (.ask (.remove 19))
    grown.1.reservations = [⟨.buckets, 8⟩, ⟨.counters, 8⟩, ⟨.slots, 1⟩, ⟨.slots, 1⟩, ⟨.slots, 1⟩,
      ⟨.slots, 1⟩, ⟨.slots, 1⟩] ∧
    grown.1.reservations = Directory.moving 4 8 crowded.directory.entries ++
      (crowded.rehashed 8).berthing Session.lastDigit 9 ∧
    grown.1.reservations.map Reservation.named = [("buckets", 8), ("rehash counters", 8),
      ("bucket slots", 1), ("bucket slots", 1), ("bucket slots", 1), ("bucket slots", 1),
      ("bucket slots", 1)] ∧
    shrunk.1.reservations = [⟨.buckets, 4⟩, ⟨.counters, 4⟩, ⟨.slots, 1⟩, ⟨.slots, 1⟩] ∧
    shrunk.1.reservations = Directory.moving 8 4 shrunk.2.directory.entries ∧
    (crowded.act Session.lastDigit (some 1) (.ask (.insert 9 90))).1.answer =
      .error (.refused ⟨.counters, 8⟩) ∧
    (Fault.refused ⟨.counters, 8⟩).message =
      "cannot allocate rehash counters: 8 more element(s) requested" ∧
    crowded.act Session.lastDigit (some 7) (.ask (.insert 9 90)) = grown ∧
    (hollow.act Session.lastDigit (some 3) (.ask (.remove 19))).1.answer =
      .error (.refused ⟨.slots, 1⟩) ∧
    crowded.act Session.lastDigit (some 0) (.ask (.exchange 11 90)) =
      crowded.act Session.lastDigit none (.ask (.exchange 11 90)) := by
  intro grown shrunk
  have grows : grown.1.reservations = [⟨.buckets, 8⟩, ⟨.counters, 8⟩, ⟨.slots, 1⟩, ⟨.slots, 1⟩,
      ⟨.slots, 1⟩, ⟨.slots, 1⟩, ⟨.slots, 1⟩] := by decide +kernel
  have shrinks : shrunk.1.reservations =
      [⟨.buckets, 4⟩, ⟨.counters, 4⟩, ⟨.slots, 1⟩, ⟨.slots, 1⟩] := by decide +kernel
  have wide : grown.2.capacity = 8 := by decide +kernel
  have narrow : shrunk.2.capacity = 4 := by decide +kernel
  obtain ⟨asked, -, limits, -⟩ := storage_asked reachable_crowded (by decide) (.insert 9 90)
  obtain ⟨-, left, limits', -⟩ := storage_asked reachable_hollow (by decide) (.remove 19)
  obtain ⟨-, -, -, unlimited⟩ := storage_asked reachable_crowded (by decide) (.exchange 11 90)
  obtain ⟨put, named, -⟩ := asked 9 90 (.insert 9 90)
  obtain ⟨taken, -⟩ := left 19 _ (.remove 19)
  obtain ⟨-, short⟩ := limits (.inl ⟨9, 90, .insert 9 90⟩)
  obtain ⟨-, short'⟩ := limits' (.inr ⟨19, _, .remove 19⟩)
  obtain ⟨-, second, -, message⟩ := short 1
  obtain ⟨-, -, covered, -⟩ := short 7
  obtain ⟨-, fourth, -⟩ := short' 3
  have refused := (second ⟨.counters, 8⟩).mpr (congrArg (·[1]?) grows)
  have names : grown.1.reservations.map Reservation.named = [("buckets", 8),
      ("rehash counters", 8), ("bucket slots", 1), ("bucket slots", 1), ("bucket slots", 1),
      ("bucket slots", 1), ("bucket slots", 1)] := by
    rw [named, wide]
    decide +kernel
  refine ⟨grows, ?_, names, shrinks, ?_, refused, ?_, covered ?_, (fourth _).mpr ?_,
    (unlimited 11 90 (by decide) (.inl rfl)).2 (some 0)⟩
  · exact put.trans (by rw [wide]; decide +kernel)
  · exact taken.trans (by rw [narrow]; rfl)
  · obtain ⟨what, amount, present, worded⟩ := message _ refused
    rw [names] at present
    cases present
    exact worded
  · exact Nat.le_of_eq (congrArg List.length grows)
  · exact congrArg (·[3]?) shrinks

end Table

end ChainTable
