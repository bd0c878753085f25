import ChainTable.Proofs.Bag
import ChainTable.Proofs.HashClasses
import ChainTable.Proofs.Scan
import ChainTable.Proofs.Storage

/-! # The two ways to insert

`insert` makes room before it looks for the key, `exchange` looks before it makes room.  Where
the key is absent both end in the same table.  Where it is present they rewrite the same entry,
though the insertion may look for it in a table that has grown: a resize takes an entry along,
with what is written over it, and a look-up that designates it before the resize still does so
afterwards (`exists_landing`).
-/

namespace ChainTable

variable {K V : Type} {keying : Keying K} {key : K}

namespace Directory

variable {capacity : Nat} {before after : List (Entry K V)} {e e' : Entry K V}

/-- Where a rehash puts an entry that the entries `before` precede. -/
def landing (capacity : Nat) (before : List (Entry K V)) (e : Entry K V) : Location :=
  ⟨home e.hash capacity, (belonging capacity before (home e.hash capacity)).length⟩

theorem belonging_around (capacity : Nat) (before : List (Entry K V)) (e : Entry K V)
    (after : List (Entry K V)) (i : Nat) : belonging capacity (before ++ e :: after) i =
      belonging capacity before i ++
        if home e.hash capacity = i then e :: belonging capacity after i
        else belonging capacity after i := by
  simp [belonging, List.filter_append, List.filter_cons]

/-- Gathering commutes with the rewriting of an entry that keeps its hash. -/
theorem gather_around (same : e'.hash = e.hash) :
    gather capacity (before ++ e' :: after) =
      (gather capacity (before ++ e :: after)).setSlot (landing capacity before e) (some e') := by
  apply Array.ext_getElem?
  intro i
  rw [setSlot, Array.getElem?_modify]
  by_cases inside : i < capacity
  · simp only [gather, Array.getElem?_map, Array.getElem?_range, inside, if_true, Option.map_some,
      belonging_around, same, landing]
    by_cases own : home e.hash capacity = i
    · simp [own]
    · simp [own]
  · have outside : capacity ≤ i := Nat.not_lt.mp inside
    simp [outside]

section Landing

variable (positive : 0 < capacity)

include positive

theorem entryAt?_landing :
    (gather capacity (before ++ e :: after)).entryAt? (landing capacity before e) = some e := by
  have inside : home e.hash capacity < capacity := home_lt e.hash positive
  rw [entryAt?_eq_some, slotAt?, landing, bucketAt_gather inside, belonging_around, if_pos rfl]
  simp

/-- The first entry that answers is the first one in its new bucket. -/
theorem locate_gather (answering : answers keying key e = true)
    (first : ∀ x ∈ before, answers keying key x = false) :
    (gather capacity (before ++ e :: after)).locate keying key =
      some (landing capacity before e) := by
  have hash : e.hash = keying.route key := (answers_iff.mp answering).1
  have inside : home (keying.route key) capacity < capacity := home_lt _ positive
  have passed : (belonging capacity before (home (keying.route key) capacity)).findIdx?
      (answers keying key) = none := by
    rw [List.findIdx?_eq_none_iff]
    exact fun x member => first x (List.mem_of_mem_filter member)
  simp only [locate, landing, size_gather, bucketAt_gather inside, belonging_around, hash,
    if_true, Bucket.position?, List.findIdx?_map, Function.comp_def, Option.any_some]
  simp [List.findIdx?_append, List.findIdx?_cons, passed, answering]

end Landing

end Directory

namespace Table

variable {t : Table K V} {loc : Location} {e : Entry K V}

/-- The entries before the one at a location, and those behind it. -/
theorem exists_entries_around (live : t.entryAt? loc = some e) :
    ∃ before after, t.directory.entries = before ++ e :: after ∧
      (∀ e', (t.rewritten loc e').directory.entries = before ++ e' :: after) ∧
      ∀ x ∈ before, ∃ other, t.entryAt? other = some x ∧ other.Before loc := by
  obtain ⟨before, after, whole, early, -⟩ := Directory.exists_live_around live
  refine ⟨before.map Prod.snd, after.map Prod.snd, ?_, fun e' => ?_, ?_⟩
  · rw [← Directory.map_snd_live, whole, List.map_append, List.map_cons]
  · rw [← Directory.map_snd_live, rewritten, Directory.live_setSlot whole, List.map_append,
      List.map_cons]
  · rw [List.forall_mem_map]
    exact fun item member => ⟨item.1, early item member⟩

/-- A resize takes an entry along: whatever is written over it in its slot, key and value, could
as well be written over it afterwards.  And the key that designates it before the resize
designates it afterwards. -/
theorem Sound.exists_landing (sound : t.Sound keying) (located : t.locate keying key = some loc)
    (live : t.entryAt? loc = some e) {capacity : Nat} (positive : 0 < capacity) :
    ∃ loc', (t.rehashed capacity).locate keying key = some loc' ∧
      (t.rehashed capacity).entryAt? loc' = some e ∧ ∀ e' : Entry K V, e'.hash = e.hash →
        (t.rewritten loc e').rehashed capacity = (t.rehashed capacity).rewritten loc' e' := by
  obtain ⟨before, after, whole, rewriting, earlier⟩ := exists_entries_around live
  have first : ∀ x ∈ before, Directory.answers keying key x = false := by
    intro x member
    obtain ⟨other, occupied, precedes⟩ := earlier x member
    exact Directory.eq_false_of_before_locate sound.directory_homed located occupied precedes
  refine ⟨Directory.landing capacity before e, ?_, ?_, fun e' same => ?_⟩
  · rw [locate, Table.rehashed, whole]
    exact Directory.locate_gather positive (answers_of_locate located live) first
  · rw [entryAt?_eq, Table.rehashed, whole]
    exact Directory.entryAt?_landing positive
  · rw [Table.rehashed, rewriting, Directory.gather_around same, ← whole]
    rfl

/-! ## The two calls -/

section Calls

variable (sound : t.Sound keying) (quiet : t.isQuiet = true) (value : V)

include sound quiet

theorem Sound.act_put_absent {request : Request K V} (puts : Puts request key value)
    (absent : t.found keying key = none) : t.act keying none (.ask request) =
      (⟨.ok request.freshAnswer, t.growth ++ t.roomy.berthing keying key, t.growthRecords⟩,
        t.roomy.stored ⟨key, value, keying.route key⟩) :=
  ((effect_act sound none (.ask request)).settles_fresh quiet puts absent).eq_of_grants
    (grants_none _)

theorem Sound.act_insert_present (found : t.found keying key = some e)
    (located : t.roomy.locate keying key = some loc) :
    t.act keying none (.ask (.insert key value)) =
      (⟨.ok (.outcome .updated), t.growth, t.growthRecords⟩,
        t.roomy.rewritten loc { e with value }) :=
  ((effect_act sound none (.ask (.insert key value))).settles_update quiet found
    located).eq_of_grants (grants_none _)

end Calls

theorem Counted.resize_unlimited (counted : t.Counted) (quiet : t.isQuiet = true) {capacity : Nat}
    (least : leastCapacity ≤ capacity) :
    ((resize capacity).perform none t).1.answer = .ok none ∧
      ((resize capacity).perform none t).2 = t.rehashed capacity := by
  rcases perform_resize counted quiet least none with ⟨_, -, limited, -⟩ | done
  · exact absurd rfl limited
  · exact done

/-- Of any table that actions lead to, while no cursor is open, whatever its hash and its test
of sameness are, and where no storage is refused: an insertion answers that it has updated an
entry exactly where an exchange hands a pair back.  A key that is absent comes to be in one and
the same table.  The entry that a look-up designates is rewritten in its slot by either; the
insertion keeps its key, and the exchange does not.  Only where the table is full the insertion
has doubled it before, with the same entry designated; it leaves what a resize makes of the
table with the entry rewritten. -/
theorem insertions_agree (reachable : t.Reachable keying) (quiet : t.isQuiet = true) (key : K)
    (value : V) :
    let inserted := t.act keying none (.ask (.insert key value))
    let exchanged := t.act keying none (.ask (.exchange key value))
    (∃ outcome pair, inserted.1.answer = .ok (.outcome outcome) ∧
      exchanged.1.answer = .ok (.pair pair) ∧ (outcome = .updated ↔ pair.isSome = true)) ∧
    (t.locate keying key = none → inserted.2 = exchanged.2) ∧
    ∀ loc, t.locate keying key = some loc → ∃ e, t.entryAt? loc = some e ∧
      exchanged.2 = t.rewritten loc { e with key, value } ∧
      exchanged.2.capacity = t.capacity ∧
      (t.size < t.capacity → inserted.2 = t.rewritten loc { e with value }) ∧
      (t.size = t.capacity →
        let doubled := (resize (t.capacity * 2)).perform none t
        doubled.1.answer = .ok none ∧
        (∃ loc', doubled.2.locate keying key = some loc' ∧ doubled.2.entryAt? loc' = some e ∧
          inserted.2 = doubled.2.rewritten loc' { e with value }) ∧
        inserted.2 =
          ((resize (t.capacity * 2)).perform none (t.rewritten loc { e with value })).2) := by
  intro inserted exchanged
  have sound := reachable.sound
  cases located : t.locate keying key with
  | none =>
    have absent := locate_eq_none.mp located
    have inserts : inserted = _ := sound.act_put_absent quiet value (.insert key value) absent
    have exchanges : exchanged = _ := sound.act_put_absent quiet value (.exchange key value) absent
    rw [inserts, exchanges]
    exact ⟨⟨.inserted, none, rfl, rfl, by simp⟩, fun _ => rfl, nofun⟩
  | some loc =>
    obtain ⟨e, live, -, found⟩ := exists_of_locate located
    have exchanges : exchanged = _ := act_exchange quiet located live value none
    have positive : 0 < t.capacity * 2 := Nat.mul_pos sound.capacity_pos (by decide)
    have updates : ∃ loc', t.roomy.locate keying key = some loc' := by
      rw [← Option.ne_none_iff_exists', ne_eq, locate_eq_none, sound.found_roomy, found]
      nofun
    obtain ⟨loc', stays⟩ := updates
    have inserts : inserted = _ := sound.act_insert_present quiet value found stays
    refine ⟨⟨.updated, some e.pair, by rw [inserts], by rw [exchanges], by simp⟩, nofun, ?_⟩
    rintro _ ⟨⟩
    refine ⟨e, live, by rw [exchanges], by rw [exchanges]; exact capacity_rewritten .., ?_, ?_⟩
    · intro room
      have same := roomy_of_room (t := t) (by simpa [isFull] using room)
      rw [same, located] at stays
      cases stays
      rw [inserts, same]
    · intro full
      have grown := roomy_of_full (t := t) (by simp [isFull, full])
      have least : leastCapacity ≤ t.capacity * 2 :=
        Nat.le_trans sound.least_le (Nat.le_mul_of_pos_right _ (by decide))
      obtain ⟨answered, left⟩ := sound.resize_unlimited quiet least
      obtain ⟨-, left'⟩ := (sound.revalued live value).resize_unlimited quiet least
      obtain ⟨_, designated, moved, commutes⟩ := sound.exists_landing located live positive
      rw [grown, designated] at stays
      cases stays
      refine ⟨answered, ⟨loc', ?_, ?_, ?_⟩, ?_⟩
      · rw [left, designated]
      · rw [left, moved]
      · rw [inserts, grown, left]
      · rw [inserts, grown, left', commutes { e with value } rfl]

/-- Four entries in four buckets; two of them answer to 1, behind one that does not. -/
def heaped : Table Nat Nat :=
  ⟨#[[], [some ⟨5, 50, 5⟩, some ⟨10, 100, 1⟩, some ⟨19, 190, 1⟩], [some ⟨2, 20, 2⟩], []], 4,
    Registry.new 1⟩

theorem reachable_heaped : heaped.Reachable Session.ninths := by
  have filled : (new 1 : Table Nat Nat).afterAll Session.ninths
      [⟨none, .ask (.insert 5 50)⟩, ⟨none, .ask (.insert 10 100)⟩, ⟨none, .ask (.insert 19 190)⟩,
        ⟨none, .ask (.insert 2 20)⟩] = heaped := by decide +kernel
  rw [← filled]
  exact (Reachable.new 1).afterAll _

/-- The exchange rewrites the second slot of the bucket, the insertion the first one of what is
left of it. -/
theorem insertions_agree_heaped :
    let inserted := heaped.act Session.ninths none (.ask (.insert 1 7))
    let exchanged := heaped.act Session.ninths none (.ask (.exchange 1 7))
    exchanged.2 = heaped.rewritten ⟨1, 1⟩ ⟨1, 7, 1⟩ ∧ exchanged.2.capacity = 4 ∧
      inserted.2 = (heaped.rehashed 8).rewritten ⟨1, 0⟩ ⟨10, 7, 1⟩ ∧
      inserted.1.answer = .ok (.outcome .updated) ∧
      exchanged.1.answer = .ok (.pair (some (10, 100))) := by
  intro inserted exchanged
  obtain ⟨⟨outcome, pair, answered, handed, agree⟩, -, present⟩ :=
    insertions_agree reachable_heaped (by decide) 1 7
  obtain ⟨e, live, exchanges, kept, -, doubles⟩ := present ⟨1, 1⟩ (by decide)
  have designated : heaped.entryAt? ⟨1, 1⟩ = some ⟨10, 100, 1⟩ := by decide
  cases designated.symm.trans live
  obtain ⟨-, ⟨loc', located, -, inserts⟩, -⟩ := doubles (by decide)
  have wide : ((resize (heaped.capacity * 2)).perform none heaped).2 = heaped.rehashed 8 := by
    decide +kernel
  rw [wide] at located inserts
  have first : (heaped.rehashed 8).locate Session.ninths 1 = some ⟨1, 0⟩ := by decide +kernel
  cases first.symm.trans located
  have given : exchanged.1.answer = .ok (.pair (some (10, 100))) := by decide +kernel
  cases given.symm.trans handed
  rw [agree.mpr rfl] at answered
  exact ⟨exchanges, kept, inserts, answered, given⟩

end Table

end ChainTable
