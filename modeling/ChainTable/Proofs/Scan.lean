import ChainTable.Proofs.Enumeration
import ChainTable.Proofs.MapSpec
import ChainTable.Proofs.Resize

/-! # Look-ups and a scan of all entries

A look-up searches one bucket and compares the stored hashes.  A scan goes through all live
entries in the order of the iterators and compares the routing hashes of the keys.  On a sound
table both come upon the same entry at the same location, whatever the test of sameness is:
the entries of one routing hash live in one bucket, and their stored hashes are up to date.
-/

namespace ChainTable

variable {K V : Type} {keying : Keying K} {key : K}

/-- No slot before the position found holds an entry that qualifies. -/
theorem Bucket.eq_false_of_position? {p : Entry K V → Bool} {bucket : Bucket K V} {i j : Nat}
    (found : bucket.position? p = some i) (before : j < i) {e : Entry K V}
    (slot : bucket[j]? = some (some e)) : p e = false := by
  obtain ⟨bound, -, first⟩ := List.findIdx?_eq_some_iff_getElem.mp found
  obtain ⟨present, held⟩ := List.getElem?_eq_some_iff.mp slot
  simpa [held] using first j before

namespace Directory

variable {d : Directory K V} {loc : Location} {e : Entry K V}

/-- Among the entries that answer, a look-up gives the one that is first in order. -/
theorem eq_false_of_before_locate (homed : d.Homed) (located : d.locate keying key = some loc)
    {other : Location} {e' : Entry K V} (live : d.entryAt? other = some e')
    (before : other.Before loc) : answers keying key e' = false := by
  obtain ⟨s, position, rfl⟩ := Option.map_eq_some_iff.mp located
  apply Bool.eq_false_iff.mpr
  intro answering
  -- An entry that answers lives in the bucket searched, and the search stops at the first.
  have lives := homed other e' live
  rw [(answers_iff.mp answering).1] at lives
  have slot := entryAt?_eq_some.mp live
  rw [slotAt?, lives] at slot
  rcases before with earlier | ⟨-, earlier⟩
  · exact absurd lives (Nat.ne_of_lt earlier)
  · rw [Bucket.eq_false_of_position? position earlier slot] at answering
    cases answering

/-- An entry that answers, and before which none does, is what a search of all live entries
gives. -/
theorem find?_live_of_first (live : d.entryAt? loc = some e)
    (answering : answers keying key e = true) (first : ∀ other e', d.entryAt? other = some e' →
      other.Before loc → answers keying key e' = false) :
    d.live.find? (fun item => answers keying key item.2) = some (loc, e) := by
  obtain ⟨before, after, whole, early, -⟩ := exists_live_around live
  rw [List.find?_eq_some_iff_append]
  refine ⟨answering, before, after, whole, fun item member => ?_⟩
  obtain ⟨occupied, earlier⟩ := early item member
  rw [first item.1 item.2 occupied earlier]
  rfl

theorem find?_live_of_locate (homed : d.Homed) (located : d.locate keying key = some loc)
    (live : d.entryAt? loc = some e) :
    d.live.find? (fun item => answers keying key item.2) = some (loc, e) := by
  obtain ⟨e', live', answering, -⟩ := exists_of_locate located
  cases live.symm.trans live'
  exact find?_live_of_first live answering fun _ _ occupied before =>
    eq_false_of_before_locate homed located occupied before

end Directory

namespace Table

variable {t t' : Table K V} {allowance : Option Nat} {request : Request K V}
  {reply : Reply (Answer K V)}

/-- The first of all live entries, in the order of the iterators, whose key is alike to the
key sought. -/
def scan (keying : Keying K) (key : K) (t : Table K V) : Option (Location × Entry K V) :=
  t.directory.live.find? fun item => keying.Alike key item.2.key

theorem scan_eq_none : t.scan keying key = none ↔
    ∀ loc e, t.entryAt? loc = some e → ¬ keying.Alike key e.key := by
  simp only [scan, List.find?_eq_none, decide_eq_true_iff, Prod.forall, Directory.mem_live]
  rfl

section Scan

variable (sound : t.Sound keying)

include sound

theorem Sound.scan_eq (key : K) : t.scan keying key =
    t.directory.live.find? fun item => Directory.answers keying key item.2 := by
  rw [scan, ← List.head?_filter, ← List.head?_filter]
  congr 1
  apply List.filter_congr
  intro item member
  rw [Bool.eq_iff_iff, decide_eq_true_iff]
  exact (sound.answers_iff (Directory.mem_live.mp member)).symm

theorem Sound.found_eq_scan (key : K) :
    t.found keying key = (t.scan keying key).map Prod.snd := by
  rw [sound.found_eq_find?, ← Directory.map_snd_live, List.find?_map, sound.scan_eq]
  rfl

/-- A look-up finds the entry that answers and before which none does. -/
theorem Sound.found_of_first {loc : Location} {e : Entry K V} (live : t.entryAt? loc = some e)
    (answering : Directory.answers keying key e = true)
    (first : ∀ other e', t.entryAt? other = some e' → other.Before loc →
      Directory.answers keying key e' = false) : t.found keying key = some e := by
  rw [sound.found_eq_scan, sound.scan_eq, Directory.find?_live_of_first live answering first]
  rfl

theorem Sound.scan_of_locate {loc : Location} {e : Entry K V}
    (located : t.locate keying key = some loc) (live : t.entryAt? loc = some e) :
    t.scan keying key = some (loc, e) := by
  rw [sound.scan_eq]
  exact Directory.find?_live_of_locate sound.directory_homed located live

theorem Sound.scan_of_found_none (absent : t.found keying key = none) :
    t.scan keying key = none := by
  rw [sound.found_eq_scan, Option.map_eq_none_iff] at absent
  exact absent

theorem Sound.locate_eq_scan (key : K) :
    t.locate keying key = (t.scan keying key).map Prod.fst := by
  cases located : t.locate keying key with
  | none => rw [sound.scan_of_found_none (locate_eq_none.mp located), Option.map_none]
  | some loc =>
    obtain ⟨e, live, -, -⟩ := exists_of_locate located
    rw [sound.scan_of_locate located live, Option.map_some]

theorem Sound.listing_find? (key : K) :
    (t.listing none).items.find? (fun pair => keying.Alike key pair.1) =
      (t.scan keying key).map fun item => item.2.pair := by
  rw [sound.listing_none, List.find?_map]
  rfl

end Scan

/-- How a request that takes a key out ends: refused, with the table as it was, or with the
entry that a scan comes upon first taken out of its slot. -/
theorem Effect.take_ends (sound : t.Sound keying) {answer : Option (K × V) → Answer K V}
    (takes : Takes request key answer)
    (effect : Effect keying allowance t (.ask request) reply t') :
    (∃ r, reply.answer = .error (.refused r) ∧ allowance ≠ none ∧ t' = t) ∨
      reply.answer = .ok (answer ((t.scan keying key).map fun item => item.2.pair)) ∧
        t' = (t.scan keying key).elim t fun item => (t.without item.1).slimmed := by
  cases effect.taking takes with
  | absent absent =>
    rw [sound.scan_of_found_none absent]
    exact .inr ⟨rfl, rfl⟩
  | taken located live =>
    rw [sound.scan_of_locate located live]
    exact .inr ⟨rfl, rfl⟩
  | refused _ _ short => exact .inl ⟨_, rfl, short.limited, rfl⟩

/-- A change in place reaches the entry that a scan comes upon first. -/
theorem Effect.modify_ends (sound : t.Sound keying) {f : V → V}
    (effect : Effect keying allowance t (.ask (.modify key f)) reply t') :
    reply.answer = .ok (.value ((t.scan keying key).map fun item => item.2.value)) ∧
      t' = (t.scan keying key).elim t fun (loc, e) =>
        t.rewritten loc { e with value := f e.value } := by
  cases effect with
  | modifiedNone absent =>
    rw [sound.scan_of_found_none absent]
    exact ⟨rfl, rfl⟩
  | modified located live =>
    rw [sound.scan_of_locate located live]
    exact ⟨rfl, rfl⟩
  | whileOpen needs => cases needs
  | notOpen uses => cases uses
  | growthRefused puts | slotRefused puts => cases puts
  | takenNone takes | taken takes | shrinkRefused takes => cases takes
  | read reads => cases reads

/-- Of any table that actions lead to, whatever its hash and its test of sameness are, and
for any key: a look-up comes upon the pair that is the first, among all the pairs that an
iterator gives and in its order, whose key has the routing hash of the key sought and is the
same to the test.  That pair is read, reported, changed in place and taken out, at the
location where a scan meets it; and nothing is found exactly where no live entry qualifies. -/
theorem lookups_scan (reachable : t.Reachable keying) (key : K) (allowance : Option Nat) :
    ∃ listing, t.act keying allowance (.ask (.iterate none)) =
        (⟨.ok (.listing listing), [], []⟩, t) ∧
      listing.items = t.directory.live.map (fun item => item.2.pair) ∧
      let first := listing.items.find? fun pair => keying.Alike key pair.1
      first = (t.scan keying key).map (fun item => item.2.pair) ∧
      t.locate keying key = (t.scan keying key).map Prod.fst ∧
      (first = none ↔ ∀ loc e, t.entryAt? loc = some e → ¬ keying.Alike key e.key) ∧
      t.act keying allowance (.ask (.lookup key)) =
        (⟨.ok (.value (first.map Prod.snd)), [], []⟩, t) ∧
      t.act keying allowance (.ask (.contains key)) = (⟨.ok (.flag first.isSome), [], []⟩, t) ∧
      (∀ f, (t.act keying allowance (.ask (.modify key f))).1.answer =
          .ok (.value (first.map Prod.snd)) ∧
        (t.act keying allowance (.ask (.modify key f))).2 =
          (t.scan keying key).elim t fun (loc, e) =>
            t.rewritten loc { e with value := f e.value }) ∧
      ∀ request answer, Takes request key answer →
        (∃ r, (t.act keying allowance (.ask request)).1.answer = .error (.refused r) ∧
          allowance ≠ none ∧ (t.act keying allowance (.ask request)).2 = t) ∨
        (t.act keying allowance (.ask request)).1.answer = .ok (answer first) ∧
          (t.act keying allowance (.ask request)).2 =
            (t.scan keying key).elim t fun item => (t.without item.1).slimmed := by
  have sound := reachable.sound
  have met := sound.listing_find? key
  refine ⟨t.listing none, sound.act_iterate allowance none, ?_, met, sound.locate_eq_scan key, ?_,
    ?_, ?_, fun f => ?_, fun request answer takes => ?_⟩
  · rw [sound.listing_none]
  · rw [met, Option.map_eq_none_iff, scan_eq_none]
  · rw [met, Option.map_map]
    have read : t.lookup keying key = (t.scan keying key).map fun item => item.2.value := by
      rw [lookup_eq, sound.found_eq_scan, Option.map_map]
      rfl
    exact Call.perform_of_same (by simp [Action.run, Request.run, read]; rfl)
  · rw [met, Option.isSome_map]
    have read : t.contains keying key = (t.scan keying key).isSome := by
      rw [contains_eq, sound.found_eq_scan, Option.isSome_map]
    exact Call.perform_of_same (by simp [Action.run, Request.run, read])
  · rw [met, Option.map_map]
    exact (effect_act sound allowance _).modify_ends sound
  · rw [met]
    exact (effect_act sound allowance _).take_ends sound takes

/-- Both entries answer to 4, only the second to 10, and none to 13, though all hashes agree. -/
theorem lookups_scan_tangled :
    ∃ listing, tangled.act atMost none (.ask (.iterate none)) =
        (⟨.ok (.listing listing), [], []⟩, tangled) ∧
      listing.items = [(9, 90), (12, 120)] ∧
      (tangled.act atMost none (.ask (.lookup 4))).1.answer = .ok (.value (some 90)) ∧
      tangled.locate atMost 4 = some ⟨3, 1⟩ ∧
      (tangled.act atMost none (.ask (.modify 10 (· + 1)))).2 =
        tangled.rewritten ⟨3, 2⟩ ⟨12, 121, 7⟩ ∧
      (tangled.act atMost none (.ask (.extract 4))).1.answer = .ok (.pair (some (9, 90))) ∧
      (tangled.act atMost none (.ask (.extract 4))).2 = tangled.without ⟨3, 1⟩ ∧
      tangled.act atMost none (.ask (.contains 13)) = (⟨.ok (.flag false), [], []⟩, tangled) := by
  obtain ⟨listing, iterated, items, -, location, -, read, -, -, taken⟩ :=
    lookups_scan reachable_tangled 4 none
  obtain ⟨_, -, -, -, -, -, -, -, modified, -⟩ := lookups_scan reachable_tangled 10 none
  obtain ⟨_, -, same, -, -, -, -, contained, -⟩ := lookups_scan reachable_tangled 13 none
  have pairs : tangled.directory.live.map (fun item => item.2.pair) = [(9, 90), (12, 120)] := by
    decide
  have scanned : tangled.scan atMost 4 = some (⟨3, 1⟩, ⟨9, 90, 7⟩) := by decide
  have second : tangled.scan atMost 10 = some (⟨3, 2⟩, ⟨12, 120, 7⟩) := by decide
  rw [pairs] at items same
  rw [items] at read
  rw [same] at contained
  rcases taken _ _ (.extract 4) with ⟨-, -, limited, -⟩ | ⟨answered, left⟩
  · exact absurd rfl limited
  rw [items] at answered
  refine ⟨listing, iterated, items, ?_, ?_, ?_, answered, ?_, contained⟩
  · rw [read]
    rfl
  · rw [location, scanned]
    rfl
  · rw [(modified _).2, second]
    rfl
  · rw [left, scanned]
    rfl

end Table

end ChainTable
