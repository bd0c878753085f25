import ChainTable.Proofs.MapSpec

/-! # A table refines its finite map

`Stands` relates a table to the map it stands for: the pairs of the map are those of
the live entries, each under the class of its key, and every open cursor is on the entry
of its class, or on the slot that entry was removed from.  Whatever a call answers, the
map answers as well (`Effect.mapStep`), and by induction so does every run from a new
table on, with refused storage and refused calls among the others.
-/

namespace ChainTable

variable {K V : Type} {keying : Keying K} {equivalence : keying.IsEquivalence}

namespace Table

/-- The pairs of a map are those of the live entries, by the classes of their keys. -/
def Holds (t : Table K V) (pairs : PairMap V equivalence) : Prop :=
  ∀ κ pair, pairs.lookup κ = some pair ↔
    ∃ loc e, t.entryAt? loc = some e ∧ equivalence.classOf e.key = κ ∧ e.pair = pair

inductive Points (t : Table K V) (pairs : PairMap V equivalence) :
    Position → Option (KeyClass equivalence) → Prop where
  | beforeFirst : Points t pairs .beforeFirst none
  | exhausted : Points t pairs .exhausted none
  | live {loc e κ} (live : t.entryAt? loc = some e) (own : equivalence.classOf e.key = κ) :
      Points t pairs (.on loc) (some κ)
  | gone {loc κ} (vacant : t.entryAt? loc = none) (absent : pairs.lookup κ = none) :
      Points t pairs (.on loc) (some κ)

/-- A table stands for a map with cursors. -/
structure Stands (t : Table K V) (m : MapState V equivalence) : Prop where
  holds : t.Holds m.pairs
  closed : ∀ c, (∀ position, t.cursors.standing c ≠ .ok position) → m.cursors c = none
  opened : ∀ c position, t.cursors.standing c = .ok position →
    ∃ current, m.cursors c = some current ∧ t.Points m.pairs position current

variable {t : Table K V} {pairs : PairMap V equivalence} {loc : Location} {e e' : Entry K V}

/-! ## The pairs -/

section Holds

variable (holds : t.Holds pairs)

include holds

theorem Holds.lookup_of_live (live : t.entryAt? loc = some e) :
    pairs.lookup (equivalence.classOf e.key) = some e.pair :=
  (holds _ _).mpr ⟨loc, e, live, rfl, rfl⟩

theorem Holds.lookup_eq (sound : t.Sound keying) (key : K) :
    pairs.lookup (equivalence.classOf key) = (t.found keying key).map Entry.pair := by
  cases located : t.locate keying key with
  | some loc =>
    obtain ⟨e, live, answers, found⟩ := exists_of_locate located
    have own : equivalence.classOf key = equivalence.classOf e.key :=
      classOf_eq.mpr ((sound.answers_iff live).mp answers)
    rw [own, holds.lookup_of_live live, found]
    rfl
  | none =>
    have absent := locate_eq_none.mp located
    rw [absent, Option.map_none, Option.eq_none_iff_forall_ne_some]
    intro pair present
    obtain ⟨loc, e, live, own, -⟩ := (holds _ _).mp present
    exact sound.not_alike_of_found_none absent live (classOf_eq.mp own.symm)

theorem Holds.card_eq (sound : t.Sound keying) (distinct : t.Distinct keying) :
    pairs.card = t.size := by
  -- Distinct entries have distinct classes, so the keys of the map are counted by entries.
  have nodup : (t.directory.entries.map fun e => equivalence.classOf e.key).Nodup := by
    refine List.pairwise_map.mpr (((distinct_iff_pairwise equivalence).mp distinct).imp ?_)
    intro a b apart same
    exact apart (classOf_eq.mp same)
  have keys : pairs.keys = (t.directory.entries.map fun e => equivalence.classOf e.key).toFinset := by
    ext κ
    rw [Finmap.mem_keys, Finmap.mem_iff, List.mem_toFinset, List.mem_map]
    constructor
    · rintro ⟨pair, present⟩
      obtain ⟨loc, e, live, own, -⟩ := (holds _ _).mp present
      exact ⟨e, Directory.mem_entries.mpr ⟨loc, live⟩, own⟩
    · rintro ⟨e, member, rfl⟩
      obtain ⟨loc, live⟩ := Directory.mem_entries.mp member
      exact ⟨e.pair, holds.lookup_of_live live⟩
  rw [PairMap.card, keys, List.toFinset_card_of_nodup nodup, List.length_map,
    sound.size_eq_length]

theorem Holds.rehashed {capacity : Nat} (positive : 0 < capacity) :
    (t.rehashed capacity).Holds pairs := by
  intro κ pair
  have member : ∀ e, (∃ loc, (t.rehashed capacity).entryAt? loc = some e) ↔
      ∃ loc, t.entryAt? loc = some e := fun e =>
    Directory.mem_entries.symm.trans
      ((Directory.entries_gather_perm positive t.directory.entries).mem_iff.trans
        Directory.mem_entries)
  rw [holds]
  constructor
  · rintro ⟨loc, e, live, own⟩
    obtain ⟨loc', live'⟩ := (member e).mpr ⟨loc, live⟩
    exact ⟨loc', e, live', own⟩
  · rintro ⟨loc, e, live, own⟩
    obtain ⟨loc', live'⟩ := (member e).mp ⟨loc, live⟩
    exact ⟨loc', e, live', own⟩

/-- A change at one class: elsewhere neither the map nor the entries change. -/
theorem Holds.changed {t' : Table K V} {pairs' : PairMap V equivalence} {κ : KeyClass equivalence}
    (off : ∀ κ', κ' ≠ κ → pairs'.lookup κ' = pairs.lookup κ')
    (kept : ∀ loc e, equivalence.classOf e.key ≠ κ →
      (t'.entryAt? loc = some e ↔ t.entryAt? loc = some e))
    (changed : ∀ pair, pairs'.lookup κ = some pair ↔
      ∃ loc e, t'.entryAt? loc = some e ∧ equivalence.classOf e.key = κ ∧ e.pair = pair) :
    t'.Holds pairs' := by
  intro κ' pair
  by_cases own : κ' = κ
  · rw [own]
    exact changed pair
  · rw [off κ' own, holds]
    constructor
    · rintro ⟨loc, e, live, rfl, same⟩
      exact ⟨loc, e, (kept loc e own).mpr live, rfl, same⟩
    · rintro ⟨loc, e, live, rfl, same⟩
      exact ⟨loc, e, (kept loc e own).mp live, rfl, same⟩

theorem Holds.stored (positive : 0 < t.capacity)
    (absent : pairs.lookup (equivalence.classOf e.key) = none) :
    (t.stored e).Holds (pairs.insert (equivalence.classOf e.key) e.pair) := by
  refine holds.changed (fun κ' own => Finmap.lookup_insert_of_ne _ own)
    (fun loc e' other => ?_) fun pair => ?_
  · rw [entryAt?_stored loc e positive]
    split
    case isTrue here =>
      have vacant : t.entryAt? loc = none := here ▸ t.directory.entryAt?_berthOf e
      rw [vacant, Option.some.injEq]
      exact iff_of_false (fun same => other (same ▸ rfl)) (by simp)
    case isFalse => rfl
  · rw [Finmap.lookup_insert, Option.some.injEq]
    constructor
    · rintro rfl
      exact ⟨_, e, by rw [entryAt?_stored _ e positive, if_pos rfl], rfl, rfl⟩
    · rintro ⟨loc, e', live, same, rfl⟩
      rw [entryAt?_stored loc e positive] at live
      split at live
      · cases live
        rfl
      · rw [← same, holds.lookup_of_live live] at absent
        cases absent

/-- Where an entry is exchanged for one of its class, no other entry has that class. -/
theorem Holds.rewritten (distinct : t.Distinct keying) (live : t.entryAt? loc = some e)
    (same : equivalence.classOf e'.key = equivalence.classOf e.key) :
    (t.rewritten loc e').Holds (pairs.insert (equivalence.classOf e.key) e'.pair) := by
  refine holds.changed (fun κ' own => Finmap.lookup_insert_of_ne _ own)
    (fun other e₁ differs => ?_) fun pair => ?_
  · rw [entryAt?_rewritten other live]
    split
    case isTrue here =>
      rw [here, live, Option.some.injEq, Option.some.injEq]
      exact iff_of_false (fun eq => differs (eq ▸ same)) (fun eq => differs (eq ▸ rfl))
    case isFalse => rfl
  · rw [Finmap.lookup_insert, Option.some.injEq]
    constructor
    · rintro rfl
      exact ⟨loc, e', by rw [entryAt?_rewritten loc live, if_pos rfl], same, rfl⟩
    · rintro ⟨other, e₁, live₁, alike, rfl⟩
      rw [entryAt?_rewritten other live] at live₁
      split at live₁
      case isTrue =>
        cases live₁
        rfl
      case isFalse differs =>
        exact absurd (distinct other loc e₁ e live₁ live (classOf_eq.mp alike)) differs

theorem Holds.without (distinct : t.Distinct keying) (live : t.entryAt? loc = some e) :
    (t.without loc).Holds (pairs.erase (equivalence.classOf e.key)) := by
  refine holds.changed (fun κ' own => Finmap.lookup_erase_ne own)
    (fun other e₁ differs => ?_) fun pair => ?_
  · rw [entryAt?_without other live]
    split
    case isTrue here =>
      rw [here, live, Option.some.injEq]
      exact iff_of_false (by simp) (fun eq => differs (eq ▸ rfl))
    case isFalse => rfl
  · rw [Finmap.lookup_erase]
    constructor
    · rintro ⟨⟩
    · rintro ⟨other, e₁, live₁, alike, -⟩
      rw [entryAt?_without other live] at live₁
      split at live₁
      case isTrue => cases live₁
      case isFalse differs =>
        exact absurd (distinct other loc e₁ e live₁ live (classOf_eq.mp alike)) differs

end Holds

/-! ## The cursors -/

variable {position : Position} {current : Option (KeyClass equivalence)}

theorem Points.rewritten (points : t.Points pairs position current) (holds : t.Holds pairs)
    (live : t.entryAt? loc = some e)
    (same : equivalence.classOf e'.key = equivalence.classOf e.key) :
    (t.rewritten loc e').Points (pairs.insert (equivalence.classOf e.key) e'.pair)
      position current := by
  cases points with
  | beforeFirst => exact .beforeFirst
  | exhausted => exact .exhausted
  | @live seat _ _ occupied own =>
    by_cases here : seat = loc
    · subst here
      rw [live] at occupied
      cases occupied
      exact .live (by rw [entryAt?_rewritten _ live, if_pos rfl]) (same.trans own)
    · exact .live (by rw [entryAt?_rewritten _ live, if_neg here, occupied]) own
  | @gone seat κ vacant absent =>
    -- The rewritten entry is live, so neither its slot nor its class is the cursor's.
    have elsewhere : seat ≠ loc := by
      rintro rfl
      rw [live] at vacant
      cases vacant
    have other : κ ≠ equivalence.classOf e.key := by
      rintro rfl
      rw [holds.lookup_of_live live] at absent
      cases absent
    apply Points.gone
    · rw [entryAt?_rewritten _ live, if_neg elsewhere, vacant]
    · rw [Finmap.lookup_insert_of_ne _ other, absent]

theorem Points.without (points : t.Points pairs position current)
    (live : t.entryAt? loc = some e) :
    (t.without loc).Points (pairs.erase (equivalence.classOf e.key)) position current := by
  cases points with
  | beforeFirst => exact .beforeFirst
  | exhausted => exact .exhausted
  | @live seat _ _ occupied own =>
    by_cases here : seat = loc
    · subst here
      rw [live] at occupied
      cases occupied
      apply Points.gone
      · rw [entryAt?_without _ live, if_pos rfl]
      · rw [← own, Finmap.lookup_erase]
    · exact .live (by rw [entryAt?_without _ live, if_neg here, occupied]) own
  | @gone seat κ vacant absent =>
    apply Points.gone
    · rw [entryAt?_without _ live, vacant, ite_self]
    · by_cases own : κ = equivalence.classOf e.key
      · rw [own, Finmap.lookup_erase]
      · rw [Finmap.lookup_erase_ne own, absent]

theorem Points.registering (points : t.Points pairs position current) (cursors : Registry) :
    (t.registering cursors).Points pairs position current := by
  cases points with
  | beforeFirst => exact .beforeFirst
  | exhausted => exact .exhausted
  | live occupied own => exact .live occupied own
  | gone vacant absent => exact .gone vacant absent

/-! ## Tables and maps that change together -/

section Stands

variable {m : MapState V equivalence} (stands : t.Stands m)

include stands

theorem Stands.quiet (quiet : t.isQuiet = true) : m.Quiet := fun c =>
  stands.closed c (Registry.standing_ne_ok (live_eq_zero quiet) c)

theorem Stands.busy (busy : t.isQuiet = false) : ¬ m.Quiet := by
  have positive : 0 < t.cursors.live := by
    simpa [isQuiet, liveCursors, Nat.pos_iff_ne_zero] using busy
  obtain ⟨c, position, standing⟩ := Registry.exists_standing positive
  obtain ⟨current, held, -⟩ := stands.opened c position standing
  intro quiet
  rw [quiet c] at held
  cases held

theorem Stands.of_quiet (quiet : t.isQuiet = true) {t' : Table K V}
    (cursors : t'.cursors = t.cursors) {pairs' : PairMap V equivalence}
    (holds : t'.Holds pairs') : t'.Stands { m with pairs := pairs' } := by
  refine ⟨holds, fun c _ => stands.quiet quiet c, fun c position standing => ?_⟩
  rw [cursors] at standing
  exact absurd standing (Registry.standing_ne_ok (live_eq_zero quiet) c position)

theorem Stands.rewritten (distinct : t.Distinct keying) (live : t.entryAt? loc = some e)
    (same : equivalence.classOf e'.key = equivalence.classOf e.key) :
    (t.rewritten loc e').Stands
      { m with pairs := m.pairs.insert (equivalence.classOf e.key) e'.pair } := by
  refine ⟨stands.holds.rewritten distinct live same, stands.closed, fun c position standing => ?_⟩
  obtain ⟨current, held, points⟩ := stands.opened c position standing
  exact ⟨current, held, points.rewritten stands.holds live same⟩

theorem Stands.revalued (distinct : t.Distinct keying) (live : t.entryAt? loc = some e) (value : V) :
    (t.rewritten loc { e with value }).Stands
      { m with pairs := m.pairs.insert (equivalence.classOf e.key) (e.key, value) } :=
  stands.rewritten distinct live rfl

theorem Stands.without (distinct : t.Distinct keying) (live : t.entryAt? loc = some e) :
    (t.without loc).Stands { m with pairs := m.pairs.erase (equivalence.classOf e.key) } := by
  refine ⟨stands.holds.without distinct live, stands.closed, fun c position standing => ?_⟩
  obtain ⟨current, held, points⟩ := stands.opened c position standing
  exact ⟨current, held, points.without live⟩

theorem Stands.roomy (sound : t.Sound keying) (quiet : t.isQuiet = true) : t.roomy.Stands m := by
  apply stands.of_quiet quiet (cursors_roomy t)
  unfold Table.roomy
  split
  · exact stands.holds.rehashed (Nat.mul_pos sound.capacity_pos (by decide))
  · exact stands.holds

theorem Stands.slimmed (counted : t.Counted) : t.slimmed.Stands m := by
  unfold Table.slimmed
  split
  case isTrue due =>
    obtain ⟨sparse, quiet⟩ := Bool.and_eq_true_iff.mp due
    have least := counted.least_le_half sparse
    apply stands.of_quiet quiet (cursors_rehashed t _)
    exact stands.holds.rehashed (Nat.lt_of_lt_of_le (by decide) least)
  case isFalse => exact stands

theorem Stands.seated {cursors : Registry} {c : Cursor}
    (other : ∀ c', c' ≠ c → cursors.standing c' = t.cursors.standing c')
    (standing : cursors.standing c = .ok position) (points : t.Points m.pairs position current) :
    (t.registering cursors).Stands (m.steered c (some current)) := by
  refine ⟨stands.holds, fun c' closed => ?_, fun c' position' held => ?_⟩
  · have differs : c' ≠ c := by
      rintro rfl
      exact closed position standing
    rw [MapState.cursors_steered_of_ne m differs]
    rw [cursors_registering, other c' differs] at closed
    exact stands.closed c' closed
  · rw [cursors_registering] at held
    by_cases same : c' = c
    · subst same
      rw [standing] at held
      cases held
      exact ⟨current, m.cursors_steered_self _ _, points.registering _⟩
    · rw [other c' same] at held
      rw [MapState.cursors_steered_of_ne m same]
      obtain ⟨current', known, points'⟩ := stands.opened c' position' held
      exact ⟨current', known, points'.registering _⟩

theorem Stands.moved {c : Cursor} {former : Position}
    (standing : t.cursors.standing c = .ok former) (points : t.Points m.pairs position current) :
    (t.registering (t.cursors.moved c position)).Stands (m.steered c (some current)) := by
  refine stands.seated (fun c' differs => ?_) ?_ points
  · rw [Registry.standing_moved standing, if_neg differs]
  · rw [Registry.standing_moved standing, if_pos rfl]

theorem Stands.unseated {cursors : Registry} {c : Cursor}
    (other : ∀ c', c' ≠ c → cursors.standing c' = t.cursors.standing c')
    (closed : ∀ position, cursors.standing c ≠ .ok position) :
    (t.registering cursors).Stands (m.steered c none) := by
  refine ⟨stands.holds, fun c' closed' => ?_, fun c' position' held => ?_⟩
  · by_cases same : c' = c
    · rw [same, MapState.cursors_steered_self]
    · rw [MapState.cursors_steered_of_ne m same]
      rw [cursors_registering, other c' same] at closed'
      exact stands.closed c' closed'
  · rw [cursors_registering] at held
    have differs : c' ≠ c := by
      rintro rfl
      exact closed position' held
    rw [other c' differs] at held
    rw [MapState.cursors_steered_of_ne m differs]
    obtain ⟨current', known, points'⟩ := stands.opened c' position' held
    exact ⟨current', known, points'.registering _⟩

theorem Stands.current_of_under {c : Cursor} (standing : t.cursors.standing c = .ok position)
    (under : t.entryUnder position = some (loc, e)) :
    m.cursors c = some (some (equivalence.classOf e.key)) := by
  obtain ⟨rfl, live⟩ := entryUnder_eq_some.mp under
  obtain ⟨current, held, points⟩ := stands.opened c _ standing
  cases points with
  | live occupied own =>
    rw [live] at occupied
    cases occupied
    rw [held, own]
  | gone vacant =>
    rw [live] at vacant
    cases vacant

theorem Stands.current_of_under_none {c : Cursor}
    (standing : t.cursors.standing c = .ok position) (under : t.entryUnder position = none) :
    m.cursors c = some none ∨ ∃ κ, m.cursors c = some (some κ) ∧ m.pairs.lookup κ = none := by
  obtain ⟨current, held, points⟩ := stands.opened c _ standing
  cases points with
  | beforeFirst | exhausted => exact .inl held
  | live occupied => simp [entryUnder, occupied] at under
  | gone vacant absent => exact .inr ⟨_, held, absent⟩

end Stands

/-! ## Iterations -/

def item (equivalence : keying.IsEquivalence) (p : Location × Entry K V) :
    KeyClass equivalence × K × V :=
  (equivalence.classOf p.2.key, p.2.pair)

theorem Holds.tour (holds : t.Holds pairs) (sound : t.Sound keying)
    (distinct : t.Distinct keying) (limit : Option Nat) :
    pairs.Tour limit ((t.passed limit).map (item equivalence)) := by
  have card := holds.card_eq sound distinct
  refine ⟨?_, ?_, ?_⟩
  · rw [List.map_map]
    refine List.pairwise_map.mpr ((pairwise_passed limit t).imp_of_mem ?_)
    intro p q inP inQ apart same
    exact apart (distinct p.1 q.1 p.2 q.2 (entryAt?_of_mem_passed inP)
      (entryAt?_of_mem_passed inQ) (classOf_eq.mp same))
  · intro i member
    obtain ⟨p, passed, rfl⟩ := List.mem_map.mp member
    exact holds.lookup_of_live (entryAt?_of_mem_passed passed)
  · rw [List.length_map, sound.toCounted.length_passed, card]

theorem Holds.listing_eq (holds : t.Holds pairs) (sound : t.Sound keying)
    (distinct : t.Distinct keying) (limit : Option Nat) :
    t.listing limit = ⟨((t.passed limit).map (item equivalence)).map Prod.snd,
      Listing.countdown pairs.card ((t.passed limit).map (item equivalence)).length⟩ := by
  rw [listing, Listing.ofEntries, holds.card_eq sound distinct]
  simp [Function.comp_def, item]

theorem Stands.swept {m : MapState V equivalence} (stands : t.Stands m)
    (distinct : t.Distinct keying) (f : Nat → V → V) (n : Nat)
    {items : List (Location × Entry K V)} (live : ∀ p ∈ items, t.entryAt? p.1 = some p.2)
    (apart : items.Pairwise fun a b => a.1 ≠ b.1) :
    (t.swept f n items).Stands
      { m with pairs := m.pairs.revised f n (items.map (item equivalence)) } := by
  induction items generalizing t m n with
  | nil => exact stands
  | cons p rest ih =>
    obtain ⟨loc, e⟩ := p
    have first : t.entryAt? loc = some e := live (loc, e) List.mem_cons_self
    have changed := stands.revalued distinct first (f n e.value)
    have distinct' := distinct.revalued equivalence first (f n e.value)
    exact ih changed distinct' (n + 1) (entryAt?_of_mem_rest live apart _)
      (List.pairwise_cons.mp apart).2

/-! ## Simulation -/

section Simulation

variable {m : MapState V equivalence} {allowance : Option Nat} {t' : Table K V}
  {action : Action K V} {reply : Reply (Answer K V)}

theorem classOf_of_located (equivalence : keying.IsEquivalence) (sound : t.Sound keying) {key : K}
    (located : t.locate keying key = some loc) (live : t.entryAt? loc = some e) :
    equivalence.classOf key = equivalence.classOf e.key :=
  classOf_eq.mpr ((sound.answers_iff live).mp (answers_of_locate located live))

theorem holds_cleared (t : Table K V) : t.cleared.Holds (∅ : PairMap V equivalence) := by
  intro κ pair
  simp

theorem Stands.inserted (stands : t.Stands m) (sound : t.Sound keying)
    (quiet : t.isQuiet = true) {key : K} (value : V)
    (absent : m.pairs.lookup (equivalence.classOf key) = none) :
    (t.roomy.stored ⟨key, value, keying.route key⟩).Stands
      { m with pairs := m.pairs.insert (equivalence.classOf key) (key, value) } := by
  have roomy := stands.roomy sound quiet
  have positive := (sound.roomy quiet).capacity_pos
  have holds : (t.roomy.stored ⟨key, value, keying.route key⟩).Holds
      (m.pairs.insert (equivalence.classOf key) (key, value)) :=
    roomy.holds.stored positive absent
  exact roomy.of_quiet (by simpa using quiet) (cursors_stored _ _) holds

theorem mapStep_of_reads {request : Request K V} {answer : Answer K V}
    (reads : Reads keying t request answer) (stands : t.Stands m) (sound : t.Sound keying)
    (distinct : t.Distinct keying) :
    MapState.MapStep allowance m (.ask request) (.ok answer) m := by
  have looked := stands.holds.lookup_eq sound
  cases reads with
  | lookup key =>
    have step : MapState.MapStep allowance m (.ask (.lookup key)) _ m := .lookup
    rw [looked, Option.map_map] at step
    exact step
  | contains key =>
    have step : MapState.MapStep allowance m (.ask (.contains key)) _ m := .contains
    rw [looked, Option.isSome_map] at step
    exact step
  | isEmpty =>
    have step : MapState.MapStep allowance m (.ask .isEmpty) _ m := .isEmpty
    rw [stands.holds.card_eq sound distinct] at step
    exact step
  | keys =>
    have step : MapState.MapStep allowance m (.ask .keys) _ m :=
      .keys (stands.holds.tour sound distinct none)
    rw [List.map_map, passed_none] at step
    rw [← Directory.map_snd_live, List.map_map]
    exact step
  | iterate limit =>
    have tour := stands.holds.tour sound distinct limit
    rw [stands.holds.listing_eq sound distinct]
    exact .iterated tour

theorem Stands.revalued_lookup (stands : t.Stands m) (distinct : t.Distinct keying)
    (live : t.entryAt? loc = some e) (f : V → V) :
    (t.rewritten loc { e with value := f e.value }).Stands
      { m with pairs := m.pairs.revalued (equivalence.classOf e.key) f } := by
  rw [PairMap.revalued_of_present (stands.holds.lookup_of_live live)]
  exact stands.revalued distinct live (f e.value)

/-- Whatever a table answers, its map answers too, and they go on together. -/
theorem Effect.mapStep (effect : Effect keying allowance t action reply t')
    (stands : t.Stands m) (sound : t.Sound keying) (distinct : t.Distinct keying) :
    ∃ m', MapState.MapStep allowance m action reply.answer m' ∧ t'.Stands m' := by
  have looked := stands.holds.lookup_eq sound
  cases effect with
  | whileOpen needs busy => exact ⟨m, .failed (.whileOpen needs (stands.busy busy)), stands⟩
  | notOpen uses closed =>
    exact ⟨m, .failed (.notOpen uses (stands.closed _ closed)), stands⟩
  | growthRefused puts quiet refused =>
    exact ⟨m, .failed (.refusedPut puts refused.limited), stands⟩
  -- The table has grown here although the call failed; the pairs are the same.
  | slotRefused puts quiet absent growing refused =>
    have limited : allowance ≠ none := by
      rintro rfl
      exact refused.limited rfl
    exact ⟨m, .failed (.refusedPut puts limited), stands.roomy sound quiet⟩
  | @inserted key value quiet absent =>
    have missing := looked key
    rw [absent] at missing
    exact ⟨_, .inserted (stands.quiet quiet) missing, stands.inserted sound quiet value missing⟩
  -- The map keeps the stored key, since the entry keeps it.
  | @updated key value loc e quiet located live found =>
    have present := looked key
    have own := classOf_of_located equivalence (sound.roomy quiet) located live
    rw [found] at present
    refine ⟨_, .updated (stands.quiet quiet) present, ?_⟩
    rw [own]
    exact (stands.roomy sound quiet).revalued (distinct.roomy equivalence sound) live value
  | @exchangedFresh key value quiet absent =>
    have step : MapState.MapStep allowance m (.ask (.exchange key value)) _ _ :=
      .exchanged (stands.quiet quiet)
    have missing := looked key
    rw [absent] at missing
    rw [missing] at step
    exact ⟨_, step, stands.inserted sound quiet value missing⟩
  | @exchanged key value loc e quiet located live found =>
    have step : MapState.MapStep allowance m (.ask (.exchange key value)) _ _ :=
      .exchanged (stands.quiet quiet)
    have own := classOf_of_located equivalence sound located live
    rw [looked, found] at step
    refine ⟨_, step, ?_⟩
    rw [own]
    exact stands.rewritten distinct live own
  | @takenNone request key answer takes absent =>
    have step : MapState.MapStep allowance m (.ask request) _ _ := .taken takes
    have missing := looked key
    rw [absent] at missing
    rw [missing, PairMap.erase_of_absent missing] at step
    exact ⟨m, step, stands⟩
  | @taken request key answer loc e takes located live found =>
    have step : MapState.MapStep allowance m (.ask request) _ _ := .taken takes
    have own := classOf_of_located equivalence sound located live
    rw [looked, found, own] at step
    exact ⟨_, step, (stands.without distinct live).slimmed (sound.without live).toCounted⟩
  | shrinkRefused takes located live found refused =>
    exact ⟨m, .failed (.refusedTake takes refused.limited), stands⟩
  | read reads => exact ⟨m, mapStep_of_reads reads stands sound distinct, stands⟩
  | @modifiedNone key f absent =>
    have step : MapState.MapStep allowance m (.ask (.modify key f)) _ _ := .modified
    have missing := looked key
    rw [absent] at missing
    rw [missing, PairMap.revalued_of_absent missing] at step
    exact ⟨m, step, stands⟩
  | @modified key f loc e located live found =>
    have step : MapState.MapStep allowance m (.ask (.modify key f)) _ _ := .modified
    have own := classOf_of_located equivalence sound located live
    rw [looked, found, own] at step
    exact ⟨_, step, stands.revalued_lookup distinct live f⟩
  | cleared quiet =>
    exact ⟨_, .cleared (stands.quiet quiet),
      stands.of_quiet quiet (cursors_cleared t) (holds_cleared t)⟩
  | revised limit f =>
    rw [stands.holds.listing_eq sound distinct]
    exact ⟨_, .revised (stands.holds.tour sound distinct limit), stands.swept distinct f 0
      (fun p member => entryAt?_of_mem_passed member) (pairwise_passed limit t)⟩
  | opened =>
    have formed := sound.registered
    have fresh := stands.closed _ (Registry.standing_issued formed)
    refine ⟨_, .opened fresh, stands.seated (fun c differs => ?_) ?_ .beforeFirst⟩
    · rw [Registry.standing_opened formed, if_neg differs]
    · exact Registry.standing_fresh formed
  | @closed c position standing =>
    obtain ⟨current, held, -⟩ := stands.opened c position standing
    refine ⟨_, .closed held, stands.unseated (fun c' differs => ?_) fun position' => ?_⟩
    · rw [Registry.standing_closed standing, if_neg differs]
    · rw [Registry.standing_closed standing, if_pos rfl]
      rintro ⟨⟩
  | @advanced c position loc e rest standing pending =>
    obtain ⟨current, held, -⟩ := stands.opened c position standing
    have live := entryAt?_of_pending pending
    exact ⟨_, .advanced held (stands.holds.lookup_of_live live),
      stands.moved standing (.live live rfl)⟩
  | @advancedEnd c position standing =>
    obtain ⟨current, held, -⟩ := stands.opened c position standing
    exact ⟨_, .advancedEnd held, stands.moved standing .exhausted⟩
  | @currentSet c position loc e value standing under =>
    have step : MapState.MapStep allowance m (.steer c (.setCurrent value)) _ _ :=
      .currentSet (stands.current_of_under standing under)
    have live := (entryUnder_eq_some.mp under).2
    rw [stands.holds.lookup_of_live live] at step
    exact ⟨_, step, stands.revalued_lookup distinct live fun _ => value⟩
  -- A cursor on no live entry: it answered none, or its pair was removed and, as nothing
  -- can be put in while it is open, its class is still absent.
  | @currentSetNone c position value standing under =>
    rcases stands.current_of_under_none standing under with nowhere | ⟨κ, held, missing⟩
    · exact ⟨m, .currentSetNowhere nowhere, stands⟩
    · have step : MapState.MapStep allowance m (.steer c (.setCurrent value)) _ _ :=
        .currentSet held
      rw [missing, PairMap.revalued_of_absent missing] at step
      exact ⟨m, step, stands⟩
  | @currentRemoved c position loc e standing under =>
    have step : MapState.MapStep allowance m (.steer c .removeCurrent) _ _ :=
      .currentRemoved (stands.current_of_under standing under)
    have live := (entryUnder_eq_some.mp under).2
    rw [stands.holds.lookup_of_live live] at step
    exact ⟨_, step, stands.without distinct live⟩
  | @currentRemovedNone c position standing under =>
    rcases stands.current_of_under_none standing under with nowhere | ⟨κ, held, missing⟩
    · exact ⟨m, .currentRemovedNowhere nowhere, stands⟩
    · have step : MapState.MapStep allowance m (.steer c .removeCurrent) _ _ :=
        .currentRemoved held
      rw [missing, PairMap.erase_of_absent missing] at step
      exact ⟨m, step, stands⟩

/-- A table that stands for a map tracks it through any calls. -/
theorem Stands.tracks {calls : List (Invocation K V)} (stands : t.Stands m)
    (sound : t.Sound keying) (distinct : t.Distinct keying) :
    Tracks m (t.history keying calls) := by
  induction calls generalizing t m with
  | nil => exact .nil m
  | cons call rest ih =>
    have effect := effect_act sound call.allowance call.action
    -- Sound and distinct tables go on to be so, which the next step of the map needs.
    obtain ⟨m', step, stands'⟩ := effect.mapStep stands sound distinct
    have sound' := sound.effect effect
    have distinct' := distinct.effect equivalence sound effect
    have card := stands'.holds.card_eq sound' distinct'
    refine .cons step card.symm ?_ (ih stands' sound' distinct')
    rw [← PairMap.card_eq_zero, card]
    exact beq_iff_eq

theorem stands_new (owner : Nat) :
    (new owner : Table K V).Stands (MapState.empty : MapState V equivalence) := by
  refine ⟨fun κ pair => ?_, fun c _ => rfl, fun c position standing => ?_⟩
  · simp [MapState.empty]
  · exact absurd standing (Registry.standing_ne_ok rfl c position)

end Simulation

/-- A new table under any hash and any test of sameness that is an equivalence, whatever
is called on it, be storage refused or calls, answers what a finite map answers that
starts empty, and has its size after every call. -/
theorem map_refinement (equivalence : keying.IsEquivalence) (owner : Nat)
    (calls : List (Invocation K V)) :
    Tracks (MapState.empty : MapState V equivalence)
      ((new owner : Table K V).history keying calls) :=
  (stands_new owner).tracks (sound_new keying owner) (distinct_new keying owner)

/-- A key kept, a key exchanged, storage refused, a call refused, and a pair removed under
a cursor. -/
theorem map_refinement_lastDigit :
    let events := (new 1 : Table Nat Nat).history Session.lastDigit
      [⟨none, .ask (.insert 10 0)⟩, ⟨none, .ask (.insert 20 1)⟩, ⟨none, .ask (.exchange 30 2)⟩,
        ⟨some 0, .ask (.insert 4 3)⟩, ⟨none, .ask (.lookup 40)⟩, ⟨none, .openCursor⟩,
        ⟨none, .ask (.insert 5 4)⟩, ⟨none, .steer ⟨1, 1, 1⟩ .advance⟩, ⟨none, .ask (.remove 50)⟩,
        ⟨none, .steer ⟨1, 1, 1⟩ (.setCurrent 5)⟩]
    events.map Event.answer =
        [.ok (.outcome .inserted), .ok (.outcome .updated), .ok (.pair (some (10, 1))),
          .error (.refused ⟨.slots, 1⟩), .ok (.value (some 2)), .ok (.cursor ⟨1, 1, 1⟩),
          .error (.misuse (.whileOpen .insert 1)), .ok (.pair (some (30, 2))), .ok (.flag true),
          .ok (.value none)] ∧
      Tracks (MapState.empty : MapState Nat Session.isEquivalence_lastDigit) events :=
  ⟨by decide +kernel, map_refinement Session.isEquivalence_lastDigit 1 _⟩

end Table

end ChainTable
