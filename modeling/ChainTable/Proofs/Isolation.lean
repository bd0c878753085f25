import ChainTable.Proofs.HashClasses
import ChainTable.Proofs.Scan

/-! # What a call on one key does to look-ups

A look-up gives the first entry that answers.  So a table finds for a key what another one
finds that has the same answering entries at the same locations (`Sound.found_congr`), and a
change at one location is seen by those keys only to which the entry there answers before or
after it.  The test of sameness may be any: an entry answers to keys of its own routing hash
only, and the entry just written for a key answers to it where the test finds the key the same
as itself.
-/

namespace ChainTable.Table

variable {K V : Type} {keying : Keying K} {allowance : Option Nat} {t t' : Table K V}
  {request : Request K V} {reply : Reply (Answer K V)} {key key' : K} {value : V}
  {loc : Location} {e : Entry K V}

/-! ## One change and one look-up -/

theorem Sound.answers_eq_false (sound : t.Sound keying) (absent : t.found keying key = none)
    (live : t.entryAt? loc = some e) : Directory.answers keying key e = false := by
  apply Bool.eq_false_iff.mpr
  intro answering
  exact sound.not_alike_of_found_none absent live ((sound.answers_iff live).mp answering)

section Changes

variable (sound' : t'.Sound keying)

include sound'

/-- A look-up depends on the entries only that answer, and on where they are. -/
theorem Sound.found_congr (sound : t.Sound keying)
    (same : ∀ loc e, Directory.answers keying key e = true →
      (t'.entryAt? loc = some e ↔ t.entryAt? loc = some e)) :
    t'.found keying key = t.found keying key := by
  cases located : t.locate keying key with
  | none =>
    have absent := locate_eq_none.mp located
    rw [absent, ← locate_eq_none]
    cases located' : t'.locate keying key with
    | none => rfl
    | some loc =>
      obtain ⟨e, live, answering, -⟩ := exists_of_locate located'
      rw [sound.answers_eq_false absent ((same loc e answering).mp live)] at answering
      cases answering
  | some loc =>
    obtain ⟨e, live, answering, found⟩ := exists_of_locate located
    rw [found]
    apply sound'.found_of_first ((same loc e answering).mpr live) answering
    intro other e' live' before
    apply Bool.eq_false_iff.mpr
    intro earlier
    -- An entry that answers before `loc` would have been there for the first look-up.
    have former := (same other e' earlier).mp live'
    rw [Directory.eq_false_of_before_locate sound.directory_homed located former before] at earlier
    cases earlier

/-- A change at one location where the entries, before and after it, have one routing hash is
not seen by keys of another. -/
theorem Sound.found_of_changed (sound : t.Sound keying) {slot : Slot K V}
    (changed : ∀ other, t'.entryAt? other = if other = loc then slot else t.entryAt? other)
    (before : ∀ e, t.entryAt? loc = some e → e.hash = keying.route key)
    (after : ∀ e, slot = some e → e.hash = keying.route key)
    (apart : keying.route key' ≠ keying.route key) :
    t'.found keying key' = t.found keying key' := by
  apply sound'.found_congr sound
  intro other e answering
  have hash := (Directory.answers_iff.mp answering).1
  rw [changed]
  split
  case isTrue here =>
    subst here
    constructor
    · intro written
      exact absurd (hash.symm.trans (after e written)) apart
    · intro live
      exact absurd (hash.symm.trans (before e live)) apart
  case isFalse => rfl

/-- To rewrite an entry, with its hash kept, is not seen by keys of another hash. -/
theorem Sound.found_rewritten_of_ne {e' : Entry K V} (sound : t.Sound keying)
    (live : t.entryAt? loc = some e) (rewritten : t' = t.rewritten loc e')
    (hash : e.hash = keying.route key) (same : e'.hash = e.hash)
    (apart : keying.route key' ≠ keying.route key) :
    t'.found keying key' = t.found keying key' := by
  subst rewritten
  refine sound'.found_of_changed sound (fun other => entryAt?_rewritten other live e')
    (fun x held => ?_) (fun x written => ?_) apart
  · cases live.symm.trans held
    exact hash
  · cases written
    rw [same, hash]

/-- A key finds the entry that is written where nothing answers to it earlier. -/
theorem Sound.found_of_written
    (changed : ∀ other, t'.entryAt? other = if other = loc then some e else t.entryAt? other)
    (answering : Directory.answers keying key e = true)
    (first : ∀ other e', t.entryAt? other = some e' → other.Before loc →
      Directory.answers keying key e' = false) : t'.found keying key = some e := by
  have live : t'.entryAt? loc = some e := by rw [changed, if_pos rfl]
  apply sound'.found_of_first live answering
  intro other e' live' before
  have differs : other ≠ loc := fun same => loc.not_before_self (same ▸ before)
  rw [changed, if_neg differs] at live'
  exact first other e' live' before

end Changes

/-! ## One call -/

theorem hash_of_locate (located : t.locate keying key = some loc)
    (live : t.entryAt? loc = some e) : e.hash = keying.route key :=
  (Directory.answers_iff.mp (answers_of_locate located live)).1

/-- What is found for a key once a pair was put in for it: an entry with the value. -/
theorem Effect.found_put (sound : t.Sound keying) (puts : Puts request key value)
    (reflexive : keying.same key key = true)
    (effect : Effect keying allowance t (.ask request) reply t') {answer : Answer K V}
    (answered : reply.answer = .ok answer) :
    ∃ e, t'.found keying key = some e ∧ e.value = value := by
  have sound' := sound.effect effect
  cases effect with
  | whileOpen | notOpen | growthRefused | slotRefused | shrinkRefused => cases answered
  | inserted quiet absent | exchangedFresh quiet absent =>
    cases puts
    have roomy := sound.roomy quiet
    have missed : t.roomy.found keying key = none := by rw [sound.found_roomy, absent]
    exact ⟨_, sound'.found_of_written (fun other => entryAt?_stored other _ roomy.capacity_pos)
      (Directory.answers_iff.mpr ⟨rfl, reflexive⟩)
      (fun _ _ live _ => roomy.answers_eq_false missed live), rfl⟩
  | updated quiet located live =>
    cases puts
    have roomy := sound.roomy quiet
    -- The stored key is kept, and it answered to the key before.
    have answering := answers_of_locate located live
    exact ⟨_, sound'.found_of_written (fun other => entryAt?_rewritten other live _)
      answering (fun _ _ => Directory.eq_false_of_before_locate roomy.directory_homed located), rfl⟩
  | exchanged quiet located live =>
    cases puts
    -- The stored hash is kept, which is that of the new key beside it.
    have hash := hash_of_locate located live
    exact ⟨_, sound'.found_of_written (fun other => entryAt?_rewritten other live _)
      (Directory.answers_iff.mpr ⟨hash, reflexive⟩)
      (fun _ _ => Directory.eq_false_of_before_locate sound.directory_homed located), rfl⟩
  | takenNone takes | taken takes => exact absurd takes puts.not_takes
  | read reads => cases reads <;> cases puts
  | modifiedNone | modified | cleared | revised => cases puts

/-- To put a pair in for a key changes nothing for keys of another routing hash. -/
theorem Effect.found_put_of_ne (sound : t.Sound keying) (puts : Puts request key value)
    (apart : keying.route key' ≠ keying.route key)
    (effect : Effect keying allowance t (.ask request) reply t') :
    t'.found keying key' = t.found keying key' := by
  have sound' := sound.effect effect
  cases effect with
  | whileOpen | notOpen | growthRefused | takenNone | shrinkRefused | read | modifiedNone => rfl
  | slotRefused => exact sound.found_roomy key'
  | inserted quiet | exchangedFresh quiet =>
    cases puts
    have roomy := sound.roomy quiet
    -- The slot that is filled was vacant, be it ahead of others in its bucket or not.
    rw [← sound.found_roomy]
    refine sound'.found_of_changed roomy (fun other => entryAt?_stored other _ roomy.capacity_pos)
      (fun x live => ?_) (fun x written => ?_) apart
    · rw [entryAt?_eq, Directory.entryAt?_berthOf] at live
      cases live
    · cases written
      rfl
  | updated quiet located live =>
    cases puts
    rw [← sound.found_roomy]
    exact sound'.found_rewritten_of_ne (sound.roomy quiet) live rfl (hash_of_locate located live)
      rfl apart
  | exchanged quiet located live =>
    cases puts
    exact sound'.found_rewritten_of_ne sound live rfl (hash_of_locate located live) rfl apart
  | taken takes => exact absurd takes puts.not_takes
  | modified | cleared | revised => cases puts

/-- To take a key out changes nothing for keys of another routing hash. -/
theorem Effect.found_take_of_ne (sound : t.Sound keying)
    {answer : Option (K × V) → Answer K V} (takes : Takes request key answer)
    (apart : keying.route key' ≠ keying.route key)
    (effect : Effect keying allowance t (.ask request) reply t') :
    t'.found keying key' = t.found keying key' := by
  cases effect.taking takes with
  | absent | refused => rfl
  | taken located live =>
    have left := sound.without live
    rw [left.found_slimmed]
    exact left.found_of_changed sound (fun other => entryAt?_without other live)
      (fun x => hash_of_locate located) nofun apart

/-- Of any table that actions lead to, while no cursor is open, whatever its hash and its test
of sameness are, and for any key.  Where the test finds the key the same as itself, a look-up
of it gives the value that was last put in for it, by an insertion or an exchange that
succeeded; and either succeeds where no storage is refused.  And no insertion, exchange or
removal of the key, be it refused or not, changes what a look-up gives for a key of another
routing hash. -/
theorem lookups_after_write (reachable : t.Reachable keying) (quiet : t.isQuiet = true) (key : K) :
    (keying.same key key = true → ∀ request value, Puts request key value →
      (∃ answer, (t.act keying none (.ask request)).1.answer = .ok answer) ∧
      ∀ allowance answer, (t.act keying allowance (.ask request)).1.answer = .ok answer →
        (t.act keying allowance (.ask request)).2.lookup keying key = some value) ∧
    ∀ request, (∃ value, Puts request key value) ∨ (∃ answer, Takes request key answer) →
      ∀ allowance key', keying.route key' ≠ keying.route key →
        (t.act keying allowance (.ask request)).2.lookup keying key' = t.lookup keying key' := by
  have sound := reachable.sound
  refine ⟨fun reflexive request value puts => ⟨?_, fun allowance answer answered => ?_⟩,
    fun request writes allowance key' apart => ?_⟩
  · obtain ⟨answer, answered, -⟩ := (effect_act sound none (.ask request)).granted_put quiet puts
    exact ⟨answer, answered⟩
  · have effect := effect_act sound allowance (.ask request)
    obtain ⟨e, found, held⟩ := effect.found_put sound puts reflexive answered
    rw [lookup_eq, found, Option.map_some, held]
  · have effect := effect_act sound allowance (.ask request)
    have found : (t.act keying allowance (.ask request)).2.found keying key' =
        t.found keying key' := by
      rcases writes with ⟨value, puts⟩ | ⟨answer, takes⟩
      · exact effect.found_put_of_ne sound puts apart
      · exact effect.found_take_of_ne sound takes apart
    rw [lookup_eq, lookup_eq, found]

/-- A vacant slot ahead of an entry of another routing hash, in one bucket with it. -/
def pitted : Table Nat Nat :=
  ⟨#[[], [none, some ⟨5, 50, 5⟩], [some ⟨2, 20, 2⟩], [some ⟨3, 30, 3⟩]], 3, Registry.new 1⟩

theorem reachable_pitted : pitted.Reachable Session.ninths := by
  have filled : (new 1 : Table Nat Nat).afterAll Session.ninths
      [⟨none, .ask (.insert 1 10)⟩, ⟨none, .ask (.insert 5 50)⟩, ⟨none, .ask (.insert 2 20)⟩,
        ⟨none, .ask (.insert 3 30)⟩, ⟨none, .ask (.remove 1)⟩] = pitted := by decide +kernel
  rw [← filled]
  exact (Reachable.new 1).afterAll _

/-- The first insertion fills the slot ahead of the entry for 5, the second one grows the table,
and the third one is refused its slot after it has grown the table. -/
theorem lookups_after_write_pitted :
    let filled := (pitted.act Session.ninths none (.ask (.insert 10 100))).2
    let grown := (filled.act Session.ninths none (.ask (.exchange 14 140))).2
    let failed := filled.act Session.ninths (some 6) (.ask (.insert 14 140))
    filled.directory.bucketAt 1 = [some ⟨10, 100, 1⟩, some ⟨5, 50, 5⟩] ∧
      filled.lookup Session.ninths 10 = some 100 ∧ filled.lookup Session.ninths 5 = some 50 ∧
      grown.capacity = 8 ∧ grown.lookup Session.ninths 14 = some 140 ∧
      grown.lookup Session.ninths 10 = some 100 ∧
      failed.1.answer = .error (.refused ⟨.slots, 1⟩) ∧ failed.2.capacity = 8 ∧
      failed.2.lookup Session.ninths 10 = some 100 := by
  intro filled grown failed
  have here : pitted.lookup Session.ninths 5 = some 50 := by decide
  obtain ⟨own, others⟩ := lookups_after_write reachable_pitted (by decide) 10
  obtain ⟨⟨_, answered⟩, reads⟩ := own (by decide) _ _ (.insert 10 100)
  have inserted : filled.lookup Session.ninths 10 = some 100 := reads none _ answered
  obtain ⟨own', others'⟩ :=
    lookups_after_write (reachable_pitted.act none (.ask (.insert 10 100))) (by decide +kernel) 14
  obtain ⟨⟨_, answered'⟩, reads'⟩ := own' (by decide) _ _ (.exchange 14 140)
  have kept := others' _ (.inl ⟨140, .exchange 14 140⟩) none 10 (by decide)
  have kept' := others' _ (.inl ⟨140, .insert 14 140⟩) (some 6) 10 (by decide)
  exact ⟨by decide +kernel, inserted,
    (others _ (.inl ⟨100, .insert 10 100⟩) none 5 (by decide)).trans here, by decide +kernel,
    reads' none _ answered', kept.trans inserted, by decide +kernel, by decide +kernel,
    kept'.trans inserted⟩

end ChainTable.Table
