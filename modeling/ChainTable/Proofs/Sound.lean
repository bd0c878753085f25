import ChainTable.Proofs.Live
import ChainTable.Proofs.Registry
import ChainTable.Proofs.Rehash
import Mathlib.Algebra.Group.Nat.Defs
import Mathlib.Data.List.Pairwise

/-! # Sound tables

`Sound` is the invariant of tables, for any hash and any test of sameness.  The
calls of a table change it in a handful of ways (an entry stored, a slot rewritten
or vacated, everything rehashed or cleared, the registry exchanged), and each of
them keeps a table sound.  Under a test that is an equivalence the entries stay
distinct as well.
-/

namespace ChainTable

variable {K V : Type}

/-- The test of sameness is an equivalence relation; it need not agree with the hash. -/
def Keying.IsEquivalence (keying : Keying K) : Prop :=
  Equivalence fun a b => keying.same a b = true

/-- Two keys that a look-up cannot tell apart: one routing hash, and the same to the test. -/
def Keying.Alike (keying : Keying K) (a b : K) : Prop :=
  keying.route a = keying.route b ∧ keying.same a b = true

namespace Keying.IsEquivalence

variable {keying : Keying K} (equivalence : keying.IsEquivalence)

include equivalence

theorem alike_refl (a : K) : keying.Alike a a := ⟨rfl, equivalence.refl a⟩

theorem alike_symm {a b : K} (alike : keying.Alike a b) : keying.Alike b a :=
  ⟨alike.1.symm, equivalence.symm alike.2⟩

theorem alike_trans {a b c : K} (first : keying.Alike a b) (second : keying.Alike b c) :
    keying.Alike a c :=
  ⟨first.1.trans second.1, equivalence.trans first.2 second.2⟩

end Keying.IsEquivalence

namespace Table

theorem entryAt?_eq (t : Table K V) (loc : Location) :
    t.entryAt? loc = t.directory.entryAt? loc := rfl

def found (keying : Keying K) (key : K) (t : Table K V) : Option (Entry K V) :=
  t.directory.found keying key

/-! ## The ways a table changes -/

def rewritten (loc : Location) (e : Entry K V) (t : Table K V) : Table K V :=
  { t with directory := t.directory.setSlot loc (some e) }

def without (loc : Location) (t : Table K V) : Table K V :=
  { t with directory := t.directory.setSlot loc none, size := t.size - 1 }

def stored (e : Entry K V) (t : Table K V) : Table K V :=
  { t with directory := t.directory.store e, size := t.size + 1 }

def rehashed (capacity : Nat) (t : Table K V) : Table K V :=
  { t with directory := Directory.gather capacity t.directory.entries }

def cleared (t : Table K V) : Table K V :=
  { t with directory := t.directory.vacated, size := 0 }

def registering (cursors : Registry) (t : Table K V) : Table K V := { t with cursors }

section Fields

variable (t : Table K V) (loc other : Location) (e : Entry K V)

@[simp] theorem capacity_rewritten : (t.rewritten loc e).capacity = t.capacity := by
  simp [rewritten, capacity]

@[simp] theorem capacity_without : (t.without loc).capacity = t.capacity := by
  simp [without, capacity]

@[simp] theorem capacity_stored : (t.stored e).capacity = t.capacity := by
  simp [stored, capacity]

@[simp] theorem capacity_rehashed (capacity : Nat) :
    (t.rehashed capacity).capacity = capacity := by
  simp [rehashed, Table.capacity]

@[simp] theorem capacity_cleared : t.cleared.capacity = t.capacity := by
  simp [cleared, capacity]

@[simp] theorem capacity_registering (cursors : Registry) :
    (t.registering cursors).capacity = t.capacity := rfl

@[simp] theorem size_rewritten : (t.rewritten loc e).size = t.size := rfl

@[simp] theorem size_without : (t.without loc).size = t.size - 1 := rfl

@[simp] theorem size_stored : (t.stored e).size = t.size + 1 := rfl

@[simp] theorem size_rehashed (capacity : Nat) : (t.rehashed capacity).size = t.size := rfl

@[simp] theorem size_cleared : t.cleared.size = 0 := rfl

@[simp] theorem size_registering (cursors : Registry) :
    (t.registering cursors).size = t.size := rfl

@[simp] theorem cursors_rewritten : (t.rewritten loc e).cursors = t.cursors := rfl

@[simp] theorem cursors_without : (t.without loc).cursors = t.cursors := rfl

@[simp] theorem cursors_stored : (t.stored e).cursors = t.cursors := rfl

@[simp] theorem cursors_rehashed (capacity : Nat) :
    (t.rehashed capacity).cursors = t.cursors := rfl

@[simp] theorem cursors_cleared : t.cleared.cursors = t.cursors := rfl

@[simp] theorem cursors_registering (cursors : Registry) :
    (t.registering cursors).cursors = cursors := rfl

@[simp] theorem entryAt?_cleared : t.cleared.entryAt? loc = none :=
  Directory.entryAt?_vacated t.directory loc

@[simp] theorem entryAt?_registering (cursors : Registry) :
    (t.registering cursors).entryAt? loc = t.entryAt? loc := rfl

@[simp] theorem capacity_new (owner : Nat) :
    (new owner : Table K V).capacity = leastCapacity := Array.size_replicate

@[simp] theorem entryAt?_new (owner : Nat) : (new owner : Table K V).entryAt? loc = none :=
  Directory.entryAt?_blank leastCapacity loc

variable {t loc e}

theorem entryAt?_rewritten (live : t.entryAt? loc = some e) (e' : Entry K V) :
    (t.rewritten loc e').entryAt? other = if other = loc then some e' else t.entryAt? other :=
  Directory.entryAt?_setSlot live (some e') other

theorem entryAt?_without (live : t.entryAt? loc = some e) :
    (t.without loc).entryAt? other = if other = loc then none else t.entryAt? other :=
  Directory.entryAt?_setSlot live none other

theorem entryAt?_stored (e : Entry K V) (positive : 0 < t.capacity) :
    (t.stored e).entryAt? other =
      if other = t.directory.berthOf e then some e else t.entryAt? other :=
  Directory.entryAt?_store e positive other

end Fields

/-! ## The invariant -/

/-- The part of the invariant that no resize needs more of: the capacity is a power of
two from the least on, and the recorded size is true. -/
structure Counted (t : Table K V) : Prop where
  capacity_eq : ∃ k, t.capacity = leastCapacity * 2 ^ k
  size_eq : t.size = t.directory.occupied

/-- The invariant of tables: the size is within the capacity as well, every entry carries
the routing hash of its key and lives in that hash's bucket, the registry is in order,
and every open cursor that stands on a slot stands on one that is there. -/
structure Sound (keying : Keying K) (t : Table K V) : Prop extends Counted t where
  size_le : t.size ≤ t.capacity
  stamped : ∀ loc e, t.entryAt? loc = some e → e.hash = keying.route e.key
  homed : ∀ loc e, t.entryAt? loc = some e → loc.bucket = Directory.home e.hash t.capacity
  registered : t.cursors.WellFormed
  seated : ∀ c loc, t.cursors.standing c = .ok (.on loc) →
    ∃ slot, t.directory.slotAt? loc = some slot

/-- No two entries have keys alike. -/
def Distinct (keying : Keying K) (t : Table K V) : Prop :=
  ∀ loc loc' e e', t.entryAt? loc = some e → t.entryAt? loc' = some e' →
    keying.Alike e.key e'.key → loc = loc'

variable {keying : Keying K} {t : Table K V}

theorem Counted.least_le (counted : t.Counted) : leastCapacity ≤ t.capacity := by
  obtain ⟨k, capacity⟩ := counted.capacity_eq
  rw [capacity]
  exact Nat.le_mul_of_pos_right _ (Nat.two_pow_pos k)

theorem Counted.capacity_pos (counted : t.Counted) : 0 < t.capacity :=
  Nat.lt_of_lt_of_le (by decide) counted.least_le

theorem Counted.capacity_double (counted : t.Counted) :
    ∃ k, t.capacity * 2 = leastCapacity * 2 ^ k := by
  obtain ⟨k, capacity⟩ := counted.capacity_eq
  exact ⟨k + 1, by rw [capacity, Nat.pow_succ, Nat.mul_assoc]⟩

theorem Counted.capacity_half (counted : t.Counted) (above : leastCapacity < t.capacity) :
    ∃ k, t.capacity / 2 = leastCapacity * 2 ^ k := by
  obtain ⟨k, capacity⟩ := counted.capacity_eq
  cases k with
  | zero => simp [capacity] at above
  | succ k =>
    refine ⟨k, ?_⟩
    rw [capacity, Nat.pow_succ, ← Nat.mul_assoc, Nat.mul_div_cancel _ (by decide)]

theorem Counted.size_eq_length (counted : t.Counted) :
    t.size = t.directory.entries.length := by
  rw [counted.size_eq, Directory.occupied_eq_length_entries]

theorem Counted.size_pos (counted : t.Counted) {loc : Location} {e : Entry K V}
    (live : t.entryAt? loc = some e) : 0 < t.size := by
  rw [counted.size_eq_length]
  exact List.length_pos_of_mem (Directory.mem_entries.mpr ⟨loc, live⟩)

theorem live_eq_zero (quiet : t.isQuiet = true) : t.cursors.live = 0 := by
  simpa [isQuiet, liveCursors] using quiet

theorem isQuiet_eq_false_iff : t.isQuiet = false ↔ 0 < t.liveCursors := by
  simp [isQuiet, Nat.pos_iff_ne_zero]

theorem seated_of_quiet (quiet : t.isQuiet = true) (d : Directory K V) (c : Cursor)
    (loc : Location) (standing : t.cursors.standing c = .ok (.on loc)) :
    ∃ slot, d.slotAt? loc = some slot :=
  absurd standing (Registry.standing_ne_ok (live_eq_zero quiet) c _)

theorem Sound.directory_homed (sound : t.Sound keying) : t.directory.Homed := sound.homed

theorem Sound.found_eq_find? (sound : t.Sound keying) (key : K) :
    t.found keying key = t.directory.entries.find? (Directory.answers keying key) :=
  Directory.found_eq_find? sound.capacity_pos sound.directory_homed keying key

/-- An entry answers exactly to the keys that are alike to its own. -/
theorem Sound.answers_iff (sound : t.Sound keying) {loc : Location} {e : Entry K V}
    (live : t.entryAt? loc = some e) {key : K} :
    Directory.answers keying key e = true ↔ keying.Alike key e.key := by
  rw [Directory.answers_iff, sound.stamped loc e live, Keying.Alike, eq_comm]

theorem Sound.not_alike_of_found_none (sound : t.Sound keying) {key : K}
    (absent : t.found keying key = none) {loc : Location} {e : Entry K V}
    (live : t.entryAt? loc = some e) : ¬ keying.Alike key e.key := by
  rw [sound.found_eq_find?, List.find?_eq_none] at absent
  intro alike
  exact absent e (Directory.mem_entries.mpr ⟨loc, live⟩) ((sound.answers_iff live).mpr alike)

/-! ## Every change keeps a table sound -/

theorem sound_new (keying : Keying K) (owner : Nat) : (new owner : Table K V).Sound keying where
  capacity_eq := ⟨0, by simp⟩
  size_eq := by
    rw [Directory.occupied_eq_length_entries]
    simp [new]
  size_le := Nat.zero_le _
  stamped loc e live := by simp at live
  homed loc e live := by simp at live
  registered := Registry.wellFormed_new owner
  seated := seated_of_quiet (t := (new owner : Table K V)) rfl _

theorem Sound.registering (sound : t.Sound keying) {cursors : Registry}
    (formed : cursors.WellFormed) (seated : ∀ c loc, cursors.standing c = .ok (.on loc) →
      ∃ slot, t.directory.slotAt? loc = some slot) : (t.registering cursors).Sound keying :=
  ⟨⟨sound.capacity_eq, sound.size_eq⟩, sound.size_le, sound.stamped, sound.homed, formed, seated⟩

theorem Sound.cleared (sound : t.Sound keying) (quiet : t.isQuiet = true) :
    t.cleared.Sound keying where
  capacity_eq := by simpa using sound.capacity_eq
  size_eq := by
    rw [Directory.occupied_eq_length_entries]
    simp [Table.cleared]
  size_le := Nat.zero_le _
  stamped loc e live := by simp at live
  homed loc e live := by simp at live
  registered := sound.registered
  seated := seated_of_quiet quiet _

theorem Counted.rehashed (counted : t.Counted) {capacity : Nat}
    (power : ∃ k, capacity = leastCapacity * 2 ^ k) : (t.rehashed capacity).Counted := by
  have positive : 0 < capacity := by
    obtain ⟨k, rfl⟩ := power
    exact Nat.mul_pos (by decide) (Nat.two_pow_pos k)
  constructor
  · simpa using power
  · rw [size_rehashed, Table.rehashed, Directory.occupied_gather positive, counted.size_eq_length]

theorem Sound.rehashed (sound : t.Sound keying) (quiet : t.isQuiet = true) {capacity : Nat}
    (power : ∃ k, capacity = leastCapacity * 2 ^ k) (enough : t.size ≤ capacity) :
    (t.rehashed capacity).Sound keying := by
  refine ⟨sound.toCounted.rehashed power, ?_, ?_, ?_, sound.registered, seated_of_quiet quiet _⟩
  · simpa using enough
  · intro loc e live
    -- Every gathered entry was an entry before, with the hash it still has.
    obtain ⟨given, -⟩ := Directory.entryAt?_gather live
    obtain ⟨origin, former⟩ := Directory.mem_entries.mp given
    exact sound.stamped origin e former
  · intro loc e live
    rw [capacity_rehashed]
    exact (Directory.entryAt?_gather live).2

theorem Sound.stored (sound : t.Sound keying) (quiet : t.isQuiet = true) {e : Entry K V}
    (room : t.size < t.capacity) (stamp : e.hash = keying.route e.key) :
    (t.stored e).Sound keying := by
  have positive := sound.capacity_pos
  refine ⟨⟨?_, ?_⟩, ?_, ?_, ?_, sound.registered, seated_of_quiet quiet _⟩
  · simpa using sound.capacity_eq
  · rw [size_stored, Table.stored, Directory.occupied_store e positive, sound.size_eq]
  · rw [size_stored, capacity_stored]
    exact room
  · intro loc e' live
    rw [entryAt?_stored loc e positive] at live
    split at live
    · cases live
      exact stamp
    · exact sound.stamped loc e' live
  · intro loc e' live
    rw [entryAt?_stored loc e positive] at live
    rw [capacity_stored]
    split at live
    case isTrue own =>
      cases live
      rw [own]
      rfl
    case isFalse => exact sound.homed loc e' live

theorem Sound.seated_setSlot (sound : t.Sound keying) {loc : Location} {e : Entry K V}
    (live : t.entryAt? loc = some e) (slot : Slot K V) (c : Cursor) (seat : Location)
    (standing : t.cursors.standing c = .ok (.on seat)) :
    ∃ other, (t.directory.setSlot loc slot).slotAt? seat = some other := by
  rw [Directory.slotAt?_setSlot (Directory.entryAt?_eq_some.mp live)]
  split
  · exact ⟨slot, rfl⟩
  · exact sound.seated c seat standing

theorem Sound.rewritten (sound : t.Sound keying) {loc : Location} {e e' : Entry K V}
    (live : t.entryAt? loc = some e) (hash : e'.hash = e.hash)
    (stamp : e'.hash = keying.route e'.key) : (t.rewritten loc e').Sound keying := by
  refine ⟨⟨?_, ?_⟩, ?_, ?_, ?_, sound.registered, sound.seated_setSlot live (some e')⟩
  · simpa using sound.capacity_eq
  · have counted := Directory.occupied_setSlot live (some e')
    simp only [Option.toList_some, List.length_singleton, Nat.add_right_cancel_iff] at counted
    rw [size_rewritten, Table.rewritten, counted, sound.size_eq]
  · simpa using sound.size_le
  · intro other found occupied
    rw [entryAt?_rewritten other live] at occupied
    split at occupied
    · cases occupied
      exact stamp
    · exact sound.stamped other found occupied
  · intro other found occupied
    rw [entryAt?_rewritten other live] at occupied
    rw [capacity_rewritten]
    split at occupied
    case isTrue same =>
      cases occupied
      rw [same, hash]
      exact sound.homed loc e live
    case isFalse => exact sound.homed other found occupied

theorem Sound.revalued (sound : t.Sound keying) {loc : Location} {e : Entry K V}
    (live : t.entryAt? loc = some e) (value : V) :
    (t.rewritten loc { e with value }).Sound keying := by
  have stamp := sound.stamped loc e live
  exact sound.rewritten live rfl stamp

theorem Counted.without (counted : t.Counted) {loc : Location} {e : Entry K V}
    (live : t.entryAt? loc = some e) : (t.without loc).Counted := by
  constructor
  · simpa using counted.capacity_eq
  · have left := Directory.occupied_setSlot live none
    simp only [Option.toList_none, List.length_nil, Nat.add_zero] at left
    rw [size_without, counted.size_eq, ← left, Nat.add_sub_cancel]
    rfl

theorem Sound.without (sound : t.Sound keying) {loc : Location} {e : Entry K V}
    (live : t.entryAt? loc = some e) : (t.without loc).Sound keying := by
  refine ⟨sound.toCounted.without live, ?_, ?_, ?_, sound.registered,
    sound.seated_setSlot live none⟩
  · rw [size_without, capacity_without]
    exact Nat.le_trans (Nat.sub_le _ _) sound.size_le
  · intro other found occupied
    rw [entryAt?_without other live] at occupied
    split at occupied
    · cases occupied
    · exact sound.stamped other found occupied
  · intro other found occupied
    rw [entryAt?_without other live] at occupied
    rw [capacity_without]
    split at occupied
    · cases occupied
    · exact sound.homed other found occupied

/-! ## Every change keeps the entries distinct -/

theorem distinct_new (keying : Keying K) (owner : Nat) :
    (new owner : Table K V).Distinct keying := by
  intro loc loc' e e' live
  simp at live

theorem Distinct.cleared (t : Table K V) : t.cleared.Distinct keying := by
  intro loc loc' e e' live
  simp at live

theorem Distinct.without (distinct : t.Distinct keying) {loc : Location} {e : Entry K V}
    (live : t.entryAt? loc = some e) : (t.without loc).Distinct keying := by
  intro left right e₁ e₂ atLeft atRight alike
  rw [entryAt?_without left live] at atLeft
  rw [entryAt?_without right live] at atRight
  split at atLeft
  · cases atLeft
  · split at atRight
    · cases atRight
    · exact distinct left right e₁ e₂ atLeft atRight alike

theorem Distinct.stored (equivalence : keying.IsEquivalence) (distinct : t.Distinct keying)
    {e : Entry K V} (positive : 0 < t.capacity)
    (absent : ∀ loc e', t.entryAt? loc = some e' → ¬ keying.Alike e.key e'.key) :
    (t.stored e).Distinct keying := by
  intro left right e₁ e₂ atLeft atRight alike
  rw [entryAt?_stored left e positive] at atLeft
  rw [entryAt?_stored right e positive] at atRight
  split at atLeft
  case isTrue leftNew =>
    split at atRight
    case isTrue rightNew => rw [leftNew, rightNew]
    case isFalse =>
      cases atLeft
      exact absurd alike (absent right e₂ atRight)
  case isFalse =>
    split at atRight
    case isTrue =>
      cases atRight
      exact absurd (equivalence.alike_symm alike) (absent left e₁ atLeft)
    case isFalse => exact distinct left right e₁ e₂ atLeft atRight alike

theorem Distinct.rewritten (equivalence : keying.IsEquivalence) (distinct : t.Distinct keying)
    {loc : Location} {e e' : Entry K V} (live : t.entryAt? loc = some e)
    (alike : keying.Alike e'.key e.key) : (t.rewritten loc e').Distinct keying := by
  intro left right e₁ e₂ atLeft atRight both
  rw [entryAt?_rewritten left live] at atLeft
  rw [entryAt?_rewritten right live] at atRight
  split at atLeft
  case isTrue leftNew =>
    cases atLeft
    split at atRight
    case isTrue rightNew => rw [leftNew, rightNew]
    case isFalse =>
      -- Alike to the new key is alike to the former one, whose entry is the one rewritten.
      have former := equivalence.alike_trans (equivalence.alike_symm alike) both
      rw [leftNew]
      exact distinct loc right e e₂ live atRight former
  case isFalse =>
    split at atRight
    case isTrue rightNew =>
      cases atRight
      rw [rightNew]
      exact distinct left loc e₁ e atLeft live (equivalence.alike_trans both alike)
    case isFalse => exact distinct left right e₁ e₂ atLeft atRight both

theorem Distinct.revalued (equivalence : keying.IsEquivalence) (distinct : t.Distinct keying)
    {loc : Location} {e : Entry K V} (live : t.entryAt? loc = some e) (value : V) :
    (t.rewritten loc { e with value }).Distinct keying :=
  distinct.rewritten equivalence live (equivalence.alike_refl e.key)

theorem distinct_iff_pairwise (equivalence : keying.IsEquivalence) :
    t.Distinct keying ↔
      t.directory.entries.Pairwise fun a b => ¬ keying.Alike a.key b.key := by
  rw [← Directory.map_snd_live, List.pairwise_map]
  constructor
  · intro distinct
    apply t.directory.pairwise_live.imp_of_mem
    intro a b inA inB order alike
    have same := distinct a.1 b.1 a.2 b.2 (Directory.mem_live.mp inA) (Directory.mem_live.mp inB)
      alike
    rw [same] at order
    exact b.1.not_before_self order
  · intro apart loc loc' e e' live live' alike
    by_contra differ
    have symmetric : Std.Symm fun a b : Location × Entry K V =>
        ¬ keying.Alike a.2.key b.2.key :=
      ⟨fun a b apart alike => apart (equivalence.alike_symm alike)⟩
    refine List.Pairwise.forall apart (Directory.mem_live.mpr live)
      (Directory.mem_live.mpr live') ?_ alike
    intro same
    exact differ (congrArg Prod.fst same)

theorem Distinct.rehashed (equivalence : keying.IsEquivalence) (distinct : t.Distinct keying)
    {capacity : Nat} (positive : 0 < capacity) : (t.rehashed capacity).Distinct keying := by
  rw [distinct_iff_pairwise equivalence] at distinct ⊢
  -- Being unlike is symmetric, so the order of the entries does not matter.
  refine ((Directory.entries_gather_perm positive _).pairwise_iff ?_).mpr distinct
  intro a b apart alike
  exact apart (equivalence.alike_symm alike)

end Table

end ChainTable
