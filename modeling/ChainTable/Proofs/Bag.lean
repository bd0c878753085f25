import ChainTable.Proofs.Preservation
import Mathlib.Data.Multiset.AddSub

/-! # The bag of pairs in a table

For an arbitrary test of sameness several entries may answer to one key, so a table is
no map.  What it always is, is a bag: `Table.bag` counts every live pair as often as it
is stored, wherever its slot may be.  This module says what every change of a table does
to the bag, and what a look-up may find in it (`PairBag.Finds`).
-/

namespace ChainTable

variable {K V : Type}

/-- The bags of pairs of a key and a value. -/
abbrev PairBag (K V : Type) := Multiset (K × V)

/-- What a look-up may find in a bag, and the pairs beside it: nothing where no key matches,
else one of the pairs whose key does. -/
inductive PairBag.Finds (alike : K → K → Prop) (key : K) (bag : PairBag K V) :
    Option (K × V) → PairBag K V → Prop where
  | absent (unlike : ∀ pair ∈ bag, ¬ alike key pair.1) : Finds alike key bag none bag
  | present {pair rest} (whole : bag = pair ::ₘ rest) (matched : alike key pair.1) :
      Finds alike key bag (some pair) rest

namespace Directory

/-- A list of entries in order is that of the live ones once it has their locations. -/
theorem live_eq {d : Directory K V} {items : List (Location × Entry K V)}
    (ordered : items.Pairwise fun a b => a.1.Before b.1)
    (same : ∀ loc e, (loc, e) ∈ items ↔ d.entryAt? loc = some e) : d.live = items := by
  have strict : Std.Irrefl fun a b : Location × Entry K V => a.1.Before b.1 :=
    ⟨fun a => a.1.not_before_self⟩
  have asymmetric : Std.Antisymm fun a b : Location × Entry K V => a.1.Before b.1 :=
    ⟨fun a b first second => absurd (first.trans second) a.1.not_before_self⟩
  apply d.pairwise_live.eq_of_mem_iff ordered
  intro (loc, e)
  rw [mem_live, same]

/-- Rewriting an entry leaves the others where they are in the order. -/
theorem live_setSlot {d : Directory K V} {before after : List (Location × Entry K V)}
    {loc : Location} {e : Entry K V} (whole : d.live = before ++ (loc, e) :: after)
    (e' : Entry K V) : (d.setSlot loc (some e')).live = before ++ (loc, e') :: after := by
  have ordered := d.pairwise_live
  rw [whole] at ordered
  have live : d.entryAt? loc = some e := mem_live.mp (by simp [whole])
  have places : (before ++ (loc, e') :: after).map Prod.fst =
      (before ++ (loc, e) :: after).map Prod.fst := by simp
  apply live_eq
  · rw [← List.pairwise_map (f := Prod.fst) (R := Location.Before), places, List.pairwise_map]
    exact ordered
  · intro other x
    obtain ⟨-, behind, apart⟩ := List.pairwise_append.mp ordered
    have late := (List.pairwise_cons.mp behind).1
    have listed : d.entryAt? other = some x ↔ (other, x) ∈ before ++ (loc, e) :: after := by
      rw [← mem_live, whole]
    rw [entryAt?_setSlot live]
    split
    case isTrue here =>
      subst here
      -- The location is listed once, so neither part around it has it.
      have early : (other, x) ∉ before := fun member =>
        other.not_before_self (apart _ member _ List.mem_cons_self)
      have behind : (other, x) ∉ after := fun member => other.not_before_self (late _ member)
      simp [early, behind, eq_comm]
    case isFalse elsewhere =>
      rw [listed]
      simp [elsewhere]

end Directory

namespace Table

/-- The live pairs of a table, each as often as it is stored. -/
def bag (t : Table K V) : PairBag K V := ↑(t.directory.entries.map Entry.pair)

variable {keying : Keying K} {t : Table K V} {loc : Location} {e : Entry K V} {key : K}

theorem bag_eq_live (t : Table K V) : t.bag = ↑(t.directory.live.map fun p => p.2.pair) := by
  rw [bag, ← Directory.map_snd_live, List.map_map]
  rfl

theorem mem_bag {pair : K × V} :
    pair ∈ t.bag ↔ ∃ loc e, t.entryAt? loc = some e ∧ e.pair = pair := by
  simp only [bag, Multiset.mem_coe, List.mem_map, Directory.mem_entries, entryAt?_eq]
  constructor
  · rintro ⟨e, ⟨loc, live⟩, same⟩
    exact ⟨loc, e, live, same⟩
  · rintro ⟨loc, e, live, same⟩
    exact ⟨e, ⟨loc, live⟩, same⟩

theorem Counted.card_bag (counted : t.Counted) : Multiset.card t.bag = t.size := by
  rw [bag, Multiset.coe_card, List.length_map, counted.size_eq_length]

/-! ## Changes -/

/-- One live pair and all others: what becomes of the bag where its entry is taken out or
rewritten. -/
theorem exists_bag_around (live : t.entryAt? loc = some e) :
    ∃ rest, t.bag = e.pair ::ₘ rest ∧ (t.without loc).bag = rest ∧
      ∀ e', (t.rewritten loc e').bag = e'.pair ::ₘ rest := by
  obtain ⟨before, after, whole, changed⟩ :=
    Directory.entries_setSlot (Directory.entryAt?_eq_some.mp live)
  have middle : ∀ e' : Entry K V,
      (((before ++ e' :: after).map Entry.pair : List (K × V)) : PairBag K V) =
        e'.pair ::ₘ ↑((before ++ after).map Entry.pair) := by
    intro e'
    rw [Multiset.cons_coe, Multiset.coe_eq_coe]
    exact List.perm_middle.map Entry.pair
  refine ⟨↑((before ++ after).map Entry.pair), ?_, ?_, fun e' => ?_⟩
  · rw [bag, whole]
    exact middle e
  · rw [bag, Table.without, changed]
    rfl
  · rw [bag, Table.rewritten, changed]
    exact middle e'

theorem bag_stored (positive : 0 < t.capacity) (e : Entry K V) :
    (t.stored e).bag = e.pair ::ₘ t.bag := by
  rw [bag, bag, Multiset.cons_coe, Multiset.coe_eq_coe]
  exact (Directory.entries_store_perm e positive).map Entry.pair

theorem bag_rehashed {capacity : Nat} (positive : 0 < capacity) (t : Table K V) :
    (t.rehashed capacity).bag = t.bag := by
  rw [bag, bag, Multiset.coe_eq_coe]
  exact (Directory.entries_gather_perm positive _).map Entry.pair

theorem Counted.bag_roomy (counted : t.Counted) : t.roomy.bag = t.bag := by
  unfold Table.roomy
  split
  · exact bag_rehashed (Nat.mul_pos counted.capacity_pos (by decide)) t
  · rfl

theorem Counted.bag_slimmed (counted : t.Counted) : t.slimmed.bag = t.bag := by
  unfold Table.slimmed
  split
  case isTrue due =>
    have sparse := (Bool.and_eq_true_iff.mp due).1
    exact bag_rehashed (Nat.lt_of_lt_of_le (by decide) (counted.least_le_half sparse)) t
  case isFalse => rfl

@[simp] theorem bag_cleared (t : Table K V) : t.cleared.bag = 0 := by
  simp [bag, Table.cleared]

@[simp] theorem bag_registering (t : Table K V) (cursors : Registry) :
    (t.registering cursors).bag = t.bag := rfl

/-- A sweep along consecutive entries changes their values in order, and no other. -/
theorem live_swept (f : Nat → V → V) (n : Nat) {before items after : List (Location × Entry K V)}
    (whole : t.directory.live = before ++ (items ++ after)) :
    (t.swept f n items).directory.live = before ++ (items.mapIdx (fun i p =>
      (p.1, { p.2 with value := f (n + i) p.2.value })) ++ after) := by
  induction items generalizing t n before with
  | nil => exact whole
  | cons item rest ih =>
    obtain ⟨loc, e⟩ := item
    -- The entry just changed joins those before the sweep.
    have first : (t.rewritten loc { e with value := f n e.value }).directory.live =
        (before ++ [(loc, { e with value := f n e.value })]) ++ (rest ++ after) := by
      rw [List.append_assoc]
      exact Directory.live_setSlot whole _
    have others := ih (n + 1) first
    simpa [swept, List.mapIdx_cons, Nat.add_assoc, Nat.add_comm 1] using others

/-- What a sweep passes, with the entries behind it, before and after. -/
theorem exists_bag_swept (limit : Option Nat) (f : Nat → V → V) (t : Table K V) :
    ∃ rest, t.bag = ↑((t.passed limit).map fun p => p.2.pair) + rest ∧
      (t.swept f 0 (t.passed limit)).bag = ↑(((t.passed limit).map fun p => p.2.pair).mapIdx
        fun i pair => (pair.1, f i pair.2)) + rest := by
  let after := t.directory.live.drop (limit.getD t.stepsToEnd)
  have whole : t.directory.live = [] ++ (t.passed limit ++ after) :=
    (List.take_append_drop _ _).symm
  refine ⟨↑(after.map fun p => p.2.pair), ?_, ?_⟩
  · rw [bag_eq_live, whole, List.nil_append, List.map_append, Multiset.coe_add]
  · rw [bag_eq_live, live_swept f 0 whole, List.nil_append, List.map_append, Multiset.coe_add]
    congr 2
    apply List.ext_getElem?
    intro i
    simp [Option.map_map, Function.comp_def, Entry.pair]

/-! ## Look-ups -/

theorem finds_none (sound : t.Sound keying) (absent : t.found keying key = none) :
    PairBag.Finds keying.Alike key t.bag none t.bag := by
  apply PairBag.Finds.absent
  intro pair member
  obtain ⟨loc, e, live, rfl⟩ := mem_bag.mp member
  exact sound.not_alike_of_found_none absent live

/-- A look-up that gives a location finds the pair there in the bag. -/
theorem exists_finds (sound : t.Sound keying) (located : t.locate keying key = some loc)
    (live : t.entryAt? loc = some e) :
    ∃ rest, PairBag.Finds keying.Alike key t.bag (some e.pair) rest ∧
      (t.without loc).bag = rest ∧ ∀ e', (t.rewritten loc e').bag = e'.pair ::ₘ rest := by
  obtain ⟨rest, whole, left, rewritten⟩ := exists_bag_around live
  have alike := (sound.answers_iff live).mp (answers_of_locate located live)
  exact ⟨rest, .present whole alike, left, rewritten⟩

theorem exists_finds_found (sound : t.Sound keying) (key : K) :
    ∃ rest, PairBag.Finds keying.Alike key t.bag ((t.found keying key).map Entry.pair) rest := by
  cases located : t.locate keying key with
  | none =>
    have absent := locate_eq_none.mp located
    rw [absent]
    exact ⟨_, finds_none sound absent⟩
  | some loc =>
    obtain ⟨e, live, -, found⟩ := exists_of_locate located
    obtain ⟨rest, finds, -⟩ := exists_finds sound located live
    rw [found]
    exact ⟨rest, finds⟩

end Table

end ChainTable
