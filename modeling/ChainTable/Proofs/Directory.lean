import ChainTable.Proofs.Bucket
import ChainTable.Table.Basic

/-! # Directories location by location

A directory is read in two ways: as a partial map from locations to entries
(`entryAt?`) and as the list of its entries in order (`entries`).  This module says
what every operation does to either view, and that a look-up in one bucket finds
the first entry of the whole directory that answers, once every entry lives in the
bucket of its hash (`Homed`).
-/

namespace ChainTable.Directory

variable {K V : Type}

/-- The entry at a location, if its slot is there and occupied. -/
def entryAt? (d : Directory K V) (loc : Location) : Option (Entry K V) := (d.slotAt? loc).join

theorem entryAt?_eq_some {d : Directory K V} {loc : Location} {e : Entry K V} :
    d.entryAt? loc = some e ↔ d.slotAt? loc = some (some e) := by
  simp [entryAt?, Option.join_eq_some_iff]

/-! ## Buckets of a changed directory -/

theorem bucketAt_of_size_le {d : Directory K V} {i : Nat} (outside : d.size ≤ i) :
    d.bucketAt i = [] := by
  simp [bucketAt, outside]

theorem bucketAt_modify (d : Directory K V) (i : Nat) (f : Bucket K V → Bucket K V) (j : Nat) :
    Directory.bucketAt (d.modify i f) j =
      if j = i ∧ j < d.size then f (d.bucketAt j) else d.bucketAt j := by
  unfold bucketAt
  rw [Array.getElem?_modify]
  by_cases same : j = i
  · subst same
    by_cases bound : j < d.size
    · simp [bound]
    · simp [bound]
  · simp [same, Ne.symm same]

theorem lt_size_of_slotAt? {d : Directory K V} {loc : Location} {slot : Slot K V}
    (present : d.slotAt? loc = some slot) : loc.bucket < d.size := by
  apply Nat.lt_of_not_le
  intro outside
  simp [slotAt?, bucketAt_of_size_le outside] at present

theorem lt_size_of_entryAt? {d : Directory K V} {loc : Location} {e : Entry K V}
    (live : d.entryAt? loc = some e) : loc.bucket < d.size :=
  lt_size_of_slotAt? (entryAt?_eq_some.mp live)

theorem slotAt?_setSlot {d : Directory K V} {loc : Location} {former : Slot K V}
    (present : d.slotAt? loc = some former) (slot : Slot K V) (other : Location) :
    (d.setSlot loc slot).slotAt? other = if other = loc then some slot else d.slotAt? other := by
  have inside := lt_size_of_slotAt? present
  obtain ⟨i, s⟩ := loc
  obtain ⟨j, r⟩ := other
  simp only [slotAt?, setSlot, bucketAt_modify, Location.mk.injEq] at present inside ⊢
  by_cases bucket : j = i
  · subst bucket
    obtain ⟨bound, -⟩ := List.getElem?_eq_some_iff.mp present
    by_cases same : r = s
    · subst same
      simp [inside, bound]
    · simp [inside, same, Ne.symm same]
  · simp [bucket]

theorem entryAt?_setSlot {d : Directory K V} {loc : Location} {e : Entry K V}
    (live : d.entryAt? loc = some e) (slot : Slot K V) (other : Location) :
    (d.setSlot loc slot).entryAt? other = if other = loc then slot else d.entryAt? other := by
  unfold entryAt?
  rw [slotAt?_setSlot (entryAt?_eq_some.mp live)]
  split <;> rfl

@[simp] theorem setSlot_setSlot (d : Directory K V) (loc : Location) (first second : Slot K V) :
    (d.setSlot loc first).setSlot loc second = d.setSlot loc second := by
  apply Array.ext_getElem?
  intro i
  simp only [setSlot, Array.getElem?_modify]
  by_cases same : loc.bucket = i
  · simp [same, Function.comp_def]
  · simp [same]

theorem setSlot_self {d : Directory K V} {loc : Location} {slot : Slot K V}
    (present : d.slotAt? loc = some slot) : d.setSlot loc slot = d := by
  have inside := lt_size_of_slotAt? present
  obtain ⟨bound, held⟩ := List.getElem?_eq_some_iff.mp present
  apply Array.ext_getElem?
  intro i
  rw [setSlot, Array.getElem?_modify]
  by_cases same : loc.bucket = i
  · subst same
    have bucket : d.bucketAt loc.bucket = d[loc.bucket] := by simp [bucketAt, inside]
    simp only [bucket] at bound held
    simp [inside, ← held]
  · simp [same]

def berthOf (e : Entry K V) (d : Directory K V) : Location :=
  ⟨home e.hash d.size, (d.bucketAt (home e.hash d.size)).vacancy⟩

theorem entryAt?_berthOf (e : Entry K V) (d : Directory K V) :
    d.entryAt? (d.berthOf e) = none :=
  Bucket.join_getElem?_vacancy _

theorem entryAt?_store (e : Entry K V) {d : Directory K V} (positive : 0 < d.size)
    (loc : Location) :
    (d.store e).entryAt? loc = if loc = d.berthOf e then some e else d.entryAt? loc := by
  have inside : home e.hash d.size < d.size := home_lt e.hash positive
  obtain ⟨i, s⟩ := loc
  simp only [entryAt?, slotAt?, store, berthOf, bucketAt_modify, Location.mk.injEq]
  by_cases bucket : i = home e.hash d.size
  · subst bucket
    simp only [inside, and_self, if_true, true_and, Bucket.getElem?_store]
    split <;> rfl
  · simp [bucket]

@[simp] theorem entryAt?_vacated (d : Directory K V) (loc : Location) :
    d.vacated.entryAt? loc = none := by
  simp only [entryAt?, slotAt?, bucketAt, vacated, Array.getElem?_map]
  cases d[loc.bucket]? with
  | none => rfl
  | some bucket =>
    rw [Option.map_some, Option.getD_some, Bucket.vacated, List.getElem?_map]
    cases bucket[loc.slot]? <;> rfl

@[simp] theorem entryAt?_blank (capacity : Nat) (loc : Location) :
    (blank capacity : Directory K V).entryAt? loc = none := by
  have nothing : (blank capacity : Directory K V).bucketAt loc.bucket = [] := by
    simp only [bucketAt, blank, Array.getElem?_replicate]
    split <;> rfl
  simp [entryAt?, slotAt?, nothing]

/-! ## The list of entries -/

theorem entries_modify {d : Directory K V} {i : Nat} (inside : i < d.size)
    (f : Bucket K V → Bucket K V) :
    Directory.entries (d.modify i f) =
      (d.toList.take i).flatMap Bucket.entries ++
        ((f (d.bucketAt i)).entries ++ (d.toList.drop (i + 1)).flatMap Bucket.entries) := by
  have bound : i < d.toList.length := by simpa using inside
  have bucket : d.bucketAt i = d.toList[i] := by simp [bucketAt, inside]
  rw [entries, Array.toList_modify, List.modify_eq_take_cons_drop bound, bucket]
  simp

theorem entries_around {d : Directory K V} {i : Nat} (inside : i < d.size) :
    d.entries =
      (d.toList.take i).flatMap Bucket.entries ++
        ((d.bucketAt i).entries ++ (d.toList.drop (i + 1)).flatMap Bucket.entries) := by
  -- The entries around a bucket are those around it after no change at all.
  have unchanged : d.modify i id = d := by
    apply Array.ext_getElem?
    intro j
    rw [Array.getElem?_modify]
    split <;> simp
  calc d.entries = Directory.entries (d.modify i id) := by rw [unchanged]
    _ = _ := entries_modify inside id

/-- Replacing the slot at a location exchanges what the slot holds, and leaves the
entries before and behind it. -/
theorem entries_setSlot {d : Directory K V} {loc : Location} {slot : Slot K V}
    (present : d.slotAt? loc = some slot) :
    ∃ before after, d.entries = before ++ (slot.toList ++ after) ∧
      ∀ other, (d.setSlot loc other).entries = before ++ (other.toList ++ after) := by
  have inside := lt_size_of_slotAt? present
  obtain ⟨bound, -⟩ := List.getElem?_eq_some_iff.mp present
  refine ⟨(d.toList.take loc.bucket).flatMap Bucket.entries ++
      Bucket.entries ((d.bucketAt loc.bucket).take loc.slot),
    Bucket.entries ((d.bucketAt loc.bucket).drop (loc.slot + 1)) ++
      (d.toList.drop (loc.bucket + 1)).flatMap Bucket.entries, ?_, ?_⟩
  · rw [entries_around inside, Bucket.entries_eq_around present]
    simp only [List.append_assoc]
  · intro other
    rw [setSlot, entries_modify inside, Bucket.entries_set_around bound]
    simp only [List.append_assoc]

theorem entries_store_perm (e : Entry K V) {d : Directory K V} (positive : 0 < d.size) :
    (d.store e).entries.Perm (e :: d.entries) := by
  have inside : home e.hash d.size < d.size := home_lt e.hash positive
  rw [store, entries_modify inside, entries_around inside]
  apply (List.Perm.append_left _ ((Bucket.entries_store_perm e _).append_right _)).trans
  exact List.perm_middle

@[simp] theorem entries_blank (capacity : Nat) : (blank capacity : Directory K V).entries = [] := by
  simp [entries, blank, Bucket.entries]

theorem mem_entries {d : Directory K V} {e : Entry K V} :
    e ∈ d.entries ↔ ∃ loc, d.entryAt? loc = some e := by
  simp only [entries, List.mem_flatMap, entryAt?_eq_some, Bucket.mem_entries]
  constructor
  · rintro ⟨bucket, member, occupied⟩
    obtain ⟨i, bound, rfl⟩ := List.getElem_of_mem member
    obtain ⟨s, slot⟩ := List.getElem?_of_mem occupied
    refine ⟨⟨i, s⟩, ?_⟩
    have inside : i < d.size := by simpa using bound
    simpa [slotAt?, bucketAt, inside] using slot
  · rintro ⟨loc, present⟩
    have inside := lt_size_of_slotAt? present
    refine ⟨d.bucketAt loc.bucket, ?_, List.mem_of_getElem? present⟩
    simp [bucketAt, inside]

theorem occupied_setSlot {d : Directory K V} {loc : Location} {e : Entry K V}
    (live : d.entryAt? loc = some e) (slot : Slot K V) :
    (d.setSlot loc slot).occupied + 1 = d.occupied + slot.toList.length := by
  obtain ⟨before, after, whole, changed⟩ := entries_setSlot (entryAt?_eq_some.mp live)
  rw [occupied_eq_length_entries, occupied_eq_length_entries, whole, changed]
  simp only [List.length_append, Option.toList_some, List.length_cons, List.length_nil]
  omega

theorem occupied_store (e : Entry K V) {d : Directory K V} (positive : 0 < d.size) :
    (d.store e).occupied = d.occupied + 1 := by
  rw [occupied_eq_length_entries, occupied_eq_length_entries,
    (entries_store_perm e positive).length_eq, List.length_cons]

/-! ## Look-up -/

/-- Every entry lives in the bucket of its hash. -/
def Homed (d : Directory K V) : Prop :=
  ∀ loc e, d.entryAt? loc = some e → loc.bucket = home e.hash d.size

def found (keying : Keying K) (key : K) (d : Directory K V) : Option (Entry K V) :=
  (d.locate keying key).bind d.entryAt?

theorem answers_iff {keying : Keying K} {key : K} {e : Entry K V} :
    answers keying key e = true ↔ e.hash = keying.route key ∧ keying.same key e.key = true := by
  simp [answers]

/-- A location that a look-up gives holds an entry that answers, and that is the one found. -/
theorem exists_of_locate {keying : Keying K} {key : K} {d : Directory K V} {loc : Location}
    (located : d.locate keying key = some loc) :
    ∃ e, d.entryAt? loc = some e ∧ answers keying key e = true ∧
      d.found keying key = some e := by
  have given := located
  simp only [locate, Option.map_eq_some_iff] at located
  obtain ⟨s, position, rfl⟩ := located
  obtain ⟨e, slot, satisfied⟩ := Bucket.exists_of_position? position
  have live : d.entryAt? ⟨home (keying.route key) d.size, s⟩ = some e :=
    entryAt?_eq_some.mpr slot
  exact ⟨e, live, satisfied, by rw [found, given, Option.bind_some, live]⟩

theorem locate_eq_none {keying : Keying K} {key : K} {d : Directory K V} :
    d.locate keying key = none ↔ d.found keying key = none := by
  constructor
  · intro missed
    rw [found, missed, Option.bind_none]
  · intro missed
    cases located : d.locate keying key with
    | none => rfl
    | some loc =>
      obtain ⟨e, -, -, finds⟩ := exists_of_locate located
      rw [finds] at missed
      cases missed

theorem found_eq_find?_bucket (keying : Keying K) (key : K) (d : Directory K V) :
    d.found keying key =
      (d.bucketAt (home (keying.route key) d.size)).entries.find? (answers keying key) := by
  rw [← Bucket.bind_position?, found, locate, Option.bind_map]
  rfl

theorem find?_eq_none_of_ne_home {d : Directory K V} (homed : d.Homed) {keying : Keying K}
    {key : K} {i : Nat} {bucket : Bucket K V} (present : d.toList[i]? = some bucket)
    (elsewhere : i ≠ home (keying.route key) d.size) :
    bucket.entries.find? (answers keying key) = none := by
  rw [List.find?_eq_none]
  intro e member answering
  obtain ⟨s, slot⟩ := List.getElem?_of_mem (Bucket.mem_entries.mp member)
  have live : d.entryAt? ⟨i, s⟩ = some e := by
    rw [Array.getElem?_toList] at present
    exact entryAt?_eq_some.mpr (by simpa [slotAt?, bucketAt, present] using slot)
  have lives : i = home e.hash d.size := homed _ _ live
  rw [(answers_iff.mp answering).1] at lives
  exact elsewhere lives

/-- A look-up in one bucket finds what a scan of the whole directory finds first. -/
theorem found_eq_find? {d : Directory K V} (positive : 0 < d.size) (homed : d.Homed)
    (keying : Keying K) (key : K) :
    d.found keying key = d.entries.find? (answers keying key) := by
  -- Nothing that answers lies in a bucket before the key's own or in one behind it.
  have before : ((d.toList.take (home (keying.route key) d.size)).flatMap
      Bucket.entries).find? (answers keying key) = none := by
    rw [List.find?_flatMap, List.findSome?_eq_none_iff]
    intro bucket member
    obtain ⟨i, present⟩ := List.getElem?_of_mem member
    rw [List.getElem?_take] at present
    split at present
    · exact find?_eq_none_of_ne_home homed present (by omega)
    · cases present
  have behind : ((d.toList.drop (home (keying.route key) d.size + 1)).flatMap
      Bucket.entries).find? (answers keying key) = none := by
    rw [List.find?_flatMap, List.findSome?_eq_none_iff]
    intro bucket member
    obtain ⟨i, present⟩ := List.getElem?_of_mem member
    rw [List.getElem?_drop] at present
    exact find?_eq_none_of_ne_home homed present (by omega)
  rw [found_eq_find?_bucket, entries_around (home_lt (keying.route key) positive),
    List.find?_append, List.find?_append, before, behind, Option.none_or, Option.or_none]

end ChainTable.Directory
