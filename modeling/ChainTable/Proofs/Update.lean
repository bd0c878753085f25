import ChainTable.Proofs.Outcome
import ChainTable.Table.Insert
import ChainTable.Table.Modify
import ChainTable.Table.Remove

/-! # How insertions, removals and resizes end

One lemma per call and way to end.  On a sound table no check of the table's own
records fails, so none of the branches that stop at a breach shows up here; in
particular every rehash finds the room it reserved, and a removal that is undone
meets the vacant slot it left.
-/

namespace ChainTable.Table

variable {K V : Type}

/-! ## Making and giving up room -/

section Room

variable (t : Table K V)

def growth : List Reservation :=
  if t.isFull then Directory.reservations (t.capacity * 2) t.directory.entries else []

def growthRecords : List Record :=
  if t.isFull then [.resized t.capacity (t.capacity * 2) t.size] else []

def roomy : Table K V := if t.isFull then t.rehashed (t.capacity * 2) else t

def shrinkage : List Reservation :=
  if t.isSparse && t.isQuiet then Directory.reservations (t.capacity / 2) t.directory.entries
  else []

/-- The records that a shrink writes, be it done or postponed. -/
def shrinkageRecords : List Record :=
  if t.isSparse then
    if t.isQuiet then [.resized t.capacity (t.capacity / 2) t.size]
    else [.shrinkPostponed t.liveCursors t.size t.capacity]
  else []

def slimmed : Table K V := if t.isSparse && t.isQuiet then t.rehashed (t.capacity / 2) else t

/-- The storage that a fresh entry for a key asks for. -/
def berthing (keying : Keying K) (key : K) : List Reservation :=
  if (t.directory.bucketAt (Directory.home (keying.route key) t.capacity)).hasVacancy then []
  else [⟨.slots, 1⟩]

end Room

variable {keying : Keying K} {t : Table K V}

@[simp] theorem isQuiet_roomy (t : Table K V) : t.roomy.isQuiet = t.isQuiet := by
  unfold roomy
  split <;> rfl

@[simp] theorem size_roomy (t : Table K V) : t.roomy.size = t.size := by
  unfold roomy
  split <;> rfl

@[simp] theorem cursors_roomy (t : Table K V) : t.roomy.cursors = t.cursors := by
  unfold roomy
  split <;> rfl

@[simp] theorem size_slimmed (t : Table K V) : t.slimmed.size = t.size := by
  unfold slimmed
  split <;> rfl

@[simp] theorem cursors_slimmed (t : Table K V) : t.slimmed.cursors = t.cursors := by
  unfold slimmed
  split <;> rfl

/-- With a cursor open a due shrink is put off. -/
theorem slimmed_of_busy (busy : t.isQuiet = false) : t.slimmed = t :=
  if_neg (by simp [busy])

theorem Sound.roomy (sound : t.Sound keying) (quiet : t.isQuiet = true) :
    t.roomy.Sound keying := by
  have sizeLe := sound.size_le
  unfold Table.roomy
  split
  · exact sound.rehashed quiet sound.capacity_double (by omega)
  · exact sound

theorem Sound.size_lt_roomy (sound : t.Sound keying) : t.roomy.size < t.roomy.capacity := by
  have sizeLe := sound.size_le
  have positive := sound.capacity_pos
  unfold Table.roomy
  split
  case isTrue =>
    rw [size_rehashed, capacity_rehashed]
    omega
  case isFalse room =>
    simp only [isFull, decide_eq_true_eq] at room
    omega

theorem isSparse_iff : t.isSparse = true ↔ leastCapacity < t.capacity ∧ t.size * 4 ≤ t.capacity := by
  simp [isSparse]

theorem Counted.least_le_half (counted : t.Counted) (sparse : t.isSparse = true) :
    leastCapacity ≤ t.capacity / 2 := by
  obtain ⟨k, half⟩ := counted.capacity_half (isSparse_iff.mp sparse).1
  rw [half]
  exact Nat.le_mul_of_pos_right _ (Nat.two_pow_pos k)

theorem Sound.slimmed (sound : t.Sound keying) : t.slimmed.Sound keying := by
  unfold Table.slimmed
  split
  case isTrue due =>
    obtain ⟨sparse, quiet⟩ := Bool.and_eq_true_iff.mp due
    obtain ⟨above, load⟩ := isSparse_iff.mp sparse
    exact sound.rehashed quiet (sound.capacity_half above) (by omega)
  case isFalse => exact sound

theorem Sound.found_rehashed (sound : t.Sound keying) {capacity : Nat} (positive : 0 < capacity)
    (key : K) : (t.rehashed capacity).found keying key = t.found keying key := by
  rw [sound.found_eq_find? key]
  exact Directory.found_gather positive _ keying key

theorem Sound.found_roomy (sound : t.Sound keying) (key : K) :
    t.roomy.found keying key = t.found keying key := by
  unfold Table.roomy
  split
  · exact sound.found_rehashed (Nat.mul_pos sound.capacity_pos (by decide)) key
  · rfl

theorem Sound.found_slimmed (sound : t.Sound keying) (key : K) :
    t.slimmed.found keying key = t.found keying key := by
  unfold Table.slimmed
  split
  case isTrue due =>
    have sparse := (Bool.and_eq_true_iff.mp due).1
    exact sound.found_rehashed (Nat.lt_of_lt_of_le (by decide) (sound.least_le_half sparse)) key
  case isFalse => rfl

theorem locate_eq_none {key : K} : t.locate keying key = none ↔ t.found keying key = none :=
  Directory.locate_eq_none

theorem exists_of_locate {key : K} {loc : Location} (located : t.locate keying key = some loc) :
    ∃ e, t.entryAt? loc = some e ∧ Directory.answers keying key e = true ∧
      t.found keying key = some e :=
  Directory.exists_of_locate located

theorem answers_of_locate {key : K} {loc : Location} {e : Entry K V}
    (located : t.locate keying key = some loc) (live : t.entryAt? loc = some e) :
    Directory.answers keying key e = true := by
  obtain ⟨e', present, answers, -⟩ := exists_of_locate located
  rw [live] at present
  cases present
  exact answers

/-! ## Resizing -/

variable {c : Context K V}

theorem run_resize {capacity : Nat} (counted : c.table.Counted)
    (quiet : c.table.isQuiet = true) (least : leastCapacity ≤ capacity)
    (granted : Grants c.allowance (Directory.reservations capacity c.table.directory.entries)) :
    resize capacity c = .ok none (c.later
      (Directory.reservations capacity c.table.directory.entries)
      [.resized c.table.capacity capacity c.table.size] (c.table.rehashed capacity)) := by
  have positive : 0 < capacity := Nat.lt_of_lt_of_le (by decide) least
  -- The check that the new buckets hold as many entries as recorded.
  have same : ((Directory.gather capacity c.table.directory.entries).occupied ==
      c.table.size) = true := by
    rw [Directory.occupied_gather positive, counted.size_eq_length, beq_self_eq_true]
  simp only [resize, Call.run_bind, Call.run_table, Call.run_check c quiet,
    Call.run_check c (decide_eq_true least), Call.run_reserveAll granted, rebuild,
    Context.table_later, Directory.rehash_eq_gather positive, Call.ofBreach, Call.run_pure,
    Call.run_update, Context.later_later, Call.run_check _ same, Call.run_emit,
    List.append_nil, List.nil_append]
  rfl

theorem run_resize_refused {capacity : Nat} (quiet : c.table.isQuiet = true)
    (least : leastCapacity ≤ capacity) {r : Reservation} {asked : List Reservation}
    (refused : Refuses c.allowance
      (Directory.reservations capacity c.table.directory.entries) r asked) :
    resize capacity c = .ok (some r)
      (c.later asked [.resizeFailed c.table.capacity capacity r] c.table) := by
  simp only [resize, Call.run_bind, Call.run_table, Call.run_check c quiet,
    Call.run_check c (decide_eq_true least), Call.run_reserveAll_refused refused,
    Call.run_emit, Call.run_pure, Context.later_later, Context.table_later, List.append_nil,
    List.nil_append]

theorem run_growIfFull (sound : c.table.Sound keying) (quiet : c.table.isQuiet = true)
    (granted : Grants c.allowance c.table.growth) :
    growIfFull c = .ok () (c.later c.table.growth c.table.growthRecords c.table.roomy) := by
  have least := sound.least_le
  cases full : c.table.isFull with
  | true =>
    rw [growth, if_pos full] at granted
    simp only [growIfFull, Call.run_bind, Call.run_table, full, if_true,
      run_resize sound.toCounted quiet (by omega) granted, Call.run_pure, growth, growthRecords, roomy]
  | false =>
    simp [growIfFull, full, growth, growthRecords, roomy, Context.later_self]

theorem run_growIfFull_refused (sound : c.table.Sound keying) (quiet : c.table.isQuiet = true)
    {r : Reservation} {asked : List Reservation}
    (refused : Refuses c.allowance c.table.growth r asked) :
    growIfFull c = .error (.refused r)
      (c.later asked [.resizeFailed c.table.capacity (c.table.capacity * 2) r] c.table) := by
  have least := sound.least_le
  cases full : c.table.isFull with
  | true =>
    rw [growth, if_pos full] at refused
    simp only [growIfFull, Call.run_bind, Call.run_table, full, if_true,
      run_resize_refused quiet (by omega) refused, Call.run_fail]
  | false =>
    obtain ⟨n, -, present, -⟩ := refused
    simp [growth, full] at present

/-! ## Insertion -/

theorem run_replaceAt {loc : Location} {e : Entry K V} (live : c.table.entryAt? loc = some e)
    (key : K) (value : V) (replaceKey : Bool) :
    replaceAt loc key value replaceKey c = .ok (if replaceKey then e.key else key, e.value)
      (c.later [] [] (c.table.rewritten loc
        { e with value, key := if replaceKey then key else e.key })) := by
  simp [replaceAt, run_entryAt live, run_writeSlot]

theorem run_storeFresh (key : K) (value : V)
    (granted : Grants c.allowance (c.table.berthing keying key)) :
    storeFresh keying key value c = .ok () (c.later (c.table.berthing keying key) []
      (c.table.stored ⟨key, value, keying.route key⟩)) := by
  have reserved := Call.run_reserveAll granted
  rw [berthing] at reserved
  simp only [storeFresh, Call.run_bind, Call.run_table, reserved, countIn, Call.run_update,
    Context.later_later, Context.table_later, List.append_nil]
  rfl

theorem run_storeFresh_refused (key : K) (value : V) {r : Reservation}
    {asked : List Reservation}
    (refused : Refuses c.allowance (c.table.berthing keying key) r asked) :
    storeFresh keying key value c = .error (.refused r) (c.later asked [] c.table) := by
  have reserved := Call.run_reserveAll_refused refused
  rw [berthing] at reserved
  simp only [storeFresh, Call.run_bind, Call.run_table, reserved, Call.run_fail]

section GrowAndPut

variable (sound : c.table.Sound keying) (quiet : c.table.isQuiet = true) (key : K) (value : V)
  (replaceKey : Bool)

include sound quiet

theorem run_growAndPut_refused {r : Reservation} {asked : List Reservation}
    (refused : Refuses c.allowance c.table.growth r asked) :
    growAndPut keying key value replaceKey c = .error (.refused r)
      (c.later asked [.resizeFailed c.table.capacity (c.table.capacity * 2) r] c.table) := by
  simp only [growAndPut, Call.run_bind, run_growIfFull_refused sound quiet refused]

theorem run_growAndPut_present {loc : Location} {e : Entry K V}
    (granted : Grants c.allowance c.table.growth)
    (located : c.table.roomy.locate keying key = some loc)
    (live : c.table.roomy.entryAt? loc = some e) :
    growAndPut keying key value replaceKey c =
      .ok (some (if replaceKey then e.key else key, e.value))
        (c.later c.table.growth c.table.growthRecords (c.table.roomy.rewritten loc
          { e with value, key := if replaceKey then key else e.key })) := by
  have replaced := run_replaceAt (c := c.later c.table.growth c.table.growthRecords c.table.roomy)
    live key value replaceKey
  simp only [growAndPut, Call.run_bind, run_growIfFull sound quiet granted, Call.run_table,
    Context.table_later, located, Call.run_map, replaced, Context.later_later, List.append_nil]

theorem run_growAndPut_absent (absent : c.table.found keying key = none)
    (granted : Grants c.allowance (c.table.growth ++ c.table.roomy.berthing keying key)) :
    growAndPut keying key value replaceKey c = .ok none
      (c.later (c.table.growth ++ c.table.roomy.berthing keying key) c.table.growthRecords
        (c.table.roomy.stored ⟨key, value, keying.route key⟩)) := by
  obtain ⟨growing, berthing⟩ := grants_append.mp granted
  have missed : c.table.roomy.locate keying key = none :=
    locate_eq_none.mpr (by rw [sound.found_roomy, absent])
  have stored := run_storeFresh (c := c.later c.table.growth c.table.growthRecords c.table.roomy)
    key value berthing
  simp only [growAndPut, Call.run_bind, run_growIfFull sound quiet growing, Call.run_table,
    Context.table_later, missed, stored, Call.run_pure, Context.later_later, List.append_nil]

/-- The one way to fail that leaves a changed table: it has grown, but the slot for the
entry was refused. -/
theorem run_growAndPut_absent_refused (absent : c.table.found keying key = none)
    (growing : Grants c.allowance c.table.growth) {r : Reservation} {asked : List Reservation}
    (refused : Refuses (c.allowance.map (· - c.table.growth.length))
      (c.table.roomy.berthing keying key) r asked) :
    growAndPut keying key value replaceKey c = .error (.refused r)
      (c.later (c.table.growth ++ asked) c.table.growthRecords c.table.roomy) := by
  have missed : c.table.roomy.locate keying key = none :=
    locate_eq_none.mpr (by rw [sound.found_roomy, absent])
  have failed := run_storeFresh_refused
    (c := c.later c.table.growth c.table.growthRecords c.table.roomy) key value refused
  simp only [growAndPut, Call.run_bind, run_growIfFull sound quiet growing, Call.run_table,
    Context.table_later, missed, failed, Context.later_later, List.append_nil]

end GrowAndPut

theorem run_refuseWhileOpen (call : QuietCall) (quiet : c.table.isQuiet = true) :
    refuseWhileOpen call c = .ok () c := by
  simp [refuseWhileOpen, quiet]

theorem run_refuseWhileOpen_refused (call : QuietCall) (busy : c.table.isQuiet = false) :
    refuseWhileOpen call c = .error (.misuse (.whileOpen call c.table.liveCursors)) c := by
  simp [refuseWhileOpen, busy]

/-! ## Removal -/

theorem run_shrinkIfSparse (counted : c.table.Counted) (loc : Location) (e : Entry K V)
    (granted : Grants c.allowance c.table.shrinkage) :
    shrinkIfSparse loc e c =
      .ok () (c.later c.table.shrinkage c.table.shrinkageRecords c.table.slimmed) := by
  cases sparse : c.table.isSparse with
  | false =>
    simp [shrinkIfSparse, sparse, shrinkage, shrinkageRecords, slimmed, Context.later_self]
  | true =>
    cases quiet : c.table.isQuiet with
    | false => simp [shrinkIfSparse, sparse, quiet, shrinkage, shrinkageRecords, slimmed]
    | true =>
      rw [shrinkage, sparse, quiet] at granted
      simp [shrinkIfSparse, sparse, quiet,
        run_resize counted quiet (counted.least_le_half sparse) granted, shrinkage,
        shrinkageRecords, slimmed]

/-- A shrink that is refused brings the vacated entry back. -/
theorem run_shrinkIfSparse_refused {loc : Location} {e : Entry K V} {t : Table K V}
    (counted : c.table.Counted) (live : t.entryAt? loc = some e) (positive : 0 < t.size)
    (vacated : c.table = t.without loc) {r : Reservation} {asked : List Reservation}
    (refused : Refuses c.allowance c.table.shrinkage r asked) :
    shrinkIfSparse loc e c = .error (.refused r)
      (c.later asked [.resizeFailed t.capacity (t.capacity / 2) r] t) := by
  cases due : c.table.isSparse && c.table.isQuiet with
  | false =>
    obtain ⟨n, -, present, -⟩ := refused
    simp [shrinkage, due] at present
  | true =>
    obtain ⟨sparse, quiet⟩ := Bool.and_eq_true_iff.mp due
    rw [shrinkage, if_pos due] at refused
    -- The record names the capacity of the vacated table, which is that of `t`.
    have capacity : t.capacity = c.table.capacity := by rw [vacated, capacity_without]
    have restored : restore loc e (c.later asked
        [.resizeFailed c.table.capacity (c.table.capacity / 2) r] c.table) = _ :=
      run_restore live positive vacated
    simp only [shrinkIfSparse, Call.run_bind, Call.run_table, sparse, quiet, if_true,
      run_resize_refused quiet (counted.least_le_half sparse) refused, restored, Call.run_fail,
      Context.later_later, List.append_nil, capacity]

section Extract

variable (counted : c.table.Counted) {key : K}

theorem run_extract_absent (absent : c.table.found keying key = none) :
    extract keying key c = .ok none c := by
  simp [extract, locate_eq_none.mpr absent]

include counted

theorem run_extract {loc : Location} {e : Entry K V}
    (located : c.table.locate keying key = some loc) (live : c.table.entryAt? loc = some e)
    (granted : Grants c.allowance (c.table.without loc).shrinkage) :
    extract keying key c = .ok (some e.pair) (c.later (c.table.without loc).shrinkage
      (c.table.without loc).shrinkageRecords (c.table.without loc).slimmed) := by
  -- The entry is counted out before the shrink is tried, so the shrink sees the new size.
  have left : (c.later [] [] (c.table.without loc)).table.Counted := counted.without live
  have shrunk := run_shrinkIfSparse left loc e
    (by cases held : c.allowance <;> simpa [held] using granted)
  simp only [extract, Call.run_bind, Call.run_table, located,
    run_vacate live (counted.size_pos live), shrunk, Call.run_pure, Context.later_later,
    Context.table_later, List.nil_append]

theorem run_extract_refused {loc : Location} {e : Entry K V}
    (located : c.table.locate keying key = some loc) (live : c.table.entryAt? loc = some e)
    {r : Reservation} {asked : List Reservation}
    (refused : Refuses c.allowance (c.table.without loc).shrinkage r asked) :
    extract keying key c = .error (.refused r) (c.later asked
      [.resizeFailed c.table.capacity (c.table.capacity / 2) r] c.table) := by
  have left : (c.later [] [] (c.table.without loc)).table.Counted := counted.without live
  have short : Refuses (c.later [] [] (c.table.without loc)).allowance
      (c.table.without loc).shrinkage r asked := by
    cases held : c.allowance <;> simpa [held] using refused
  have undone := run_shrinkIfSparse_refused left live (counted.size_pos live) rfl short
  simp only [extract, Call.run_bind, Call.run_table, located,
    run_vacate live (counted.size_pos live), undone, Context.later_later, List.nil_append]

end Extract

/-! ## Changing a value -/

theorem run_modify_absent {key : K} (absent : c.table.found keying key = none) (f : V → V) :
    modify keying key f c = .ok none c := by
  simp [modify, locate_eq_none.mpr absent]

theorem run_modify {key : K} {loc : Location} {e : Entry K V}
    (located : c.table.locate keying key = some loc) (live : c.table.entryAt? loc = some e)
    (f : V → V) : modify keying key f c = .ok (some e.value)
      (c.later [] [] (c.table.rewritten loc { e with value := f e.value })) := by
  simp [modify, located, run_entryAt live, run_writeValue live]

theorem run_clear (quiet : c.table.isQuiet = true) :
    clear c = .ok () (c.later [] [] c.table.cleared) := by
  simp [clear, run_refuseWhileOpen .clear quiet, cleared]

end ChainTable.Table
