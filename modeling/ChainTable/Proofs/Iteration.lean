import ChainTable.Proofs.Outcome
import ChainTable.Table.Iterator

/-! # How iterations end

Both iterators give the entries in the order of `Directory.entries`, as many as asked
for, and count down to the number still to come; neither runs short of its recorded
length.  The changing one rewrites every entry it passes and moves none; its scan and the
search that moves a cursor are two definitions of one function (`Sweep.nextSlot_eq_seek`).
-/

namespace ChainTable

variable {K V : Type}

namespace Listing

/-- The lengths an iterator shows that starts at `remaining` and gives `count` items. -/
def countdown : (remaining count : Nat) → List Nat
  | remaining, 0 => [remaining]
  | remaining, count + 1 => remaining :: countdown (remaining - 1) count

def ofEntries (remaining : Nat) (entries : List (Entry K V)) : Listing K V :=
  ⟨entries.map Entry.pair, countdown remaining entries.length⟩

theorem ofEntries_nil (remaining : Nat) :
    (ofEntries remaining [] : Listing K V) = .stop remaining := rfl

theorem ofEntries_cons (remaining : Nat) (e : Entry K V) (rest : List (Entry K V)) :
    ofEntries remaining (e :: rest) = .cons e.pair remaining (ofEntries (remaining - 1) rest) := rfl

end Listing

/-! ## The reading iterator -/

theorem firstEntry_spec (slots : List (Slot K V)) :
    match firstEntry slots with
    | some (e, rest) => Bucket.entries slots = e :: Bucket.entries rest
    | none => Bucket.entries slots = [] := by
  induction slots with
  | nil => rfl
  | cons slot rest ih =>
    cases slot with
    | none => simpa [firstEntry] using ih
    | some e => simp [firstEntry]

theorem firstEntryAmong_spec (slots : List (Slot K V)) (buckets : List (Bucket K V)) :
    match firstEntryAmong slots buckets with
    | some (e, rest, others) => Bucket.entries slots ++ buckets.flatMap Bucket.entries =
        e :: (Bucket.entries rest ++ others.flatMap Bucket.entries)
    | none => Bucket.entries slots ++ buckets.flatMap Bucket.entries = [] := by
  induction buckets generalizing slots with
  | nil =>
    have first := firstEntry_spec slots
    cases found : firstEntry slots with
    | none => simpa [firstEntryAmong, found] using first
    | some item => simpa [firstEntryAmong, found] using first
  | cons bucket buckets ih =>
    have first := firstEntry_spec slots
    cases found : firstEntry slots with
    | none =>
      rw [found] at first
      simp only [firstEntryAmong, found, first, List.flatMap_cons, List.nil_append]
      exact ih bucket
    | some item =>
      rw [found] at first
      simp [firstEntryAmong, found, first]

namespace Iter

def pending (it : Iter K V) : List (Entry K V) :=
  Bucket.entries it.slots ++ it.buckets.flatMap Bucket.entries

theorem take_eq_ofEntries (limit : Nat) {it : Iter K V} (counted : it.pending.length ≤ it.remaining) :
    it.take limit = .ok (.ofEntries it.remaining (it.pending.take limit)) := by
  -- The recorded length covers what is pending at every step, so it never runs short.
  induction limit generalizing it with
  | zero => rfl
  | succ limit ih =>
    have first := firstEntryAmong_spec it.slots it.buckets
    cases found : firstEntryAmong it.slots it.buckets with
    | none =>
      rw [found] at first
      have ended : it.pending = [] := first
      simp [take, next, found, ended, Listing.ofEntries_nil]
    | some item =>
      obtain ⟨e, slots, buckets⟩ := item
      rw [found] at first
      have whole : it.pending = e :: pending ⟨slots, buckets, it.remaining - 1⟩ := first
      rw [whole, List.length_cons] at counted
      have left : it.remaining ≠ 0 := by omega
      have fewer : (pending ⟨slots, buckets, it.remaining - 1⟩).length ≤ it.remaining - 1 := by
        omega
      have rest := ih fewer
      simp only [take, next, found, left, if_false, rest, whole, List.take_succ_cons,
        Listing.ofEntries_cons]
      rfl

end Iter

/-! ## The scan of the changing iterator -/

theorem firstOccupied_drop (i : Nat) (bucket : Bucket K V) :
    firstOccupied i (bucket.drop i) = bucket.seek i := by
  unfold Bucket.seek
  generalize bucket.drop i = slots
  induction slots generalizing i with
  | nil => rfl
  | cons slot rest ih =>
    cases slot with
    | some e => simp [firstOccupied, List.findIdx?_cons]
    | none =>
      rw [firstOccupied, ih, List.findIdx?_cons]
      simp only [Option.isSome_none, Bool.false_eq_true, if_false, Option.map_map]
      congr 1
      funext offset
      simp only [Function.comp_apply]
      omega

theorem firstOccupiedAmong_drop (d : Directory K V) (count b i : Nat) :
    firstOccupiedAmong d count b i ((d.bucketAt b).drop i) = d.seekAmong (count + 1) b i := by
  -- The scan holds the slots left in its bucket, where the search holds their first number.
  induction count generalizing b i with
  | zero =>
    cases sought : (d.bucketAt b).seek i <;>
      simp [firstOccupiedAmong, firstOccupied_drop, Directory.seekAmong, sought]
  | succ count ih =>
    have later := ih (b + 1) 0
    rw [List.drop_zero] at later
    rw [Directory.seekAmong]
    cases sought : (d.bucketAt b).seek i with
    | none => simp [firstOccupiedAmong, firstOccupied_drop, sought, later]
    | some s => simp [firstOccupiedAmong, firstOccupied_drop, sought]

/-- The scan of the changing iterator stops where a search of the directory does. -/
@[simp] theorem Sweep.nextSlot_eq_seek (sweep : Sweep) (d : Directory K V) :
    sweep.nextSlot d = d.seek sweep.start := by
  simp only [nextSlot, Directory.seek, firstOccupiedAmong_drop]
  by_cases inside : sweep.start.bucket < d.size
  · rw [show d.size - (sweep.start.bucket + 1) + 1 = d.size - sweep.start.bucket by omega]
  · -- There is no bucket to start from, and none behind it.
    have missing : d.bucketAt sweep.start.bucket = [] := by simp [Directory.bucketAt, inside]
    have ahead : d.size - sweep.start.bucket = 0 := by omega
    have behind : d.size - (sweep.start.bucket + 1) = 0 := by omega
    simp [ahead, behind, Directory.seekAmong, missing, Bucket.seek]

namespace Table

def passed (limit : Option Nat) (t : Table K V) : List (Location × Entry K V) :=
  t.directory.live.take (limit.getD t.stepsToEnd)

def listing (limit : Option Nat) (t : Table K V) : Listing K V :=
  .ofEntries t.size ((t.passed limit).map Prod.snd)

variable {keying : Keying K} {c : Context K V}

theorem map_snd_passed (limit : Option Nat) (t : Table K V) :
    (t.passed limit).map Prod.snd = t.directory.entries.take (limit.getD t.stepsToEnd) := by
  rw [passed, List.map_take, Directory.map_snd_live]

theorem passed_none (t : Table K V) : t.passed none = t.directory.live := by
  rw [passed, Option.getD_none, List.take_of_length_le]
  rw [stepsToEnd, Directory.occupied_eq_length_entries, ← Directory.map_snd_live,
    List.length_map]
  exact Nat.le_succ _

theorem Counted.length_passed {t : Table K V} (counted : t.Counted) (limit : Option Nat) :
    (t.passed limit).length = limit.elim t.size (min · t.size) := by
  have live : t.directory.live.length = t.size := by
    rw [counted.size_eq_length, ← Directory.map_snd_live, List.length_map]
  cases limit with
  | some n => rw [passed, List.length_take, live]; rfl
  | none => rw [passed_none, live]; rfl

theorem run_iterate (sound : c.table.Sound keying) (limit : Option Nat) :
    iterate limit c = .ok (c.table.listing limit) c := by
  have whole : c.table.iter.pending = c.table.directory.entries := rfl
  -- The recorded size is the number of entries, which is all the iterator counts on.
  have counted : c.table.iter.pending.length ≤ c.table.iter.remaining := by
    rw [whole, ← sound.size_eq_length]
    exact Nat.le_refl _
  simp only [iterate, Call.run_bind, Call.run_table, Iter.take_eq_ofEntries _ counted,
    Call.ofBreach, Call.run_pure, listing, map_snd_passed, whole]
  rfl

theorem run_keys (sound : c.table.Sound keying) :
    keys c = .ok (c.table.directory.entries.map Entry.key) c := by
  simp only [keys, Call.run_bind, run_iterate sound, Call.run_pure, listing, Listing.ofEntries,
    passed_none, Directory.map_snd_live, List.map_map]
  rfl

/-! ## The changing iterator -/

/-- The table after a sweep along some entries, where item number `n` is the first and the
value of item number `i` is changed by `f i`. -/
def swept (f : Nat → V → V) : Nat → List (Location × Entry K V) → Table K V → Table K V
  | _, [], t => t
  | n, (loc, e) :: rest, t =>
    swept f (n + 1) rest (t.rewritten loc { e with value := f n e.value })

theorem ahead_rewritten {t : Table K V} {loc : Location} {e : Entry K V}
    (live : t.entryAt? loc = some e) (e' : Entry K V) :
    (t.rewritten loc e').directory.ahead loc.next = t.directory.ahead loc.next := by
  apply Directory.ahead_congr
  intro other reached
  have behind := Location.not_before_next.mp reached
  have differs : other ≠ loc := fun same => loc.not_before_self (same ▸ behind)
  have entry := entryAt?_rewritten other live e'
  rw [if_neg differs] at entry
  exact entry

theorem run_sweep (f : Nat → V → V) (limit n : Nat) {start : Location} {remaining : Nat}
    (counted : (c.table.directory.ahead start).length ≤ remaining) :
    Sweep.take f limit n ⟨start, remaining⟩ c = .ok
      (.ofEntries remaining (((c.table.directory.ahead start).take limit).map Prod.snd))
      (c.later [] [] (c.table.swept f n ((c.table.directory.ahead start).take limit))) := by
  -- Along the way the table changes behind the sweep only: what is ahead stays as it is.
  induction limit generalizing c n start remaining with
  | zero => simp [Sweep.take, swept, Listing.ofEntries_nil, Context.later_self]
  | succ limit ih =>
    cases sought : c.table.directory.seek start with
    | none =>
      simp [Sweep.take, Sweep.next, sought, Directory.ahead_of_seek_none sought, swept,
        Listing.ofEntries_nil, Context.later_self]
    | some loc =>
      obtain ⟨e, live, whole⟩ := Directory.ahead_of_seek sought
      have left : decide (0 < remaining) = true := by
        rw [whole, List.length_cons] at counted
        exact decide_eq_true (by omega)
      have others := ahead_rewritten (t := c.table) live { e with value := f n e.value }
      have fewer : ((c.table.rewritten loc { e with value := f n e.value }).directory.ahead
          loc.next).length ≤ remaining - 1 := by
        rw [whole, List.length_cons] at counted
        rw [others]
        omega
      have rest := ih (c := c.later [] [] (c.table.rewritten loc { e with value := f n e.value }))
        (n + 1) fewer
      rw [Context.table_later, others] at rest
      have entry : entryAt loc c = .ok e c := run_entryAt live
      have written := run_writeValue (c := c) live (f n e.value)
      simp only [Sweep.take, Sweep.next, Call.run_bind, Call.run_table, Sweep.nextSlot_eq_seek,
        sought, entry, Call.run_check c left, written, Call.run_pure, Call.run_map]
      rw [show (⟨⟨loc.bucket, loc.slot + 1⟩, remaining - 1⟩ : Sweep) = ⟨loc.next, remaining - 1⟩
        from rfl, rest, whole]
      simp only [List.take_succ_cons, List.map_cons, Listing.ofEntries_cons, swept,
        Context.later_later, List.append_nil]
      rfl

theorem entryAt?_of_mem_passed {limit : Option Nat} {t : Table K V} {p : Location × Entry K V}
    (member : p ∈ t.passed limit) : t.entryAt? p.1 = some p.2 :=
  Directory.mem_live.mp (List.mem_of_mem_take member)

theorem pairwise_passed (limit : Option Nat) (t : Table K V) :
    (t.passed limit).Pairwise fun a b => a.1 ≠ b.1 := by
  apply (t.directory.pairwise_live.sublist (List.take_sublist _ _)).imp
  intro a b order same
  rw [same] at order
  exact b.1.not_before_self order

/-- To rewrite the first of some entries leaves the others as they were listed. -/
theorem entryAt?_of_mem_rest {t : Table K V} {loc : Location} {e : Entry K V}
    {rest : List (Location × Entry K V)}
    (live : ∀ item ∈ (loc, e) :: rest, t.entryAt? item.1 = some item.2)
    (apart : ((loc, e) :: rest).Pairwise fun a b => a.1 ≠ b.1) (e' : Entry K V) :
    ∀ item ∈ rest, (t.rewritten loc e').entryAt? item.1 = some item.2 := by
  intro item member
  have first : t.entryAt? loc = some e := live (loc, e) List.mem_cons_self
  have differs : loc ≠ item.1 := (List.pairwise_cons.mp apart).1 item member
  rw [entryAt?_rewritten item.1 first, if_neg differs.symm]
  exact live item (List.mem_cons_of_mem _ member)

/-- A sweep keeps what every change of a value keeps. -/
theorem swept_induction {Holds : Table K V → Prop} (f : Nat → V → V)
    (keeps : ∀ t loc e value, Holds t → t.entryAt? loc = some e →
      Holds (t.rewritten loc { e with value }))
    {items : List (Location × Entry K V)} {t : Table K V} (n : Nat)
    (live : ∀ p ∈ items, t.entryAt? p.1 = some p.2)
    (apart : items.Pairwise fun a b => a.1 ≠ b.1) (start : Holds t) :
    Holds (t.swept f n items) := by
  induction items generalizing t n with
  | nil => exact start
  | cons item rest ih =>
    obtain ⟨loc, e⟩ := item
    have first : t.entryAt? loc = some e := live (loc, e) List.mem_cons_self
    exact ih (n + 1) (entryAt?_of_mem_rest live apart _) (List.pairwise_cons.mp apart).2
      (keeps t loc e _ start first)

@[simp] theorem cursors_swept (f : Nat → V → V) (n : Nat) (items : List (Location × Entry K V))
    (t : Table K V) : (t.swept f n items).cursors = t.cursors := by
  induction items generalizing n t with
  | nil => rfl
  | cons item rest ih => exact ih (n + 1) _

@[simp] theorem size_swept (f : Nat → V → V) (n : Nat) (items : List (Location × Entry K V))
    (t : Table K V) : (t.swept f n items).size = t.size := by
  induction items generalizing n t with
  | nil => rfl
  | cons item rest ih => exact ih (n + 1) _

@[simp] theorem capacity_swept (f : Nat → V → V) (n : Nat)
    (items : List (Location × Entry K V)) (t : Table K V) :
    (t.swept f n items).capacity = t.capacity := by
  induction items generalizing n t with
  | nil => rfl
  | cons item rest ih => exact (ih (n + 1) _).trans (capacity_rewritten _ _ _)

theorem run_reviseEach (sound : c.table.Sound keying) (limit : Option Nat) (f : Nat → V → V) :
    reviseEach limit f c = .ok (c.table.listing limit)
      (c.later [] [] (c.table.swept f 0 (c.table.passed limit))) := by
  have counted : (c.table.directory.ahead ⟨0, 0⟩).length ≤ c.table.size := by
    rw [Directory.ahead_origin, sound.size_eq_length, ← Directory.map_snd_live, List.length_map]
  have ended := run_sweep (c := c) f (limit.getD c.table.stepsToEnd) 0 counted
  rw [Directory.ahead_origin] at ended
  simp only [reviseEach, Call.run_bind, Call.run_table, sweep]
  exact ended

end Table

end ChainTable
