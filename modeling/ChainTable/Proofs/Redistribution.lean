import ChainTable.Proofs.Enumeration
import ChainTable.Proofs.Resize

/-! # Where a resize takes every entry

A resize gathers the entries bucket by bucket, which is what storing them one after the other
in a blank directory gives.  Since every entry is in the bucket of its hash, twice the buckets
split every bucket in two, and half the buckets join every two that lie half the capacity
apart.  Only stored hashes are looked at, so no keying occurs in a resize.
-/

namespace ChainTable

variable {K V : Type}

theorem flatMap_range_single {α : Type} {f : Nat → List α} {i n : Nat} (inside : i < n)
    (others : ∀ j, j < n → j ≠ i → f j = []) : (List.range n).flatMap f = f i := by
  induction n with
  | zero => omega
  | succ n ih =>
    rw [List.range_succ, List.flatMap_append, List.flatMap_singleton]
    by_cases last : i = n
    · subst last
      have none : (List.range i).flatMap f = [] := by
        rw [List.flatMap_eq_nil_iff]
        intro j member
        have before := List.mem_range.mp member
        exact others j (by omega) (by omega)
      rw [none, List.nil_append]
    · rw [ih (by omega) fun j bound => others j (by omega), others n (by omega) (Ne.symm last),
        List.append_nil]

theorem Bucket.store_map_some (e : Entry K V) (entries : List (Entry K V)) :
    Bucket.store e (entries.map some) = (entries ++ [e]).map some := by
  induction entries with
  | nil => rfl
  | cons other rest ih => simp [Bucket.store, ih]

namespace Directory

/-! ## Storing one after the other -/

theorem gather_nil (capacity : Nat) : (gather capacity [] : Directory K V) = blank capacity := by
  apply Array.ext_getElem?
  intro i
  by_cases inside : i < capacity
  · simp [gather, blank, belonging, inside]
  · simp [gather, blank, inside]

theorem gather_append_singleton (capacity : Nat) (entries : List (Entry K V)) (e : Entry K V) :
    gather capacity (entries ++ [e]) = (gather capacity entries).store e := by
  apply Array.ext_getElem?
  intro i
  rw [store, size_gather, Array.getElem?_modify]
  by_cases inside : i < capacity
  · by_cases own : home e.hash capacity = i
    · simp [gather, belonging, inside, own, Bucket.store_map_some]
    · simp [gather, belonging, inside, own]
  · simp [gather, inside]

/-- Gathering is storing one after the other. -/
theorem foldl_store_gather (capacity : Nat) (stored rest : List (Entry K V)) :
    rest.foldl (fun d e => d.store e) (gather capacity stored) =
      gather capacity (stored ++ rest) := by
  induction rest generalizing stored with
  | nil => rw [List.foldl_nil, List.append_nil]
  | cons e rest ih =>
    rw [List.foldl_cons, ← gather_append_singleton, ih, List.append_assoc]
    rfl

theorem gather_eq_foldl (capacity : Nat) (entries : List (Entry K V)) :
    gather capacity entries = entries.foldl (fun d e => d.store e) (blank capacity) := by
  rw [← gather_nil, foldl_store_gather, List.nil_append]

/-! ## Bucket by bucket -/

variable {d : Directory K V}

theorem entries_eq_flatMap_range (d : Directory K V) :
    d.entries = (List.range d.size).flatMap fun i => (d.bucketAt i).entries := by
  have buckets : d.toList = (List.range d.size).map d.bucketAt := by
    apply List.ext_getElem?
    intro i
    by_cases inside : i < d.size
    · simp [bucketAt, inside]
    · simp [inside]
  rw [entries, buckets, List.flatMap_map]

theorem belonging_eq_flatMap_range (capacity : Nat) (d : Directory K V) (j : Nat) :
    belonging capacity d.entries j =
      (List.range d.size).flatMap fun i => belonging capacity (d.bucketAt i).entries j := by
  rw [belonging, entries_eq_flatMap_range, List.filter_flatMap]
  rfl

/-- An entry of a bucket has a hash that leads there. -/
theorem Homed.of_mem (homed : d.Homed) {i : Nat} {e : Entry K V}
    (member : e ∈ (d.bucketAt i).entries) : home e.hash d.size = i := by
  obtain ⟨s, slot⟩ := List.getElem?_of_mem (Bucket.mem_entries.mp member)
  exact (homed ⟨i, s⟩ e (entryAt?_eq_some.mpr slot)).symm

/-- With twice the buckets the entries of bucket `j` come from one former bucket. -/
theorem belonging_double (homed : d.Homed) {j : Nat} (inside : j < d.size * 2) :
    belonging (d.size * 2) d.entries j =
      belonging (d.size * 2) (d.bucketAt (j % d.size)).entries j := by
  rw [belonging_eq_flatMap_range]
  apply flatMap_range_single (Nat.mod_lt _ (by omega))
  intro i _ other
  rw [belonging, List.filter_eq_nil_iff]
  intro e member own
  have former : home e.hash d.size = i := homed.of_mem member
  have later : home e.hash (d.size * 2) = j := beq_iff_eq.mp own
  apply other
  rw [← former, ← later, home, home, Nat.mod_mod_of_dvd _ (Nat.dvd_mul_right _ _)]

/-- With half the buckets the entries of a former bucket stay together. -/
theorem belonging_half (homed : d.Homed) {capacity i j : Nat} (half : capacity * 2 = d.size) :
    belonging capacity (d.bucketAt i).entries j =
      if i % capacity = j then (d.bucketAt i).entries else [] := by
  have stays : ∀ e ∈ (d.bucketAt i).entries, home e.hash capacity = i % capacity := by
    intro e member
    rw [← homed.of_mem member, home, home, ← half, Nat.mod_mod_of_dvd _ (Nat.dvd_mul_right _ _)]
  split
  case isTrue own =>
    rw [belonging, List.filter_eq_self]
    intro e member
    simp [stays e member, own]
  case isFalse other =>
    rw [belonging, List.filter_eq_nil_iff]
    intro e member
    simp [stays e member, other]

/-- With half the buckets the entries of bucket `j` come from two former buckets, the lower
one first. -/
theorem belonging_entries_half (homed : d.Homed) {capacity j : Nat} (half : capacity * 2 = d.size)
    (inside : j < capacity) :
    belonging capacity d.entries j =
      (d.bucketAt j).entries ++ (d.bucketAt (j + capacity)).entries := by
  rw [belonging_eq_flatMap_range]
  simp only [belonging_half homed half]
  rw [← half, Nat.mul_two, List.range_add, List.flatMap_append, List.flatMap_map]
  congr 1
  · rw [flatMap_range_single inside]
    · rw [if_pos (Nat.mod_eq_of_lt inside)]
    · intro i bound other
      rw [if_neg (by rwa [Nat.mod_eq_of_lt bound])]
  · rw [flatMap_range_single inside]
    · rw [Nat.add_comm capacity j, if_pos (by rw [Nat.add_mod_right, Nat.mod_eq_of_lt inside])]
    · intro i bound other
      rw [if_neg (by rwa [Nat.add_mod_left, Nat.mod_eq_of_lt bound])]

end Directory

namespace Table

variable {keying : Keying K} {t t' : Table K V} {capacity : Nat} {allowance : Option Nat}
  {reply : Reply (Option Reservation)}

theorem perform_resize_below (quiet : t.isQuiet = true) (below : capacity < leastCapacity)
    (allowance : Option Nat) : (resize capacity).perform allowance t =
      (⟨.error (.breach .belowLeastCapacity), [], []⟩, t) := by
  have quiet' : Call.check t.isQuiet .resizeWhileOpen ⟨t, allowance, [], []⟩ = .ok () _ :=
    Call.run_check _ quiet _
  apply Call.perform_of_refusal
  simp only [resize, Call.run_bind, Call.run_table, quiet']
  simp [Call.check, Nat.not_le.mpr below]

/-- A resize succeeds exactly where the capacity is not below the least and all its storage is
granted; else the table is as it was. -/
theorem resize_succeeds_iff (counted : t.Counted) (quiet : t.isQuiet = true)
    (ended : (resize capacity).perform allowance t = (reply, t')) :
    (reply.answer = .ok none ↔ leastCapacity ≤ capacity ∧
      Grants allowance (Directory.reservations capacity t.directory.entries)) ∧
      t' = if reply.answer = .ok none then t.rehashed capacity else t := by
  by_cases least : leastCapacity ≤ capacity
  · have ends := resize_ends counted quiet least allowance
    rw [ended] at ends
    rcases ends with ⟨r, asked, refused, answered, same⟩ | ⟨granted, answered, done⟩
    · rw [answered]
      exact ⟨iff_of_false nofun fun both => refused.not_grants both.2, same⟩
    · rw [answered]
      exact ⟨iff_of_true rfl ⟨least, granted⟩, done⟩
  · rw [perform_resize_below quiet (Nat.lt_of_not_le least)] at ended
    cases ended
    exact ⟨iff_of_false nofun fun both => least both.1, (if_neg nofun).symm⟩

theorem Counted.half_mul_two (counted : t.Counted) : t.capacity / 2 * 2 = t.capacity := by
  obtain ⟨k, capacity⟩ := counted.capacity_eq
  rw [capacity, leastCapacity]
  omega

/-- How a resize of any table that actions lead to ends, where no cursor is open.  It succeeds
exactly where the capacity is not below the least and all its storage is granted, and else
leaves the table as it was.  Where it succeeds, all entries are there with their keys, values
and stored hashes, and the directory is what storing them one after the other, in the order
of the iterators, makes of a blank one.  With twice the buckets, bucket `j` takes from bucket
`j % c` what its stored hash leads there, in order; with half of them, it takes what is in
bucket `j` and then what is in the bucket half the capacity further on. -/
theorem resized_layout (reachable : t.Reachable keying) (quiet : t.isQuiet = true)
    (ended : (resize capacity).perform allowance t = (reply, t')) :
    (reply.answer = .ok none ↔ leastCapacity ≤ capacity ∧
      Grants allowance (Directory.reservations capacity t.directory.entries)) ∧
    (reply.answer ≠ .ok none → t' = t) ∧
    (reply.answer = .ok none →
      t'.capacity = capacity ∧ t'.size = t.size ∧ t'.cursors = t.cursors ∧
      t'.directory.entries.Perm t.directory.entries ∧
      (∃ listing, t.act keying none (.ask (.iterate none)) = (⟨.ok (.listing listing), [], []⟩, t) ∧
        listing.items = t.directory.entries.map Entry.pair) ∧
      t'.directory =
        t.directory.entries.foldl (fun d e => d.store e) (Directory.blank capacity) ∧
      (capacity = t.capacity * 2 → ∀ j < capacity, t'.directory.bucketAt j =
        ((t.directory.bucketAt (j % t.capacity)).entries.filter fun e =>
          e.hash.toNat % capacity == j).map some) ∧
      (capacity = t.capacity / 2 → ∀ j < capacity, t'.directory.bucketAt j =
        ((t.directory.bucketAt j).entries ++
          (t.directory.bucketAt (j + capacity)).entries).map some)) := by
  have sound := reachable.sound
  obtain ⟨succeeds, left⟩ := resize_succeeds_iff sound.toCounted quiet ended
  refine ⟨succeeds, fun failed => left.trans (if_neg failed), fun answered => ?_⟩
  have positive : 0 < capacity := Nat.lt_of_lt_of_le (by decide) (succeeds.mp answered).1
  rw [if_pos answered] at left
  subst left
  refine ⟨capacity_rehashed t capacity, rfl, rfl,
    Directory.entries_gather_perm positive _, ⟨t.listing none, sound.act_iterate none none, ?_⟩,
    Directory.gather_eq_foldl capacity _, fun double j inside => ?_, fun half j inside => ?_⟩
  · rw [sound.listing_none, ← Directory.map_snd_live, List.map_map]
    rfl
  · have source := Directory.belonging_double sound.directory_homed (double ▸ inside)
    subst double
    rw [rehashed, Directory.bucketAt_gather inside, capacity, source]
    rfl
  · have whole : capacity * 2 = t.directory.size := half ▸ sound.half_mul_two
    rw [rehashed, Directory.bucketAt_gather inside,
      Directory.belonging_entries_half sound.directory_homed whole inside]

/-- Five entries in eight buckets: two of them share a bucket, and one more bucket has only a
vacant slot. -/
def spread : Table Nat Nat :=
  ⟨#[[], [some ⟨1, 10, 1⟩, some ⟨9, 90, 9⟩], [some ⟨2, 20, 2⟩], [some ⟨3, 30, 3⟩], [none],
    [some ⟨5, 50, 5⟩], [], []], 5, Registry.new 1⟩

theorem reachable_spread : spread.Reachable Session.lastDigit := by
  have filled : hollow.afterAll Session.lastDigit
      [⟨none, .ask (.insert 5 50)⟩, ⟨none, .ask (.insert 1 10)⟩] = spread := by decide +kernel
  rw [← filled]
  exact reachable_hollow.afterAll _

/-- Twice the buckets part the two entries, and half of them join three. -/
theorem resized_layout_spread :
    ∃ wide narrow, (resize 16).perform none spread = wide ∧
      (resize 4).perform none spread = narrow ∧
      wide.1.answer = .ok none ∧ narrow.1.answer = .ok none ∧
      wide.2.directory.bucketAt 1 = [some ⟨1, 10, 1⟩] ∧
      wide.2.directory.bucketAt 9 = [some ⟨9, 90, 9⟩] ∧
      wide.2.directory.bucketAt 4 = [] ∧
      narrow.2.directory.bucketAt 1 = [some ⟨1, 10, 1⟩, some ⟨9, 90, 9⟩, some ⟨5, 50, 5⟩] ∧
      narrow.2.size = 5 := by
  obtain ⟨grown, -, wide⟩ := resized_layout reachable_spread (by decide)
    (Prod.eta ((resize 16).perform none spread)).symm
  obtain ⟨shrunk, -, narrow⟩ := resized_layout reachable_spread (by decide)
    (Prod.eta ((resize 4).perform none spread)).symm
  have grows := grown.mpr ⟨by decide, grants_none _⟩
  have shrinks := shrunk.mpr ⟨by decide, grants_none _⟩
  obtain ⟨-, -, -, -, -, -, split, -⟩ := wide grows
  obtain ⟨-, size, -, -, -, -, -, joined⟩ := narrow shrinks
  refine ⟨_, _, rfl, rfl, grows, shrinks, ?_, ?_, ?_, ?_, size⟩
  · exact (split (by decide) 1 (by decide)).trans (by decide)
  · exact (split (by decide) 9 (by decide)).trans (by decide)
  · exact (split (by decide) 4 (by decide)).trans (by decide)
  · exact (joined (by decide) 1 (by decide)).trans (by decide)

end Table

end ChainTable
