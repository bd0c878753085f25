import ChainTable.Directory.Rehash
import ChainTable.Proofs.Directory

/-! # What a rehash makes of the entries

`gather` says what the new directory is: every bucket receives the entries whose
hash belongs to it, in order and without vacant slots.  The counting and reserving
that a rehash does on the way never fails (`rehash_eq_gather`), and since entries
with one hash stay in order, a look-up still finds the same entry.
-/

namespace ChainTable.Directory

variable {K V : Type}

def belonging (capacity : Nat) (entries : List (Entry K V)) (i : Nat) : List (Entry K V) :=
  entries.filter fun e => home e.hash capacity == i

def gather (capacity : Nat) (entries : List (Entry K V)) : Directory K V :=
  (Array.range capacity).map fun i => (belonging capacity entries i).map some

/-! ## Filling the berths -/

/-- The berths of a rehash that has settled the entries `settled` and has `rest` to go. -/
def berths (capacity : Nat) (settled rest : List (Entry K V)) : Array (Berth K V) :=
  (Array.range capacity).map fun i =>
    ⟨(belonging capacity settled i).reverse, (belonging capacity rest i).length⟩

theorem size_berths (capacity : Nat) (settled rest : List (Entry K V)) :
    (berths capacity settled rest).size = capacity := by
  simp [berths]

theorem getElem?_berths {capacity i : Nat} (inside : i < capacity)
    (settled rest : List (Entry K V)) :
    (berths capacity settled rest)[i]? = some
      ⟨(belonging capacity settled i).reverse, (belonging capacity rest i).length⟩ := by
  simp [berths, inside]

theorem getElem?_tally {capacity i : Nat} (inside : i < capacity) (entries : List (Entry K V)) :
    (tally capacity entries)[i]? = some (belonging capacity entries i).length := by
  -- The fold counts on from any counts, which is what the induction needs.
  have counting : ∀ counts : Array Nat, (entries.foldl (fun counts e =>
      counts.modify (home e.hash capacity) (· + 1)) counts)[i]? =
        counts[i]?.map (· + (belonging capacity entries i).length) := by
    induction entries with
    | nil => intro counts; simp [belonging]
    | cons e rest ih =>
      intro counts
      rw [List.foldl_cons, ih, Array.getElem?_modify]
      by_cases own : home e.hash capacity = i
      · simp only [own, if_true, Option.map_map]
        congr 1
        funext count
        simp only [Function.comp_apply, belonging, List.filter_cons, own, beq_self_eq_true,
          if_true, List.length_cons]
        omega
      · simp [belonging, own]
  rw [tally, counting]
  simp [inside]

theorem map_ofRoom_tally (capacity : Nat) (entries : List (Entry K V)) :
    (tally capacity entries).map Berth.ofRoom = berths capacity [] entries := by
  apply Array.ext_getElem?
  intro i
  by_cases inside : i < capacity
  · rw [Array.getElem?_map, getElem?_tally inside, getElem?_berths inside]
    rfl
  · have outside : capacity ≤ i := by omega
    simp [size_tally, size_berths, outside]

/-- An entry to go finds the room that was counted for it. -/
theorem settle_berths {capacity : Nat} (positive : 0 < capacity) (e : Entry K V)
    (settled rest : List (Entry K V)) :
    settle e (berths capacity settled (e :: rest)) = .ok (berths capacity (settled ++ [e]) rest) := by
  -- The berth of `e` counts `e` itself among those to go, so its room is not used up.
  have inside : home e.hash capacity < capacity := home_lt e.hash positive
  simp only [settle, size_berths, getElem?_berths inside]
  simp only [belonging, List.filter_cons, beq_self_eq_true, if_true, List.length_cons, Berth.push,
    Nat.add_one_ne_zero, if_false, Except.ok.injEq]
  apply Array.ext_getElem?
  intro i
  by_cases bound : i < capacity
  · rw [Array.getElem?_setIfInBounds, getElem?_berths bound, getElem?_berths bound, size_berths]
    by_cases own : home e.hash capacity = i
    · simp [own, bound, belonging]
    · simp [own, belonging]
  · have outside : capacity ≤ i := by omega
    simp [size_berths, outside]

theorem settleAll_berths {capacity : Nat} (positive : 0 < capacity)
    (settled rest : List (Entry K V)) :
    settleAll rest (berths capacity settled rest) = .ok (berths capacity (settled ++ rest) []) := by
  induction rest generalizing settled with
  | nil => simp [settleAll]
  | cons e rest ih =>
    rw [settleAll, settle_berths positive]
    simpa using ih (settled ++ [e])

/-- A rehash gathers the entries; it never runs out of reserved room. -/
theorem rehash_eq_gather {capacity : Nat} (positive : 0 < capacity) (entries : List (Entry K V)) :
    rehash capacity entries = .ok (gather capacity entries) := by
  rw [rehash, map_ofRoom_tally, settleAll_berths positive, Except.map, List.nil_append]
  congr 1
  simp [berths, gather, Berth.bucket, Function.comp_def]

/-! ## The gathered directory -/

@[simp] theorem size_gather (capacity : Nat) (entries : List (Entry K V)) :
    (gather capacity entries).size = capacity := by
  simp [gather]

theorem bucketAt_gather {capacity i : Nat} (inside : i < capacity) (entries : List (Entry K V)) :
    (gather capacity entries).bucketAt i = (belonging capacity entries i).map some := by
  simp [bucketAt, gather, inside]

@[simp] theorem entries_map_some (entries : List (Entry K V)) :
    Bucket.entries (entries.map some) = entries := by
  simp [Bucket.entries, List.filterMap_map]

theorem entries_gather (capacity : Nat) (entries : List (Entry K V)) :
    (gather capacity entries).entries =
      (List.range capacity).flatMap (belonging capacity entries) := by
  simp [Directory.entries, gather, List.flatMap_map]

theorem flatMap_belonging_perm (capacity : Nat) (entries : List (Entry K V)) {buckets : List Nat}
    (distinct : buckets.Nodup) :
    (buckets.flatMap (belonging capacity entries)).Perm
      (entries.filter fun e => home e.hash capacity ∈ buckets) := by
  induction buckets with
  | nil => simp
  | cons i buckets ih =>
    obtain ⟨fresh, distinct⟩ := List.nodup_cons.mp distinct
    rw [List.flatMap_cons]
    apply ((ih distinct).append_left _).trans
    -- Split what belongs to the buckets by whether it belongs to the first of them.
    have parts := List.filter_append_perm (fun e => home e.hash capacity == i)
      (entries.filter fun e => home e.hash capacity ∈ i :: buckets)
    refine List.Perm.trans (List.Perm.of_eq ?_) parts
    rw [List.filter_filter, List.filter_filter, belonging]
    congr 1
    · apply List.filter_congr
      intro e _
      by_cases own : home e.hash capacity = i <;> simp [own]
    · apply List.filter_congr
      intro e _
      by_cases own : home e.hash capacity = i
      · simp [own, fresh]
      · simp [own]

theorem entries_gather_perm {capacity : Nat} (positive : 0 < capacity)
    (entries : List (Entry K V)) : (gather capacity entries).entries.Perm entries := by
  rw [entries_gather]
  refine (flatMap_belonging_perm capacity entries List.nodup_range).trans (List.Perm.of_eq ?_)
  rw [List.filter_eq_self]
  intro e _
  simpa using home_lt e.hash positive

theorem occupied_gather {capacity : Nat} (positive : 0 < capacity) (entries : List (Entry K V)) :
    (gather capacity entries).occupied = entries.length := by
  rw [occupied_eq_length_entries, (entries_gather_perm positive entries).length_eq]

theorem entryAt?_gather {capacity : Nat} {entries : List (Entry K V)} {loc : Location}
    {e : Entry K V} (live : (gather capacity entries).entryAt? loc = some e) :
    e ∈ entries ∧ loc.bucket = home e.hash capacity := by
  have inside : loc.bucket < capacity := by simpa using lt_size_of_entryAt? live
  have slot := entryAt?_eq_some.mp live
  rw [slotAt?, bucketAt_gather inside] at slot
  have member : e ∈ belonging capacity entries loc.bucket := by
    simpa using List.mem_of_getElem? slot
  obtain ⟨given, lives⟩ := List.mem_filter.mp member
  exact ⟨given, (beq_iff_eq.mp lives).symm⟩

/-- A look-up in a gathered directory finds the first of the given entries that answers. -/
theorem found_gather {capacity : Nat} (positive : 0 < capacity) (entries : List (Entry K V))
    (keying : Keying K) (key : K) :
    (gather capacity entries).found keying key = entries.find? (answers keying key) := by
  have inside : home (keying.route key) capacity < capacity := home_lt _ positive
  rw [found_eq_find?_bucket, size_gather, bucketAt_gather inside, entries_map_some, belonging,
    List.find?_filter]
  -- An entry that answers has the key's hash, so the filter by bucket keeps it.
  congr 1
  funext e
  cases answering : answers keying key e with
  | false => simp
  | true => simp [(answers_iff.mp answering).1]

end ChainTable.Directory
