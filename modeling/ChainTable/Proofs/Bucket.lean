import ChainTable.Bucket

/-! # Buckets slot by slot

What each bucket operation does to the slot at one index and to the list of
entries.  Every later fact about directories is assembled from these.
-/

namespace ChainTable.Bucket

variable {K V : Type}

/-- The index of the slot that the next stored entry goes to: the first vacant one, or
the one behind the last. -/
def vacancy (bucket : Bucket K V) : Nat := bucket.findIdx Option.isNone

@[simp] theorem vacancy_vacant_cons (rest : Bucket K V) : vacancy (none :: rest) = 0 := by
  simp [vacancy, List.findIdx_cons]

@[simp] theorem vacancy_occupied_cons (e : Entry K V) (rest : Bucket K V) :
    vacancy (some e :: rest) = vacancy rest + 1 := by
  simp [vacancy, List.findIdx_cons]

theorem join_getElem?_vacancy (bucket : Bucket K V) : bucket[bucket.vacancy]?.join = none := by
  induction bucket with
  | nil => rfl
  | cons slot rest ih =>
    cases slot with
    | none => simp
    | some e => simpa using ih

theorem getElem?_store (e : Entry K V) (bucket : Bucket K V) (j : Nat) :
    (bucket.store e)[j]? = if j = bucket.vacancy then some (some e) else bucket[j]? := by
  induction bucket generalizing j with
  | nil => cases j <;> simp [store, vacancy]
  | cons slot rest ih =>
    cases slot with
    | none => cases j <;> simp [store]
    | some other =>
      cases j with
      | zero => simp [store]
      | succ j => simp [store, ih]

theorem mem_entries {e : Entry K V} {bucket : Bucket K V} :
    e ∈ bucket.entries ↔ some e ∈ bucket := by
  simp [entries]

theorem entries_eq_around {bucket : Bucket K V} {i : Nat} {slot : Slot K V}
    (present : bucket[i]? = some slot) :
    bucket.entries =
      entries (bucket.take i) ++ (slot.toList ++ entries (bucket.drop (i + 1))) := by
  obtain ⟨bound, rfl⟩ := List.getElem?_eq_some_iff.mp present
  calc bucket.entries = entries (bucket.take i ++ bucket[i] :: bucket.drop (i + 1)) := by
        rw [List.getElem_cons_drop, List.take_append_drop]
    _ = _ := by cases bucket[i] <;> simp [entries, List.filterMap_append]

theorem entries_set_around {bucket : Bucket K V} {i : Nat} (bound : i < bucket.length)
    (slot : Slot K V) :
    entries (bucket.set i slot) =
      entries (bucket.take i) ++ (slot.toList ++ entries (bucket.drop (i + 1))) := by
  have present : (bucket.set i slot)[i]? = some slot := by simp [bound]
  rw [entries_eq_around present, List.take_set_of_le (Nat.le_refl i),
    List.drop_set_of_lt (Nat.lt_succ_self i)]

theorem bind_position? (p : Entry K V → Bool) (bucket : Bucket K V) :
    ((bucket.position? p).bind fun i => bucket[i]?.join) = bucket.entries.find? p := by
  induction bucket with
  | nil => rfl
  | cons slot rest ih =>
    cases slot with
    | none =>
      rw [entries_vacant_cons, ← ih]
      simp only [position?, List.findIdx?_cons, Option.any_none, Bool.false_eq_true, if_false,
        Option.bind_map]
      rfl
    | some e =>
      rw [entries_occupied_cons, List.find?_cons]
      cases found : p e with
      | true => simp [position?, List.findIdx?_cons, found]
      | false =>
        simp only [← ih, position?, List.findIdx?_cons, Option.any_some, found,
          Bool.false_eq_true, if_false, Option.bind_map]
        rfl

theorem exists_of_position? {p : Entry K V → Bool} {bucket : Bucket K V} {i : Nat}
    (found : bucket.position? p = some i) : ∃ e, bucket[i]? = some (some e) ∧ p e = true := by
  obtain ⟨bound, satisfied, -⟩ := List.findIdx?_eq_some_iff_getElem.mp found
  obtain ⟨e, occupied, holds⟩ := (Option.any_eq_true p _).mp satisfied
  exact ⟨e, by rw [List.getElem?_eq_getElem bound, occupied], holds⟩

/-- A slot that is sought lies at `start` or behind it, is occupied, and is the first
of its kind. -/
theorem exists_of_seek {start : Nat} {bucket : Bucket K V} {i : Nat}
    (found : bucket.seek start = some i) :
    start ≤ i ∧ (∃ e, bucket[i]? = some (some e)) ∧
      ∀ j, start ≤ j → j < i → bucket[j]?.join = none := by
  simp only [seek, Option.map_eq_some_iff] at found
  obtain ⟨offset, found, rfl⟩ := found
  obtain ⟨bound, occupied, first⟩ := List.findIdx?_eq_some_iff_getElem.mp found
  obtain ⟨e, holds⟩ := Option.isSome_iff_exists.mp occupied
  refine ⟨Nat.le_add_right _ _, ⟨e, ?_⟩, ?_⟩
  · rw [← List.getElem?_drop, List.getElem?_eq_getElem bound, holds]
  · intro j behind before
    -- `seek` counts its offset from `start`.
    have vacant := first (j - start) (by omega)
    simp only [List.getElem_drop, Bool.not_eq_true, Option.isSome_eq_false_iff,
      Option.isNone_iff_eq_none] at vacant
    have index : start + (j - start) = j := by omega
    simp only [index] at vacant
    simp only [List.length_drop] at bound
    rw [List.getElem?_eq_getElem (by omega), vacant]
    rfl

theorem vacant_of_seek {start : Nat} {bucket : Bucket K V} (missed : bucket.seek start = none)
    {j : Nat} (behind : start ≤ j) : bucket[j]?.join = none := by
  simp only [seek, Option.map_eq_none_iff, List.findIdx?_eq_none_iff] at missed
  cases present : bucket[j]? with
  | none => rfl
  | some slot =>
    have member : slot ∈ bucket.drop start := by
      apply List.mem_of_getElem? (i := j - start)
      rw [List.getElem?_drop, Nat.add_sub_cancel' behind, present]
    simpa using missed slot member

end ChainTable.Bucket
