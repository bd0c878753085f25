import ChainTable.Proofs.Directory
import Mathlib.Data.List.Sort

/-! # The live entries in order

`live` lists the entries of a directory with their locations in bucket-then-slot
order, and `ahead` those from a location on.  A search (`seek`) is then the head of
such a list, and going on behind a slot is its tail.
-/

namespace ChainTable

variable {K V : Type}

namespace Location

/-- Bucket-then-slot order. -/
def Before (a b : Location) : Prop := a.bucket < b.bucket ∨ a.bucket = b.bucket ∧ a.slot < b.slot

instance (a b : Location) : Decidable (a.Before b) :=
  inferInstanceAs (Decidable (_ ∨ _))

def next (loc : Location) : Location := ⟨loc.bucket, loc.slot + 1⟩

theorem Before.trans {a b c : Location} (first : a.Before b) (second : b.Before c) :
    a.Before c := by
  unfold Before at *
  omega

theorem not_before_self (a : Location) : ¬ a.Before a := by
  unfold Before
  omega

theorem not_before_next {loc other : Location} : ¬ other.Before loc.next ↔ loc.Before other := by
  unfold Before next
  simp only
  omega

theorem not_before_origin (loc : Location) : ¬ loc.Before ⟨0, 0⟩ := by
  unfold Before
  simp only
  omega

end Location

namespace Directory

def live (d : Directory K V) : List (Location × Entry K V) :=
  d.toList.zipIdx.flatMap fun (bucket, i) =>
    bucket.zipIdx.filterMap fun (slot, s) => slot.map fun e => (⟨i, s⟩, e)

def ahead (start : Location) (d : Directory K V) : List (Location × Entry K V) :=
  d.live.filter fun (loc, _) => ¬ loc.Before start

theorem mem_live {d : Directory K V} {loc : Location} {e : Entry K V} :
    (loc, e) ∈ d.live ↔ d.entryAt? loc = some e := by
  rw [entryAt?_eq_some]
  simp only [live, List.mem_flatMap, List.mem_filterMap, Option.map_eq_some_iff, Prod.exists,
    List.mem_zipIdx_iff_getElem?, Array.getElem?_toList]
  constructor
  · rintro ⟨bucket, i, present, slot, s, slotPresent, e', rfl, same⟩
    cases same
    simpa [slotAt?, bucketAt, present] using slotPresent
  · intro slot
    have inside := lt_size_of_slotAt? slot
    refine ⟨d.bucketAt loc.bucket, loc.bucket, ?_, some e, loc.slot, slot, e, rfl, rfl⟩
    simp [bucketAt, inside]

theorem pairwise_zipIdx {α : Type} (xs : List α) :
    xs.zipIdx.Pairwise fun a b => a.2 < b.2 := by
  rw [← List.pairwise_map, List.zipIdx_map_snd]
  exact List.pairwise_lt_range'

theorem pairwise_live (d : Directory K V) : d.live.Pairwise fun a b => a.1.Before b.1 := by
  refine List.pairwise_flatMap.mpr ⟨fun (bucket, i) _ => ?_, ?_⟩
  · refine List.pairwise_filterMap.mpr ((pairwise_zipIdx bucket).imp fun {a b} order => ?_)
    intro x fromA y fromB
    obtain ⟨e, -, rfl⟩ := Option.map_eq_some_iff.mp fromA
    obtain ⟨e', -, rfl⟩ := Option.map_eq_some_iff.mp fromB
    exact .inr ⟨rfl, order⟩
  · apply (pairwise_zipIdx d.toList).imp
    intro a b order x inA y inB
    obtain ⟨p, -, fromA⟩ := List.mem_filterMap.mp inA
    obtain ⟨q, -, fromB⟩ := List.mem_filterMap.mp inB
    obtain ⟨e, -, rfl⟩ := Option.map_eq_some_iff.mp fromA
    obtain ⟨e', -, rfl⟩ := Option.map_eq_some_iff.mp fromB
    exact .inl order

theorem map_snd_live (d : Directory K V) : d.live.map Prod.snd = d.entries := by
  -- Both inductions are on the rows, for every number that the first of them may have.
  have slots : ∀ (bucket : Bucket K V) (i n : Nat), (bucket.zipIdx n).filterMap (fun p =>
      (p.1.map fun e => ((⟨i, p.2⟩ : Location), e)).map Prod.snd) = bucket.entries := by
    intro bucket i
    induction bucket with
    | nil => intro n; rfl
    | cons slot rest ih =>
      intro n
      rw [List.zipIdx_cons, List.filterMap_cons]
      cases slot with
      | none => exact ih (n + 1)
      | some e => exact congrArg (e :: ·) (ih (n + 1))
  have buckets : ∀ (rows : List (Bucket K V)) (n : Nat), (rows.zipIdx n).flatMap (fun p =>
      p.1.zipIdx.filterMap fun q => (q.1.map fun e => ((⟨p.2, q.2⟩ : Location), e)).map Prod.snd) =
        rows.flatMap Bucket.entries := by
    intro rows
    induction rows with
    | nil => intro n; rfl
    | cons row rest ih =>
      intro n
      rw [List.zipIdx_cons, List.flatMap_cons, List.flatMap_cons, ih, slots]
  rw [live, List.map_flatMap, entries, ← buckets d.toList 0]
  simp only [List.map_filterMap]

@[simp] theorem ahead_origin (d : Directory K V) : d.ahead ⟨0, 0⟩ = d.live := by
  rw [ahead, List.filter_eq_self]
  intro p _
  simpa using p.1.not_before_origin

theorem mem_ahead {d : Directory K V} {start loc : Location} {e : Entry K V} :
    (loc, e) ∈ d.ahead start ↔ d.entryAt? loc = some e ∧ ¬ loc.Before start := by
  simp [ahead, mem_live]

/-- The live entries before the one at a location, and those behind it. -/
theorem exists_live_around {d : Directory K V} {loc : Location} {e : Entry K V}
    (live : d.entryAt? loc = some e) : ∃ before after, d.live = before ++ (loc, e) :: after ∧
      (∀ item ∈ before, d.entryAt? item.1 = some item.2 ∧ item.1.Before loc) ∧
      ∀ item ∈ after, loc.Before item.1 := by
  obtain ⟨before, after, whole⟩ := List.append_of_mem (mem_live.mpr live)
  have ordered := d.pairwise_live
  rw [whole, List.pairwise_append] at ordered
  obtain ⟨-, behind, apart⟩ := ordered
  refine ⟨before, after, whole, fun item member => ⟨?_, ?_⟩, (List.pairwise_cons.mp behind).1⟩
  · rw [← mem_live, whole]
    exact List.mem_append_left _ member
  · exact apart item member _ List.mem_cons_self

theorem filter_around {α : Type} {before after : List α} {a : α} {p : α → Bool}
    (early : ∀ x ∈ before, p x = false) (late : ∀ x ∈ after, p x = true) :
    (before ++ a :: after).filter p = if p a then a :: after else after := by
  have none : before.filter p = [] := by
    rw [List.filter_eq_nil_iff]
    intro x member
    simp [early x member]
  rw [List.filter_append, none, List.filter_cons, List.filter_eq_self.mpr late, List.nil_append]

theorem ahead_eq_cons {d : Directory K V} {start loc : Location} {e : Entry K V}
    (live : d.entryAt? loc = some e) (reached : ¬ loc.Before start)
    (first : ∀ other e', d.entryAt? other = some e' → other.Before loc → other.Before start) :
    d.ahead start = (loc, e) :: d.ahead loc.next := by
  -- Cut at `loc`: what stands before it comes earlier, what stands after it comes later.
  obtain ⟨before, after, whole, early, late⟩ := exists_live_around live
  have fromStart : d.ahead start = (loc, e) :: after := by
    rw [ahead, whole, filter_around, if_pos (by simpa using reached)]
    · intro p member
      obtain ⟨occupied, earlier⟩ := early p member
      simpa using first p.1 p.2 occupied earlier
    · intro p member
      simpa using fun earlier => reached ((late p member).trans earlier)
  have passes : loc.Before loc.next := .inr ⟨rfl, Nat.lt_succ_self _⟩
  have fromNext : d.ahead loc.next = after := by
    rw [ahead, whole, filter_around, if_neg (by simpa using passes)]
    · intro p member
      simpa using (early p member).2.trans passes
    · intro p member
      simpa using Location.not_before_next.mpr (late p member)
  rw [fromStart, fromNext]

/-- What is ahead depends on the entries there only. -/
theorem ahead_congr {d d' : Directory K V} {start : Location}
    (same : ∀ loc, ¬ loc.Before start → d.entryAt? loc = d'.entryAt? loc) :
    d.ahead start = d'.ahead start := by
  have ordered : ∀ d : Directory K V, (d.ahead start).Pairwise fun a b => a.1.Before b.1 :=
    fun d => d.pairwise_live.filter _
  have strict : Std.Irrefl fun a b : Location × Entry K V => a.1.Before b.1 :=
    ⟨fun a => a.1.not_before_self⟩
  have asymmetric : Std.Antisymm fun a b : Location × Entry K V => a.1.Before b.1 :=
    ⟨fun a b first second => absurd (first.trans second) a.1.not_before_self⟩
  -- Two lists in strict order are one list once they have the same members.
  apply (ordered d).eq_of_mem_iff (ordered d')
  intro ⟨loc, e⟩
  rw [mem_ahead, mem_ahead]
  apply and_congr_left
  intro reached
  rw [same loc reached]

/-! ## Searching -/

/-- A search among some buckets stops at the first live entry among them, if there is one. -/
theorem seekAmong_spec (d : Directory K V) (count i start : Nat) :
    match d.seekAmong count i start with
    | some loc => (∃ e, d.entryAt? loc = some e) ∧ ¬ loc.Before ⟨i, start⟩ ∧
        ∀ other e, d.entryAt? other = some e → other.Before loc → other.Before ⟨i, start⟩
    | none => ∀ other e, d.entryAt? other = some e → other.bucket < i + count →
        other.Before ⟨i, start⟩ := by
  -- Only the first bucket is searched from `start` on, every further one from slot 0.
  induction count generalizing i start with
  | zero =>
    intro other e _ inside
    exact .inl inside
  | succ count ih =>
    rw [seekAmong]
    cases sought : (d.bucketAt i).seek start with
    | some s =>
      obtain ⟨reached, ⟨e, slot⟩, first⟩ := Bucket.exists_of_seek sought
      refine ⟨⟨e, entryAt?_eq_some.mpr slot⟩, ?_, ?_⟩
      · unfold Location.Before
        simp only
        omega
      · intro other e' occupied earlier
        obtain ⟨j, r⟩ := other
        rcases earlier with bucket | ⟨bucket, slotOrder⟩
        · exact .inl bucket
        · simp only at bucket slotOrder
          subst bucket
          refine .inr ⟨rfl, Nat.lt_of_not_le fun behind => ?_⟩
          have vacant := first r behind slotOrder
          rw [entryAt?, slotAt?, vacant] at occupied
          cases occupied
    | none =>
      -- This bucket is vacant from `start` on, so what lies before the next one is passed.
      have passed : ∀ other e, d.entryAt? other = some e → other.Before ⟨i + 1, 0⟩ →
          other.Before ⟨i, start⟩ := by
        intro other e occupied earlier
        obtain ⟨j, r⟩ := other
        have bucket : j < i ∨ j = i := by
          unfold Location.Before at earlier
          simp only at earlier
          omega
        cases bucket with
        | inl smaller => exact .inl smaller
        | inr same =>
          subst same
          refine .inr ⟨rfl, Nat.lt_of_not_le fun behind => ?_⟩
          have vacant := Bucket.vacant_of_seek sought behind
          rw [entryAt?, slotAt?, vacant] at occupied
          cases occupied
      have rest := ih (i + 1) 0
      simp only
      split
      next loc found =>
        rw [found] at rest
        obtain ⟨occupied, reached, first⟩ := rest
        refine ⟨occupied, fun earlier => reached ?_, fun other e live order =>
          passed other e live (first other e live order)⟩
        unfold Location.Before at earlier ⊢
        simp only at earlier ⊢
        omega
      next missed =>
        rw [missed] at rest
        intro other e live inside
        exact passed other e live (rest other e live (by omega))

theorem ahead_of_seek {d : Directory K V} {start loc : Location}
    (sought : d.seek start = some loc) :
    ∃ e, d.entryAt? loc = some e ∧ d.ahead start = (loc, e) :: d.ahead loc.next := by
  have spec := seekAmong_spec d (d.size - start.bucket) start.bucket start.slot
  rw [seek] at sought
  rw [sought] at spec
  obtain ⟨⟨e, occupied⟩, reached, first⟩ := spec
  exact ⟨e, occupied, ahead_eq_cons occupied reached first⟩

theorem ahead_of_seek_none {d : Directory K V} {start : Location}
    (missed : d.seek start = none) : d.ahead start = [] := by
  have spec := seekAmong_spec d (d.size - start.bucket) start.bucket start.slot
  rw [seek] at missed
  rw [missed] at spec
  apply List.eq_nil_iff_forall_not_mem.mpr
  intro ⟨loc, e⟩ member
  obtain ⟨occupied, reached⟩ := mem_ahead.mp member
  -- A start behind the last bucket leaves no bucket to search, and none to miss.
  by_cases inside : start.bucket ≤ d.size
  · have bound := lt_size_of_entryAt? occupied
    exact reached (spec loc e occupied (by omega))
  · have bound := lt_size_of_entryAt? occupied
    exact reached (.inl (by omega))

end Directory

end ChainTable
