import ChainTable.Registry

/-! # Registries as maps from handles to positions

Seen from outside a registry is the function `standing` from handles to positions
and the number of open cursors.  Opening, moving and closing change both at one
handle only; no later proof looks at places and generations.
-/

namespace ChainTable.Registry

/-- The free places are distinct and no cursor is open in them. -/
structure WellFormed (r : Registry) : Prop where
  distinct : r.free.Nodup
  vacant : ∀ i ∈ r.free, ∃ generation, r.places[i]? = some ⟨generation, none⟩

theorem wellFormed_new (owner : Nat) : (new owner).WellFormed :=
  ⟨List.nodup_nil, fun _ member => absurd member List.not_mem_nil⟩

theorem standing_eq_ok {r : Registry} {c : Cursor} {position : Position} :
    r.standing c = .ok position ↔ c.owner = r.owner ∧ c.place ≠ 0 ∧
      r.places[c.place - 1]? = some ⟨c.generation, some position⟩ := by
  unfold standing position?
  by_cases own : c.owner = r.owner
  · by_cases numbered : c.place = 0
    · simp [own, numbered]
    · cases present : r.places[c.place - 1]? with
      | none => simp [own, numbered]
      | some place =>
        obtain ⟨generation, held⟩ := place
        by_cases current : generation = c.generation
        · cases held <;> simp [own, numbered, current]
        · simp [own, numbered, current]
  · simp [own]

theorem ne_ok_of_error {r : Registry} {c : Cursor} {cause : Misuse}
    (refused : r.standing c = .error cause) (position : Position) :
    r.standing c ≠ .ok position := by
  rw [refused]
  intro impossible
  cases impossible

theorem standing_of_foreign {r : Registry} {c : Cursor} (foreign : c.owner ≠ r.owner) :
    r.standing c = .error .foreignCursor := by
  simp [standing, foreign]

theorem standing_of_closed {r : Registry} {c : Cursor} (own : c.owner = r.owner)
    (closed : ∀ position, r.standing c ≠ .ok position) : r.standing c = .error .staleCursor := by
  unfold standing at closed ⊢
  rw [if_pos own] at closed ⊢
  cases held : r.position? c with
  | none => rfl
  | some position =>
    rw [held] at closed
    exact absurd rfl (closed position)

theorem standing_congr {r r' : Registry} {c : Cursor} (owner : r'.owner = r.owner)
    (same : ∀ position, r'.standing c = .ok position ↔ r.standing c = .ok position) :
    r'.standing c = r.standing c := by
  cases standing : r.standing c with
  | ok position => exact (same position).mpr standing
  | error cause =>
    have closed := ne_ok_of_error standing
    -- The cause depends on the owner alone, which the two registries share.
    by_cases own : c.owner = r.owner
    · rw [standing_of_closed (own.trans owner.symm) fun position held =>
        closed position ((same position).mp held), ← standing, standing_of_closed own closed]
    · rw [standing_of_foreign fun same => own (same.trans owner), ← standing,
        standing_of_foreign own]

/-! ## Changing one place

Opening, moving and closing all write the place of one handle. -/

/-- `r'` is `r` with the handle's place holding `position` in the handle's generation;
no other handle was open in that place. -/
structure Placed (r r' : Registry) (c : Cursor) (position : Option Position) : Prop where
  owner : r'.owner = r.owner
  own : c.owner = r.owner
  numbered : c.place ≠ 0
  places : ∀ j, r'.places[j]? =
    if j = c.place - 1 then some ⟨c.generation, position⟩ else r.places[j]?
  former : ∀ generation held, r.places[c.place - 1]? = some ⟨generation, some held⟩ →
    generation = c.generation

theorem eq_of_place {c other : Cursor} (owner : other.owner = c.owner) (numbered : c.place ≠ 0)
    (numbered' : other.place ≠ 0) (place : other.place - 1 = c.place - 1)
    (generation : other.generation = c.generation) : other = c := by
  obtain ⟨owner, number, issue⟩ := c
  obtain ⟨owner', number', issue'⟩ := other
  simp only at *
  simp only [Cursor.mk.injEq]
  omega

theorem Placed.standing_self {r r' : Registry} {c : Cursor} {position : Option Position}
    (placed : Placed r r' c position) :
    r'.standing c = match position with
      | some position => .ok position
      | none => .error .staleCursor := by
  have own : c.owner = r'.owner := placed.own.trans placed.owner.symm
  cases position with
  | some position =>
    exact standing_eq_ok.mpr ⟨own, placed.numbered, by rw [placed.places, if_pos rfl]⟩
  | none =>
    apply standing_of_closed own
    intro position standing
    obtain ⟨-, -, present⟩ := standing_eq_ok.mp standing
    rw [placed.places, if_pos rfl] at present
    cases present

theorem Placed.standing_other {r r' : Registry} {c other : Cursor} {position : Option Position}
    (placed : Placed r r' c position) (differs : other ≠ c) :
    r'.standing other = r.standing other := by
  apply standing_congr placed.owner
  intro held
  rw [standing_eq_ok, standing_eq_ok, placed.owner, placed.places]
  apply and_congr_right
  intro own
  apply and_congr_right
  intro numbered
  by_cases place : other.place - 1 = c.place - 1
  · -- One place in two generations: the other handle was closed before and stays so.
    have stale : other.generation ≠ c.generation := fun current =>
      differs (eq_of_place (own.trans placed.own.symm) placed.numbered numbered place current)
    rw [if_pos place, place]
    constructor
    · intro present
      simp only [Option.some.injEq, Place.mk.injEq] at present
      exact absurd present.1.symm stale
    · intro present
      exact absurd (placed.former _ _ present) stale
  · rw [if_neg place]

/-! ## Opening -/

theorem placed_opened {r : Registry} (formed : r.WellFormed) :
    Placed r r.opened.2 r.opened.1 (some .beforeFirst) := by
  unfold opened
  split
  -- A place that was free is used again in its next generation; else a new one is added.
  case h_1 i free reused =>
    obtain ⟨generation, vacant⟩ := formed.vacant i (by simp [reused])
    obtain ⟨bound, -⟩ := List.getElem?_eq_some_iff.mp vacant
    refine ⟨rfl, rfl, Nat.succ_ne_zero i, fun j => ?_, fun _ _ present => ?_⟩
    · simp only [Nat.add_sub_cancel, List.getElem?_set, bound, if_true, eq_comm (a := j)]
    · simp [vacant] at present
  case h_2 =>
    refine ⟨rfl, rfl, Nat.succ_ne_zero _, fun j => ?_, fun _ _ present => ?_⟩
    · simp only [Nat.add_sub_cancel]
      by_cases last : j = r.places.length
      · simp [last]
      · rw [if_neg last]
        by_cases inside : j < r.places.length
        · rw [List.getElem?_append_left inside]
        · rw [List.getElem?_append_right (by omega), List.getElem?_eq_none (l := r.places) (by omega)]
          exact List.getElem?_eq_none (by simp only [List.length_singleton]; omega)
    · simp at present

theorem standing_opened {r : Registry} (formed : r.WellFormed) (c : Cursor) :
    r.opened.2.standing c = if c = r.opened.1 then .ok .beforeFirst else r.standing c := by
  split
  case isTrue issued => rw [issued, (placed_opened formed).standing_self]
  case isFalse other => exact (placed_opened formed).standing_other other

theorem standing_fresh {r : Registry} (formed : r.WellFormed) :
    r.opened.2.standing r.opened.1 = .ok .beforeFirst := by
  rw [standing_opened formed, if_pos rfl]

theorem standing_issued {r : Registry} (formed : r.WellFormed) (position : Position) :
    r.standing r.opened.1 ≠ .ok position := by
  intro standing
  obtain ⟨-, -, present⟩ := standing_eq_ok.mp standing
  unfold opened at present
  split at present
  case h_1 i free reused =>
    obtain ⟨generation, vacant⟩ := formed.vacant i (by simp [reused])
    simp [vacant] at present
  case h_2 => simp at present

theorem live_opened {r : Registry} (formed : r.WellFormed) : r.opened.2.live = r.live + 1 := by
  unfold opened live
  split
  case h_1 i free reused =>
    obtain ⟨generation, vacant⟩ := formed.vacant i (by simp [reused])
    obtain ⟨bound, held⟩ := List.getElem?_eq_some_iff.mp vacant
    rw [List.countP_set bound]
    simp [held]
  case h_2 => simp [List.countP_append]

theorem wellFormed_opened {r : Registry} (formed : r.WellFormed) : r.opened.2.WellFormed := by
  unfold opened
  split
  case h_1 i free reused =>
    obtain ⟨fresh, distinct⟩ := List.nodup_cons.mp (reused ▸ formed.distinct)
    refine ⟨distinct, fun j member => ?_⟩
    obtain ⟨generation, vacant⟩ := formed.vacant j (by simp [reused, member])
    have other : i ≠ j := fun same => fresh (same ▸ member)
    exact ⟨generation, by rw [List.getElem?_set_ne other, vacant]⟩
  case h_2 unused =>
    refine ⟨formed.distinct, fun j member => ?_⟩
    rw [unused] at member
    cases member

/-! ## Moving and closing -/

theorem modify_eq_set {places : List Place} {i : Nat} {place : Place}
    (present : places[i]? = some place) (f : Place → Place) :
    places.modify i f = places.set i (f place) := by
  obtain ⟨bound, rfl⟩ := List.getElem?_eq_some_iff.mp present
  apply List.ext_getElem?
  intro j
  rw [List.getElem?_modify, List.getElem?_set]
  by_cases same : i = j
  · subst same
    simp [bound]
  · simp [same]

theorem moved_eq_set {r : Registry} {c : Cursor} {former : Position}
    (standing : r.standing c = .ok former) (position : Position) :
    r.moved c position =
      { r with places := r.places.set (c.place - 1) ⟨c.generation, some position⟩ } := by
  obtain ⟨-, -, present⟩ := standing_eq_ok.mp standing
  rw [moved, modify_eq_set present]

theorem moved_self {r : Registry} {c : Cursor} {position : Position}
    (standing : r.standing c = .ok position) : r.moved c position = r := by
  obtain ⟨-, -, present⟩ := standing_eq_ok.mp standing
  obtain ⟨bound, held⟩ := List.getElem?_eq_some_iff.mp present
  rw [moved_eq_set standing, ← held, List.set_getElem_self]

theorem closed_eq_set {r : Registry} {c : Cursor} {former : Position}
    (standing : r.standing c = .ok former) :
    r.closed c = { r with
      places := r.places.set (c.place - 1) ⟨c.generation, none⟩
      free := (c.place - 1) :: r.free } := by
  obtain ⟨-, -, present⟩ := standing_eq_ok.mp standing
  rw [closed, modify_eq_set present]

theorem placed_of_set {r : Registry} {c : Cursor} {former : Position}
    (standing : r.standing c = .ok former) (position : Option Position) (free : List Nat) :
    Placed r ⟨r.owner, r.places.set (c.place - 1) ⟨c.generation, position⟩, free⟩ c position := by
  obtain ⟨own, numbered, present⟩ := standing_eq_ok.mp standing
  obtain ⟨bound, -⟩ := List.getElem?_eq_some_iff.mp present
  refine ⟨rfl, own, numbered, fun j => ?_, fun generation held occupied => ?_⟩
  · simp only [List.getElem?_set, bound, if_true, eq_comm (a := j)]
  · rw [present] at occupied
    simp only [Option.some.injEq, Place.mk.injEq] at occupied
    exact occupied.1.symm

@[simp] theorem moved_moved (r : Registry) (c : Cursor) (first second : Position) :
    (r.moved c first).moved c second = r.moved c second := by
  simp [moved, List.modify_modify_eq, Function.comp_def]

theorem standing_moved {r : Registry} {c : Cursor} {former : Position}
    (standing : r.standing c = .ok former) (position : Position) (other : Cursor) :
    (r.moved c position).standing other =
      if other = c then .ok position else r.standing other := by
  rw [moved_eq_set standing]
  have placed := placed_of_set standing (some position) r.free
  split
  case isTrue same => rw [same, placed.standing_self]
  case isFalse differs => exact placed.standing_other differs

theorem standing_closed {r : Registry} {c : Cursor} {former : Position}
    (standing : r.standing c = .ok former) (other : Cursor) :
    (r.closed c).standing other =
      if other = c then .error .staleCursor else r.standing other := by
  rw [closed_eq_set standing]
  have placed := placed_of_set standing none ((c.place - 1) :: r.free)
  split
  case isTrue same => rw [same, placed.standing_self]
  case isFalse differs => exact placed.standing_other differs

theorem live_pos {r : Registry} {c : Cursor} {position : Position}
    (standing : r.standing c = .ok position) : 0 < r.live := by
  obtain ⟨-, -, present⟩ := standing_eq_ok.mp standing
  exact List.countP_pos_iff.mpr ⟨_, List.mem_of_getElem? present, rfl⟩

theorem standing_ne_ok {r : Registry} (quiet : r.live = 0) (c : Cursor) (position : Position) :
    r.standing c ≠ .ok position := by
  intro standing
  have positive := live_pos standing
  omega

theorem exists_standing {r : Registry} (busy : 0 < r.live) :
    ∃ c position, r.standing c = .ok position := by
  obtain ⟨place, member, occupied⟩ := List.countP_pos_iff.mp busy
  obtain ⟨position, held⟩ := Option.isSome_iff_exists.mp occupied
  obtain ⟨i, present⟩ := List.getElem?_of_mem member
  refine ⟨⟨r.owner, i + 1, place.generation⟩, position, standing_eq_ok.mpr ⟨rfl, by simp, ?_⟩⟩
  rw [Nat.add_sub_cancel, present, ← held]

theorem live_moved {r : Registry} {c : Cursor} {former : Position}
    (standing : r.standing c = .ok former) (position : Position) :
    (r.moved c position).live = r.live := by
  have positive := live_pos standing
  obtain ⟨-, -, present⟩ := standing_eq_ok.mp standing
  obtain ⟨bound, held⟩ := List.getElem?_eq_some_iff.mp present
  rw [moved_eq_set standing]
  unfold live at positive ⊢
  rw [List.countP_set bound, held]
  simp only [Option.isSome_some, if_true]
  omega

theorem live_closed {r : Registry} {c : Cursor} {former : Position}
    (standing : r.standing c = .ok former) : (r.closed c).live + 1 = r.live := by
  have positive := live_pos standing
  obtain ⟨-, -, present⟩ := standing_eq_ok.mp standing
  obtain ⟨bound, held⟩ := List.getElem?_eq_some_iff.mp present
  rw [closed_eq_set standing]
  unfold live at positive ⊢
  rw [List.countP_set bound, held]
  simp only [Option.isSome_some, Option.isSome_none, if_true, Bool.false_eq_true, if_false]
  omega

theorem notMem_free {r : Registry} (formed : r.WellFormed) {c : Cursor} {position : Position}
    (standing : r.standing c = .ok position) : c.place - 1 ∉ r.free := by
  intro member
  obtain ⟨-, -, present⟩ := standing_eq_ok.mp standing
  obtain ⟨generation, vacant⟩ := formed.vacant _ member
  rw [vacant] at present
  cases present

theorem wellFormed_moved {r : Registry} (formed : r.WellFormed) {c : Cursor} {former : Position}
    (standing : r.standing c = .ok former) (position : Position) :
    (r.moved c position).WellFormed := by
  rw [moved_eq_set standing]
  refine ⟨formed.distinct, fun j member => ?_⟩
  obtain ⟨generation, vacant⟩ := formed.vacant j member
  have other : c.place - 1 ≠ j := fun same => notMem_free formed standing (same ▸ member)
  exact ⟨generation, by rw [List.getElem?_set_ne other, vacant]⟩

theorem wellFormed_closed {r : Registry} (formed : r.WellFormed) {c : Cursor} {former : Position}
    (standing : r.standing c = .ok former) : (r.closed c).WellFormed := by
  obtain ⟨-, -, present⟩ := standing_eq_ok.mp standing
  obtain ⟨bound, -⟩ := List.getElem?_eq_some_iff.mp present
  rw [closed_eq_set standing]
  refine ⟨List.nodup_cons.mpr ⟨notMem_free formed standing, formed.distinct⟩, fun j member => ?_⟩
  cases member with
  | head => exact ⟨c.generation, by simp [bound]⟩
  | tail _ member =>
    obtain ⟨generation, vacant⟩ := formed.vacant j member
    have other : c.place - 1 ≠ j := fun same => notMem_free formed standing (same ▸ member)
    exact ⟨generation, by rw [List.getElem?_set_ne other, vacant]⟩

/-! ## A cursor that comes and goes -/

section Passing

variable {r : Registry} (formed : r.WellFormed) (position : Position)

include formed

theorem standing_passing : (r.opened.2.moved r.opened.1 position).standing r.opened.1 =
    .ok position := by
  rw [standing_moved (standing_fresh formed), if_pos rfl]

/-- A cursor that is closed again has left the others where they were. -/
theorem standing_passed (other : Cursor) (held : Position) :
    ((r.opened.2.moved r.opened.1 position).closed r.opened.1).standing other = .ok held ↔
      r.standing other = .ok held := by
  rw [standing_closed (standing_passing formed position)]
  split
  case isTrue issued =>
    rw [issued]
    exact iff_of_false nofun (standing_issued formed held)
  case isFalse differs =>
    rw [standing_moved (standing_fresh formed), if_neg differs, standing_opened formed, if_neg differs]

theorem live_passed :
    ((r.opened.2.moved r.opened.1 position).closed r.opened.1).live = r.live := by
  have closed := live_closed (standing_passing formed position)
  rw [live_moved (standing_fresh formed), live_opened formed] at closed
  exact Nat.succ.inj closed

end Passing

end ChainTable.Registry
