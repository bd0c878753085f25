import ChainTable.Proofs.Effect

/-! # The ledger of handles

What has been done with the handles of cursors: each was issued by one table, and then it was
taken back by that table or lost.  A registry agrees with such a ledger (`Booked`) where the
cursors open on the table are those of the handles issued and not taken back.  Since a place
that is used again has come to a later generation, an open issues a handle that was not issued
before.
-/

namespace ChainTable

variable {K V : Type}

/-- The action is made through the handle or, where it is an open, issues it. -/
inductive Action.Touches (answer : Except Fault (Answer K V)) (c : Cursor) : Action K V → Prop where
  | uses {action} (uses : Uses action c) : Touches answer c action
  | issues (issued : answer = .ok (.cursor c)) : Touches answer c .openCursor

/-! ## One registry -/

namespace Registry

variable {r r' : Registry} {c : Cursor}

/-- No place goes, and the generation of none goes back. -/
def Ages (r r' : Registry) : Prop :=
  ∀ (i : Nat) (place : Place), r.places[i]? = some place →
    ∃ place' : Place, r'.places[i]? = some place' ∧ place.generation ≤ place'.generation

/-- The place of the handle has come to the handle's generation, as it has for every handle
that was ever issued. -/
def Knows (r : Registry) (c : Cursor) : Prop :=
  c.place ≠ 0 ∧ ∃ place : Place,
    r.places[c.place - 1]? = some place ∧ c.generation ≤ place.generation

theorem Knows.ages (knows : r.Knows c) (ages : r.Ages r') : r'.Knows c := by
  obtain ⟨numbered, place, present, reached⟩ := knows
  obtain ⟨place', present', later⟩ := ages _ place present
  exact ⟨numbered, place', present', Nat.le_trans reached later⟩

theorem knows_of_standing {position : Position} (standing : r.standing c = .ok position) :
    r.Knows c := by
  obtain ⟨-, numbered, present⟩ := standing_eq_ok.mp standing
  exact ⟨numbered, _, present, Nat.le_refl _⟩

/-- The handle that an open issues is of a generation that its place has yet to come to. -/
theorem not_knows_issued (formed : r.WellFormed) : ¬ r.Knows r.opened.1 := by
  rintro ⟨-, place, present, reached⟩
  unfold opened at present reached
  split at present
  case h_1 i free reused =>
    obtain ⟨generation, vacant⟩ := formed.vacant i (by simp [reused])
    simp only [Nat.add_sub_cancel, vacant, Option.some.injEq] at present
    subst present
    simp only [reused, vacant, Option.map_some, Option.getD_some] at reached
    omega
  case h_2 => simp at present

theorem Placed.ages {position : Option Position} (placed : Placed r r' c position)
    (later : ∀ place : Place, r.places[c.place - 1]? = some place →
      place.generation ≤ c.generation) : r.Ages r' := by
  intro i place present
  rw [placed.places]
  split
  case isTrue own =>
    rw [own] at present
    exact ⟨_, rfl, later place present⟩
  case isFalse => exact ⟨place, present, Nat.le_refl _⟩

theorem ages_opened (formed : r.WellFormed) : r.Ages r.opened.2 := by
  have placed := placed_opened formed
  apply placed.ages
  intro place present
  -- Were the generation not a later one, the registry would know the handle already.
  apply Nat.le_of_lt
  apply Nat.lt_of_not_le
  intro reached
  exact not_knows_issued formed ⟨placed.numbered, place, present, reached⟩

theorem Placed.ages_of_standing {former : Position} {position : Option Position}
    (placed : Placed r r' c position) (standing : r.standing c = .ok former) : r.Ages r' := by
  apply placed.ages
  intro place present
  obtain ⟨-, -, here⟩ := standing_eq_ok.mp standing
  cases here.symm.trans present
  exact Nat.le_refl _

theorem ages_moved {former : Position} (standing : r.standing c = .ok former)
    (position : Position) : r.Ages (r.moved c position) := by
  rw [moved_eq_set standing]
  exact (placed_of_set standing (some position) r.free).ages_of_standing standing

theorem ages_closed {former : Position} (standing : r.standing c = .ok former) :
    r.Ages (r.closed c) := by
  rw [closed_eq_set standing]
  exact (placed_of_set standing none ((c.place - 1) :: r.free)).ages_of_standing standing

/-- What an action can do to the cursors of a table. -/
inductive Change (r : Registry) :
    Action K V → Except Fault (Answer K V) → Registry → Prop where
  | kept {action answer} (unopened : action ≠ .openCursor)
      (unclosed : ∀ c, action ≠ .closeCursor c) : Change r action answer r
  | opened : Change r .openCursor (.ok (.cursor r.opened.1)) r.opened.2
  | moved {c former answer} (standing : r.standing c = .ok former) (position : Position) :
      Change r (.steer c .advance) answer (r.moved c position)
  | closed {c former} (standing : r.standing c = .ok former) :
      Change r (.closeCursor c) (.ok .done) (r.closed c)
  | refused (c : Cursor) (fault : Fault) : Change r (.closeCursor c) (.error fault) r

variable {action : Action K V} {answer : Except Fault (Answer K V)}

/-- An action leaves every cursor where it is but the one it opens or is made through. -/
theorem Change.standing_eq (formed : r.WellFormed) (change : Change r action answer r')
    (untouched : ¬ Action.Touches answer c action) : r'.standing c = r.standing c := by
  cases change with
  | kept | refused => rfl
  | opened =>
    rw [standing_opened formed, if_neg]
    rintro rfl
    exact untouched (.issues rfl)
  | moved standing position =>
    rw [standing_moved standing, if_neg]
    rintro rfl
    exact untouched (.uses (.steer _ _))
  | closed standing =>
    rw [standing_closed standing, if_neg]
    rintro rfl
    exact untouched (.uses (.closeCursor _))

end Registry

namespace Table

variable {keying : Keying K} {allowance : Option Nat} {t t' : Table K V} {action : Action K V}
  {reply : Reply (Answer K V)}

theorem Effect.change (effect : Effect keying allowance t action reply t') :
    t.cursors.Change action reply.answer t'.cursors := by
  cases effect with
  | opened => exact .opened
  | closed standing => exact .closed standing
  | advanced standing => exact .moved standing _
  | advancedEnd standing => exact .moved standing _
  | notOpen uses =>
    cases uses with
    | steer => exact .kept nofun nofun
    | closeCursor => exact .refused _ _
  | slotRefused | inserted | updated | exchangedFresh | exchanged | taken | revised =>
    simp only [cursors_roomy, cursors_stored, cursors_rewritten, cursors_slimmed, cursors_without,
      cursors_swept]
    exact .kept nofun nofun
  | whileOpen | growthRefused | takenNone | shrinkRefused | read | modifiedNone | modified
  | cleared | currentSet | currentSetNone | currentRemoved | currentRemovedNone =>
    exact .kept nofun nofun

end Table

/-! ## The ledger -/

/-- What has been done with a handle. -/
inductive Deed where
  -- A table has issued it.
  | issued (table : Nat) (c : Cursor)
  -- The table has taken it back.
  | returned (table : Nat) (c : Cursor)
  -- It was dropped, or used up by a close that was refused.
  | lost (c : Cursor)
  deriving DecidableEq

namespace Deed

def handle : Deed → Cursor
  | issued _ c | returned _ c | lost c => c

/-- The handles issued by all tables, in order. -/
def handles (deeds : List Deed) : List Cursor :=
  deeds.filterMap fun
    | issued _ c => some c
    | _ => none

/-- The handles that one table has issued and not taken back. -/
def unreturned (table : Nat) (deeds : List Deed) : List Cursor :=
  (handles deeds).filter fun c => issued table c ∈ deeds ∧ returned table c ∉ deeds

variable {deeds : List Deed} {i j : Nat} {c c' : Cursor}

theorem mem_handles : c ∈ handles deeds ↔ ∃ i, issued i c ∈ deeds := by
  simp only [handles, List.mem_filterMap]
  constructor
  · rintro ⟨deed, member, given⟩
    cases deed with
    | issued i c' =>
      cases given
      exact ⟨i, member⟩
    | returned | lost => cases given
  · rintro ⟨i, member⟩
    exact ⟨_, member, rfl⟩

theorem mem_unreturned :
    c ∈ unreturned i deeds ↔ issued i c ∈ deeds ∧ returned i c ∉ deeds := by
  simp only [unreturned, List.mem_filter, decide_eq_true_eq, and_iff_right_iff_imp]
  intro given
  exact mem_handles.mpr ⟨i, given.1⟩

theorem handles_append (deeds more : List Deed) :
    handles (deeds ++ more) = handles deeds ++ handles more := List.filterMap_append

theorem unreturned_lost (i : Nat) (deeds : List Deed) (c : Cursor) :
    unreturned i (deeds ++ [lost c]) = unreturned i deeds := by
  simp [unreturned, handles]

theorem unreturned_issued (fresh : c ∉ handles deeds) (unknown : returned j c ∉ deeds) :
    unreturned i (deeds ++ [issued j c]) =
      unreturned i deeds ++ if j = i then [c] else [] := by
  have others : (handles deeds).filter (fun x => issued i x ∈ deeds ++ [issued j c] ∧
      returned i x ∉ deeds ++ [issued j c]) = unreturned i deeds := by
    apply List.filter_congr
    intro x member
    have differs : x ≠ c := fun same => fresh (same ▸ member)
    simp [differs]
  have unissued : issued i c ∉ deeds := fun member => fresh (mem_handles.mpr ⟨i, member⟩)
  rw [unreturned, handles_append, List.filter_append, others]
  by_cases own : j = i
  · subst own
    simp [handles, unknown]
  · simp [handles, own, Ne.symm own, unissued]

theorem unreturned_returned :
    unreturned i (deeds ++ [returned j c]) =
      if j = i then (unreturned i deeds).filter (· != c) else unreturned i deeds := by
  by_cases own : j = i
  · subst own
    rw [if_pos rfl, unreturned, unreturned, List.filter_filter, handles_append]
    simp only [handles, List.filterMap_cons, List.filterMap_nil, List.append_nil]
    apply List.filter_congr
    intro x _
    simp only [List.mem_append, List.mem_singleton]
    grind
  · simp [unreturned, handles, own, Ne.symm own]

/-- The handle is in the caller's hands. -/
structure Out (deeds : List Deed) (c : Cursor) : Prop where
  issued : c ∈ handles deeds
  unreturned : ∀ i, .returned i c ∉ deeds
  kept : .lost c ∉ deeds

/-- A ledger that makes sense: no handle is issued twice, each bears the number of the table
that issued it, and what was returned or lost was issued and was not both. -/
structure Sensible (deeds : List Deed) : Prop where
  distinct : (handles deeds).Nodup
  numbered : ∀ i c, .issued i c ∈ deeds → c.owner = i + 1
  returned : ∀ i c, .returned i c ∈ deeds → .issued i c ∈ deeds
  lost : ∀ c, .lost c ∈ deeds → c ∈ handles deeds ∧ ∀ i, .returned i c ∉ deeds

theorem Out.append {deed : Deed} (out : Out deeds c) (other : deed.handle ≠ c) :
    Out (deeds ++ [deed]) c := by
  have unlike : ∀ deed' : Deed, deed'.handle = c → deed' ∉ deeds → deed' ∉ deeds ++ [deed] := by
    intro deed' own absent member
    rcases List.mem_append.mp member with former | new
    · exact absent former
    · exact other (List.mem_singleton.mp new ▸ own)
  refine ⟨?_, fun i => unlike _ rfl (out.unreturned i), unlike _ rfl out.kept⟩
  rw [handles_append]
  exact List.mem_append_left _ out.issued

theorem Sensible.nodup_unreturned (sensible : Sensible deeds) (i : Nat) :
    (unreturned i deeds).Nodup := sensible.distinct.filter _

theorem sensible_nil : Sensible [] :=
  ⟨List.nodup_nil, nofun, nofun, nofun⟩

theorem Sensible.issue (sensible : Sensible deeds) (fresh : c ∉ handles deeds)
    (number : c.owner = i + 1) : Sensible (deeds ++ [.issued i c]) := by
  refine ⟨?_, fun j c' member => ?_, fun j c' member => ?_, fun c' member => ?_⟩
  · rw [handles_append]
    exact List.nodup_append_comm.mp (List.nodup_cons.mpr ⟨fresh, sensible.distinct⟩)
  · rcases List.mem_append.mp member with former | new
    · exact sensible.numbered j c' former
    · cases List.mem_singleton.mp new
      exact number
  · have former : .returned j c' ∈ deeds := by simpa using member
    exact List.mem_append_left _ (sensible.returned j c' former)
  · have former : .lost c' ∈ deeds := by simpa using member
    obtain ⟨issued, unreturned⟩ := sensible.lost c' former
    rw [handles_append]
    exact ⟨List.mem_append_left _ issued, by simpa using unreturned⟩

theorem Sensible.take (sensible : Sensible deeds) (out : Out deeds c)
    (issued : .issued i c ∈ deeds) : Sensible (deeds ++ [.returned i c]) := by
  refine ⟨?_, fun j c' member => ?_, fun j c' member => ?_, fun c' member => ?_⟩
  · simpa [handles_append, handles] using sensible.distinct
  · exact sensible.numbered j c' (by simpa using member)
  · apply List.mem_append_left
    rcases List.mem_append.mp member with former | new
    · exact sensible.returned j c' former
    · cases List.mem_singleton.mp new
      exact issued
  · have former : .lost c' ∈ deeds := by simpa using member
    have differs : c' ≠ c := fun same => out.kept (same ▸ former)
    obtain ⟨issued, unreturned⟩ := sensible.lost c' former
    rw [handles_append]
    exact ⟨List.mem_append_left _ issued, by simpa [differs] using unreturned⟩

theorem Sensible.lose (sensible : Sensible deeds) (out : Out deeds c) :
    Sensible (deeds ++ [.lost c]) := by
  refine ⟨?_, fun j c' member => ?_, fun j c' member => ?_, fun c' member => ?_⟩
  · simpa [handles_append, handles] using sensible.distinct
  · exact sensible.numbered j c' (by simpa using member)
  · have former : .returned j c' ∈ deeds := by simpa using member
    exact List.mem_append_left _ (sensible.returned j c' former)
  · rw [handles_append]
    rcases List.mem_append.mp member with former | new
    · obtain ⟨issued, unreturned⟩ := sensible.lost c' former
      exact ⟨List.mem_append_left _ issued, by simpa using unreturned⟩
    · cases List.mem_singleton.mp new
      exact ⟨List.mem_append_left _ out.issued, by simpa using out.unreturned⟩

end Deed

/-! ## One registry and the ledger -/

/-- What an action on table `i` makes of handles. -/
def Action.deeds (i : Nat) (answer : Except Fault (Answer K V)) : Action K V → List Deed
  | .openCursor =>
    match answer with
    | .ok (.cursor c) => [.issued i c]
    | _ => []
  | .closeCursor c =>
    match answer with
    | .ok _ => [.returned i c]
    | .error _ => [.lost c]
  | .ask _ | .steer _ _ => []

namespace Registry

/-- The registry of table `i` agrees with the ledger: it has come to the generations of all
handles issued, and the cursors open are those of the handles not taken back. -/
structure Booked (r : Registry) (i : Nat) (deeds : List Deed) : Prop where
  known : ∀ c, .issued i c ∈ deeds → r.Knows c
  standing_iff : ∀ c, c ∈ Deed.unreturned i deeds ↔ ∃ position, r.standing c = .ok position
  live_eq : r.live = (Deed.unreturned i deeds).length

variable {r r' : Registry} {i j : Nat} {deeds : List Deed} {action : Action K V}
  {answer : Except Fault (Answer K V)}

theorem booked_new (owner i : Nat) : (new owner).Booked i [] := by
  refine ⟨nofun, fun c => iff_of_false List.not_mem_nil ?_, rfl⟩
  rintro ⟨position, standing⟩
  exact standing_ne_ok rfl c position standing

theorem Booked.of_same (booked : r.Booked i deeds) {deeds' : List Deed}
    (issued : ∀ c, .issued i c ∈ deeds' → .issued i c ∈ deeds)
    (unreturned : Deed.unreturned i deeds' = Deed.unreturned i deeds) : r.Booked i deeds' where
  known c member := booked.known c (issued c member)
  standing_iff c := by rw [unreturned, booked.standing_iff]
  live_eq := by rw [unreturned, booked.live_eq]

theorem Booked.lost (booked : r.Booked i deeds) (c : Cursor) : r.Booked i (deeds ++ [.lost c]) :=
  booked.of_same (fun c' member => by simpa using member) (Deed.unreturned_lost i deeds c)

theorem Booked.issue (booked : r.Booked i deeds) (formed : r.WellFormed)
    (fresh : r.opened.1 ∉ Deed.handles deeds) (unknown : .returned i r.opened.1 ∉ deeds) :
    r.opened.2.Booked i (deeds ++ [.issued i r.opened.1]) := by
  have more := Deed.unreturned_issued (i := i) fresh unknown
  rw [if_pos rfl] at more
  refine ⟨fun c member => ?_, fun c => ?_, ?_⟩
  · rcases List.mem_append.mp member with former | new
    · exact (booked.known c former).ages (ages_opened formed)
    · cases List.mem_singleton.mp new
      exact knows_of_standing (standing_fresh formed)
  · rw [more, List.mem_append, List.mem_singleton, booked.standing_iff, standing_opened formed]
    split
    case isTrue issued => exact iff_of_true (.inr issued) ⟨_, rfl⟩
    case isFalse other => exact or_iff_left other
  · rw [more, List.length_append, List.length_singleton, live_opened formed, booked.live_eq]

theorem Booked.move (booked : r.Booked i deeds) {c : Cursor} {former : Position}
    (standing : r.standing c = .ok former) (position : Position) :
    (r.moved c position).Booked i deeds := by
  refine ⟨fun c' member => (booked.known c' member).ages (ages_moved standing position),
    fun c' => ?_, by rw [live_moved standing, booked.live_eq]⟩
  rw [booked.standing_iff, standing_moved standing]
  split
  case isTrue same => exact iff_of_true (same ▸ ⟨former, standing⟩) ⟨position, rfl⟩
  case isFalse => exact Iff.rfl

theorem Booked.take (booked : r.Booked i deeds) (sensible : Deed.Sensible deeds) {c : Cursor}
    {former : Position} (standing : r.standing c = .ok former) :
    (r.closed c).Booked i (deeds ++ [.returned i c]) := by
  have fewer : Deed.unreturned i (deeds ++ [.returned i c]) =
      (Deed.unreturned i deeds).filter (· != c) := by
    rw [Deed.unreturned_returned, if_pos rfl]
  have member := (booked.standing_iff c).mpr ⟨former, standing⟩
  refine ⟨fun c' issued => ?_, fun c' => ?_, ?_⟩
  · exact (booked.known c' (by simpa using issued)).ages (ages_closed standing)
  · rw [fewer, List.mem_filter, booked.standing_iff, standing_closed standing]
    split
    case isTrue same => simp [same]
    case isFalse differs => simp [differs]
  · have distinct := sensible.nodup_unreturned i
    have live := live_closed standing
    rw [booked.live_eq, ← List.length_erase_add_one member] at live
    rw [fewer, ← distinct.erase_eq_filter]
    omega

theorem eq_of_standing {c c' : Cursor} {position position' : Position}
    (standing : r.standing c = .ok position) (standing' : r.standing c' = .ok position')
    (place : c.place = c'.place) : c = c' := by
  obtain ⟨own, numbered, present⟩ := standing_eq_ok.mp standing
  obtain ⟨own', numbered', present'⟩ := standing_eq_ok.mp standing'
  rw [← place, present] at present'
  simp only [Option.some.injEq, Place.mk.injEq] at present'
  exact eq_of_place (own.trans own'.symm) numbered' numbered (by rw [place]) present'.1

end Registry

end ChainTable
