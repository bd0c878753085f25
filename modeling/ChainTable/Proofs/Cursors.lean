import ChainTable.Proofs.Outcome
import ChainTable.Table.Cursors

/-! # How cursor calls end

A cursor has the entries ahead of its position to come (`pending`): advancing takes
the first of them and leaves the others.  What a cursor reads, rewrites or removes
is the entry it stands on (`entryUnder`), if that is still live.
-/

namespace ChainTable

variable {K V : Type}

namespace Table

/-- The entries that a cursor at a position has still to come, in order. -/
def pending (position : Position) (t : Table K V) : List (Location × Entry K V) :=
  match position with
  | .beforeFirst => t.directory.live
  | .on loc => t.directory.ahead loc.next
  | .exhausted => []

variable {keying : Keying K} {c : Context K V} {cursor : Cursor} {position : Position}

/-! ## Cursors -/

theorem run_openCursor : openCursor c = .ok c.table.cursors.opened.1
    (c.later [] [.cursorOpened c.table.cursors.opened.2.live]
      (c.table.registering c.table.cursors.opened.2)) := by
  simp only [openCursor, Call.run_bind, Call.run_table, Call.run_update, Call.run_emit,
    Call.run_pure, Context.later_later]
  rfl

theorem run_closeCursor (standing : c.table.cursors.standing cursor = .ok position) :
    closeCursor cursor c = .ok ()
      (c.later [] [.cursorClosed (c.table.cursors.closed cursor).live]
        (c.table.registering (c.table.cursors.closed cursor))) := by
  simp only [closeCursor, Call.run_bind, Call.run_table, standing, Call.run_update, Call.run_emit,
    Context.later_later]
  rfl

theorem run_closeCursor_refused {cause : Misuse}
    (refused : c.table.cursors.standing cursor = .error cause) :
    ∃ cause, closeCursor cursor c = .error (.misuse cause) c := by
  cases cause with
  | staleCursor => exact ⟨.closedTwice, by simp [closeCursor, refused]⟩
  | _ => exact ⟨_, by simp only [closeCursor, Call.run_bind, Call.run_table, refused]; rfl⟩

theorem run_standing (standing : c.table.cursors.standing cursor = .ok position) :
    Table.standing cursor c = .ok position c := by
  simp [Table.standing, standing, Call.ofMisuse]

theorem run_standing_refused {cause : Misuse}
    (refused : c.table.cursors.standing cursor = .error cause) :
    Table.standing cursor c = .error (.misuse cause) c := by
  simp [Table.standing, refused, Call.ofMisuse]

theorem run_stand (position : Position) : stand cursor position c =
    .ok () (c.later [] [] (c.table.registering (c.table.cursors.moved cursor position))) := by
  simp [stand, registering]

theorem run_standFrom (cursor : Cursor) {start loc : Location} {e : Entry K V}
    {rest : List (Location × Entry K V)}
    (ahead : c.table.directory.ahead start = (loc, e) :: rest) :
    standFrom cursor start c = .ok (some e.pair)
        (c.later [] [] (c.table.registering (c.table.cursors.moved cursor (.on loc)))) ∧
      c.table.directory.ahead loc.next = rest := by
  cases sought : c.table.directory.seek start with
  | none =>
    rw [Directory.ahead_of_seek_none sought] at ahead
    cases ahead
  | some found =>
    obtain ⟨e', live, whole⟩ := Directory.ahead_of_seek sought
    rw [whole, List.cons.injEq, Prod.mk.injEq] at ahead
    obtain ⟨⟨rfl, rfl⟩, rfl⟩ := ahead
    have held : (c.later [] [] (c.table.registering
        (c.table.cursors.moved cursor (.on found)))).table.entryAt? found = some e' := live
    refine ⟨?_, rfl⟩
    simp only [standFrom, Call.run_bind, Call.run_table, sought, run_stand, run_entryAt held,
      Call.run_pure]

theorem run_standFrom_end (cursor : Cursor) {start : Location}
    (ahead : c.table.directory.ahead start = []) :
    standFrom cursor start c = .ok none
      (c.later [] [] (c.table.registering (c.table.cursors.moved cursor .exhausted))) := by
  cases sought : c.table.directory.seek start with
  | none => simp only [standFrom, Call.run_bind, Call.run_table, sought, run_stand, Call.run_pure]
  | some found =>
    obtain ⟨e, -, whole⟩ := Directory.ahead_of_seek sought
    rw [whole] at ahead
    cases ahead

/-- Advancing answers the first entry that is still to come. -/
theorem run_advance (standing : c.table.cursors.standing cursor = .ok position)
    {loc : Location} {e : Entry K V} {rest : List (Location × Entry K V)}
    (pending : c.table.pending position = (loc, e) :: rest) :
    advance cursor c = .ok (some e.pair)
        (c.later [] [] (c.table.registering (c.table.cursors.moved cursor (.on loc)))) ∧
      c.table.pending (.on loc) = rest := by
  cases position with
  | beforeFirst =>
    have ahead : c.table.directory.ahead ⟨0, 0⟩ = (loc, e) :: rest := by
      rw [Directory.ahead_origin]
      exact pending
    obtain ⟨ended, others⟩ := run_standFrom cursor ahead
    exact ⟨by simp only [advance, Call.run_bind, run_standing standing, ended], others⟩
  | on former =>
    have ahead : c.table.directory.ahead former.next = (loc, e) :: rest := pending
    obtain ⟨ended, others⟩ := run_standFrom cursor ahead
    refine ⟨?_, others⟩
    simp only [advance, Call.run_bind, run_standing standing]
    exact ended
  | exhausted => cases pending

theorem run_advance_end (standing : c.table.cursors.standing cursor = .ok position)
    (pending : c.table.pending position = []) :
    advance cursor c = .ok none
      (c.later [] [] (c.table.registering (c.table.cursors.moved cursor .exhausted))) := by
  cases position with
  | beforeFirst =>
    have ahead : c.table.directory.ahead ⟨0, 0⟩ = [] := by
      rw [Directory.ahead_origin]
      exact pending
    have ended := run_standFrom_end cursor ahead
    simp only [advance, Call.run_bind, run_standing standing, ended]
  | on former =>
    have ahead : c.table.directory.ahead former.next = [] := pending
    have ended := run_standFrom_end cursor ahead
    simp only [advance, Call.run_bind, run_standing standing]
    exact ended
  | exhausted =>
    -- An exhausted cursor is not moved at all; that is the same as being sent to the end.
    have unmoved : c.table.registering (c.table.cursors.moved cursor .exhausted) = c.table := by
      rw [registering, Registry.moved_self standing]
    simp only [advance, Call.run_bind, run_standing standing, Call.run_pure, unmoved,
      Context.later_self]

/-- The entry that a cursor stands on, if it stands on a live one. -/
def entryUnder (position : Position) (t : Table K V) : Option (Location × Entry K V) :=
  match position with
  | .on loc => (t.entryAt? loc).map fun e => (loc, e)
  | _ => none

theorem entryUnder_eq_some {t : Table K V} {loc : Location} {e : Entry K V} :
    t.entryUnder position = some (loc, e) ↔ position = .on loc ∧ t.entryAt? loc = some e := by
  cases position with
  | on other =>
    simp only [entryUnder, Option.map_eq_some_iff, Prod.mk.injEq, Position.on.injEq]
    constructor
    · rintro ⟨e', live, rfl, rfl⟩
      exact ⟨rfl, live⟩
    · rintro ⟨rfl, live⟩
      exact ⟨e, live, rfl, rfl⟩
  | beforeFirst => simp [entryUnder]
  | exhausted => simp [entryUnder]

theorem run_setCurrent (standing : c.table.cursors.standing cursor = .ok position)
    {loc : Location} {e : Entry K V} (under : c.table.entryUnder position = some (loc, e))
    (value : V) : setCurrent cursor value c =
      .ok (some e.value) (c.later [] [] (c.table.rewritten loc { e with value })) := by
  obtain ⟨rfl, live⟩ := entryUnder_eq_some.mp under
  simp [setCurrent, run_standing standing, run_slotAt (Directory.entryAt?_eq_some.mp live),
    run_writeValue live]

theorem run_removeCurrent (standing : c.table.cursors.standing cursor = .ok position)
    {loc : Location} {e : Entry K V} (under : c.table.entryUnder position = some (loc, e))
    (counted : 0 < c.table.size) : removeCurrent cursor c =
      .ok (some e.pair) (c.later [] [] (c.table.without loc)) := by
  obtain ⟨rfl, live⟩ := entryUnder_eq_some.mp under
  simp [removeCurrent, run_standing standing, run_slotAt (Directory.entryAt?_eq_some.mp live),
    run_vacate live counted]

section Nothing

variable (sound : c.table.Sound keying)
  (standing : c.table.cursors.standing cursor = .ok position)
  (under : c.table.entryUnder position = none)

include sound standing under

theorem slotAt_of_entryUnder_none {loc : Location} (seat : position = .on loc) :
    slotAt loc c = .ok none c := by
  subst seat
  -- Soundness keeps the slot there under an open cursor; it can only be vacant.
  obtain ⟨slot, present⟩ := sound.seated cursor loc standing
  have vacant : slot = none := by
    simpa [entryUnder, entryAt?_eq, Directory.entryAt?, present] using under
  subst vacant
  exact run_slotAt present

theorem run_setCurrent_none (value : V) : setCurrent cursor value c = .ok none c := by
  cases position with
  | on loc =>
    simp [setCurrent, run_standing standing, slotAt_of_entryUnder_none sound standing under rfl]
  | beforeFirst => simp [setCurrent, run_standing standing]
  | exhausted => simp [setCurrent, run_standing standing]

theorem run_removeCurrent_none : removeCurrent cursor c = .ok none c := by
  cases position with
  | on loc =>
    simp [removeCurrent, run_standing standing,
      slotAt_of_entryUnder_none sound standing under rfl]
  | beforeFirst => simp [removeCurrent, run_standing standing]
  | exhausted => simp [removeCurrent, run_standing standing]

end Nothing

end Table

end ChainTable
