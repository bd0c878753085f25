import ChainTable.Proofs.Cursors
import ChainTable.Proofs.Iteration
import ChainTable.Proofs.Update
import ChainTable.Request

/-! # What one call can do

`Effect` lists every way in which an action on a sound table can end, with its answer,
the reservations it asked for, the records it wrote and the table it leaves.  It has
no way that ends at a breach.  `effect_act` says that the list is complete; all
facts about runs are case analyses of it.
-/

namespace ChainTable

variable {K V : Type}

/-! ## Kinds of requests -/

/-- The two requests that put a pair into the table. -/
inductive Puts : Request K V → K → V → Prop where
  | insert (key : K) (value : V) : Puts (.insert key value) key value
  | exchange (key : K) (value : V) : Puts (.exchange key value) key value

/-- The two requests that take a key out, with the form in which they answer the pair. -/
inductive Takes : Request K V → K → (Option (K × V) → Answer K V) → Prop where
  | remove (key : K) : Takes (.remove key) key fun pair => .flag pair.isSome
  | extract (key : K) : Takes (.extract key) key .pair

inductive Reads (keying : Keying K) (t : Table K V) : Request K V → Answer K V → Prop where
  | lookup (key : K) : Reads keying t (.lookup key) (.value ((t.found keying key).map Entry.value))
  | contains (key : K) : Reads keying t (.contains key) (.flag (t.found keying key).isSome)
  | isEmpty : Reads keying t .isEmpty (.flag t.isEmpty)
  | keys : Reads keying t .keys (.keys (t.directory.entries.map Entry.key))
  | iterate (limit : Option Nat) : Reads keying t (.iterate limit) (.listing (t.listing limit))

inductive NeedsQuiet : Request K V → QuietCall → Prop where
  | insert (key : K) (value : V) : NeedsQuiet (.insert key value) .insert
  | exchange (key : K) (value : V) : NeedsQuiet (.exchange key value) .insert
  | clear : NeedsQuiet .clear .clear

inductive Uses : Action K V → Cursor → Prop where
  | steer (c : Cursor) (request : CursorRequest V) : Uses (.steer c request) c
  | closeCursor (c : Cursor) : Uses (.closeCursor c) c

section Kinds

variable {request : Request K V} {key key' : K} {value value' : V}
  {answer answer' : Option (K × V) → Answer K V}

theorem Puts.unique (first : Puts request key value) (second : Puts request key' value') :
    key' = key ∧ value' = value := by
  cases first <;> cases second <;> exact ⟨rfl, rfl⟩

theorem Takes.unique (first : Takes request key answer) (second : Takes request key' answer') :
    key' = key ∧ answer' = answer := by
  cases first <;> cases second <;> exact ⟨rfl, rfl⟩

theorem Puts.not_takes (puts : Puts request key value) : ¬ Takes request key' answer := by
  intro takes
  cases puts <;> cases takes

end Kinds

namespace Table

def act (keying : Keying K) (t : Table K V) (allowance : Option Nat) (action : Action K V) :
    Reply (Answer K V) × Table K V :=
  (action.run keying).perform allowance t

/-- What a sound table replies to an action, and what it becomes. -/
inductive Effect (keying : Keying K) (allowance : Option Nat) (t : Table K V) :
    Action K V → Reply (Answer K V) → Table K V → Prop where
  -- A cursor is open.
  | whileOpen {request call} (needs : NeedsQuiet request call) (busy : t.isQuiet = false) :
      Effect keying allowance t (.ask request)
        ⟨.error (.misuse (.whileOpen call t.liveCursors)), [], []⟩ t
  -- The cursor is not open on this table.
  | notOpen {action c} (uses : Uses action c)
      (closed : ∀ position, t.cursors.standing c ≠ .ok position) (cause : Misuse) :
      Effect keying allowance t action ⟨.error (.misuse cause), [], []⟩ t
  -- The table cannot grow.
  | growthRefused {request key value r asked} (puts : Puts request key value)
      (quiet : t.isQuiet = true) (refused : Refuses allowance t.growth r asked) :
      Effect keying allowance t (.ask request)
        ⟨.error (.refused r), asked, [.resizeFailed t.capacity (t.capacity * 2) r]⟩ t
  -- The table has grown if it was full, but the new entry gets no slot.
  | slotRefused {request key value r asked} (puts : Puts request key value)
      (quiet : t.isQuiet = true) (absent : t.found keying key = none)
      (growing : Grants allowance t.growth)
      (refused : Refuses (allowance.map (· - t.growth.length))
        (t.roomy.berthing keying key) r asked) :
      Effect keying allowance t (.ask request)
        ⟨.error (.refused r), t.growth ++ asked, t.growthRecords⟩ t.roomy
  | inserted {key value} (quiet : t.isQuiet = true) (absent : t.found keying key = none)
      (granted : Grants allowance (t.growth ++ t.roomy.berthing keying key)) :
      Effect keying allowance t (.ask (.insert key value))
        ⟨.ok (.outcome .inserted), t.growth ++ t.roomy.berthing keying key, t.growthRecords⟩
        (t.roomy.stored ⟨key, value, keying.route key⟩)
  | updated {key value loc e} (quiet : t.isQuiet = true)
      (located : t.roomy.locate keying key = some loc) (live : t.roomy.entryAt? loc = some e)
      (found : t.found keying key = some e) (granted : Grants allowance t.growth) :
      Effect keying allowance t (.ask (.insert key value))
        ⟨.ok (.outcome .updated), t.growth, t.growthRecords⟩
        (t.roomy.rewritten loc { e with value })
  | exchangedFresh {key value} (quiet : t.isQuiet = true) (absent : t.found keying key = none)
      (granted : Grants allowance (t.growth ++ t.roomy.berthing keying key)) :
      Effect keying allowance t (.ask (.exchange key value))
        ⟨.ok (.pair none), t.growth ++ t.roomy.berthing keying key, t.growthRecords⟩
        (t.roomy.stored ⟨key, value, keying.route key⟩)
  | exchanged {key value loc e} (quiet : t.isQuiet = true)
      (located : t.locate keying key = some loc) (live : t.entryAt? loc = some e)
      (found : t.found keying key = some e) :
      Effect keying allowance t (.ask (.exchange key value)) ⟨.ok (.pair (some e.pair)), [], []⟩
        (t.rewritten loc { e with key, value })
  | takenNone {request key answer} (takes : Takes request key answer)
      (absent : t.found keying key = none) :
      Effect keying allowance t (.ask request) ⟨.ok (answer none), [], []⟩ t
  | taken {request key answer loc e} (takes : Takes request key answer)
      (located : t.locate keying key = some loc) (live : t.entryAt? loc = some e)
      (found : t.found keying key = some e)
      (granted : Grants allowance (t.without loc).shrinkage) :
      Effect keying allowance t (.ask request)
        ⟨.ok (answer (some e.pair)), (t.without loc).shrinkage, (t.without loc).shrinkageRecords⟩
        (t.without loc).slimmed
  -- The table cannot shrink, so the removal is undone.
  | shrinkRefused {request key answer loc e r asked} (takes : Takes request key answer)
      (located : t.locate keying key = some loc) (live : t.entryAt? loc = some e)
      (found : t.found keying key = some e)
      (refused : Refuses allowance (t.without loc).shrinkage r asked) :
      Effect keying allowance t (.ask request)
        ⟨.error (.refused r), asked, [.resizeFailed t.capacity (t.capacity / 2) r]⟩ t
  | read {request answer} (reads : Reads keying t request answer) :
      Effect keying allowance t (.ask request) ⟨.ok answer, [], []⟩ t
  | modifiedNone {key f} (absent : t.found keying key = none) :
      Effect keying allowance t (.ask (.modify key f)) ⟨.ok (.value none), [], []⟩ t
  | modified {key f loc e} (located : t.locate keying key = some loc)
      (live : t.entryAt? loc = some e) (found : t.found keying key = some e) :
      Effect keying allowance t (.ask (.modify key f)) ⟨.ok (.value (some e.value)), [], []⟩
        (t.rewritten loc { e with value := f e.value })
  | cleared (quiet : t.isQuiet = true) :
      Effect keying allowance t (.ask .clear) ⟨.ok .done, [], []⟩ t.cleared
  | revised (limit : Option Nat) (f : Nat → V → V) :
      Effect keying allowance t (.ask (.reviseEach limit f))
        ⟨.ok (.listing (t.listing limit)), [], []⟩ (t.swept f 0 (t.passed limit))
  | opened :
      Effect keying allowance t .openCursor
        ⟨.ok (.cursor t.cursors.opened.1), [], [.cursorOpened t.cursors.opened.2.live]⟩
        (t.registering t.cursors.opened.2)
  | closed {c position} (standing : t.cursors.standing c = .ok position) :
      Effect keying allowance t (.closeCursor c)
        ⟨.ok .done, [], [.cursorClosed (t.cursors.closed c).live]⟩
        (t.registering (t.cursors.closed c))
  | advanced {c position loc e rest} (standing : t.cursors.standing c = .ok position)
      (pending : t.pending position = (loc, e) :: rest) (others : t.pending (.on loc) = rest) :
      Effect keying allowance t (.steer c .advance) ⟨.ok (.pair (some e.pair)), [], []⟩
        (t.registering (t.cursors.moved c (.on loc)))
  | advancedEnd {c position} (standing : t.cursors.standing c = .ok position)
      (pending : t.pending position = []) :
      Effect keying allowance t (.steer c .advance) ⟨.ok (.pair none), [], []⟩
        (t.registering (t.cursors.moved c .exhausted))
  | currentSet {c position loc e value} (standing : t.cursors.standing c = .ok position)
      (under : t.entryUnder position = some (loc, e)) :
      Effect keying allowance t (.steer c (.setCurrent value)) ⟨.ok (.value (some e.value)), [], []⟩
        (t.rewritten loc { e with value })
  | currentSetNone {c position value} (standing : t.cursors.standing c = .ok position)
      (under : t.entryUnder position = none) :
      Effect keying allowance t (.steer c (.setCurrent value)) ⟨.ok (.value none), [], []⟩ t
  | currentRemoved {c position loc e} (standing : t.cursors.standing c = .ok position)
      (under : t.entryUnder position = some (loc, e)) :
      Effect keying allowance t (.steer c .removeCurrent) ⟨.ok (.pair (some e.pair)), [], []⟩
        (t.without loc)
  | currentRemovedNone {c position} (standing : t.cursors.standing c = .ok position)
      (under : t.entryUnder position = none) :
      Effect keying allowance t (.steer c .removeCurrent) ⟨.ok (.pair none), [], []⟩ t

/-! ## The list is complete -/

def Listed (keying : Keying K) (allowance : Option Nat) (t : Table K V)
    (action : Action K V) : Prop :=
  Effect keying allowance t action (t.act keying allowance action).1
    (t.act keying allowance action).2

section Complete

variable {keying : Keying K} {allowance : Option Nat} {t t' : Table K V} {action : Action K V}
  {asked : List Reservation} {records : List Record}

theorem listed_of_ok {answer : Answer K V}
    (ended : action.run keying ⟨t, allowance, [], []⟩ =
      .ok answer (Context.later ⟨t, allowance, [], []⟩ asked records t'))
    (effect : Effect keying allowance t action ⟨.ok answer, asked, records⟩ t') :
    Listed keying allowance t action := by
  rw [Listed, act, Call.perform_of_ok ended]
  exact effect

theorem listed_of_error {fault : Fault}
    (ended : action.run keying ⟨t, allowance, [], []⟩ =
      .error fault (Context.later ⟨t, allowance, [], []⟩ asked records t'))
    (effect : Effect keying allowance t action ⟨.error fault, asked, records⟩ t') :
    Listed keying allowance t action := by
  rw [Listed, act, Call.perform_of_error ended]
  exact effect

theorem listed_of_same {answer : Answer K V}
    (ended : action.run keying ⟨t, allowance, [], []⟩ = .ok answer ⟨t, allowance, [], []⟩)
    (effect : Effect keying allowance t action ⟨.ok answer, [], []⟩ t) :
    Listed keying allowance t action := by
  rw [Listed, act, Call.perform_of_same ended]
  exact effect

theorem listed_of_refusal {fault : Fault}
    (ended : action.run keying ⟨t, allowance, [], []⟩ = .error fault ⟨t, allowance, [], []⟩)
    (effect : Effect keying allowance t action ⟨.error fault, [], []⟩ t) :
    Listed keying allowance t action := by
  rw [Listed, act, Call.perform_of_refusal ended]
  exact effect

theorem lookup_eq (keying : Keying K) (key : K) (t : Table K V) :
    t.lookup keying key = (t.found keying key).map Entry.value := by
  rw [lookup, found, Directory.found, Option.map_bind]
  rfl

theorem contains_eq (keying : Keying K) (key : K) (t : Table K V) :
    t.contains keying key = (t.found keying key).isSome := by
  cases located : t.locate keying key with
  | none => rw [contains, located, locate_eq_none.mp located]; rfl
  | some loc =>
    obtain ⟨e, -, -, found⟩ := exists_of_locate located
    rw [contains, located, found]
    rfl

section Put

variable (sound : t.Sound keying) (quiet : t.isQuiet = true) (key : K) (value : V)

include sound quiet

theorem growAndPut_absent (absent : t.found keying key = none)
    (growing : Grants allowance t.growth) (replaceKey : Bool) :
    (Grants allowance (t.growth ++ t.roomy.berthing keying key) ∧
      growAndPut keying key value replaceKey ⟨t, allowance, [], []⟩ = .ok none
        (Context.later ⟨t, allowance, [], []⟩ (t.growth ++ t.roomy.berthing keying key)
          t.growthRecords (t.roomy.stored ⟨key, value, keying.route key⟩))) ∨
      ∃ r asked, Refuses (allowance.map (· - t.growth.length)) (t.roomy.berthing keying key)
          r asked ∧
        growAndPut keying key value replaceKey ⟨t, allowance, [], []⟩ = .error (.refused r)
          (Context.later ⟨t, allowance, [], []⟩ (t.growth ++ asked) t.growthRecords t.roomy) := by
  cases grants_or_refuses (allowance.map (· - t.growth.length)) (t.roomy.berthing keying key) with
  | inl berthing =>
    have granted := grants_append.mpr ⟨growing, berthing⟩
    exact .inl ⟨granted, run_growAndPut_absent (c := ⟨t, allowance, [], []⟩) sound quiet key value
      replaceKey absent granted⟩
  | inr short =>
    obtain ⟨r, asked, refused⟩ := short
    exact .inr ⟨r, asked, refused, run_growAndPut_absent_refused (c := ⟨t, allowance, [], []⟩)
      sound quiet key value replaceKey absent growing refused⟩

end Put

theorem listed_modify (key : K) (f : V → V) :
    Listed keying allowance t (.ask (.modify key f)) := by
  cases located : t.locate keying key with
  | none =>
    have absent := locate_eq_none.mp located
    have changed := run_modify_absent (c := ⟨t, allowance, [], []⟩) absent f
    exact listed_of_same (by simp [Action.run, Request.run, changed]) (.modifiedNone absent)
  | some loc =>
    obtain ⟨e, live, -, found⟩ := exists_of_locate located
    have changed := run_modify (c := ⟨t, allowance, [], []⟩) located live f
    exact listed_of_ok (by simp [Action.run, Request.run, changed]) (.modified located live found)

theorem listed_clear : Listed keying allowance t (.ask .clear) := by
  cases quiet : t.isQuiet with
  | false =>
    have refused := run_refuseWhileOpen_refused (c := ⟨t, allowance, [], []⟩) .clear quiet
    exact listed_of_refusal (by simp [Action.run, Request.run, clear, refused])
      (.whileOpen .clear quiet)
  | true =>
    have emptied := run_clear (c := ⟨t, allowance, [], []⟩) quiet
    exact listed_of_ok (by simp [Action.run, Request.run, emptied]) (.cleared quiet)

variable (sound : t.Sound keying)

include sound

theorem listed_insert (key : K) (value : V) :
    Listed keying allowance t (.ask (.insert key value)) := by
  cases quiet : t.isQuiet with
  | false =>
    have refused := run_refuseWhileOpen_refused (c := ⟨t, allowance, [], []⟩) .insert quiet
    exact listed_of_refusal (by simp [Action.run, Request.run, insert, refused])
      (.whileOpen (.insert key value) quiet)
  | true =>
    have open' := run_refuseWhileOpen (c := ⟨t, allowance, [], []⟩) .insert quiet
    -- Growing comes first, even where the key turns out to be present.
    cases grants_or_refuses allowance t.growth with
    | inl growing =>
      cases located : t.roomy.locate keying key with
      | some loc =>
        obtain ⟨e, live, -, found⟩ := exists_of_locate located
        rw [sound.found_roomy] at found
        have put := run_growAndPut_present (c := ⟨t, allowance, [], []⟩) sound quiet key value
          false growing located live
        exact listed_of_ok (by simp [Action.run, Request.run, insert, open', put])
          (.updated quiet located live found growing)
      | none =>
        have absent : t.found keying key = none := by
          rw [← sound.found_roomy, locate_eq_none.mp located]
        rcases growAndPut_absent sound quiet key value absent growing false with
          ⟨granted, put⟩ | ⟨r, asked, refused, put⟩
        · exact listed_of_ok (by simp [Action.run, Request.run, insert, open', put])
            (.inserted quiet absent granted)
        · exact listed_of_error (by simp [Action.run, Request.run, insert, open', put])
            (.slotRefused (.insert key value) quiet absent growing refused)
    | inr short =>
      obtain ⟨r, asked, refused⟩ := short
      have put := run_growAndPut_refused (c := ⟨t, allowance, [], []⟩) sound quiet key value
        false refused
      exact listed_of_error (by simp [Action.run, Request.run, insert, open', put])
        (.growthRefused (.insert key value) quiet refused)

theorem listed_exchange (key : K) (value : V) :
    Listed keying allowance t (.ask (.exchange key value)) := by
  cases quiet : t.isQuiet with
  | false =>
    have refused := run_refuseWhileOpen_refused (c := ⟨t, allowance, [], []⟩) .insert quiet
    exact listed_of_refusal (by simp [Action.run, Request.run, exchange, refused])
      (.whileOpen (.exchange key value) quiet)
  | true =>
    have open' := run_refuseWhileOpen (c := ⟨t, allowance, [], []⟩) .insert quiet
    -- Unlike an insertion an exchange looks for the key first, and grows only if it is absent.
    cases located : t.locate keying key with
    | some loc =>
      obtain ⟨e, live, -, found⟩ := exists_of_locate located
      have put := run_replaceAt (c := ⟨t, allowance, [], []⟩) live key value true
      exact listed_of_ok (by simp [Action.run, Request.run, exchange, open', located, put]; rfl)
        (.exchanged quiet located live found)
    | none =>
      have absent := locate_eq_none.mp located
      cases grants_or_refuses allowance t.growth with
      | inl growing =>
        rcases growAndPut_absent sound quiet key value absent growing true with
          ⟨granted, put⟩ | ⟨r, asked, refused, put⟩
        · exact listed_of_ok (by simp [Action.run, Request.run, exchange, open', located, put])
            (.exchangedFresh quiet absent granted)
        · exact listed_of_error (by simp [Action.run, Request.run, exchange, open', located, put])
            (.slotRefused (.exchange key value) quiet absent growing refused)
      | inr short =>
        obtain ⟨r, asked, refused⟩ := short
        have put := run_growAndPut_refused (c := ⟨t, allowance, [], []⟩) sound quiet key value
          true refused
        exact listed_of_error (by simp [Action.run, Request.run, exchange, open', located, put])
          (.growthRefused (.exchange key value) quiet refused)

/-- Both removals end as `extract` does. -/
theorem listed_take {request : Request K V} {key : K} {answer : Option (K × V) → Answer K V}
    (takes : Takes request key answer)
    (run : request.run keying ⟨t, allowance, [], []⟩ =
      (answer <$> extract keying key) ⟨t, allowance, [], []⟩) :
    Listed keying allowance t (.ask request) := by
  cases located : t.locate keying key with
  | none =>
    have absent := locate_eq_none.mp located
    have taken := run_extract_absent (c := ⟨t, allowance, [], []⟩) absent
    exact listed_of_same (by rw [Action.run, run]; simp [taken]) (.takenNone takes absent)
  | some loc =>
    obtain ⟨e, live, -, found⟩ := exists_of_locate located
    cases grants_or_refuses allowance (t.without loc).shrinkage with
    | inl granted =>
      have taken := run_extract (c := ⟨t, allowance, [], []⟩) sound.toCounted located live granted
      exact listed_of_ok (by rw [Action.run, run]; simp [taken])
        (.taken takes located live found granted)
    | inr short =>
      obtain ⟨r, asked, refused⟩ := short
      have taken := run_extract_refused (c := ⟨t, allowance, [], []⟩) sound.toCounted located live
        refused
      exact listed_of_error (by rw [Action.run, run]; simp [taken])
        (.shrinkRefused takes located live found refused)

theorem listed_ask (request : Request K V) : Listed keying allowance t (.ask request) := by
  cases request with
  | insert key value => exact listed_insert sound key value
  | exchange key value => exact listed_exchange sound key value
  | remove key =>
    apply listed_take sound (.remove key)
    simp only [Request.run, remove, Call.run_map, Call.run_bind]
    cases extract keying key ⟨t, allowance, [], []⟩ <;> rfl
  | extract key => exact listed_take sound (.extract key) rfl
  | lookup key =>
    exact listed_of_same (by simp [Action.run, Request.run, lookup_eq]) (.read (.lookup key))
  | modify key f => exact listed_modify key f
  | contains key =>
    exact listed_of_same (by simp [Action.run, Request.run, contains_eq]) (.read (.contains key))
  | isEmpty => exact listed_of_same (by simp [Action.run, Request.run]) (.read .isEmpty)
  | clear => exact listed_clear
  | keys =>
    have read := run_keys (c := ⟨t, allowance, [], []⟩) sound
    exact listed_of_same (by simp [Action.run, Request.run, read]) (.read .keys)
  | iterate limit =>
    have read := run_iterate (c := ⟨t, allowance, [], []⟩) sound limit
    exact listed_of_same (by simp [Action.run, Request.run, read]) (.read (.iterate limit))
  | reviseEach limit f =>
    have swept := run_reviseEach (c := ⟨t, allowance, [], []⟩) sound limit f
    exact listed_of_ok (by simp [Action.run, Request.run, swept]) (.revised limit f)

theorem listed_steer (c : Cursor) (request : CursorRequest V) :
    Listed keying allowance t (.steer c request) := by
  cases standing : t.cursors.standing c with
  | error cause =>
    have closed := Registry.ne_ok_of_error standing
    have refused := run_standing_refused (c := ⟨t, allowance, [], []⟩) standing
    refine listed_of_refusal ?_ (.notOpen (.steer c request) closed cause)
    cases request <;>
      simp [Action.run, CursorRequest.run, advance, setCurrent, removeCurrent, refused]
  | ok position =>
    cases request with
    | advance =>
      cases pending : t.pending position with
      | nil =>
        have moved := run_advance_end (c := ⟨t, allowance, [], []⟩) standing pending
        exact listed_of_ok (by simp [Action.run, CursorRequest.run, moved])
          (.advancedEnd standing pending)
      | cons item rest =>
        obtain ⟨loc, e⟩ := item
        obtain ⟨moved, others⟩ := run_advance (c := ⟨t, allowance, [], []⟩) standing pending
        exact listed_of_ok (by simp [Action.run, CursorRequest.run, moved])
          (.advanced standing pending others)
    | setCurrent value =>
      cases under : t.entryUnder position with
      | none =>
        have unset := run_setCurrent_none (c := ⟨t, allowance, [], []⟩) sound standing under value
        exact listed_of_same (by simp [Action.run, CursorRequest.run, unset])
          (.currentSetNone standing under)
      | some item =>
        have set := run_setCurrent (c := ⟨t, allowance, [], []⟩) standing under value
        exact listed_of_ok (by simp [Action.run, CursorRequest.run, set])
          (.currentSet standing under)
    | removeCurrent =>
      cases under : t.entryUnder position with
      | none =>
        have kept := run_removeCurrent_none (c := ⟨t, allowance, [], []⟩) sound standing under
        exact listed_of_same (by simp [Action.run, CursorRequest.run, kept])
          (.currentRemovedNone standing under)
      | some item =>
        -- No shrink follows, since the cursor is open; so no storage can be refused.
        have live := (entryUnder_eq_some.mp under).2
        have removed := run_removeCurrent (c := ⟨t, allowance, [], []⟩) standing under
          (sound.size_pos live)
        exact listed_of_ok (by simp [Action.run, CursorRequest.run, removed])
          (.currentRemoved standing under)

/-- A sound table does nothing that is not on the list. -/
theorem effect_act (allowance : Option Nat) (action : Action K V) :
    Effect keying allowance t action (t.act keying allowance action).1
      (t.act keying allowance action).2 := by
  cases action with
  | ask request => exact listed_ask sound request
  | openCursor =>
    have opened := run_openCursor (c := ⟨t, allowance, [], []⟩)
    exact listed_of_ok (by simp [Action.run, opened]) .opened
  | steer c request => exact listed_steer sound c request
  | closeCursor c =>
    cases standing : t.cursors.standing c with
    | error cause =>
      have closed := Registry.ne_ok_of_error standing
      obtain ⟨cause, refused⟩ := run_closeCursor_refused (c := ⟨t, allowance, [], []⟩) standing
      exact listed_of_refusal (by simp [Action.run, refused])
        (.notOpen (.closeCursor c) closed cause)
    | ok position =>
      have closed := run_closeCursor (c := ⟨t, allowance, [], []⟩) standing
      exact listed_of_ok (by simp [Action.run, closed]) (.closed standing)

theorem effect_of_act {reply : Reply (Answer K V)}
    (ended : t.act keying allowance action = (reply, t')) :
    Effect keying allowance t action reply t' := by
  have effect := effect_act sound allowance action
  rw [ended] at effect
  exact effect

end Complete

theorem act_openCursor (keying : Keying K) (t : Table K V) (allowance : Option Nat) :
    t.act keying allowance .openCursor =
      (⟨.ok (.cursor t.cursors.opened.1), [], [.cursorOpened t.cursors.opened.2.live]⟩,
        t.registering t.cursors.opened.2) :=
  Call.perform_of_ok (by simp [Action.run, run_openCursor])

theorem act_closeCursor (keying : Keying K) {t : Table K V} {c : Cursor} {position : Position}
    (standing : t.cursors.standing c = .ok position) (allowance : Option Nat) :
    t.act keying allowance (.closeCursor c) =
      (⟨.ok .done, [], [.cursorClosed (t.cursors.closed c).live]⟩,
        t.registering (t.cursors.closed c)) := by
  have closed := run_closeCursor (c := ⟨t, allowance, [], []⟩) standing
  exact Call.perform_of_ok (by simp [Action.run, closed])

end Table

end ChainTable
