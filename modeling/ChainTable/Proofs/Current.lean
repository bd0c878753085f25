import ChainTable.Proofs.Layout
import ChainTable.Proofs.Storage

/-! # The entry under a cursor

A cursor reaches the entry it stands on by its location, a call with a key by a look-up.  Where
no two keys are alike the look-up of a stored key can only give the location of its entry, so
both ways lead to the same slot; and with the cursor open neither of them resizes the table.
An entry that is gone has left a vacant slot, which stays vacant for as long as the cursor
stands there.
-/

namespace ChainTable.Table

variable {K V : Type} {keying : Keying K} {t : Table K V} {loc : Location} {e : Entry K V}
  {key : K} {c : Cursor}

/-! ## One entry, reached in two ways -/

/-- A key designates the one entry whose key is alike to it. -/
theorem Distinct.locate_of_alike (distinct : t.Distinct keying)
    (equivalence : keying.IsEquivalence) (sound : t.Sound keying)
    (live : t.entryAt? loc = some e) (alike : keying.Alike key e.key) :
    t.locate keying key = some loc := by
  cases located : t.locate keying key with
  | none => exact absurd alike (sound.not_alike_of_found_none (locate_eq_none.mp located) live)
  | some other =>
    obtain ⟨e', live', answering, -⟩ := exists_of_locate located
    have alike' := (sound.answers_iff live').mp answering
    have both := equivalence.alike_trans (equivalence.alike_symm alike') alike
    rw [distinct other loc e' e live' live both]

section Acts

variable (live : t.entryAt? loc = some e) (allowance : Option Nat)

include live

theorem act_modify (located : t.locate keying key = some loc) (f : V → V) :
    t.act keying allowance (.ask (.modify key f)) =
      (⟨.ok (.value (some e.value)), [], []⟩, t.rewritten loc { e with value := f e.value }) := by
  have changed := run_modify (c := ⟨t, allowance, [], []⟩) located live f
  exact Call.perform_of_ok (by simp [Action.run, Request.run, changed])

/-- While a cursor is open a removal puts off the shrink that may be due. -/
theorem Counted.act_extract (counted : t.Counted) (busy : t.isQuiet = false)
    (located : t.locate keying key = some loc) : t.act keying allowance (.ask (.extract key)) =
      (⟨.ok (.pair (some e.pair)), [], (t.without loc).shrinkageRecords⟩, t.without loc) := by
  have nothing := shrinkage_of_busy (t := t.without loc) busy
  have granted : Grants allowance (t.without loc).shrinkage := by
    rw [nothing]
    exact grants_nil
  have taken := run_extract (c := ⟨t, allowance, [], []⟩) counted located live granted
  rw [nothing, slimmed_of_busy (t := t.without loc) busy] at taken
  exact Call.perform_of_ok (by simp [Action.run, Request.run, taken])

variable (standing : t.cursors.standing c = .ok (.on loc))

include standing

theorem act_setCurrent (value : V) : t.act keying allowance (.steer c (.setCurrent value)) =
    (⟨.ok (.value (some e.value)), [], []⟩, t.rewritten loc { e with value }) := by
  have set := run_setCurrent (c := ⟨t, allowance, [], []⟩) standing
    (entryUnder_eq_some.mpr ⟨rfl, live⟩) value
  exact Call.perform_of_ok (by simp [Action.run, CursorRequest.run, set])

theorem Counted.act_removeCurrent (counted : t.Counted) :
    t.act keying allowance (.steer c .removeCurrent) =
      (⟨.ok (.pair (some e.pair)), [], []⟩, t.without loc) := by
  have removed := run_removeCurrent (c := ⟨t, allowance, [], []⟩) standing
    (entryUnder_eq_some.mpr ⟨rfl, live⟩) (counted.size_pos live)
  exact Call.perform_of_ok (by simp [Action.run, CursorRequest.run, removed])

end Acts

/-! ## An entry that is gone -/

section Gone

variable (sound : t.Sound keying) (standing : t.cursors.standing c = .ok (.on loc))
  (vacant : t.entryAt? loc = none)

include sound standing vacant

theorem Sound.act_setCurrent_none (allowance : Option Nat) (value : V) :
    t.act keying allowance (.steer c (.setCurrent value)) = (⟨.ok (.value none), [], []⟩, t) := by
  have under : t.entryUnder (.on loc) = none := by rw [entryUnder, vacant, Option.map_none]
  have unset := run_setCurrent_none (c := ⟨t, allowance, [], []⟩) sound standing under value
  exact Call.perform_of_same (by simp [Action.run, CursorRequest.run, unset])

theorem Sound.act_removeCurrent_none (allowance : Option Nat) :
    t.act keying allowance (.steer c .removeCurrent) = (⟨.ok (.pair none), [], []⟩, t) := by
  have under : t.entryUnder (.on loc) = none := by rw [entryUnder, vacant, Option.map_none]
  have kept := run_removeCurrent_none (c := ⟨t, allowance, [], []⟩) sound standing under
  exact Call.perform_of_same (by simp [Action.run, CursorRequest.run, kept])

/-- While a cursor stands on a vacant slot, nothing comes into it. -/
theorem Sound.vacant_afterAll {calls : List (Invocation K V)}
    (stays : ∀ call ∈ calls, call.action.advances c = false ∧ ¬ call.action.Closes c) :
    (t.afterAll keying calls).Sound keying ∧
      (t.afterAll keying calls).cursors.standing c = .ok (.on loc) ∧
      (t.afterAll keying calls).entryAt? loc = none := by
  induction calls generalizing t with
  | nil => exact ⟨sound, standing, vacant⟩
  | cons call rest ih =>
    obtain ⟨⟨unmoved, remains⟩, others⟩ := List.forall_mem_cons.mp stays
    have effect := effect_act sound call.allowance call.action
    exact ih (sound.act call.allowance call.action)
      (effect.standing_other sound standing unmoved remains)
      ((thins_event sound standing call).vacant loc vacant) others

end Gone

/-- Let the keys be told apart by an equivalence, of any hash, and let a cursor of any table
that actions lead to stand on a live entry.  Then the entry's key is found with the entry's
value.  To set the value through the cursor is to change it by key, with the former value as
the answer and the same table left.  To remove the entry through the cursor answers the pair
that its removal by key answers, and leaves the same table, with no storage asked for and no
resize.  From then on the cursor, and every other one on that slot, sets and removes nothing
there, whatever else is called while it stands there. -/
theorem current_agrees (equivalence : keying.IsEquivalence) (reachable : t.Reachable keying)
    (standing : t.cursors.standing c = .ok (.on loc)) (live : t.entryAt? loc = some e)
    (allowance : Option Nat) :
    t.lookup keying e.key = some e.value ∧
    (∀ value,
      let set := t.act keying allowance (.steer c (.setCurrent value))
      set.1.answer = .ok (.value (some e.value)) ∧
        set = t.act keying allowance (.ask (.modify e.key fun _ => value))) ∧
    let removed := t.act keying allowance (.steer c .removeCurrent)
    let extracted := t.act keying allowance (.ask (.extract e.key))
    removed.1.answer = .ok (.pair (some e.pair)) ∧ extracted.1.answer = removed.1.answer ∧
      extracted.2 = removed.2 ∧ removed.2.capacity = t.capacity ∧
      removed.1.reservations = [] ∧ extracted.1.reservations = [] ∧
      ∀ c', t.cursors.standing c' = .ok (.on loc) → ∀ calls : List (Invocation K V),
        (∀ call ∈ calls, call.action.advances c' = false ∧ ¬ call.action.Closes c') →
        let later := removed.2.afterAll keying calls
        ∀ allowance,
          (∀ value, later.act keying allowance (.steer c' (.setCurrent value)) =
            (⟨.ok (.value none), [], []⟩, later)) ∧
          later.act keying allowance (.steer c' .removeCurrent) =
            (⟨.ok (.pair none), [], []⟩, later) := by
  have sound := reachable.sound
  have distinct := reachable.distinct equivalence
  have located := distinct.locate_of_alike equivalence sound live (equivalence.alike_refl e.key)
  have busy := isQuiet_eq_false standing
  obtain ⟨e', live', -, found⟩ := exists_of_locate located
  cases live.symm.trans live'
  refine ⟨by rw [lookup_eq, found, Option.map_some], fun value => ?_, ?_⟩
  · rw [act_setCurrent live allowance standing, act_modify live allowance located]
    exact ⟨rfl, rfl⟩
  · rw [sound.act_removeCurrent live allowance standing,
      sound.act_extract live allowance busy located]
    refine ⟨rfl, rfl, rfl, capacity_without t loc, rfl, rfl, fun c' standing' calls stays => ?_⟩
    have gone : (t.without loc).entryAt? loc = none := by
      rw [entryAt?_without loc live, if_pos rfl]
    obtain ⟨sound', held, vacant⟩ := (sound.without live).vacant_afterAll standing' gone stays
    exact fun allowance => ⟨fun value => sound'.act_setCurrent_none held vacant allowance value,
      sound'.act_removeCurrent_none held vacant allowance⟩

/-- Two cursors on one entry of a table that is due to shrink once the entry is gone. -/
def shared : Table Nat Nat :=
  hollow.afterAll Session.lastDigit [⟨none, .openCursor⟩, ⟨none, .openCursor⟩,
    ⟨none, .steer ⟨1, 1, 1⟩ .advance⟩, ⟨none, .steer ⟨1, 2, 1⟩ .advance⟩]

theorem reachable_shared : shared.Reachable Session.lastDigit := reachable_hollow.afterAll _

/-- The first cursor removes the entry and is closed, and the second one still stands there. -/
theorem current_agrees_shared :
    let set := shared.act Session.lastDigit none (.steer ⟨1, 1, 1⟩ (.setCurrent 7))
    let removed := shared.act Session.lastDigit none (.steer ⟨1, 1, 1⟩ .removeCurrent)
    let later := removed.2.afterAll Session.lastDigit
      [⟨none, .closeCursor ⟨1, 1, 1⟩⟩, ⟨none, .ask (.remove 2)⟩]
    shared.lookup Session.lastDigit 9 = some 90 ∧
      set = shared.act Session.lastDigit none (.ask (.modify 9 fun _ => 7)) ∧
      removed.1.answer = .ok (.pair (some (9, 90))) ∧
      (shared.act Session.lastDigit none (.ask (.extract 9))).2 = removed.2 ∧
      removed.2.isSparse = true ∧ removed.2.capacity = 8 ∧ later.size = 1 ∧
      later.act Session.lastDigit none (.steer ⟨1, 2, 1⟩ .removeCurrent) =
        (⟨.ok (.pair none), [], []⟩, later) := by
  intro set removed later
  have first : shared.cursors.standing ⟨1, 1, 1⟩ = .ok (.on ⟨1, 1⟩) := by decide +kernel
  have second : shared.cursors.standing ⟨1, 2, 1⟩ = .ok (.on ⟨1, 1⟩) := by decide +kernel
  have live : shared.entryAt? ⟨1, 1⟩ = some ⟨9, 90, 9⟩ := by decide +kernel
  obtain ⟨read, sets, answered, -, same, capacity, -, -, gone⟩ :=
    current_agrees Session.isEquivalence_lastDigit reachable_shared first live none
  have wide : shared.capacity = 8 := by decide +kernel
  rw [wide] at capacity
  obtain ⟨-, nothing⟩ := gone _ second [⟨none, .closeCursor ⟨1, 1, 1⟩⟩, ⟨none, .ask (.remove 2)⟩]
    (by simp [Action.advances, Action.Closes]) none
  exact ⟨read, (sets 7).2, answered, same, by decide +kernel, capacity, by decide +kernel, nothing⟩

end ChainTable.Table
