import ChainTable.Proofs.Refusal
import ChainTable.Proofs.Traversal

/-! # The layout while cursors are open

A cursor stands on a bare location, so no slot may come, go or be filled while one is open.
Whatever is called then, the table is only thinned out (`ThinnedTo`): it has its buckets
with their slots, fewer of them occupied, and the entries left are where they were with
their keys and hashes.  Nor is any storage asked for.  For this the cursors may take turns,
as long as one is open at every moment.
-/

namespace ChainTable

variable {K V : Type}

namespace Directory

@[simp] theorem length_bucketAt_setSlot (d : Directory K V) (loc : Location) (slot : Slot K V)
    (i : Nat) : ((d.setSlot loc slot).bucketAt i).length = (d.bucketAt i).length := by
  rw [setSlot, bucketAt_modify]
  split
  · exact List.length_set
  · rfl

end Directory

namespace Table

variable {keying : Keying K} {allowance : Option Nat} {t t' t'' : Table K V}
  {action : Action K V} {reply : Reply (Answer K V)}

/-! ## Shapes -/

/-- Two tables with the same number of buckets, and the same number of slots in each. -/
structure SameShape (t t' : Table K V) : Prop where
  capacity : t'.capacity = t.capacity
  slots : ∀ i, (t'.directory.bucketAt i).length = (t.directory.bucketAt i).length

theorem SameShape.refl (t : Table K V) : t.SameShape t := ⟨rfl, fun _ => rfl⟩

theorem SameShape.trans (first : t.SameShape t') (second : t'.SameShape t'') :
    t.SameShape t'' :=
  ⟨second.capacity.trans first.capacity, fun i => (second.slots i).trans (first.slots i)⟩

theorem SameShape.registering (same : t.SameShape t') (cursors : Registry) :
    t.SameShape (t'.registering cursors) := same.trans ⟨rfl, fun _ => rfl⟩

theorem SameShape.rewritten (same : t.SameShape t') (loc : Location) (e : Entry K V) :
    t.SameShape (t'.rewritten loc e) :=
  same.trans ⟨capacity_rewritten t' loc e, fun i => by simp [Table.rewritten]⟩

theorem SameShape.without (same : t.SameShape t') (loc : Location) :
    t.SameShape (t'.without loc) :=
  same.trans ⟨capacity_without t' loc, fun i => by simp [Table.without]⟩

theorem shrinkage_of_busy (busy : t.isQuiet = false) : t.shrinkage = [] :=
  if_neg (by simp [busy])

/-- While a cursor is open no action changes the shape of the table or asks for storage. -/
theorem Effect.sameShape (busy : t.isQuiet = false)
    (effect : Effect keying allowance t action reply t') :
    t.SameShape t' ∧ reply.reservations = [] := by
  have same := SameShape.refl t
  cases effect with
  | growthRefused _ quiet | slotRefused _ quiet | inserted quiet | updated quiet
  | exchangedFresh quiet | exchanged quiet | cleared quiet =>
    rw [busy] at quiet
    cases quiet
  | whileOpen | notOpen | takenNone | read | modifiedNone | currentSetNone
  | currentRemovedNone => exact ⟨same, rfl⟩
  | opened | closed | advanced | advancedEnd => exact ⟨same.registering _, rfl⟩
  -- The removals are where a shrink would be due; it is put off, so none is refused.
  | taken =>
    rw [slimmed_of_busy (t := t.without _) busy]
    exact ⟨same.without _, shrinkage_of_busy (t := t.without _) busy⟩
  | shrinkRefused _ _ _ _ short =>
    have asked := short.mem
    rw [shrinkage_of_busy (t := t.without _) busy] at asked
    cases asked
  | modified | currentSet => exact ⟨same.rewritten _ _, rfl⟩
  | revised limit f =>
    refine ⟨?_, rfl⟩
    exact swept_induction f (fun _ _ _ _ shaped _ => shaped.rewritten _ _) 0
      (fun p member => entryAt?_of_mem_passed member) (pairwise_passed limit t) same
  | currentRemoved => exact ⟨same.without _, rfl⟩

/-! ## Thinning out -/

/-- A table and what is left of it where entries have only gone: every slot is there, and
one that is occupied was occupied before, by an entry with the same key and hash. -/
structure ThinnedTo (t t' : Table K V) : Prop extends SameShape t t' where
  entries : ∀ loc e', t'.entryAt? loc = some e' →
    ∃ e, t.entryAt? loc = some e ∧ e'.key = e.key ∧ e'.hash = e.hash

theorem ThinnedTo.trans (first : t.ThinnedTo t') (second : t'.ThinnedTo t'') :
    t.ThinnedTo t'' := by
  refine ⟨first.toSameShape.trans second.toSameShape, fun loc e'' after => ?_⟩
  obtain ⟨e', between, key', hash'⟩ := second.entries loc e'' after
  obtain ⟨e, before, key, hash⟩ := first.entries loc e' between
  exact ⟨e, before, key'.trans key, hash'.trans hash⟩

theorem thinnedTo_event (sound : t.Sound keying) (busy : t.isQuiet = false)
    (call : Invocation K V) :
    t.ThinnedTo (t.event keying call).after ∧
      (t.act keying call.allowance call.action).1.reservations = [] := by
  have effect := effect_act sound call.allowance call.action
  obtain ⟨same, nothing⟩ := effect.sameShape busy
  have thins : (t.event keying call).Thins keying := effect.thins busy
  exact ⟨⟨same, fun _ _ after => thins.former after⟩, nothing⟩

/-- Calls on a table that has some cursor open whenever one of them is made, be it always
the same cursor or not.  After each of them the table is what it was at the start, and what
it was before the call, with entries gone at most, and no storage was asked for. -/
theorem layout_frozen (reachable : t.Reachable keying) {calls : List (Invocation K V)}
    (busy : ∀ event ∈ t.history keying calls, 0 < event.before.liveCursors) :
    ∀ event ∈ t.history keying calls,
      t.ThinnedTo event.after ∧ event.before.ThinnedTo event.after ∧
        (event.before.act keying event.call.allowance event.call.action).1.reservations = [] := by
  -- By induction on the calls; what the first of them leaves is the start of the others.
  induction calls generalizing t with
  | nil =>
    intro event member
    cases member
  | cons call rest ih =>
    obtain ⟨first, others⟩ := List.forall_mem_cons.mp busy
    obtain ⟨thinned, nothing⟩ :=
      thinnedTo_event reachable.sound (isQuiet_eq_false_iff.mpr first) call
    intro event member
    cases member with
    | head => exact ⟨thinned, thinned, nothing⟩
    | tail _ member =>
      obtain ⟨fromNext, step, asked⟩ :=
        ih (reachable.act call.allowance call.action) others event member
      exact ⟨thinned.trans fromNext, step, asked⟩

/-- A cursor is opened before the other is closed; then removals by key and through the
cursor, which would each halve the table, and calls that are refused. -/
theorem layout_frozen_hollow :
    let t := (hollow.act Session.lastDigit none .openCursor).2
    let events := t.history Session.lastDigit
      [⟨none, .openCursor⟩, ⟨none, .closeCursor ⟨1, 1, 1⟩⟩, ⟨none, .ask (.remove 12)⟩,
        ⟨none, .steer ⟨1, 2, 1⟩ .advance⟩, ⟨none, .steer ⟨1, 2, 1⟩ .removeCurrent⟩,
        ⟨none, .ask (.insert 1 10)⟩, ⟨none, .ask .clear⟩, ⟨none, .ask (.modify 3 (· + 1))⟩]
    events.map (fun event => event.after.liveCursors) = [2, 1, 1, 1, 1, 1, 1, 1] ∧
      events.map (fun event => event.after.size) = [3, 3, 2, 2, 1, 1, 1, 1] ∧
      ∀ event ∈ events, t.ThinnedTo event.after ∧ event.after.capacity = 8 ∧
        (event.after.directory.bucketAt 1).length = 2 ∧
        (event.before.act Session.lastDigit event.call.allowance
          event.call.action).1.reservations = [] := by
  intro t events
  have busy : ∀ event ∈ events, 0 < event.before.liveCursors := by decide +kernel
  have frozen := layout_frozen (reachable_hollow.act none .openCursor) busy
  refine ⟨by decide +kernel, by decide +kernel, fun event member => ?_⟩
  obtain ⟨thinned, -, nothing⟩ := frozen event member
  have capacity : t.capacity = 8 := by decide +kernel
  have slots : (t.directory.bucketAt 1).length = 2 := by decide +kernel
  exact ⟨thinned, thinned.capacity.trans capacity, (thinned.slots 1).trans slots, nothing⟩

end Table

end ChainTable
