import ChainTable.Proofs.Hysteresis

/-! # What one call writes to the log

A call writes one record at most (`Reports`): that of the resize it has made or failed to
make, that of the shrink it has put off, or that of the cursor it has opened or closed.  A
resize, done or failed, asks for its buckets before all else, so the reservations of a call tell
whether it has tried one.  Of the removals that put off a shrink those by key say so; one
through a cursor, which never tries a shrink, leaves no record of it.

How a record reads in the log, its level and its words, is said once for all kinds
(`Record.Reads`).
-/

namespace ChainTable

variable {K V : Type}

/-- The level and the text of each kind of record, with the numbers in decimal.  A failed resize
repeats the message of the error that it ends in. -/
inductive Record.Reads : Record → Level → String → Prop where
  | resized (before after entries : Nat) :
      Reads (.resized before after entries) .debug
        s!"resized hash table from {before} to {after} buckets ({entries} entries)"
  | resizeFailed (before after : Nat) (purpose : Purpose) (amount : Nat) :
      Reads (.resizeFailed before after ⟨purpose, amount⟩) .warn
        (s!"failed to resize hash table from {before} to {after} buckets: " ++
          s!"cannot allocate {purpose.name}: {amount} more element(s) requested")
  | shrinkPostponed (live size n : Nat) :
      Reads (.shrinkPostponed live size n) .debug
        s!"shrink of hash table postponed: {live} cursor(s) open ({size} entries, {n} buckets)"
  | cursorOpened (live : Nat) : Reads (.cursorOpened live) .trace s!"cursor opened; {live} live"
  | cursorClosed (live : Nat) : Reads (.cursorClosed live) .trace s!"cursor closed; {live} live"

theorem Record.reads (record : Record) : record.Reads record.level record.text := by
  cases record with
  | resized before after entries => exact .resized before after entries
  | resizeFailed before after refused =>
    obtain ⟨purpose, amount⟩ := refused
    exact .resizeFailed before after purpose amount
  | shrinkPostponed live size n => exact .shrinkPostponed live size n
  | cursorOpened live => exact .cursorOpened live
  | cursorClosed live => exact .cursorClosed live

def Event.reply (keying : Keying K) (event : Event K V) : Reply (Answer K V) :=
  (event.before.act keying event.call.allowance event.call.action).1

namespace Directory

variable {capacity n : Nat} {entries : List (Entry K V)}

theorem mem_reservations_buckets :
    (⟨.buckets, n⟩ : Reservation) ∈ reservations capacity entries ↔ n = capacity := by
  simp [reservations]

theorem mem_refused_buckets {allowance : Option Nat} {r : Reservation} {asked : List Reservation}
    (refused : Refuses allowance (reservations capacity entries) r asked) :
    ⟨.buckets, n⟩ ∈ asked ↔ n = capacity := by
  obtain ⟨m, -, -, rfl⟩ := refused
  constructor
  · intro member
    exact mem_reservations_buckets.mp (List.mem_of_mem_take member)
  · intro same
    simp [same, reservations]

end Directory

namespace Table

variable {keying : Keying K} {allowance : Option Nat} {t t' : Table K V} {action : Action K V}
  {reply : Reply (Answer K V)} {answer : Except Fault (Answer K V)} {asked : List Reservation}

/-! ## One record at most -/

/-- The number of entries that a resize between two tables has moved: an entry comes in behind
a growth, and goes before a shrink. -/
def carried (t t' : Table K V) : Nat :=
  if t.capacity < t'.capacity then t.directory.occupied else t'.directory.occupied

/-- What a call can report, by its reservations and the tables before and after it. -/
inductive Reports (t : Table K V) (reply : Reply (Answer K V)) (t' : Table K V) : Prop where
  | nothing (log : reply.log = []) (unasked : ∀ n, ⟨.buckets, n⟩ ∉ reply.reservations)
      (capacity : t'.capacity = t.capacity) (live : t'.liveCursors = t.liveCursors)
  | resized (log : reply.log = [.resized t.capacity t'.capacity (t.carried t')])
      (asked : ∀ n, ⟨.buckets, n⟩ ∈ reply.reservations ↔ n = t'.capacity)
      (differs : t'.capacity ≠ t.capacity)
      (capacity : t'.capacity = t.capacity * 2 ∨ t'.capacity * 2 = t.capacity)
      (live : t'.liveCursors = t.liveCursors)
  | resizeFailed {target r} (log : reply.log = [.resizeFailed t.capacity target r])
      (answer : reply.answer = .error (.refused r))
      (asked : ∀ n, ⟨.buckets, n⟩ ∈ reply.reservations ↔ n = target)
      (differs : target ≠ t.capacity) (same : t' = t)
  | shrinkPostponed (log : reply.log = [.shrinkPostponed t'.liveCursors t'.size t'.capacity])
      (unasked : ∀ n, ⟨.buckets, n⟩ ∉ reply.reservations)
      (capacity : t'.capacity = t.capacity) (live : t'.liveCursors = t.liveCursors)
  | opened (log : reply.log = [.cursorOpened t'.liveCursors])
      (unasked : ∀ n, ⟨.buckets, n⟩ ∉ reply.reservations)
      (capacity : t'.capacity = t.capacity) (live : t'.liveCursors = t.liveCursors + 1)
  | closed (log : reply.log = [.cursorClosed t'.liveCursors])
      (unasked : ∀ n, ⟨.buckets, n⟩ ∉ reply.reservations)
      (capacity : t'.capacity = t.capacity) (live : t'.liveCursors + 1 = t.liveCursors)

theorem reports_nothing (capacity : t'.capacity = t.capacity)
    (live : t'.liveCursors = t.liveCursors) : t.Reports ⟨answer, [], []⟩ t' :=
  .nothing rfl (fun _ => List.not_mem_nil) capacity live

theorem notMem_berthing {key : K} (asks : ∀ r ∈ asked, r ∈ t.berthing keying key) (n : Nat) :
    (⟨.buckets, n⟩ : Reservation) ∉ asked := by
  intro member
  have single := eq_of_mem_berthing (asks _ member)
  simp at single

/-- The growth of an insertion, with what else the insertion asks for. -/
theorem Sound.reports_of_roomy (sound : t.Sound keying)
    (capacity : t'.capacity = t.roomy.capacity) (cursors : t'.cursors = t.cursors)
    (others : ∀ n, (⟨.buckets, n⟩ : Reservation) ∉ asked) :
    t.Reports ⟨answer, t.growth ++ asked, t.growthRecords⟩ t' := by
  have live := liveCursors_congr cursors
  have positive := sound.capacity_pos
  cases full : t.isFull with
  | false =>
    rw [roomy_of_room full] at capacity
    refine .nothing ?_ (fun n => ?_) capacity live
    · simp [growthRecords, full]
    · simpa [growth, full] using others n
  | true =>
    rw [roomy_of_full full, capacity_rehashed] at capacity
    have moves : t.carried t' = t.size := by
      rw [carried, if_pos (by omega), sound.size_eq]
    refine .resized ?_ (fun n => ?_) (by omega) (.inl capacity) live
    · simp [growthRecords, full, capacity, moves]
    · simp [growth, full, capacity, others n, Directory.mem_reservations_buckets]

/-- The shrink that follows a removal, be it done or postponed. -/
theorem Sound.reports_of_slimmed (sound : t'.Sound keying) (capacity : t'.capacity = t.capacity)
    (cursors : t'.cursors = t.cursors) :
    t.Reports ⟨answer, t'.shrinkage, t'.shrinkageRecords⟩ t'.slimmed := by
  have live := liveCursors_congr ((cursors_slimmed t').trans cursors)
  cases sparse : t'.isSparse with
  | false =>
    have kept : t'.slimmed = t' := by simp [Table.slimmed, sparse]
    refine .nothing ?_ (fun n => ?_) (by rw [kept, capacity]) live
    · simp [shrinkageRecords, sparse]
    · simp [shrinkage, sparse]
  | true =>
    cases quiet : t'.isQuiet with
    | false =>
      have kept : t'.slimmed = t' := slimmed_of_busy quiet
      refine .shrinkPostponed ?_ (fun n => ?_) (by rw [kept, capacity]) live
      · simp [shrinkageRecords, sparse, quiet, kept]
      · simp [shrinkage, quiet]
    | true =>
      have halved : t'.slimmed.capacity = t'.capacity / 2 := by simp [Table.slimmed, sparse, quiet]
      have even : 2 ∣ t'.capacity := Nat.dvd_trans (by decide) sound.dvd_capacity
      have positive := sound.capacity_pos
      have moves : t.carried t'.slimmed = t'.size := by
        rw [carried, if_neg (by omega), ← sound.slimmed.size_eq, size_slimmed]
      refine .resized ?_ (fun n => ?_) (by omega) (.inr (by omega)) live
      · simp [shrinkageRecords, sparse, quiet, halved, moves, capacity]
      · simp [shrinkage, sparse, quiet, halved, Directory.mem_reservations_buckets]

theorem Effect.reports (sound : t.Sound keying)
    (effect : Effect keying allowance t action reply t') : t.Reports reply t' := by
  have positive := sound.capacity_pos
  cases effect with
  | whileOpen | notOpen | takenNone | read | modifiedNone | currentSetNone
  | currentRemovedNone => exact reports_nothing rfl rfl
  | exchanged | modified | currentSet => exact reports_nothing (capacity_rewritten _ _ _) rfl
  | cleared => exact reports_nothing (capacity_cleared t) rfl
  | currentRemoved => exact reports_nothing (capacity_without _ _) rfl
  | revised =>
    exact reports_nothing (capacity_swept _ _ _ _) (liveCursors_congr (cursors_swept _ _ _ _))
  | advanced standing | advancedEnd standing =>
    exact reports_nothing rfl (Registry.live_moved standing _)
  | opened =>
    exact .opened rfl (fun _ => List.not_mem_nil) rfl (Registry.live_opened sound.registered)
  | closed standing =>
    exact .closed rfl (fun _ => List.not_mem_nil) rfl (Registry.live_closed standing)
  | growthRefused _ _ refused =>
    unfold growth at refused
    split at refused
    case isTrue =>
      exact .resizeFailed rfl rfl (fun n => Directory.mem_refused_buckets refused) (by omega) rfl
    case isFalse => cases refused.mem
  | shrinkRefused _ _ _ _ refused =>
    unfold shrinkage at refused
    split at refused
    case isTrue =>
      rw [capacity_without] at refused
      exact .resizeFailed rfl rfl (fun n => Directory.mem_refused_buckets refused) (by omega) rfl
    case isFalse => cases refused.mem
  | slotRefused _ _ _ _ refused =>
    obtain ⟨n, -, -, rfl⟩ := refused
    exact sound.reports_of_roomy rfl (cursors_roomy t)
      (notMem_berthing fun r => List.mem_of_mem_take)
  | inserted | exchangedFresh =>
    exact sound.reports_of_roomy (capacity_stored _ _) (cursors_roomy t)
      (notMem_berthing fun r => id)
  | updated =>
    rw [← List.append_nil t.growth]
    exact sound.reports_of_roomy (capacity_rewritten _ _ _) (cursors_roomy t)
      fun _ => List.not_mem_nil
  | taken _ _ live => exact (sound.without live).reports_of_slimmed (capacity_without _ _) rfl

/-! ## Shrinks that are put off -/

/-- The record of a shrink that is due but for the open cursors, if it is. -/
def postponement (t : Table K V) : List Record :=
  if t.isSparse then [.shrinkPostponed t.liveCursors t.size t.capacity] else []

theorem eq_of_mem_postponement {record : Record} (member : record ∈ t.postponement) :
    record = .shrinkPostponed t.liveCursors t.size t.capacity := by
  unfold postponement at member
  split at member
  case isTrue => exact List.mem_singleton.mp member
  case isFalse => cases member

variable {request : Request K V} {key : K} {answers : Option (K × V) → Answer K V}

/-- A removal by key that meets an open cursor reports the shrink that is then due. -/
theorem Effect.log_take (busy : t.isQuiet = false) (takes : Takes request key answers)
    {pair : K × V} (effect : Effect keying allowance t (.ask request) reply t')
    (taken : reply.answer = .ok (answers (some pair))) : reply.log = t'.postponement := by
  cases effect.taking takes with
  | @taken loc =>
    have still : (t.without loc).isQuiet = false := busy
    rw [slimmed_of_busy still]
    simp [shrinkageRecords, postponement, still]
  | absent => cases takes <;> cases taken
  | refused => cases taken

theorem Effect.log_removeCurrent {c : Cursor}
    (effect : Effect keying allowance t (.steer c .removeCurrent) reply t') : reply.log = [] := by
  cases effect <;> rfl

/-- A removal by key while cursors are open writes exactly the record of the shrink that is due
then, if one is, at the debug level and in the words of such a record.  A removal through a
cursor writes nothing, so it reports what it should only where no shrink is due. -/
theorem postponed_shrinks (reachable : t.Reachable keying) (busy : 0 < t.liveCursors)
    (allowance : Option Nat) :
    (∀ request key answers pair, Takes request key answers →
        let event := t.event keying ⟨allowance, .ask request⟩
        event.answer = .ok (answers (some pair)) →
        (event.reply keying).log = event.after.postponement ∧
          ∀ record ∈ (event.reply keying).log, record.Reads .debug record.text) ∧
      ∀ c pair,
        let event := t.event keying ⟨allowance, .steer c .removeCurrent⟩
        event.answer = .ok (.pair (some pair)) →
        (event.reply keying).log = [] ∧
          ((event.reply keying).log = event.after.postponement ↔
            event.after.isSparse = false) := by
  have sound := reachable.sound
  constructor
  · intro request key answers pair takes event taken
    have reported : (event.reply keying).log = event.after.postponement :=
      (effect_act sound allowance (.ask request)).log_take (isQuiet_eq_false_iff.mpr busy)
        takes taken
    refine ⟨reported, fun record member => ?_⟩
    rw [reported] at member
    have due := eq_of_mem_postponement member
    subst due
    exact Record.reads _
  · intro c pair event _
    have silent : (event.reply keying).log = [] :=
      (effect_act sound allowance (.steer c .removeCurrent)).log_removeCurrent
    refine ⟨silent, ?_⟩
    rw [silent, postponement]
    cases event.after.isSparse <;> simp

/-- Three entries in eight buckets, with a cursor on the first of them. -/
def visited : Table Nat Nat :=
  hollow.afterAll Session.lastDigit [⟨none, .openCursor⟩, ⟨none, .steer ⟨1, 1, 1⟩ .advance⟩]

theorem reachable_visited : visited.Reachable Session.lastDigit := reachable_hollow.afterAll _

theorem postponed_shrinks_visited :
    let byKey := visited.event Session.lastDigit ⟨none, .ask (.remove 12)⟩
    let through := visited.event Session.lastDigit ⟨none, .steer ⟨1, 1, 1⟩ .removeCurrent⟩
    byKey.after.size = 2 ∧ (byKey.reply Session.lastDigit).log = [.shrinkPostponed 1 2 8] ∧
      (Record.shrinkPostponed 1 2 8).Reads .debug
        "shrink of hash table postponed: 1 cursor(s) open (2 entries, 8 buckets)" ∧
      through.after.size = 2 ∧ (through.reply Session.lastDigit).log = [] := by
  intro byKey through
  obtain ⟨keyed, current⟩ := postponed_shrinks reachable_visited (by decide +kernel) none
  obtain ⟨reported, worded⟩ := keyed (.remove 12) 12 _ (2, 20) (.remove 12) (by decide +kernel)
  have unreported := current ⟨1, 1, 1⟩ (9, 90) (by decide +kernel)
  have due : (byKey.reply Session.lastDigit).log = [.shrinkPostponed 1 2 8] :=
    reported.trans (by decide +kernel)
  have words := worded (.shrinkPostponed 1 2 8) (due ▸ List.mem_singleton_self _)
  exact ⟨by decide +kernel, due, words, by decide +kernel, unreported.1⟩

/-- The removal through the cursor leaves two entries in eight buckets and no record of it. -/
theorem unreported_shrink :
    let event := visited.event Session.lastDigit ⟨none, .steer ⟨1, 1, 1⟩ .removeCurrent⟩
    visited.Reachable Session.lastDigit ∧ 0 < visited.liveCursors ∧
      event.answer = .ok (.pair (some (9, 90))) ∧
      event.after.postponement = [.shrinkPostponed 1 2 8] ∧
      (event.reply Session.lastDigit).log ≠ event.after.postponement := by
  intro event
  refine ⟨reachable_visited, ?_⟩
  decide +kernel

end Table

end ChainTable
