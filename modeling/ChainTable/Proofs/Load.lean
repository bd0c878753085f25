import ChainTable.Proofs.Refusal
import Mathlib.Algebra.GroupWithZero.Nat

/-! # The load of a table

A table grows when an entry comes into as many buckets as entries, and is halved when a
removal leaves a quarter of them at most.  So it is tight (`Table.Tight`) unless entries go
that no shrink may follow: under an open cursor, or by a clear.  Such a backlog is worked
off by the removals that come later, each of which halves the table until it is tight.
All of this is read off one list of what a call can do to the two numbers
(`Event.LoadChange`).
-/

namespace ChainTable

variable {K V : Type}

/-! ## What comes in and what goes -/

namespace Event

/-- The number of entries that a call has stored anew, by its answer. -/
def entered (event : Event K V) : Nat :=
  match event.call.action, event.answer with
  | .ask (.insert ..), .ok (.outcome .inserted) => 1
  | .ask (.exchange ..), .ok (.pair none) => 1
  | _, _ => 0

/-- The number of entries that a call has taken out, by its answer. -/
def departed (event : Event K V) : Nat :=
  match event.call.action, event.answer with
  | .ask (.remove _), .ok (.flag true) => 1
  | .ask (.extract _), .ok (.pair (some _)) => 1
  | .steer _ .removeCurrent, .ok (.pair (some _)) => 1
  | .ask .clear, .ok _ => event.before.size
  | _, _ => 0

variable {event : Event K V} {fault : Fault}

theorem entered_of_error (stopped : event.answer = .error fault) : event.entered = 0 := by
  unfold entered
  split <;> simp_all

theorem departed_of_error (stopped : event.answer = .error fault) : event.departed = 0 := by
  unfold departed
  split <;> simp_all

end Event

/-- The number of entries that some calls have stored anew. -/
def arrivals (events : List (Event K V)) : Nat := (events.map Event.entered).sum

/-- The number of entries that some calls have taken out. -/
def departures (events : List (Event K V)) : Nat := (events.map Event.departed).sum

/-! ## One call -/

/-- At the least capacity, or with more entries than a quarter of the buckets. -/
def Table.Tight (t : Table K V) : Prop :=
  t.capacity = leastCapacity ∨ t.capacity < 4 * t.size

instance (t : Table K V) : Decidable t.Tight := inferInstanceAs (Decidable (_ ∨ _))

/-- The calls that take entries out of a table which must not shrink then. -/
inductive Table.Loosens (t : Table K V) : Action K V → Prop where
  | clear : Loosens t (.ask .clear)
  | take {request key answer} (takes : Takes request key answer) (busy : t.isQuiet = false) :
      Loosens t (.ask request)
  | removeCurrent (c : Cursor) (busy : t.isQuiet = false) : Loosens t (.steer c .removeCurrent)

/-- What a call can do to the number of entries and the number of buckets. -/
inductive Event.LoadChange (event : Event K V) : Prop where
  | steady (capacity : event.after.capacity = event.before.capacity)
      (size : event.after.size + event.departed = event.before.size + event.entered)
      (dense : event.departed ≠ 0 → event.after.Tight ∨ event.before.Loosens event.call.action)
  -- The entry for which the table has grown may be missing after all.
  | grown (capacity : event.after.capacity = event.before.capacity * 2)
      (full : event.before.size = event.before.capacity)
      (size : event.after.size = event.before.size + event.entered)
      (noneLeft : event.departed = 0)
  | shrunk (capacity : event.after.capacity * 2 = event.before.capacity)
      (sparse : event.after.size * 4 ≤ event.before.capacity)
      (size : event.after.size + 1 = event.before.size)
      (oneLeft : event.departed = 1) (noneCame : event.entered = 0)

namespace Table

variable {keying : Keying K} {allowance : Option Nat} {t t' : Table K V} {action : Action K V}
  {reply : Reply (Answer K V)} {call : Invocation K V} {calls : List (Invocation K V)}
  {answer : Except Fault (Answer K V)}

theorem loadChange_of_kept (capacity : t'.capacity = t.capacity) (size : t'.size = t.size)
    (noneCame : Event.entered ⟨t, call, answer, t'⟩ = 0)
    (noneLeft : Event.departed ⟨t, call, answer, t'⟩ = 0) :
    Event.LoadChange ⟨t, call, answer, t'⟩ := by
  refine .steady capacity ?_ fun left => absurd noneLeft left
  rw [noneCame, noneLeft, size]

theorem loadChange_of_error (fault : Fault) :
    Event.LoadChange ⟨t, call, .error fault, t⟩ :=
  loadChange_of_kept rfl rfl (Event.entered_of_error rfl) (Event.departed_of_error rfl)

theorem Sound.loadChange_of_roomy (sound : t.Sound keying)
    (capacity : t'.capacity = t.roomy.capacity)
    (size : t'.size = t.size + Event.entered ⟨t, call, answer, t'⟩)
    (noneLeft : Event.departed ⟨t, call, answer, t'⟩ = 0) :
    Event.LoadChange ⟨t, call, answer, t'⟩ := by
  cases full : t.isFull with
  | false =>
    rw [roomy_of_room full] at capacity
    exact .steady capacity (by rw [noneLeft, size, Nat.add_zero]) fun left => absurd noneLeft left
  | true =>
    rw [roomy_of_full full, capacity_rehashed] at capacity
    have reached : t.size = t.capacity := by
      have bound := sound.size_le
      have least : t.capacity ≤ t.size := of_decide_eq_true full
      omega
    exact .grown capacity reached size noneLeft

theorem Counted.dvd_capacity (counted : t.Counted) : leastCapacity ∣ t.capacity := by
  obtain ⟨k, capacity⟩ := counted.capacity_eq
  exact ⟨2 ^ k, capacity⟩

theorem Counted.tight_iff (counted : t.Counted) : t.Tight ↔ t.isSparse = false := by
  have least := counted.least_le
  rw [Bool.eq_false_iff, ne_eq, isSparse_iff, Tight]
  omega

/-- A removal halves the table, or leaves it tight, or meets an open cursor. -/
theorem Sound.loadChange_of_taken (sound : t.Sound keying) {loc : Location} {e : Entry K V}
    (live : t.entryAt? loc = some e) (loosens : t.isQuiet = false → t.Loosens call.action)
    (noneCame : Event.entered ⟨t, call, answer, (t.without loc).slimmed⟩ = 0)
    (oneLeft : Event.departed ⟨t, call, answer, (t.without loc).slimmed⟩ = 1) :
    Event.LoadChange ⟨t, call, answer, (t.without loc).slimmed⟩ := by
  have left := sound.toCounted.without live
  have positive := sound.size_pos live
  have size : (t.without loc).slimmed.size + 1 = t.size := by
    rw [size_slimmed, size_without]
    omega
  cases due : (t.without loc).isSparse && (t.without loc).isQuiet with
  | true =>
    have halved : (t.without loc).slimmed = (t.without loc).rehashed (t.capacity / 2) := by
      rw [Table.slimmed, if_pos due, capacity_without]
    have sparse := (isSparse_iff.mp (Bool.and_eq_true_iff.mp due).1).2
    rw [capacity_without] at sparse
    refine .shrunk ?_ ?_ size oneLeft noneCame
    · have even : 2 ∣ t.capacity := Nat.dvd_trans (by decide) sound.dvd_capacity
      simp only [halved, capacity_rehashed]
      omega
    · rw [size_slimmed]
      exact sparse
  | false =>
    have same : (t.without loc).slimmed = t.without loc := if_neg (by simp [due])
    refine .steady (by rw [same, capacity_without]) ?_ fun _ => ?_
    · rw [oneLeft, noneCame]
      exact size
    -- The table is not halved because it is dense enough, or because a cursor is open.
    · rcases Bool.and_eq_false_iff.mp due with dense | busy
      · rw [same]
        exact .inl (left.tight_iff.mpr dense)
      · exact .inr (loosens busy)

/-- Every way to end is a change of the load. -/
theorem Effect.loadChange (sound : t.Sound keying)
    (effect : Effect keying allowance t action reply t') :
    Event.LoadChange ⟨t, ⟨allowance, action⟩, reply.answer, t'⟩ := by
  cases effect with
  | whileOpen | notOpen | growthRefused | shrinkRefused => exact loadChange_of_error _
  | slotRefused =>
    refine sound.loadChange_of_roomy rfl ?_ (Event.departed_of_error rfl)
    rw [Event.entered_of_error rfl, size_roomy, Nat.add_zero]
  | inserted | exchangedFresh =>
    refine sound.loadChange_of_roomy (capacity_stored _ _) ?_ rfl
    rw [size_stored, size_roomy]
    rfl
  | updated => exact sound.loadChange_of_roomy (capacity_rewritten _ _ _) (size_roomy t) rfl
  | takenNone takes => cases takes <;> exact loadChange_of_kept rfl rfl rfl rfl
  | taken takes located live =>
    refine sound.loadChange_of_taken live (fun busy => .take takes busy) ?_ ?_
    all_goals cases takes <;> rfl
  | read reads => cases reads <;> exact loadChange_of_kept rfl rfl rfl rfl
  | exchanged | modified | currentSet =>
    exact loadChange_of_kept (capacity_rewritten _ _ _) rfl rfl rfl
  | modifiedNone | currentSetNone | currentRemovedNone | opened | closed | advanced
  | advancedEnd => exact loadChange_of_kept rfl rfl rfl rfl
  | cleared => exact .steady (capacity_cleared t) (Nat.zero_add _) fun _ => .inr .clear
  | revised => exact loadChange_of_kept (capacity_swept _ _ _ _) (size_swept _ _ _ _) rfl rfl
  | @currentRemoved c position loc e standing under =>
    have positive := sound.size_pos (entryUnder_eq_some.mp under).2
    have busy : t.isQuiet = false :=
      isQuiet_eq_false_iff.mpr (Registry.live_pos standing)
    refine .steady (capacity_without t loc) ?_ fun _ => .inr (.removeCurrent c busy)
    exact Nat.sub_add_cancel positive

theorem Sound.loadChange (sound : t.Sound keying) (call : Invocation K V) :
    (t.event keying call).LoadChange :=
  (effect_act sound call.allowance call.action).loadChange sound

/-! ## Tight tables -/

theorem tight_new (owner : Nat) : (new owner : Table K V).Tight := .inl (capacity_new owner)

theorem tight_of_grown {event : Event K V} (positive : 0 < event.before.capacity)
    (capacity : event.after.capacity = event.before.capacity * 2)
    (full : event.before.size = event.before.capacity)
    (size : event.after.size = event.before.size + event.entered) : event.after.Tight := by
  unfold Tight
  omega

theorem tight_of_loadChange {event : Event K V} (change : event.LoadChange)
    (former : event.before.Counted) (latter : event.after.Counted) (tight : event.before.Tight)
    (firm : ¬ event.before.Loosens event.call.action) : event.after.Tight := by
  have least := latter.least_le
  -- The capacity is a multiple of four, so the shrink sets in at exactly a quarter of it.
  have quarters := former.dvd_capacity
  unfold leastCapacity at least quarters
  cases change with
  | steady capacity size dense =>
    by_cases left : event.departed = 0
    · unfold Tight at *
      omega
    · exact (dense left).resolve_right firm
  | grown capacity full size => exact tight_of_grown former.capacity_pos capacity full size
  | shrunk capacity sparse size =>
    unfold Tight leastCapacity at *
    omega

theorem Sound.tight_event (sound : t.Sound keying) (tight : t.Tight)
    (firm : ¬ t.Loosens call.action) : (t.event keying call).after.Tight := by
  have sound' := sound.act call.allowance call.action
  exact tight_of_loadChange (sound.loadChange call) sound.toCounted sound'.toCounted tight firm

theorem Sound.tight_history (sound : t.Sound keying) (tight : t.Tight)
    (firm : ∀ event ∈ t.history keying calls, ¬ event.before.Loosens event.call.action) :
    ∀ event ∈ t.history keying calls,
      event.after.size ≤ event.after.capacity ∧ event.after.Tight := by
  induction calls generalizing t with
  | nil =>
    intro event member
    cases member
  | cons call rest ih =>
    obtain ⟨first, others⟩ := List.forall_mem_cons.mp firm
    have sound' : (t.event keying call).after.Sound keying := sound.act call.allowance call.action
    have tight' := sound.tight_event tight first
    intro event member
    cases member with
    | head => exact ⟨sound'.size_le, tight'⟩
    | tail _ member => exact ih sound' tight' others event member

/-! ## Working off a backlog -/

theorem liveCursors_congr (same : t'.cursors = t.cursors) : t'.liveCursors = t.liveCursors := by
  rw [liveCursors, same, liveCursors]

theorem isQuiet_congr (same : t'.cursors = t.cursors) : t'.isQuiet = t.isQuiet := by
  rw [isQuiet, liveCursors_congr same, isQuiet]

theorem Effect.quiet (quiet : t.isQuiet = true)
    (effect : Effect keying allowance t action reply t') (still : action ≠ .openCursor) :
    t'.isQuiet = true := by
  cases effect with
  | opened => exact absurd rfl still
  | closed standing | advanced standing | advancedEnd standing | currentSet standing
  | currentRemoved standing =>
    exact absurd standing (Registry.standing_ne_ok (live_eq_zero quiet) _ _)
  | whileOpen | notOpen | growthRefused | takenNone | shrinkRefused | read | modifiedNone
  | currentSetNone | currentRemovedNone => exact quiet
  | slotRefused | inserted | updated | exchangedFresh | exchanged | taken | modified | cleared
  | revised =>
    rw [← quiet]
    exact isQuiet_congr (by simp)

theorem not_loosens (quiet : t.isQuiet = true) (kept : action ≠ .ask .clear) :
    ¬ t.Loosens action := by
  intro loosens
  cases loosens with
  | clear => exact kept rfl
  | take _ busy | removeCurrent _ busy =>
    rw [quiet] at busy
    cases busy

/-- Where no cursor is open a removal leaves the table tight, or with half the buckets. -/
theorem Sound.tight_or_halved (sound : t.Sound keying) (quiet : t.isQuiet = true)
    (left : (t.event keying call).departed ≠ 0) (kept : call.action ≠ .ask .clear) :
    (t.event keying call).after.Tight ∨
      (t.event keying call).after.capacity * 2 = t.capacity := by
  cases sound.loadChange call with
  | steady _ _ dense => exact .inl ((dense left).resolve_right (not_loosens quiet kept))
  | grown _ _ _ noneLeft => exact absurd noneLeft left
  | shrunk capacity => exact .inr capacity

/-- A table that is not tight keeps its capacity, halved by each entry that goes, until it
is tight. -/
theorem Sound.tight_or_le_event (sound : t.Sound keying) (quiet : t.isQuiet = true)
    (kept : call.action ≠ .ask .clear) {bound n : Nat}
    (start : t.Tight ∨ t.capacity * 2 ^ n ≤ bound) :
    (t.event keying call).after.Tight ∨
      (t.event keying call).after.capacity * 2 ^ (n + (t.event keying call).departed) ≤
        bound := by
  have firm := not_loosens quiet kept
  rcases start with tight | within
  · exact .inl (sound.tight_event tight firm)
  · cases sound.loadChange call with
    | steady capacity size dense =>
      by_cases left : (t.event keying call).departed = 0
      · rw [left, capacity]
        exact .inr within
      · exact .inl ((dense left).resolve_right firm)
    | grown capacity full size =>
      exact .inl (tight_of_grown sound.capacity_pos capacity full size)
    | shrunk capacity sparse size oneLeft =>
      right
      calc (t.event keying call).after.capacity * 2 ^ (n + (t.event keying call).departed)
          = (t.event keying call).after.capacity * 2 * 2 ^ n := by
            rw [oneLeft, Nat.pow_succ', Nat.mul_assoc]
        _ = t.capacity * 2 ^ n := by rw [capacity]; rfl
        _ ≤ bound := within

theorem Sound.tight_or_le (sound : t.Sound keying) (quiet : t.isQuiet = true)
    (still : ∀ call ∈ calls, call.action ≠ .openCursor ∧ call.action ≠ .ask .clear)
    {bound n : Nat} (start : t.Tight ∨ t.capacity * 2 ^ n ≤ bound) :
    (t.afterAll keying calls).Tight ∨
      (t.afterAll keying calls).capacity * 2 ^ (n + departures (t.history keying calls)) ≤
        bound := by
  induction calls generalizing t n with
  | nil => exact start
  | cons call rest ih =>
    obtain ⟨⟨unopened, kept⟩, others⟩ := List.forall_mem_cons.mp still
    have effect := effect_act sound call.allowance call.action
    have quiet' : (t.event keying call).after.isQuiet = true := effect.quiet quiet unopened
    have next := sound.tight_or_le_event quiet kept start
    have ended := ih (sound.effect effect) quiet' others next
    rw [Nat.add_assoc] at ended
    exact ended

/-- As many removals as the capacity can be halved leave a tight table. -/
theorem Reachable.tight_of_departures (reachable : t.Reachable keying)
    (quiet : t.isQuiet = true)
    (still : ∀ call ∈ calls, call.action ≠ .openCursor ∧ call.action ≠ .ask .clear)
    (enough : Nat.log2 (t.capacity / leastCapacity) ≤ departures (t.history keying calls)) :
    (t.afterAll keying calls).Tight := by
  have sound := reachable.sound
  obtain ⟨k, capacity⟩ := sound.capacity_eq
  rw [capacity, Nat.mul_div_cancel_left _ (by decide), Nat.log2_two_pow] at enough
  rcases sound.tight_or_le quiet still (n := 0) (.inr (Nat.le_of_eq (Nat.mul_one _))) with
    tight | within
  · exact tight
  · rw [Nat.zero_add, capacity] at within
    have least := (reachable.afterAll calls).sound.least_le
    have shorter : (t.afterAll keying calls).capacity * 2 ^ k ≤ leastCapacity * 2 ^ k :=
      Nat.le_trans (Nat.mul_le_mul_left _ (Nat.pow_le_pow_right (by decide) enough)) within
    exact .inl (Nat.le_antisymm (Nat.le_of_mul_le_mul_right shorter (Nat.two_pow_pos k)) least)

/-- A new table is tight, and a call leaves a tight table tight unless it takes entries out
where no shrink may follow, whether or not it gets its storage.  Of a table without open
cursors, tight or not, a removal leaves one that is tight or has half the buckets, so as many
removals as the capacity can be halved leave a tight one. -/
theorem load_discipline (keying : Keying K) :
    (∀ owner, (new owner : Table K V).Tight) ∧
      (∀ (t : Table K V) call, t.Reachable keying → t.Tight → ¬ t.Loosens call.action →
        (t.event keying call).after.Tight) ∧
      (∀ owner (calls : List (Invocation K V)),
        (∀ event ∈ (new owner).history keying calls,
          ¬ event.before.Loosens event.call.action) →
        ∀ event ∈ (new owner).history keying calls,
          event.after.size ≤ event.after.capacity ∧ event.after.Tight) ∧
      (∀ (t t' : Table K V) allowance request key answer pair reply, t.Reachable keying →
        t.isQuiet = true → Takes request key answer →
        t.act keying allowance (.ask request) = (reply, t') →
        reply.answer = .ok (answer (some pair)) →
        t'.Tight ∨ t'.capacity * 2 = t.capacity ∧ leastCapacity ≤ t'.capacity) ∧
      (∀ (t : Table K V) calls, t.Reachable keying → t.isQuiet = true →
        (∀ call ∈ calls, call.action ≠ .openCursor ∧ call.action ≠ .ask .clear) →
        Nat.log2 (t.capacity / leastCapacity) ≤ departures (t.history keying calls) →
        (t.afterAll keying calls).Tight) := by
  refine ⟨tight_new, fun t call reachable tight firm => ?_, fun owner calls firm => ?_,
    fun t t' allowance request key answer pair reply reachable quiet takes ended taken => ?_,
    fun t calls reachable quiet still enough =>
      reachable.tight_of_departures quiet still enough⟩
  · exact reachable.sound.tight_event tight firm
  · exact (sound_new keying owner).tight_history (tight_new owner) firm
  · have left : (t.event keying ⟨allowance, .ask request⟩).departed ≠ 0 := by
      simp only [event, ended, taken]
      cases takes <;> exact Nat.one_ne_zero
    have kept : (.ask request : Action K V) ≠ .ask .clear := by
      cases takes <;> nofun
    have halved := reachable.sound.tight_or_halved quiet left kept
    have sound' := reachable.sound.act allowance (.ask request)
    simp only [event, ended] at halved sound'
    exact halved.imp_right fun capacity => ⟨capacity, sound'.least_le⟩

/-- Three entries in sixteen buckets, left by removals under a cursor. -/
def backlog : Table Nat Nat :=
  ⟨#[[], [none], [none], [none], [none], [none], [none], [some ⟨7, 70, 7⟩], [some ⟨8, 80, 8⟩],
      [some ⟨9, 90, 9⟩], [], [], [], [], [], []], 3, ⟨1, [⟨1, none⟩], [0]⟩⟩

theorem reachable_backlog : backlog.Reachable Session.lastDigit := by
  have left : (new 1 : Table Nat Nat).afterAll Session.lastDigit
      ([1, 2, 3, 4, 5, 6, 7, 8, 9].map (fun n => ⟨none, .ask (.insert n (10 * n))⟩) ++
        ⟨none, .openCursor⟩ :: [1, 2, 3, 4, 5, 6].map (fun n => ⟨none, .ask (.remove n)⟩) ++
        [⟨none, .closeCursor ⟨1, 1, 1⟩⟩]) = backlog := by decide +kernel
  rw [← left]
  exact (Reachable.new 1).afterAll _

/-- An insertion that only grows the table, and two removals that work off a backlog. -/
theorem load_discipline_backlog :
    let growth : Event Nat Nat := crowded.event Session.lastDigit ⟨some 6, .ask (.insert 9 90)⟩
    let removal (n : Nat) : Invocation Nat Nat := ⟨none, .ask (.remove n)⟩
    let first := backlog.afterAll Session.lastDigit [removal 9]
    let second := backlog.afterAll Session.lastDigit [removal 9, removal 7]
    growth.after.Tight ∧ growth.after.size = 4 ∧ growth.after.capacity = 8 ∧
      (∀ event ∈ (new 1).history Session.lastDigit [⟨none, .ask (.insert 1 10)⟩, removal 1],
        event.after.size ≤ event.after.capacity ∧ event.after.Tight) ∧
      ¬ backlog.Tight ∧ ¬ first.Tight ∧ first.capacity * 2 = backlog.capacity ∧
      second.Tight ∧ second.capacity = 4 := by
  intro growth removal first second
  obtain ⟨-, step, run, once, all⟩ := load_discipline (V := Nat) Session.lastDigit
  have loose : ¬ first.Tight := by decide +kernel
  have removed : (backlog.act Session.lastDigit none (.ask (.remove 9))).1.answer =
      .ok (.flag true) := by decide +kernel
  have halved := once backlog first none (.remove 9) 9 _ (9, 90) _ reachable_backlog (by decide)
    (.remove 9) rfl removed
  refine ⟨?_, by decide +kernel, by decide +kernel, run 1 _ fun event member => ?_,
    by decide +kernel, loose, (halved.resolve_left loose).1, ?_, by decide +kernel⟩
  · exact step crowded _ reachable_crowded (by decide) (not_loosens (by decide) nofun)
  · simp only [history, List.mem_cons, List.not_mem_nil, or_false] at member
    rcases member with rfl | rfl
    · exact not_loosens (by decide) nofun
    · exact not_loosens (by decide +kernel) nofun
  · refine all backlog _ reachable_backlog (by decide) (fun call member => ?_) (by decide +kernel)
    simp only [List.mem_cons, List.not_mem_nil, or_false] at member
    rcases member with rfl | rfl <;> exact ⟨nofun, nofun⟩

end Table

end ChainTable
