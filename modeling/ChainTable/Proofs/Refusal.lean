import ChainTable.Proofs.Preservation

/-! # Calls that are refused storage

An insertion or a removal may ask for several pieces of storage, and any of them may be
refused.  A refused removal leaves the table as it was, slot for slot.  So does a refused
insertion but for one case: where the table was full and has grown, and only the slot for
the new entry is refused, it stays grown.  Since such a table is not full any more and the
key is still absent, further attempts change nothing, and the first one that gets its
storage ends as if none had failed.
-/

namespace ChainTable

variable {K V : Type}

/-- The answer of a request that puts a pair in, where the key is new. -/
def Request.freshAnswer : Request K V → Answer K V
  | .exchange .. => .pair none
  | _ => .outcome .inserted

namespace Table

variable {keying : Keying K} {allowance : Option Nat} {t t' t'' : Table K V}
  {request : Request K V} {reply : Reply (Answer K V)} {r : Reservation} {key : K} {value : V}

/-! ## One refused call -/

theorem roomy_of_room (room : t.isFull = false) : t.roomy = t := by
  simp [roomy, room]

theorem roomy_of_full (full : t.isFull = true) : t.roomy = t.rehashed (t.capacity * 2) := by
  simp [roomy, full]

theorem Sound.isFull_roomy (sound : t.Sound keying) : t.roomy.isFull = false := by
  have room := sound.size_lt_roomy
  simpa [isFull] using room

theorem eq_of_mem_berthing (asked : r ∈ t.berthing keying key) : r = ⟨.slots, 1⟩ := by
  unfold berthing at asked
  split at asked
  · cases asked
  · exact List.mem_singleton.mp asked

theorem slimmed_of_mem_shrinkage (asked : r ∈ t.shrinkage) :
    t.slimmed = t.rehashed (t.capacity / 2) := by
  unfold shrinkage at asked
  split at asked
  case isTrue due => exact if_pos due
  case isFalse => cases asked

/-- How a request that puts a pair into a table can end. -/
inductive Putting (keying : Keying K) (allowance : Option Nat) (t : Table K V)
    (request : Request K V) (key : K) (value : V) : Reply (Answer K V) → Table K V → Prop where
  | whileOpen {call} (busy : t.isQuiet = false) :
      Putting keying allowance t request key value
        ⟨.error (.misuse (.whileOpen call t.liveCursors)), [], []⟩ t
  | growthRefused {r asked} (refused : Refuses allowance t.growth r asked) :
      Putting keying allowance t request key value
        ⟨.error (.refused r), asked, [.resizeFailed t.capacity (t.capacity * 2) r]⟩ t
  | slotRefused {r asked} (absent : t.found keying key = none)
      (growing : Grants allowance t.growth)
      (refused : Refuses (allowance.map (· - t.growth.length))
        (t.roomy.berthing keying key) r asked) :
      Putting keying allowance t request key value
        ⟨.error (.refused r), t.growth ++ asked, t.growthRecords⟩ t.roomy
  | fresh (absent : t.found keying key = none)
      (granted : Grants allowance (t.growth ++ t.roomy.berthing keying key)) :
      Putting keying allowance t request key value
        ⟨.ok request.freshAnswer, t.growth ++ t.roomy.berthing keying key, t.growthRecords⟩
        (t.roomy.stored ⟨key, value, keying.route key⟩)
  | present {reply : Reply (Answer K V)} {t' : Table K V} {answer e}
      (found : t.found keying key = some e) (answered : reply.answer = .ok answer) :
      Putting keying allowance t request key value reply t'

theorem Effect.putting (puts : Puts request key value)
    (effect : Effect keying allowance t (.ask request) reply t') :
    Putting keying allowance t request key value reply t' := by
  cases effect with
  | whileOpen _ busy => exact .whileOpen busy
  | growthRefused _ _ short => exact .growthRefused short
  | slotRefused puts' _ absent growing short =>
    obtain ⟨rfl, -⟩ := puts.unique puts'
    exact .slotRefused absent growing short
  | inserted _ absent granted | exchangedFresh _ absent granted =>
    cases puts
    exact .fresh absent granted
  | updated _ _ _ found | exchanged _ _ _ found =>
    cases puts
    exact .present found rfl
  | takenNone takes | taken takes | shrinkRefused takes => exact absurd takes puts.not_takes
  | notOpen uses => cases uses
  | read reads => cases reads <;> cases puts
  | modifiedNone | modified | cleared | revised => cases puts

/-- How a request that takes a key out of a table can end. -/
inductive Taking (keying : Keying K) (allowance : Option Nat) (t : Table K V) (key : K)
    (answer : Option (K × V) → Answer K V) : Reply (Answer K V) → Table K V → Prop where
  | absent (absent : t.found keying key = none) :
      Taking keying allowance t key answer ⟨.ok (answer none), [], []⟩ t
  | taken {loc e} (located : t.locate keying key = some loc) (live : t.entryAt? loc = some e)
      (granted : Grants allowance (t.without loc).shrinkage) :
      Taking keying allowance t key answer
        ⟨.ok (answer (some e.pair)), (t.without loc).shrinkage, (t.without loc).shrinkageRecords⟩
        (t.without loc).slimmed
  | refused {loc e r asked} (located : t.locate keying key = some loc)
      (live : t.entryAt? loc = some e)
      (refused : Refuses allowance (t.without loc).shrinkage r asked) :
      Taking keying allowance t key answer
        ⟨.error (.refused r), asked, [.resizeFailed t.capacity (t.capacity / 2) r]⟩ t

theorem Effect.taking {answer : Option (K × V) → Answer K V} (takes : Takes request key answer)
    (effect : Effect keying allowance t (.ask request) reply t') :
    Taking keying allowance t key answer reply t' := by
  cases effect with
  | takenNone takes' absent =>
    obtain ⟨rfl, rfl⟩ := takes.unique takes'
    exact .absent absent
  | taken takes' located live _ granted =>
    obtain ⟨rfl, rfl⟩ := takes.unique takes'
    exact .taken located live granted
  | shrinkRefused takes' located live _ short =>
    obtain ⟨rfl, rfl⟩ := takes.unique takes'
    exact .refused located live short
  | growthRefused puts | slotRefused puts => exact absurd takes puts.not_takes
  | whileOpen needs => cases needs <;> cases takes
  | notOpen uses => cases uses
  | read reads => cases reads <;> cases takes
  | inserted | updated | exchangedFresh | exchanged | modifiedNone | modified | cleared
  | revised => cases takes

/-- An insertion is refused either while the table grows, which leaves it as it was, or
once it has the room, where the slot for the new entry is refused. -/
theorem Effect.refused_put (puts : Puts request key value)
    (effect : Effect keying allowance t (.ask request) reply t')
    (refused : reply.answer = .error (.refused r)) :
    (∃ asked, Refuses allowance t.growth r asked) ∧ t' = t ∨
      t.found keying key = none ∧ Grants allowance t.growth ∧ r = ⟨.slots, 1⟩ ∧
        t' = t.roomy := by
  cases effect.putting puts with
  | growthRefused short =>
    cases refused
    exact .inl ⟨⟨_, short⟩, rfl⟩
  | slotRefused absent growing short =>
    cases refused
    exact .inr ⟨absent, growing, eq_of_mem_berthing short.mem, rfl⟩
  | whileOpen | fresh => cases refused
  | present _ answered =>
    rw [answered] at refused
    cases refused

/-- A refused removal has found an entry, and has put it back. -/
theorem Effect.refused_take {answer : Option (K × V) → Answer K V}
    (takes : Takes request key answer)
    (effect : Effect keying allowance t (.ask request) reply t')
    (refused : reply.answer = .error (.refused r)) :
    t' = t ∧ ∃ loc e, t.locate keying key = some loc ∧ t.entryAt? loc = some e ∧
      r ∈ (t.without loc).shrinkage := by
  cases effect.taking takes with
  | refused located live short =>
    cases refused
    exact ⟨rfl, _, _, located, live, short.mem⟩
  | absent | taken => cases refused

/-- A removal that gets its storage takes the entry found out of its slot. -/
theorem Effect.granted_take {answer : Option (K × V) → Answer K V} {loc : Location}
    {e : Entry K V} (takes : Takes request key answer)
    (located : t.locate keying key = some loc) (live : t.entryAt? loc = some e)
    (effect : Effect keying none t (.ask request) reply t') :
    reply.answer = .ok (answer (some e.pair)) ∧ t' = (t.without loc).slimmed := by
  cases effect.taking takes with
  | taken located' live' =>
    cases located.symm.trans located'
    cases live.symm.trans live'
    exact ⟨rfl, rfl⟩
  | absent absent =>
    rw [locate_eq_none.mpr absent] at located
    cases located
  | refused _ _ short => exact absurd rfl short.limited

/-- An insertion that is refused storage leaves the table as it was exactly where the table
had room for the entry or the reservation that was refused is one of the growth.  Else it
leaves the table with twice the buckets: what was refused is the slot for the new entry. -/
theorem refused_insertion (reachable : t.Reachable keying) (puts : Puts request key value)
    (ended : t.act keying allowance (.ask request) = (reply, t'))
    (refused : reply.answer = .error (.refused r)) :
    (t' = t ↔ (t.isFull = true → ¬ Grants allowance t.growth)) ∧
      (t' ≠ t → t' = t.rehashed (t.capacity * 2) ∧ r = ⟨.slots, 1⟩ ∧
        t.found keying key = none) := by
  have sound := reachable.sound
  have effect := effect_of_act sound ended
  rcases effect.refused_put puts refused with
    ⟨⟨asked, short⟩, rfl⟩ | ⟨absent, growing, own, left⟩
  · exact ⟨iff_of_true rfl fun _ => short.not_grants, fun differs => absurd rfl differs⟩
  · cases full : t.isFull with
    | false =>
      have same : t' = t := by rw [left, roomy_of_room full]
      exact ⟨iff_of_true same nofun, fun differs => absurd same differs⟩
    | true =>
      have grown : t' = t.rehashed (t.capacity * 2) := by rw [left, roomy_of_full full]
      have differs : t' ≠ t := by
        intro same
        have capacity : t.capacity = t.capacity * 2 := by
          rw [← capacity_rehashed t (t.capacity * 2), ← grown, same]
        have positive := sound.capacity_pos
        omega
      exact ⟨iff_of_false differs fun short => short rfl growing, fun _ => ⟨grown, own, absent⟩⟩

/-- Four entries in four buckets, two of them in one. -/
def crowded : Table Nat Nat :=
  ⟨#[[], [some ⟨1, 10, 1⟩, some ⟨5, 50, 5⟩], [some ⟨2, 20, 2⟩], [some ⟨3, 30, 3⟩]], 4,
    Registry.new 1⟩

theorem reachable_crowded : crowded.Reachable Session.lastDigit := by
  have filled : (new 1 : Table Nat Nat).afterAll Session.lastDigit
      [⟨none, .ask (.insert 1 10)⟩, ⟨none, .ask (.insert 5 50)⟩, ⟨none, .ask (.insert 2 20)⟩,
        ⟨none, .ask (.insert 3 30)⟩] = crowded := by decide +kernel
  rw [← filled]
  exact (Reachable.new 1).afterAll _

/-- The growth is refused its last piece of storage, and the table is as it was. -/
theorem refused_insertion_crowded :
    let ended := crowded.act Session.lastDigit (some 5) (.ask (.insert 9 90))
    ended.1.answer = .error (.refused ⟨.slots, 1⟩) ∧ crowded.isFull = true ∧
      crowded.growth.length = 6 ∧ ended.2 = crowded := by
  intro ended
  have refused : ended.1.answer = .error (.refused ⟨.slots, 1⟩) := by decide +kernel
  have length : crowded.growth.length = 6 := by decide +kernel
  have short : ¬ Grants (some 5) crowded.growth := by
    intro granted
    have covered := granted 5 rfl
    omega
  have left := refused_insertion reachable_crowded (.insert 9 90) (Prod.eta ended).symm refused
  exact ⟨refused, by decide, length, left.1.mpr fun _ => short⟩

/-- With one piece of storage more the insertion still fails, but the table has grown. -/
theorem insertion_refused_after_growth :
    let ended := crowded.act Session.lastDigit (some 6) (.ask (.insert 9 90))
    crowded.Reachable Session.lastDigit ∧ crowded.isQuiet = true ∧
      ended.1.answer = .error (.refused ⟨.slots, 1⟩) ∧ ended.2 ≠ crowded ∧
      crowded.capacity = 4 ∧ ended.2.capacity = 8 :=
  ⟨reachable_crowded, by decide, by decide +kernel, by decide +kernel, by decide, by decide +kernel⟩

/-- A removal that is refused storage leaves the table as it was, with the entry in the slot
it was taken from.  Done again with all storage granted it answers that entry, vacates its
slot and halves the table, as it would have without the refused attempt. -/
theorem refused_removal (reachable : t.Reachable keying)
    {answer : Option (K × V) → Answer K V} (takes : Takes request key answer)
    (ended : t.act keying allowance (.ask request) = (reply, t'))
    (refused : reply.answer = .error (.refused r)) :
    t' = t ∧ t'.act keying none (.ask request) = t.act keying none (.ask request) ∧
      ∃ loc e, t.locate keying key = some loc ∧ t.entryAt? loc = some e ∧
        (t'.act keying none (.ask request)).1.answer = .ok (answer (some e.pair)) ∧
        (t'.act keying none (.ask request)).2 = (t.without loc).rehashed (t.capacity / 2) := by
  have sound := reachable.sound
  obtain ⟨same, loc, e, located, live, due⟩ :=
    (effect_of_act sound ended).refused_take takes refused
  obtain ⟨answered, left⟩ :=
    (effect_act sound none (.ask request)).granted_take takes located live
  -- The storage that was refused was asked for by a shrink, so a shrink is due.
  rw [slimmed_of_mem_shrinkage due, capacity_without] at left
  rw [same]
  exact ⟨rfl, rfl, loc, e, located, live, answered, left⟩

/-- Three entries in eight buckets, one of them behind a vacant slot. -/
def hollow : Table Nat Nat :=
  ⟨#[[], [none, some ⟨9, 90, 9⟩], [some ⟨2, 20, 2⟩], [some ⟨3, 30, 3⟩], [none], [], [], []], 3,
    Registry.new 1⟩

theorem reachable_hollow : hollow.Reachable Session.lastDigit := by
  have filled : (new 1 : Table Nat Nat).afterAll Session.lastDigit
      [⟨none, .ask (.insert 1 10)⟩, ⟨none, .ask (.insert 9 90)⟩, ⟨none, .ask (.insert 2 20)⟩,
        ⟨none, .ask (.insert 3 30)⟩, ⟨none, .ask (.insert 4 40)⟩, ⟨none, .ask (.remove 1)⟩,
        ⟨none, .ask (.remove 4)⟩] = hollow := by decide +kernel
  rw [← filled]
  exact (Reachable.new 1).afterAll _

/-- The last of the four pieces of storage that the shrink asks for is refused. -/
theorem refused_removal_hollow :
    let ended := hollow.act Session.lastDigit (some 3) (.ask (.extract 19))
    ended.1.answer = .error (.refused ⟨.slots, 1⟩) ∧ ended.1.reservations.length = 4 ∧
      ended.2 = hollow ∧
      (ended.2.act Session.lastDigit none (.ask (.extract 19))).1.answer =
        .ok (.pair (some (9, 90))) ∧
      (ended.2.act Session.lastDigit none (.ask (.extract 19))).2 =
        (hollow.without ⟨1, 1⟩).rehashed 4 := by
  intro ended
  have refused : ended.1.answer = .error (.refused ⟨.slots, 1⟩) := by decide +kernel
  obtain ⟨same, -, loc, e, located, live, answered, left⟩ :=
    refused_removal reachable_hollow (.extract 19) (Prod.eta ended).symm refused
  have here : hollow.locate Session.lastDigit 19 = some ⟨1, 1⟩ := by decide
  rw [here] at located
  cases located
  cases live
  exact ⟨refused, by decide +kernel, same, answered, left⟩

/-! ## Attempts -/

def attempts (request : Request K V) (allowances : List (Option Nat)) :
    List (Invocation K V) :=
  allowances.map fun allowance => ⟨allowance, .ask request⟩

/-- What refused attempts to put a key into a table make of it. -/
inductive Stalled (keying : Keying K) (key : K) (t : Table K V) : Table K V → Prop where
  | same : Stalled keying key t t
  | grown (absent : t.found keying key = none) : Stalled keying key t t.roomy

theorem Stalled.effect (sound : t.Sound keying) (stalled : Stalled keying key t t')
    (puts : Puts request key value)
    (effect : Effect keying allowance t' (.ask request) reply t'')
    (refused : reply.answer = .error (.refused r)) : Stalled keying key t t'' := by
  cases stalled with
  | same =>
    rcases effect.refused_put puts refused with ⟨-, rfl⟩ | ⟨absent, -, -, rfl⟩
    · exact .same
    · exact .grown absent
  | grown absent =>
    -- A table that has grown has room, so a further attempt does not grow it again.
    have room := roomy_of_room sound.isFull_roomy
    rcases effect.refused_put puts refused with ⟨-, rfl⟩ | ⟨-, -, -, rfl⟩
    · exact .grown absent
    · rw [room]
      exact .grown absent

/-- An insertion that gets its storage succeeds, and stores an entry if the key is absent. -/
theorem Effect.granted_put (quiet : t.isQuiet = true) (puts : Puts request key value)
    (effect : Effect keying none t (.ask request) reply t') :
    ∃ answer, reply.answer = .ok answer ∧ (t.found keying key = none →
      answer = request.freshAnswer ∧ t' = t.roomy.stored ⟨key, value, keying.route key⟩) := by
  cases effect.putting puts with
  | whileOpen busy =>
    rw [quiet] at busy
    cases busy
  | growthRefused short | slotRefused _ _ short => exact absurd rfl short.limited
  | fresh => exact ⟨_, rfl, fun _ => ⟨rfl, rfl⟩⟩
  | present found answered =>
    refine ⟨_, answered, fun absent => ?_⟩
    rw [found] at absent
    cases absent

theorem Stalled.afterAll (sound : t.Sound keying) (puts : Puts request key value)
    {allowances : List (Option Nat)} (sound' : t'.Sound keying)
    (stalled : Stalled keying key t t')
    (failed : ∀ event ∈ t'.history keying (attempts request allowances),
      ∃ r, event.answer = .error (.refused r)) :
    Stalled keying key t (t'.afterAll keying (attempts request allowances)) := by
  induction allowances generalizing t' with
  | nil => exact stalled
  | cons allowance rest ih =>
    obtain ⟨⟨r, refused⟩, others⟩ := List.forall_mem_cons.mp failed
    have effect := effect_act sound' allowance (.ask request)
    exact ih (sound'.act allowance (.ask request)) (stalled.effect sound puts effect refused) others

/-- However often and wherever an insertion is refused storage, once it gets all it asks for
it answers what it would have answered at first, and leaves the very table it would have
left. -/
theorem retried_insertion (reachable : t.Reachable keying) (quiet : t.isQuiet = true)
    (puts : Puts request key value) {allowances : List (Option Nat)}
    (failed : ∀ event ∈ t.history keying (attempts request allowances),
      ∃ r, event.answer = .error (.refused r))
    (ended : t.afterAll keying (attempts request allowances) = t') :
    ∃ answer, (t.act keying none (.ask request)).1.answer = .ok answer ∧
      (t'.act keying none (.ask request)).1.answer = .ok answer ∧
      (t'.act keying none (.ask request)).2 = (t.act keying none (.ask request)).2 := by
  have sound := reachable.sound
  have stalled := Stalled.same.afterAll sound puts sound failed
  rw [ended] at stalled
  obtain ⟨answer, answered, fresh⟩ :=
    (effect_act sound none (.ask request)).granted_put quiet puts
  cases stalled with
  | same => exact ⟨answer, answered, answered, rfl⟩
  | grown absent =>
    obtain ⟨rfl, left⟩ := fresh absent
    obtain ⟨answer', answered', fresh'⟩ :=
      (effect_act (sound.roomy quiet) none (.ask request)).granted_put
        (by rw [isQuiet_roomy, quiet]) puts
    obtain ⟨rfl, left'⟩ := fresh' (by rw [sound.found_roomy, absent])
    refine ⟨_, answered, answered', ?_⟩
    rw [left, left', roomy_of_room sound.isFull_roomy]

/-- Refused in the midst of the growth, then after it, then on the grown table. -/
theorem retried_insertion_crowded :
    let refusals := attempts (.exchange 9 90) [some 3, some 6, some 0]
    let refusal : Except Fault (Answer Nat Nat) := .error (.refused ⟨.slots, 1⟩)
    (crowded.history Session.lastDigit refusals).map Event.answer =
        [refusal, refusal, refusal] ∧
      crowded.afterAll Session.lastDigit refusals = crowded.rehashed 8 ∧
      ((crowded.rehashed 8).act Session.lastDigit none (.ask (.exchange 9 90))).1.answer =
        .ok (.pair none) ∧
      ((crowded.rehashed 8).act Session.lastDigit none (.ask (.exchange 9 90))).2 =
        (crowded.act Session.lastDigit none (.ask (.exchange 9 90))).2 := by
  intro refusals refusal
  have answers : (crowded.history Session.lastDigit refusals).map Event.answer =
      [refusal, refusal, refusal] := by decide +kernel
  have ended : crowded.afterAll Session.lastDigit refusals = crowded.rehashed 8 := by
    decide +kernel
  have failed : ∀ event ∈ crowded.history Session.lastDigit refusals,
      ∃ r, event.answer = .error (.refused r) := by
    intro event member
    have listed := List.mem_map_of_mem (f := Event.answer) member
    rw [answers] at listed
    exact ⟨⟨.slots, 1⟩, by simpa using listed⟩
  obtain ⟨answer, answered, again, left⟩ :=
    retried_insertion reachable_crowded (by decide) (.exchange 9 90) failed ended
  have first : (crowded.act Session.lastDigit none (.ask (.exchange 9 90))).1.answer =
      .ok (.pair none) := by decide +kernel
  rw [first] at answered
  cases answered
  exact ⟨answers, ended, again, left⟩

end Table

end ChainTable
