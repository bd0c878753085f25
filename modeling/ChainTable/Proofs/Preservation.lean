import ChainTable.Proofs.Effect
import ChainTable.Session

/-! # What every run preserves

Every action keeps a table sound, and under a test of sameness that is an equivalence
it keeps the entries distinct (the step lemmas, by cases on the effect).  By induction
both hold of every table that actions lead to from a new one (`Table.Reachable`), and
so of every table of every session (`Session.run`).
-/

namespace ChainTable

variable {K V : Type}

namespace Table

variable {keying : Keying K} {allowance : Option Nat} {t t' : Table K V} {action : Action K V}
  {reply : Reply (Answer K V)}

/-! ## One action -/

theorem Sound.moved (sound : t.Sound keying) {c : Cursor} {former position : Position}
    (standing : t.cursors.standing c = .ok former)
    (seat : ∀ loc, position = .on loc → ∃ slot, t.directory.slotAt? loc = some slot) :
    (t.registering (t.cursors.moved c position)).Sound keying := by
  apply sound.registering (Registry.wellFormed_moved sound.registered standing position)
  intro other loc held
  rw [Registry.standing_moved standing] at held
  split at held
  · cases held
    exact seat loc rfl
  · exact sound.seated other loc held

theorem entryAt?_of_pending {position : Position} {loc : Location} {e : Entry K V}
    {rest : List (Location × Entry K V)} (pending : t.pending position = (loc, e) :: rest) :
    t.entryAt? loc = some e := by
  have member : (loc, e) ∈ t.pending position := by simp [pending]
  cases position with
  | beforeFirst => exact Directory.mem_live.mp member
  | on former => exact (Directory.mem_ahead.mp member).1
  | exhausted => cases member

/-- No action makes a sound table unsound. -/
theorem Sound.effect (sound : t.Sound keying) (effect : Effect keying allowance t action reply t') :
    t'.Sound keying := by
  cases effect with
  | whileOpen | notOpen | growthRefused | takenNone | shrinkRefused | read | modifiedNone
  | currentSetNone | currentRemovedNone => exact sound
  -- The refused insertion that has grown the table is the only fault that changes one.
  | slotRefused puts quiet => exact sound.roomy quiet
  | inserted quiet | exchangedFresh quiet =>
    exact (sound.roomy quiet).stored (by simpa using quiet) sound.size_lt_roomy rfl
  | updated quiet located live => exact (sound.roomy quiet).revalued live _
  | exchanged quiet located live =>
    -- The key is exchanged and the stored hash is left: the new key answered to it.
    have answers := answers_of_locate located live
    exact sound.rewritten live rfl (Directory.answers_iff.mp answers).1
  | taken takes located live => exact (sound.without live).slimmed
  | modified located live => exact sound.revalued live _
  | cleared quiet => exact sound.cleared quiet
  | revised limit f =>
    exact swept_induction f (fun _ _ _ value sound live => sound.revalued live value) 0
      (fun p member => entryAt?_of_mem_passed member) (pairwise_passed limit t) sound
  | opened =>
    apply sound.registering (Registry.wellFormed_opened sound.registered)
    intro c loc held
    rw [Registry.standing_opened sound.registered] at held
    split at held
    · cases held
    · exact sound.seated c loc held
  | closed standing =>
    refine sound.registering (Registry.wellFormed_closed sound.registered standing)
      fun c loc held => ?_
    rw [Registry.standing_closed standing] at held
    split at held
    · cases held
    · exact sound.seated c loc held
  | advanced standing pending =>
    apply sound.moved standing
    intro loc seat
    cases seat
    exact ⟨_, Directory.entryAt?_eq_some.mp (entryAt?_of_pending pending)⟩
  | advancedEnd standing => exact sound.moved standing fun loc seat => by cases seat
  | currentSet standing under => exact sound.revalued (entryUnder_eq_some.mp under).2 _
  | currentRemoved standing under => exact sound.without (entryUnder_eq_some.mp under).2

theorem Distinct.roomy (equivalence : keying.IsEquivalence) (sound : t.Sound keying)
    (distinct : t.Distinct keying) : t.roomy.Distinct keying := by
  unfold Table.roomy
  split
  · exact distinct.rehashed equivalence (Nat.mul_pos sound.capacity_pos (by decide))
  · exact distinct

theorem Distinct.slimmed (equivalence : keying.IsEquivalence) (sound : t.Sound keying)
    (distinct : t.Distinct keying) : t.slimmed.Distinct keying := by
  unfold Table.slimmed
  split
  case isTrue due =>
    have sparse := (Bool.and_eq_true_iff.mp due).1
    exact distinct.rehashed equivalence
      (Nat.lt_of_lt_of_le (by decide) (sound.least_le_half sparse))
  case isFalse => exact distinct

theorem Distinct.storedFresh (equivalence : keying.IsEquivalence) (sound : t.Sound keying)
    (distinct : t.Distinct keying) (quiet : t.isQuiet = true) {key : K}
    (absent : t.found keying key = none) (value : V) :
    (t.roomy.stored ⟨key, value, keying.route key⟩).Distinct keying := by
  have roomy := sound.roomy quiet
  apply (distinct.roomy equivalence sound).stored equivalence roomy.capacity_pos
  intro loc e live
  exact roomy.not_alike_of_found_none (by rw [sound.found_roomy, absent]) live

/-- No action brings in a second entry for a class of keys. -/
theorem Distinct.effect (equivalence : keying.IsEquivalence) (sound : t.Sound keying)
    (distinct : t.Distinct keying) (effect : Effect keying allowance t action reply t') :
    t'.Distinct keying := by
  cases effect with
  | whileOpen | notOpen | growthRefused | takenNone | shrinkRefused | read | modifiedNone
  | currentSetNone | currentRemovedNone | opened | closed | advanced | advancedEnd =>
    exact distinct
  | slotRefused => exact distinct.roomy equivalence sound
  | inserted quiet absent | exchangedFresh quiet absent =>
    exact distinct.storedFresh equivalence sound quiet absent _
  | updated quiet located live =>
    exact (distinct.roomy equivalence sound).revalued equivalence live _
  | exchanged quiet located live =>
    have answers := answers_of_locate located live
    exact distinct.rewritten equivalence live ((sound.answers_iff live).mp answers)
  | taken takes located live =>
    exact (distinct.without live).slimmed equivalence (sound.without live)
  | modified located live => exact distinct.revalued equivalence live _
  | cleared => exact .cleared t
  | revised limit f =>
    exact swept_induction f
      (fun _ _ _ value distinct live => distinct.revalued equivalence live value) 0
      (fun p member => entryAt?_of_mem_passed member) (pairwise_passed limit t) distinct
  | currentSet standing under =>
    exact distinct.revalued equivalence (entryUnder_eq_some.mp under).2 _
  | currentRemoved standing under => exact distinct.without (entryUnder_eq_some.mp under).2

theorem Sound.act (sound : t.Sound keying) (allowance : Option Nat) (action : Action K V) :
    (t.act keying allowance action).2.Sound keying :=
  sound.effect (effect_act sound allowance action)

/-! ## Runs on one table -/

/-- The tables that actions lead to from a new one, with any handles and allowances,
also where they end in faults. -/
inductive Reachable (keying : Keying K) : Table K V → Prop where
  | new (owner : Nat) : Reachable keying (new owner)
  | act {t : Table K V} (reachable : Reachable keying t) (allowance : Option Nat)
      (action : Action K V) : Reachable keying (t.act keying allowance action).2

theorem Reachable.sound (reachable : t.Reachable keying) : t.Sound keying := by
  induction reachable with
  | new owner => exact sound_new keying owner
  | act reachable allowance action sound => exact sound.act allowance action

theorem Reachable.distinct (equivalence : keying.IsEquivalence)
    (reachable : t.Reachable keying) : t.Distinct keying := by
  induction reachable with
  | new owner => exact distinct_new keying owner
  | act reachable allowance action distinct =>
    exact distinct.effect equivalence reachable.sound (effect_act reachable.sound allowance action)

end Table

structure Invocation (K V : Type) where
  allowance : Option Nat
  action : Action K V

structure Event (K V : Type) where
  before : Table K V
  call : Invocation K V
  answer : Except Fault (Answer K V)
  after : Table K V

namespace Table

def event (keying : Keying K) (t : Table K V) (call : Invocation K V) : Event K V where
  before := t
  call := call
  answer := (t.act keying call.allowance call.action).1.answer
  after := (t.act keying call.allowance call.action).2

def history (keying : Keying K) : Table K V → List (Invocation K V) → List (Event K V)
  | _, [] => []
  | t, call :: rest => t.event keying call :: history keying (t.event keying call).after rest

/-- The table that some calls leave. -/
def afterAll (keying : Keying K) : Table K V → List (Invocation K V) → Table K V
  | t, [] => t
  | t, call :: rest => afterAll keying (t.event keying call).after rest

theorem Reachable.afterAll {keying : Keying K} {t : Table K V} (reachable : t.Reachable keying)
    (calls : List (Invocation K V)) : (t.afterAll keying calls).Reachable keying := by
  induction calls generalizing t with
  | nil => exact reachable
  | cons call rest ih => exact ih (reachable.act call.allowance call.action)

/-- What happens in a run happens to tables that actions lead to. -/
theorem Reachable.exists_of_mem_history {keying : Keying K} {t : Table K V}
    (reachable : t.Reachable keying) {calls : List (Invocation K V)} {event : Event K V}
    (member : event ∈ t.history keying calls) :
    ∃ (t' : Table K V) (call : Invocation K V),
      t'.Reachable keying ∧ event = t'.event keying call := by
  induction calls generalizing t with
  | nil => cases member
  | cons call rest ih =>
    cases member with
    | head => exact ⟨t, call, reachable, rfl⟩
    | tail _ member => exact ih (reachable.act call.allowance call.action) member

end Table

/-! ## Sessions -/

namespace Session

variable {keyings : Nat → Keying K}

/-- The session after some steps, if all of them are steps; calls that end in faults are. -/
def run (keyings : Nat → Keying K) (s : Session K V) : List (Step K V) → Option (Session K V)
  | [] => some s
  | request :: rest => (s.step keyings request).bind fun (_, s) => run keyings s rest

def Sprung (keyings : Nat → Keying K) (s : Session K V) : Prop :=
  ∀ i t, s.tableAt? i = some t → t.Reachable (keyings i)

theorem tableAt?_start {count i : Nat} {t : Table K V}
    (present : (start count : Session K V).tableAt? i = some t) : t = Table.new (i + 1) := by
  simp only [tableAt?, start, List.getElem?_map, Option.join_eq_some_iff, Option.map_eq_some_iff,
    Option.some.injEq] at present
  obtain ⟨j, inside, rfl⟩ := present
  obtain ⟨bound, rfl⟩ := List.getElem?_eq_some_iff.mp inside
  simp

theorem sprung_start (keyings : Nat → Keying K) (count : Nat) :
    (start count : Session K V).Sprung keyings := by
  intro i t present
  rw [tableAt?_start present]
  exact .new (i + 1)

variable {s s' : Session K V} {reply : Reply (Answer K V)}

/-- A call of a table of a session is that table's call, and touches no other table. -/
theorem exists_of_act {i : Nat} {allowance : Option Nat} {action : Action K V}
    (done : s.act keyings i allowance action = some (reply, s')) :
    ∃ t, s.tableAt? i = some t ∧ reply = (t.act (keyings i) allowance action).1 ∧
      s'.held = s.held ∧ ∀ j, s'.tableAt? j =
        if j = i then some (t.act (keyings i) allowance action).2 else s.tableAt? j := by
  simp only [Session.act, perform, Option.map_eq_some_iff] at done
  obtain ⟨t, present, same⟩ := done
  cases same
  refine ⟨t, present, rfl, rfl, fun j => ?_⟩
  obtain ⟨bound, -⟩ := List.getElem?_eq_some_iff.mp (Option.join_eq_some_iff.mp present)
  by_cases here : j = i
  · subst here
    simp [tableAt?, bound]
    rfl
  · simp [tableAt?, here, Ne.symm here]

theorem Sprung.act (sprung : s.Sprung keyings) {i : Nat} {allowance : Option Nat}
    {action : Action K V} (done : s.act keyings i allowance action = some (reply, s')) :
    s'.Sprung keyings := by
  obtain ⟨t, present, -, -, tables⟩ := exists_of_act done
  intro j t' present'
  rw [tables] at present'
  split at present'
  case isTrue here =>
    subst here
    cases present'
    exact (sprung j t present).act allowance action
  case isFalse => exact sprung j t' present'

theorem Sprung.held (sprung : s.Sprung keyings) (held : List (Int × Cursor)) :
    Sprung keyings { s with held } := sprung

theorem Sprung.hold {name : Int} {result : Reply (Answer K V) × Session K V}
    (sprung : result.2.Sprung keyings) : (Session.hold name result).2.Sprung keyings := by
  unfold Session.hold
  split
  · exact sprung.held _
  · exact sprung

theorem tableAt?_of_dropTable {i j : Nat} {failing : Bool} {t : Table K V}
    (done : s.dropTable i failing = some (reply, s')) (present : s'.tableAt? j = some t) :
    s.tableAt? j = some t := by
  simp only [Session.dropTable, Option.map_eq_some_iff] at done
  obtain ⟨given, -, same⟩ := done
  cases same
  simp only [tableAt?, List.getElem?_set] at present
  split at present
  · split at present <;> cases present
  · exact present

theorem Sprung.dropTable (sprung : s.Sprung keyings) {i : Nat} {failing : Bool}
    (done : s.dropTable i failing = some (reply, s')) : s'.Sprung keyings :=
  fun j t present => sprung j t (tableAt?_of_dropTable done present)

theorem exists_of_openCursor {i : Nat} {name : Int}
    (done : s.step keyings (.openCursor i name) = some (reply, s')) :
    ∃ opened, s.act keyings i none .openCursor = some opened ∧
      Session.hold name opened = (reply, s') := by
  simp only [Session.step] at done
  split at done
  · cases done
  · exact Option.map_eq_some_iff.mp done

theorem Sprung.step (sprung : s.Sprung keyings) {request : Step K V}
    (done : s.step keyings request = some (reply, s')) : s'.Sprung keyings := by
  cases request with
  | ask i allowance request => exact sprung.act done
  | openCursor i name =>
    obtain ⟨opened, ran, same⟩ := exists_of_openCursor done
    have kept : (Session.hold name opened).2.Sprung keyings := (sprung.act ran).hold
    rw [same] at kept
    exact kept
  | steer i name request =>
    obtain ⟨c, -, ran⟩ := Option.bind_eq_some_iff.mp done
    exact sprung.act ran
  | closeCursor i name =>
    obtain ⟨c, -, ran⟩ := Option.bind_eq_some_iff.mp done
    exact (sprung.held _).act ran
  | dropCursor name failing =>
    obtain ⟨c, -, same⟩ := Option.map_eq_some_iff.mp done
    cases same
    exact sprung.held _
  | dropTable i failing => exact sprung.dropTable done

theorem Sprung.run {requests : List (Step K V)} (sprung : s.Sprung keyings)
    (ran : s.run keyings requests = some s') : s'.Sprung keyings := by
  -- By induction on the steps; `Sprung` is what each of them preserves.
  induction requests generalizing s with
  | nil =>
    cases ran
    exact sprung
  | cons request rest ih =>
    obtain ⟨result, done, others⟩ := Option.bind_eq_some_iff.mp ran
    exact ih (sprung.step done) others

/-- Every table of a session of new tables is, at any time, one that actions lead to. -/
theorem reachable_of_run {count : Nat} {requests : List (Step K V)}
    (ran : (start count).run keyings requests = some s) {i : Nat} {t : Table K V}
    (present : s.tableAt? i = some t) : t.Reachable (keyings i) := by
  have sprung := (sprung_start keyings count).run ran
  exact sprung i t present

/-! ## The representation -/

/-- The representation of a table at any time of any session, whatever its hash and its
test of sameness are: the capacity is four times a power of two, the recorded size is
the number of occupied slots and within the capacity, every occupied slot carries the
routing hash of the key now stored in it, which is not zero, and lies in that hash's
bucket.  Where the test is an equivalence no two slots hold keys alike. -/
theorem representation {count : Nat} {requests : List (Step K V)}
    (ran : (start count).run keyings requests = some s) {i : Nat} {t : Table K V}
    (present : s.tableAt? i = some t) :
    (∃ k, t.capacity = 4 * 2 ^ k) ∧
      t.size = t.directory.occupied ∧
      t.size ≤ t.capacity ∧
      (∀ loc e, t.entryAt? loc = some e → e.hash = (keyings i).route e.key ∧ e.hash ≠ 0) ∧
      (∀ loc e, t.entryAt? loc = some e → loc.bucket = e.hash.toNat % t.capacity) ∧
      ((keyings i).IsEquivalence → ∀ loc loc' e e',
        t.entryAt? loc = some e → t.entryAt? loc' = some e' →
        (keyings i).route e.key = (keyings i).route e'.key →
        (keyings i).same e.key e'.key = true → loc = loc') := by
  have reachable := reachable_of_run ran present
  have sound := reachable.sound
  refine ⟨sound.capacity_eq, sound.size_eq, sound.size_le, ?_, sound.homed, ?_⟩
  · intro loc e live
    have stamp := sound.stamped loc e live
    exact ⟨stamp, stamp ▸ (keyings i).route_ne_zero e.key⟩
  · intro equivalence loc loc' e e' live live' routes same
    exact reachable.distinct equivalence loc loc' e e' live live' ⟨routes, same⟩

/-- Keys that count as the same where their last digits agree, with that digit as hash. -/
def lastDigit : Keying Nat := ⟨fun n => (n % 10).toUInt32, fun a b => a % 10 == b % 10⟩

theorem isEquivalence_lastDigit : lastDigit.IsEquivalence where
  refl a := by simp [lastDigit]
  symm same := by simpa [lastDigit] using (beq_iff_eq.mp same).symm
  trans first second := by
    simpa [lastDigit] using (beq_iff_eq.mp first).trans (beq_iff_eq.mp second)

/-- A run with a grow, an exchanged key and a removal that is undone. -/
theorem representation_lastDigit :
    ∃ s t, (start 1).run (fun _ => lastDigit)
        [.ask 0 none (.insert 10 0), .ask 0 none (.insert 1 1), .ask 0 none (.insert 2 2),
          .ask 0 none (.insert 3 3), .ask 0 none (.insert 4 4), .ask 0 none (.exchange 20 5),
          .ask 0 none (.remove 4), .ask 0 none (.remove 3), .ask 0 (some 2) (.remove 2)] = some s ∧
      s.tableAt? 0 = some t ∧ t.capacity = 8 ∧ t.size = 3 ∧ t.size = t.directory.occupied ∧
      t.entryAt? ⟨1, 0⟩ = some ⟨20, 5, lastDigit.route 20⟩ ∧
      ∀ loc loc' e e', t.entryAt? loc = some e → t.entryAt? loc' = some e' →
        lastDigit.route e.key = lastDigit.route e'.key → lastDigit.same e.key e'.key = true →
        loc = loc' := by
  let t : Table Nat Nat := ⟨#[[], [some ⟨20, 5, 1⟩, some ⟨1, 1, 1⟩], [some ⟨2, 2, 2⟩], [none],
    [none], [], [], []], 3, Registry.new 1⟩
  have ran : (start 1).run (fun _ => lastDigit)
      [.ask 0 none (.insert 10 0), .ask 0 none (.insert 1 1), .ask 0 none (.insert 2 2),
        .ask 0 none (.insert 3 3), .ask 0 none (.insert 4 4), .ask 0 none (.exchange 20 5),
        .ask 0 none (.remove 4), .ask 0 none (.remove 3), .ask 0 (some 2) (.remove 2)] =
      some ⟨[some t], []⟩ := by decide +kernel
  obtain ⟨-, counted, -, -, -, unique⟩ := representation (i := 0) (t := t) ran rfl
  exact ⟨_, t, ran, rfl, rfl, rfl, counted, rfl, unique isEquivalence_lastDigit⟩

end Session

end ChainTable
