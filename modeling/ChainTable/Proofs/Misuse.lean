import ChainTable.Proofs.Resize
import ChainTable.Proofs.Traversal

/-! # What stops a call

A caller who keeps handles as a session does can break the rules of cursors in five ways
(`Session.Forbids`).  Each of them stops the call with its own misuse, and nothing else
does: a handle is open on the table that issued it for as long as both are there
(`Session.Orderly`), and no table ever finds its own records inconsistent.
-/

namespace ChainTable

variable {K V : Type}

/-! ## One table -/

namespace Registry

/-- The misuse that an action amounts to on a table with these cursors. -/
inductive Forbids (r : Registry) : Action K V → Misuse → Prop where
  | whileOpen {request call} (needs : NeedsQuiet request call) (busy : 0 < r.live) :
      Forbids r (.ask request) (.whileOpen call r.live)
  | foreign {action c} (uses : Uses action c) (foreign : c.owner ≠ r.owner) :
      Forbids r action .foreignCursor
  | stale {c request} (closed : r.standing c = .error .staleCursor) :
      Forbids r (.steer c request) .staleCursor
  | closedTwice {c} (closed : r.standing c = .error .staleCursor) :
      Forbids r (.closeCursor c) .closedTwice

theorem owner_opened (r : Registry) : r.opened.2.owner = r.owner := by
  unfold opened
  split <;> rfl

theorem exists_forbids {r : Registry} {action : Action K V} {c : Cursor} (uses : Uses action c)
    (closed : ∀ position, r.standing c ≠ .ok position) : ∃ cause, r.Forbids action cause := by
  by_cases own : c.owner = r.owner
  · have stale := standing_of_closed own closed
    cases uses with
    | steer => exact ⟨_, .stale stale⟩
    | closeCursor => exact ⟨_, .closedTwice stale⟩
  · exact ⟨_, .foreign uses own⟩

/-- A handle of this table's is open. -/
def Honours (r : Registry) (c : Cursor) : Prop :=
  c.owner = r.owner → ∃ position, r.standing c = .ok position

/-- Of a handle that is open where it was issued, only foreign uses are forbidden. -/
theorem Honours.forbids_iff {r : Registry} {action : Action K V} {c : Cursor} {cause : Misuse}
    (honours : r.Honours c) (uses : Uses action c) :
    r.Forbids action cause ↔ cause = .foreignCursor ∧ c.owner ≠ r.owner := by
  have current : r.standing c ≠ .error .staleCursor := by
    intro stale
    by_cases own : c.owner = r.owner
    · obtain ⟨position, standing⟩ := honours own
      exact ne_ok_of_error stale position standing
    · rw [standing_of_foreign own] at stale
      cases stale
  constructor
  · intro forbids
    cases forbids with
    | whileOpen => cases uses
    | foreign used foreign => cases used <;> cases uses <;> exact ⟨rfl, foreign⟩
    | stale closed | closedTwice closed =>
      cases uses
      exact absurd closed current
  · rintro ⟨rfl, foreign⟩
    exact .foreign uses foreign

end Registry

namespace Table

variable {keying : Keying K} {allowance : Option Nat} {t t' : Table K V} {action : Action K V}
  {reply : Reply (Answer K V)} {cause : Misuse} {c : Cursor}

theorem act_of_refused {request : CursorRequest V}
    (refused : t.cursors.standing c = .error cause) :
    t.act keying allowance (.steer c request) = (⟨.error (.misuse cause), [], []⟩, t) := by
  have stopped := run_standing_refused (c := ⟨t, allowance, [], []⟩) refused
  apply Call.perform_of_refusal
  cases request <;> simp [Action.run, CursorRequest.run, advance, setCurrent, removeCurrent, stopped]

/-- A forbidden action is stopped before it does anything. -/
theorem act_of_forbids (forbids : t.cursors.Forbids action cause) :
    t.act keying allowance action = (⟨.error (.misuse cause), [], []⟩, t) := by
  cases forbids with
  | @whileOpen request call needs busy =>
    have stopped := run_refuseWhileOpen_refused (c := ⟨t, allowance, [], []⟩) call
      (isQuiet_eq_false_iff.mpr busy)
    apply Call.perform_of_refusal
    cases needs <;> simp [Action.run, Request.run, insert, exchange, clear, stopped] <;> rfl
  | foreign uses foreign =>
    have refused := Registry.standing_of_foreign foreign
    cases uses with
    | steer => exact act_of_refused refused
    | closeCursor => exact Call.perform_of_refusal (by simp [Action.run, closeCursor, refused])
  | stale closed => exact act_of_refused closed
  | closedTwice closed => exact Call.perform_of_refusal (by simp [Action.run, closeCursor, closed])

/-- What stops an action for misuse is what the cursors of the table forbid. -/
theorem answer_misuse_iff (sound : t.Sound keying) :
    (t.act keying allowance action).1.answer = .error (.misuse cause) ↔
      t.cursors.Forbids action cause := by
  constructor
  · intro stopped
    generalize acted : t.act keying allowance action = ended at stopped
    obtain ⟨reply, t'⟩ := ended
    cases effect_of_act sound acted with
    | whileOpen needs busy =>
      cases stopped
      exact .whileOpen needs (isQuiet_eq_false_iff.mp busy)
    | notOpen uses closed =>
      obtain ⟨other, forbids⟩ := Registry.exists_forbids uses closed
      have same := acted.symm.trans (act_of_forbids forbids)
      cases same
      cases stopped
      exact forbids
    | _ => cases stopped
  · intro forbids
    rw [act_of_forbids forbids]

/-- No check of a sound table's records fails. -/
theorem Effect.answer_ne_breach (effect : Effect keying allowance t action reply t')
    (breach : Breach) : reply.answer ≠ .error (.breach breach) := by
  intro stopped
  cases effect <;> cases stopped

theorem Effect.owner_eq (effect : Effect keying allowance t action reply t') :
    t'.cursors.owner = t.cursors.owner := by
  cases effect with
  | opened => exact Registry.owner_opened t.cursors
  | whileOpen | notOpen | growthRefused | takenNone | shrinkRefused | read | modifiedNone
  | currentSetNone | currentRemovedNone | slotRefused | inserted | updated | exchangedFresh
  | exchanged | taken | modified | cleared | revised | closed | advanced | advancedEnd
  | currentSet | currentRemoved => simp [Registry.moved, Registry.closed]

theorem honours_act (sound : t.Sound keying) (honours : t.cursors.Honours c)
    (remains : ¬ action.Closes c) :
    (t.act keying allowance action).2.cursors.Honours c := by
  intro own
  rw [(effect_act sound allowance action).owner_eq] at own
  obtain ⟨position, standing⟩ := honours own
  let call : Invocation K V := ⟨allowance, action⟩
  have stays : ¬ call.action.Closes c := remains
  exact exists_standing_after sound standing stays

end Table

/-! ## A session -/

namespace Session

/-- The steps that break the rules of cursors, each with its misuse. -/
inductive Forbids (s : Session K V) : Step K V → Misuse → Prop where
  -- An insertion or a clear while a cursor is open on the table.
  | whileOpen {i t allowance request call} (present : s.tableAt? i = some t)
      (needs : NeedsQuiet request call) (busy : 0 < t.liveCursors) :
      Forbids s (.ask i allowance request) (.whileOpen call t.liveCursors)
  -- A cursor used on another table than its own.
  | foreignUse {i t name c request} (present : s.tableAt? i = some t)
      (held : s.cursor? name = some c) (foreign : c.owner ≠ t.cursors.owner) :
      Forbids s (.steer i name request) .foreignCursor
  -- A cursor closed at another table than its own.
  | foreignClose {i t name c} (present : s.tableAt? i = some t)
      (held : s.cursor? name = some c) (foreign : c.owner ≠ t.cursors.owner) :
      Forbids s (.closeCursor i name) .foreignCursor
  -- A cursor given up without being closed, while no failure is under way.
  | abandonedCursor {name c} (held : s.cursor? name = some c) :
      Forbids s (.dropCursor name false) .abandonedCursor
  -- A table given up with cursors open, while no failure is under way.
  | abandonedTable {i t} (present : s.tableAt? i = some t) (busy : 0 < t.liveCursors) :
      Forbids s (.dropTable i false) (.abandonedTable t.liveCursors)

/-- A session in order: its tables are ones that actions lead to, numbered from 1; the
handles held are all different, and each is open on the table that issued it, if that
table is still there. -/
structure Orderly (keyings : Nat → Keying K) (s : Session K V) : Prop where
  sprung : s.Sprung keyings
  numbered : ∀ i t, s.tableAt? i = some t → t.cursors.owner = i + 1
  apart : (s.held.map Prod.snd).Nodup
  honoured : ∀ handle ∈ s.held, ∀ i t, s.tableAt? i = some t → t.cursors.Honours handle.2

variable {keyings : Nat → Keying K} {s s' : Session K V} {reply : Reply (Answer K V)}
  {name : Int} {c : Cursor}

theorem mem_held (held : s.cursor? name = some c) : (name, c) ∈ s.held := by
  obtain ⟨before, after, split, -⟩ := List.lookup_eq_some_iff.mp held
  simp [split]

theorem orderly_start (keyings : Nat → Keying K) (count : Nat) :
    (start count : Session K V).Orderly keyings where
  sprung := sprung_start keyings count
  numbered i t present := by
    rw [tableAt?_start present]
    rfl
  apart := List.nodup_nil
  honoured handle member := absurd member List.not_mem_nil

theorem Orderly.release (orderly : s.Orderly keyings) (name : Int) :
    (s.release name).Orderly keyings where
  sprung := orderly.sprung
  numbered := orderly.numbered
  apart := orderly.apart.sublist (List.filter_sublist.map Prod.snd)
  honoured handle member := orderly.honoured handle (List.mem_filter.mp member).1

/-- An action that closes no handle held leaves the session in order. -/
theorem Orderly.act (orderly : s.Orderly keyings) {i : Nat} {allowance : Option Nat}
    {action : Action K V} (done : s.act keyings i allowance action = some (reply, s'))
    (remains : ∀ handle ∈ s.held, ¬ action.Closes handle.2) : s'.Orderly keyings := by
  obtain ⟨t, present, -, held, tables⟩ := exists_of_act done
  have sound := (orderly.sprung i t present).sound
  refine ⟨orderly.sprung.act done, fun j t' present' => ?_, held ▸ orderly.apart,
    fun handle member j t' present' => ?_⟩
  · rw [tables] at present'
    split at present'
    case isTrue here =>
      cases present'
      rw [(Table.effect_act sound allowance action).owner_eq, orderly.numbered i t present, here]
    case isFalse => exact orderly.numbered j t' present'
  · rw [held] at member
    rw [tables] at present'
    split at present'
    case isTrue =>
      cases present'
      exact Table.honours_act sound (orderly.honoured handle member i t present)
        (remains handle member)
    case isFalse => exact orderly.honoured handle member j t' present'

/-- The handle that an open answers is held nowhere yet, and open on that table alone. -/
theorem Orderly.openCursor (orderly : s.Orderly keyings) {i : Nat}
    (done : s.act keyings i none .openCursor = some (reply, s')) (name : Int) :
    (Session.hold name (reply, s')).2.Orderly keyings := by
  obtain ⟨t, present, rfl, held, tables⟩ := exists_of_act done
  have orderly' := orderly.act done fun _ _ closes => closes
  have registered := (orderly.sprung i t present).sound.registered
  have own := (Registry.placed_opened registered).own
  rw [Table.act_openCursor] at tables ⊢
  refine ⟨orderly'.sprung, orderly'.numbered, List.nodup_cons.mpr ⟨?_, orderly'.apart⟩,
    List.forall_mem_cons.mpr
      ⟨fun j t' (present' : s'.tableAt? j = some t') issuer => ?_, orderly'.honoured⟩⟩
  · intro member
    obtain ⟨⟨other, c⟩, member, rfl⟩ := List.mem_map.mp member
    rw [held] at member
    obtain ⟨position, standing⟩ := orderly.honoured _ member i t present own
    exact Registry.standing_issued registered position standing
  · have number := orderly'.numbered j t' present'
    rw [tables] at present'
    split at present'
    case isTrue =>
      cases present'
      exact ⟨.beforeFirst, by rw [Table.cursors_registering, Registry.standing_opened registered,
        if_pos rfl]⟩
    case isFalse other =>
      -- Tables are numbered, so no other table has issued the handle.
      have number' : i + 1 = j + 1 := by
        rw [← orderly.numbered i t present, ← own, ← number]
        exact issuer
      exact absurd (Nat.succ.inj number').symm other

theorem Orderly.closeCursor (orderly : s.Orderly keyings) {i : Nat} (held : s.cursor? name = some c)
    (done : (s.release name).act keyings i none (.closeCursor c) = some (reply, s')) :
    s'.Orderly keyings := by
  apply (orderly.release name).act done
  rintro ⟨other, c'⟩ member closes
  obtain ⟨member, left⟩ := List.mem_filter.mp member
  have same : (name, c) = (other, c') :=
    List.inj_on_of_nodup_map orderly.apart (mem_held held) member closes
  cases same
  simp at left

theorem Orderly.dropTable (orderly : s.Orderly keyings) {i : Nat} {failing : Bool}
    (done : s.dropTable i failing = some (reply, s')) : s'.Orderly keyings := by
  have held : s'.held = s.held := by
    obtain ⟨t, -, same⟩ := Option.map_eq_some_iff.mp done
    cases same
    rfl
  refine ⟨orderly.sprung.dropTable done, fun j t present => ?_, held ▸ orderly.apart,
    fun handle member j t present => ?_⟩
  · exact orderly.numbered j t (tableAt?_of_dropTable done present)
  · rw [held] at member
    exact orderly.honoured handle member j t (tableAt?_of_dropTable done present)

theorem Orderly.step (orderly : s.Orderly keyings) {step : Step K V}
    (done : s.step keyings step = some (reply, s')) : s'.Orderly keyings := by
  cases step with
  | ask i allowance request => exact orderly.act done fun _ _ closes => closes
  | openCursor i name =>
    obtain ⟨⟨answered, s''⟩, opened, same⟩ := exists_of_openCursor done
    have kept := orderly.openCursor opened name
    rw [same] at kept
    exact kept
  | steer i name request =>
    obtain ⟨c, -, steered⟩ := Option.bind_eq_some_iff.mp done
    exact orderly.act steered fun _ _ closes => closes
  | closeCursor i name =>
    obtain ⟨c, held, closed⟩ := Option.bind_eq_some_iff.mp done
    exact orderly.closeCursor held closed
  | dropCursor name failing =>
    obtain ⟨c, -, same⟩ := Option.map_eq_some_iff.mp done
    cases same
    exact orderly.release name
  | dropTable i failing => exact orderly.dropTable done

theorem Orderly.run {steps : List (Step K V)} (orderly : s.Orderly keyings)
    (ran : s.run keyings steps = some s') : s'.Orderly keyings := by
  induction steps generalizing s with
  | nil =>
    cases ran
    exact orderly
  | cons step rest ih =>
    obtain ⟨result, done, others⟩ := Option.bind_eq_some_iff.mp ran
    exact ih (orderly.step done) others

/-! ## What stops a step -/

theorem reply_hold (name : Int) (result : Reply (Answer K V) × Session K V) :
    (Session.hold name result).1 = result.1 := by
  unfold Session.hold
  split <;> rfl

theorem farewell_misuse_iff {failing : Bool} {misuse : Option Misuse} {cause : Misuse} :
    (farewell failing misuse : Reply (Answer K V)).answer = .error (.misuse cause) ↔
      failing = false ∧ misuse = some cause := by
  cases misuse <;> cases failing <;> simp [farewell]

theorem farewell_ne_breach (failing : Bool) (misuse : Option Misuse) (breach : Breach) :
    (farewell failing misuse : Reply (Answer K V)).answer ≠ .error (.breach breach) := by
  cases misuse <;> cases failing <;> simp [farewell]

/-- A cursor that its own table honours is only stopped at others. -/
theorem Orderly.use_misuse_iff (orderly : s.Orderly keyings) {i : Nat} {action : Action K V}
    (honoured : ∀ t, s.tableAt? i = some t → t.cursors.Honours c) (uses : Uses action c)
    (done : s.act keyings i none action = some (reply, s')) {cause : Misuse} :
    reply.answer = .error (.misuse cause) ↔
      cause = .foreignCursor ∧ ∃ t, s.tableAt? i = some t ∧ c.owner ≠ t.cursors.owner := by
  obtain ⟨t, present, rfl, -, -⟩ := exists_of_act done
  rw [Table.answer_misuse_iff (orderly.sprung i t present).sound,
    (honoured t present).forbids_iff uses]
  constructor
  · rintro ⟨rfl, foreign⟩
    exact ⟨rfl, t, present, foreign⟩
  · rintro ⟨rfl, t', present', foreign⟩
    cases present.symm.trans present'
    exact ⟨rfl, foreign⟩

/-- A step stops for misuse exactly where the rules of cursors are broken. -/
theorem Orderly.answer_misuse_iff (orderly : s.Orderly keyings) {step : Step K V}
    (done : s.step keyings step = some (reply, s')) (cause : Misuse) :
    reply.answer = .error (.misuse cause) ↔ s.Forbids step cause := by
  cases step with
  | ask i allowance request =>
    obtain ⟨t, present, rfl, -, -⟩ := exists_of_act done
    rw [Table.answer_misuse_iff (orderly.sprung i t present).sound]
    constructor
    · intro forbids
      cases forbids with
      | whileOpen needs busy => exact .whileOpen present needs busy
      | foreign uses => cases uses
    · intro forbids
      cases forbids with
      | whileOpen present' needs busy =>
        cases present.symm.trans present'
        exact .whileOpen needs busy
  | openCursor i name =>
    obtain ⟨⟨answered, s''⟩, opened, same⟩ := exists_of_openCursor done
    obtain ⟨t, -, rfl, -, -⟩ := exists_of_act opened
    have kept := reply_hold name ((t.act (keyings i) none .openCursor).1, s'')
    rw [same, Table.act_openCursor] at kept
    subst kept
    exact iff_of_false (fun stopped => by cases stopped) (fun forbids => by cases forbids)
  | steer i name request =>
    obtain ⟨c, held, steered⟩ := Option.bind_eq_some_iff.mp done
    have honoured := orderly.honoured _ (mem_held held) i
    rw [orderly.use_misuse_iff honoured (.steer c request) steered]
    constructor
    · rintro ⟨rfl, t, present, foreign⟩
      exact .foreignUse present held foreign
    · intro forbids
      cases forbids with
      | foreignUse present held' foreign =>
        cases held.symm.trans held'
        exact ⟨rfl, _, present, foreign⟩
  | closeCursor i name =>
    obtain ⟨c, held, closed⟩ := Option.bind_eq_some_iff.mp done
    have honoured := orderly.honoured _ (mem_held held) i
    rw [(orderly.release name).use_misuse_iff honoured (.closeCursor c) closed]
    constructor
    · rintro ⟨rfl, t, present, foreign⟩
      exact .foreignClose present held foreign
    · intro forbids
      cases forbids with
      | foreignClose present held' foreign =>
        cases held.symm.trans held'
        exact ⟨rfl, _, present, foreign⟩
  | dropCursor name failing =>
    obtain ⟨c, held, same⟩ := Option.map_eq_some_iff.mp done
    cases same
    rw [farewell_misuse_iff]
    constructor
    · rintro ⟨rfl, same⟩
      cases same
      exact .abandonedCursor held
    · intro forbids
      cases forbids
      exact ⟨rfl, rfl⟩
  | dropTable i failing =>
    obtain ⟨t, present, same⟩ := Option.map_eq_some_iff.mp done
    cases same
    rw [farewell_misuse_iff]
    constructor
    · rintro ⟨rfl, same⟩
      split at same
      case isTrue => cases same
      case isFalse busy =>
        cases same
        exact .abandonedTable present (Table.isQuiet_eq_false_iff.mp (by simpa using busy))
    · intro forbids
      cases forbids with
      | abandonedTable present' busy =>
        cases present.symm.trans present'
        exact ⟨rfl, by simp [Table.isQuiet_eq_false_iff.mpr busy]⟩

theorem Orderly.act_ne_breach (orderly : s.Orderly keyings) {i : Nat} {allowance : Option Nat}
    {action : Action K V} (done : s.act keyings i allowance action = some (reply, s'))
    (breach : Breach) : reply.answer ≠ .error (.breach breach) := by
  obtain ⟨t, present, rfl, -, -⟩ := exists_of_act done
  have sound := (orderly.sprung i t present).sound
  exact (Table.effect_act sound allowance action).answer_ne_breach breach

theorem Orderly.answer_ne_breach (orderly : s.Orderly keyings) {step : Step K V}
    (done : s.step keyings step = some (reply, s')) (breach : Breach) :
    reply.answer ≠ .error (.breach breach) := by
  cases step with
  | ask i allowance request => exact orderly.act_ne_breach done breach
  | openCursor i name =>
    obtain ⟨opened, ran, same⟩ := exists_of_openCursor done
    have kept := reply_hold name opened
    rw [same] at kept
    cases kept
    exact orderly.act_ne_breach ran breach
  | steer i name request =>
    obtain ⟨c, -, steered⟩ := Option.bind_eq_some_iff.mp done
    exact orderly.act_ne_breach steered breach
  | closeCursor i name =>
    obtain ⟨c, -, closed⟩ := Option.bind_eq_some_iff.mp done
    exact (orderly.release name).act_ne_breach closed breach
  | dropCursor name failing =>
    obtain ⟨c, -, same⟩ := Option.map_eq_some_iff.mp done
    cases same
    exact farewell_ne_breach failing _ breach
  | dropTable i failing =>
    obtain ⟨t, -, same⟩ := Option.map_eq_some_iff.mp done
    cases same
    exact farewell_ne_breach failing _ breach

/-- At any time of any session, whatever the hashes and the tests of sameness are: a step
stops for misuse exactly where it breaks a rule of cursors, and no step stops because a
check of a table's own records fails.  No table is below the least capacity, and every
cursor that stands on a slot stands on one that is there, vacant or not. -/
theorem only_misuse_stops {count : Nat} {steps : List (Step K V)}
    (ran : (start count).run keyings steps = some s) :
    (∀ step reply s', s.step keyings step = some (reply, s') →
      (∀ cause, reply.answer = .error (.misuse cause) ↔ s.Forbids step cause) ∧
      ∀ breach, reply.answer ≠ .error (.breach breach)) ∧
    ∀ i t, s.tableAt? i = some t → leastCapacity ≤ t.capacity ∧
      ∀ c loc, t.cursors.standing c = .ok (.on loc) →
        ∃ slot, t.directory.slotAt? loc = some slot := by
  have orderly := (orderly_start keyings count).run ran
  constructor
  · intro step reply s' done
    exact ⟨orderly.answer_misuse_iff done, orderly.answer_ne_breach done⟩
  · intro i t present
    have sound := (orderly.sprung i t present).sound
    exact ⟨sound.least_le, sound.seated⟩

/-- A cursor that stands on the slot it has emptied is not to be used on another table,
nor may its own table be cleared yet. -/
theorem only_misuse_stops_atMost :
    ∃ s t, (start 2).run (fun _ => Table.atMost)
        [.ask 0 none (.insert 9 90), .ask 0 none (.insert 12 120), .openCursor 0 7,
          .steer 0 7 .advance, .steer 0 7 .removeCurrent] = some s ∧
      s.Forbids (.steer 1 7 .advance) .foreignCursor ∧
      s.Forbids (.ask 0 none .clear) (.whileOpen .clear 1) ∧
      s.tableAt? 0 = some t ∧ t.cursors.standing ⟨1, 1, 1⟩ = .ok (.on ⟨3, 0⟩) ∧
      t.entryAt? ⟨3, 0⟩ = none ∧ ∃ slot, t.directory.slotAt? ⟨3, 0⟩ = some slot := by
  let t : Table Nat Nat := ⟨#[[], [], [], [none, some ⟨12, 120, 7⟩]], 1,
    ⟨1, [⟨1, some (.on ⟨3, 0⟩)⟩], []⟩⟩
  let s : Session Nat Nat := ⟨[some t, some (Table.new 2)], [(7, ⟨1, 1, 1⟩)]⟩
  have ran : (start 2).run (fun _ => Table.atMost)
      [.ask 0 none (.insert 9 90), .ask 0 none (.insert 12 120), .openCursor 0 7,
        .steer 0 7 .advance, .steer 0 7 .removeCurrent] = some s := by decide +kernel
  obtain ⟨stops, tables⟩ := only_misuse_stops ran
  have steered : s.step (fun _ => Table.atMost) (.steer 1 7 .advance) =
      some (⟨.error (.misuse .foreignCursor), [], []⟩, s) := rfl
  have cleared : s.step (fun _ => Table.atMost) (.ask 0 none .clear) =
      some (⟨.error (.misuse (.whileOpen .clear 1)), [], []⟩, s) := rfl
  have standing : t.cursors.standing ⟨1, 1, 1⟩ = .ok (.on ⟨3, 0⟩) := rfl
  exact ⟨s, t, ran, ((stops _ _ _ steered).1 _).mp rfl, ((stops _ _ _ cleared).1 _).mp rfl, rfl,
    standing, rfl, (tables 0 t rfl).2 _ _ standing⟩

end Session

end ChainTable
