import ChainTable.Proofs.Misuse

/-! # A call that is stopped does nothing

A table with cursors open stops insertions and clears, and a table that is handed a cursor
opened elsewhere stops every use of it, before it has reserved or logged anything: all
tables and the positions of all cursors stay as they are.  Only a close takes the handle
with it all the same, and the table that opened the cursor goes on counting it.
-/

namespace ChainTable

variable {K V α : Type}

/-- The faults that stop a call; a refusal of storage is an answer. -/
inductive Fault.Stops : Fault → Prop where
  | misuse (cause : Misuse) : Stops (.misuse cause)
  | breach (cause : Breach) : Stops (.breach cause)

def Reply.Stopped (reply : Reply α) : Prop := ∃ fault, reply.answer = .error fault ∧ fault.Stops

/-- Stopped before anything was reserved or logged. -/
def Reply.stop (cause : Misuse) : Reply α := ⟨.error (.misuse cause), [], []⟩

/-- The table at which a step opens a cursor under a name. -/
def Step.opensAs (name : Int) : Step K V → Option Nat
  | .openCursor i other => if other = name then some i else none
  | _ => none

/-- The table at which a cursor was opened last under a name. -/
def issuer (name : Int) (steps : List (Step K V)) : Option Nat :=
  steps.reverse.findSome? (Step.opensAs name)

theorem issuer_cons (name : Int) (step : Step K V) (steps : List (Step K V)) :
    issuer name (step :: steps) = (issuer name steps).or (step.opensAs name) := by
  simp [issuer, List.findSome?_append]

namespace Registry

theorem forbids_ask_iff {r : Registry} {request : Request K V} {call : QuietCall}
    {cause : Misuse} (needs : NeedsQuiet request call) :
    r.Forbids (.ask request) cause ↔ cause = .whileOpen call r.live ∧ r.live ≠ 0 := by
  constructor
  · intro forbids
    cases forbids with
    | whileOpen needs' busy =>
      cases needs <;> cases needs' <;> exact ⟨rfl, Nat.ne_of_gt busy⟩
    | foreign uses => cases uses
  · rintro ⟨rfl, busy⟩
    exact .whileOpen needs (Nat.pos_of_ne_zero busy)

end Registry

namespace Session

variable {keyings : Nat → Keying K} {s s' : Session K V} {t : Table K V}
  {reply : Reply (Answer K V)} {i : Nat} {name other : Int} {c : Cursor}

/-! ## The handles held -/

theorem lookup_of_filter {handles : List (Int × Cursor)}
    (found : (handles.filter fun handle => handle.1 != other).lookup name = some c) :
    name ≠ other ∧ handles.lookup name = some c := by
  induction handles with
  | nil => cases found
  | cons handle rest ih =>
    by_cases kept : handle.1 = other
    · have others := ih (by simpa [kept] using found)
      have differ : (name == handle.1) = false := by simpa [kept] using others.1
      rw [List.lookup_cons, differ]
      exact others
    · rw [List.filter_cons_of_pos (by simpa using kept), List.lookup_cons] at found
      rw [List.lookup_cons]
      cases here : name == handle.1 with
      | true =>
        rw [here] at found
        exact ⟨beq_iff_eq.mp here ▸ kept, found⟩
      | false =>
        rw [here] at found
        exact ih found

theorem cursor?_release (held : (s.release other).cursor? name = some c) :
    name ≠ other ∧ s.cursor? name = some c := lookup_of_filter held

/-- A handle held comes from the last open under its name. -/
theorem Orderly.issued_step (orderly : s.Orderly keyings) {step : Step K V}
    (done : s.step keyings step = some (reply, s')) (held : s'.cursor? name = some c) :
    (∃ i, step.opensAs name = some i ∧ c.owner = i + 1) ∨
      step.opensAs name = none ∧ s.cursor? name = some c := by
  cases step with
  | ask i allowance request =>
    obtain ⟨t, -, -, same, -⟩ := exists_of_act done
    rw [cursor?, same] at held
    exact .inr ⟨rfl, held⟩
  | openCursor i other =>
    obtain ⟨opened, ran, same⟩ := exists_of_openCursor done
    obtain ⟨answered, s''⟩ := opened
    obtain ⟨t, present, rfl, kept, -⟩ := exists_of_act ran
    rw [Table.act_openCursor] at same
    cases same
    simp only [cursor?, List.lookup_cons, kept] at held
    simp only [Step.opensAs]
    by_cases here : other = name
    · rw [here, beq_self_eq_true] at held
      cases held
      have own := (Registry.placed_opened (orderly.sprung i t present).sound.registered).own
      exact .inl ⟨i, if_pos here, own.trans (orderly.numbered i t present)⟩
    · rw [beq_false_of_ne (Ne.symm here)] at held
      exact .inr ⟨if_neg here, held⟩
  | steer i other request =>
    obtain ⟨c, -, steered⟩ := Option.bind_eq_some_iff.mp done
    obtain ⟨t, -, -, same, -⟩ := exists_of_act steered
    rw [cursor?, same] at held
    exact .inr ⟨rfl, held⟩
  | closeCursor i other =>
    obtain ⟨c, -, closed⟩ := Option.bind_eq_some_iff.mp done
    obtain ⟨t, -, -, same, -⟩ := exists_of_act closed
    rw [cursor?, same] at held
    exact .inr ⟨rfl, (cursor?_release held).2⟩
  | dropCursor other failing =>
    obtain ⟨c, -, same⟩ := Option.map_eq_some_iff.mp done
    cases same
    exact .inr ⟨rfl, (cursor?_release held).2⟩
  | dropTable i failing =>
    obtain ⟨t, -, same⟩ := Option.map_eq_some_iff.mp done
    cases same
    exact .inr ⟨rfl, held⟩

theorem Orderly.issued_run (orderly : s.Orderly keyings) {steps : List (Step K V)}
    (ran : s.run keyings steps = some s') (held : s'.cursor? name = some c) :
    (∃ i, issuer name steps = some i ∧ c.owner = i + 1) ∨
      issuer name steps = none ∧ s.cursor? name = some c := by
  induction steps generalizing s with
  | nil =>
    cases ran
    exact .inr ⟨rfl, held⟩
  | cons step rest ih =>
    obtain ⟨result, done, others⟩ := Option.bind_eq_some_iff.mp ran
    rw [issuer_cons]
    rcases ih (orderly.step done) others with ⟨i, later, own⟩ | ⟨later, held'⟩
    · exact .inl ⟨i, by rw [later, Option.some_or], own⟩
    · rw [later, Option.none_or]
      exact orderly.issued_step done held'

theorem exists_issuer {count : Nat} {steps : List (Step K V)}
    (ran : (start count).run keyings steps = some s) (held : s.cursor? name = some c) :
    ∃ i, issuer name steps = some i ∧ c.owner = i + 1 := by
  rcases (orderly_start keyings count).issued_run ran held with issued | ⟨-, unheld⟩
  · exact issued
  · cases unheld

/-! ## What a stop leaves -/

/-- A step that is stopped exactly where it is wrong, for one cause and doing nothing but
that the session is left so. -/
def StopsWhere (outcome : Option (Reply (Answer K V) × Session K V)) (wrong : Prop)
    (cause : Misuse) (left : Session K V) : Prop :=
  ∃ reply s', outcome = some (reply, s') ∧ (reply.Stopped ↔ wrong) ∧
    (wrong → reply = .stop cause ∧ s' = left)

theorem act_of_tableAt? (present : s.tableAt? i = some t) (allowance : Option Nat)
    (action : Action K V) :
    s.act keyings i allowance action = some ((t.act (keyings i) allowance action).1,
      { s with tables := s.tables.set i (some (t.act (keyings i) allowance action).2) }) := by
  simp only [Session.act, perform, present, Option.map_some]
  rfl

theorem set_tables_self (present : s.tableAt? i = some t) :
    s.tables.set i (some t) = s.tables := by
  obtain ⟨bound, here⟩ := List.getElem?_eq_some_iff.mp (Option.join_eq_some_iff.mp present)
  rw [← here, List.set_getElem_self]

/-- An action stops exactly where the cursors of its table forbid it, before it has done
anything. -/
theorem Orderly.stopsWhere (orderly : s.Orderly keyings) (present : s.tableAt? i = some t)
    {allowance : Option Nat} {action : Action K V} {wrong : Prop} {cause : Misuse}
    (rule : ∀ cause', t.cursors.Forbids action cause' ↔ cause' = cause ∧ wrong) :
    StopsWhere (s.act keyings i allowance action) wrong cause s := by
  have sound := (orderly.sprung i t present).sound
  refine ⟨_, _, act_of_tableAt? present allowance action, ⟨?_, ?_⟩, ?_⟩
  · rintro ⟨fault, stopped, stops⟩
    cases stops with
    | misuse cause' => exact ((rule cause').mp ((Table.answer_misuse_iff sound).mp stopped)).2
    | breach cause' =>
      exact absurd stopped ((Table.effect_act sound allowance action).answer_ne_breach cause')
  · intro broken
    exact ⟨_, (Table.answer_misuse_iff sound).mpr ((rule cause).mpr ⟨rfl, broken⟩), .misuse cause⟩
  · intro broken
    rw [Table.act_of_forbids ((rule cause).mpr ⟨rfl, broken⟩)]
    exact ⟨rfl, by rw [set_tables_self present]⟩

/-- At any time of any session: an insertion or a clear is stopped exactly where its table has
cursors open, and the use or the close of a cursor exactly where it was opened on another
table.  Nothing has been reserved or logged then, and the session is as before, but for the
handle of the cursor closed: it is gone, while the table that opened the cursor still counts
it. -/
theorem stopped_calls {count : Nat} {steps : List (Step K V)}
    (ran : (start count).run keyings steps = some s) :
    (∀ i t request call allowance, s.tableAt? i = some t → NeedsQuiet request call →
      StopsWhere (s.step keyings (.ask i allowance request)) (t.liveCursors ≠ 0)
        (.whileOpen call t.liveCursors) s) ∧
    ∀ i t name c, s.tableAt? i = some t → s.cursor? name = some c →
      ∃ j, issuer name steps = some j ∧
        (∀ request, StopsWhere (s.step keyings (.steer i name request)) (j ≠ i)
          .foreignCursor s) ∧
        StopsWhere (s.step keyings (.closeCursor i name)) (j ≠ i) .foreignCursor
          (s.release name) ∧
        (s.release name).tables = s.tables ∧ (s.release name).cursor? name = none ∧
        ∀ own, s.tableAt? j = some own → (∃ position, own.cursors.standing c = .ok position) ∧
          (own.cursors.closed c).live + 1 = own.liveCursors := by
  have orderly := (orderly_start keyings count).run ran
  refine ⟨fun i t request call allowance present needs => ?_,
    fun i t name c present held => ?_⟩
  · exact orderly.stopsWhere present fun cause => Registry.forbids_ask_iff needs
  · obtain ⟨j, issued, own⟩ := exists_issuer ran held
    have honoured := orderly.honoured _ (mem_held held)
    -- Tables are numbered, so the owner of a handle tells where it was opened.
    have elsewhere : c.owner ≠ t.cursors.owner ↔ j ≠ i := by
      rw [own, orderly.numbered i t present, ne_eq, Nat.succ_inj]
    have rule {action : Action K V} (uses : Uses action c) (cause : Misuse) :
        t.cursors.Forbids action cause ↔ cause = .foreignCursor ∧ j ≠ i := by
      rw [(honoured i t present).forbids_iff uses, elsewhere]
    refine ⟨j, issued, fun request => ?_, ?_, rfl, ?_, fun own' present' => ?_⟩
    · simp only [Session.step, held, Option.bind_some]
      exact orderly.stopsWhere present (rule (.steer c request))
    · simp only [Session.step, held, Option.bind_some]
      exact (orderly.release name).stopsWhere present (rule (.closeCursor c))
    · cases left : (s.release name).cursor? name with
      | none => rfl
      | some c' => exact absurd rfl (cursor?_release left).1
    · obtain ⟨position, standing⟩ :=
        honoured j own' present' (own.trans (orderly.numbered j own' present').symm)
      exact ⟨⟨position, standing⟩, Registry.live_closed standing⟩

/-- Two cursors in the same place and generation of two tables. -/
theorem stopped_calls_twins :
    ∃ s own, (start 2).run (fun _ => lastDigit)
        [.ask 0 none (.insert 1 10), .openCursor 0 7, .steer 0 7 .advance, .openCursor 1 8] =
          some s ∧
      s.cursor? 7 = some ⟨1, 1, 1⟩ ∧ s.cursor? 8 = some ⟨2, 1, 1⟩ ∧
      s.step (fun _ => lastDigit) (.steer 1 7 .advance) = some (.stop .foreignCursor, s) ∧
      s.step (fun _ => lastDigit) (.closeCursor 1 7) =
        some (.stop .foreignCursor, s.release 7) ∧
      (s.release 7).tableAt? 0 = some own ∧ (own.cursors.closed ⟨1, 1, 1⟩).live = 0 ∧
      own.liveCursors = 1 ∧
      s.step (fun _ => lastDigit) (.ask 0 none .clear) =
        some (.stop (.whileOpen .clear 1), s) := by
  let own : Table Nat Nat := ⟨#[[], [some ⟨1, 10, 1⟩], [], []], 1,
    ⟨1, [⟨1, some (.on ⟨1, 0⟩)⟩], []⟩⟩
  let other : Table Nat Nat := ⟨#[[], [], [], []], 0, ⟨2, [⟨1, some .beforeFirst⟩], []⟩⟩
  let s : Session Nat Nat := ⟨[some own, some other], [(8, ⟨2, 1, 1⟩), (7, ⟨1, 1, 1⟩)]⟩
  let steps : List (Step Nat Nat) :=
    [.ask 0 none (.insert 1 10), .openCursor 0 7, .steer 0 7 .advance, .openCursor 1 8]
  have ran : (start 2).run (fun _ => lastDigit) steps = some s := by decide +kernel
  obtain ⟨quiet, uses⟩ := stopped_calls ran
  obtain ⟨reply, left, cleared, -, stop⟩ := quiet 0 own .clear .clear none rfl .clear
  obtain ⟨rfl, rfl⟩ := stop (by decide)
  obtain ⟨j, issued, steers, closes, -, -, counted⟩ := uses 1 other 7 ⟨1, 1, 1⟩ rfl rfl
  cases issued
  obtain ⟨reply, left, steered, -, stop⟩ := steers .advance
  obtain ⟨rfl, rfl⟩ := stop (by decide)
  obtain ⟨reply, left, closed, -, stop⟩ := closes
  obtain ⟨rfl, rfl⟩ := stop (by decide)
  exact ⟨s, own, ran, rfl, rfl, steered, closed, rfl, rfl, (counted own rfl).2.symm, cleared⟩

end Session

end ChainTable
