import ChainTable.Proofs.Layout
import ChainTable.Proofs.Ledger
import ChainTable.Proofs.Stops

/-! # What becomes of every handle

A handle is issued by one table and held by the caller, and then it is taken back by that table
or lost: dropped, or used up by a close at another table.  The ledger of a session notes all of
this (`Session.ledger`), and the registries of its tables agree with it.  A lost handle is held
by nobody any more, so it is not taken back, and its table goes on counting the cursor.
-/

namespace ChainTable

variable {K V : Type}

/-! ## Sessions -/

namespace Session

/-- What a step makes of handles. -/
def deeds (s : Session K V) (reply : Reply (Answer K V)) : Step K V → List Deed
  | .openCursor i _ => (Action.openCursor : Action K V).deeds i reply.answer
  | .closeCursor i name =>
    (s.cursor? name).elim [] fun c => (Action.closeCursor c : Action K V).deeds i reply.answer
  | .dropCursor name _ => (s.cursor? name).toList.map .lost
  | .ask .. | .steer .. | .dropTable .. => []

/-- What some steps make of handles, in order. -/
def ledger (keyings : Nat → Keying K) (s : Session K V) : List (Step K V) → List Deed
  | [] => []
  | step :: rest =>
    match s.step keyings step with
    | none => []
    | some (reply, s') => s.deeds reply step ++ ledger keyings s' rest

/-- The ledger is that of the session. -/
structure Books (s : Session K V) (deeds : List Deed) : Prop where
  sensible : Deed.Sensible deeds
  held : ∀ handle ∈ s.held, Deed.Out deeds handle.2
  booked : ∀ i t, s.tableAt? i = some t → t.cursors.Booked i deeds

variable {keyings : Nat → Keying K} {s s' : Session K V} {deeds : List Deed}
  {reply : Reply (Answer K V)} {i : Nat} {t : Table K V}

theorem Books.fresh (books : s.Books deeds) (orderly : s.Orderly keyings)
    (present : s.tableAt? i = some t) : t.cursors.opened.1 ∉ Deed.handles deeds := by
  have formed := (orderly.sprung i t present).sound.registered
  intro member
  obtain ⟨j, issued⟩ := Deed.mem_handles.mp member
  -- The handle bears the number of the table, so that table would have issued it before.
  have number := books.sensible.numbered j _ issued
  rw [(Registry.placed_opened formed).own, orderly.numbered i t present, Nat.succ_inj] at number
  subst number
  exact Registry.not_knows_issued formed ((books.booked i t present).known _ issued)

theorem Books.change (books : s.Books deeds) (orderly : s.Orderly keyings)
    (present : s.tableAt? i = some t) {action : Action K V} {answer : Except Fault (Answer K V)}
    {cursors : Registry} (change : t.cursors.Change action answer cursors)
    (out : ∀ c, action = .closeCursor c → Deed.Out deeds c ∧ ∀ handle ∈ s.held, handle.2 ≠ c) :
    Deed.Sensible (deeds ++ action.deeds i answer) ∧
      (∀ handle ∈ s.held, Deed.Out (deeds ++ action.deeds i answer) handle.2) ∧
      cursors.Booked i (deeds ++ action.deeds i answer) ∧
      ∀ j u, j ≠ i → s.tableAt? j = some u →
        u.cursors.Booked j (deeds ++ action.deeds i answer) := by
  have formed := (orderly.sprung i t present).sound.registered
  have booked := books.booked i t present
  cases change with
  | kept unopened unclosed =>
    have nothing : action.deeds i answer = [] := by
      cases action with
      | ask | steer => rfl
      | openCursor => exact absurd rfl unopened
      | closeCursor c => exact absurd rfl (unclosed c)
    rw [nothing, List.append_nil]
    exact ⟨books.sensible, books.held, booked, fun j u _ => books.booked j u⟩
  | opened =>
    have fresh := books.fresh orderly present
    have unknown : ∀ j, .returned j t.cursors.opened.1 ∉ deeds := fun j member =>
      fresh (Deed.mem_handles.mpr ⟨j, books.sensible.returned j _ member⟩)
    have number := (Registry.placed_opened formed).own.trans (orderly.numbered i t present)
    refine ⟨books.sensible.issue fresh number, fun handle member => ?_,
      booked.issue formed fresh (unknown i), fun j u elsewhere present' => ?_⟩
    · have known := books.held handle member
      exact known.append fun (same : t.cursors.opened.1 = handle.2) => fresh (same ▸ known.issued)
    · apply (books.booked j u present').of_same
      · intro c issued
        simpa [Action.deeds, elsewhere] using issued
      · exact (Deed.unreturned_issued fresh (unknown i)).trans (by simp [Ne.symm elsewhere])
  | moved standing position =>
    simp only [Action.deeds, List.append_nil]
    exact ⟨books.sensible, books.held, booked.move standing position, fun j u _ => books.booked j u⟩
  | @closed c _ standing =>
    obtain ⟨known, others⟩ := out c rfl
    have issued := (Deed.mem_unreturned.mp ((booked.standing_iff c).mpr ⟨_, standing⟩)).1
    refine ⟨books.sensible.take known issued, fun handle member => ?_,
      booked.take books.sensible standing, fun j u elsewhere present' => ?_⟩
    · exact (books.held handle member).append (others handle member).symm
    · apply (books.booked j u present').of_same
      · intro c issued
        simpa [Action.deeds] using issued
      · exact Deed.unreturned_returned.trans (by simp [Ne.symm elsewhere])
  | refused c fault =>
    obtain ⟨known, others⟩ := out c rfl
    exact ⟨books.sensible.lose known,
      fun handle member => (books.held handle member).append (others handle member).symm,
      booked.lost c, fun j u _ present' => (books.booked j u present').lost c⟩

theorem Books.act (books : s.Books deeds) (orderly : s.Orderly keyings) {allowance : Option Nat}
    {action : Action K V} (done : s.act keyings i allowance action = some (reply, s'))
    (out : ∀ c, action = .closeCursor c → Deed.Out deeds c ∧ ∀ handle ∈ s.held, handle.2 ≠ c) :
    s'.Books (deeds ++ action.deeds i reply.answer) := by
  obtain ⟨t, present, rfl, held, tables⟩ := exists_of_act done
  have effect := Table.effect_act (orderly.sprung i t present).sound allowance action
  obtain ⟨sensible, known, own, others⟩ := books.change orderly present effect.change out
  refine ⟨sensible, by rw [held]; exact known, fun j u present' => ?_⟩
  rw [tables] at present'
  split at present'
  case isTrue here =>
    subst here
    cases present'
    exact own
  case isFalse elsewhere => exact others j u elsewhere present'

theorem Books.release (books : s.Books deeds) (name : Int) : (s.release name).Books deeds where
  sensible := books.sensible
  held handle member := books.held handle (List.mem_filter.mp member).1
  booked := books.booked

theorem Orderly.released (orderly : s.Orderly keyings) {name : Int} {c : Cursor}
    (held : s.cursor? name = some c) : ∀ handle ∈ (s.release name).held, handle.2 ≠ c := by
  rintro ⟨other, c'⟩ member same
  obtain ⟨member, left⟩ := List.mem_filter.mp member
  have twice : (name, c) = (other, c') :=
    List.inj_on_of_nodup_map orderly.apart (mem_held held) member same.symm
  cases twice
  simp at left

/-- Every step is entered into the ledger. -/
theorem Books.step (books : s.Books deeds) (orderly : s.Orderly keyings) {step : Step K V}
    (done : s.step keyings step = some (reply, s')) :
    s'.Books (deeds ++ s.deeds reply step) := by
  cases step with
  | ask i allowance request => exact books.act orderly done nofun
  | openCursor i name =>
    obtain ⟨⟨answered, s''⟩, opened, same⟩ := exists_of_openCursor done
    have kept := books.act orderly opened nofun
    obtain ⟨t, present, rfl, held, -⟩ := exists_of_act opened
    have fresh := books.fresh orderly present
    rw [Table.act_openCursor] at same kept
    cases same
    refine ⟨kept.sensible, List.forall_mem_cons.mpr ⟨⟨?_, fun j member => ?_, fun member => ?_⟩,
      kept.held⟩, kept.booked⟩
    · simp [Session.deeds, Action.deeds, Deed.handles]
    · have former : .returned j t.cursors.opened.1 ∈ deeds := by
        simpa [Session.deeds, Action.deeds] using member
      exact fresh (Deed.mem_handles.mpr ⟨j, books.sensible.returned j _ former⟩)
    · have former : .lost t.cursors.opened.1 ∈ deeds := by
        simpa [Session.deeds, Action.deeds] using member
      exact fresh (books.sensible.lost _ former).1
  | steer i name request =>
    obtain ⟨c, -, steered⟩ := Option.bind_eq_some_iff.mp done
    exact books.act orderly steered fun c' same => by cases same
  | closeCursor i name =>
    obtain ⟨c, held, closed⟩ := Option.bind_eq_some_iff.mp done
    have noted := (books.release name).act (orderly.release name) closed fun c' same => by
      cases same
      exact ⟨books.held _ (mem_held held), orderly.released held⟩
    simpa only [Session.deeds, held, Option.elim_some] using noted
  | dropCursor name failing =>
    obtain ⟨c, held, same⟩ := Option.map_eq_some_iff.mp done
    cases same
    have out := books.held _ (mem_held held)
    simp only [Session.deeds, held, Option.toList_some, List.map_cons, List.map_nil]
    refine ⟨books.sensible.lose out, fun handle member => ?_, fun j t present => ?_⟩
    · have other := orderly.released held handle member
      exact ((books.release name).held handle member).append other.symm
    · exact (books.booked j t present).lost c
  | dropTable i failing =>
    have held : s'.held = s.held := by
      obtain ⟨t, -, same⟩ := Option.map_eq_some_iff.mp done
      cases same
      rfl
    simp only [Session.deeds, List.append_nil]
    exact ⟨books.sensible, held ▸ books.held,
      fun j t present => books.booked j t (tableAt?_of_dropTable done present)⟩

theorem Books.run (books : s.Books deeds) (orderly : s.Orderly keyings) {steps : List (Step K V)}
    (ran : s.run keyings steps = some s') : s'.Books (deeds ++ s.ledger keyings steps) := by
  induction steps generalizing s deeds with
  | nil =>
    cases ran
    simpa [ledger] using books
  | cons step rest ih =>
    obtain ⟨⟨reply, s''⟩, done, others⟩ := Option.bind_eq_some_iff.mp ran
    have further := ih (books.step orderly done) (orderly.step done) others
    simpa only [ledger, done, List.append_assoc] using further

theorem books_start (count : Nat) : (start count : Session K V).Books [] where
  sensible := Deed.sensible_nil
  held := nofun
  booked i t present := by
    rw [tableAt?_start present]
    exact Registry.booked_new (i + 1) i

/-! ## One table of a session -/

/-- The step is made through the handle or, where it is an open, issues it. -/
inductive Touches (s : Session K V) (reply : Reply (Answer K V)) (c : Cursor) :
    Step K V → Prop where
  | opened {i name} (issued : reply.answer = .ok (.cursor c)) :
      Touches s reply c (.openCursor i name)
  | steered {i name request} (held : s.cursor? name = some c) :
      Touches s reply c (.steer i name request)
  | closed {i name} (held : s.cursor? name = some c) : Touches s reply c (.closeCursor i name)

/-- What a step has made of table `i`: nothing, or what one action makes of it, which touches no
other handle than the step does. -/
inductive Became (keyings : Nat → Keying K) (s : Session K V) (reply : Reply (Answer K V))
    (step : Step K V) (i : Nat) (t : Table K V) : Table K V → Prop where
  | kept : Became keyings s reply step i t t
  | acted {allowance action t'} (acted : t.act (keyings i) allowance action = (reply, t'))
      (touches : ∀ c, Action.Touches reply.answer c action → s.Touches reply c step) :
      Became keyings s reply step i t t'

variable {step : Step K V} {j : Nat} {t' : Table K V}

theorem became_of_act {s₀ : Session K V} {allowance : Option Nat} {action : Action K V}
    (done : s.act keyings i allowance action = some (reply, s'))
    (touches : ∀ c, Action.Touches reply.answer c action → s₀.Touches reply c step)
    (present' : s'.tableAt? j = some t') :
    ∃ t, s.tableAt? j = some t ∧ Became keyings s₀ reply step j t t' := by
  obtain ⟨t, present, rfl, -, tables⟩ := exists_of_act done
  rw [tables] at present'
  split at present'
  case isTrue here =>
    subst here
    cases present'
    exact ⟨t, present, .acted rfl touches⟩
  case isFalse => exact ⟨t', present', .kept⟩

/-- A table that is there after a step was there before it. -/
theorem exists_became (done : s.step keyings step = some (reply, s'))
    (present' : s'.tableAt? j = some t') :
    ∃ t, s.tableAt? j = some t ∧ Became keyings s reply step j t t' := by
  cases step with
  | ask i allowance request =>
    refine became_of_act done (fun c touches => ?_) present'
    cases touches with
    | uses uses => cases uses
  | openCursor i name =>
    obtain ⟨⟨answered, s''⟩, opened, same⟩ := exists_of_openCursor done
    have answer := reply_hold name (answered, s'')
    have tables : ∀ k, (Session.hold name (answered, s'')).2.tableAt? k = s''.tableAt? k := by
      intro k
      unfold Session.hold
      split <;> rfl
    rw [same] at answer tables
    subst answer
    refine became_of_act opened (fun c touches => ?_) ((tables j).symm.trans present')
    cases touches with
    | uses uses => cases uses
    | issues issued => exact .opened issued
  | steer i name request =>
    obtain ⟨c, held, steered⟩ := Option.bind_eq_some_iff.mp done
    refine became_of_act steered (fun c' touches => ?_) present'
    cases touches with
    | uses uses =>
      cases uses
      exact .steered held
  | closeCursor i name =>
    obtain ⟨c, held, closed⟩ := Option.bind_eq_some_iff.mp done
    refine became_of_act (s := s.release name) closed (fun c' touches => ?_) present'
    cases touches with
    | uses uses =>
      cases uses
      exact .closed held
  | dropCursor name failing =>
    obtain ⟨c, held, same⟩ := Option.map_eq_some_iff.mp done
    cases same
    exact ⟨t', present', .kept⟩
  | dropTable i failing => exact ⟨t', tableAt?_of_dropTable done present', .kept⟩

theorem Became.standing_eq (became : Became keyings s reply step i t t')
    (sound : t.Sound (keyings i)) {c : Cursor} (untouched : ¬ s.Touches reply c step) :
    t'.cursors.standing c = t.cursors.standing c := by
  cases became with
  | kept => rfl
  | acted acted touches =>
    have change := (Table.effect_of_act sound acted).change
    exact change.standing_eq sound.registered fun touched => untouched (touches c touched)

theorem Became.capacity_eq (became : Became keyings s reply step i t t')
    (sound : t.Sound (keyings i)) (busy : 0 < t.liveCursors) : t'.capacity = t.capacity := by
  cases became with
  | kept => rfl
  | acted acted =>
    have effect := Table.effect_of_act sound acted
    exact (effect.sameShape (Table.isQuiet_eq_false_iff.mpr busy)).1.capacity

/-! ## Lost handles -/

variable {c : Cursor}

/-- A lost handle is of a cursor that is still open. -/
theorem Books.standing_of_lost (books : s.Books deeds) (lost : .lost c ∈ deeds)
    (issued : .issued i c ∈ deeds) (present : s.tableAt? i = some t) :
    ∃ position, t.cursors.standing c = .ok position := by
  have unreturned := (books.sensible.lost c lost).2 i
  have booked := books.booked i t present
  exact (booked.standing_iff c).mp (Deed.mem_unreturned.mpr ⟨issued, unreturned⟩)

/-- The capacity of a table that has lost a handle does not change any more. -/
theorem Books.capacity_run (books : s.Books deeds) (orderly : s.Orderly keyings)
    (lost : .lost c ∈ deeds) (issued : .issued i c ∈ deeds) {steps : List (Step K V)}
    (ran : s.run keyings steps = some s') (present' : s'.tableAt? i = some t') :
    ∃ t, s.tableAt? i = some t ∧ t'.capacity = t.capacity := by
  induction steps generalizing s deeds with
  | nil =>
    cases ran
    exact ⟨t', present', rfl⟩
  | cons step rest ih =>
    obtain ⟨⟨reply, s₁⟩, done, others⟩ := Option.bind_eq_some_iff.mp ran
    obtain ⟨t₁, present₁, further⟩ := ih (books.step orderly done) (orderly.step done)
      (List.mem_append_left _ lost) (List.mem_append_left _ issued) others
    obtain ⟨t, present, became⟩ := exists_became done present₁
    obtain ⟨position, standing⟩ := books.standing_of_lost lost issued present
    have first := became.capacity_eq (orderly.sprung i t present).sound
      (Registry.live_pos standing)
    exact ⟨t, present, further.trans first⟩

theorem step_of_forbids {request : Request K V} {cause : Misuse} {allowance : Option Nat}
    (present : s.tableAt? i = some t)
    (forbids : t.cursors.Forbids (.ask request : Action K V) cause) :
    s.step keyings (.ask i allowance request) = some (.stop cause, s) := by
  show s.act keyings i allowance (.ask request) = _
  rw [act_of_tableAt? present, Table.act_of_forbids forbids, set_tables_self present]
  rfl

/-- At any time of any session: no handle has been issued twice.  The cursors open on a table
are those of the handles it has issued and not taken back, as many as it counts and each in a
place of its own.  A step leaves every cursor where it stands but the one that it touches.  And a
table that has issued a handle which was lost since, in a drop or in a close elsewhere, counts
it for ever: whatever follows, it refuses insertions and clears, and its capacity stays. -/
theorem handles_accounted {count : Nat} {steps : List (Step K V)}
    (ran : (start count).run keyings steps = some s) :
    let deeds := (start count).ledger keyings steps
    (Deed.handles deeds).Nodup ∧
    (∀ i t, s.tableAt? i = some t →
      t.liveCursors = (Deed.unreturned i deeds).length ∧
      (∀ c, c ∈ Deed.unreturned i deeds ↔ ∃ position, t.cursors.standing c = .ok position) ∧
      ∀ c ∈ Deed.unreturned i deeds, ∀ c' ∈ Deed.unreturned i deeds,
        c.place = c'.place → c = c') ∧
    (∀ step reply s', s.step keyings step = some (reply, s') →
      ∀ c, ¬ s.Touches reply c step → ∀ i t t', s.tableAt? i = some t →
        s'.tableAt? i = some t' → t'.cursors.standing c = t.cursors.standing c) ∧
    ∀ c i t, .lost c ∈ deeds → .issued i c ∈ deeds → s.tableAt? i = some t →
      ∀ later s' t', s.run keyings later = some s' → s'.tableAt? i = some t' →
        (∃ position, t'.cursors.standing c = .ok position) ∧ t'.capacity = t.capacity ∧
        ∀ request call allowance, NeedsQuiet request call →
          s'.step keyings (.ask i allowance request) =
            some (.stop (.whileOpen call t'.liveCursors), s') := by
  intro deeds
  have orderly := (orderly_start keyings count).run ran
  have books : s.Books deeds := (books_start count).run (orderly_start keyings count) ran
  refine ⟨books.sensible.distinct, fun i t present => ?_, ?_, ?_⟩
  · have booked := books.booked i t present
    refine ⟨booked.live_eq, booked.standing_iff, fun c member c' member' place => ?_⟩
    obtain ⟨position, standing⟩ := (booked.standing_iff c).mp member
    obtain ⟨position', standing'⟩ := (booked.standing_iff c').mp member'
    exact Registry.eq_of_standing standing standing' place
  · intro step reply s' done c untouched i t t' present present'
    obtain ⟨former, here, became⟩ := exists_became done present'
    cases present.symm.trans here
    exact became.standing_eq (orderly.sprung i t present).sound untouched
  · intro c i t lost issued present later s' t' ran' present'
    obtain ⟨position, standing⟩ := (books.run orderly ran').standing_of_lost
      (List.mem_append_left _ lost) (List.mem_append_left _ issued) present'
    refine ⟨⟨position, standing⟩, ?_, fun request call allowance needs => ?_⟩
    · obtain ⟨former, here, kept⟩ := books.capacity_run orderly lost issued ran' present'
      cases present.symm.trans here
      exact kept
    · exact step_of_forbids present' (.whileOpen needs (Registry.live_pos standing))

/-- A place that is used again, a handle lost in a close at another table and one dropped. -/
theorem handles_accounted_reused :
    let steps : List (Step Nat Nat) :=
      [.openCursor 0 1, .openCursor 0 2, .openCursor 1 3, .closeCursor 0 1, .openCursor 0 4,
        .closeCursor 1 4, .dropCursor 2 false]
    let deeds := (start 2).ledger (fun _ => lastDigit) steps
    ∃ s t, (start 2).run (fun _ => lastDigit) steps = some s ∧ s.tableAt? 0 = some t ∧
      deeds = [.issued 0 ⟨1, 1, 1⟩, .issued 0 ⟨1, 2, 1⟩, .issued 1 ⟨2, 1, 1⟩,
        .returned 0 ⟨1, 1, 1⟩, .issued 0 ⟨1, 1, 3⟩, .lost ⟨1, 1, 3⟩, .lost ⟨1, 2, 1⟩] ∧
      (Deed.handles deeds).Nodup ∧ t.liveCursors = 2 ∧
      t.cursors.standing ⟨1, 1, 3⟩ = .ok .beforeFirst ∧
      (∀ reply s' t', s.step (fun _ => lastDigit) (.openCursor 0 5) = some (reply, s') →
        s'.tableAt? 0 = some t' → t'.cursors.standing ⟨1, 1, 3⟩ = .ok .beforeFirst) ∧
      s.step (fun _ => lastDigit) (.ask 0 none .clear) =
        some (.stop (.whileOpen .clear 2), s) ∧
      ∀ later s' t', s.run (fun _ => lastDigit) later = some s' → s'.tableAt? 0 = some t' →
        t'.capacity = 4 := by
  intro steps deeds
  let t : Table Nat Nat := ⟨#[[], [], [], []], 0,
    ⟨1, [⟨3, some .beforeFirst⟩, ⟨1, some .beforeFirst⟩], []⟩⟩
  let other : Table Nat Nat := ⟨#[[], [], [], []], 0, ⟨2, [⟨1, some .beforeFirst⟩], []⟩⟩
  let s : Session Nat Nat := ⟨[some t, some other], [(3, ⟨2, 1, 1⟩)]⟩
  have ran : (start 2).run (fun _ => lastDigit) steps = some s := by decide +kernel
  have noted : deeds = [.issued 0 ⟨1, 1, 1⟩, .issued 0 ⟨1, 2, 1⟩, .issued 1 ⟨2, 1, 1⟩,
      .returned 0 ⟨1, 1, 1⟩, .issued 0 ⟨1, 1, 3⟩, .lost ⟨1, 1, 3⟩, .lost ⟨1, 2, 1⟩] := by
    decide +kernel
  have accounted := handles_accounted ran
  dsimp only at accounted
  change (start 2).ledger (fun _ => lastDigit) steps = _ at noted
  rw [noted] at accounted
  obtain ⟨distinct, tables, others, lost⟩ := accounted
  have lasting := lost ⟨1, 1, 3⟩ 0 t (by decide) (by decide) rfl
  obtain ⟨-, -, quiet⟩ := lasting [] s t rfl rfl
  refine ⟨s, t, ran, rfl, noted, ?_, (tables 0 t rfl).1, rfl, fun reply s' t' done present => ?_,
    quiet .clear .clear none .clear, fun later s' t' ran' present' =>
      (lasting later s' t' ran' present').2.1⟩
  · change (Deed.handles ((start 2).ledger (fun _ => lastDigit) steps)).Nodup
    rw [noted]
    exact distinct
  · refine others _ reply s' done ⟨1, 1, 3⟩ (fun touched => ?_) 0 t t' rfl present
    cases touched with
    | opened issued =>
      cases done
      cases issued

end Session

end ChainTable
