import ChainTable.Proofs.Preservation

/-! # What a cursor meets

While a cursor is open the entries of its table only thin out: none comes in, none
moves, none changes its key, and one that goes is answered by the call that removes it
(`Event.Thins`).  So a cursor meets, in order and each once, the entries that were live
when it was opened, less those removed before it passed them (`Traverses`), whatever
else is called in between.
-/

namespace ChainTable

variable {K V : Type}

/-! ## The entries ahead of a position -/

def Position.Reaches : Position → Location → Prop
  | .beforeFirst, _ => True
  | .on loc, other => loc.Before other
  | .exhausted, _ => False

theorem Position.Reaches.later {position : Position} {loc other : Location}
    (reached : position.Reaches loc) (passes : loc.Before other) : position.Reaches other := by
  cases position with
  | beforeFirst => trivial
  | on former => exact Location.Before.trans reached passes
  | exhausted => exact reached

namespace Table

variable {t : Table K V} {position : Position}

theorem mem_pending {loc : Location} {e : Entry K V} :
    (loc, e) ∈ t.pending position ↔ t.entryAt? loc = some e ∧ position.Reaches loc := by
  cases position with
  | beforeFirst => simp [pending, Position.Reaches, Directory.mem_live, entryAt?_eq]
  | on former =>
    rw [pending, Directory.mem_ahead, Location.not_before_next, entryAt?_eq]
    rfl
  | exhausted => simp [pending, Position.Reaches]

theorem pairwise_pending (position : Position) (t : Table K V) :
    (t.pending position).Pairwise fun a b => a.1.Before b.1 := by
  cases position with
  | beforeFirst => exact t.directory.pairwise_live
  | on former => exact t.directory.pairwise_live.filter _
  | exhausted => exact .nil

end Table

/-! ## Thinning out -/

inductive Removes (keying : Keying K) :
    Action K V → Except Fault (Answer K V) → Entry K V → Prop where
  | taken {request key answer e} (takes : Takes request key answer)
      (answers : Directory.answers keying key e = true) :
      Removes keying (.ask request) (.ok (answer (some e.pair))) e
  | current (c : Cursor) (e : Entry K V) :
      Removes keying (.steer c .removeCurrent) (.ok (.pair (some e.pair))) e

/-- A call after which every slot is vacant that was vacant before, and every entry is
where it was, with its key and hash, unless the call answers that it took it out. -/
structure Event.Thins (keying : Keying K) (event : Event K V) : Prop where
  vacant : ∀ loc, event.before.entryAt? loc = none → event.after.entryAt? loc = none
  live : ∀ loc e, event.before.entryAt? loc = some e →
    (∃ value, event.after.entryAt? loc = some { e with value }) ∨
      event.after.entryAt? loc = none ∧ Removes keying event.call.action event.answer e

/-- An entry there afterwards was there before, with the same key and hash. -/
theorem Event.Thins.former {keying : Keying K} {event : Event K V} (thins : event.Thins keying)
    {loc : Location} {e' : Entry K V} (after : event.after.entryAt? loc = some e') :
    ∃ e, event.before.entryAt? loc = some e ∧ e'.key = e.key ∧ e'.hash = e.hash := by
  cases before : event.before.entryAt? loc with
  | none =>
    rw [thins.vacant loc before] at after
    cases after
  | some e =>
    rcases thins.live loc e before with ⟨value, kept⟩ | ⟨gone, -⟩
    · rw [kept] at after
      cases after
      exact ⟨e, rfl, rfl, rfl⟩
    · rw [gone] at after
      cases after

namespace Table

variable {keying : Keying K} {allowance : Option Nat} {t t' : Table K V} {action : Action K V}
  {reply : Reply (Answer K V)}

/-- Two tables with the same entries at the same locations, but for the values. -/
def Revalued (t t' : Table K V) : Prop :=
  ∀ loc, (t.entryAt? loc = none → t'.entryAt? loc = none) ∧
    ∀ e, t.entryAt? loc = some e → ∃ value, t'.entryAt? loc = some { e with value }

theorem Revalued.refl (t : Table K V) : t.Revalued t :=
  fun _ => ⟨id, fun e live => ⟨e.value, live⟩⟩

theorem Revalued.rewritten (revalued : t.Revalued t') {loc : Location} {e : Entry K V}
    (live : t'.entryAt? loc = some e) (value : V) :
    t.Revalued (t'.rewritten loc { e with value }) := by
  intro other
  rw [entryAt?_rewritten other live]
  split
  case isTrue here =>
    subst here
    obtain ⟨vacant, occupied⟩ := revalued other
    refine ⟨fun before => ?_, fun e' before => ?_⟩
    · rw [vacant before] at live
      cases live
    · obtain ⟨former, after⟩ := occupied e' before
      rw [live] at after
      cases after
      exact ⟨value, rfl⟩
  case isFalse => exact revalued other

theorem Revalued.registering (revalued : t.Revalued t') (cursors : Registry) :
    t.Revalued (t'.registering cursors) := revalued

theorem Revalued.thins {call : Invocation K V} {answer : Except Fault (Answer K V)}
    (revalued : t.Revalued t') : Event.Thins keying ⟨t, call, answer, t'⟩ :=
  ⟨fun loc => (revalued loc).1, fun loc e live => .inl ((revalued loc).2 e live)⟩

theorem thins_without {call : Invocation K V} {answer : Except Fault (Answer K V)}
    {loc : Location} {e : Entry K V} (live : t.entryAt? loc = some e)
    (removes : Removes keying call.action answer e) :
    Event.Thins keying ⟨t, call, answer, t.without loc⟩ := by
  constructor
  · intro other vacant
    simp only [entryAt?_without other live, vacant, ite_self]
  · intro other e' occupied
    simp only [entryAt?_without other live]
    split
    case isTrue here =>
      subst here
      rw [live] at occupied
      cases occupied
      exact .inr ⟨rfl, removes⟩
    case isFalse => exact .inl ⟨e'.value, occupied⟩

/-- While a cursor is open every action thins the entries out. -/
theorem Effect.thins (busy : t.isQuiet = false)
    (effect : Effect keying allowance t action reply t') :
    Event.Thins keying ⟨t, ⟨allowance, action⟩, reply.answer, t'⟩ := by
  cases effect with
  -- What could bring in or move entries needs that no cursor is open.
  | growthRefused _ quiet | slotRefused _ quiet | inserted quiet | updated quiet
  | exchangedFresh quiet | exchanged quiet | cleared quiet =>
    rw [busy] at quiet
    cases quiet
  | whileOpen | notOpen | takenNone | shrinkRefused | read | modifiedNone | currentSetNone
  | currentRemovedNone => exact (Revalued.refl t).thins
  | opened | closed | advanced | advancedEnd => exact ((Revalued.refl t).registering _).thins
  | taken takes located live =>
    -- The shrink that would move entries is put off while a cursor is open.
    rw [slimmed_of_busy (t := t.without _) busy]
    exact thins_without live (.taken takes (answers_of_locate located live))
  | modified located live => exact ((Revalued.refl t).rewritten live _).thins
  | revised limit f =>
    apply Revalued.thins
    exact swept_induction f
      (fun _ _ _ value revalued live => revalued.rewritten live value) 0
      (fun p member => entryAt?_of_mem_passed member) (pairwise_passed limit t) (.refl t)
  | currentSet standing under =>
    exact ((Revalued.refl t).rewritten (entryUnder_eq_some.mp under).2 _).thins
  | currentRemoved standing under =>
    exact thins_without (entryUnder_eq_some.mp under).2 (.current _ _)

end Table

/-! ## One cursor that stays open -/

def Action.Closes (c : Cursor) : Action K V → Prop
  | .closeCursor other => other = c
  | _ => False

def Action.advances (c : Cursor) : Action K V → Bool
  | .steer other .advance => other = c
  | _ => false

theorem action_of_advances {c : Cursor} {action : Action K V}
    (advances : action.advances c = true) : action = .steer c .advance := by
  unfold Action.advances at advances
  split at advances
  · rw [of_decide_eq_true advances]
  · cases advances

/-- What the advances of a cursor met: the table at that moment, and the answer. -/
def visits (c : Cursor) (events : List (Event K V)) :
    List (Table K V × Except Fault (Answer K V)) :=
  (events.filter fun event => event.call.action.advances c).map fun event =>
    (event.before, event.answer)

section Visits

variable {c : Cursor} {event : Event K V} {rest : List (Event K V)}

theorem visits_cons (advances : event.call.action.advances c = true) :
    visits c (event :: rest) = (event.before, event.answer) :: visits c rest := by
  simp [visits, advances]

theorem visits_cons_of_not (stays : event.call.action.advances c = false) :
    visits c (event :: rest) = visits c rest := by
  simp [visits, stays]

end Visits

/-- The visits of a cursor that has some entries to come, as they were stored when it was
opened.  A visit skips entries whose slots are vacant by then and answers the next one,
with its key as it was and its value as it is; once all that are left have been skipped
the answer is nothing, again and again. -/
inductive Traverses :
    List (Location × Entry K V) → List (Table K V × Except Fault (Answer K V)) → Prop where
  | idle (rest : List (Location × Entry K V)) : Traverses rest []
  | visit {skipped rest loc e e' t visits} (removed : ∀ p ∈ skipped, t.entryAt? p.1 = none)
      (live : t.entryAt? loc = some e') (key : e'.key = e.key)
      (others : Traverses rest visits) :
      Traverses (skipped ++ (loc, e) :: rest) ((t, .ok (.pair (some (e.key, e'.value)))) :: visits)
  | finish {skipped t visits} (removed : ∀ p ∈ skipped, t.entryAt? p.1 = none)
      (ended : ∀ v ∈ visits, v.2 = .ok (.pair none)) :
      Traverses skipped ((t, .ok (.pair none)) :: visits)

namespace Table

variable {keying : Keying K} {allowance : Option Nat} {t t' : Table K V} {action : Action K V}
  {reply : Reply (Answer K V)} {c : Cursor} {position : Position}
  {rest : List (Location × Entry K V)}

theorem isQuiet_eq_false (standing : t.cursors.standing c = .ok position) :
    t.isQuiet = false := by
  apply Bool.eq_false_iff.mpr
  intro quiet
  exact Registry.standing_ne_ok (live_eq_zero quiet) c position standing

theorem Effect.standing_other (sound : t.Sound keying)
    (standing : t.cursors.standing c = .ok position)
    (effect : Effect keying allowance t action reply t')
    (stays : action.advances c = false) (remains : ¬ action.Closes c) :
    t'.cursors.standing c = .ok position := by
  have busy := isQuiet_eq_false standing
  cases effect with
  | growthRefused _ quiet | slotRefused _ quiet | inserted quiet | updated quiet
  | exchangedFresh quiet | exchanged quiet | cleared quiet =>
    rw [busy] at quiet
    cases quiet
  | whileOpen | notOpen | takenNone | shrinkRefused | read | modifiedNone | modified
  | currentSet | currentSetNone | currentRemoved | currentRemovedNone => exact standing
  | taken | revised => simpa using standing
  | opened =>
    -- A handle that is issued was not open, also where its place is used again.
    have other : c ≠ t.cursors.opened.1 := fun issued =>
      Registry.standing_issued sound.registered position (issued ▸ standing)
    rw [cursors_registering, Registry.standing_opened sound.registered, if_neg other, standing]
  | @closed c' _ held =>
    have other : c ≠ c' := fun same => remains same.symm
    rw [cursors_registering, Registry.standing_closed held, if_neg other, standing]
  | @advanced c' _ _ _ _ held | @advancedEnd c' _ held =>
    have other : c ≠ c' := fun same => by simp [Action.advances, same] at stays
    rw [cursors_registering, Registry.standing_moved held, if_neg other, standing]

theorem Effect.advance (standing : t.cursors.standing c = .ok position)
    (effect : Effect keying allowance t (.steer c .advance) reply t') :
    (∃ loc e others, t.pending position = (loc, e) :: others ∧
      reply.answer = .ok (.pair (some e.pair)) ∧
      t' = t.registering (t.cursors.moved c (.on loc))) ∨
    t.pending position = [] ∧ reply.answer = .ok (.pair none) ∧
      t' = t.registering (t.cursors.moved c .exhausted) := by
  cases effect with
  | notOpen uses closed =>
    cases uses
    exact absurd standing (closed position)
  | advanced held pending =>
    rw [standing] at held
    cases held
    exact .inl ⟨_, _, _, pending, rfl, rfl⟩
  | advancedEnd held pending =>
    rw [standing] at held
    cases held
    exact .inr ⟨pending, rfl, rfl⟩

/-- The entries ahead of a position are among those of a list, where those of the list
that are still live are ahead. -/
structure Upcoming (t : Table K V) (position : Position) (rest : List (Location × Entry K V)) :
    Prop where
  ordered : rest.Pairwise fun a b => a.1.Before b.1
  reached : ∀ loc e, t.entryAt? loc = some e → (position.Reaches loc ↔ ∃ e', (loc, e') ∈ rest)
  keys : ∀ loc e e', (loc, e) ∈ rest → t.entryAt? loc = some e' → e'.key = e.key

theorem upcoming_live (t : Table K V) : t.Upcoming .beforeFirst t.directory.live where
  ordered := t.directory.pairwise_live
  reached loc e live := iff_of_true trivial ⟨e, Directory.mem_live.mpr live⟩
  keys loc e e' member live := by
    rw [entryAt?_eq, Directory.mem_live.mp member] at live
    cases live
    rfl

theorem Upcoming.registering (upcoming : t.Upcoming position rest) (cursors : Registry) :
    (t.registering cursors).Upcoming position rest :=
  ⟨upcoming.ordered, upcoming.reached, upcoming.keys⟩

theorem Upcoming.thins {event : Event K V} (upcoming : event.before.Upcoming position rest)
    (thins : event.Thins keying) : event.after.Upcoming position rest := by
  refine ⟨upcoming.ordered, fun loc e' after => ?_, fun loc e e' member after => ?_⟩
  · obtain ⟨e, before, -⟩ := thins.former after
    exact upcoming.reached loc e before
  · obtain ⟨e₀, before, key, -⟩ := thins.former after
    rw [key]
    exact upcoming.keys loc e e₀ member before

theorem mem_behind {before after : List (Location × Entry K V)} {p q : Location × Entry K V}
    (ordered : (before ++ p :: after).Pairwise fun a b => a.1.Before b.1) :
    q ∈ after ↔ q ∈ before ++ p :: after ∧ p.1.Before q.1 := by
  obtain ⟨-, behind, apart⟩ := List.pairwise_append.mp ordered
  constructor
  · intro member
    exact ⟨List.mem_append_right _ (List.mem_cons_of_mem _ member),
      (List.pairwise_cons.mp behind).1 q member⟩
  · rintro ⟨member, passes⟩
    cases List.mem_append.mp member with
    | inl early =>
      have earlier : q.1.Before p.1 := apart q early p List.mem_cons_self
      exact absurd (earlier.trans passes) q.1.not_before_self
    | inr late =>
      cases late with
      | head => exact absurd passes p.1.not_before_self
      | tail _ member => exact member

/-- The first entry ahead is one of the list, and those listed before it are gone. -/
theorem Upcoming.advance (upcoming : t.Upcoming position rest) {loc : Location} {e : Entry K V}
    {others : List (Location × Entry K V)} (pending : t.pending position = (loc, e) :: others) :
    ∃ skipped e₀ rest', rest = skipped ++ (loc, e₀) :: rest' ∧
      (∀ p ∈ skipped, t.entryAt? p.1 = none) ∧ t.entryAt? loc = some e ∧ e.key = e₀.key ∧
      t.Upcoming (.on loc) rest' := by
  have first : (loc, e) ∈ t.pending position := by simp [pending]
  obtain ⟨live, reached⟩ := mem_pending.mp first
  obtain ⟨e₀, member⟩ := (upcoming.reached loc e live).mp reached
  obtain ⟨skipped, rest', rfl⟩ := List.append_of_mem member
  obtain ⟨-, behind, apart⟩ := List.pairwise_append.mp upcoming.ordered
  have sorted := pairwise_pending position t
  rw [pending] at sorted
  have least := (List.pairwise_cons.mp sorted).1
  refine ⟨skipped, e₀, rest', rfl, fun p skips => ?_, live, upcoming.keys loc e₀ e member live,
    ⟨(List.pairwise_cons.mp behind).2, fun other e' occupied => ?_, fun other e₁ e' inside => ?_⟩⟩
  · have earlier : p.1.Before loc := apart p skips _ List.mem_cons_self
    cases occupied : t.entryAt? p.1 with
    | none => rfl
    | some e' =>
      -- A live entry listed before the first one ahead would be ahead itself.
      have ahead : (p.1, e') ∈ t.pending position := mem_pending.mpr ⟨occupied,
        (upcoming.reached p.1 e' occupied).mpr ⟨p.2, List.mem_append_left _ skips⟩⟩
      rw [pending] at ahead
      cases List.mem_cons.mp ahead with
      | inl same =>
        have here : p.1 = loc := congrArg Prod.fst same
        rw [here] at earlier
        exact absurd earlier loc.not_before_self
      | inr behind => exact absurd (earlier.trans (least _ behind)) p.1.not_before_self
  · constructor
    · intro passes
      obtain ⟨e₁, inside⟩ := (upcoming.reached other e' occupied).mp (reached.later passes)
      exact ⟨e₁, (mem_behind upcoming.ordered).mpr ⟨inside, passes⟩⟩
    · rintro ⟨e₁, inside⟩
      exact ((mem_behind upcoming.ordered).mp inside).2
  · exact upcoming.keys other e₁ e' ((mem_behind upcoming.ordered).mp inside).1

theorem Upcoming.finished (upcoming : t.Upcoming position rest)
    (pending : t.pending position = []) : ∀ p ∈ rest, t.entryAt? p.1 = none := by
  intro p member
  cases occupied : t.entryAt? p.1 with
  | none => rfl
  | some e =>
    have ahead : (p.1, e) ∈ t.pending position :=
      mem_pending.mpr ⟨occupied, (upcoming.reached p.1 e occupied).mpr ⟨p.2, member⟩⟩
    rw [pending] at ahead
    cases ahead

/-! ## Runs while a cursor is open -/

theorem event_advance (sound : t.Sound keying) (standing : t.cursors.standing c = .ok position)
    {call : Invocation K V} (advances : call.action.advances c = true) :
    (∃ loc e others, t.pending position = (loc, e) :: others ∧
      (t.event keying call).answer = .ok (.pair (some e.pair)) ∧
      (t.event keying call).after = t.registering (t.cursors.moved c (.on loc))) ∨
    t.pending position = [] ∧ (t.event keying call).answer = .ok (.pair none) ∧
      (t.event keying call).after = t.registering (t.cursors.moved c .exhausted) := by
  have effect := effect_act sound call.allowance (.steer c .advance)
  rw [event, action_of_advances advances]
  exact effect.advance standing

theorem standing_sent (standing : t.cursors.standing c = .ok position) (position' : Position) :
    (t.registering (t.cursors.moved c position')).cursors.standing c = .ok position' := by
  rw [cursors_registering, Registry.standing_moved standing, if_pos rfl]

theorem exists_standing_after (sound : t.Sound keying)
    (standing : t.cursors.standing c = .ok position) {call : Invocation K V}
    (remains : ¬ call.action.Closes c) :
    ∃ position', (t.event keying call).after.cursors.standing c = .ok position' := by
  cases advances : call.action.advances c with
  | false =>
    have effect := effect_act sound call.allowance call.action
    exact ⟨position, effect.standing_other sound standing advances remains⟩
  | true =>
    rcases event_advance sound standing advances with ⟨loc, e, others, -, -, after⟩ | ⟨-, -, after⟩
    · exact ⟨.on loc, by rw [after, standing_sent standing]⟩
    · exact ⟨.exhausted, by rw [after, standing_sent standing]⟩

theorem thins_event (sound : t.Sound keying) (standing : t.cursors.standing c = .ok position)
    (call : Invocation K V) : (t.event keying call).Thins keying :=
  (effect_act sound call.allowance call.action).thins (isQuiet_eq_false standing)

section History

variable {calls : List (Invocation K V)}

theorem thins_history (sound : t.Sound keying) (standing : t.cursors.standing c = .ok position)
    (remains : ∀ call ∈ calls, ¬ call.action.Closes c) :
    ∀ event ∈ t.history keying calls, event.Thins keying := by
  -- The cursor stays open, at some position, as long as no call closes it.
  induction calls generalizing t position with
  | nil =>
    intro event member
    cases member
  | cons call rest ih =>
    obtain ⟨first, others⟩ := List.forall_mem_cons.mp remains
    obtain ⟨position', standing'⟩ := exists_standing_after sound standing first
    intro event member
    cases member with
    | head => exact thins_event sound standing call
    | tail _ member => exact ih (sound.act call.allowance call.action) standing' others event member

theorem vacant_history {loc : Location} (vacant : t.entryAt? loc = none)
    (thins : ∀ event ∈ t.history keying calls, event.Thins keying) :
    ∀ event ∈ t.history keying calls, event.before.entryAt? loc = none := by
  induction calls generalizing t with
  | nil =>
    intro event member
    cases member
  | cons call rest ih =>
    obtain ⟨first, others⟩ := List.forall_mem_cons.mp thins
    intro event member
    cases member with
    | head => exact vacant
    | tail _ member => exact ih (first.vacant loc vacant) others event member

theorem pairwise_history (thins : ∀ event ∈ t.history keying calls, event.Thins keying) :
    (t.history keying calls).Pairwise fun earlier later =>
      ∀ loc, earlier.after.entryAt? loc = none → later.before.entryAt? loc = none := by
  induction calls generalizing t with
  | nil => exact .nil
  | cons call rest ih =>
    have others := (List.forall_mem_cons.mp thins).2
    refine List.pairwise_cons.mpr ⟨fun later member loc vacant => ?_, ih others⟩
    exact vacant_history vacant others later member

/-- A cursor that has met its end answers nothing any more. -/
theorem visits_exhausted (sound : t.Sound keying)
    (standing : t.cursors.standing c = .ok .exhausted)
    (remains : ∀ call ∈ calls, ¬ call.action.Closes c) :
    ∀ v ∈ visits c (t.history keying calls), v.2 = .ok (.pair none) := by
  induction calls generalizing t with
  | nil =>
    intro v member
    cases member
  | cons call rest ih =>
    obtain ⟨first, others⟩ := List.forall_mem_cons.mp remains
    have sound' := sound.act call.allowance call.action
    cases advances : call.action.advances c with
    | false =>
      have effect := effect_act sound call.allowance call.action
      rw [history, visits_cons_of_not advances]
      exact ih sound' (effect.standing_other sound standing advances first) others
    | true =>
      rcases event_advance sound standing advances with ⟨_, _, _, ahead, -⟩ | ⟨-, answered, after⟩
      · cases ahead
      · rw [history, visits_cons advances]
        refine List.forall_mem_cons.mpr ⟨answered, ih sound' ?_ others⟩
        rw [after, standing_sent standing]

/-- What the advances of an open cursor meet, from any position on. -/
theorem traverses_history (sound : t.Sound keying)
    (standing : t.cursors.standing c = .ok position) (upcoming : t.Upcoming position rest)
    (remains : ∀ call ∈ calls, ¬ call.action.Closes c) :
    Traverses rest (visits c (t.history keying calls)) := by
  -- `Upcoming` carries the induction: every call keeps it, and an advance takes its head.
  induction calls generalizing t position rest with
  | nil => exact .idle rest
  | cons call others ih =>
    obtain ⟨first, remains⟩ := List.forall_mem_cons.mp remains
    have sound' := sound.act call.allowance call.action
    cases advances : call.action.advances c with
    | false =>
      have effect := effect_act sound call.allowance call.action
      have standing' := effect.standing_other sound standing advances first
      rw [history, visits_cons_of_not advances]
      exact ih sound' standing' (upcoming.thins (thins_event sound standing call)) remains
    | true =>
      rw [history, visits_cons advances]
      rcases event_advance sound standing advances with ⟨loc, e, ahead, pending, answered, after⟩ |
        ⟨pending, answered, after⟩
      · obtain ⟨skipped, e₀, rest', rfl, removed, live, key, behind⟩ := upcoming.advance pending
        have standing' := standing_sent standing (.on loc)
        rw [← after] at standing'
        rw [answered, Entry.pair, key]
        refine .visit removed live key (ih sound' standing' ?_ remains)
        rw [after]
        exact behind.registering _
      · have standing' := standing_sent standing .exhausted
        rw [← after] at standing'
        rw [answered]
        exact .finish (upcoming.finished pending) (visits_exhausted sound' standing' remains)

end History

/-- A cursor opened on any table that actions lead to, whatever is called while it is
open.  Its advances meet the entries that were live when it was opened, in order and
each once, less those removed before they were passed, with their keys as they were and
their values as they are, and then nothing again and again.  Meanwhile no call brings in
or moves an entry, and an entry goes only where a removal answers it; what is gone stays
gone. -/
theorem traversal (reachable : t.Reachable keying) (allowance : Option Nat) :
    ∃ c, (t.act keying allowance .openCursor).1.answer = .ok (.cursor c) ∧
      ∀ calls : List (Invocation K V), (∀ call ∈ calls, ¬ call.action.Closes c) →
        let events := (t.act keying allowance .openCursor).2.history keying calls
        Traverses t.directory.live (visits c events) ∧
        (∀ event ∈ events, event.Thins keying) ∧
        events.Pairwise fun earlier later =>
          ∀ loc, earlier.after.entryAt? loc = none → later.before.entryAt? loc = none := by
  have sound := reachable.sound
  have sound' := sound.act allowance .openCursor
  have opened : (t.act keying allowance .openCursor).1.answer = .ok (.cursor t.cursors.opened.1) ∧
      (t.act keying allowance .openCursor).2 = t.registering t.cursors.opened.2 := by
    cases effect_act sound allowance .openCursor with
    | opened => exact ⟨rfl, rfl⟩
  refine ⟨_, opened.1, fun calls remains => ?_⟩
  have standing : (t.act keying allowance .openCursor).2.cursors.standing t.cursors.opened.1 =
      .ok .beforeFirst := by
    rw [opened.2, cursors_registering, Registry.standing_opened sound.registered, if_pos rfl]
  have upcoming : (t.act keying allowance .openCursor).2.Upcoming .beforeFirst t.directory.live := by
    rw [opened.2]
    exact (upcoming_live t).registering _
  have thins := thins_history sound' standing remains
  exact ⟨traverses_history sound' standing upcoming remains, thins, pairwise_history thins⟩

def threePairs : Table Nat Nat :=
  ⟨#[[], [some ⟨1, 10, 1⟩], [some ⟨2, 20, 2⟩], [some ⟨3, 30, 3⟩]], 3, Registry.new 1⟩

theorem threePairs_eq :
    ((((new 1 : Table Nat Nat).act Session.lastDigit none (.ask (.insert 1 10))).2.act
      Session.lastDigit none (.ask (.insert 2 20))).2.act
      Session.lastDigit none (.ask (.insert 3 30))).2 = threePairs := by
  decide +kernel

theorem reachable_threePairs : threePairs.Reachable Session.lastDigit := by
  rw [← threePairs_eq]
  exact (((Reachable.new 1).act none _).act none _).act none _

/-- One entry is removed before it is reached, the next one has its value changed, and an
insertion is refused. -/
theorem traversal_threePairs :
    let c : Cursor := ⟨1, 1, 1⟩
    let events := (threePairs.act Session.lastDigit none .openCursor).2.history Session.lastDigit
      [⟨none, .steer c .advance⟩, ⟨none, .ask (.remove 12)⟩, ⟨none, .openCursor⟩,
        ⟨none, .ask (.modify 3 (· + 5))⟩, ⟨none, .ask (.insert 4 40)⟩, ⟨none, .steer c .advance⟩,
        ⟨none, .steer c .removeCurrent⟩, ⟨none, .steer c .advance⟩, ⟨none, .steer c .advance⟩]
    threePairs.directory.live =
        [(⟨1, 0⟩, ⟨1, 10, 1⟩), (⟨2, 0⟩, ⟨2, 20, 2⟩), (⟨3, 0⟩, ⟨3, 30, 3⟩)] ∧
      (visits c events).map Prod.snd = [.ok (.pair (some (1, 10))), .ok (.pair (some (3, 35))),
        .ok (.pair none), .ok (.pair none)] ∧
      Traverses threePairs.directory.live (visits c events) := by
  intro c events
  obtain ⟨c', answered, meets⟩ := traversal reachable_threePairs none
  have issued : (threePairs.act Session.lastDigit none .openCursor).1.answer =
      .ok (.cursor c) := by decide +kernel
  rw [issued] at answered
  cases answered
  refine ⟨by decide +kernel, by decide +kernel, (meets _ ?_).1⟩
  simp [Action.Closes]

end Table

end ChainTable
