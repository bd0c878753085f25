import ChainTable.Proofs.Sound
import ChainTable.Table.Slots

/-! # How a call ends

A call that has ended answered something, asked for reservations, wrote records and
left a table behind: `Context.later` is the context with all of that.  This module
runs the primitives of a call and the steps on single slots; whether reservations
are granted is `Grants` or `Refuses`.
-/

namespace ChainTable

variable {K V α β : Type}

/-! ## Running a call -/

def Context.later (c : Context K V) (asked : List Reservation) (records : List Record)
    (t : Table K V) : Context K V where
  table := t
  allowance := c.allowance.map (· - asked.length)
  reservations := asked.reverse ++ c.reservations
  log := records.reverse ++ c.log

namespace Context

variable (c : Context K V) (asked asked' : List Reservation) (records records' : List Record)
  (t t' : Table K V)

@[simp] theorem table_later : (c.later asked records t).table = t := rfl

@[simp] theorem allowance_later :
    (c.later asked records t).allowance = c.allowance.map (· - asked.length) := rfl

@[simp] theorem later_later : (c.later asked records t).later asked' records' t' =
    c.later (asked ++ asked') (records ++ records') t' := by
  cases allowance : c.allowance <;> simp [later, allowance, Nat.sub_sub]

theorem later_self : c.later [] [] c.table = c := by
  cases allowance : c.allowance <;> simp [later]

end Context

def Grants (allowance : Option Nat) (rs : List Reservation) : Prop :=
  ∀ n, allowance = some n → rs.length ≤ n

/-- An allowance that runs out at reservation `r`, after which `asked` were asked for. -/
def Refuses (allowance : Option Nat) (rs : List Reservation) (r : Reservation)
    (asked : List Reservation) : Prop :=
  ∃ n, allowance = some n ∧ rs[n]? = some r ∧ asked = rs.take (n + 1)

theorem grants_or_refuses (allowance : Option Nat) (rs : List Reservation) :
    Grants allowance rs ∨ ∃ r asked, Refuses allowance rs r asked := by
  cases allowance with
  | none => exact .inl fun n impossible => by cases impossible
  | some n =>
    by_cases covered : rs.length ≤ n
    · exact .inl fun m same => by cases same; exact covered
    · have inside : n < rs.length := by omega
      exact .inr ⟨rs[n], _, n, rfl, List.getElem?_eq_getElem inside, rfl⟩

theorem Refuses.limited {allowance : Option Nat} {rs : List Reservation} {r : Reservation}
    {asked : List Reservation} (refused : Refuses allowance rs r asked) : allowance ≠ none := by
  obtain ⟨n, held, -, -⟩ := refused
  simp [held]

theorem Refuses.mem {allowance : Option Nat} {rs : List Reservation} {r : Reservation}
    {asked : List Reservation} (refused : Refuses allowance rs r asked) : r ∈ rs := by
  obtain ⟨n, -, present, -⟩ := refused
  exact List.mem_of_getElem? present

theorem Refuses.not_grants {allowance : Option Nat} {rs : List Reservation} {r : Reservation}
    {asked : List Reservation} (refused : Refuses allowance rs r asked) :
    ¬ Grants allowance rs := by
  obtain ⟨n, held, present, -⟩ := refused
  obtain ⟨inside, -⟩ := List.getElem?_eq_some_iff.mp present
  intro granted
  exact absurd (granted n held) (Nat.not_le.mpr inside)

theorem grants_none (rs : List Reservation) : Grants none rs := fun n impossible => by
  cases impossible

theorem grants_append {allowance : Option Nat} {rs rs' : List Reservation} :
    Grants allowance (rs ++ rs') ↔
      Grants allowance rs ∧ Grants (allowance.map (· - rs.length)) rs' := by
  cases allowance with
  | none => simp [Grants]
  | some n =>
    simp only [Grants, Option.some.injEq, forall_eq', Option.map_some, List.length_append]
    constructor
    · intro covered
      exact ⟨by omega, by omega⟩
    · rintro ⟨first, second⟩
      omega

namespace Call

variable (c : Context K V)

@[simp] theorem run_pure (a : α) : (pure a : Call K V α) c = .ok a c := rfl

@[simp] theorem run_bind (x : Call K V α) (f : α → Call K V β) :
    (x >>= f) c = match x c with
      | .ok a c => f a c
      | .error fault c => .error fault c := by
  simp only [bind, EStateM.bind]
  cases x c <;> rfl

@[simp] theorem run_map (f : α → β) (x : Call K V α) :
    (f <$> x) c = match x c with
      | .ok a c => .ok (f a) c
      | .error fault c => .error fault c := by
  simp only [Functor.map, EStateM.map]
  cases x c <;> rfl

@[simp] theorem run_table : (table : Call K V _) c = .ok c.table c := rfl

@[simp] theorem run_fail (fault : Fault) : (fail fault : Call K V α) c = .error fault c := rfl

@[simp] theorem run_update (f : Table K V → Table K V) :
    update f c = .ok () (c.later [] [] (f c.table)) := by
  cases allowance : c.allowance <;> simp [update, Context.later, allowance]

@[simp] theorem run_emit (record : Record) :
    emit record c = .ok () (c.later [] [record] c.table) := by
  cases allowance : c.allowance <;> simp [emit, Context.later, allowance]

theorem run_check {holds : Bool} (passed : holds = true) (breach : Breach) :
    check holds breach c = .ok () c := by
  simp [check, passed]

variable {c}

theorem run_reserveAll {rs : List Reservation} (granted : Grants c.allowance rs) :
    reserveAll rs c = .ok none (c.later rs [] c.table) := by
  induction rs generalizing c with
  | nil => rw [c.later_self]; rfl
  | cons r rest ih =>
    have first : reserve r c = .ok true (c.later [r] [] c.table) := by
      cases allowance : c.allowance with
      | none => simp [reserve, Context.later, allowance]
      | some n =>
        have covered := granted n allowance
        cases n with
        | zero => simp at covered
        | succ n => simp [reserve, Context.later, allowance]
    -- One reservation less is allowed, and one less is left to ask for.
    have others : Grants (c.later [r] [] c.table).allowance rest := by
      intro n same
      obtain ⟨m, held, rfl⟩ := Option.map_eq_some_iff.mp same
      have covered := granted m held
      simp only [List.length_cons, List.length_nil] at covered ⊢
      omega
    simp only [reserveAll, run_bind, first, if_true, ih others, Context.later_later,
      Context.table_later]
    rfl

theorem run_reserveAll_refused {rs : List Reservation} {r : Reservation}
    {asked : List Reservation} (refused : Refuses c.allowance rs r asked) :
    reserveAll rs c = .ok (some r) (c.later asked [] c.table) := by
  induction rs generalizing c asked with
  | nil =>
    obtain ⟨n, -, outside, -⟩ := refused
    cases outside
  | cons first rest ih =>
    obtain ⟨n, held, present, rfl⟩ := refused
    cases n with
    | zero =>
      simp only [List.getElem?_cons_zero, Option.some.injEq] at present
      subst present
      simp [reserveAll, reserve, held, Context.later]
    | succ n =>
      have granted : reserve first c = .ok true (c.later [first] [] c.table) := by
        simp [reserve, Context.later, held]
      have others : Refuses (c.later [first] [] c.table).allowance rest r (rest.take (n + 1)) :=
        ⟨n, by simp [held], by simpa using present, rfl⟩
      simp only [reserveAll, run_bind, granted, if_true, ih others, Context.later_later,
        Context.table_later]
      rfl

theorem perform_of_ok {call : Call K V α} {allowance : Option Nat} {t t' : Table K V} {a : α}
    {asked : List Reservation} {records : List Record}
    (ended : call ⟨t, allowance, [], []⟩ =
      .ok a (Context.later ⟨t, allowance, [], []⟩ asked records t')) :
    call.perform allowance t = (⟨.ok a, asked, records⟩, t') := by
  simp [perform, EStateM.run, ended, Context.later]

theorem perform_of_error {call : Call K V α} {allowance : Option Nat} {t t' : Table K V}
    {fault : Fault} {asked : List Reservation} {records : List Record}
    (ended : call ⟨t, allowance, [], []⟩ =
      .error fault (Context.later ⟨t, allowance, [], []⟩ asked records t')) :
    call.perform allowance t = (⟨.error fault, asked, records⟩, t') := by
  simp [perform, EStateM.run, ended, Context.later]

theorem perform_of_same {call : Call K V α} {allowance : Option Nat} {t : Table K V} {a : α}
    (ended : call ⟨t, allowance, [], []⟩ = .ok a ⟨t, allowance, [], []⟩) :
    call.perform allowance t = (⟨.ok a, [], []⟩, t) := by
  simp [perform, EStateM.run, ended]

theorem perform_of_refusal {call : Call K V α} {allowance : Option Nat} {t : Table K V}
    {fault : Fault} (ended : call ⟨t, allowance, [], []⟩ = .error fault ⟨t, allowance, [], []⟩) :
    call.perform allowance t = (⟨.error fault, [], []⟩, t) := by
  simp [perform, EStateM.run, ended]

end Call

namespace Table

variable {keying : Keying K} {c : Context K V} {loc : Location} {e : Entry K V}

/-! ## Single slots -/

theorem run_slotAt {slot : Slot K V} (present : c.table.directory.slotAt? loc = some slot) :
    slotAt loc c = .ok slot c := by
  simp [slotAt, present]

theorem run_entryAt (live : c.table.entryAt? loc = some e) : entryAt loc c = .ok e c := by
  simp [entryAt, run_slotAt (Directory.entryAt?_eq_some.mp live)]

theorem run_writeSlot (e : Entry K V) :
    writeSlot loc (some e) c = .ok () (c.later [] [] (c.table.rewritten loc e)) := by
  simp [writeSlot, rewritten]

theorem run_writeValue (live : c.table.entryAt? loc = some e) (value : V) :
    writeValue loc value c =
      .ok e.value (c.later [] [] (c.table.rewritten loc { e with value })) := by
  simp [writeValue, run_entryAt live, run_writeSlot]

theorem run_vacate (live : c.table.entryAt? loc = some e) (counted : 0 < c.table.size) :
    vacate loc c = .ok e (c.later [] [] (c.table.without loc)) := by
  simp [vacate, run_entryAt live, writeSlot, countOut, Call.run_check, counted, without]

/-- Putting an entry back where it was vacated restores the table. -/
theorem run_restore {t : Table K V} (live : t.entryAt? loc = some e) (counted : 0 < t.size)
    (vacated : c.table = t.without loc) : restore loc e c = .ok () (c.later [] [] t) := by
  have present := Directory.entryAt?_eq_some.mp live
  have vacant : c.table.directory.slotAt? loc = some none := by
    rw [vacated, without, Directory.slotAt?_setSlot present, if_pos rfl]
  have size : t.size - 1 + 1 = t.size := by omega
  simp only [restore, Call.run_bind, run_slotAt vacant, Call.run_check _ Option.isNone_none,
    run_writeSlot, countIn, Call.run_update, Context.later_later, Context.table_later, vacated,
    rewritten, without, size, Directory.setSlot_setSlot, Directory.setSlot_self present,
    List.append_nil]

end Table

end ChainTable
