import ChainTable.Proofs.Load

/-! # The distance between two resizes

A growth leaves a table half full and a halving leaves it half full at most, so it does not
grow again before half as many entries have come in as it has buckets.  A table half full is
halved only at a quarter, so a table that has grown is not halved before a quarter as many
entries have left.  Halvings that lie before a growth bring its threshold down with the
capacity.
-/

namespace ChainTable

variable {K V : Type}

namespace Event

def Grows (event : Event K V) : Prop := event.before.capacity < event.after.capacity

def Shrinks (event : Event K V) : Prop := event.after.capacity < event.before.capacity

def Resizes (event : Event K V) : Prop := event.after.capacity ≠ event.before.capacity

instance (event : Event K V) : Decidable event.Grows := inferInstanceAs (Decidable (_ < _))

instance (event : Event K V) : Decidable event.Shrinks := inferInstanceAs (Decidable (_ < _))

instance (event : Event K V) : Decidable event.Resizes := inferInstanceAs (Decidable (_ ≠ _))

theorem capacity_eq_of_not {event : Event K V} (ungrown : ¬ event.Grows)
    (unshrunk : ¬ event.Shrinks) : event.after.capacity = event.before.capacity :=
  Nat.le_antisymm (Nat.not_lt.mp ungrown) (Nat.not_lt.mp unshrunk)

end Event

/-- How often some calls have halved the table. -/
def halvings (events : List (Event K V)) : Nat := events.countP fun event => event.Shrinks

theorem halvings_cons (event : Event K V) (events : List (Event K V)) :
    halvings (event :: events) = halvings events + if event.Shrinks then 1 else 0 := by
  simp [halvings, List.countP_cons]

namespace Event.LoadChange

variable {event : Event K V}

theorem of_grows (change : event.LoadChange) (grows : event.Grows) :
    event.after.capacity = event.before.capacity * 2 ∧
      event.before.size = event.before.capacity ∧
      event.after.size = event.before.size + event.entered := by
  have more : event.before.capacity < event.after.capacity := grows
  cases change with
  | steady capacity | shrunk capacity => omega
  | grown capacity full size => exact ⟨capacity, full, size⟩

theorem of_shrinks (change : event.LoadChange) (shrinks : event.Shrinks) :
    event.after.capacity * 2 = event.before.capacity ∧
      event.after.size * 4 ≤ event.before.capacity ∧
      event.after.size + 1 = event.before.size ∧ event.departed = 1 := by
  have fewer : event.after.capacity < event.before.capacity := shrinks
  cases change with
  | steady capacity | grown capacity => omega
  | shrunk capacity sparse size oneLeft => exact ⟨capacity, sparse, size, oneLeft⟩

theorem balance (change : event.LoadChange) :
    event.after.size + event.departed = event.before.size + event.entered := by
  cases change with
  | steady _ size => exact size
  | grown _ _ size noneLeft => rw [size, noneLeft, Nat.add_zero]
  | shrunk _ _ size oneLeft noneCame => rw [oneLeft, noneCame, size, Nat.add_zero]

/-- A resize leaves a table at most half full, but for the entry it was made for. -/
theorem half_full (change : event.LoadChange) (resized : event.Grows ∨ event.Shrinks) :
    2 * event.after.size ≤ event.after.capacity + 2 * event.entered := by
  rcases resized with grows | shrinks
  · have := change.of_grows grows
    omega
  · have := change.of_shrinks shrinks
    omega

/-- What lies above half of the capacity has come in. -/
theorem half_full_step (change : event.LoadChange) (ungrown : ¬ event.Grows) {n : Nat}
    (former : 2 * event.before.size ≤ event.before.capacity + 2 * n) :
    2 * event.after.size ≤ event.after.capacity + 2 * (n + event.entered) := by
  by_cases shrinks : event.Shrinks
  · have := change.half_full (.inr shrinks)
    omega
  · have same := capacity_eq_of_not ungrown shrinks
    have balance := change.balance
    omega

theorem capacity_step (change : event.LoadChange) (ungrown : ¬ event.Grows) :
    event.after.capacity * 2 ^ (if event.Shrinks then 1 else 0) = event.before.capacity := by
  by_cases shrinks : event.Shrinks
  · rw [if_pos shrinks]
    exact (change.of_shrinks shrinks).1
  · rw [if_neg shrinks, Nat.pow_zero, Nat.mul_one]
    exact capacity_eq_of_not ungrown shrinks

end Event.LoadChange

namespace Table

variable {keying : Keying K} {t : Table K V} {calls : List (Invocation K V)}

/-! ## Runs without a growth -/

theorem Sound.half_full_afterAll (sound : t.Sound keying)
    (ungrown : ∀ event ∈ t.history keying calls, ¬ event.Grows) {n : Nat}
    (former : 2 * t.size ≤ t.capacity + 2 * n) :
    2 * (t.afterAll keying calls).size ≤
      (t.afterAll keying calls).capacity + 2 * (n + arrivals (t.history keying calls)) := by
  induction calls generalizing t n with
  | nil => exact former
  | cons call rest ih =>
    obtain ⟨first, others⟩ := List.forall_mem_cons.mp ungrown
    have next := (sound.loadChange call).half_full_step first former
    have ended := ih (sound.act call.allowance call.action) others next
    rw [Nat.add_assoc] at ended
    exact ended

theorem Sound.capacity_afterAll (sound : t.Sound keying)
    (ungrown : ∀ event ∈ t.history keying calls, ¬ event.Grows) :
    (t.afterAll keying calls).capacity * 2 ^ halvings (t.history keying calls) =
      t.capacity := by
  induction calls generalizing t with
  | nil => exact Nat.mul_one _
  | cons call rest ih =>
    obtain ⟨first, others⟩ := List.forall_mem_cons.mp ungrown
    have ended := ih (sound.act call.allowance call.action) others
    rw [history, halvings_cons, Nat.pow_add, ← Nat.mul_assoc]
    exact (congrArg (· * _) ended).trans ((sound.loadChange call).capacity_step first)

/-- What has come in is still there or has left. -/
theorem Sound.balance_afterAll (sound : t.Sound keying) :
    (t.afterAll keying calls).size + departures (t.history keying calls) =
      t.size + arrivals (t.history keying calls) := by
  induction calls generalizing t with
  | nil => rfl
  | cons call rest ih =>
    have step : (t.event keying call).after.size + (t.event keying call).departed =
        t.size + (t.event keying call).entered := (sound.loadChange call).balance
    have sound' : (t.event keying call).after.Sound keying := sound.act call.allowance call.action
    have ended := ih sound'
    simp only [history, afterAll, arrivals, departures, List.map_cons, List.sum_cons] at ended ⊢
    omega

/-! ## Two resizes -/

/-- Between a resize to `c` buckets and the growth that comes next, with `s` halvings in
between, `c / 2 ^ (s + 1)` entries at least have come in, with the one for which the first
may have been made.  Between a growth to `c` buckets and the halving that comes next, if it is
the next resize at all, `c / 4` entries at least have left, with the one that brings it on. -/
theorem resizes_apart (reachable : t.Reachable keying) (first last : Invocation K V)
    (between : List (Invocation K V)) :
    let opening := t.event keying first
    let events := opening.after.history keying between
    let closing := (opening.after.afterAll keying between).event keying last
    ((opening.Grows ∨ opening.Shrinks) → (∀ event ∈ events, ¬ event.Grows) → closing.Grows →
        opening.after.capacity ≤ 2 ^ (halvings events + 1) * arrivals (opening :: events)) ∧
      (opening.Grows → (∀ event ∈ events, ¬ event.Grows ∧ ¬ event.Shrinks) → closing.Shrinks →
        opening.after.capacity ≤ 4 * departures (events ++ [closing])) := by
  intro opening events closing
  have sound := reachable.sound
  have opened : opening.LoadChange := sound.loadChange first
  have sound' : opening.after.Sound keying := sound.act first.allowance first.action
  have closed : closing.LoadChange :=
    Sound.loadChange ((reachable.act first.allowance first.action).afterAll between).sound last
  refine ⟨fun resized ungrown grows => ?_, fun grown unsized shrinks => ?_⟩
  · -- At the second growth the table is full, so half of its capacity has come in.
    have full := (closed.of_grows grows).2.1
    have filled : 2 * closing.before.size ≤
        closing.before.capacity + 2 * (opening.entered + arrivals events) :=
      sound'.half_full_afterAll ungrown (opened.half_full resized)
    have half : closing.before.capacity ≤ 2 * arrivals (opening :: events) := by
      simp only [arrivals, List.map_cons, List.sum_cons] at filled ⊢
      omega
    calc opening.after.capacity
        = closing.before.capacity * 2 ^ halvings events :=
          (sound'.capacity_afterAll ungrown).symm
      _ ≤ 2 * arrivals (opening :: events) * 2 ^ halvings events := Nat.mul_le_mul_right _ half
      _ = 2 ^ (halvings events + 1) * arrivals (opening :: events) := by
          rw [Nat.pow_succ, Nat.mul_comm, Nat.mul_assoc]
  · have grew := opened.of_grows grown
    have halved := closed.of_shrinks shrinks
    have balance : closing.before.size + departures events =
        opening.after.size + arrivals events := sound'.balance_afterAll
    have unhalved : halvings events = 0 :=
      List.countP_eq_zero.mpr fun event member => by simpa using (unsized event member).2
    have same : closing.before.capacity * 2 ^ halvings events = opening.after.capacity :=
      sound'.capacity_afterAll fun event member => (unsized event member).1
    rw [unhalved, Nat.pow_zero, Nat.mul_one] at same
    simp only [departures, List.map_append, List.sum_append, List.map_cons, List.map_nil,
      List.sum_cons, List.sum_nil] at balance ⊢
    omega

/-- Four entries for the growth that follows one to eight buckets, two for the halving. -/
theorem resizes_apart_crowded :
    let puts : List (Invocation Nat Nat) := [6, 7, 8].map fun n => ⟨none, .ask (.insert n n)⟩
    let takes : List (Invocation Nat Nat) := [1].map fun n => ⟨none, .ask (.remove n)⟩
    let opening := crowded.event Session.lastDigit ⟨none, .ask (.insert 9 90)⟩
    let refused := crowded.event Session.lastDigit ⟨some 6, .ask (.insert 9 90)⟩
    opening.after.capacity ≤
        2 * arrivals (opening :: opening.after.history Session.lastDigit puts) ∧
      arrivals (opening :: opening.after.history Session.lastDigit puts) = 4 ∧
      refused.after.capacity ≤ 4 * departures
        (refused.after.history Session.lastDigit takes ++
          [(refused.after.afterAll Session.lastDigit takes).event Session.lastDigit
            ⟨none, .ask (.extract 5)⟩]) := by
  intro puts takes opening refused
  have grown := (resizes_apart reachable_crowded ⟨none, .ask (.insert 9 90)⟩
    ⟨none, .ask (.exchange 4 40)⟩ puts).1
  have shrunk := (resizes_apart reachable_crowded ⟨some 6, .ask (.insert 9 90)⟩
    ⟨none, .ask (.extract 5)⟩ takes).2
  have unhalved : halvings (opening.after.history Session.lastDigit puts) = 0 := by
    decide +kernel
  have half := grown (.inl (by decide +kernel)) (by decide +kernel) (by decide +kernel)
  rw [unhalved] at half
  exact ⟨half, by decide +kernel,
    shrunk (by decide +kernel) (by decide +kernel) (by decide +kernel)⟩

/-- With a halving between two growths half as many entries as buckets need not come in. -/
theorem grown_again_early :
    let calls : List (Invocation Nat Nat) := [1, 5, 2].map (fun n => ⟨none, .ask (.remove n)⟩) ++
      [6, 7].map fun n => ⟨none, .ask (.insert n n)⟩
    let opening := crowded.event Session.lastDigit ⟨none, .ask (.insert 9 90)⟩
    let events := opening.after.history Session.lastDigit calls
    let closing := (opening.after.afterAll Session.lastDigit calls).event Session.lastDigit
      ⟨none, .ask (.insert 8 80)⟩
    crowded.Reachable Session.lastDigit ∧ opening.Grows ∧ (∀ event ∈ events, ¬ event.Grows) ∧
      closing.Grows ∧ arrivals (opening :: events) = 3 ∧ opening.after.capacity = 8 ∧
      ¬ opening.after.capacity ≤ 2 * arrivals (opening :: events) := by
  intro calls opening events closing
  refine ⟨reachable_crowded, ?_⟩
  decide +kernel

end Table

end ChainTable
