import ChainTable.Proofs.Preservation

/-! # Resizes and look-ups

No look-up sees a resize, whatever the test of sameness is.  Where the test is no
equivalence several entries may answer to one key and the first of them counts; a
rehash keeps the entries of one hash in order, so the first one stays the first.
The new capacity may be any that a table can have, also one below the size.
-/

namespace ChainTable.Table

variable {K V : Type} {keying : Keying K} {t : Table K V}

theorem answer_modify (key : K) (f : V → V) (allowance : Option Nat) :
    ((modify keying key f).perform allowance t).1.answer =
      .ok ((t.found keying key).map Entry.value) := by
  cases located : t.locate keying key with
  | none =>
    have absent := locate_eq_none.mp located
    have changed := run_modify_absent (c := ⟨t, allowance, [], []⟩) absent f
    rw [absent, Call.perform, EStateM.run, changed]
    rfl
  | some loc =>
    obtain ⟨e, live, -, found⟩ := exists_of_locate located
    have changed := run_modify (c := ⟨t, allowance, [], []⟩) located live f
    rw [found, Call.perform_of_ok changed]
    rfl

theorem answer_extract (counted : t.Counted) (key : K) :
    ((extract keying key).perform none t).1.answer =
      .ok ((t.found keying key).map Entry.pair) := by
  cases located : t.locate keying key with
  | none =>
    have absent := locate_eq_none.mp located
    have taken := run_extract_absent (c := ⟨t, none, [], []⟩) absent
    rw [absent, Call.perform, EStateM.run, taken]
    rfl
  | some loc =>
    obtain ⟨e, live, -, found⟩ := exists_of_locate located
    have taken := run_extract (c := ⟨t, none, [], []⟩) counted located live (grants_none _)
    rw [found, Call.perform_of_ok taken]
    rfl

/-- How a resize ends: refused, with the table as it was, or with all entries in the new
number of buckets. -/
theorem resize_ends (counted : t.Counted) (quiet : t.isQuiet = true) {capacity : Nat}
    (least : leastCapacity ≤ capacity) (allowance : Option Nat) :
    (∃ r asked, Refuses allowance (Directory.reservations capacity t.directory.entries) r asked ∧
      ((resize capacity).perform allowance t).1.answer = .ok (some r) ∧
      ((resize capacity).perform allowance t).2 = t) ∨
    Grants allowance (Directory.reservations capacity t.directory.entries) ∧
      ((resize capacity).perform allowance t).1.answer = .ok none ∧
      ((resize capacity).perform allowance t).2 = t.rehashed capacity := by
  cases grants_or_refuses allowance (Directory.reservations capacity t.directory.entries) with
  | inl granted =>
    have done := run_resize (c := ⟨t, allowance, [], []⟩) counted quiet least granted
    rw [Call.perform_of_ok done]
    exact .inr ⟨granted, rfl, rfl⟩
  | inr short =>
    obtain ⟨r, asked, refused⟩ := short
    have failed := run_resize_refused (c := ⟨t, allowance, [], []⟩) quiet least refused
    rw [Call.perform_of_ok failed]
    exact .inl ⟨r, asked, refused, rfl, rfl⟩

theorem perform_resize (counted : t.Counted) (quiet : t.isQuiet = true) {capacity : Nat}
    (least : leastCapacity ≤ capacity) (allowance : Option Nat) :
    (∃ r, ((resize capacity).perform allowance t).1.answer = .ok (some r) ∧ allowance ≠ none ∧
      ((resize capacity).perform allowance t).2 = t) ∨
    ((resize capacity).perform allowance t).1.answer = .ok none ∧
      ((resize capacity).perform allowance t).2 = t.rehashed capacity := by
  rcases resize_ends counted quiet least allowance with
    ⟨r, asked, refused, answered, same⟩ | ⟨-, done⟩
  · exact .inl ⟨r, answered, refused.limited, same⟩
  · exact .inr done

/-- After a resize of a table without open cursors to any capacity that a table can have,
every key meets the entry it met before: the same stored key, value and hash.  So it is
read, changed, reported and removed as before.  The resize can only fail where storage
is refused, and then the table is as it was. -/
theorem lookups_resize (reachable : t.Reachable keying) (quiet : t.isQuiet = true) {k : Nat}
    {allowance : Option Nat} {reply : Reply (Option Reservation)} {t' : Table K V}
    (ended : (resize (4 * 2 ^ k)).perform allowance t = (reply, t')) :
    (∃ r, reply.answer = .ok (some r) ∧ allowance ≠ none ∧ t' = t) ∨
      reply.answer = .ok none ∧ t'.capacity = 4 * 2 ^ k ∧ ∀ key,
        (t'.locate keying key).bind t'.entryAt? = (t.locate keying key).bind t.entryAt? ∧
        (t'.locate keying key = none ↔ t.locate keying key = none) ∧
        t'.lookup keying key = t.lookup keying key ∧
        t'.contains keying key = t.contains keying key ∧
        (∀ f allowance, ((modify keying key f).perform allowance t').1.answer =
          ((modify keying key f).perform allowance t).1.answer) ∧
        ((extract keying key).perform none t').1.answer =
          ((extract keying key).perform none t).1.answer := by
  have sound := reachable.sound
  have least : leastCapacity ≤ 4 * 2 ^ k := Nat.le_mul_of_pos_right _ (Nat.two_pow_pos k)
  have ways := perform_resize sound.toCounted quiet least allowance
  rw [ended] at ways
  rcases ways with refused | ⟨answered, rfl⟩
  · exact .inl refused
  · refine .inr ⟨answered, capacity_rehashed t _, fun key => ?_⟩
    have counted := sound.toCounted.rehashed (⟨k, rfl⟩ : ∃ k', 4 * 2 ^ k = leastCapacity * 2 ^ k')
    -- Everything else reads or changes the entry that is found.
    have found : (t.rehashed (4 * 2 ^ k)).found keying key = t.found keying key :=
      sound.found_rehashed (Nat.lt_of_lt_of_le (by decide) least) key
    refine ⟨found, ?_, ?_, ?_, fun f allowance => ?_, ?_⟩
    · rw [locate_eq_none, locate_eq_none, found]
    · rw [lookup_eq, lookup_eq, found]
    · rw [contains_eq, contains_eq, found]
    · rw [answer_modify, answer_modify, found]
    · rw [answer_extract counted, answer_extract sound.toCounted, found]

/-- A test that is no equivalence: a key is the same as every stored key that is not less. -/
def atMost : Keying Nat := ⟨fun _ => 7, fun a b => a ≤ b⟩

/-- Two entries that both answer to 4, behind a slot that has become vacant. -/
def tangled : Table Nat Nat :=
  ⟨#[[], [], [], [none, some ⟨9, 90, 7⟩, some ⟨12, 120, 7⟩]], 2, Registry.new 1⟩

theorem tangled_eq :
    (((((new 1 : Table Nat Nat).act atMost none (.ask (.insert 5 50))).2.act atMost none
      (.ask (.insert 9 90))).2.act atMost none (.ask (.insert 12 120))).2.act atMost none
      (.ask (.remove 1))).2 = tangled := by
  decide +kernel

theorem reachable_tangled : tangled.Reachable atMost := by
  rw [← tangled_eq]
  exact ((((Reachable.new 1).act none _).act none _).act none _).act none _

theorem lookups_resize_tangled :
    ∃ reply t', (resize (4 * 2 ^ 1)).perform none tangled = (reply, t') ∧
      tangled.locate atMost 4 = some ⟨3, 1⟩ ∧ t'.locate atMost 4 = some ⟨7, 0⟩ ∧
      (t'.locate atMost 4).bind t'.entryAt? = some ⟨9, 90, 7⟩ ∧
      t'.contains atMost 13 = tangled.contains atMost 13 := by
  refine ⟨_, _, rfl, by decide, by decide +kernel, ?_⟩
  rcases lookups_resize reachable_tangled rfl (k := 1) rfl with ⟨r, -, limited, -⟩ | ⟨-, -, same⟩
  · exact absurd rfl limited
  · exact ⟨(same 4).1.trans (by decide), (same 13).2.2.2.1⟩

end ChainTable.Table
