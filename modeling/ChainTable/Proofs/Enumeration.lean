import ChainTable.Proofs.Refusal
import ChainTable.Proofs.Traversal

/-! # One list for all traversals

The reading iterator searches the slots and buckets it holds, the changing one those of the
table from the slot it has come to, and a cursor the directory by locations.  Each step of any
of them gives the head of what it has still to pass and leaves the tail (`Iter.next_spec`, `Sweep.next_spec`,
`Sound.advance_spec`), so all of them give the list of the live entries and then nothing.
-/

namespace ChainTable

variable {K V α : Type}

/-- What `count` steps along a list give: an item or nothing, and how many are still to come. -/
def stepsAlong (items : List α) (count : Nat) : List (Option α × Nat) :=
  (List.range count).map fun i => (items[i]?, items.length - (i + 1))

theorem stepsAlong_succ (items : List α) (count : Nat) :
    stepsAlong items (count + 1) =
      (items.head?, items.length - 1) :: stepsAlong items.tail count := by
  rw [stepsAlong, List.range_succ_eq_map, List.map_cons, List.map_map, List.head?_eq_getElem?]
  congr 1
  apply List.map_congr_left
  intro i _
  simp [List.getElem?_tail, Nat.sub_sub, Nat.add_comm]

namespace Iter

/-- What `count` steps of an iterator give, with its length behind each. -/
def nexts : (count : Nat) → Iter K V → Except Breach (List (Option (K × V) × Nat))
  | 0, _ => .ok []
  | count + 1, it =>
    match it.next with
    | .error breach => .error breach
    | .ok (item, rest) => (rest.nexts count).map ((item, rest.remaining) :: ·)

variable {it : Iter K V}

theorem next_spec (counted : it.remaining = it.pending.length) :
    ∃ rest : Iter K V, it.next = .ok (it.pending.head?.map Entry.pair, rest) ∧
      rest.pending = it.pending.tail ∧ rest.remaining = it.remaining - 1 := by
  have first := firstEntryAmong_spec it.slots it.buckets
  cases found : firstEntryAmong it.slots it.buckets with
  | none =>
    rw [found] at first
    have ended : it.pending = [] := first
    refine ⟨⟨[], [], it.remaining⟩, by simp [next, found, ended], by rw [ended]; rfl, ?_⟩
    rw [counted, ended]
    rfl
  | some item =>
    obtain ⟨e, slots, buckets⟩ := item
    rw [found] at first
    have whole : it.pending = e :: pending ⟨slots, buckets, it.remaining - 1⟩ := first
    have left : it.remaining ≠ 0 := by
      rw [counted, whole]
      exact Nat.succ_ne_zero _
    refine ⟨⟨slots, buckets, it.remaining - 1⟩, ?_, by rw [whole, List.tail_cons], rfl⟩
    simp [next, found, left, whole]

theorem nexts_eq (count : Nat) (counted : it.remaining = it.pending.length) :
    it.nexts count = .ok (stepsAlong (it.pending.map Entry.pair) count) := by
  induction count generalizing it with
  | zero => rfl
  | succ count ih =>
    obtain ⟨rest, stepped, behind, fewer⟩ := next_spec counted
    have counted' : rest.remaining = rest.pending.length := by
      rw [fewer, behind, counted, List.length_tail]
    rw [stepsAlong_succ]
    simp [nexts, stepped, ih counted', Except.map, behind, fewer, counted]

end Iter

namespace Sweep

/-- What `count` steps of a changing iterator give, with its length behind each, where item
number `n` is the next and the value of item number `i` is changed by `f i`. -/
def nexts (f : Nat → V → V) :
    (count n : Nat) → Sweep → Call K V (List (Option (K × V) × Nat))
  | 0, _, _ => pure []
  | count + 1, n, sweep => do
    let (item, rest) ← sweep.next (f n)
    let others ← nexts f count (n + 1) rest
    pure ((item, rest.remaining) :: others)

variable {c : Context K V} {sweep : Sweep}

theorem next_spec (f : V → V)
    (counted : sweep.remaining = (c.table.directory.ahead sweep.start).length) :
    ∃ rest t', sweep.next f c = .ok
        ((c.table.directory.ahead sweep.start).head?.map fun item => item.2.pair, rest)
        (c.later [] [] t') ∧
      t'.directory.ahead rest.start = (c.table.directory.ahead sweep.start).tail ∧
      rest.remaining = sweep.remaining - 1 := by
  cases sought : c.table.directory.seek sweep.start with
  | none =>
    have ended := Directory.ahead_of_seek_none sought
    refine ⟨sweep, c.table, ?_, by rw [ended]; rfl, by rw [counted, ended]; rfl⟩
    simp [next, sought, ended, Context.later_self]
  | some loc =>
    obtain ⟨e, live, whole⟩ := Directory.ahead_of_seek sought
    have left : decide (0 < sweep.remaining) = true := by
      rw [counted, whole]
      exact decide_eq_true (Nat.succ_pos _)
    refine ⟨⟨loc.next, sweep.remaining - 1⟩, c.table.rewritten loc { e with value := f e.value },
      ?_, ?_, rfl⟩
    · have entry : Table.entryAt loc c = .ok e c := Table.run_entryAt live
      have written := Table.run_writeValue (c := c) live (f e.value)
      simp only [next, Call.run_bind, Call.run_table, nextSlot_eq_seek, sought, entry,
        Call.run_check c left, written, Call.run_pure, whole]
      rfl
    -- What is changed is behind the sweep by now.
    · rw [whole]
      exact Table.ahead_rewritten live _

theorem nexts_eq (f : Nat → V → V) (count n : Nat)
    (counted : sweep.remaining = (c.table.directory.ahead sweep.start).length) :
    ∃ t', sweep.nexts f count n c = .ok
      (stepsAlong ((c.table.directory.ahead sweep.start).map fun item => item.2.pair) count)
      (c.later [] [] t') := by
  induction count generalizing c n sweep with
  | zero => exact ⟨c.table, by rw [c.later_self]; rfl⟩
  | succ count ih =>
    obtain ⟨rest, t₁, stepped, behind, fewer⟩ := next_spec (f n) counted
    have counted' : rest.remaining =
        ((c.later [] [] t₁).table.directory.ahead rest.start).length := by
      rw [fewer, Context.table_later, behind, counted, List.length_tail]
    obtain ⟨t₂, others⟩ := ih (n + 1) counted'
    refine ⟨t₂, ?_⟩
    rw [stepsAlong_succ]
    simp [nexts, stepped, others, behind, fewer, counted]

end Sweep

namespace Table

variable {keying : Keying K} {allowance : Option Nat} {t : Table K V} {c : Cursor}
  {position : Position}

theorem Sound.advance_spec (sound : t.Sound keying)
    (standing : t.cursors.standing c = .ok position) (allowance : Option Nat) :
    (t.act keying allowance (.steer c .advance)).1.answer =
        .ok (.pair ((t.pending position).head?.map fun item => item.2.pair)) ∧
      ∃ position', (t.act keying allowance (.steer c .advance)).2.cursors.standing c =
          .ok position' ∧
        (t.act keying allowance (.steer c .advance)).2.pending position' =
          (t.pending position).tail := by
  generalize acted : t.act keying allowance (.steer c .advance) = ended
  obtain ⟨reply, t'⟩ := ended
  cases effect_of_act sound acted with
  | notOpen uses closed =>
    cases uses
    exact absurd standing (closed position)
  | @advanced _ _ loc e rest held pending others =>
    cases standing.symm.trans held
    refine ⟨by rw [pending]; rfl, .on loc, standing_sent standing (.on loc), ?_⟩
    rw [pending]
    exact others
  | advancedEnd held pending =>
    cases standing.symm.trans held
    refine ⟨by rw [pending]; rfl, .exhausted, standing_sent standing .exhausted, ?_⟩
    rw [pending]
    rfl

/-- What a cursor answers that is advanced so many times in a row. -/
theorem Sound.answers_advances (sound : t.Sound keying)
    (standing : t.cursors.standing c = .ok position) (count : Nat) :
    (t.history keying (List.replicate count ⟨allowance, .steer c .advance⟩)).map Event.answer =
      (stepsAlong ((t.pending position).map fun item => item.2.pair) count).map fun step =>
        .ok (.pair step.1) := by
  induction count generalizing t position with
  | zero => rfl
  | succ count ih =>
    obtain ⟨answered, position', standing', behind⟩ := sound.advance_spec standing allowance
    have sound' := sound.act allowance (.steer c .advance)
    rw [List.replicate_succ, history, List.map_cons, stepsAlong_succ, List.map_cons]
    congr 1
    · rw [List.head?_map]
      exact answered
    · rw [← List.map_tail, ← behind]
      exact ih sound' standing'

theorem countdown_eq (remaining count : Nat) :
    Listing.countdown remaining count = (List.range (count + 1)).map (remaining - ·) := by
  induction count generalizing remaining with
  | zero => rfl
  | succ count ih =>
    rw [Listing.countdown, ih, List.range_succ_eq_map (n := count + 1), List.map_cons,
      List.map_map]
    congr 1
    apply List.map_congr_left
    intro i _
    simp [Nat.sub_sub, Nat.add_comm]

theorem Counted.listing_none (counted : t.Counted) :
    t.listing none = ⟨t.directory.live.map fun item => item.2.pair,
      (List.range (t.size + 1)).map (t.size - ·)⟩ := by
  have length := counted.length_passed none
  rw [listing, Listing.ofEntries, List.length_map, length, countdown_eq, passed_none, List.map_map]
  rfl

theorem Sound.act_iterate (sound : t.Sound keying) (allowance limit : Option Nat) :
    t.act keying allowance (.ask (.iterate limit)) =
      (⟨.ok (.listing (t.listing limit)), [], []⟩, t) := by
  have read := run_iterate (c := ⟨t, allowance, [], []⟩) sound limit
  exact Call.perform_of_same (by simp [Action.run, Request.run, read])

theorem Sound.act_reviseEach (sound : t.Sound keying) (allowance limit : Option Nat)
    (f : Nat → V → V) : t.act keying allowance (.ask (.reviseEach limit f)) =
      (⟨.ok (.listing (t.listing limit)), [], []⟩, t.swept f 0 (t.passed limit)) := by
  have swept := run_reviseEach (c := ⟨t, allowance, [], []⟩) sound limit f
  exact Call.perform_of_ok (by simp [Action.run, Request.run, swept])

theorem Sound.act_keys (sound : t.Sound keying) (allowance : Option Nat) :
    t.act keying allowance (.ask .keys) =
      (⟨.ok (.keys (t.directory.entries.map Entry.key)), [], []⟩, t) := by
  have read := run_keys (c := ⟨t, allowance, [], []⟩) sound
  exact Call.perform_of_same (by simp [Action.run, Request.run, read])

/-- Of any table that actions lead to, whatever its hash and its test of sameness are: there
is one list of the live entries, in the order of their locations and each once, and every
traversal gives it.  Both iterators and a fresh cursor give at their step number `i` the pair
number `i`, and nothing once all have been passed, however often they are asked; the length
of an iterator is the number of pairs still to come. -/
theorem traversals_agree (reachable : t.Reachable keying) (allowance : Option Nat) :
    ∃ items : List (Location × Entry K V),
      items.Pairwise (fun a b => a.1.Before b.1) ∧
      (∀ loc e, (loc, e) ∈ items ↔ t.entryAt? loc = some e) ∧ items.length = t.size ∧
      let pairs := items.map fun item => item.2.pair
      let lengths := (List.range (t.size + 1)).map (t.size - ·)
      (t.iter.remaining = t.size ∧
        ∀ count, t.iter.nexts count = .ok (stepsAlong pairs count)) ∧
      (t.sweep.remaining = t.size ∧
        ∀ f count, ((t.sweep.nexts f count 0).perform allowance t).1.answer =
          .ok (stepsAlong pairs count)) ∧
      (t.act keying allowance (.ask (.iterate none))).1.answer =
        .ok (.listing ⟨pairs, lengths⟩) ∧
      (∀ f, (t.act keying allowance (.ask (.reviseEach none f))).1.answer =
        .ok (.listing ⟨pairs, lengths⟩)) ∧
      (t.act keying allowance (.ask .keys)).1.answer = .ok (.keys (pairs.map Prod.fst)) ∧
      ∃ c, (t.act keying allowance .openCursor).1.answer = .ok (.cursor c) ∧
        ∀ count, ((t.act keying allowance .openCursor).2.history keying
            (List.replicate count ⟨allowance, .steer c .advance⟩)).map Event.answer =
          (stepsAlong pairs count).map fun step => .ok (.pair step.1) := by
  have sound := reachable.sound
  have whole : t.directory.live.length = t.size := by
    rw [sound.size_eq_length, ← Directory.map_snd_live, List.length_map]
  refine ⟨t.directory.live, t.directory.pairwise_live, fun loc e => Directory.mem_live, whole,
    ⟨rfl, fun count => ?_⟩, ⟨rfl, fun f count => ?_⟩, ?_, fun f => ?_, ?_, ?_⟩
  · have counted : t.iter.remaining = t.iter.pending.length := sound.size_eq_length
    have pending : t.iter.pending = t.directory.live.map Prod.snd :=
      (Directory.map_snd_live t.directory).symm
    rw [Iter.nexts_eq count counted, pending, List.map_map]
    rfl
  · have fromStart : t.directory.ahead t.sweep.start = t.directory.live :=
      Directory.ahead_origin t.directory
    obtain ⟨t', ended⟩ := Sweep.nexts_eq (c := ⟨t, allowance, [], []⟩) f count 0
      (by rw [fromStart, whole]; rfl)
    rw [Call.perform_of_ok ended, fromStart]
  · rw [sound.act_iterate, sound.listing_none]
  · rw [sound.act_reviseEach, sound.listing_none]
  · rw [sound.act_keys, ← Directory.map_snd_live, List.map_map, List.map_map]
    rfl
  · have standing : (t.registering t.cursors.opened.2).cursors.standing t.cursors.opened.1 =
        .ok .beforeFirst := by
      rw [cursors_registering, Registry.standing_opened sound.registered, if_pos rfl]
    have sound' := sound.act allowance .openCursor
    rw [act_openCursor] at sound' ⊢
    exact ⟨_, rfl, fun count => sound'.answers_advances standing count⟩

/-- Buckets without slots, one with a vacant slot first and one with nothing else. -/
theorem traversals_agree_hollow :
    let steps := [(some (9, 90), 2), (some (2, 20), 1), (some (3, 30), 0), (none, 0), (none, 0)]
    hollow.iter.nexts 5 = .ok steps ∧
      ((hollow.sweep.nexts (fun _ v => v + 1) 5 0).perform none hollow).1.answer = .ok steps ∧
      ∃ c, (hollow.act Session.lastDigit none .openCursor).1.answer = .ok (.cursor c) ∧
        ((hollow.act Session.lastDigit none .openCursor).2.history Session.lastDigit
          (List.replicate 5 ⟨none, .steer c .advance⟩)).map Event.answer =
            steps.map fun step => .ok (.pair step.1) := by
  intro steps
  obtain ⟨items, -, -, -, ⟨-, reading⟩, ⟨-, changing⟩, -, -, -, c, opened, advances⟩ :=
    traversals_agree reachable_hollow none
  have listed : hollow.iter.nexts 5 = .ok steps := by rfl
  have same := Except.ok.inj ((reading 5).symm.trans listed)
  exact ⟨listed, same ▸ changing _ 5, c, opened, same ▸ advances 5⟩

end Table

end ChainTable
