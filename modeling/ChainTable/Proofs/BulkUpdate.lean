import ChainTable.Proofs.Current
import ChainTable.Proofs.Enumeration

/-! # Three ways to change all values

A function on values can be applied to all entries by the changing iterator, by a change in place
for each listed key, or by a cursor that sets what it meets.  These are three loops; each of them
takes the live entries in order and rewrites one after the other (`swept`), so all of them leave
the directory with each value changed once (`mapValues`).  The loop by keys needs that no two keys
are alike: else it would change one entry twice.
-/

namespace ChainTable

variable {K V : Type}

def Entry.mapValue (f : V → V) (e : Entry K V) : Entry K V := { e with value := f e.value }

namespace Directory

/-- The directory with every value changed: keys, hashes and slots are as they were. -/
def mapValues (f : V → V) (d : Directory K V) : Directory K V :=
  d.map fun bucket => bucket.map fun slot => slot.map (Entry.mapValue f)

@[simp] theorem size_mapValues (f : V → V) (d : Directory K V) :
    (d.mapValues f).size = d.size := by
  simp [mapValues]

theorem slotAt?_mapValues (f : V → V) (d : Directory K V) (loc : Location) :
    (d.mapValues f).slotAt? loc = (d.slotAt? loc).map (Option.map (Entry.mapValue f)) := by
  simp only [slotAt?, bucketAt, mapValues, Array.getElem?_map]
  cases d[loc.bucket]? with
  | none => rfl
  | some bucket => simp [List.getElem?_map]

/-- Directories are equal that have as many buckets and the same slots. -/
theorem ext_slotAt? {d d' : Directory K V} (size : d.size = d'.size)
    (slots : ∀ loc, d.slotAt? loc = d'.slotAt? loc) : d = d' := by
  apply Array.ext size
  intro i inside inside'
  apply List.ext_getElem?
  intro s
  simpa [slotAt?, bucketAt, inside, inside'] using slots ⟨i, s⟩

end Directory

namespace Table

variable {keying : Keying K} {allowance : Option Nat} {t t' t'' : Table K V} {f : V → V}
  {c : Cursor} {position : Position} {items : List (Location × Entry K V)}

/-! ## The iterator -/

/-- A sweep changes the values of the slots it passes, and nothing else. -/
theorem slotAt?_swept (n : Nat) (live : ∀ item ∈ items, t.entryAt? item.1 = some item.2)
    (apart : items.Pairwise fun a b => a.1 ≠ b.1) (loc : Location) :
    (t.swept (fun _ => f) n items).directory.slotAt? loc =
      if loc ∈ items.map Prod.fst then
        (t.directory.slotAt? loc).map (Option.map (Entry.mapValue f))
      else t.directory.slotAt? loc := by
  induction items generalizing t n with
  | nil => simp [swept]
  | cons item rest ih =>
    obtain ⟨here, e⟩ := item
    have kept := entryAt?_of_mem_rest live apart (e.mapValue f)
    obtain ⟨differ, apart⟩ := List.pairwise_cons.mp apart
    have present : t.directory.slotAt? here = some (some e) :=
      Directory.entryAt?_eq_some.mp (live (here, e) List.mem_cons_self)
    have once : here ∉ rest.map Prod.fst := by
      rw [List.mem_map]
      rintro ⟨item, member, same⟩
      exact differ item member same.symm
    have swept := ih (n + 1) kept apart
    rw [rewritten, Directory.slotAt?_setSlot present] at swept
    refine swept.trans ?_
    simp only [List.map_cons, List.mem_cons]
    by_cases same : loc = here
    · simp only [same, once, present, if_true, if_false, true_or]
      rfl
    · simp only [same, if_false, false_or]

/-- The table with every value changed. -/
def mapValues (f : V → V) (t : Table K V) : Table K V :=
  { t with directory := t.directory.mapValues f }

/-- A sweep over the whole table changes every value. -/
theorem swept_live (n : Nat) (t : Table K V) :
    t.swept (fun _ => f) n t.directory.live = t.mapValues f := by
  have live : ∀ item ∈ t.directory.live, t.entryAt? item.1 = some item.2 :=
    fun item member => Directory.mem_live.mp member
  have apart := pairwise_passed none t
  rw [passed_none] at apart
  have directory : (t.swept (fun _ => f) n t.directory.live).directory =
      t.directory.mapValues f := by
    apply Directory.ext_slotAt?
    · rw [Directory.size_mapValues]
      exact capacity_swept _ n _ t
    intro loc
    rw [slotAt?_swept n live apart, Directory.slotAt?_mapValues]
    split
    case isTrue => rfl
    case isFalse unlisted =>
      -- A slot that the sweep does not pass is vacant, or is not there.
      have vacant : ∀ e, t.directory.slotAt? loc ≠ some (some e) := fun e present =>
        unlisted (List.mem_map_of_mem (f := Prod.fst)
          (Directory.mem_live.mpr (Directory.entryAt?_eq_some.mpr present)))
      cases slot : t.directory.slotAt? loc with
      | none => rfl
      | some held =>
        cases held with
        | none => rfl
        | some e => exact absurd slot (vacant e)
  calc t.swept (fun _ => f) n t.directory.live
      = ⟨(t.swept (fun _ => f) n t.directory.live).directory, t.size, t.cursors⟩ := by
        rw [← size_swept (fun _ => f) n t.directory.live t,
          ← cursors_swept (fun _ => f) n t.directory.live t]
    _ = t.mapValues f := by rw [directory, mapValues]

/-! ## The loop by keys -/

/-- To change the value of each of some keys in turn is a sweep along their entries. -/
theorem Distinct.afterAll_modify (equivalence : keying.IsEquivalence)
    (distinct : t.Distinct keying) (sound : t.Sound keying) (allowance : Option Nat) (n : Nat)
    (live : ∀ item ∈ items, t.entryAt? item.1 = some item.2)
    (apart : items.Pairwise fun a b => a.1 ≠ b.1) :
    t.afterAll keying (items.map fun item => ⟨allowance, .ask (.modify item.2.key f)⟩) =
      t.swept (fun _ => f) n items := by
  induction items generalizing t n with
  | nil => rfl
  | cons item rest ih =>
    obtain ⟨loc, e⟩ := item
    have first : t.entryAt? loc = some e := live (loc, e) List.mem_cons_self
    have located := distinct.locate_of_alike equivalence sound first (equivalence.alike_refl e.key)
    have changed : (t.event keying ⟨allowance, .ask (.modify e.key f)⟩).after =
        t.rewritten loc (e.mapValue f) := by
      rw [event, act_modify first allowance located]
      rfl
    rw [List.map_cons, afterAll, changed]
    exact ih (distinct.revalued equivalence first _) (sound.revalued first _) (n + 1)
      (entryAt?_of_mem_rest live apart _) (List.pairwise_cons.mp apart).2

/-! ## The loop with a cursor -/

/-- A loop that leads from one table to another: it advances a cursor to the end, and sets the
value of each pair that it meets to `f` of that value. -/
inductive UpdatesThrough (keying : Keying K) (allowance : Option Nat) (f : V → V) (c : Cursor) :
    Table K V → Table K V → Prop where
  | ended {t t' reply} (advanced : t.act keying allowance (.steer c .advance) = (reply, t'))
      (answered : reply.answer = .ok (.pair none)) : UpdatesThrough keying allowance f c t t'
  | met {t t₁ t₂ t' reply reply' key value}
      (advanced : t.act keying allowance (.steer c .advance) = (reply, t₁))
      (answered : reply.answer = .ok (.pair (some (key, value))))
      (set : t₁.act keying allowance (.steer c (.setCurrent (f value))) = (reply', t₂))
      (rest : UpdatesThrough keying allowance f c t₂ t') : UpdatesThrough keying allowance f c t t'

/-- Where the loop ends depends on where it starts only. -/
theorem UpdatesThrough.unique (first : UpdatesThrough keying allowance f c t t')
    (second : UpdatesThrough keying allowance f c t t'') : t'' = t' := by
  induction first with
  | ended advanced answered =>
    cases second with
    | ended advanced' =>
      cases advanced.symm.trans advanced'
      rfl
    | met advanced' answered' =>
      cases advanced.symm.trans advanced'
      cases answered.symm.trans answered'
  | met advanced answered set _ ih =>
    cases second with
    | ended advanced' answered' =>
      cases advanced.symm.trans advanced'
      cases answered.symm.trans answered'
    | met advanced' answered' set' rest' =>
      cases advanced.symm.trans advanced'
      cases answered.symm.trans answered'
      cases set.symm.trans set'
      exact ih rest'

theorem swept_registering (n : Nat) (items : List (Location × Entry K V)) (t : Table K V)
    (cursors : Registry) : (t.registering cursors).swept (fun _ => f) n items =
      (t.swept (fun _ => f) n items).registering cursors := by
  induction items generalizing t n with
  | nil => rfl
  | cons item rest ih => exact ih (n + 1) (t.rewritten item.1 (item.2.mapValue f))

/-- The loop is a sweep along what the cursor has still to come. -/
theorem Sound.updatesThrough (sound : t.Sound keying) (allowance : Option Nat)
    (standing : t.cursors.standing c = .ok position) (n : Nat)
    (pending : t.pending position = items) : UpdatesThrough keying allowance f c t
      ((t.swept (fun _ => f) n items).registering (t.cursors.moved c .exhausted)) := by
  -- On its way the loop has changed the entries behind the cursor only.
  induction items generalizing t position n with
  | nil =>
    generalize acted : t.act keying allowance (.steer c .advance) = ended
    obtain ⟨reply, t'⟩ := ended
    rcases (effect_of_act sound acted).advance standing with
      ⟨_, _, _, ahead, -⟩ | ⟨-, answered, rfl⟩
    · rw [pending] at ahead
      cases ahead
    · exact .ended acted answered
  | cons item rest ih =>
    obtain ⟨loc, e⟩ := item
    generalize acted : t.act keying allowance (.steer c .advance) = ended
    obtain ⟨reply, t'⟩ := ended
    have effect := effect_of_act sound acted
    have sound' := sound.effect effect
    cases effect with
    | notOpen uses closed =>
      cases uses
      exact absurd standing (closed position)
    | advancedEnd held ahead =>
      cases standing.symm.trans held
      rw [pending] at ahead
      cases ahead
    | advanced held ahead others =>
      cases standing.symm.trans held
      cases pending.symm.trans ahead
      have listed : (loc, e) ∈ t.pending position := by simp [pending]
      have live : t.entryAt? loc = some e := (mem_pending.mp listed).1
      have standing' := standing_sent standing (.on loc)
      have met : (t.registering (t.cursors.moved c (.on loc))).entryAt? loc = some e := live
      have behind := (ahead_rewritten live (e.mapValue f)).trans others
      have through := ih (sound'.revalued met (f e.value)) standing' (n + 1) behind
      have swept : ((t.registering (t.cursors.moved c (.on loc))).rewritten loc
          { e with value := f e.value }).swept (fun _ => f) (n + 1) rest =
            (t.swept (fun _ => f) n ((loc, e) :: rest)).registering
              (t.cursors.moved c (.on loc)) :=
        swept_registering n ((loc, e) :: rest) t _
      rw [cursors_rewritten, cursors_registering, Registry.moved_moved] at through
      refine .met acted rfl (act_setCurrent met allowance standing' (f e.value)) ?_
      rw [swept] at through
      exact through

/-- The loop with a cursor that was just opened changes all values. -/
theorem Sound.updatesThrough_opened (sound : t.Sound keying) (f : V → V)
    (allowance : Option Nat) :
    UpdatesThrough keying allowance f t.cursors.opened.1 (t.registering t.cursors.opened.2)
      ((t.mapValues f).registering
        (t.cursors.opened.2.moved t.cursors.opened.1 .exhausted)) := by
  have opened := sound.act allowance .openCursor
  rw [act_openCursor] at opened
  have through := opened.updatesThrough (f := f) allowance
    (Registry.standing_fresh sound.registered) 0 rfl
  rw [swept_registering] at through
  have whole : (t.registering t.cursors.opened.2).pending .beforeFirst = t.directory.live := rfl
  rw [whole, swept_live] at through
  exact through

/-- Let the keys of a table that actions lead to be told apart by an equivalence, of any hash.
Then each of three loops applies a function to every value once, and leaves keys, hashes, slots
and the cursors that were open as they were: the changing iterator, a change in place for every
key listed, and a cursor that is opened, sets what it meets until it meets nothing, and is closed.
A changing iterator that is stopped after some items has changed just these, which are the first
in the order of the reading iterator. -/
theorem bulk_updates_agree (equivalence : keying.IsEquivalence) (reachable : t.Reachable keying)
    (f : V → V) (allowance : Option Nat) :
    let revalued := t.mapValues f
    revalued.capacity = t.capacity ∧
    (∃ listing, t.act keying allowance (.ask (.updateEach none f)) =
      (⟨.ok (.listing listing), [], []⟩, revalued)) ∧
    (∃ keys, t.act keying allowance (.ask .keys) = (⟨.ok (.keys keys), [], []⟩, t) ∧
      t.afterAll keying (keys.map fun key => ⟨allowance, .ask (.modify key f)⟩) = revalued) ∧
    (∃ c t', (t.act keying allowance .openCursor).1.answer = .ok (.cursor c) ∧
      (∀ t'', UpdatesThrough keying allowance f c (t.act keying allowance .openCursor).2 t'' ↔
        t'' = t') ∧
      let closed := t'.act keying allowance (.closeCursor c)
      closed.1.answer = .ok .done ∧ closed.2.directory = revalued.directory ∧
        closed.2.size = revalued.size ∧ closed.2.liveCursors = revalued.liveCursors ∧
        ∀ c' position, closed.2.cursors.standing c' = .ok position ↔
          revalued.cursors.standing c' = .ok position) ∧
    ∀ m,
      let first := t.directory.live.take m
      let stopped := t.act keying allowance (.ask (.updateEach (some m) f))
      (∃ listing, t.act keying allowance (.ask (.iterate (some m))) =
          (⟨.ok (.listing listing), [], []⟩, t) ∧
        listing.items = first.map (fun item => item.2.pair) ∧
        stopped.1 = ⟨.ok (.listing listing), [], []⟩) ∧
      stopped.2.size = t.size ∧ stopped.2.capacity = t.capacity ∧
        stopped.2.cursors = t.cursors ∧
        ∀ loc, stopped.2.directory.slotAt? loc =
          if loc ∈ first.map Prod.fst then
            (t.directory.slotAt? loc).map (Option.map (Entry.mapValue f))
          else t.directory.slotAt? loc := by
  intro revalued
  have sound := reachable.sound
  have distinct := reachable.distinct equivalence
  have live : ∀ item ∈ t.directory.live, t.entryAt? item.1 = some item.2 :=
    fun item member => Directory.mem_live.mp member
  refine ⟨Directory.size_mapValues f t.directory, ⟨t.listing none, ?_⟩,
    ⟨t.directory.entries.map Entry.key, sound.act_keys allowance, ?_⟩,
    ⟨t.cursors.opened.1,
      revalued.registering (t.cursors.opened.2.moved t.cursors.opened.1 .exhausted),
      by rw [act_openCursor], fun t'' => ⟨?_, ?_⟩, ?_⟩, fun m => ?_⟩
  · rw [Request.updateEach, sound.act_reviseEach, passed_none, swept_live]
  · have apart := pairwise_passed none t
    rw [passed_none] at apart
    have swept := distinct.afterAll_modify (f := f) equivalence sound allowance 0 live apart
    rw [← Directory.map_snd_live, List.map_map, List.map_map]
    exact swept.trans (swept_live 0 t)
  · rw [act_openCursor]
    exact (sound.updatesThrough_opened f allowance).unique
  · rintro rfl
    rw [act_openCursor]
    exact sound.updatesThrough_opened f allowance
  · have standing := Registry.standing_passing sound.registered .exhausted
    rw [act_closeCursor keying standing]
    exact ⟨rfl, rfl, rfl, Registry.live_passed sound.registered .exhausted,
      Registry.standing_passed sound.registered .exhausted⟩
  · intro first stopped
    have swept : stopped = _ := sound.act_reviseEach allowance (some m) fun _ => f
    refine ⟨⟨t.listing (some m), sound.act_iterate allowance (some m), ?_, by rw [swept]⟩, ?_⟩
    · rw [listing, Listing.ofEntries, List.map_map]
      rfl
    · rw [swept]
      exact ⟨size_swept .., capacity_swept .., cursors_swept .., slotAt?_swept 0
        (fun item member => entryAt?_of_mem_passed member) (pairwise_passed (some m) t)⟩

/-- One entry behind a vacant slot, and two cursors that stand on it meanwhile. -/
theorem bulk_updates_agree_shared :
    let f : Nat → Nat := (· + 1)
    let revalued := shared.mapValues f
    let opened := (shared.act Session.lastDigit none .openCursor).2
    let stopped := (shared.act Session.lastDigit none (.ask (.updateEach (some 1) f))).2
    revalued.directory = #[[], [none, some ⟨9, 91, 9⟩], [some ⟨2, 21, 2⟩], [some ⟨3, 31, 3⟩],
        [none], [], [], []] ∧
      (shared.act Session.lastDigit none (.ask (.updateEach none f))).2 = revalued ∧
      shared.afterAll Session.lastDigit ([9, 2, 3].map fun key => ⟨none, .ask (.modify key f)⟩) =
        revalued ∧
      (∃ t', UpdatesThrough Session.lastDigit none f ⟨1, 3, 1⟩ opened t' ∧
        let closed := (t'.act Session.lastDigit none (.closeCursor ⟨1, 3, 1⟩)).2
        closed.directory = revalued.directory ∧
          closed.cursors.standing ⟨1, 2, 1⟩ = .ok (.on ⟨1, 1⟩)) ∧
      stopped.directory.slotAt? ⟨1, 1⟩ = some (some ⟨9, 91, 9⟩) ∧
      stopped.directory.slotAt? ⟨2, 0⟩ = some (some ⟨2, 20, 2⟩) := by
  intro f revalued opened stopped
  obtain ⟨-, ⟨listing, swept⟩, ⟨keys, listed, byKeys⟩,
    ⟨c, t', issued, through, -, directory, -, -, seats⟩, stops⟩ :=
    bulk_updates_agree Session.isEquivalence_lastDigit reachable_shared f none
  have keys' : (shared.act Session.lastDigit none (.ask .keys)).1.answer = .ok (.keys [9, 2, 3]) := by
    decide +kernel
  rw [listed] at keys'
  cases keys'
  have handle : (shared.act Session.lastDigit none .openCursor).1.answer =
      .ok (.cursor ⟨1, 3, 1⟩) := by decide +kernel
  cases handle.symm.trans issued
  have seat : shared.cursors.standing ⟨1, 2, 1⟩ = .ok (.on ⟨1, 1⟩) := by decide +kernel
  obtain ⟨-, -, -, -, slots⟩ := stops 1
  exact ⟨by decide +kernel, by rw [swept], byKeys,
    ⟨t', (through t').mpr rfl, directory, (seats _ _).mpr seat⟩,
    (slots ⟨1, 1⟩).trans (by decide +kernel), (slots ⟨2, 0⟩).trans (by decide +kernel)⟩

end Table

end ChainTable
