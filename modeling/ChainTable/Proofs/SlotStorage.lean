import ChainTable.Proofs.Layout
import ChainTable.Proofs.PeakLoad
import Mathlib.Data.List.Count

/-! # How many slots a bucket has

A bucket gets one more slot where an entry comes in and none is vacant, and loses slots only
where the directory is rebuilt, which leaves none vacant.  So it has as many slots as the most
entries it has held at any one time since then.  Inside a call an entry comes in last or goes
first, so for that the tables between the calls are all there is to look at.
-/

namespace ChainTable

variable {K V : Type}

namespace Bucket

theorem occupied_le_length (bucket : Bucket K V) : bucket.occupied ≤ bucket.length :=
  List.countP_le_length

theorem occupied_store (e : Entry K V) (bucket : Bucket K V) :
    (bucket.store e).occupied = bucket.occupied + 1 := by
  rw [occupied_eq_length_entries, occupied_eq_length_entries,
    (entries_store_perm e bucket).length_eq, List.length_cons]

theorem hasVacancy_iff {bucket : Bucket K V} :
    bucket.hasVacancy = true ↔ bucket.occupied < bucket.length := by
  simp [hasVacancy, occupied, List.countP_lt_length_iff]

/-- Storing an entry makes the bucket as long as it takes to hold the entries. -/
theorem length_store_eq_max (e : Entry K V) (bucket : Bucket K V) :
    (bucket.store e).length = max bucket.length (bucket.store e).occupied := by
  have least := occupied_le_length bucket
  rw [length_store, occupied_store]
  split
  case isTrue vacancy =>
    have room := hasVacancy_iff.mp vacancy
    omega
  case isFalse filled =>
    rw [hasVacancy_iff] at filled
    omega

@[simp] theorem occupied_map_some (entries : List (Entry K V)) :
    occupied (entries.map some) = entries.length := by
  simp [occupied, List.countP_map, Function.comp_def]

end Bucket

namespace Table

/-- The number of slots of bucket `i`, vacant ones included. -/
def slots (i : Nat) (t : Table K V) : Nat := (t.directory.bucketAt i).length

/-- The number of entries in bucket `i`. -/
def held (i : Nat) (t : Table K V) : Nat := (t.directory.bucketAt i).occupied

variable {keying : Keying K} {allowance : Option Nat} {t t' : Table K V} {action : Action K V}
  {reply : Reply (Answer K V)} {call : Invocation K V} {calls : List (Invocation K V)}

theorem held_le_slots (i : Nat) (t : Table K V) : t.held i ≤ t.slots i :=
  Bucket.occupied_le_length _

theorem Sound.held_le_capacity (sound : t.Sound keying) (i : Nat) : t.held i ≤ t.capacity := by
  by_cases inside : i < t.directory.size
  · -- The entries of one bucket are among those of the table.
    have among : t.held i ≤ t.directory.entries.length := by
      rw [held, Bucket.occupied_eq_length_entries, Directory.entries_around inside]
      simp only [List.length_append]
      omega
    rw [← sound.size_eq_length] at among
    exact Nat.le_trans among sound.size_le
  · rw [held, Directory.bucketAt_of_size_le (Nat.not_lt.mp inside)]
    exact Nat.zero_le _

theorem held_rewritten {loc : Location} {e : Entry K V} (live : t.entryAt? loc = some e)
    (e' : Entry K V) (i : Nat) : (t.rewritten loc e').held i = t.held i := by
  obtain ⟨inside, present⟩ := List.getElem?_eq_some_iff.mp (Directory.entryAt?_eq_some.mp live)
  simp only [held, Table.rewritten, Directory.setSlot, Directory.bucketAt_modify]
  split
  case isTrue own =>
    have positive : 0 < (t.directory.bucketAt loc.bucket).occupied :=
      List.countP_pos_iff.mpr ⟨_, List.getElem_mem inside, by simp [present]⟩
    rw [own.1, Bucket.occupied, List.countP_set inside, present]
    simp only [Bucket.occupied, Option.isSome_some, if_true] at positive ⊢
    omega
  case isFalse => rfl

theorem held_le_stored (e : Entry K V) (t : Table K V) (i : Nat) :
    t.held i ≤ (t.stored e).held i := by
  simp only [held, Table.stored, Directory.store, Directory.bucketAt_modify]
  split
  · rw [Bucket.occupied_store]
    omega
  · exact Nat.le_refl _

theorem slots_rehashed (t : Table K V) (capacity i : Nat) :
    (t.rehashed capacity).slots i = (t.rehashed capacity).held i := by
  by_cases inside : i < capacity
  · simp [slots, held, Table.rehashed, Directory.bucketAt_gather inside]
  · have outside : (t.rehashed capacity).directory.bucketAt i = [] :=
      Directory.bucketAt_of_size_le (by simpa [Table.rehashed] using Nat.not_lt.mp inside)
    rw [slots, held, outside]
    rfl

/-! ## One call -/

/-- Where the directory stays, a bucket gets the slots it lacks for its entries. -/
structure Stretched (t t' : Table K V) : Prop where
  capacity : t'.capacity = t.capacity
  slots : ∀ i, t'.slots i = max (t.slots i) (t'.held i)

theorem SameShape.stretched (same : t.SameShape t') : t.Stretched t' := by
  refine ⟨same.capacity, fun i => ?_⟩
  have slots : t'.slots i = t.slots i := same.slots i
  have least := t'.held_le_slots i
  omega

theorem stretched_stored (e : Entry K V) (t : Table K V) : t.Stretched (t.stored e) := by
  refine ⟨capacity_stored t e, fun i => ?_⟩
  have least := t.held_le_slots i
  simp only [Table.slots, held, Table.stored, Directory.store,
    Directory.bucketAt_modify] at least ⊢
  split
  · exact Bucket.length_store_eq_max _ _
  · omega

theorem sameShape_cleared (t : Table K V) : t.SameShape t.cleared := by
  refine ⟨capacity_cleared t, fun i => ?_⟩
  simp only [Table.cleared, Directory.bucketAt, Directory.vacated, Array.getElem?_map]
  cases t.directory[i]? with
  | none => rfl
  | some bucket => exact Bucket.length_vacated bucket

/-- What a call can do to the slots. -/
inductive SlotChange (t t' : Table K V) : Prop where
  | stretched (stretched : t.Stretched t')
  | rebuilt (capacity : t'.capacity ≠ t.capacity) (slots : ∀ i, t'.slots i = t'.held i)

theorem SameShape.slotChange (same : t.SameShape t') : t.SlotChange t' := .stretched same.stretched

/-- After a growth the slots are those of the entries, be there one more of them or not. -/
theorem Stretched.slotChange_of_roomy (positive : 0 < t.capacity) (stretched : t.roomy.Stretched t')
    (more : ∀ i, t.roomy.held i ≤ t'.held i) : t.SlotChange t' := by
  cases full : t.isFull with
  | false =>
    rw [roomy_of_room full] at stretched
    exact .stretched stretched
  | true =>
    rw [roomy_of_full full] at stretched more
    refine .rebuilt ?_ fun i => ?_
    · rw [stretched.capacity, capacity_rehashed]
      omega
    · have slots := stretched.slots i
      rw [slots_rehashed] at slots
      have least := more i
      omega

theorem slotChange_slimmed (same : t.SameShape t') : t.SlotChange t'.slimmed := by
  cases due : t'.isSparse && t'.isQuiet with
  | false =>
    have kept : t'.slimmed = t' := if_neg (by simp [due])
    rw [kept]
    exact same.slotChange
  | true =>
    have halved : t'.slimmed = t'.rehashed (t'.capacity / 2) := if_pos due
    have above := (isSparse_iff.mp (Bool.and_eq_true_iff.mp due).1).1
    have capacity := same.capacity
    rw [halved]
    refine .rebuilt ?_ (slots_rehashed t' _)
    rw [capacity_rehashed]
    omega

theorem Effect.slotChange (sound : t.Sound keying)
    (effect : Effect keying allowance t action reply t') : t.SlotChange t' := by
  have same := SameShape.refl t
  have grown := SameShape.refl t.roomy
  have positive := sound.capacity_pos
  cases effect with
  | whileOpen | notOpen | growthRefused | takenNone | shrinkRefused | read | modifiedNone
  | currentSetNone | currentRemovedNone => exact same.slotChange
  | opened | closed | advanced | advancedEnd => exact (same.registering _).slotChange
  | slotRefused => exact grown.stretched.slotChange_of_roomy positive fun _ => Nat.le_refl _
  | inserted | exchangedFresh =>
    exact (stretched_stored _ _).slotChange_of_roomy positive (held_le_stored _ _)
  | updated _ _ live =>
    refine (grown.rewritten _ _).stretched.slotChange_of_roomy positive fun i => ?_
    rw [held_rewritten live]
  | exchanged | modified | currentSet => exact (same.rewritten _ _).slotChange
  | taken => exact slotChange_slimmed (same.without _)
  | currentRemoved => exact (same.without _).slotChange
  | cleared => exact (sameShape_cleared t).slotChange
  | revised limit f =>
    refine SameShape.slotChange ?_
    exact swept_induction f (fun _ _ _ _ shaped _ => shaped.rewritten _ _) 0
      (fun p member => entryAt?_of_mem_passed member) (pairwise_passed limit t) same

/-! ## Runs -/

/-- The tables since the latest resize, latest first, where `past` are those before the calls. -/
def tenure (past : List (Table K V)) : List (Event K V) → List (Table K V)
  | [] => past
  | event :: rest =>
    tenure (if event.Resizes then [event.after] else event.after :: past) rest

theorem SlotChange.slots_step {event : Event K V} (change : event.before.SlotChange event.after)
    {past : List (Table K V)} {i : Nat} (former : event.before.slots i = peak (held i) past) :
    event.after.slots i =
      peak (held i) (if event.Resizes then [event.after] else event.after :: past) := by
  cases change with
  | stretched stretched =>
    have kept : ¬ event.Resizes := not_not_intro stretched.capacity
    rw [if_neg kept, stretched.slots, former, peak_cons, Nat.max_comm]
  | rebuilt capacity slots =>
    have resized : event.Resizes := capacity
    rw [if_pos resized, slots, peak_singleton]

theorem Sound.slots_afterAll (sound : t.Sound keying) {past : List (Table K V)} {i : Nat}
    (former : t.slots i = peak (held i) past) :
    (t.afterAll keying calls).slots i = peak (held i) (tenure past (t.history keying calls)) := by
  induction calls generalizing t past with
  | nil => exact former
  | cons call rest ih =>
    have change : (t.event keying call).before.SlotChange (t.event keying call).after :=
      (effect_act sound call.allowance call.action).slotChange sound
    exact ih (sound.act call.allowance call.action) (change.slots_step former)

theorem Sound.slots_le_afterAll (sound : t.Sound keying) {i : Nat}
    (within : t.slots i ≤ t.capacity) :
    (t.afterAll keying calls).slots i ≤ (t.afterAll keying calls).capacity := by
  induction calls generalizing t with
  | nil => exact within
  | cons call rest ih =>
    have sound' := sound.act call.allowance call.action
    have load := sound'.held_le_capacity i
    refine ih sound' ?_
    cases (effect_act sound call.allowance call.action).slotChange sound with
    | stretched stretched =>
      have slots := stretched.slots i
      have capacity := stretched.capacity
      exact le_of_eq_of_le slots (max_le (capacity ▸ within) load)
    | rebuilt _ slots => exact le_of_eq_of_le (slots i) load

theorem bucketAt_new (owner i : Nat) : (new owner : Table K V).directory.bucketAt i = [] := by
  simp only [new, Directory.bucketAt, Directory.blank, Array.getElem?_replicate]
  split <;> rfl

theorem slots_new (owner i : Nat) : (new owner : Table K V).slots i = 0 := by
  rw [slots, bucketAt_new, List.length_nil]

theorem held_new (owner i : Nat) : (new owner : Table K V).held i = 0 := by
  rw [held, bucketAt_new]
  rfl

/-- The bucket of a key. -/
def homeOf (keying : Keying K) (key : K) (t : Table K V) : Nat :=
  Directory.home (keying.route key) t.capacity

/-- A fresh entry takes a new slot exactly where all slots of its bucket are taken. -/
theorem berthing_eq (keying : Keying K) (key : K) (t : Table K V) :
    t.berthing keying key =
      if t.held (t.homeOf keying key) = t.slots (t.homeOf keying key) then [⟨.slots, 1⟩]
      else [] := by
  have least := t.held_le_slots (t.homeOf keying key)
  unfold berthing
  split
  case isTrue vacancy =>
    have room : t.held (t.homeOf keying key) < t.slots (t.homeOf keying key) :=
      Bucket.hasVacancy_iff.mp vacancy
    rw [if_neg (Nat.ne_of_lt room)]
  case isFalse filled =>
    have full : ¬ t.held (t.homeOf keying key) < t.slots (t.homeOf keying key) := fun room =>
      filled (Bucket.hasVacancy_iff.mpr room)
    rw [if_pos (by omega)]

theorem length_berthing_le {key : K} : (t.berthing keying key).length ≤ 1 := by
  unfold berthing
  split <;> simp

/-- A fresh entry asks for its slot whether it then gets it or not. -/
theorem Effect.reservations_put {request : Request K V} {key : K} {value : V}
    (puts : Puts request key value) (quiet : t.isQuiet = true)
    (absent : t.found keying key = none) (growing : Grants allowance t.growth)
    (effect : Effect keying allowance t (.ask request) reply t') :
    reply.reservations = t.growth ++ t.roomy.berthing keying key := by
  cases effect.putting puts with
  | whileOpen busy =>
    rw [quiet] at busy
    cases busy
  | growthRefused short => exact absurd growing short.not_grants
  | slotRefused _ _ short =>
    obtain ⟨n, -, -, rfl⟩ := short
    -- There is one piece of storage at most, so nothing behind the refused one is left out.
    rw [List.take_of_length_le (Nat.le_trans length_berthing_le (Nat.le_add_left 1 n))]
  | fresh => rfl
  | present found =>
    rw [found] at absent
    cases absent

/-- After any calls on a new table the slots of every bucket are as many as the most entries it
has held since the latest resize, and not more than the table has buckets.  So a fresh entry
asks for a slot exactly where its bucket holds that many entries, in the table that has grown
if it was due to. -/
theorem slots_eq_peak (keying : Keying K) (owner : Nat) (calls : List (Invocation K V)) :
    let t := (new owner).afterAll keying calls
    let past := tenure [new owner] ((new owner).history keying calls)
    (∀ i, t.slots i = peak (held i) past ∧ t.slots i ≤ t.capacity) ∧
      ∀ request key value allowance, Puts request key value → t.isQuiet = true →
        t.found keying key = none → Grants allowance t.growth →
        let home := t.roomy.homeOf keying key
        let recent := if t.isFull then [t.roomy] else past
        (t.act keying allowance (.ask request)).1.reservations = t.growth ++
          if t.roomy.held home = peak (held home) recent then [⟨.slots, 1⟩] else [] := by
  intro t past
  have sound := sound_new (V := V) keying owner
  have slots : ∀ i, t.slots i = peak (held i) past := fun i =>
    sound.slots_afterAll (by rw [peak_singleton, slots_new, held_new])
  refine ⟨fun i => ⟨slots i, ?_⟩, ?_⟩
  · exact sound.slots_le_afterAll (by rw [slots_new]; exact Nat.zero_le _)
  · intro request key value allowance puts quiet absent growing home recent
    have reached : t.Sound keying := ((Reachable.new owner).afterAll calls).sound
    have asked := (effect_act reached allowance (.ask request)).reservations_put puts quiet absent
      growing
    have storage : t.roomy.slots home = peak (held home) recent := by
      cases full : t.isFull with
      | false => simp [recent, full, roomy_of_room full, slots home]
      | true => simp [recent, full, roomy_of_full full, slots_rehashed]
    rw [asked, berthing_eq, storage]

/-- The growth has made two of one bucket, whose slots it shares out.  Then one of two entries
of another has gone, so one of two fresh entries asks for a slot. -/
theorem slots_eq_peak_lastDigit :
    let calls : List (Invocation Nat Nat) :=
      [1, 2, 6, 3, 9].map (fun n => ⟨none, .ask (.insert n n)⟩) ++ [⟨none, .ask (.remove 1)⟩]
    let t := (new 1).afterAll Session.lastDigit calls
    let past := tenure [new 1] ((new 1).history Session.lastDigit calls)
    past.map (held 1) = [1, 2] ∧ past.map (held 2) = [1, 1] ∧ t.slots 1 = 2 ∧ t.slots 2 = 1 ∧
      (t.act Session.lastDigit none (.ask (.insert 11 10))).1.reservations = [] ∧
      (t.act Session.lastDigit (some 0) (.ask (.exchange 8 80))).1.reservations =
        [⟨.slots, 1⟩] := by
  intro calls t past
  obtain ⟨slots, asks⟩ := slots_eq_peak (V := Nat) Session.lastDigit 1 calls
  have first : past.map (held 1) = [1, 2] := by decide +kernel
  have second : past.map (held 2) = [1, 1] := by decide +kernel
  have ungrown : t.growth = [] := by decide +kernel
  have again := asks _ 11 10 none (.insert 11 10) (by decide +kernel) (by decide +kernel)
    (grants_none _)
  have anew := asks _ 8 80 (some 0) (.exchange 8 80) (by decide +kernel) (by decide +kernel)
    (by rw [ungrown]; exact fun n _ => Nat.zero_le n)
  refine ⟨first, second, ?_, ?_, ?_, ?_⟩
  · rw [(slots 1).1, peak, first]
    rfl
  · rw [(slots 2).1, peak, second]
    rfl
  · rw [again]
    decide +kernel
  · rw [anew]
    decide +kernel

end Table

end ChainTable
