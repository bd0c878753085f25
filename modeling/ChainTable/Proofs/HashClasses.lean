import ChainTable.Proofs.Preservation

/-! # Where the test of sameness is consulted

A look-up compares stored hashes first, and a stored hash is at all times the routing hash
of the key beside it, also after an exchange of keys, a resize or a removal that is undone.
So the test of sameness is put only to keys of one routing hash.  What it says of other
pairs shows nowhere: neither in a reply nor in a slot (`Session.transcript_congr`).
-/

namespace ChainTable

variable {K V : Type}

/-- Two keyings with the same routing hashes, whose tests agree on keys that share theirs. -/
structure Keying.AgreesInClasses (k k' : Keying K) : Prop where
  route : ∀ key, k.route key = k'.route key
  same : ∀ a b, k.route a = k.route b → k.same a b = k'.same a b

namespace Keying

/-- The keying that tells keys of different routing hashes apart, and hashes none to 0. -/
def confined (k : Keying K) : Keying K where
  hash := k.route
  same a b := k.route a == k.route b && k.same a b

theorem route_confined (k : Keying K) (key : K) : k.confined.route key = k.route key :=
  if_neg (k.route_ne_zero key)

/-- Every keying is as good as the one confined to its classes. -/
theorem agreesInClasses_confined (k : Keying K) : k.AgreesInClasses k.confined where
  route key := (k.route_confined key).symm
  same a b routes := by simp [confined, routes]

end Keying

/-! ## Look-ups -/

theorem Bucket.position?_congr {p q : Entry K V → Bool} {bucket : Bucket K V}
    (agree : ∀ e, some e ∈ bucket → p e = q e) : bucket.position? p = bucket.position? q := by
  induction bucket with
  | nil => rfl
  | cons slot rest ih =>
    have first : slot.any p = slot.any q := by
      cases slot with
      | none => rfl
      | some e => exact agree e List.mem_cons_self
    have others : position? p rest = position? q rest :=
      ih fun e member => agree e (List.mem_cons_of_mem _ member)
    unfold position? at others ⊢
    rw [List.findIdx?_cons, List.findIdx?_cons, first, others]

namespace Table

variable {k k' : Keying K} {t : Table K V} {c : Context K V}

section Calls

variable (agrees : k.AgreesInClasses k')

include agrees

/-- The test is asked about an entry only once the hashes are equal. -/
theorem answers_congr {e : Entry K V} (stamp : e.hash = k.route e.key) (key : K) :
    Directory.answers k key e = Directory.answers k' key e := by
  unfold Directory.answers
  rw [← agrees.route key, stamp]
  by_cases routes : k.route e.key = k.route key
  · rw [agrees.same key e.key routes.symm]
  · rw [beq_eq_false_iff_ne.mpr routes, Bool.false_and, Bool.false_and]

theorem locate_congr (sound : t.Sound k) (key : K) : t.locate k key = t.locate k' key := by
  have asked : ∀ e, some e ∈ t.directory.bucketAt (Directory.home (k.route key) t.directory.size) →
      Directory.answers k key e = Directory.answers k' key e := by
    intro e member
    obtain ⟨slot, present⟩ := List.getElem?_of_mem member
    have live : t.entryAt? ⟨Directory.home (k.route key) t.directory.size, slot⟩ = some e :=
      Directory.entryAt?_eq_some.mpr present
    exact answers_congr agrees (sound.stamped _ e live) key
  simp only [locate, Directory.locate, ← agrees.route key, Bucket.position?_congr asked]

/-! ## Calls -/

theorem storeFresh_congr (key : K) (value : V) :
    storeFresh k key value = storeFresh k' key value := by
  simp only [storeFresh, agrees.route key]

variable (sound : c.table.Sound k)

include sound

theorem growAndPut_congr (quiet : c.table.isQuiet = true) (key : K) (value : V)
    (replaceKey : Bool) :
    growAndPut k key value replaceKey c = growAndPut k' key value replaceKey c := by
  cases grants_or_refuses c.allowance c.table.growth with
  | inl granted =>
    -- The look-up is made after the table has grown.
    have grown := run_growIfFull sound quiet granted
    have located := locate_congr agrees (sound.roomy quiet) key
    simp only [growAndPut, Call.run_bind, grown, Call.run_table, Context.table_later, located,
      storeFresh_congr agrees]
  | inr short =>
    obtain ⟨r, asked, refused⟩ := short
    simp only [growAndPut, Call.run_bind, run_growIfFull_refused sound quiet refused]

theorem insert_congr (key : K) (value : V) : insert k key value c = insert k' key value c := by
  cases quiet : c.table.isQuiet with
  | true =>
    simp only [insert, Call.run_bind, run_refuseWhileOpen .insert quiet,
      growAndPut_congr agrees sound quiet]
  | false => simp only [insert, Call.run_bind, run_refuseWhileOpen_refused .insert quiet]

theorem exchange_congr (key : K) (value : V) :
    exchange k key value c = exchange k' key value c := by
  cases quiet : c.table.isQuiet with
  | true =>
    have located := locate_congr agrees sound key
    simp only [exchange, Call.run_bind, run_refuseWhileOpen .insert quiet, Call.run_table, located]
    cases c.table.locate k' key with
    | some loc => rfl
    | none => exact growAndPut_congr agrees sound quiet key value true
  | false => simp only [exchange, Call.run_bind, run_refuseWhileOpen_refused .insert quiet]

theorem extract_congr (key : K) : extract k key c = extract k' key c := by
  simp only [extract, Call.run_bind, Call.run_table, locate_congr agrees sound key]

theorem modify_congr (key : K) (f : V → V) : modify k key f c = modify k' key f c := by
  simp only [modify, Call.run_bind, Call.run_table, locate_congr agrees sound key]

theorem run_congr (action : Action K V) : action.run k c = action.run k' c := by
  have located := locate_congr agrees sound
  cases action with
  | ask request =>
    cases request with
    | insert key value => simp only [Action.run, Request.run, Call.run_map, insert_congr agrees sound]
    | exchange key value =>
      simp only [Action.run, Request.run, Call.run_map, exchange_congr agrees sound]
    | remove key =>
      simp only [Action.run, Request.run, remove, Call.run_map, Call.run_bind,
        extract_congr agrees sound]
    | extract key => simp only [Action.run, Request.run, Call.run_map, extract_congr agrees sound]
    | lookup key =>
      simp only [Action.run, Request.run, Call.run_bind, Call.run_table, Call.run_pure, lookup,
        located]
    | modify key f => simp only [Action.run, Request.run, Call.run_map, modify_congr agrees sound]
    | contains key =>
      simp only [Action.run, Request.run, Call.run_bind, Call.run_table, Call.run_pure, contains,
        located]
    | isEmpty | clear | keys | iterate | reviseEach => rfl
  | openCursor | steer | closeCursor => rfl

end Calls

theorem act_congr (agrees : k.AgreesInClasses k') (sound : t.Sound k) (allowance : Option Nat)
    (action : Action K V) : t.act k allowance action = t.act k' allowance action := by
  simp only [act, Call.perform, EStateM.run, run_congr (c := ⟨t, allowance, [], []⟩) agrees sound]

end Table

/-! ## Scripts -/

namespace Session

variable {keyings keyings' : Nat → Keying K} {s : Session K V}

/-- The replies to the steps of a script, each with the whole session that it leaves; what
is no step of its session is passed over. -/
def transcript (keyings : Nat → Keying K) :
    Session K V → List (Step K V) → List (Reply (Answer K V) × Session K V)
  | _, [] => []
  | s, step :: rest =>
    match s.step keyings step with
    | some done => done :: transcript keyings done.2 rest
    | none => transcript keyings s rest

theorem act_congr (agree : ∀ i, (keyings i).AgreesInClasses (keyings' i))
    (sprung : s.Sprung keyings) (i : Nat) (allowance : Option Nat) (action : Action K V) :
    s.act keyings i allowance action = s.act keyings' i allowance action := by
  cases present : s.tableAt? i with
  | none => simp only [Session.act, perform, present, Option.map_none]
  | some t =>
    have same := Table.act_congr (agree i) (sprung i t present).sound allowance action
    unfold Table.act at same
    simp only [Session.act, perform, present, Option.map_some, same]

theorem step_congr (agree : ∀ i, (keyings i).AgreesInClasses (keyings' i))
    (sprung : s.Sprung keyings) (step : Step K V) : s.step keyings step = s.step keyings' step := by
  have acts := act_congr agree sprung
  cases step with
  | ask i allowance request => exact acts i allowance (.ask request)
  | openCursor i name => simp only [Session.step, acts]
  | steer i name request => simp only [Session.step, acts]
  | closeCursor i name =>
    have released : (s.release name).Sprung keyings := sprung
    simp only [Session.step, act_congr agree released]
  | dropCursor | dropTable => rfl

/-- Whatever script of calls is run, with cursors used anywhere and storage refused at any
time: two keyings that agree within the classes of one routing hash lead to the same replies
(answers, errors, reservations and log records) and to the same tables, slot by slot. -/
theorem transcript_congr (agree : ∀ i, (keyings i).AgreesInClasses (keyings' i)) (count : Nat)
    (steps : List (Step K V)) :
    (start count).transcript keyings steps = (start count).transcript keyings' steps := by
  have sprung : (start count : Session K V).Sprung keyings := sprung_start keyings count
  generalize (start count : Session K V) = s at sprung ⊢
  induction steps generalizing s with
  | nil => rfl
  | cons step rest ih =>
    unfold transcript
    rw [← step_congr agree sprung step]
    split
    case h_1 done ran => rw [ih _ (sprung.step ran)]
    case h_2 => exact ih s sprung

/-- A test that is no equivalence, with hashes of which 0 is one. -/
def ninths : Keying Nat := ⟨fun n => (n % 9).toUInt32, fun a b => a ≤ b⟩

/-- Keys of two classes share a bucket, and the tests differ on them. -/
theorem transcript_congr_ninths :
    let steps : List (Step Nat Nat) :=
      [.ask 0 none (.insert 5 50), .ask 0 none (.insert 1 10), .ask 0 none (.exchange 9 90),
        .ask 0 none (.lookup 0), .ask 0 (some 0) (.insert 10 100), .openCursor 0 7,
        .steer 0 7 .advance, .ask 0 none (.remove 0), .closeCursor 1 7]
    ninths.hash 9 ≠ ninths.confined.hash 9 ∧ ninths.same 1 5 ≠ ninths.confined.same 1 5 ∧
      (start 2).transcript (fun _ => ninths) steps =
        (start 2).transcript (fun _ => ninths.confined) steps ∧
      ((start 2).transcript (fun _ => ninths) steps).map (fun done => done.1.answer) =
        [.ok (.outcome .inserted), .ok (.outcome .inserted), .ok (.pair none),
          .ok (.value (some 10)), .error (.refused ⟨.slots, 1⟩), .ok (.cursor ⟨1, 1, 1⟩),
          .ok (.pair (some (5, 50))), .ok (.flag true), .error (.misuse .foreignCursor)] :=
  ⟨by decide, by decide, transcript_congr (fun _ => ninths.agreesInClasses_confined) 2 _,
    by decide +kernel⟩

end Session

end ChainTable
