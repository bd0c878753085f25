import ChainTable.Proofs.Bag
import ChainTable.Proofs.Misuse
import Mathlib.Data.Multiset.ZeroCons

/-! # Runs under two hashes

Where the test of sameness is an equivalence that the hash respects, the answers to calls
by key do not depend on the hash.  All that such calls see of a table is its `Outline`:
the bag of its pairs, its capacity and its cursors, but no slot.  `Outline.Step` is what
they do to an outline, with no hash in it; it has one outcome only, as no two pairs have
keys alike (`Outline.Step.unique`), and every table follows it (`Table.Effect.outlineStep`).  So
two tables of one outline are told apart by no such call, be one of them a single chain.
-/

namespace ChainTable

variable {K V : Type}

/-! ## Look-ups with one outcome -/

namespace PairBag

variable {alike : K → K → Prop} {bag : PairBag K V}

/-- No two pairs of a bag have keys alike. -/
def Apart (alike : K → K → Prop) (bag : PairBag K V) : Prop :=
  Multiset.Pairwise (fun p q => ¬ alike p.1 q.1) bag

theorem Apart.not_alike (equivalence : Equivalence alike) (apart : bag.Apart alike)
    {p q : K × V} {others : PairBag K V} (whole : bag = p ::ₘ q ::ₘ others) :
    ¬ alike p.1 q.1 := by
  induction others using Quotient.inductionOn with
  | h others =>
    subst whole
    have symmetric : Std.Symm fun p q : K × V => ¬ alike p.1 q.1 :=
      ⟨fun _ _ unlike matched => unlike (equivalence.symm matched)⟩
    have ordered := Multiset.pairwise_coe_iff_pairwise.mp apart
    exact (List.pairwise_cons.mp ordered).1 q List.mem_cons_self

/-- What a key finds in a bag of unlike keys is determined. -/
theorem Finds.unique (equivalence : Equivalence alike) (apart : bag.Apart alike) {key : K}
    {found found' : Option (K × V)} {rest rest' : PairBag K V}
    (first : Finds alike key bag found rest) (second : Finds alike key bag found' rest') :
    found = found' ∧ rest = rest' := by
  cases first with
  | absent unlike =>
    cases second with
    | absent => exact ⟨rfl, rfl⟩
    | present whole matched => exact absurd matched (unlike _ (by simp [whole]))
  | present whole matched =>
    cases second with
    | absent unlike => exact absurd matched (unlike _ (by simp [whole]))
    | present whole' matched' =>
      rcases Multiset.cons_eq_cons.mp (whole.symm.trans whole') with
        ⟨rfl, rfl⟩ | ⟨-, others, rfl, rfl⟩
      · exact ⟨rfl, rfl⟩
      · exact absurd (equivalence.trans (equivalence.symm matched) matched')
          (apart.not_alike equivalence whole)

end PairBag

/-! ## Outlines -/

/-- What calls by key see of a table. -/
structure Outline (K V : Type) where
  bag : PairBag K V
  capacity : Nat
  cursors : Registry

namespace Outline

/-- The capacity once there is room for one more pair. -/
def grown (o : Outline K V) : Nat :=
  if o.capacity ≤ Multiset.card o.bag then o.capacity * 2 else o.capacity

/-- The capacity after a pair went out and `rest` is left. -/
def shrunk (o : Outline K V) (rest : PairBag K V) : Nat :=
  if (leastCapacity < o.capacity ∧ Multiset.card rest * 4 ≤ o.capacity) ∧ o.cursors.live = 0 then
    o.capacity / 2
  else o.capacity

/-- What a call by key answers and does to an outline, where it is not stopped. -/
inductive Step (alike : K → K → Prop) (o : Outline K V) :
    Action K V → Except Fault (Answer K V) → Outline K V → Prop where
  | inserted {key value found rest} (finds : PairBag.Finds alike key o.bag found rest) :
      Step alike o (.ask (.insert key value))
        (.ok (.outcome (if found.isSome then .updated else .inserted)))
        { o with bag := (found.elim key Prod.fst, value) ::ₘ rest, capacity := o.grown }
  | exchanged {key value found rest} (finds : PairBag.Finds alike key o.bag found rest) :
      Step alike o (.ask (.exchange key value)) (.ok (.pair found))
        { o with
          bag := (key, value) ::ₘ rest
          capacity := if found.isSome then o.capacity else o.grown }
  | taken {request key answer found rest} (takes : Takes request key answer)
      (finds : PairBag.Finds alike key o.bag found rest) :
      Step alike o (.ask request) (.ok (answer found))
        { o with bag := rest, capacity := if found.isSome then o.shrunk rest else o.capacity }
  | lookup {key found rest} (finds : PairBag.Finds alike key o.bag found rest) :
      Step alike o (.ask (.lookup key)) (.ok (.value (found.map Prod.snd))) o
  | contains {key found rest} (finds : PairBag.Finds alike key o.bag found rest) :
      Step alike o (.ask (.contains key)) (.ok (.flag found.isSome)) o
  | modified {key f found rest} (finds : PairBag.Finds alike key o.bag found rest) :
      Step alike o (.ask (.modify key f)) (.ok (.value (found.map Prod.snd)))
        { o with bag := found.elim rest fun pair => (pair.1, f pair.2) ::ₘ rest }
  | isEmpty : Step alike o (.ask .isEmpty) (.ok (.flag (Multiset.card o.bag == 0))) o
  | cleared : Step alike o (.ask .clear) (.ok .done) { o with bag := 0 }
  | opened :
      Step alike o .openCursor (.ok (.cursor o.cursors.opened.1))
        { o with cursors := o.cursors.opened.2 }
  | closed {c} :
      Step alike o (.closeCursor c) (.ok .done) { o with cursors := o.cursors.closed c }

/-- A call by key has one outcome. -/
theorem Step.unique {alike : K → K → Prop} (equivalence : Equivalence alike)
    {o o₁ o₂ : Outline K V} (apart : o.bag.Apart alike) {action : Action K V}
    {answer₁ answer₂ : Except Fault (Answer K V)} (first : Step alike o action answer₁ o₁)
    (second : Step alike o action answer₂ o₂) : answer₁ = answer₂ ∧ o₁ = o₂ := by
  cases first with
  | inserted finds =>
    cases second with
    | inserted finds' =>
      obtain ⟨rfl, rfl⟩ := finds.unique equivalence apart finds'
      exact ⟨rfl, rfl⟩
    | taken takes => cases takes
  | exchanged finds =>
    cases second with
    | exchanged finds' =>
      obtain ⟨rfl, rfl⟩ := finds.unique equivalence apart finds'
      exact ⟨rfl, rfl⟩
    | taken takes => cases takes
  | taken takes finds =>
    cases second with
    | taken takes' finds' =>
      obtain ⟨rfl, rfl⟩ := takes.unique takes'
      obtain ⟨rfl, rfl⟩ := finds.unique equivalence apart finds'
      exact ⟨rfl, rfl⟩
    | inserted | exchanged | lookup | contains | modified | isEmpty | cleared => cases takes
  | lookup finds =>
    cases second with
    | lookup finds' =>
      obtain ⟨rfl, rfl⟩ := finds.unique equivalence apart finds'
      exact ⟨rfl, rfl⟩
    | taken takes => cases takes
  | contains finds =>
    cases second with
    | contains finds' =>
      obtain ⟨rfl, rfl⟩ := finds.unique equivalence apart finds'
      exact ⟨rfl, rfl⟩
    | taken takes => cases takes
  | modified finds =>
    cases second with
    | modified finds' =>
      obtain ⟨rfl, rfl⟩ := finds.unique equivalence apart finds'
      exact ⟨rfl, rfl⟩
    | taken takes => cases takes
  | isEmpty =>
    cases second with
    | isEmpty => exact ⟨rfl, rfl⟩
    | taken takes => cases takes
  | cleared =>
    cases second with
    | cleared => exact ⟨rfl, rfl⟩
    | taken takes => cases takes
  | opened =>
    cases second
    exact ⟨rfl, rfl⟩
  | closed =>
    cases second
    exact ⟨rfl, rfl⟩

end Outline

/-! ## Every table follows its outline -/

/-- The calls by key, those that are refused among them: all but the iterations and the
uses of open cursors. -/
def Action.isByKey (r : Registry) : Action K V → Bool
  | .ask .keys | .ask (.iterate _) | .ask (.reviseEach _ _) => false
  | .steer c _ =>
    match r.standing c with
    | .ok _ => false
    | .error _ => true
  | _ => true

/-- Whether an answer is that storage was refused. -/
def Answer.lacksStorage : Except Fault (Answer K V) → Bool
  | .error (.refused _) => true
  | _ => false

namespace Table

variable {keying : Keying K} {allowance : Option Nat} {t t' : Table K V} {action : Action K V}
  {reply : Reply (Answer K V)}

def outline (t : Table K V) : Outline K V := ⟨t.bag, t.capacity, t.cursors⟩

theorem Distinct.apart (equivalence : keying.IsEquivalence) (distinct : t.Distinct keying) :
    t.bag.Apart keying.Alike :=
  ⟨_, rfl, List.pairwise_map.mpr ((distinct_iff_pairwise equivalence).mp distinct)⟩

theorem outline_rewritten (t : Table K V) (loc : Location) (e : Entry K V) :
    (t.rewritten loc e).outline = { t.outline with bag := (t.rewritten loc e).bag } := by
  simp [outline]

theorem outline_without (t : Table K V) (loc : Location) :
    (t.without loc).outline = { t.outline with bag := (t.without loc).bag } := by
  simp [outline]

theorem outline_cleared (t : Table K V) : t.cleared.outline = { t.outline with bag := 0 } := by
  simp [outline]

theorem Counted.outline_roomy (counted : t.Counted) :
    t.roomy.outline = { t.outline with capacity := t.outline.grown } := by
  have capacity : t.roomy.capacity = t.outline.grown := by
    simp only [roomy, isFull, decide_eq_true_eq, Outline.grown, outline, counted.card_bag]
    split <;> simp
  rw [outline, counted.bag_roomy, capacity, cursors_roomy]
  rfl

theorem Counted.outline_slimmed (counted : t.Counted) :
    t.slimmed.outline = { t.outline with capacity := t.outline.shrunk t.bag } := by
  have capacity : t.slimmed.capacity = t.outline.shrunk t.bag := by
    simp only [slimmed, isSparse, isQuiet, liveCursors, Outline.shrunk, outline,
      counted.card_bag, Bool.and_eq_true, decide_eq_true_eq, beq_iff_eq]
    split <;> simp
  rw [outline, counted.bag_slimmed, capacity, cursors_slimmed]
  rfl

theorem Sound.outline_stored (sound : t.Sound keying) (quiet : t.isQuiet = true) (e : Entry K V) :
    (t.roomy.stored e).outline =
      { t.outline with bag := e.pair ::ₘ t.bag, capacity := t.outline.grown } := by
  have stored : (t.roomy.stored e).outline =
      { t.roomy.outline with bag := e.pair ::ₘ t.roomy.bag } := by
    simp [outline, bag_stored (sound.roomy quiet).capacity_pos]
  rw [stored, sound.outline_roomy, sound.bag_roomy]

/-- Reads by key see the bag only. -/
theorem outlineStep_of_reads {request : Request K V} {answer : Answer K V}
    (sound : t.Sound keying) (reads : Reads keying t request answer)
    (byKey : (Action.ask request).isByKey t.cursors = true) :
    Outline.Step keying.Alike t.outline (.ask request) (.ok answer) t.outline := by
  cases reads with
  | lookup key =>
    obtain ⟨rest, finds⟩ := exists_finds_found sound key
    have step := Outline.Step.lookup (o := t.outline) finds
    rw [Option.map_map] at step
    exact step
  | contains key =>
    obtain ⟨rest, finds⟩ := exists_finds_found sound key
    have step := Outline.Step.contains (o := t.outline) finds
    rw [Option.isSome_map] at step
    exact step
  | isEmpty =>
    have step : Outline.Step keying.Alike t.outline _ _ t.outline := .isEmpty
    rw [outline, sound.card_bag] at step
    exact step
  | keys | iterate => cases byKey

/-- A call by key that is not stopped does to the table what it does to the outline. -/
theorem Effect.outlineStep (sound : t.Sound keying)
    (effect : Effect keying allowance t action reply t')
    (allowed : ∀ cause, ¬ t.cursors.Forbids action cause)
    (byKey : action.isByKey t.cursors = true)
    (granted : Answer.lacksStorage reply.answer = false) :
    Outline.Step keying.Alike t.outline action reply.answer t'.outline := by
  cases effect with
  | whileOpen needs busy =>
    exact absurd (.whileOpen needs (isQuiet_eq_false_iff.mp busy)) (allowed _)
  | notOpen uses closed =>
    obtain ⟨cause, forbids⟩ := Registry.exists_forbids uses closed
    exact absurd forbids (allowed cause)
  | growthRefused | slotRefused | shrinkRefused => cases granted
  | inserted quiet absent =>
    rw [sound.outline_stored quiet]
    exact .inserted (o := t.outline) (finds_none sound absent)
  | exchangedFresh quiet absent =>
    rw [sound.outline_stored quiet]
    exact .exchanged (o := t.outline) (finds_none sound absent)
  | updated quiet located live =>
    obtain ⟨rest, finds, -, rewritten⟩ := exists_finds (sound.roomy quiet) located live
    rw [sound.bag_roomy] at finds
    rw [outline_rewritten, rewritten, sound.outline_roomy]
    exact .inserted (o := t.outline) finds
  | exchanged quiet located live =>
    obtain ⟨rest, finds, -, rewritten⟩ := exists_finds sound located live
    rw [outline_rewritten, rewritten]
    exact .exchanged (o := t.outline) finds
  | takenNone takes absent => exact .taken (o := t.outline) takes (finds_none sound absent)
  | taken takes located live =>
    obtain ⟨rest, finds, left, -⟩ := exists_finds sound located live
    rw [(sound.without live).outline_slimmed, outline_without, left]
    exact .taken (o := t.outline) takes finds
  | read reads => exact outlineStep_of_reads sound reads byKey
  | modifiedNone absent => exact .modified (o := t.outline) (finds_none sound absent)
  | modified located live =>
    obtain ⟨rest, finds, -, rewritten⟩ := exists_finds sound located live
    rw [outline_rewritten, rewritten]
    exact .modified (o := t.outline) finds
  | cleared =>
    rw [outline_cleared]
    exact .cleared
  | opened => exact .opened
  | closed => exact .closed
  | revised => cases byKey
  | advanced standing | advancedEnd standing | currentSet standing | currentSetNone standing
  | currentRemoved standing | currentRemovedNone standing =>
    simp [Action.isByKey, standing] at byKey

end Table

/-! ## Two runs -/

/-- What cannot be told apart of one call on two tables. -/
structure Event.Agrees (a b : Event K V) : Prop where
  call : a.call = b.call
  answer : a.answer = b.answer
  size : a.after.size = b.after.size
  capacity : a.after.capacity = b.after.capacity
  isEmpty : a.after.isEmpty = b.after.isEmpty
  liveCursors : a.after.liveCursors = b.after.liveCursors
  -- Iterations give the same pairs, if in another order.
  items : ∃ l l', ((Table.iterate none).perform none a.after).1.answer = .ok l ∧
    ((Table.iterate none).perform none b.after).1.answer = .ok l' ∧ l.items.Perm l'.items

theorem Keying.alike_iff {keying : Keying K}
    (respects : ∀ a b, keying.same a b = true → keying.hash a = keying.hash b) {a b : K} :
    keying.Alike a b ↔ keying.same a b = true := by
  constructor
  · exact And.right
  · intro same
    exact ⟨by rw [Keying.route, Keying.route, respects a b same], same⟩

namespace Table

variable {k₁ k₂ : Keying K} {t₁ t₂ : Table K V} {allowance : Option Nat} {action : Action K V}
  {calls : List (Invocation K V)}

theorem exists_items {keying : Keying K} {t : Table K V} (sound : t.Sound keying) :
    ∃ l, ((Table.iterate none).perform none t).1.answer = .ok l ∧ ↑l.items = t.bag := by
  have iterated := run_iterate (c := ⟨t, none, [], []⟩) sound none
  refine ⟨t.listing none, by rw [Call.perform_of_same iterated], ?_⟩
  rw [listing, passed_none, Directory.map_snd_live]
  rfl

theorem agrees_of_outline (sound₁ : t₁.Sound k₁) (sound₂ : t₂.Sound k₂)
    (same : t₁.outline = t₂.outline) {before₁ before₂ : Table K V} (call : Invocation K V)
    {answer₁ answer₂ : Except Fault (Answer K V)} (answer : answer₁ = answer₂) :
    Event.Agrees ⟨before₁, call, answer₁, t₁⟩ ⟨before₂, call, answer₂, t₂⟩ := by
  have bag : t₁.bag = t₂.bag := congrArg Outline.bag same
  have cursors : t₁.cursors = t₂.cursors := congrArg Outline.cursors same
  have size : t₁.size = t₂.size := by rw [← sound₁.card_bag, ← sound₂.card_bag, bag]
  obtain ⟨l₁, listed₁, items₁⟩ := exists_items sound₁
  obtain ⟨l₂, listed₂, items₂⟩ := exists_items sound₂
  refine ⟨rfl, answer, size, congrArg Outline.capacity same, ?_, ?_, l₁, l₂, listed₁, listed₂, ?_⟩
  · simp only [isEmpty, size]
  · simp only [liveCursors, cursors]
  · exact Multiset.coe_eq_coe.mp (by rw [items₁, items₂, bag])

/-- One call by key on two tables of one outline. -/
theorem outline_act (equivalence : k₁.IsEquivalence) (alike : k₂.Alike = k₁.Alike)
    (sound₁ : t₁.Sound k₁) (distinct : t₁.Distinct k₁) (sound₂ : t₂.Sound k₂)
    (same : t₁.outline = t₂.outline) (byKey : action.isByKey t₁.cursors = true)
    (granted₁ : Answer.lacksStorage (t₁.act k₁ allowance action).1.answer = false)
    (granted₂ : Answer.lacksStorage (t₂.act k₂ allowance action).1.answer = false) :
    (t₁.act k₁ allowance action).1.answer = (t₂.act k₂ allowance action).1.answer ∧
      (t₁.act k₁ allowance action).2.outline = (t₂.act k₂ allowance action).2.outline := by
  have cursors : t₁.cursors = t₂.cursors := congrArg Outline.cursors same
  by_cases stopped : ∃ cause, t₁.cursors.Forbids action cause
  case pos =>
    obtain ⟨cause, forbids⟩ := stopped
    rw [act_of_forbids forbids, act_of_forbids (cursors ▸ forbids)]
    exact ⟨rfl, same⟩
  case neg =>
    have allowed : ∀ cause, ¬ t₁.cursors.Forbids action cause :=
      fun cause forbids => stopped ⟨cause, forbids⟩
    have classes : Equivalence k₁.Alike :=
      ⟨equivalence.alike_refl, equivalence.alike_symm, equivalence.alike_trans⟩
    have step₁ := (effect_act sound₁ allowance action).outlineStep sound₁ allowed byKey granted₁
    rw [cursors] at allowed byKey
    have step₂ := (effect_act sound₂ allowance action).outlineStep sound₂ allowed byKey granted₂
    -- Both tables follow one outline, and it has one outcome.
    rw [alike, ← same] at step₂
    exact step₁.unique classes (distinct.apart equivalence) step₂

theorem agrees_history (equivalence : k₁.IsEquivalence) (alike : k₂.Alike = k₁.Alike)
    (sound₁ : t₁.Sound k₁) (distinct : t₁.Distinct k₁) (sound₂ : t₂.Sound k₂)
    (same : t₁.outline = t₂.outline)
    (byKey : ∀ event ∈ t₁.history k₁ calls,
      event.call.action.isByKey event.before.cursors = true)
    (granted₁ : ∀ event ∈ t₁.history k₁ calls, Answer.lacksStorage event.answer = false)
    (granted₂ : ∀ event ∈ t₂.history k₂ calls, Answer.lacksStorage event.answer = false) :
    List.Forall₂ Event.Agrees (t₁.history k₁ calls) (t₂.history k₂ calls) := by
  induction calls generalizing t₁ t₂ with
  | nil => exact .nil
  | cons call rest ih =>
    obtain ⟨first, others⟩ := List.forall_mem_cons.mp byKey
    obtain ⟨first₁, others₁⟩ := List.forall_mem_cons.mp granted₁
    obtain ⟨first₂, others₂⟩ := List.forall_mem_cons.mp granted₂
    obtain ⟨answer, same'⟩ := outline_act equivalence alike sound₁ distinct sound₂ same first
      first₁ first₂
    have sound₁' := sound₁.act call.allowance call.action
    have sound₂' := sound₂.act call.allowance call.action
    have distinct' := distinct.effect equivalence sound₁
      (effect_act sound₁ call.allowance call.action)
    exact .cons (agrees_of_outline sound₁' sound₂' same' call answer)
      (ih sound₁' distinct' sound₂' same' others others₁ others₂)

/-- Under two hashes that both respect one test of sameness, an equivalence, calls by key
that are all granted their storage have the same answers, and leave the same size, capacity,
number of open cursors and pairs after every step. -/
theorem hash_independence {same : K → K → Bool}
    (equivalence : Equivalence fun a b => same a b = true) {hash₁ hash₂ : K → UInt32}
    (respects₁ : ∀ a b, same a b = true → hash₁ a = hash₁ b)
    (respects₂ : ∀ a b, same a b = true → hash₂ a = hash₂ b) (owner : Nat)
    {calls : List (Invocation K V)}
    (byKey : ∀ event ∈ (new owner).history ⟨hash₁, same⟩ calls,
      event.call.action.isByKey event.before.cursors = true)
    (granted₁ : ∀ event ∈ (new owner).history ⟨hash₁, same⟩ calls,
      Answer.lacksStorage event.answer = false)
    (granted₂ : ∀ event ∈ (new owner).history ⟨hash₂, same⟩ calls,
      Answer.lacksStorage event.answer = false) :
    List.Forall₂ Event.Agrees ((new owner).history ⟨hash₁, same⟩ calls)
      ((new owner).history ⟨hash₂, same⟩ calls) := by
  have alike : (⟨hash₂, same⟩ : Keying K).Alike = (⟨hash₁, same⟩ : Keying K).Alike := by
    have first : ∀ a b, (⟨hash₁, same⟩ : Keying K).Alike a b ↔ same a b = true :=
      fun a b => Keying.alike_iff respects₁
    have second : ∀ a b, (⟨hash₂, same⟩ : Keying K).Alike a b ↔ same a b = true :=
      fun a b => Keying.alike_iff respects₂
    funext a b
    exact propext ((second a b).trans (first a b).symm)
  exact agrees_history equivalence alike (sound_new _ owner) (distinct_new _ owner)
    (sound_new _ owner) rfl byKey granted₁ granted₂

/-- Decimal digits against a single chain, through a grow, a shrink, a refused insertion and
a foreign cursor: the layouts differ, the answers do not. -/
theorem hash_independence_lastDigit :
    let calls : List (Invocation Nat Nat) :=
      [⟨none, .ask (.insert 1 10)⟩, ⟨none, .ask (.insert 2 20)⟩, ⟨none, .ask (.insert 3 30)⟩,
        ⟨none, .ask (.insert 4 40)⟩, ⟨none, .ask (.exchange 11 50)⟩, ⟨none, .ask (.insert 5 60)⟩,
        ⟨none, .openCursor⟩, ⟨none, .ask (.remove 4)⟩, ⟨none, .ask (.insert 6 70)⟩,
        ⟨none, .steer ⟨9, 1, 1⟩ .advance⟩, ⟨none, .closeCursor ⟨1, 1, 1⟩⟩,
        ⟨none, .ask (.extract 21)⟩, ⟨none, .ask (.remove 3)⟩]
    let digits := (new 1 : Table Nat Nat).history Session.lastDigit calls
    let chain := (new 1 : Table Nat Nat).history ⟨fun _ => 7, Session.lastDigit.same⟩ calls
    List.Forall₂ Event.Agrees digits chain ∧
      digits.map Event.after ≠ chain.map Event.after ∧
      chain.map (fun event => event.after.capacity) = [4, 4, 4, 4, 4, 8, 8, 8, 8, 8, 8, 8, 4] ∧
      (chain.map Event.answer).drop 7 = [.ok (.flag true),
        .error (.misuse (.whileOpen .insert 1)), .error (.misuse .foreignCursor), .ok .done,
        .ok (.pair (some (11, 50))), .ok (.flag true)] := by
  intro calls digits chain
  have respects : ∀ a b, Session.lastDigit.same a b = true →
      Session.lastDigit.hash a = Session.lastDigit.hash b := by
    intro a b same
    simp only [Session.lastDigit, beq_iff_eq] at same ⊢
    rw [same]
  exact ⟨hash_independence Session.isEquivalence_lastDigit respects (fun _ _ _ => rfl) 1
    (by decide +kernel) (by decide +kernel) (by decide +kernel), by decide +kernel,
    by decide +kernel, by decide +kernel⟩

end Table

end ChainTable
