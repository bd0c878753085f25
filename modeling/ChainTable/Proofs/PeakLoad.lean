import ChainTable.Proofs.Hysteresis

/-! # The capacity and the highest load

A table grows only when it holds as many entries as it has buckets, so a capacity above the
least one is at most twice the highest number of entries the table has held.  With no more
entries than a 64-bit address space has room for, what a growth and the test for a shrink
compute does not leave the 64-bit words.
-/

namespace ChainTable

variable {K V : Type}

/-! ## Peaks -/

/-- The largest measure among some tables. -/
def peak (measure : Table K V → Nat) (tables : List (Table K V)) : Nat :=
  (tables.map measure).foldr max 0

section Peak

variable {measure : Table K V → Nat} {t : Table K V} {tables : List (Table K V)}

@[simp] theorem peak_nil (measure : Table K V → Nat) : peak measure [] = 0 := rfl

@[simp] theorem peak_cons (measure : Table K V → Nat) (t : Table K V) (tables : List (Table K V)) :
    peak measure (t :: tables) = max (measure t) (peak measure tables) := rfl

theorem peak_singleton (measure : Table K V → Nat) (t : Table K V) :
    peak measure [t] = measure t :=
  Nat.max_zero (measure t)

theorem le_peak (member : t ∈ tables) : measure t ≤ peak measure tables := by
  induction tables with
  | nil => cases member
  | cons first rest ih =>
    rw [peak_cons]
    cases member with
    | head => omega
    | tail _ member =>
      have below := ih member
      omega

end Peak

/-- The product of two numbers is the same in 64-bit words. -/
structure FitsWords (n k : Nat) : Prop where
  bound : n * k < 2 ^ 64
  exact : (UInt64.ofNat n * UInt64.ofNat k).toNat = n * k

theorem fitsWords_of_lt {n k : Nat} (positive : 0 < k) (small : k < 2 ^ 64)
    (bound : n * k < 2 ^ 64) : FitsWords n k := by
  have factor : n < 2 ^ 64 := Nat.lt_of_le_of_lt (Nat.le_mul_of_pos_right n positive) bound
  refine ⟨bound, ?_⟩
  rw [UInt64.toNat_mul, UInt64.toNat_ofNat_of_lt' factor, UInt64.toNat_ofNat_of_lt' small,
    Nat.mod_eq_of_lt bound]

/-! ## The bound -/

/-- A call keeps the capacity within a bound for twice the entries there have been. -/
theorem Event.LoadChange.capacity_le {event : Event K V} (change : event.LoadChange)
    {highest : Nat} (within : event.before.capacity ≤ max leastCapacity (2 * highest))
    (load : event.before.size ≤ highest) :
    event.after.capacity ≤ max leastCapacity (2 * highest) := by
  cases change with
  | steady capacity => omega
  -- As many entries as buckets are there when the buckets are doubled.
  | grown capacity full => omega
  | shrunk capacity => omega

namespace Table

variable {keying : Keying K} {t : Table K V} {calls : List (Invocation K V)}

theorem Sound.capacity_le_run (sound : t.Sound keying) {highest : Nat}
    (within : t.capacity ≤ max leastCapacity (2 * highest)) (load : t.size ≤ highest)
    (loads : ∀ event ∈ t.history keying calls, event.after.size ≤ highest) :
    (t.afterAll keying calls).capacity ≤ max leastCapacity (2 * highest) ∧
      ∀ event ∈ t.history keying calls,
        event.before.capacity ≤ max leastCapacity (2 * highest) ∧
          event.before.size ≤ highest := by
  -- By induction on the calls, with one bound for the whole run.
  induction calls generalizing t with
  | nil =>
    refine ⟨within, fun event member => ?_⟩
    cases member
  | cons call rest ih =>
    obtain ⟨next, later⟩ := List.forall_mem_cons.mp loads
    have within' := (sound.loadChange call).capacity_le within load
    obtain ⟨last, others⟩ := ih (sound.act call.allowance call.action) within' next later
    exact ⟨last, List.forall_mem_cons.mpr ⟨⟨within, load⟩, others⟩⟩

/-- After any calls on a new table its capacity is the least one, or at most twice the largest
number of entries it has held.  Where that number has not passed 2^61, the doubled capacity
that a growth aims at and the fourfold size that the shrink test looks at, once the entry
is out, are the same in 64-bit words, in every call. -/
theorem capacity_le_peak (keying : Keying K) (owner : Nat) (calls : List (Invocation K V)) :
    let events := (new owner).history keying calls
    let highest := peak size (new owner :: events.map Event.after)
    ((new owner).afterAll keying calls).capacity ≤ max leastCapacity (2 * highest) ∧
      (highest ≤ 2 ^ 61 → ∀ event ∈ events, FitsWords event.before.capacity 2 ∧
        ∀ loc, FitsWords (event.before.without loc).size 4) := by
  intro events highest
  have start : (new owner : Table K V).capacity ≤ max leastCapacity (2 * highest) :=
    Nat.le_trans (Nat.le_of_eq (capacity_new owner)) (Nat.le_max_left _ _)
  have loads : ∀ event ∈ events, event.after.size ≤ highest := fun event member =>
    le_peak (List.mem_cons_of_mem _ (List.mem_map_of_mem member))
  obtain ⟨last, former⟩ :=
    (sound_new keying owner).capacity_le_run start (Nat.zero_le highest) loads
  refine ⟨last, fun bounded event member => ?_⟩
  obtain ⟨within, load⟩ := former event member
  have least : leastCapacity = 4 := rfl
  refine ⟨fitsWords_of_lt (by decide) (by decide) (by omega), fun loc => ?_⟩
  rw [size_without]
  exact fitsWords_of_lt (by decide) (by decide) (by omega)

/-- A fifth entry, which goes again before a shrink is due. -/
theorem capacity_le_peak_of_five :
    let calls : List (Invocation Nat Nat) :=
      [1, 2, 3, 4, 5].map (fun n => ⟨none, .ask (.insert n n)⟩) ++
        [5, 4].map fun n => ⟨none, .ask (.remove n)⟩
    let events := (new 1).history Session.lastDigit calls
    let t := (new 1).afterAll Session.lastDigit calls
    peak size (new 1 :: events.map Event.after) = 5 ∧ t.size = 3 ∧ t.capacity = 8 ∧
      ∀ event ∈ events, FitsWords event.before.capacity 2 ∧
        ∀ loc, FitsWords (event.before.without loc).size 4 := by
  intro calls events t
  have highest : peak size (new 1 :: events.map Event.after) = 5 := by decide +kernel
  refine ⟨highest, by decide +kernel, by decide +kernel, ?_⟩
  exact (capacity_le_peak Session.lastDigit 1 calls).2 (by rw [highest]; decide)

end Table

end ChainTable
