import ChainTable.Proofs.Readable
import ChainTable.Table.Text

/-! # What a listing tells

The listing of a table can be read from front to back: the two counts, then bucket by bucket and
slot by slot what stands where.  Each line of a slot begins with a space and each line of a
bucket does not, so the end of a bucket shows; and what a key or a value holds, be it line ends
or the text of a slot line, is quoted.  So the listing tells all of the table but its cursors.
-/

namespace ChainTable.Table

variable (hidden : Char → Bool)

/-! ## The lines in pieces

The listing is opened by these equations only: to unfold it would compute the texts of its labels.
-/

theorem slotText_some (e : Entry Key Value) :
    slotText hidden (some e) =
      "  key=".toList ++ e.key.print hidden ++ " value=".toList ++ e.value.print hidden ++
        " hash=".toList ++ Decimal.ofNat e.hash.toNat :=
  rfl

theorem slotLine_eq (i : Nat) (slot : Slot Key Value) :
    slotLine hidden i slot =
      "  entry ".toList ++ Decimal.padded 2 i ++ slotText hidden slot ++ ['\n'] :=
  rfl

theorem bucketLines_eq (i : Nat) (bucket : Bucket Key Value) :
    bucketLines hidden i bucket =
      "bucket ".toList ++ Decimal.padded 4 i ++ ['\n'] ++ row (slotLine hidden) 0 bucket :=
  rfl

theorem dump_eq (t : Table Key Value) :
    t.dump hidden =
      "entries: ".toList ++ Decimal.ofNat t.size ++ ['\n'] ++
        "buckets: ".toList ++ Decimal.ofNat t.capacity ++ ['\n'] ++
        row (bucketLines hidden) 0 t.directory.toList :=
  rfl

/-! ## Reading from the front -/

theorem readable_entryText :
    Readable Char.isDigit fun e : Entry Key Value => slotText hidden (some e) := by
  rintro ⟨key, value, hash⟩ ⟨key', value', hash'⟩ rest rest' stops stops' same
  simp only [slotText_some, List.append_assoc] at same
  have same := List.append_cancel_left same
  obtain ⟨keys, same⟩ := Key.readable_print hidden (by simp) (by simp) same
  have same := List.append_cancel_left same
  obtain ⟨values, same⟩ := Value.readable_print hidden (by simp) (by simp) same
  have same := List.append_cancel_left same
  obtain ⟨hashes, rests⟩ := Decimal.readable_ofNat stops stops' same
  exact ⟨by rw [keys, values, UInt32.toNat_inj.mp hashes], rests⟩

/-- What is written of a slot tells what it holds, if neither a space nor a digit follows. -/
theorem readable_slotText : Readable (fun c => c == ' ' || c.isDigit) (slotText hidden) := by
  have goesOn : ∀ e rest, ¬ Stops (fun c => c == ' ' || c.isDigit)
      (slotText hidden (some e) ++ rest) := by
    intro e rest
    simp [slotText_some]
  have digits : ∀ c : Char, c.isDigit = true → (c == ' ' || c.isDigit) = true := by
    intro c digit
    rw [digit, Bool.or_true]
  intro slot slot' rest rest' stops stops' same
  cases slot with
  | none =>
    cases slot' with
    | none => exact ⟨rfl, same⟩
    | some e' => exact absurd (same ▸ stops) (goesOn e' rest')
  | some e =>
    cases slot' with
    | none => exact absurd (same ▸ stops') (goesOn e rest)
    | some e' =>
      obtain ⟨entries, rests⟩ :=
        readable_entryText hidden (stops.mono digits) (stops'.mono digits) same
      exact ⟨by rw [entries], rests⟩

theorem readable_slotLine (i : Nat) : Readable (fun _ => false) (slotLine hidden i) := by
  intro slot slot' rest rest' _ _ same
  simp only [slotLine_eq, List.append_assoc] at same
  have same := List.append_cancel_left (List.append_cancel_left same)
  obtain ⟨slots, rests⟩ := readable_slotText hidden (by simp) (by simp) same
  exact ⟨slots, (List.cons.inj rests).2⟩

/-- The lines of a bucket tell its slots, and end where no slot line follows. -/
theorem readable_bucketLines (i : Nat) : Readable (· == ' ') (bucketLines hidden i) := by
  have slots : Readable (· == ' ') (row (slotLine hidden) 0) := by
    apply Readable.row (readable_slotLine hidden) _ (by simp)
    intro j slot
    exact ⟨' ', by simp [slotLine_eq], rfl, rfl⟩
  intro bucket bucket' rest rest' stops stops' same
  simp only [bucketLines_eq, List.append_assoc] at same
  have same := List.append_cancel_left (List.append_cancel_left (List.append_cancel_left same))
  exact slots stops stops' same

theorem readable_buckets : Readable (fun _ => true) (row (bucketLines hidden) 0) := by
  apply Readable.row (readable_bucketLines hidden) _ (by simp)
  intro i bucket
  exact ⟨'b', by simp [bucketLines_eq], rfl, rfl⟩

/-- Two tables have the same listing just where they have the same number of entries and the same
buckets, slot by slot, whichever characters are hidden in texts. -/
theorem dump_eq_iff (t t' : Table Key Value) :
    t.dump hidden = t'.dump hidden ↔
      t.size = t'.size ∧ t.capacity = t'.capacity ∧ t.directory = t'.directory := by
  constructor
  · intro same
    simp only [dump_eq, List.append_assoc] at same
    have same := List.append_cancel_left same
    obtain ⟨sizes, same⟩ := Decimal.readable_ofNat (by simp) (by simp) same
    have same := List.append_cancel_left (List.append_cancel_left same)
    obtain ⟨capacities, same⟩ := Decimal.readable_ofNat (by simp) (by simp) same
    have same := congrArg (· ++ []) (List.append_cancel_left same)
    obtain ⟨buckets, -⟩ := readable_buckets hidden stops_nil stops_nil same
    exact ⟨sizes, capacities, Array.toList_inj.mp buckets⟩
  · rintro ⟨sizes, capacities, directories⟩
    rw [dump_eq, dump_eq, sizes, capacities, directories]

end ChainTable.Table
