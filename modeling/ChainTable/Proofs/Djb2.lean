import ChainTable.Keying.Named
import Mathlib.Algebra.Group.Nat.Defs
import Mathlib.Data.LawfulXor.Basic
import Mathlib.Logic.Function.Basic

/-! # What djb2 keeps apart

To absorb a byte is to multiply the state by 33, a unit modulo 2^32, and to flip some of its low
bits with the byte.  Both can be undone (`release`), so every list of bytes permutes the 32-bit
states: two states that differ still differ after any number of common bytes.  Two lists of bytes
that differ in one place alone part there, at equal states, and never meet again.
-/

namespace ChainTable.Djb2

/-! ## One byte -/

/-- The number that 33 multiplies to 1 modulo 2^32. -/
def unitInverse : UInt32 := 1041204193

/-- The state before a byte was absorbed. -/
def release (h : UInt32) (byte : UInt8) : UInt32 := (h ^^^ byte.toUInt32) * unitInverse

theorem mul_unitInverse (h : UInt32) : h * 33 * unitInverse = h := by
  have unit : (33 : UInt32) * unitInverse = 1 := rfl
  rw [UInt32.mul_assoc, unit, UInt32.mul_one]

theorem unitInverse_mul (h : UInt32) : h * unitInverse * 33 = h := by
  have unit : unitInverse * 33 = 1 := rfl
  rw [UInt32.mul_assoc, unit, UInt32.mul_one]

/-- A shift by five places and an addition multiply by 33. -/
theorem absorb_eq (h : UInt32) (byte : UInt8) : absorb h byte = h * 33 ^^^ byte.toUInt32 := by
  have shifted : (h <<< 5) + h = h * 33 := by
    apply UInt32.toNat_inj.mp
    have places : (h <<< 5).toNat = h.toNat * 32 % 2 ^ 32 := by
      rw [UInt32.toNat_shiftLeft, Nat.shiftLeft_eq]
      rfl
    have factor : (33 : UInt32).toNat = 33 := rfl
    rw [UInt32.toNat_add, places, UInt32.toNat_mul, factor]
    omega
  rw [absorb, shifted]

theorem toNat_absorb (h : UInt32) (byte : UInt8) :
    (absorb h byte).toNat = (33 * h.toNat % 2 ^ 32) ^^^ byte.toNat := by
  rw [absorb_eq, UInt32.toNat_xor, UInt32.toNat_mul, UInt8.toNat_toUInt32, Nat.mul_comm h.toNat]
  rfl

theorem release_absorb (h : UInt32) (byte : UInt8) : release (absorb h byte) byte = h := by
  rw [release, absorb_eq, xor_cancel_right, mul_unitInverse]

theorem absorb_release (h : UInt32) (byte : UInt8) : absorb (release h byte) byte = h := by
  rw [release, absorb_eq, unitInverse_mul, xor_cancel_right]

theorem bijective_absorb (byte : UInt8) : Function.Bijective fun h => absorb h byte := by
  apply Function.bijective_iff_has_inverse.mpr
  exact ⟨fun h => release h byte, fun h => release_absorb h byte, fun h => absorb_release h byte⟩

/-- From one state, different bytes lead to different states. -/
theorem eq_of_absorb_eq {h : UInt32} {x y : UInt8} (same : absorb h x = absorb h y) : x = y := by
  have flipped : h * 33 ^^^ x.toUInt32 = h * 33 ^^^ y.toUInt32 := by
    rw [← absorb_eq, ← absorb_eq, same]
  have words : x.toUInt32 = y.toUInt32 := (UInt32.xor_right_inj _).mp flipped
  apply UInt8.toNat_inj.mp
  rw [← UInt8.toNat_toUInt32, words, UInt8.toNat_toUInt32]

/-! ## Many bytes -/

/-- No list of bytes confuses two states. -/
theorem bijective_absorbAll (bytes : List UInt8) :
    Function.Bijective fun h => absorbAll h bytes := by
  induction bytes with
  | nil => exact Function.bijective_id
  | cons byte bytes ih => exact ih.comp (bijective_absorb byte)

theorem hash_ne_of_around (front back : List UInt8) {x y : UInt8} (differ : x ≠ y) :
    hash (front ++ x :: back) ≠ hash (front ++ y :: back) := by
  intro same
  simp only [hash, absorbAll_append, absorbAll_cons] at same
  exact differ (eq_of_absorb_eq ((bijective_absorbAll back).injective same))

/-- Lists of bytes of one length that differ in exactly one place. -/
def OneApart (a b : List UInt8) : Prop :=
  a.length = b.length ∧ (a.zip b).countP (fun pair => pair.1 != pair.2) = 1

instance (a b : List UInt8) : Decidable (OneApart a b) :=
  inferInstanceAs (Decidable (_ ∧ _))

theorem eq_of_none_apart {a b : List UInt8} (length : a.length = b.length)
    (none : (a.zip b).countP (fun pair => pair.1 != pair.2) = 0) : a = b := by
  induction a generalizing b with
  | nil => exact (List.length_eq_zero_iff.mp length.symm).symm
  | cons x a ih =>
    cases b with
    | nil => simp at length
    | cons y b =>
      rw [List.zip_cons_cons, List.countP_cons, Nat.add_eq_zero_iff] at none
      have first : x = y := by simpa using none.2
      rw [first, ih (Nat.succ.inj length) none.1]

theorem OneApart.exists_around {a b : List UInt8} (apart : OneApart a b) :
    ∃ front back x y, x ≠ y ∧ a = front ++ x :: back ∧ b = front ++ y :: back := by
  obtain ⟨length, once⟩ := apart
  induction a generalizing b with
  | nil => simp at once
  | cons x a ih =>
    cases b with
    | nil => simp at length
    | cons y b =>
      have length := Nat.succ.inj length
      rw [List.zip_cons_cons, List.countP_cons] at once
      by_cases first : x = y
      · obtain ⟨front, back, x', y', differ, rfl, rfl⟩ := ih length (by simpa [first] using once)
        exact ⟨x :: front, back, x', y', differ, rfl, by rw [first]; rfl⟩
      · have rest : a = b := eq_of_none_apart length (by simpa [first] using once)
        exact ⟨[], a, x, y, first, rfl, by rw [rest]; rfl⟩

/-- Every list of bytes permutes the states, byte by byte through a multiplication by 33 and a
flip; so lists that are equal but for one byte have different hashes, and so have two keys,
texts or integers, whose bytes differ in exactly one place. -/
theorem separates :
    (∀ bytes, Function.Bijective fun h => absorbAll h bytes) ∧
      (∀ h byte, (absorb h byte).toNat = (33 * h.toNat % 2 ^ 32) ^^^ byte.toNat) ∧
      (∀ front back x y, x ≠ y → hash (front ++ x :: back) ≠ hash (front ++ y :: back)) ∧
      ∀ a b : Key, OneApart a.bytes b.bytes → a.djb2 ≠ b.djb2 := by
  refine ⟨bijective_absorbAll, toNat_absorb, fun front back x y differ =>
    hash_ne_of_around front back differ, fun a b apart => ?_⟩
  obtain ⟨front, back, x, y, differ, bytes, bytes'⟩ := apart.exists_around
  rw [Key.djb2, Key.djb2, bytes, bytes']
  exact hash_ne_of_around front back differ

/-- Two words with another vowel, two integers with another third byte, and one byte in front of
a long suffix. -/
theorem separates_vowels :
    OneApart (Key.text "stop").bytes (Key.text "step").bytes ∧
      (Key.text "stop").djb2 ≠ (Key.text "step").djb2 ∧
      OneApart (Key.int (-1)).bytes (Key.int (-65537)).bytes ∧
      (Key.int (-1)).djb2 ≠ (Key.int (-65537)).djb2 ∧
      (0x61 : UInt8) ≠ 0x62 ∧
      hash (0x61 :: List.replicate 1000 0xff) ≠ hash (0x62 :: List.replicate 1000 0xff) := by
  obtain ⟨-, -, around, keys⟩ := separates
  have words : OneApart (Key.text "stop").bytes (Key.text "step").bytes := by decide
  have integers : OneApart (Key.int (-1)).bytes (Key.int (-65537)).bytes := by decide
  have first : (0x61 : UInt8) ≠ 0x62 := by decide
  exact ⟨words, keys _ _ words, integers, keys _ _ integers, first, around [] _ _ _ first⟩

end ChainTable.Djb2
