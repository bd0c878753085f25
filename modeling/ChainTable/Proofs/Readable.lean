import ChainTable.Key
import ChainTable.Value
import Mathlib.Logic.Function.Basic

/-! # Texts that can be read back

A way to write things down is readable if a text tells what it begins with and where that ends,
as long as no character follows that could go on with it.  Numerals are readable before all but
digits, quoted texts before everything.  Items written in a row are readable if each of them
begins with a character that neither goes on with an item nor follows the row.  No reader is
defined here: two texts are compared from the front, and agree piece by piece.
-/

namespace ChainTable

variable {α β : Type} {p q : Char → Bool} {text : List Char}

/-- A text that does not begin with a character of `p`. -/
def Stops (p : Char → Bool) (text : List Char) : Prop := text.head?.any p = false

@[simp] theorem stops_nil : Stops p [] := rfl

@[simp] theorem stops_nothing (text : List Char) : Stops (fun _ => false) text := by
  cases text <;> rfl

@[simp] theorem stops_cons {c : Char} : Stops p (c :: text) ↔ p c = false := Iff.rfl

theorem stops_append {c : Char} {rest : List Char} (opening : c ∈ text.head?) :
    Stops p (text ++ rest) ↔ p c = false := by
  rw [Stops, List.head?_append, opening]
  exact Iff.rfl

theorem Stops.mono (stops : Stops q text) (within : ∀ c, p c = true → q c = true) :
    Stops p text := by
  cases text with
  | nil => exact stops_nil
  | cons c text =>
    rw [stops_cons, ← Bool.not_eq_true] at stops ⊢
    exact fun inside => stops (within c inside)

/-- A text made of characters of `p` ends where the first other character stands. -/
theorem append_inj_of_stops {xs ys rest rest' : List Char} (inside : ∀ c ∈ xs, p c = true)
    (inside' : ∀ c ∈ ys, p c = true) (stops : Stops p rest) (stops' : Stops p rest')
    (same : xs ++ rest = ys ++ rest') : xs = ys ∧ rest = rest' := by
  induction xs generalizing ys with
  | nil =>
    cases ys with
    | nil => exact ⟨rfl, same⟩
    | cons y ys =>
      rw [List.nil_append, List.cons_append] at same
      rw [same, stops_cons, inside' y List.mem_cons_self] at stops
      cases stops
  | cons x xs ih =>
    cases ys with
    | nil =>
      rw [List.nil_append, List.cons_append] at same
      rw [← same, stops_cons, inside x List.mem_cons_self] at stops'
      cases stops'
    | cons y ys =>
      obtain ⟨first, same⟩ := List.cons.inj same
      obtain ⟨others, rests⟩ := ih (fun c member => inside c (List.mem_cons_of_mem x member))
        (fun c member => inside' c (List.mem_cons_of_mem y member)) same
      exact ⟨by rw [first, others], rests⟩

/-- What is written can be told from any text it begins, and so can the rest, if that does not
begin with a character of `p`. -/
def Readable (p : Char → Bool) (write : α → List Char) : Prop :=
  ∀ ⦃a b : α⦄ ⦃rest rest' : List Char⦄, Stops p rest → Stops p rest' →
    write a ++ rest = write b ++ rest' → a = b ∧ rest = rest'

namespace Readable

variable {write : α → List Char}

theorem comp (readable : Readable p write) {f : β → α} (injective : Function.Injective f) :
    Readable p (write ∘ f) := by
  intro a b rest rest' stops stops' same
  obtain ⟨images, rests⟩ := readable stops stops' same
  exact ⟨injective images, rests⟩

/-- Different texts made of characters of `p` are told apart before all other characters. -/
theorem of_within (injective : Function.Injective write)
    (within : ∀ a, ∀ c ∈ write a, p c = true) : Readable p write := by
  intro a b rest rest' stops stops' same
  obtain ⟨images, rests⟩ := append_inj_of_stops (within a) (within b) stops stops' same
  exact ⟨injective images, rests⟩

end Readable

/-! ## Items in a row -/

/-- Items written one after another, each with its number. -/
def row (write : Nat → α → List Char) (start : Nat) (items : List α) : List Char :=
  (items.zipIdx start).flatMap fun (item, i) => write i item

section Row

variable {write : Nat → α → List Char}

@[simp] theorem row_nil (start : Nat) : row write start [] = [] := rfl

@[simp] theorem row_cons (start : Nat) (item : α) (items : List α) :
    row write start (item :: items) = write start item ++ row write (start + 1) items := rfl

theorem row_unnumbered (write : α → List Char) (start : Nat) (items : List α) :
    row (fun _ => write) start items = items.flatMap write := by
  induction items generalizing start with
  | nil => rfl
  | cons item items ih => rw [row_cons, ih, List.flatMap_cons]

/-- Behind an item there is the next one, or what follows the row. -/
theorem stops_row (opens : ∀ i a, ∃ c ∈ (write i a).head?, p c = false) {rest : List Char}
    (stops : Stops p rest) (start : Nat) (items : List α) :
    Stops p (row write start items ++ rest) := by
  cases items with
  | nil => exact stops
  | cons item items =>
    obtain ⟨c, opening, outside⟩ := opens start item
    rw [row_cons, List.append_assoc]
    exact (stops_append opening).mpr outside

/-- A row is readable before the characters that begin none of its items. -/
theorem Readable.row (readable : ∀ i, Readable p (write i))
    (opens : ∀ i a, ∃ c ∈ (write i a).head?, p c = false ∧ q c = true)
    (within : ∀ c, p c = true → q c = true) (start : Nat) : Readable q (row write start) := by
  have goesOn : ∀ start item items rest,
      ¬ Stops q (ChainTable.row write start (item :: items) ++ rest) := by
    intro start item items rest stops
    obtain ⟨c, opening, -, inside⟩ := opens start item
    rw [row_cons, List.append_assoc, stops_append opening, inside] at stops
    cases stops
  have opens' : ∀ i a, ∃ c ∈ (write i a).head?, p c = false := by
    intro i a
    obtain ⟨c, opening, outside, -⟩ := opens i a
    exact ⟨c, opening, outside⟩
  intro xs ys rest rest' stops stops' same
  induction xs generalizing ys start with
  | nil =>
    cases ys with
    | nil => exact ⟨rfl, same⟩
    | cons y ys => exact absurd (same ▸ stops) (goesOn start y ys rest')
  | cons x xs ih =>
    cases ys with
    | nil => exact absurd (same ▸ stops') (goesOn start x xs rest)
    | cons y ys =>
      rw [row_cons, row_cons, List.append_assoc, List.append_assoc] at same
      -- Behind the first items stand the other ones or what follows the rows: both stop them.
      obtain ⟨first, same⟩ := readable start
        (stops_row opens' (stops.mono within) (start + 1) xs)
        (stops_row opens' (stops'.mono within) (start + 1) ys) same
      obtain ⟨others, rests⟩ := ih (start + 1) same
      exact ⟨by rw [first, others], rests⟩

end Row

/-! ## Numerals -/

namespace Decimal

variable {b : Nat}

theorem digitChar_inj : ∀ d < 16, ∀ e < 16, Nat.digitChar d = Nat.digitChar e → d = e := by
  decide

theorem exists_of_mem_toDigits (base : 1 < b) {n : Nat} {c : Char}
    (member : c ∈ Nat.toDigits b n) : ∃ d < b, c = Nat.digitChar d := by
  induction n using Nat.strongRecOn with
  | ind n ih =>
    rcases Nat.lt_or_ge n b with short | long
    · rw [Nat.toDigits_of_lt_base short] at member
      exact ⟨n, short, List.mem_singleton.mp member⟩
    · rw [Nat.toDigits_of_base_le base long] at member
      rcases List.mem_append.mp member with higher | last
      · exact ih (n / b) (Nat.div_lt_self (by omega) base) higher
      · exact ⟨n % b, Nat.mod_lt n (by omega), List.mem_singleton.mp last⟩

/-- Digits tell the number, in each base whose digits differ. -/
theorem toDigits_inj (base : 1 < b) (small : b ≤ 16) {m n : Nat}
    (same : Nat.toDigits b m = Nat.toDigits b n) : m = n := by
  have digit : ∀ {d e : Nat}, d < b → e < b → Nat.digitChar d = Nat.digitChar e → d = e :=
    fun below below' => digitChar_inj _ (by omega) _ (by omega)
  induction m using Nat.strongRecOn generalizing n with
  | ind m ih =>
    rcases Nat.lt_or_ge m b with short | long <;> rcases Nat.lt_or_ge n b with short' | long'
    · rw [Nat.toDigits_of_lt_base short, Nat.toDigits_of_lt_base short'] at same
      exact digit short short' (List.cons.inj same).1
    -- One digit alone, and a digit behind others.
    · rw [Nat.toDigits_of_lt_base short, Nat.toDigits_of_base_le base long'] at same
      exact absurd (List.append_inj' (show [] ++ [_] = _ from same) rfl).1.symm Nat.toDigits_ne_nil
    · rw [Nat.toDigits_of_base_le base long, Nat.toDigits_of_lt_base short'] at same
      exact absurd (List.append_inj' (show _ = [] ++ [_] from same) rfl).1 Nat.toDigits_ne_nil
    · rw [Nat.toDigits_of_base_le base long, Nat.toDigits_of_base_le base long'] at same
      obtain ⟨higher, last⟩ := List.append_inj' same rfl
      have quotients : m / b = n / b := ih (m / b) (Nat.div_lt_self (by omega) base) higher
      have remainders : m % b = n % b :=
        digit (Nat.mod_lt m (by omega)) (Nat.mod_lt n (by omega)) (List.cons.inj last).1
      rw [← Nat.div_add_mod m b, ← Nat.div_add_mod n b, quotients, remainders]

theorem readable_toDigits (base : 1 < b) (small : b ≤ 16)
    (digits : ∀ d < b, p (Nat.digitChar d) = true) : Readable p (Nat.toDigits b) := by
  apply Readable.of_within
  · intro m n same
    exact toDigits_inj base small same
  · intro n c member
    obtain ⟨d, below, rfl⟩ := exists_of_mem_toDigits base member
    exact digits d below

theorem readable_ofNat : Readable Char.isDigit ofNat :=
  readable_toDigits (by decide) (by decide) (by decide)

/-- A natural is written with a digit in front. -/
theorem ofNat_append_ne {n : Nat} {rest : List Char} (stops : Stops Char.isDigit text) :
    ofNat n ++ rest ≠ text := by
  rintro rfl
  have first : (ofNat n).head Nat.toDigits_ne_nil ∈ (ofNat n).head? :=
    List.head?_eq_some_head Nat.toDigits_ne_nil
  have digit : ((ofNat n).head Nat.toDigits_ne_nil).isDigit = true :=
    Nat.isDigit_of_mem_toDigits (by decide) (by decide) (List.head_mem Nat.toDigits_ne_nil)
  rw [stops_append first, digit] at stops
  cases stops

theorem readable_ofInt : Readable Char.isDigit ofInt := by
  have minus : ∀ rest, Stops Char.isDigit ('-' :: rest) := fun _ => rfl
  intro m n rest rest' stops stops' same
  cases m with
  | ofNat m =>
    cases n with
    | ofNat n =>
      obtain ⟨digits, rests⟩ := readable_ofNat stops stops' same
      exact ⟨by rw [digits], rests⟩
    | negSucc n => exact absurd same (ofNat_append_ne (minus _))
  | negSucc m =>
    cases n with
    | ofNat n => exact absurd same.symm (ofNat_append_ne (minus _))
    | negSucc n =>
      obtain ⟨digits, rests⟩ := readable_ofNat stops stops' (List.cons.inj same).2
      exact ⟨by rw [Nat.succ.inj digits], rests⟩

/-- An integer begins with a digit or a minus sign. -/
theorem ofInt_append_ne {n : Int} {rest : List Char} (stops : Stops Char.isDigit text)
    (unsigned : Stops (· == '-') text) : ofInt n ++ rest ≠ text := by
  cases n with
  | ofNat n => exact ofNat_append_ne stops
  | negSucc n =>
    rintro rfl
    cases unsigned

end Decimal

/-! ## Quoted texts -/

namespace Quoted

/-- The written forms of a character, whatever is hidden. -/
inductive Escapes : Char → List Char → Prop where
  | mark {c mark : Char} (listed : (c, mark) ∈ marks) : Escapes c ['\\', mark]
  | codePoint (c : Char) :
      Escapes c ('\\' :: 'u' :: '\x7b' :: (Nat.toDigits 16 c.toNat ++ ['\x7d']))
  | plain {c : Char} (unmarked : marks.lookup c = none) : Escapes c [c]

theorem escapes_escape (hidden : Char → Bool) (c : Char) : Escapes c (escape hidden c) := by
  unfold escape
  split
  case h_1 mark found =>
    obtain ⟨front, back, around, -⟩ := List.lookup_eq_some_iff.mp found
    exact .mark (around ▸ List.mem_append_right front List.mem_cons_self)
  case h_2 unmarked =>
    split
    case isTrue => exact .codePoint c
    case isFalse => exact .plain unmarked

theorem eq_of_mark {c d mark : Char} (listed : (c, mark) ∈ marks) (listed' : (d, mark) ∈ marks) :
    c = d := by
  have apart : ∀ pair ∈ marks, ∀ pair' ∈ marks, pair.2 = pair'.2 → pair.1 = pair'.1 := by decide
  exact apart _ listed _ listed' rfl

theorem mark_ne {c mark : Char} (listed : (c, mark) ∈ marks) : mark ≠ 'u' := by
  have others : ∀ pair ∈ marks, pair.2 ≠ 'u' := by decide
  exact others _ listed

theorem ne_backslash {c : Char} (unmarked : marks.lookup c = none) : c ≠ '\\' := by
  rintro rfl
  cases unmarked

theorem ne_quote {c : Char} (unmarked : marks.lookup c = none) : c ≠ '"' := by
  rintro rfl
  cases unmarked

theorem readable_codePoint : Readable (· != '\x7d') fun c : Char => Nat.toDigits 16 c.toNat := by
  have digits := Decimal.readable_toDigits (p := (· != '\x7d')) (b := 16) (by decide) (by decide)
    (by decide)
  exact digits.comp fun c d same => Char.toNat_inj.mp same

/-- The first two characters tell how a character is written. -/
theorem Escapes.unique {c d : Char} {text text' rest rest' : List Char} (first : Escapes c text)
    (second : Escapes d text') (same : text ++ rest = text' ++ rest') : c = d ∧ rest = rest' := by
  cases first with
  | mark listed =>
    cases second with
    | mark listed' =>
      simp only [List.cons_append, List.nil_append, List.cons.injEq, true_and] at same
      obtain ⟨rfl, rests⟩ := same
      exact ⟨eq_of_mark listed listed', rests⟩
    | codePoint => exact absurd (List.cons.inj (List.cons.inj same).2).1 (mark_ne listed)
    | plain unmarked => exact absurd (List.cons.inj same).1.symm (ne_backslash unmarked)
  | codePoint =>
    cases second with
    | mark listed => exact absurd (List.cons.inj (List.cons.inj same).2).1.symm (mark_ne listed)
    | codePoint =>
      simp only [List.cons_append, List.append_assoc, List.nil_append, List.cons.injEq, true_and]
        at same
      obtain ⟨points, rests⟩ := readable_codePoint (by simp) (by simp) same
      exact ⟨points, (List.cons.inj rests).2⟩
    | plain unmarked => exact absurd (List.cons.inj same).1.symm (ne_backslash unmarked)
  | plain unmarked =>
    cases second with
    | mark => exact absurd (List.cons.inj same).1 (ne_backslash unmarked)
    | codePoint => exact absurd (List.cons.inj same).1 (ne_backslash unmarked)
    | plain => exact List.cons.inj same

theorem readable_escape (hidden : Char → Bool) : Readable (fun _ => false) (escape hidden) :=
  fun c d _ _ _ _ same => (escapes_escape hidden c).unique (escapes_escape hidden d) same

/-- No character is written with the quote in front that ends a text. -/
theorem Escapes.opens {c : Char} {text : List Char} (form : Escapes c text) :
    ∃ first ∈ text.head?, (first != '"') = true := by
  cases form with
  | mark => exact ⟨_, rfl, rfl⟩
  | codePoint => exact ⟨_, rfl, rfl⟩
  | plain unmarked => exact ⟨_, rfl, bne_iff_ne.mpr (ne_quote unmarked)⟩

theorem readable_encode (hidden : Char → Bool) :
    Readable (fun _ => false) fun text => encode text hidden := by
  have characters : Readable (· != '"') (row (fun _ => escape hidden) 0) := by
    apply Readable.row (fun _ => readable_escape hidden) _ (by simp)
    intro _ c
    obtain ⟨first, opening, other⟩ := (escapes_escape hidden c).opens
    exact ⟨first, opening, rfl, other⟩
  intro text text' rest rest' _ _ same
  simp only [encode, ← row_unnumbered (escape hidden) 0, List.cons_append, List.append_assoc,
    List.cons.injEq, true_and] at same
  obtain ⟨texts, rests⟩ := characters (by simp) (by simp) same
  exact ⟨texts, (List.cons.inj rests).2⟩

end Quoted

/-! ## Keys and values -/

/-- An integer as a numeral or a text in quotes, which is how keys and values are printed. -/
def literal (hidden : Char → Bool) : Int ⊕ List Char → List Char
  | .inl n => Decimal.ofInt n
  | .inr text => Quoted.encode text hidden

theorem readable_literal (hidden : Char → Bool) : Readable Char.isDigit (literal hidden) := by
  have quote : ∀ text rest, Stops Char.isDigit (Quoted.encode text hidden ++ rest) ∧
      Stops (· == '-') (Quoted.encode text hidden ++ rest) := fun _ _ => ⟨rfl, rfl⟩
  intro a b rest rest' stops stops' same
  cases a with
  | inl m =>
    cases b with
    | inl n =>
      obtain ⟨numbers, rests⟩ := Decimal.readable_ofInt stops stops' same
      exact ⟨by rw [numbers], rests⟩
    | inr text' =>
      obtain ⟨digit, minus⟩ := quote text' rest'
      exact absurd same (Decimal.ofInt_append_ne digit minus)
  | inr text =>
    cases b with
    | inl n =>
      obtain ⟨digit, minus⟩ := quote text rest
      exact absurd same.symm (Decimal.ofInt_append_ne digit minus)
    | inr text' =>
      obtain ⟨texts, rests⟩ := Quoted.readable_encode hidden (stops_nothing rest)
        (stops_nothing rest') same
      exact ⟨by rw [texts], rests⟩

namespace Key

def content : Key → Int ⊕ List Char
  | .int n => .inl n.toInt
  | .text s => .inr s.toList

theorem content_injective : Function.Injective content := by
  intro a b same
  cases a <;> cases b <;> simp_all [content, Int32.toInt_inj, String.toList_inj]

theorem readable_print (hidden : Char → Bool) :
    Readable Char.isDigit fun key : Key => key.print hidden := by
  have printed : (fun key : Key => key.print hidden) = literal hidden ∘ content := by
    funext key
    cases key <;> rfl
  rw [printed]
  exact (readable_literal hidden).comp content_injective

end Key

namespace Value

def content : Value → Int ⊕ List Char
  | .int n => .inl n.toInt
  | .text s => .inr s.toList

theorem content_injective : Function.Injective content := by
  intro a b same
  cases a <;> cases b <;> simp_all [content, Int64.toInt_inj, String.toList_inj]

theorem readable_print (hidden : Char → Bool) :
    Readable Char.isDigit fun value : Value => value.print hidden := by
  have printed : (fun value : Value => value.print hidden) = literal hidden ∘ content := by
    funext value
    cases value <;> rfl
  rw [printed]
  exact (readable_literal hidden).comp content_injective

end Value

end ChainTable
