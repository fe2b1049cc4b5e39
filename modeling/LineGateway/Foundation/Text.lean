import Mathlib.Tactic

/-! Texts as lists of characters: UTF-8 bytes, decimal numbers padded to a width
and their value, and framing of rows by newlines. ASCII texts and their bytes
determine each other; a number below `10 ^ w` padded to width `w` has exactly `w`
digits and determines the number; rows without newline are recovered from their
framing with nothing left over. -/

namespace Foundation

abbrev Text := List Char

namespace Text

/-- The bytes of a text in UTF-8. -/
def utf8 (s : Text) : List UInt8 := s.flatMap String.utf8EncodeChar

/-- The text of a string of ASCII bytes. -/
def ofAscii (bs : List UInt8) : Text := bs.map fun b => Char.ofNat b.toNat

/-- What is computed for every character. -/
theorem forall_mem_of_all {p : Char → Prop} [DecidablePred p] {s : Text}
    (h : (s.all fun c => p c) = true) : ∀ c ∈ s, p c := by
  simpa using h

theorem isUpper_iff {c : Char} : c.isUpper ↔ 65 ≤ c.toNat ∧ c.toNat ≤ 90 := by
  change decide ('A'.val ≤ c.val ∧ c.val ≤ 'Z'.val) = true ↔ _
  rw [decide_eq_true_iff]
  rfl

theorem isLower_iff {c : Char} : c.isLower ↔ 97 ≤ c.toNat ∧ c.toNat ≤ 122 := by
  change (decide ('a'.val ≤ c.val) && decide (c.val ≤ 'z'.val)) = true ↔ _
  rw [Bool.and_eq_true, decide_eq_true_iff, decide_eq_true_iff]
  rfl

/-- An ASCII character is one byte; every byte of another character is above 127. -/
theorem utf8EncodeChar_cases (c : Char) :
    c.toNat < 128 ∧ String.utf8EncodeChar c = [UInt8.ofNat c.toNat] ∨
      128 ≤ c.toNat ∧ String.utf8EncodeChar c ≠ [] ∧
        ∀ b ∈ String.utf8EncodeChar c, 128 ≤ b.toNat := by
  have hv : c.val.toNat = c.toNat := rfl
  unfold String.utf8EncodeChar
  simp only [hv]
  split_ifs with h₁ h₂ h₃
  · exact .inl ⟨by omega, rfl⟩
  all_goals
    refine .inr ⟨by omega, by simp, ?_⟩
    simp only [List.mem_cons, List.not_mem_nil, or_false, forall_eq_or_imp, forall_eq,
      UInt8.toNat_ofNat']
    omega

theorem utf8_cons (c : Char) (s : Text) : utf8 (c :: s) = String.utf8EncodeChar c ++ utf8 s := rfl

theorem ofNat_toNat_of_lt {c : Char} (h : c.toNat < 128) :
    Char.ofNat (UInt8.ofNat c.toNat).toNat = c := by
  rw [UInt8.toNat_ofNat', Nat.mod_eq_of_lt (by omega), Char.ofNat_toNat]

/-- A text of ASCII characters has one byte for each. -/
theorem utf8_eq_map {s : Text} (h : ∀ c ∈ s, c.toNat < 128) :
    utf8 s = s.map fun c => UInt8.ofNat c.toNat := by
  induction s with
  | nil => rfl
  | cons c s ih =>
    rcases utf8EncodeChar_cases c with ⟨-, hc⟩ | ⟨hc, -⟩
    · rw [utf8_cons, hc, ih fun d hd => h d (by simp [hd])]; rfl
    · exact absurd (h c (by simp)) (by omega)

/-- Text whose bytes are all ASCII is read back from its bytes. -/
theorem ofAscii_utf8 {s : Text} (h : ∀ b ∈ utf8 s, b.toNat < 128) : ofAscii (utf8 s) = s := by
  induction s with
  | nil => rfl
  | cons c s ih =>
    rw [utf8_cons] at h ⊢
    rcases utf8EncodeChar_cases c with ⟨hlt, hc⟩ | ⟨-, hne, hb⟩
    · have hs := ih fun b hbs => h b (by simp [hbs])
      simp only [ofAscii, hc, List.map_append, List.map_cons, List.map_nil] at hs ⊢
      rw [hs, ofNat_toNat_of_lt hlt, List.singleton_append]
    · obtain ⟨b, hmem⟩ := List.exists_mem_of_ne_nil _ hne
      have := h b (by simp [hmem])
      have := hb b hmem
      omega

theorem toNat_ofNat_of_lt {n : ℕ} (h : n < 128) : (Char.ofNat n).toNat = n := by
  interval_cases n <;> rfl

/-- ASCII bytes are the bytes of their text. -/
theorem utf8_ofAscii {bs : List UInt8} (h : ∀ b ∈ bs, b.toNat < 128) : utf8 (ofAscii bs) = bs := by
  have hlt : ∀ c ∈ ofAscii bs, c.toNat < 128 := by
    intro c hc
    obtain ⟨b, hb, rfl⟩ := List.mem_map.mp hc
    rw [toNat_ofNat_of_lt (h b hb)]
    exact h b hb
  rw [utf8_eq_map hlt, ofAscii, List.map_map]
  conv_rhs => rw [← List.map_id bs]
  refine List.map_congr_left fun b hb => ?_
  simp [toNat_ofNat_of_lt (h b hb)]

theorem length_ofAscii (bs : List UInt8) : (ofAscii bs).length = bs.length := by simp [ofAscii]

/-! ### Decimal numbers -/

def decimal (n : ℕ) : Text := Nat.toDigits 10 n

/-- The number written by a text of digits. -/
def value (s : Text) : ℕ := Nat.ofDigitChars 10 s 0

/-- Pad on the left with zeros to at least `w` characters. -/
def padded (w : ℕ) (s : Text) : Text := s.leftpad w '0'

/-- Every character is an ASCII digit. -/
def Digits (s : Text) : Prop := ∀ c ∈ s, c.isDigit

instance (s : Text) : Decidable (Digits s) := inferInstanceAs (Decidable (∀ c ∈ s, _))

theorem Digits.append {a b : Text} (ha : Digits a) (hb : Digits b) : Digits (a ++ b) := by
  intro c hc
  rcases List.mem_append.mp hc with h | h
  · exact ha c h
  · exact hb c h

theorem Digits.left {a b : Text} (h : Digits (a ++ b)) : Digits a :=
  fun c hc => h c (List.mem_append_left _ hc)

theorem Digits.right {a b : Text} (h : Digits (a ++ b)) : Digits b :=
  fun c hc => h c (List.mem_append_right _ hc)

theorem digits_decimal (n : ℕ) : Digits (decimal n) :=
  fun _ hc => Nat.isDigit_of_mem_toDigits (by decide) (by decide) hc

@[simp] theorem value_decimal (n : ℕ) : value (decimal n) = n := Nat.ofDigitChars_ten_toDigits

theorem length_padded (w : ℕ) (s : Text) : (padded w s).length = max w s.length :=
  List.length_leftpad

theorem length_padded_of_le {w : ℕ} {s : Text} (h : s.length ≤ w) : (padded w s).length = w := by
  rw [length_padded, max_eq_left h]

@[simp] theorem value_padded (w : ℕ) (s : Text) : value (padded w s) = value s := by
  simp [padded, value, List.leftpad, Nat.ofDigitChars_append]

theorem mem_padded {w : ℕ} {s : Text} {c : Char} (h : c ∈ padded w s) : c = '0' ∨ c ∈ s := by
  simp only [padded, List.leftpad, List.mem_append, List.mem_replicate] at h
  rcases h with ⟨_, rfl⟩ | h
  · exact .inl rfl
  · exact .inr h

theorem subset_padded {w : ℕ} {s : Text} {c : Char} (h : c ∈ s) : c ∈ padded w s :=
  List.mem_append_right _ h

theorem Digits.padded {w : ℕ} {s : Text} (h : Digits s) : Digits (padded w s) := by
  intro c hc
  rcases mem_padded hc with rfl | hc
  · decide
  · exact h c hc

/-- A number padded to width `w`. -/
def fixed (w n : ℕ) : Text := padded w (decimal n)

theorem digits_fixed (w n : ℕ) : Digits (fixed w n) := (digits_decimal n).padded

@[simp] theorem value_fixed (w n : ℕ) : value (fixed w n) = n := by simp [fixed]

theorem length_fixed {w n : ℕ} (hw : 0 < w) (h : n < 10 ^ w) : (fixed w n).length = w :=
  length_padded_of_le ((Nat.length_toDigits_le_iff (by decide) hw).mpr h)

theorem fixed_injective (w : ℕ) : Function.Injective (fixed w) := by
  intro m n h
  simpa using congrArg value h

theorem value_snoc (s : Text) (c : Char) : value (s ++ [c]) = 10 * value s + (c.toNat - 48) := by
  simp [value, Nat.ofDigitChars_append, Nat.ofDigitChars_cons]

theorem digit_toNat {c : Char} (h : c.isDigit) : 48 ≤ c.toNat ∧ c.toNat ≤ 57 := by
  simp only [Char.isDigit, Bool.and_eq_true, decide_eq_true_eq, UInt32.le_iff_toNat_le] at h
  exact ⟨h.1, h.2⟩

/-- A text of digits is a number below the power of ten of its length. -/
theorem value_lt {s : Text} (h : Digits s) : value s < 10 ^ s.length := by
  induction s using List.reverseRecOn with
  | nil => decide
  | append_singleton s c ih =>
    have hs := ih h.left
    have hc := digit_toNat (h c (by simp))
    rw [value_snoc, List.length_append, List.length_singleton, pow_succ]
    omega

/-- Digit strings of one length are determined by their value. -/
theorem eq_of_value_eq {a b : Text} (hlen : a.length = b.length) (ha : Digits a) (hb : Digits b)
    (h : value a = value b) : a = b := by
  induction a using List.reverseRecOn generalizing b with
  | nil => simpa using hlen.symm
  | append_singleton a c ih =>
    rcases List.eq_nil_or_concat b with rfl | ⟨b, d, rfl⟩
    · simp at hlen
    · rw [List.concat_eq_append] at h hb hlen ⊢
      rw [value_snoc, value_snoc] at h
      obtain ⟨hc₁, hc₂⟩ := digit_toNat (ha c (by simp))
      obtain ⟨hd₁, hd₂⟩ := digit_toNat (hb d (by simp))
      have hcd : c = d := Char.toNat_inj.mp (by omega)
      rw [ih (by simpa using hlen) ha.left hb.left (by omega), hcd]

/-! ### Framing by newlines -/

/-- Every row followed by a newline. -/
def framed (rows : List Text) : Text := rows.flatMap fun r => r ++ ['\n']

@[simp] theorem framed_nil : framed [] = [] := rfl

@[simp] theorem framed_cons (r : Text) (rows : List Text) :
    framed (r :: rows) = r ++ '\n' :: framed rows := by
  simp [framed]

@[simp] theorem framed_append (a b : List Text) : framed (a ++ b) = framed a ++ framed b := by
  simp [framed]

theorem framed_eq_nil {rows : List Text} : framed rows = [] ↔ rows = [] := by
  cases rows <;> simp

/-- Cut a text at its newlines: the terminated lines, and what is left over. -/
def cut : Text → List Text × Text
  | [] => ([], [])
  | c :: s =>
    if c = '\n' then ([] :: (cut s).1, (cut s).2)
    else match (cut s).1 with
      | [] => ([], c :: (cut s).2)
      | l :: ls => ((c :: l) :: ls, (cut s).2)

theorem cut_line {r : Text} (h : '\n' ∉ r) (s : Text) :
    cut (r ++ '\n' :: s) = (r :: (cut s).1, (cut s).2) := by
  induction r with
  | nil => simp [cut]
  | cons c r ih =>
    simp only [List.mem_cons, not_or] at h
    simp [cut, ih h.2, Ne.symm h.1]

/-- Rows without newline are exactly the lines of their framing. -/
theorem cut_framed {rows : List Text} (h : ∀ r ∈ rows, '\n' ∉ r) :
    cut (framed rows) = (rows, []) := by
  induction rows with
  | nil => rfl
  | cons r rows ih =>
    rw [framed_cons, cut_line (h r (by simp)), ih fun x hx => h x (by simp [hx])]

end Text

end Foundation
