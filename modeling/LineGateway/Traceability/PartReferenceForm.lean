import LineGateway.Traceability.PartIdFormat

/-! The form of ASCII part references. The texts that are accepted are those of one form,
read in one way, so that the captures do not depend on how the pattern is matched. The
displayed form has nine digits and stands for three numbers. -/

namespace LineGateway.Traceability

open Foundation

/-- The parts of a text that is a part reference, in their order. -/
structure ReferenceParts where
  mark : Text
  family : Text
  incremental : Text
  letters : Text
  size : Text
  after : Text

namespace ReferenceParts

def text (x : ReferenceParts) : Text :=
  x.mark ++ (x.family ++ '-' :: (x.incremental ++ (x.letters ++ (x.size ++ x.after))))

def reference (x : ReferenceParts) : PartReference := ⟨x.family, x.incremental, x.size⟩

/-- An optional `P`, 1 or 2 digits, a dash, 3 or 4 digits, 2 to 4 letters, and 2 or 3 digits
that no other digit follows. -/
structure WellFormed (x : ReferenceParts) : Prop where
  mark : x.mark = [] ∨ x.mark = ['P']
  family : Text.Digits x.family ∧ 1 ≤ x.family.length ∧ x.family.length ≤ 2
  incremental : Text.Digits x.incremental ∧ 3 ≤ x.incremental.length ∧ x.incremental.length ≤ 4
  letters : (∀ c ∈ x.letters, isAsciiLetter c) ∧ 2 ≤ x.letters.length ∧ x.letters.length ≤ 4
  size : Text.Digits x.size ∧ 2 ≤ x.size.length ∧ x.size.length ≤ 3
  after : ∀ c rest, x.after = c :: rest → c.isDigit = false

end ReferenceParts

variable {D : DecimalClass} {value value' : Text} {r r' : PartReference} {x y : ReferenceParts}

/-! ### Decompositions of ASCII texts -/

theorem all_isNd_iff {w : Text} (hascii : ∀ c ∈ w, c.toNat < 128) :
    w.all D.isNd ↔ Text.Digits w := by
  rw [List.all_eq_true]
  exact forall₂_congr fun c hc => by rw [D.ascii c (hascii c hc)]

theorem stops_isNd_iff {w : Text} (hascii : ∀ c ∈ w, c.toNat < 128) :
    Stops D.isNd w ↔ ∀ c rest, w = c :: rest → c.isDigit = false := by
  refine forall₂_congr fun c rest => ?_
  constructor
  all_goals
    rintro h rfl
    have := h rfl
    rwa [D.ascii c (hascii c (by simp))] at *

theorem ReferenceParts.forall_parts {P : Char → Prop} (h : ∀ c ∈ x.text, P c) :
    (∀ c ∈ x.family, P c) ∧ (∀ c ∈ x.incremental, P c) ∧ (∀ c ∈ x.size, P c) ∧
      ∀ c ∈ x.after, P c := by
  refine ⟨fun c hc => h c ?_, fun c hc => h c ?_, fun c hc => h c ?_, fun c hc => h c ?_⟩ <;>
    simp [text, hc]

/-- The decompositions of an ASCII text, whatever the digits outside ASCII, are its readings
in the form. -/
theorem decomposition_iff (hascii : ∀ c ∈ value, c.toNat < 128) {letters after : Text} :
    Decomposition D value r letters after ↔ ∃ x : ReferenceParts, x.WellFormed ∧ x.text = value ∧
      x.reference = r ∧ x.letters = letters ∧ x.after = after := by
  constructor
  · rintro ⟨⟨p, hp, rfl⟩, hf, hi, hl, hs, ha⟩
    obtain ⟨hf', hi', hs', ha'⟩ := ReferenceParts.forall_parts
      (x := ⟨p, r.family, r.incremental, letters, r.size, after⟩) hascii
    exact ⟨⟨p, r.family, r.incremental, letters, r.size, after⟩,
      ⟨hp, ⟨(all_isNd_iff hf').mp hf.1, hf.2⟩, ⟨(all_isNd_iff hi').mp hi.1, hi.2⟩,
        ⟨List.all_eq_true.mp hl.1, hl.2⟩, ⟨(all_isNd_iff hs').mp hs.1, hs.2⟩,
        (stops_isNd_iff ha').mp ha⟩, rfl, rfl, rfl, rfl⟩
  · rintro ⟨x, h, rfl, rfl, rfl, rfl⟩
    obtain ⟨hf', hi', hs', ha'⟩ := ReferenceParts.forall_parts hascii
    exact ⟨⟨x.mark, h.mark, rfl⟩, ⟨(all_isNd_iff hf').mpr h.family.1, h.family.2⟩,
      ⟨(all_isNd_iff hi').mpr h.incremental.1, h.incremental.2⟩,
      ⟨List.all_eq_true.mpr h.letters.1, h.letters.2⟩,
      ⟨(all_isNd_iff hs').mpr h.size.1, h.size.2⟩, (stops_isNd_iff ha').mpr h.after⟩

theorem ReferenceParts.WellFormed.unique (hascii : ∀ c ∈ value, c.toNat < 128) (hx : x.WellFormed)
    (hy : y.WellFormed) (htx : x.text = value) (hty : y.text = value) : x = y := by
  have hdx := (decomposition_iff (D := asciiDecimal) hascii).mpr ⟨x, hx, htx, rfl, rfl, rfl⟩
  have hdy := (decomposition_iff (D := asciiDecimal) hascii).mpr ⟨y, hy, hty, rfl, rfl, rfl⟩
  obtain ⟨href, hletters, hafter⟩ := hdx.unique hdy
  rw [reference, reference, PartReference.mk.injEq] at href
  obtain ⟨hf, hi, hs⟩ := href
  have htext : x.text = y.text := htx.trans hty.symm
  rw [text, text, hf, hi, hs, hletters, hafter] at htext
  have hmark : x.mark = y.mark := List.append_cancel_right htext
  cases x
  cases y
  simp only at hmark hf hi hletters hs hafter
  rw [hmark, hf, hi, hletters, hs, hafter]

/-! ### The normal form -/

/-- The numbers that a part reference stands for. -/
def PartReference.numbers (r : PartReference) : ℕ × ℕ × ℕ :=
  (Text.value r.family, Text.value r.incremental, Text.value r.size)

/-- Nine digits, in fields of widths 2, 4 and 3 that have the captured values. -/
structure NormalForm (r : PartReference) : Prop where
  length : r.fmt.length = 9
  digits : Text.Digits r.fmt
  family : Text.value (substring r.fmt 1 2) = Text.value r.family
  incremental : Text.value (substring r.fmt 3 4) = Text.value r.incremental
  size : Text.value (substring r.fmt 7 3) = Text.value r.size

theorem Decomposition.normalForm {letters after : Text} (h : Decomposition D value r letters after)
    (hascii : ∀ c ∈ value, c.toNat < 128) : NormalForm r := by
  have hf := Text.length_padded_of_le h.family.2.2
  have hi := Text.length_padded_of_le h.incremental.2.2
  have hs := Text.length_padded_of_le h.size.2.2
  have hfamily : substring r.fmt 1 2 = Text.padded 2 r.family := by
    simp [substring, PartReference.fmt, hf]
  have hincremental : substring r.fmt 3 4 = Text.padded 4 r.incremental := by
    simp [substring, PartReference.fmt, List.append_assoc, hf, hi]
  have hsize : substring r.fmt 7 3 = Text.padded 3 r.size := by
    simp [substring, PartReference.fmt, List.append_assoc, List.drop_append, hf, hi, hs,
      List.take_of_length_le]
  exact ⟨h.length_fmt, PartReference.digits_fmt_iff.mpr (h.asciiDigits hascii),
    by rw [hfamily, Text.value_padded], by rw [hincremental, Text.value_padded],
    by rw [hsize, Text.value_padded]⟩

theorem substring_append_fields {s : Text} (h : s.length = 9) :
    substring s 1 2 ++ (substring s 3 4 ++ substring s 7 3) = s := by
  have hlast : (s.drop 6).take 3 = s.drop 6 := List.take_of_length_le (by simp [h])
  calc substring s 1 2 ++ (substring s 3 4 ++ substring s 7 3)
      = s.take 2 ++ ((s.drop 2).take 4 ++ (s.drop 2).drop 4) := by
        simp only [substring, Nat.reduceSub, List.drop_zero, List.drop_drop, Nat.reduceAdd, hlast]
    _ = s := by rw [List.take_append_drop, List.take_append_drop]

/-- Normal forms are equal exactly when they stand for the same numbers. -/
theorem NormalForm.fmt_eq_iff (h : NormalForm r) (h' : NormalForm r') :
    r.fmt = r'.fmt ↔ r.numbers = r'.numbers := by
  simp only [PartReference.numbers, Prod.mk.injEq]
  constructor
  · intro heq
    refine ⟨?_, ?_, ?_⟩
    · rw [← h.family, heq, h'.family]
    · rw [← h.incremental, heq, h'.incremental]
    · rw [← h.size, heq, h'.size]
  · rintro ⟨hf, hi, hs⟩
    have field : ∀ i k, Text.value (substring r.fmt i k) = Text.value (substring r'.fmt i k) →
        substring r.fmt i k = substring r'.fmt i k := by
      intro i k
      apply Text.eq_of_value_eq
      · simp only [substring, List.length_take, List.length_drop, h.length, h'.length]
      · exact fun c hc => h.digits c (List.mem_of_mem_drop (List.mem_of_mem_take hc))
      · exact fun c hc => h'.digits c (List.mem_of_mem_drop (List.mem_of_mem_take hc))
    rw [← substring_append_fields h.length, ← substring_append_fields h'.length,
      field 1 2 (by rw [h.family, h'.family, hf]),
      field 3 4 (by rw [h.incremental, h'.incremental, hi]),
      field 7 3 (by rw [h.size, h'.size, hs])]

/-! ### The main result -/

/-- Every match of the pattern in the text, wherever and however it is found, has these groups. -/
def OnlyGroups (D : DecimalClass) (value : Text) (groups : List Text) : Prop :=
  ∀ before w after gs, value = before ++ (w ++ after) →
    Pattern.Accepts (.seq .start (partReferencePattern D)) before.length w after gs → gs = groups

theorem Decomposition.onlyGroups {letters after : Text} (h : Decomposition D value r letters after) :
    OnlyGroups D value [r.family, r.incremental, r.size] := by
  rintro before w tail gs hv ⟨w₁, w₂, g₁, g₂, rfl, rfl, ⟨hpos, rfl, rfl⟩, hacc⟩
  rw [List.length_eq_zero_iff] at hpos
  subst hpos
  simp only [List.length_nil, Nat.add_zero, List.nil_append] at hacc hv ⊢
  obtain ⟨r₁, letters₁, tail₁, rfl, hdec⟩ := Decomposition.of_accepts hacc
  rw [← hv] at hdec
  obtain ⟨rfl, -, -⟩ := h.unique hdec
  rfl

/-- An ASCII text is a part reference exactly when it has the form, which reads it in one way
and fixes the captures. What is displayed is the normal form of the captured numbers. -/
theorem partReference_unambiguous (D : DecimalClass) {value : Text}
    (hascii : ∀ c ∈ value, c.toNat < 128) :
    ((∃ r, PartReference.tryFrom D value = .ok r) ↔
      ∃ x : ReferenceParts, x.WellFormed ∧ x.text = value) ∧
    (∀ x y : ReferenceParts, x.WellFormed → y.WellFormed → x.text = value → y.text = value →
      x = y) ∧
    ∀ r, PartReference.tryFrom D value = .ok r →
      (∃ x : ReferenceParts, x.WellFormed ∧ x.text = value ∧ x.reference = r) ∧
      OnlyGroups D value [r.family, r.incremental, r.size] ∧ NormalForm r ∧
      ∀ value' r', (∀ c ∈ value', c.toNat < 128) → PartReference.tryFrom D value' = .ok r' →
        (r.fmt = r'.fmt ↔ r.numbers = r'.numbers) := by
  refine ⟨?_, fun x y hx hy htx hty => hx.unique hascii hy htx hty, ?_⟩
  · constructor
    · rintro ⟨r, hr⟩
      obtain ⟨letters, after, hdec⟩ := PartReference.tryFrom_ok_iff.mp hr
      obtain ⟨x, hx, htext, -⟩ := (decomposition_iff hascii).mp hdec
      exact ⟨x, hx, htext⟩
    · rintro ⟨x, hx, htext⟩
      have hdec := (decomposition_iff (D := D) hascii).mpr ⟨x, hx, htext, rfl, rfl, rfl⟩
      exact ⟨x.reference, PartReference.tryFrom_ok_iff.mpr ⟨_, _, hdec⟩⟩
  · intro r hr
    obtain ⟨letters, after, hdec⟩ := PartReference.tryFrom_ok_iff.mp hr
    obtain ⟨x, hx, htext, href, -⟩ := (decomposition_iff hascii).mp hdec
    refine ⟨⟨x, hx, htext, href⟩, hdec.onlyGroups, hdec.normalForm hascii, ?_⟩
    intro value' r' hascii' hr'
    obtain ⟨letters', after', hdec'⟩ := PartReference.tryFrom_ok_iff.mp hr'
    exact (hdec.normalForm hascii).fmt_eq_iff (hdec'.normalForm hascii')

theorem partReference_unambiguous_sample :
    NormalForm ⟨"8".toList, "485".toList, "42".toList⟩ ∧
      (⟨"8".toList, "485".toList, "42".toList⟩ : PartReference).fmt =
        (⟨"08".toList, "0485".toList, "042".toList⟩ : PartReference).fmt := by
  have hascii : ∀ c ∈ "P8-485XY42A".toList, c.toNat < 128 := Text.forall_mem_of_all rfl
  obtain ⟨-, -, h⟩ := partReference_unambiguous asciiDecimal hascii
  obtain ⟨-, -, hnormal, heq⟩ := h ⟨"8".toList, "485".toList, "42".toList⟩ rfl
  refine ⟨hnormal, (heq "08-0485AB042".toList _ (Text.forall_mem_of_all rfl) rfl).mpr rfl⟩

end LineGateway.Traceability
