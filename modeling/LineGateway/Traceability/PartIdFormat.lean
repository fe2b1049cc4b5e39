import LineGateway.Traceability.PartId

/-! The format of part identifiers on its three sides: what the gateway composes,
what it accepts, and what the archive tables compute from it. A created identifier
is accepted exactly when the captured digits are ASCII, and its columns are the
fields it was composed of. -/

namespace LineGateway.Traceability

open Foundation Config Calendar

variable {D : DecimalClass} {value : Text} {r : PartReference} {letters after : Text}

/-- Every character the part reference contributes is an ASCII digit. -/
def PartReference.AsciiDigits (r : PartReference) : Prop :=
  Text.Digits r.family ∧ Text.Digits r.incremental ∧ Text.Digits r.size

instance (r : PartReference) : Decidable r.AsciiDigits := inferInstanceAs (Decidable (_ ∧ _))

theorem PartReference.digits_fmt_iff : Text.Digits r.fmt ↔ r.AsciiDigits := by
  constructor
  · intro h
    exact ⟨fun c hc => h.left.left c (Text.subset_padded hc),
      fun c hc => h.left.right c (Text.subset_padded hc), fun c hc => h.right c (Text.subset_padded hc)⟩
  · rintro ⟨hf, hi, hs⟩
    exact (hf.padded.append hi.padded).append hs.padded

theorem Decomposition.asciiDigits (h : Decomposition D value r letters after)
    (hascii : ∀ c ∈ value, c.toNat < 128) : r.AsciiDigits := by
  obtain ⟨⟨p, -, rfl⟩, hf, hi, -, hs, -⟩ := h
  have digits : ∀ {w : Text}, w.all D.isNd → (∀ c ∈ w, c.toNat < 128) → Text.Digits w := by
    intro w hw hlt c hc
    rw [← D.ascii c (hlt c hc)]
    exact List.all_eq_true.mp hw c hc
  exact ⟨digits hf.1 fun c hc => hascii c (by simp [hc]),
    digits hi.1 fun c hc => hascii c (by simp [hc]), digits hs.1 fun c hc => hascii c (by simp [hc])⟩

theorem digits_strftimeYearAndDay (d : Date) : Text.Digits (strftimeYearAndDay d) :=
  (Text.digits_fixed _ _).append (Text.digits_fixed _ _)

theorem length_year (d : Date) : (Text.fixed 2 (d.year % 100)).length = 2 :=
  Text.length_fixed (by decide) (by omega)

theorem length_day (d : Date) : (Text.fixed 3 d.dayOfYear).length = 3 :=
  Text.length_fixed (by decide) (by have := d.dayOfYear_le_366; omega)

/-! ### What the gateway accepts -/

theorem slice_eq {ε α : Type} {xs : List α} {start stop : ℕ} (h : start ≤ stop ∧ stop ≤ xs.length) :
    (slice xs start stop : Outcome ε (List α)) =
      .returned (substring xs (start + 1) (stop - start)) := by
  rw [slice, if_pos h, substring, Nat.add_sub_cancel, List.drop_take]

theorem digits_ofAscii_iff {bs : List UInt8} (h : ∀ b ∈ bs, b.toNat < 128) :
    Text.Digits (Text.ofAscii bs) ↔ bs.all isAsciiDigit := by
  simp only [Text.Digits, Text.ofAscii, List.forall_mem_map, List.all_eq_true]
  refine forall₂_congr fun b hb => ?_
  have hlt := h b hb
  have hc : (Char.ofNat b.toNat).toNat = b.toNat := Text.toNat_ofNat_of_lt hlt
  rw [← AsciiDigitsOrUpper.isAsciiDigit_ofNat (by omega), hc]
  simp

theorem substring_asStr {n : ℕ} (a : AsciiDigitsOrUpper n) (i k : ℕ) :
    substring a.asStr i k = Text.ofAscii (substring a.bytes i k) := by
  simp [substring, AsciiDigitsOrUpper.asStr, Text.ofAscii]

/-- Validation checks the reference, the day and the serial, and never panics. -/
theorem validatePartIdentifier_returned_iff (a : AsciiDigitsOrUpper 23) :
    validatePartIdentifier a = .returned () ↔ Text.Digits (substring a.asStr 1 9) ∧
      (strptimeYearAndDay (substring a.asStr 14 5)).isSome ∧
        Text.Digits (substring a.asStr 19 5) := by
  have hmem : ∀ i k, ∀ b ∈ substring a.bytes i k, b.toNat < 128 := fun i k b hb =>
    a.ascii b (List.mem_of_mem_drop (List.mem_of_mem_take hb))
  have hlen : a.bytes.length = 23 := a.length_eq
  unfold validatePartIdentifier
  rw [slice_eq (by omega), slice_eq (by simp), slice_eq (by omega)]
  simp only [Outcome.returned_bind, hlen, substring_asStr a 1 9, substring_asStr a 19 5,
    digits_ofAscii_iff (hmem _ _)]
  cases h₁ : (substring a.bytes 1 9).all isAsciiDigit <;>
    cases h₂ : strptimeYearAndDay (substring a.asStr 14 5) <;>
      cases h₃ : (substring a.bytes 19 5).all isAsciiDigit <;> simp [*]

/-! ### What is created is accepted -/

/-- A later request with this text as part identifier is not refused as malformed. -/
def Accepted (s : Text) : Prop :=
  ∃ a, AsciiDigitsOrUpper.fromStr 23 s = .ok a ∧ validatePartIdentifier a = .returned ()

theorem allowed_of_digits {s : Text} (h : Text.Digits s) : ∀ c ∈ s, AsciiDigitsOrUpper.Allowed c :=
  fun c hc => by simp [AsciiDigitsOrUpper.Allowed, h c hc]

/-- An identifier is accepted exactly when its reference is made of ASCII digits. -/
theorem accepted_iff (hr : r.fmt.length = 9) (batch lineId : AsciiDigitsOrUpper 2) (today : Date)
    {serial : ℕ} (hserial : serial ≤ 99999) :
    Accepted (composed r batch lineId today serial) ↔ r.AsciiDigits := by
  obtain ⟨hf, -, -, hd, -, -, hn⟩ := substring_fields hr batch.length_asStr lineId.length_asStr
    (length_year today) (length_day today) (length_fixed_five hserial)
  unfold composed
  constructor
  · rintro ⟨a, ha, hval⟩
    rw [AsciiDigitsOrUpper.fromStr_ok_iff] at ha
    rw [validatePartIdentifier_returned_iff, ha] at hval
    rw [← PartReference.digits_fmt_iff, ← hf]
    exact hval.1
  · intro hdigits
    have hfmt := PartReference.digits_fmt_iff.mpr hdigits
    have hallowed : ∀ c ∈ r.fmt ++ batch.asStr ++ lineId.asStr ++ strftimeYearAndDay today ++
        Text.fixed 5 serial, AsciiDigitsOrUpper.Allowed c := by
      simp only [List.mem_append]
      rintro c ((((hc | hc) | hc) | hc) | hc)
      · exact allowed_of_digits hfmt c hc
      · exact batch.allowed_asStr c hc
      · exact lineId.allowed_asStr c hc
      · exact allowed_of_digits (digits_strftimeYearAndDay today) c hc
      · exact allowed_of_digits (Text.digits_fixed _ _) c hc
    obtain ⟨a, ha⟩ := AsciiDigitsOrUpper.exists_fromStr (n := 23)
      (by simp [hr, length_strftimeYearAndDay, length_fixed_five hserial]) hallowed
    refine ⟨a, ha, ?_⟩
    rw [AsciiDigitsOrUpper.fromStr_ok_iff] at ha
    rw [validatePartIdentifier_returned_iff, ha]
    refine ⟨hf.symm ▸ hfmt, ?_, hn.symm ▸ Text.digits_fixed _ _⟩
    rw [strftimeYearAndDay, hd]
    exact strptimeYearAndDay_strftime today

/-- What is created is accepted, except for references with digits outside ASCII. -/
theorem created_accepted_iff (D : DecimalClass) (raw : Text) (batch lineId : AsciiDigitsOrUpper 2)
    (today : Date) (serial : ℕ) :
    (∀ s, createPartIdentifier D raw batch lineId today serial = .ok s → Accepted s) ↔
      99999 < serial ∨ ∀ r letters after, Decomposition D raw r letters after → r.AsciiDigits := by
  constructor
  · intro h
    refine (Nat.lt_or_ge 99999 serial).imp_right fun hserial r letters after hdec => ?_
    have hr := PartReference.tryFrom_ok_iff.mpr ⟨letters, after, hdec⟩
    have hok := h _ (createPartIdentifier_ok_iff.mpr ⟨hserial, r, hr, rfl⟩)
    exact (accepted_iff hdec.length_fmt batch lineId today hserial).mp hok
  · rintro h s hs
    obtain ⟨hserial, r, hr, rfl⟩ := createPartIdentifier_ok_iff.mp hs
    obtain ⟨letters, after, hdec⟩ := PartReference.tryFrom_ok_iff.mp hr
    have hdigits := h.resolve_left (by omega) r letters after hdec
    exact (accepted_iff hdec.length_fmt batch lineId today hserial).mpr hdigits

/-- The decimal digits of ASCII and the Arabic-Indic ones. -/
def arabicIndicDecimal : DecimalClass where
  isNd c := c.isDigit || (0x660 ≤ c.toNat && c.toNat ≤ 0x669)
  ascii c h := by
    have : ¬ 0x660 ≤ c.toNat := by omega
    simp [this]

def sampleBatch : AsciiDigitsOrUpper 2 := ⟨[65, 66], rfl, AsciiDigitsOrUpper.valid_of_invalidByte rfl⟩

def sampleLine : AsciiDigitsOrUpper 2 := ⟨[52, 50], rfl, AsciiDigitsOrUpper.valid_of_invalidByte rfl⟩

/-- With an Arabic-Indic digit in the part reference, the identifier is created and
not accepted. -/
theorem arabicIndic_created_not_accepted :
    createPartIdentifier arabicIndicDecimal "1٢-498GR13".toList sampleBatch sampleLine
        ⟨2026, 12, 9, by decide, by decide, by decide⟩ 1 =
      .ok "1٢0498013AB422634300001".toList ∧ ¬ Accepted "1٢0498013AB422634300001".toList := by
  refine ⟨rfl, ?_⟩
  rintro ⟨a, ha, -⟩
  rw [AsciiDigitsOrUpper.fromStr_ok_iff] at ha
  have hallowed := a.allowed_asStr '٢' (by rw [ha]; decide)
  exact absurd hallowed (by decide)

/-! ### The archive decomposes what was composed -/

/-- Arguments of a creation that the archive tables are made for. -/
structure Archivable (D : DecimalClass) (raw : Text) (r : PartReference) (today : Date)
    (serial : ℕ) : Prop where
  accepted : PartReference.tryFrom D raw = .ok r
  ascii : ∀ c ∈ raw, c.toNat < 128
  year_ge : 2000 ≤ today.year
  year_le : today.year ≤ 2099
  serial_le : serial ≤ 99999

section Archive

variable {raw : Text} {today today' : Date} {serial serial' : ℕ}
  {batch batch' lineId lineId' : AsciiDigitsOrUpper 2} {r' : PartReference}

theorem Archivable.length_fmt (h : Archivable D raw r today serial) : r.fmt.length = 9 := by
  obtain ⟨letters, after, hdec⟩ := PartReference.tryFrom_ok_iff.mp h.accepted
  exact hdec.length_fmt

theorem Archivable.digits_fmt (h : Archivable D raw r today serial) : Text.Digits r.fmt := by
  obtain ⟨letters, after, hdec⟩ := PartReference.tryFrom_ok_iff.mp h.accepted
  exact PartReference.digits_fmt_iff.mpr (hdec.asciiDigits h.ascii)

theorem utf8_of_digits {s : Text} (h : Text.Digits s) :
    Text.utf8 s = s.map fun c => UInt8.ofNat c.toNat :=
  Text.utf8_eq_map fun c hc => by have := Text.digit_toNat (h c hc); omega

theorem length_utf8_of_digits {s : Text} (h : Text.Digits s) : (Text.utf8 s).length = s.length := by
  rw [utf8_of_digits h, List.length_map]

theorem ofAscii_utf8_of_digits {s : Text} (h : Text.Digits s) :
    Text.ofAscii (Text.utf8 s) = s := by
  refine Text.ofAscii_utf8 ?_
  rw [utf8_of_digits h]
  simp only [List.forall_mem_map, UInt8.toNat_ofNat']
  intro c hc
  have := Text.digit_toNat (h c hc)
  omega

/-- A digit field is read back as its number. -/
theorem toUInt_utf8 {w : ℕ} {s : Text} (h : Text.Digits s) (hne : 0 < s.length)
    (hw : Text.value s < 2 ^ w) : toUInt w (Text.utf8 s) = some (Text.value s) := by
  have hback := ofAscii_utf8_of_digits h
  have hbytes : Text.utf8 s ≠ [] := by
    rw [← List.length_pos_iff, length_utf8_of_digits h]
    exact hne
  rw [toUInt, if_pos ⟨hbytes, hback.symm ▸ h⟩, hback, Nat.mod_eq_of_lt hw]

theorem utf8_append (a b : Text) : Text.utf8 (a ++ b) = Text.utf8 a ++ Text.utf8 b :=
  List.flatMap_append

theorem utf8_composed (r : PartReference) (batch lineId : AsciiDigitsOrUpper 2) (today : Date)
    (serial : ℕ) : Text.utf8 (composed r batch lineId today serial) =
      Text.utf8 r.fmt ++ batch.bytes ++ lineId.bytes ++
        (Text.utf8 (Text.fixed 2 (today.year % 100)) ++ Text.utf8 (Text.fixed 3 today.dayOfYear)) ++
          Text.utf8 (Text.fixed 5 serial) := by
  have hasStr : ∀ a : AsciiDigitsOrUpper 2, Text.utf8 a.asStr = a.bytes := fun a =>
    Text.utf8_ofAscii a.ascii
  simp only [composed, strftimeYearAndDay, utf8_append, hasStr]

/-- What the archive tables compute from an identifier. -/
structure Columns (r : PartReference) (batch lineId : AsciiDigitsOrUpper 2) (today : Date)
    (serial : ℕ) (partId : List UInt8) : Prop where
  partRef : partRefColumn partId = Text.utf8 r.fmt
  batch : substring partId 10 2 = batch.bytes
  lineId : lineIdColumn partId = lineId.bytes
  producedOn : producedOnColumn partId = some today
  serial : toUInt 32 (substring partId 19 5) = some serial

theorem Archivable.columns (h : Archivable D raw r today serial) (batch lineId : AsciiDigitsOrUpper 2) :
    Columns r batch lineId today serial (Text.utf8 (composed r batch lineId today serial)) := by
  have hn := h.serial_le
  have hge := h.year_ge
  have hle := h.year_le
  have h366 := today.dayOfYear_le_366
  have width : ∀ w n, (Text.utf8 (Text.fixed w n)).length = (Text.fixed w n).length := fun w n =>
    length_utf8_of_digits (Text.digits_fixed w n)
  obtain ⟨h₁, h₂, h₃, -, h₄, h₅, h₆⟩ := substring_fields (f := Text.utf8 r.fmt)
    (by rw [length_utf8_of_digits h.digits_fmt, h.length_fmt]) batch.length_eq lineId.length_eq
    ((width _ _).trans (length_year today)) ((width _ _).trans (length_day today))
    ((width _ _).trans (length_fixed_five hn))
  have hyear : toUInt 8 (Text.utf8 (Text.fixed 2 (today.year % 100))) = some (today.year % 100) := by
    have := toUInt_utf8 (w := 8) (Text.digits_fixed 2 (today.year % 100))
      (by rw [length_year]; decide) (by rw [Text.value_fixed]; omega)
    rwa [Text.value_fixed] at this
  have hday : toUInt 16 (Text.utf8 (Text.fixed 3 today.dayOfYear)) = some today.dayOfYear := by
    have := toUInt_utf8 (w := 16) (Text.digits_fixed 3 today.dayOfYear)
      (by rw [length_day]; decide) (by rw [Text.value_fixed]; omega)
    rwa [Text.value_fixed] at this
  have hserial : toUInt 32 (Text.utf8 (Text.fixed 5 serial)) = some serial := by
    have := toUInt_utf8 (w := 32) (Text.digits_fixed 5 serial)
      (by rw [length_fixed_five hn]; decide) (by rw [Text.value_fixed]; omega)
    rwa [Text.value_fixed] at this
  rw [utf8_composed]
  refine ⟨h₁, h₂, h₃, ?_, by rw [h₆, hserial]⟩
  have hcentury : 2000 + today.year % 100 = today.year := by omega
  simp only [producedOnColumn, h₄, h₅, hyear, hday, Option.bind_eq_bind, Option.bind_some, hcentury]
  exact ofDayOfYear_dayOfYear today

/-- The columns determine the fields. -/
theorem Columns.unique {partId : List UInt8} (h : Columns r batch lineId today serial partId)
    (h' : Columns r' batch' lineId' today' serial' partId) :
    Text.utf8 r.fmt = Text.utf8 r'.fmt ∧ batch = batch' ∧ lineId = lineId' ∧ today = today' ∧
      serial = serial' :=
  ⟨h.partRef.symm.trans h'.partRef, AsciiDigitsOrUpper.ext (h.batch.symm.trans h'.batch),
    AsciiDigitsOrUpper.ext (h.lineId.symm.trans h'.lineId),
    Option.some.inj (h.producedOn.symm.trans h'.producedOn),
    Option.some.inj (h.serial.symm.trans h'.serial)⟩

theorem Archivable.create (h : Archivable D raw r today serial) (batch lineId : AsciiDigitsOrUpper 2) :
    createPartIdentifier D raw batch lineId today serial =
      .ok (composed r batch lineId today serial) :=
  createPartIdentifier_ok_iff.mpr ⟨h.serial_le, r, h.accepted, rfl⟩

theorem utf8_injective_of_digits {s t : Text} (hs : Text.Digits s) (ht : Text.Digits t)
    (h : Text.utf8 s = Text.utf8 t) : s = t := by
  rw [← ofAscii_utf8_of_digits hs, h, ofAscii_utf8_of_digits ht]

/-- The archive decomposes an identifier as it was composed, so that two identifiers
are equal exactly when all their fields are. -/
theorem archive_decomposes {raw' : Text} (h : Archivable D raw r today serial)
    (h' : Archivable D raw' r' today' serial') (batch batch' lineId lineId' : AsciiDigitsOrUpper 2) :
    ∃ s s', createPartIdentifier D raw batch lineId today serial = .ok s ∧
      createPartIdentifier D raw' batch' lineId' today' serial' = .ok s' ∧
      Columns r batch lineId today serial (Text.utf8 s) ∧
      (s = s' ↔ r.fmt = r'.fmt ∧ batch = batch' ∧ lineId = lineId' ∧ today = today' ∧
        serial = serial') := by
  refine ⟨_, _, h.create batch lineId, h'.create batch' lineId', h.columns batch lineId, ?_⟩
  constructor
  · intro heq
    have hcol := h'.columns batch' lineId'
    rw [← heq] at hcol
    obtain ⟨hfmt, rest⟩ := (h.columns batch lineId).unique hcol
    exact ⟨utf8_injective_of_digits h.digits_fmt h'.digits_fmt hfmt, rest⟩
  · rintro ⟨hfmt, rfl, rfl, rfl, rfl⟩
    rw [composed, composed, hfmt]

end Archive

/-- The digits of ASCII only. -/
def asciiDecimal : DecimalClass := ⟨Char.isDigit, fun _ _ => rfl⟩

theorem archive_decomposes_padded :
    ∃ s s', createPartIdentifier asciiDecimal "P8-485XY42A".toList sampleBatch sampleLine
        ⟨2024, 12, 31, by decide, by decide, by decide⟩ 7 = .ok s ∧
      createPartIdentifier asciiDecimal "8-485AB42".toList sampleBatch sampleLine
        ⟨2024, 12, 31, by decide, by decide, by decide⟩ 7 = .ok s' ∧
      Columns ⟨"8".toList, "485".toList, "42".toList⟩ sampleBatch sampleLine
        ⟨2024, 12, 31, by decide, by decide, by decide⟩ 7 (Text.utf8 s) ∧
      s = s' := by
  have h : Archivable asciiDecimal "P8-485XY42A".toList ⟨"8".toList, "485".toList, "42".toList⟩
      ⟨2024, 12, 31, by decide, by decide, by decide⟩ 7 :=
    ⟨rfl, Text.forall_mem_of_all rfl, by decide, by decide, by decide⟩
  have h' : Archivable asciiDecimal "8-485AB42".toList ⟨"8".toList, "485".toList, "42".toList⟩
      ⟨2024, 12, 31, by decide, by decide, by decide⟩ 7 :=
    ⟨rfl, Text.forall_mem_of_all rfl, by decide, by decide, by decide⟩
  obtain ⟨s, s', hs, hs', hcol, heq⟩ := archive_decomposes h h' sampleBatch sampleBatch
    sampleLine sampleLine
  exact ⟨s, s', hs, hs', hcol, heq.mpr ⟨rfl, rfl, rfl, rfl, rfl⟩⟩

end LineGateway.Traceability
