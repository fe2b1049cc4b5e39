import LineGateway.Config.AsciiText
import LineGateway.Foundation.Calendar
import LineGateway.Foundation.Pattern
import LineGateway.Foundation.Program
import Mathlib.Data.List.TakeWhile

/-! Part identifiers: the part reference read by a regular expression, the
identifier composed of fixed-width fields, its validation, and the column
expressions of the archive tables. A part reference has one decomposition; a
composed identifier has 23 characters and each field at its own offset. -/

namespace LineGateway.Traceability

open Foundation Config Calendar

/-- The class `\d` of the regular expressions, of which the ASCII part is fixed. -/
structure DecimalClass where
  isNd : Char → Bool
  ascii : ∀ c : Char, c.toNat < 128 → isNd c = c.isDigit

/-- Errors that can occur during part identifier handling. -/
inductive PartIdentifierError
  | partReference (value : Text)
  | serialTooBig (serial : ℕ)
  | invalidYearAndDay
  | invalidSerial (value : Text)
  deriving DecidableEq

/-! ### Part references -/

/-- The part reference portion in the part identifier. -/
structure PartReference where
  family : Text
  incremental : Text
  size : Text
  deriving DecidableEq

/-- The class `[A-Za-z]`. -/
def isAsciiLetter (c : Char) : Bool := c.isUpper || c.isLower

/-- `P?(\d{1,2})-(\d{3,4})[A-Za-z]{2,4}(\d{2,3})(?:\D|$)` -/
def partReferencePattern (D : DecimalClass) : Pattern :=
  .seq (.many (· == 'P') 0 1) <|
  .seq (.group (.many D.isNd 1 1)) <|
  .seq (.one (· == '-')) <|
  .seq (.group (.many D.isNd 3 1)) <|
  .seq (.many isAsciiLetter 2 2) <|
  .seq (.group (.many D.isNd 2 1)) <|
  .alt (.one fun c => !D.isNd c) .finish

def PartReference.tryFrom (D : DecimalClass) (value : Text) :
    Except PartIdentifierError PartReference :=
  match (Pattern.seq .start (partReferencePattern D)).captures value with
  | some [family, incremental, size] => .ok ⟨family, incremental, size⟩
  | _ => .error (.partReference value)

/-- The normalised part reference, 9 digits. -/
def PartReference.fmt (r : PartReference) : Text :=
  Text.padded 2 r.family ++ Text.padded 4 r.incremental ++ Text.padded 3 r.size

/-- How a raw text reads as a part reference. -/
structure Decomposition (D : DecimalClass) (value : Text) (r : PartReference)
    (letters after : Text) : Prop where
  value_eq : ∃ p, (p = [] ∨ p = ['P']) ∧
    value = p ++ (r.family ++ '-' :: (r.incremental ++ (letters ++ (r.size ++ after))))
  family : r.family.all D.isNd ∧ 1 ≤ r.family.length ∧ r.family.length ≤ 2
  incremental : r.incremental.all D.isNd ∧ 3 ≤ r.incremental.length ∧ r.incremental.length ≤ 4
  letters : letters.all isAsciiLetter ∧ 2 ≤ letters.length ∧ letters.length ≤ 4
  size : r.size.all D.isNd ∧ 2 ≤ r.size.length ∧ r.size.length ≤ 3
  after : Stops D.isNd after

variable {D : DecimalClass} {value : Text} {r r' : PartReference} {letters letters' after after' : Text}

theorem optional_p {w : Text} : (w.length ≤ 1 ∧ w.all (· == 'P')) ↔ w = [] ∨ w = ['P'] := by
  constructor
  · rintro ⟨hlen, hall⟩
    match w with
    | [] => exact .inl rfl
    | [c] => exact .inr (by simpa using hall)
    | _ :: _ :: _ => simp at hlen
  · rintro (rfl | rfl) <;> simp

/-- The captured groups are those of a decomposition. -/
theorem Decomposition.of_accepts {w : Text} {gs : List Text}
    (h : Pattern.Accepts (partReferencePattern D) 0 w after gs) :
    ∃ r letters tail, gs = [r.family, r.incremental, r.size] ∧
      Decomposition D (w ++ after) r letters tail := by
  simp only [partReferencePattern, Pattern.Accepts] at h
  obtain ⟨p, _, _, _, rfl, rfl, ⟨⟨-, hp, hpall⟩, rfl⟩, h⟩ := h
  obtain ⟨f, _, _, _, rfl, rfl, ⟨_, rfl, ⟨hf₁, hf₂, hf⟩, rfl⟩, h⟩ := h
  obtain ⟨_, _, _, _, rfl, rfl, ⟨⟨c, rfl, hc⟩, rfl⟩, h⟩ := h
  obtain ⟨i, _, _, _, rfl, rfl, ⟨_, rfl, ⟨hi₁, hi₂, hi⟩, rfl⟩, h⟩ := h
  obtain ⟨l, _, _, _, rfl, rfl, ⟨⟨hl₁, hl₂, hl⟩, rfl⟩, h⟩ := h
  obtain ⟨s, e, _, _, rfl, rfl, ⟨_, rfl, ⟨hs₁, hs₂, hs⟩, rfl⟩, he⟩ := h
  have hdash : c = '-' := by simpa using hc
  subst hdash
  refine ⟨⟨f, i, s⟩, l, e ++ after, ?_, ⟨p, optional_p.mp ⟨by omega, hpall⟩, by simp⟩,
    ⟨hf, hf₁, hf₂⟩, ⟨hi, hi₁, hi₂⟩, ⟨hl, hl₁, hl₂⟩, ⟨hs, hs₁, hs₂⟩, ?_⟩
  · rcases he with ⟨-, rfl⟩ | ⟨-, -, rfl⟩ <;> rfl
  · intro x xs hx
    rcases he with ⟨⟨y, rfl, hy⟩, -⟩ | ⟨rfl, rfl, -⟩
    · simp only [List.singleton_append, List.cons.injEq] at hx
      simpa [hx.1] using hy
    · simp at hx

/-- The text after the size starts with a character that is no digit, or is empty. -/
theorem accepts_after (h : Stops D.isNd after) : ∃ e tail, after = e ++ tail ∧
    ∀ pos, Pattern.Accepts (.alt (.one fun c => !D.isNd c) .finish) pos e tail [] := by
  cases after with
  | nil => exact ⟨[], [], rfl, fun _ => .inr ⟨rfl, rfl, rfl⟩⟩
  | cons c cs => exact ⟨[c], cs, rfl, fun _ => .inl ⟨⟨c, rfl, by simp [h c cs rfl]⟩, rfl⟩⟩

/-- Every decomposition is a match of the pattern. -/
theorem Decomposition.accepts (h : Decomposition D value r letters after) :
    ∃ w tail, value = w ++ tail ∧ Pattern.Accepts (partReferencePattern D) 0 w tail
      [r.family, r.incremental, r.size] := by
  obtain ⟨⟨p, hp, rfl⟩, ⟨hf, hf₁, hf₂⟩, ⟨hi, hi₁, hi₂⟩, ⟨hl, hl₁, hl₂⟩, ⟨hs, hs₁, hs₂⟩, ha⟩ := h
  obtain ⟨e, tail, rfl, he⟩ := accepts_after ha
  obtain ⟨hp₁, hp₂⟩ := optional_p.mpr hp
  refine ⟨p ++ (r.family ++ ('-' :: (r.incremental ++ (letters ++ (r.size ++ e))))), tail, by simp,
    p, _, [], _, rfl, rfl, ⟨⟨by omega, by omega, hp₂⟩, rfl⟩,
    r.family, _, [r.family], [r.incremental, r.size], rfl, rfl,
    ⟨[], rfl, ⟨hf₁, by omega, hf⟩, rfl⟩, ['-'], _, [], _, rfl, rfl, ⟨⟨'-', rfl, rfl⟩, rfl⟩,
    r.incremental, _, [r.incremental], [r.size], rfl, rfl, ⟨[], rfl, ⟨hi₁, by omega, hi⟩, rfl⟩,
    letters, _, [], _, rfl, rfl, ⟨⟨hl₁, by omega, hl⟩, rfl⟩, r.size, e, [r.size], [], rfl, rfl,
    ⟨[], rfl, ⟨hs₁, by omega, hs⟩, rfl⟩, he _⟩

theorem DecimalClass.letter (D : DecimalClass) {c : Char} (h : isAsciiLetter c) :
    D.isNd c = false := by
  have hv : c.val.toNat = c.toNat := rfl
  rw [isAsciiLetter, Bool.or_eq_true, Text.isUpper_iff, Text.isLower_iff] at h
  rw [D.ascii c (by omega)]
  simp only [Char.isDigit, Bool.and_eq_false_iff, decide_eq_false_iff_not, UInt32.le_iff_toNat_le,
    not_le, hv]
  right
  change 57 < c.toNat
  omega

theorem DecimalClass.stops (D : DecimalClass) {c : Char} (hc : c.toNat < 128) (h : c.isDigit = false)
    (s : Text) : Stops D.isNd (c :: s) := Stops.cons (by rw [D.ascii c hc, h]) s

/-- A run of letters ends the digits before it. -/
theorem stops_letters (h : letters.all isAsciiLetter) (hne : 2 ≤ letters.length) (s : Text) :
    Stops D.isNd (letters ++ s) := by
  cases letters with
  | nil => simp at hne
  | cons c cs => exact Stops.cons (D.letter (by simp_all)) _

/-- A run of digits ends the letters before it. -/
theorem stops_digits {w : Text} (h : w.all D.isNd) (hne : 2 ≤ w.length) (s : Text) :
    Stops isAsciiLetter (w ++ s) := by
  cases w with
  | nil => simp at hne
  | cons c cs =>
    refine Stops.cons ?_ _
    by_contra hl
    have hd : D.isNd c := by simp_all
    rw [D.letter (by simpa using hl)] at hd
    cases hd

/-- A text reads as a part reference in at most one way. -/
theorem Decomposition.unique (h : Decomposition D value r letters after)
    (h' : Decomposition D value r' letters' after') :
    r = r' ∧ letters = letters' ∧ after = after' := by
  obtain ⟨⟨p, hp, hv⟩, ⟨hf, hf₁, -⟩, ⟨hi, -, -⟩, ⟨hl, hl₁, -⟩, ⟨hs, hs₁, -⟩, ha⟩ := h
  obtain ⟨⟨p', hp', hv'⟩, ⟨hf', hf₁', -⟩, ⟨hi', -, -⟩, ⟨hl', hl₁', -⟩, ⟨hs', hs₁', -⟩, ha'⟩ := h'
  have hP : ∀ {w : Text} (s : Text), w.all D.isNd → 1 ≤ w.length → Stops (· == 'P') (w ++ s) := by
    intro w s hw hne
    cases w with
    | nil => simp at hne
    | cons c cs =>
      refine Stops.cons ?_ _
      by_contra hc
      have hcP : c = 'P' := by simpa using hc
      have := D.ascii 'P' (by decide)
      simp_all
  have hall : ∀ {q : Text}, q = [] ∨ q = ['P'] → q.all (· == 'P') := by rintro q (rfl | rfl) <;> rfl
  obtain ⟨-, hv₁⟩ := Stops.unique (hv.symm.trans hv') (hall hp) (hP _ hf hf₁) (hall hp')
    (hP _ hf' hf₁')
  obtain ⟨hfam, hv₂⟩ := Stops.unique hv₁ hf (D.stops (by decide) rfl _) hf' (D.stops (by decide) rfl _)
  obtain ⟨hinc, hv₃⟩ := Stops.unique (List.cons.inj hv₂).2 hi (stops_letters hl hl₁ _) hi'
    (stops_letters hl' hl₁' _)
  obtain ⟨hlet, hv₄⟩ := Stops.unique hv₃ hl (stops_digits hs hs₁ _) hl' (stops_digits hs' hs₁' _)
  obtain ⟨hsize, hafter⟩ := Stops.unique hv₄ hs ha hs' ha'
  cases r; cases r'
  simp_all

/-- Parsing accepts exactly the texts that have a decomposition. -/
theorem PartReference.tryFrom_ok_iff :
    PartReference.tryFrom D value = .ok r ↔ ∃ letters after, Decomposition D value r letters after := by
  constructor
  · intro h
    unfold tryFrom at h
    split at h
    · next f i s hcap =>
      cases h
      obtain ⟨w, after, rfl, hacc⟩ := Pattern.accepts_of_captures hcap
      obtain ⟨r, letters, tail, hgs, hdec⟩ := Decomposition.of_accepts hacc
      cases r
      simp only [List.cons.injEq, and_true] at hgs
      obtain ⟨rfl, rfl, rfl⟩ := hgs
      exact ⟨letters, tail, hdec⟩
    · cases h
  · rintro ⟨letters, after, hdec⟩
    obtain ⟨w, tail, rfl, hacc⟩ := hdec.accepts
    obtain ⟨gs, hcap⟩ := Pattern.captures_isSome_of_accepts hacc
    obtain ⟨w', after', hw', hacc'⟩ := Pattern.accepts_of_captures hcap
    obtain ⟨r', letters', tail', rfl, hdec'⟩ := Decomposition.of_accepts hacc'
    rw [← hw'] at hdec'
    obtain ⟨rfl, -, -⟩ := hdec.unique hdec'
    simp only [tryFrom, hcap]

theorem Decomposition.length_fmt (h : Decomposition D value r letters after) :
    r.fmt.length = 9 := by
  have hf := h.family.2
  have hi := h.incremental.2
  have hs := h.size.2
  simp only [PartReference.fmt, List.length_append]
  rw [Text.length_padded_of_le hf.2, Text.length_padded_of_le hi.2, Text.length_padded_of_le hs.2]

/-! ### Dates in identifiers -/

/-- `strftime("%y%j")`: the year modulo 100 and the day of year. -/
def strftimeYearAndDay (d : Date) : Text :=
  Text.fixed 2 (d.year % 100) ++ Text.fixed 3 d.dayOfYear

theorem length_strftimeYearAndDay (d : Date) : (strftimeYearAndDay d).length = 5 := by
  have hj : d.dayOfYear < 10 ^ 3 := by have := d.dayOfYear_le_366; omega
  rw [strftimeYearAndDay, List.length_append, Text.length_fixed (by decide) (by omega),
    Text.length_fixed (by decide) hj]

/-- Within a century the two fields determine the date. -/
theorem strftimeYearAndDay_inj {d e : Date} (hc : d.year / 100 = e.year / 100)
    (h : strftimeYearAndDay d = strftimeYearAndDay e) : d = e := by
  obtain ⟨hy, hj⟩ := List.append_inj h (by
    rw [Text.length_fixed (by decide) (by omega), Text.length_fixed (by decide) (by omega)])
  have hy' := Text.fixed_injective 2 hy
  exact Date.ext_dayOfYear (by omega) (Text.fixed_injective 3 hj)

/-- Read a number of at most `w` digits from the front of a text. -/
def takeNumber (w : ℕ) (s : Text) : Option (ℕ × Text) :=
  let digits := (s.take w).takeWhile Char.isDigit
  if digits = [] then none else some (Text.value digits, s.drop digits.length)

/-- The year of a two-digit `%y`. -/
def pivotYear (yy : ℕ) : ℕ := if yy ≤ 68 then 2000 + yy else 1900 + yy

/-- `Date::strptime("%y%j", s)`: the whole text is read, and the year must have the day. -/
def strptimeYearAndDay (s : Text) : Option Date := do
  let (yy, s) ← takeNumber 2 s
  let (day, s) ← takeNumber 3 s
  if s ≠ [] then none else ofDayOfYear (pivotYear yy) day

theorem takeNumber_append {w : ℕ} {a : Text} (ha : Text.Digits a) (hlen : a.length = w)
    (hw : 0 < w) (s : Text) : takeNumber w (a ++ s) = some (Text.value a, s) := by
  have htake : (a ++ s).take w = a := by rw [← hlen, List.take_left]
  have hdigits : a.takeWhile Char.isDigit = a := List.takeWhile_eq_self_iff.mpr ha
  have hne : a ≠ [] := by rintro rfl; simp at hlen; omega
  simp [takeNumber, htake, hdigits, hne]

/-- Reading two digits and three digits is reading a day of a pivoted year. -/
theorem strptimeYearAndDay_append {a b : Text} (ha : Text.Digits a) (hla : a.length = 2)
    (hb : Text.Digits b) (hlb : b.length = 3) :
    strptimeYearAndDay (a ++ b) = ofDayOfYear (pivotYear (Text.value a)) (Text.value b) := by
  have h₂ := takeNumber_append hb hlb (by decide) []
  rw [List.append_nil] at h₂
  simp [strptimeYearAndDay, takeNumber_append ha hla (by decide), h₂]

/-- The pivot keeps the length of every year from 1970 that has a 366th day. -/
theorem daysInYear_le_pivotYear (y : ℕ) : daysInYear y ≤ daysInYear (pivotYear (y % 100)) := by
  unfold daysInYear pivotYear
  by_cases h : isLeap y
  · have hy : isLeap (if y % 100 ≤ 68 then 2000 + y % 100 else 1900 + y % 100) := by
      simp only [isLeap, decide_eq_true_eq] at h ⊢
      split_ifs <;> omega
    rw [if_pos h, if_pos hy]
  · rw [if_neg h]
    split_ifs <;> omega

/-- Every formatted date is read back as a day of the pivoted year. -/
theorem strptimeYearAndDay_strftime (d : Date) :
    (strptimeYearAndDay (strftimeYearAndDay d)).isSome := by
  have hj : d.dayOfYear < 10 ^ 3 := by have := d.dayOfYear_le_366; omega
  rw [strftimeYearAndDay, strptimeYearAndDay_append (Text.digits_fixed _ _)
    (Text.length_fixed (by decide) (by omega)) (Text.digits_fixed _ _)
    (Text.length_fixed (by decide) hj), Text.value_fixed, Text.value_fixed, ofDayOfYear_isSome_iff]
  exact ⟨d.dayOfYear_pos, d.dayOfYear_le.trans (daysInYear_le_pivotYear d.year)⟩

/-! ### Identifiers -/

/-- Create the part identifier from the provided arguments. -/
def createPartIdentifier (D : DecimalClass) (partRef : Text) (batch lineId : AsciiDigitsOrUpper 2)
    (today : Date) (serial : ℕ) : Except PartIdentifierError Text :=
  if serial > 99999 then .error (.serialTooBig serial)
  else match PartReference.tryFrom D partRef with
    | .error e => .error e
    | .ok partRef => .ok (partRef.fmt ++ batch.asStr ++ lineId.asStr ++
        strftimeYearAndDay today ++ Text.fixed 5 serial)

/-- A part of an array between two positions. -/
def slice {ε α : Type} (xs : List α) (start stop : ℕ) : Outcome ε (List α) :=
  if start ≤ stop ∧ stop ≤ xs.length then .returned ((xs.take stop).drop start)
  else .panicked "range out of bounds of the slice"

/-- Validate the provided part identifier, mainly to prevent errors when inserting in
the database. -/
def validatePartIdentifier (partId : AsciiDigitsOrUpper 23) : Outcome PartIdentifierError Unit := do
  let partRef ← slice partId.bytes 0 9
  if !partRef.all isAsciiDigit then
    .failed (.partReference (Text.ofAscii partRef))
  else
    let yearAndDay ← slice partId.asStr 13 18
    if (strptimeYearAndDay yearAndDay).isNone then
      .failed .invalidYearAndDay
    else
      let serial ← slice partId.bytes 18 partId.bytes.length
      if !serial.all isAsciiDigit then
        .failed (.invalidSerial (Text.ofAscii serial))
      else .returned ()

theorem slice_of_le {ε α : Type} {xs : List α} {start stop : ℕ} (h : start ≤ stop)
    (hstop : stop ≤ xs.length) :
    (slice xs start stop : Outcome ε _) = .returned ((xs.take stop).drop start) := if_pos ⟨h, hstop⟩

/-- The slices of a validation are inside the identifier. -/
theorem validatePartIdentifier_ne_panicked (partId : AsciiDigitsOrUpper 23) (m : String) :
    validatePartIdentifier partId ≠ .panicked m := by
  have hbytes : partId.bytes.length = 23 := partId.length_eq
  have hstr : partId.asStr.length = 23 := partId.length_asStr
  unfold validatePartIdentifier
  rw [slice_of_le (by decide) (by omega), slice_of_le (by decide) (by omega),
    slice_of_le (by omega) le_rfl]
  simp only [Outcome.returned_bind]
  split_ifs <;> simp

theorem length_fixed_five {serial : ℕ} (h : serial ≤ 99999) : (Text.fixed 5 serial).length = 5 :=
  Text.length_fixed (by decide) (by omega)

/-- The identifier composed of the arguments. -/
def composed (r : PartReference) (batch lineId : AsciiDigitsOrUpper 2) (today : Date)
    (serial : ℕ) : Text :=
  r.fmt ++ batch.asStr ++ lineId.asStr ++ strftimeYearAndDay today ++ Text.fixed 5 serial

theorem createPartIdentifier_ok_iff {raw s : Text} {batch lineId : AsciiDigitsOrUpper 2} {today : Date}
    {serial : ℕ} : createPartIdentifier D raw batch lineId today serial = .ok s ↔
      serial ≤ 99999 ∧ ∃ r, PartReference.tryFrom D raw = .ok r ∧
        s = composed r batch lineId today serial := by
  unfold createPartIdentifier composed
  split_ifs with h
  · simp only [false_iff, not_and]; omega
  · cases htry : PartReference.tryFrom D raw with
    | error e => simp
    | ok r => simp [not_lt.mp h, eq_comm]

/-! ### Column expressions of the archive tables -/

/-- `substring` of the archive database, counting from 1. -/
def substring {α : Type} (s : List α) (offset length : ℕ) : List α :=
  (s.drop (offset - 1)).take length

/-- `toUInt8`, `toUInt16` and `toUInt32` throw on an empty or non-numeric text. -/
def toUInt (w : ℕ) (s : List UInt8) : Option ℕ :=
  if s ≠ [] ∧ Text.Digits (Text.ofAscii s) then some (Text.value (Text.ofAscii s) % 2 ^ w) else none

def partRefColumn (partId : List UInt8) : List UInt8 := substring partId 1 9

def lineIdColumn (partId : List UInt8) : List UInt8 := substring partId 12 2

def producedOnColumn (partId : List UInt8) : Option Date := do
  let yy ← toUInt 8 (substring partId 14 2)
  let day ← toUInt 16 (substring partId 16 3)
  ofDayOfYear (2000 + yy) day

/-- The fields of a text laid out with the widths of an identifier. -/
theorem substring_fields {α : Type} {f b l yy jjj n : List α} (hf : f.length = 9) (hb : b.length = 2)
    (hl : l.length = 2) (hy : yy.length = 2) (hj : jjj.length = 3) (hn : n.length = 5) :
    substring (f ++ b ++ l ++ (yy ++ jjj) ++ n) 1 9 = f ∧
      substring (f ++ b ++ l ++ (yy ++ jjj) ++ n) 10 2 = b ∧
      substring (f ++ b ++ l ++ (yy ++ jjj) ++ n) 12 2 = l ∧
      substring (f ++ b ++ l ++ (yy ++ jjj) ++ n) 14 5 = yy ++ jjj ∧
      substring (f ++ b ++ l ++ (yy ++ jjj) ++ n) 14 2 = yy ∧
      substring (f ++ b ++ l ++ (yy ++ jjj) ++ n) 16 3 = jjj ∧
      substring (f ++ b ++ l ++ (yy ++ jjj) ++ n) 19 5 = n := by
  simp [substring, List.drop_append, List.take_append, hf, hb, hl, hy, hj, hn,
    List.drop_eq_nil_of_le, List.take_of_length_le]

end LineGateway.Traceability
