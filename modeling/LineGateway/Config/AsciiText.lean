import LineGateway.Foundation.Text

/-! Fixed-size strings of ASCII digits and uppercase letters. The length and the
alphabet are fields, so no other value exists. Parsing accepts a text exactly when
it has that many characters of that alphabet, and gives the text back. -/

namespace LineGateway.Config

open Foundation

/-- Errors that can occur with `AsciiDigitsOrUpper`. -/
inductive AsciiDigitsOrUpperError
  | badLength (got expected : ℕ)
  | invalidChar (byte : UInt8) (position : ℕ)
  deriving DecidableEq

def isAsciiDigit (b : UInt8) : Bool := 48 ≤ b.toNat ∧ b.toNat ≤ 57

def isAsciiUppercase (b : UInt8) : Bool := 65 ≤ b.toNat ∧ b.toNat ≤ 90

@[ext] structure AsciiDigitsOrUpper (length : ℕ) where
  bytes : List UInt8
  length_eq : bytes.length = length
  valid : ∀ b ∈ bytes, isAsciiDigit b || isAsciiUppercase b
  deriving DecidableEq

namespace AsciiDigitsOrUpper

variable {n : ℕ}

/-- A run of zeros. -/
instance : Inhabited (AsciiDigitsOrUpper n) where
  default := ⟨List.replicate n 48, List.length_replicate, fun b hb => by
    rw [List.eq_of_mem_replicate hb]; rfl⟩

def asStr (a : AsciiDigitsOrUpper n) : Text := Text.ofAscii a.bytes

/-- The first byte outside the alphabet, with its position. -/
def invalidByte (value : List UInt8) : Option (UInt8 × ℕ) :=
  value.zipIdx.find? fun e => !isAsciiDigit e.1 && !isAsciiUppercase e.1

theorem valid_of_invalidByte {value : List UInt8} (h : invalidByte value = none) :
    ∀ b ∈ value, isAsciiDigit b || isAsciiUppercase b := by
  intro b hb
  obtain ⟨i, hi, rfl⟩ := List.getElem_of_mem hb
  have := List.find?_eq_none.mp h (value[i], i) (by simp [List.mem_zipIdx_iff_getElem?])
  simpa [Bool.or_eq_true, ← not_and_or, imp_iff_not_or] using this

def tryFrom (n : ℕ) (value : List UInt8) :
    Except AsciiDigitsOrUpperError (AsciiDigitsOrUpper n) :=
  if hlen : value.length = n then
    match hpos : invalidByte value with
    | some (b, pos) => .error (.invalidChar b (pos + 1))
    | none => .ok ⟨value, hlen, valid_of_invalidByte hpos⟩
  else .error (.badLength value.length n)

def fromStr (n : ℕ) (s : Text) : Except AsciiDigitsOrUpperError (AsciiDigitsOrUpper n) :=
  tryFrom n (Text.utf8 s)

theorem tryFrom_ok_iff {value : List UInt8} {a : AsciiDigitsOrUpper n} :
    tryFrom n value = .ok a ↔ a.bytes = value := by
  unfold tryFrom
  constructor
  · intro h
    split_ifs at h with hlen
    split at h
    · cases h
    · cases h; rfl
  · rintro rfl
    rw [dif_pos a.length_eq]
    split
    · next b pos hpos =>
      have hbad := List.find?_some hpos
      have hmem : b ∈ a.bytes := by
        have := List.mem_of_find?_eq_some hpos
        rw [List.mem_zipIdx_iff_getElem?] at this
        exact List.mem_of_getElem? this
      have := a.valid b hmem
      simp_all
    · rfl

theorem ascii (a : AsciiDigitsOrUpper n) : ∀ b ∈ a.bytes, b.toNat < 128 := by
  intro b hb
  have := a.valid b hb
  simp only [isAsciiDigit, isAsciiUppercase, Bool.or_eq_true, decide_eq_true_eq] at this
  omega

/-- Parsing accepts exactly the text of the value. -/
theorem fromStr_ok_iff {s : Text} {a : AsciiDigitsOrUpper n} :
    fromStr n s = .ok a ↔ a.asStr = s := by
  rw [fromStr, tryFrom_ok_iff]
  constructor
  · intro h
    rw [asStr, h]
    exact Text.ofAscii_utf8 (h ▸ a.ascii)
  · rintro rfl
    exact (Text.utf8_ofAscii a.ascii).symm

@[simp] theorem length_asStr (a : AsciiDigitsOrUpper n) : a.asStr.length = n := by
  rw [asStr, Text.length_ofAscii, a.length_eq]

theorem asStr_injective : Function.Injective (asStr (n := n)) := by
  intro a b h
  have := congrArg Text.utf8 h
  rw [asStr, asStr, Text.utf8_ofAscii a.ascii, Text.utf8_ofAscii b.ascii] at this
  exact AsciiDigitsOrUpper.ext this

theorem isAsciiDigit_ofNat {c : Char} (h : c.toNat < 128) :
    isAsciiDigit (UInt8.ofNat c.toNat) = c.isDigit := by
  have hb : (UInt8.ofNat c.toNat).toNat = c.toNat := by rw [UInt8.toNat_ofNat']; omega
  have hv : c.val.toNat = c.toNat := rfl
  simp [isAsciiDigit, Char.isDigit, hb, UInt32.le_iff_toNat_le, hv]

theorem isAsciiUppercase_ofNat {c : Char} (h : c.toNat < 128) :
    isAsciiUppercase (UInt8.ofNat c.toNat) = c.isUpper := by
  have hb : (UInt8.ofNat c.toNat).toNat = c.toNat := by rw [UInt8.toNat_ofNat']; omega
  rw [Bool.eq_iff_iff, Text.isUpper_iff, isAsciiUppercase, hb, decide_eq_true_iff]

/-- A character of the alphabet: an ASCII digit or uppercase letter. -/
def Allowed (c : Char) : Prop := c.isDigit || c.isUpper

instance (c : Char) : Decidable (Allowed c) := inferInstanceAs (Decidable (_ = true))

theorem Allowed.lt {c : Char} (h : Allowed c) : c.toNat < 128 := by
  rw [Allowed, Bool.or_eq_true] at h
  rcases h with h | h
  · have := Text.digit_toNat h
    omega
  · have := Text.isUpper_iff.mp h
    omega

theorem allowed_asStr (a : AsciiDigitsOrUpper n) : ∀ c ∈ a.asStr, Allowed c := by
  intro c hc
  obtain ⟨b, hb, rfl⟩ := List.mem_map.mp hc
  have hlt := a.ascii b hb
  have hc : (Char.ofNat b.toNat).toNat = b.toNat := Text.toNat_ofNat_of_lt hlt
  have hval := a.valid b hb
  have hlt' : (Char.ofNat b.toNat).toNat < 128 := by omega
  rw [Allowed, ← isAsciiDigit_ofNat hlt', ← isAsciiUppercase_ofNat hlt', hc]
  simpa using hval

/-- Parsing accepts every text of the right length over the alphabet. -/
theorem exists_fromStr {s : Text} (hlen : s.length = n) (h : ∀ c ∈ s, Allowed c) :
    ∃ a, fromStr n s = .ok a := by
  have hutf := Text.utf8_eq_map fun c hc => (h c hc).lt
  have hvalid : ∀ b ∈ Text.utf8 s, isAsciiDigit b || isAsciiUppercase b := by
    rw [hutf]
    intro b hb
    obtain ⟨c, hc, rfl⟩ := List.mem_map.mp hb
    rw [isAsciiDigit_ofNat (h c hc).lt, isAsciiUppercase_ofNat (h c hc).lt]
    exact h c hc
  exact ⟨⟨Text.utf8 s, by rw [hutf, List.length_map, hlen], hvalid⟩, tryFrom_ok_iff.mpr rfl⟩

end AsciiDigitsOrUpper

end LineGateway.Config
