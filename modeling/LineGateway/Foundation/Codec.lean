import Mathlib.Tactic

/-! Self-delimiting byte codecs. A decoder reads a value from the front of a byte
string and leaves the rest. Proved: fixed-width little-endian numbers round trip, and
no proper prefix of an encoding is decoded when this holds of its parts. -/

namespace Foundation

abbrev Bytes := List UInt8

/-- Read a value from the front of a byte string, leaving the rest. -/
abbrev Decoder (ε α : Type) := Bytes → Except ε (α × Bytes)

namespace Codec

variable {ε α β : Type}

/-! ### Little-endian numbers -/

def leBytes : ℕ → ℕ → Bytes
  | 0, _ => []
  | w + 1, n => UInt8.ofNat (n % 256) :: leBytes w (n / 256)

def leValue : Bytes → ℕ
  | [] => 0
  | b :: bs => b.toNat + 256 * leValue bs

@[simp] theorem length_leBytes (w n : ℕ) : (leBytes w n).length = w := by
  induction w generalizing n with
  | zero => rfl
  | succ w ih => simp [leBytes, ih]

theorem leValue_leBytes {w n : ℕ} (h : n < 256 ^ w) : leValue (leBytes w n) = n := by
  induction w generalizing n with
  | zero => simp only [pow_zero, Nat.lt_one_iff] at h; simp [leBytes, leValue, h]
  | succ w ih =>
    have hdiv : n / 256 < 256 ^ w := by rw [pow_succ] at h; omega
    have hb : (UInt8.ofNat (n % 256)).toNat = n % 256 := by
      rw [UInt8.toNat_ofNat']; omega
    simp only [leBytes, leValue, ih hdiv, hb]
    omega

/-- Read a `w`-byte number; `eof` when the bytes run out. -/
def readLe (eof : ε) (w : ℕ) : Decoder ε ℕ := fun bs =>
  if bs.length < w then .error eof else .ok (leValue (bs.take w), bs.drop w)

theorem readLe_leBytes (eof : ε) {w n : ℕ} (h : n < 256 ^ w) (r : Bytes) :
    readLe eof w (leBytes w n ++ r) = .ok (n, r) := by
  have hlen : ¬ (leBytes w n ++ r).length < w := by simp
  rw [readLe, if_neg hlen]
  have htake : (leBytes w n ++ r).take w = leBytes w n := by
    rw [List.take_append_of_le_length (by simp)]; simp
  have hdrop : (leBytes w n ++ r).drop w = r := by
    rw [List.drop_append_of_le_length (by simp)]; simp
  rw [htake, hdrop, leValue_leBytes h]

/-! ### Counted sequences -/

/-- Read `n` values one after the other. -/
def decodeMany (d : Decoder ε α) : ℕ → Decoder ε (List α)
  | 0, bs => .ok ([], bs)
  | n + 1, bs => match d bs with
    | .error e => .error e
    | .ok (a, bs) => match decodeMany d n bs with
      | .error e => .error e
      | .ok (as, bs) => .ok (a :: as, bs)

/-! ### Truncation -/

/-- No proper prefix of the bytes is decoded. -/
def FailsShort (d : Decoder ε α) (bs : Bytes) : Prop :=
  ∀ p, p <+: bs → p ≠ bs → ∃ e, d p = .error e

/-- Decode with one decoder, then with another that may depend on the value. -/
def andThen (d : Decoder ε α) (f : α → Decoder ε β) : Decoder ε β := fun bs =>
  match d bs with
  | .error e => .error e
  | .ok (a, bs) => f a bs

theorem failsShort_nil (d : Decoder ε α) : FailsShort d [] := by
  intro p hp hne
  exact absurd (List.prefix_nil.mp hp) hne

theorem failsShort_readLe (eof : ε) {w : ℕ} {bs : Bytes} (h : bs.length = w) :
    FailsShort (readLe eof w) bs := by
  intro p hp hne
  have hlt : p.length < w := by
    by_contra hge
    exact hne (hp.eq_of_length_le (by omega))
  exact ⟨eof, if_pos hlt⟩

section AndThen

variable {d : Decoder ε α} {f : α → Decoder ε β} {bs bs' : Bytes} {a : α}

theorem andThen_of_ok {r : Bytes} (h : d bs = .ok (a, r)) : andThen d f bs = f a r := by
  rw [andThen, h]

/-- A cut of two encodings is a cut of the first, or the first and a cut of the second. -/
theorem FailsShort.andThen (hd : ∀ r, d (bs ++ r) = .ok (a, r)) (hshort : FailsShort d bs)
    (hf : FailsShort (f a) bs') : FailsShort (andThen d f) (bs ++ bs') := by
  intro p hp hne
  rcases List.prefix_or_prefix_of_prefix hp (List.prefix_append bs bs') with hle | ⟨q, rfl⟩
  · by_cases heq : p = bs
    · subst heq
      have hq : [] ≠ bs' := fun hnil => hne (by rw [← hnil, List.append_nil])
      obtain ⟨e, he⟩ := hf [] List.nil_prefix hq
      have hwhole := hd []
      rw [List.append_nil] at hwhole
      exact ⟨e, (andThen_of_ok hwhole).trans he⟩
    · obtain ⟨e, he⟩ := hshort p hle heq
      exact ⟨e, by rw [Codec.andThen, he]⟩
  · have hq : q <+: bs' := (List.prefix_append_right_inj bs).mp hp
    obtain ⟨e, he⟩ := hf q hq fun heq => hne (by rw [heq])
    exact ⟨e, (andThen_of_ok (hd q)).trans he⟩

end AndThen

theorem decodeMany_succ (d : Decoder ε α) (n : ℕ) : decodeMany d (n + 1) =
    andThen d fun a => andThen (decodeMany d n) fun as bs => .ok (a :: as, bs) := by
  funext bs
  rw [decodeMany, andThen]
  cases d bs with
  | error e => rfl
  | ok r =>
    obtain ⟨a, bs⟩ := r
    simp only [andThen]
    cases decodeMany d n bs <;> rfl

/-- What comes after a decoder without reading more does not matter for cuts. -/
theorem FailsShort.map {d : Decoder ε α} {f : α → Decoder ε β} {bs : Bytes}
    (h : FailsShort d bs) : FailsShort (Codec.andThen d f) bs := by
  intro p hp hne
  obtain ⟨e, he⟩ := h p hp hne
  exact ⟨e, by rw [Codec.andThen, he]⟩

end Codec

end Foundation
