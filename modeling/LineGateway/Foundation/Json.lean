import LineGateway.Foundation.Text

/-! JSON values and their compact text. Strings are escaped so that no control
character is left in them; a value is therefore rendered on one line. Numbers that
are not integers are given by their token. -/

namespace Foundation

def Text.isNumberChar (c : Char) : Bool := c.isDigit || c ∈ ['+', '-', '.', 'e', 'E']

/-- The token of a number in JSON text. -/
structure NumberToken where
  text : Text
  chars : ∀ c ∈ text, Text.isNumberChar c
  nonempty : text ≠ []

inductive Json
  | null
  | bool (b : Bool)
  | int (n : ℤ)
  | number (token : NumberToken)
  | string (s : Text)
  | array (items : List Json)
  | object (fields : List (Text × Json))

namespace Json

def hexDigit (n : ℕ) : Char :=
  if n < 10 then Char.ofNat (48 + n) else Char.ofNat (87 + n)

/-- The escape of a character inside a string. -/
def escape (c : Char) : Text :=
  if c = '"' then ['\\', '"']
  else if c = '\\' then ['\\', '\\']
  else if c.toNat = 8 then ['\\', 'b']
  else if c.toNat = 9 then ['\\', 't']
  else if c.toNat = 10 then ['\\', 'n']
  else if c.toNat = 12 then ['\\', 'f']
  else if c.toNat = 13 then ['\\', 'r']
  else if c.toNat < 32 then
    ['\\', 'u', '0', '0', hexDigit (c.toNat / 16), hexDigit (c.toNat % 16)]
  else [c]

def renderString (s : Text) : Text := '"' :: s.flatMap escape ++ ['"']

def renderInt : ℤ → Text
  | .ofNat n => Text.decimal n
  | .negSucc n => '-' :: Text.decimal (n + 1)

def renderBool : Bool → Text
  | true => ['t', 'r', 'u', 'e']
  | false => ['f', 'a', 'l', 's', 'e']

mutual

/-- The compact text of a value. -/
def render : Json → Text
  | .null => ['n', 'u', 'l', 'l']
  | .bool b => renderBool b
  | .int n => renderInt n
  | .number token => token.text
  | .string s => renderString s
  | .array items => '[' :: [','].intercalate (renderItems items) ++ [']']
  | .object fields => '\x7b' :: [','].intercalate (renderFields fields) ++ ['\x7d']

def renderItems : List Json → List Text
  | [] => []
  | x :: xs => render x :: renderItems xs

def renderFields : List (Text × Json) → List Text
  | [] => []
  | (k, v) :: fs => (renderString k ++ ':' :: render v) :: renderFields fs

end

/-! ### One line -/

theorem newline_not_mem_of_digits {s : Text} (h : Text.Digits s) : '\n' ∉ s :=
  fun hmem => absurd (h _ hmem) (by decide)

theorem newline_ne_hexDigit {n : ℕ} (h : n < 16) : '\n' ≠ hexDigit n := by
  interval_cases n <;> decide

theorem newline_not_mem_escape (c : Char) : '\n' ∉ escape c := by
  unfold escape
  split_ifs with h₁ h₂ h₃ h₄ h₅ h₆ h₇ h₈
  all_goals try decide
  · have h₁₆ : c.toNat / 16 < 16 := by omega
    have := newline_ne_hexDigit h₁₆
    have := newline_ne_hexDigit (Nat.mod_lt c.toNat (by decide : 16 > 0))
    simp_all
  · rw [List.mem_singleton]
    rintro rfl
    exact h₅ rfl

theorem newline_not_mem_renderString (s : Text) : '\n' ∉ renderString s := by
  simpa [renderString] using fun c (_ : c ∈ s) => newline_not_mem_escape c

theorem newline_not_mem_renderInt (n : ℤ) : '\n' ∉ renderInt n := by
  cases n with
  | ofNat n => exact newline_not_mem_of_digits (Text.digits_decimal n)
  | negSucc n =>
    have := newline_not_mem_of_digits (Text.digits_decimal (n + 1))
    simp [renderInt, this]

theorem newline_not_mem_intercalate {xs : List Text} (h : ∀ x ∈ xs, '\n' ∉ x) :
    '\n' ∉ [','].intercalate xs := by
  induction xs with
  | nil => simp
  | cons x xs ih =>
    cases xs with
    | nil => simpa using h x (by simp)
    | cons y ys =>
      have hrest := ih fun z hz => h z (by simp [hz])
      have hx := h x (by simp)
      simp_all [List.intercalate_cons_cons]

mutual

/-- The text of a value has no newline. -/
theorem newline_not_mem_render : (j : Json) → '\n' ∉ render j
  | .null => by decide
  | .bool b => by cases b <;> decide
  | .int n => by rw [render]; exact newline_not_mem_renderInt n
  | .number token => by
    rw [render]
    exact fun h => absurd (token.chars _ h) (by decide)
  | .string s => by rw [render]; exact newline_not_mem_renderString s
  | .array items => by
    have := newline_not_mem_intercalate (newline_not_mem_renderItems items)
    rw [render]
    simp [this]
  | .object fields => by
    have := newline_not_mem_intercalate (newline_not_mem_renderFields fields)
    rw [render]
    simp [this]

theorem newline_not_mem_renderItems : (items : List Json) → ∀ x ∈ renderItems items, '\n' ∉ x
  | [] => by simp [renderItems]
  | j :: items => by
    rw [renderItems]
    simp only [List.mem_cons, forall_eq_or_imp]
    exact ⟨newline_not_mem_render j, newline_not_mem_renderItems items⟩

theorem newline_not_mem_renderFields :
    (fields : List (Text × Json)) → ∀ x ∈ renderFields fields, '\n' ∉ x
  | [] => by simp [renderFields]
  | (k, v) :: fields => by
    rw [renderFields]
    simp only [List.mem_cons, forall_eq_or_imp]
    refine ⟨?_, newline_not_mem_renderFields fields⟩
    have := newline_not_mem_renderString k
    have := newline_not_mem_render v
    simp_all

end

end Json

end Foundation
