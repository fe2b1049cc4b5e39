import LineGateway.Foundation.Json
import LineGateway.Foundation.Pattern
import Mathlib.Data.List.TakeWhile

/-! A parser of compact JSON text: no white space, no escaped surrogates. Everything it
accepts is read as the JSON grammar says, and the text of a value is read back as the
value when its number tokens are those of the grammar. -/

namespace Foundation

namespace Json

/-! ### Strings -/

def hexValue (c : Char) : Option ℕ :=
  if c.isDigit then some (c.toNat - 48)
  else if 97 ≤ c.toNat ∧ c.toNat ≤ 102 then some (c.toNat - 87)
  else if 65 ≤ c.toNat ∧ c.toNat ≤ 70 then some (c.toNat - 55)
  else none

/-- The character of four hexadecimal digits, unless it is half of a surrogate pair. -/
def unicodeEscape (a b c d : Char) : Option Char := do
  let n := 4096 * (← hexValue a) + 256 * (← hexValue b) + 16 * (← hexValue c) + (← hexValue d)
  if n.isValidChar then some (Char.ofNat n) else none

/-- The character that a letter after a backslash stands for. -/
def simpleEscape (c : Char) : Option Char :=
  if c = '"' ∨ c = '\\' ∨ c = '/' then some c
  else if c = 'b' then some (Char.ofNat 8)
  else if c = 't' then some (Char.ofNat 9)
  else if c = 'n' then some (Char.ofNat 10)
  else if c = 'f' then some (Char.ofNat 12)
  else if c = 'r' then some (Char.ofNat 13)
  else none

/-- The character after a backslash, from its letter on. -/
def escapedChar : Text → Option (Char × Text)
  | [] => none
  | e :: s =>
    if e = 'u' then match s with
      | a :: b :: c :: d :: r => (unicodeEscape a b c d).map fun x => (x, r)
      | _ => none
    else (simpleEscape e).map fun x => (x, s)

/-- One character inside a string. -/
def stringChar (x : Char) (s : Text) : Option (Char × Text) :=
  if x = '\\' then escapedChar s
  else if x.toNat < 32 then none
  else some (x, s)

/-- Read at most `n` characters and the closing quote, leaving what follows it. -/
def parseBody : ℕ → Text → Option (Text × Text)
  | _, [] => none
  | n, x :: s =>
    if x = '"' then some ([], s)
    else match n with
      | 0 => none
      | n + 1 => do
        let (c, r) ← stringChar x s
        let (body, r) ← parseBody n r
        some (c :: body, r)

/-- Read a string from after its opening quote. -/
def parseString (s : Text) : Option (Text × Text) := parseBody s.length s

theorem hexValue_hexDigit {n : ℕ} (h : n < 16) : hexValue (hexDigit n) = some n := by
  interval_cases n <;> rfl

theorem unicodeEscape_control {c : Char} (h : c.toNat < 32) :
    unicodeEscape '0' '0' (hexDigit (c.toNat / 16)) (hexDigit (c.toNat % 16)) = some c := by
  have hn : 4096 * 0 + 256 * 0 + 16 * (c.toNat / 16) + c.toNat % 16 = c.toNat := by omega
  have hzero : hexValue '0' = some 0 := rfl
  have hvalid : c.toNat.isValidChar := c.valid
  simp only [unicodeEscape, hzero, hexValue_hexDigit (by omega : c.toNat / 16 < 16),
    hexValue_hexDigit (Nat.mod_lt _ (by decide : 16 > 0)), Option.bind_eq_bind, Option.bind_some,
    hn, if_pos hvalid, Char.ofNat_toNat]

theorem stringChar_simple {e c : Char} (he : e ≠ 'u') (h : simpleEscape e = some c) (s : Text) :
    stringChar '\\' (e :: s) = some (c, s) := by
  rw [stringChar, if_pos rfl]
  unfold escapedChar
  simp only [if_neg he, h]
  rfl

/-- An escape starts with no quote and reads as its character. -/
theorem escape_eq (c : Char) : ∃ x w, escape c = x :: w ∧ x ≠ '"' ∧
    ∀ s, stringChar x (w ++ s) = some (c, s) := by
  have hcode : ∀ n, c.toNat = n → c = Char.ofNat n := by
    rintro n rfl
    exact (Char.ofNat_toNat c).symm
  unfold escape
  split
  · next h => exact ⟨_, _, rfl, by decide, stringChar_simple (by decide) (by rw [h]; rfl)⟩
  next hquote =>
  split
  · next h => exact ⟨_, _, rfl, by decide, stringChar_simple (by decide) (by rw [h]; rfl)⟩
  next hbackslash =>
  split
  · next h => exact ⟨_, _, rfl, by decide, stringChar_simple (by decide) (hcode 8 h ▸ rfl)⟩
  split
  · next h => exact ⟨_, _, rfl, by decide, stringChar_simple (by decide) (hcode 9 h ▸ rfl)⟩
  split
  · next h => exact ⟨_, _, rfl, by decide, stringChar_simple (by decide) (hcode 10 h ▸ rfl)⟩
  split
  · next h => exact ⟨_, _, rfl, by decide, stringChar_simple (by decide) (hcode 12 h ▸ rfl)⟩
  split
  · next h => exact ⟨_, _, rfl, by decide, stringChar_simple (by decide) (hcode 13 h ▸ rfl)⟩
  split
  · next h =>
    refine ⟨_, _, rfl, by decide, fun s => ?_⟩
    rw [stringChar, if_pos rfl]
    change (unicodeEscape _ _ _ _).map _ = _
    rw [unicodeEscape_control h]
    rfl
  · next h =>
    refine ⟨c, [], rfl, hquote, fun s => ?_⟩
    rw [stringChar, if_neg hbackslash, if_neg h]
    rfl

/-- A rendered string is read back. -/
theorem parseBody_flatMap_escape {n : ℕ} (s r : Text) (hn : s.length ≤ n) :
    parseBody n (s.flatMap escape ++ '"' :: r) = some (s, r) := by
  induction s generalizing n with
  | nil => cases n <;> rfl
  | cons c s ih =>
    obtain ⟨x, w, hx, hne, hread⟩ := escape_eq c
    cases n with
    | zero => simp at hn
    | succ n =>
      rw [List.flatMap_cons, hx, List.append_assoc, List.cons_append, parseBody, if_neg hne]
      simp only [hread, Option.bind_eq_bind, Option.bind_some,
        ih (Nat.le_of_succ_le_succ hn)]

theorem length_le_flatMap_escape (s : Text) : s.length ≤ (s.flatMap escape).length := by
  induction s with
  | nil => simp
  | cons c s ih =>
    obtain ⟨x, w, hx, -⟩ := escape_eq c
    rw [List.flatMap_cons, hx, List.length_append]
    simp only [List.length_cons]
    omega

theorem parseString_flatMap_escape (s r : Text) :
    parseString (s.flatMap escape ++ '"' :: r) = some (s, r) := by
  refine parseBody_flatMap_escape s r ?_
  rw [List.length_append]
  exact (length_le_flatMap_escape s).trans (Nat.le_add_right ..)

/-! ### Numbers -/

/-- Digits without a superfluous leading zero. -/
def IsNat (s : Text) : Prop := s ≠ [] ∧ Text.Digits s ∧ (s.head? = some '0' → s.length = 1)

instance (s : Text) : Decidable (IsNat s) := inferInstanceAs (Decidable (_ ∧ _))

def parseInt : Text → Option ℤ
  | [] => none
  | c :: s =>
    if c = '-' then if IsNat s then some (-(Text.value s : ℤ)) else none
    else if IsNat (c :: s) then some (Text.value (c :: s)) else none

/-- Digits after an optional sign. -/
def IsExponent : Text → Prop
  | [] => False
  | c :: s => if c = '+' ∨ c = '-' then s ≠ [] ∧ Text.Digits s else Text.Digits (c :: s)

instance : (s : Text) → Decidable (IsExponent s)
  | [] => inferInstanceAs (Decidable False)
  | _ :: _ => inferInstanceAs (Decidable (ite ..))

/-- An exponent with its letter, or nothing. -/
def IsExponentPart : Text → Prop
  | [] => True
  | c :: s => (c = 'e' ∨ c = 'E') ∧ IsExponent s

instance : (s : Text) → Decidable (IsExponentPart s)
  | [] => inferInstanceAs (Decidable True)
  | _ :: _ => inferInstanceAs (Decidable (_ ∧ _))

/-- A fraction, an exponent or both. -/
def IsFraction : Text → Prop
  | [] => False
  | c :: s =>
    if c = '.' then s.takeWhile Char.isDigit ≠ [] ∧ IsExponentPart (s.dropWhile Char.isDigit)
    else IsExponentPart (c :: s)

instance : (s : Text) → Decidable (IsFraction s)
  | [] => inferInstanceAs (Decidable False)
  | _ :: _ => inferInstanceAs (Decidable (ite ..))

/-- The text without a minus sign in front. -/
def unsigned : Text → Text
  | [] => []
  | c :: s => if c = '-' then s else c :: s

/-- A number of the grammar that is not written as an integer. -/
def IsFloat (s : Text) : Prop :=
  IsNat ((unsigned s).takeWhile Char.isDigit) ∧ IsFraction ((unsigned s).dropWhile Char.isDigit)

instance (s : Text) : Decidable (IsFloat s) := inferInstanceAs (Decidable (_ ∧ _))

/-- The number that a whole token stands for. -/
def numberOf (s : Text) : Option Json :=
  match parseInt s with
  | some n => some (.int n)
  | none =>
    if h : (s.all Text.isNumberChar ∧ s ≠ []) ∧ IsFloat s then
      some (.number ⟨s, List.all_eq_true.mp h.1.1, h.1.2⟩)
    else none

/-- Read the longest token of number characters. -/
def parseNumber (s : Text) : Option (Json × Text) :=
  (numberOf (s.takeWhile Text.isNumberChar)).map fun j => (j, s.dropWhile Text.isNumberChar)

theorem head?_decimal {n : ℕ} (h : 0 < n) : (Text.decimal n).head? ≠ some '0' := by
  induction n using Nat.strongRecOn with
  | ind n ih =>
    unfold Text.decimal at ih ⊢
    by_cases hlt : n < 10
    · rw [Nat.toDigits_of_lt_base hlt]
      interval_cases n <;> decide
    · rw [Nat.toDigits_of_base_le (by decide) (by omega),
        List.head?_append_of_ne_nil _ Nat.toDigits_ne_nil]
      exact ih (n / 10) (by omega) (by omega)

theorem isNat_decimal (n : ℕ) : IsNat (Text.decimal n) := by
  refine ⟨Nat.toDigits_ne_nil, Text.digits_decimal n, fun hzero => ?_⟩
  rcases Nat.eq_zero_or_pos n with rfl | hn
  · rfl
  · exact absurd hzero (head?_decimal hn)

theorem parseInt_renderInt (n : ℤ) : parseInt (renderInt n) = some n := by
  cases n with
  | ofNat n =>
    rw [renderInt]
    cases hd : Text.decimal n with
    | nil => exact absurd hd Nat.toDigits_ne_nil
    | cons c s =>
      have hne : c ≠ '-' := by
        rintro rfl
        have := Text.digits_decimal n '-' (by simp [hd])
        exact absurd this (by decide)
      rw [parseInt, if_neg hne, ← hd, if_pos (isNat_decimal n), Text.value_decimal]
      rfl
  | negSucc n =>
    rw [renderInt, parseInt, if_pos rfl, if_pos (isNat_decimal (n + 1)), Text.value_decimal]
    rfl

/-- A number that is not written as an integer is not read as one. -/
theorem parseInt_of_isFloat {s : Text} (h : IsFloat s) : parseInt s = none := by
  have hnot : ¬ IsNat (unsigned s) := by
    rintro ⟨-, hdigits, -⟩
    have hdrop : (unsigned s).dropWhile Char.isDigit = [] :=
      List.dropWhile_eq_nil_iff.mpr hdigits
    have := h.2
    rw [hdrop] at this
    exact this
  cases s with
  | nil => rfl
  | cons c s =>
    rw [unsigned] at hnot
    rw [parseInt]
    by_cases hc : c = '-'
    · rw [if_pos hc] at hnot ⊢
      exact if_neg hnot
    · rw [if_neg hc] at hnot ⊢
      exact if_neg hnot

theorem numberOf_renderInt (n : ℤ) : numberOf (renderInt n) = some (.int n) := by
  rw [numberOf, parseInt_renderInt]

theorem numberOf_token {token : NumberToken} (h : IsFloat token.text) :
    numberOf token.text = some (.number token) := by
  rw [numberOf, parseInt_of_isFloat h]
  exact dif_pos ⟨⟨List.all_eq_true.mpr token.chars, token.nonempty⟩, h⟩

/-- A token is read up to the first character that is not of a number. -/
theorem parseNumber_append {s r : Text} (hs : s.all Text.isNumberChar)
    (hr : Stops Text.isNumberChar r) :
    parseNumber (s ++ r) = (numberOf s).map fun j => (j, r) := by
  have htake := takeWhile_append_of_stops hs hr
  have hdrop : (s ++ r).dropWhile Text.isNumberChar = r := by
    have := List.takeWhile_append_dropWhile (p := Text.isNumberChar) (l := s ++ r)
    rw [htake] at this
    exact List.append_cancel_left this
  rw [parseNumber, htake, hdrop]

/-! ### Values -/

/-- Read items separated by commas, at most `n`, up to the closing character. -/
def parseSeq {α : Type} (p : Text → Option (α × Text)) (close : Char) :
    ℕ → Text → Option (List α × Text)
  | 0, _ => none
  | n + 1, s => do
    let (x, r) ← p s
    match r with
    | [] => none
    | c :: r =>
      if c = close then some ([x], r)
      else if c = ',' then do
        let (xs, r) ← parseSeq p close n r
        some (x :: xs, r)
      else none

/-- Read the items after an opening bracket, if there are any. -/
def parseList {α : Type} (p : Text → Option (α × Text)) (close : Char) (n : ℕ) :
    Text → Option (List α × Text)
  | [] => none
  | c :: s => if c = close then some ([], s) else parseSeq p close n (c :: s)

/-- Read a name, a colon and a value. -/
def parseField (p : Text → Option (Json × Text)) : Text → Option ((Text × Json) × Text)
  | [] => none
  | c :: s =>
    if c = '"' then do
      let (name, r) ← parseString s
      match r with
      | [] => none
      | d :: r =>
        if d = ':' then do
          let (v, r) ← p r
          some ((name, v), r)
        else none
    else none

def parseLiteral (word : Text) (j : Json) (s : Text) : Option (Json × Text) :=
  if word <+: s then some (j, s.drop word.length) else none

/-- Read a value nested at most `n` deep, with at most `n` items in each list. -/
def parseValue : ℕ → Text → Option (Json × Text)
  | 0, _ => none
  | _ + 1, [] => none
  | n + 1, c :: s =>
    if c = '"' then (parseString s).map fun x => (.string x.1, x.2)
    else if c = '[' then (parseList (parseValue n) ']' n s).map fun x => (.array x.1, x.2)
    else if c = '\x7b' then
      (parseList (parseField (parseValue n)) '\x7d' n s).map fun x => (.object x.1, x.2)
    else if c = 'n' then parseLiteral (render .null) .null (c :: s)
    else if c = 't' then parseLiteral (renderBool true) (.bool true) (c :: s)
    else if c = 'f' then parseLiteral (renderBool false) (.bool false) (c :: s)
    else parseNumber (c :: s)

/-- Read a whole text as one value. -/
def parse (s : Text) : Option Json :=
  match parseValue s.length s with
  | some (j, []) => some j
  | _ => none

/-! ### Round trip -/

mutual

/-- The number tokens of the value are those of the grammar. -/
def Grammatical : Json → Prop
  | .number token => IsFloat token.text
  | .array items => GrammaticalItems items
  | .object fields => GrammaticalFields fields
  | _ => True

def GrammaticalItems : List Json → Prop
  | [] => True
  | x :: xs => Grammatical x ∧ GrammaticalItems xs

def GrammaticalFields : List (Text × Json) → Prop
  | [] => True
  | (_, v) :: fs => Grammatical v ∧ GrammaticalFields fs

end

/-- The parser reads the text as the value, whatever follows that is no number. -/
def ReadsAs {α : Type} (p : Text → Option (α × Text)) (t : Text) (x : α) : Prop :=
  ∀ r, Stops Text.isNumberChar r → p (t ++ r) = some (x, r)

theorem parseSeq_intercalate {α : Type} {p : Text → Option (α × Text)} {close : Char} {n : ℕ}
    {texts : List Text} {values : List α} (h : List.Forall₂ (ReadsAs p) texts values)
    (hclose : Text.isNumberChar close = false) (hcomma : close ≠ ',') (hne : texts ≠ [])
    (hn : texts.length ≤ n) (r : Text) :
    parseSeq p close n ([','].intercalate texts ++ close :: r) = some (values, r) := by
  induction h generalizing n with
  | nil => exact absurd rfl hne
  | @cons t x texts values head tail ih =>
    cases n with
    | zero => simp at hn
    | succ n =>
      cases tail with
      | nil =>
        rw [List.intercalate_singleton, parseSeq, head _ (.cons hclose r)]
        simp only [Option.bind_eq_bind, Option.bind_some, if_pos]
      | @cons t' x' texts values head' tail =>
        have hrest := ih (n := n) (by simp) (by simpa using hn)
        rw [List.intercalate_cons_cons, List.append_assoc, List.append_assoc, parseSeq,
          List.singleton_append, head _ (.cons rfl _)]
        simp only [Option.bind_eq_bind, Option.bind_some, if_neg hcomma.symm, if_pos, hrest]

/-- A bracketed list is read back, unless an item starts with the closing character. -/
theorem parseList_intercalate {α : Type} {p : Text → Option (α × Text)} {close : Char} {n : ℕ}
    {texts : List Text} {values : List α} (h : List.Forall₂ (ReadsAs p) texts values)
    (hclose : Text.isNumberChar close = false) (hcomma : close ≠ ',')
    (hstart : ∀ t ∈ texts, ∃ c w, t = c :: w ∧ c ≠ close) (hn : texts.length ≤ n) (r : Text) :
    parseList p close n ([','].intercalate texts ++ close :: r) = some (values, r) := by
  cases h with
  | nil => simp [parseList]
  | @cons t x texts values head tail =>
    have hseq := parseSeq_intercalate (.cons head tail) hclose hcomma (by simp) hn r
    obtain ⟨c, w, rfl, hc⟩ := hstart t (by simp)
    obtain ⟨s, hs⟩ : ∃ s, [','].intercalate ((c :: w) :: texts) ++ close :: r = c :: s := by
      cases texts with
      | nil => exact ⟨_, rfl⟩
      | cons t' texts => rw [List.intercalate_cons_cons]; exact ⟨_, rfl⟩
    rw [hs] at hseq ⊢
    rw [parseList, if_neg hc, hseq]

theorem length_le_intercalate {texts : List Text} {t : Text} (h : t ∈ texts) :
    t.length ≤ ([','].intercalate texts).length := by
  induction texts with
  | nil => cases h
  | cons u texts ih =>
    cases texts with
    | nil => rw [List.mem_singleton.mp h, List.intercalate_singleton]
    | cons u' texts =>
      rw [List.intercalate_cons_cons, List.length_append, List.length_append]
      rcases List.mem_cons.mp h with rfl | h
      · omega
      · have := ih h
        omega

theorem count_le_intercalate {texts : List Text} (h : ∀ t ∈ texts, t ≠ []) :
    texts.length ≤ ([','].intercalate texts).length := by
  induction texts with
  | nil => simp
  | cons t texts ih =>
    have ht := List.length_pos_iff.mpr (h t (by simp))
    cases texts with
    | nil => rw [List.intercalate_singleton, List.length_singleton]; omega
    | cons t' texts =>
      have := ih fun u hu => h u (by simp [hu])
      rw [List.intercalate_cons_cons, List.length_append, List.length_append,
        List.length_singleton, List.length_cons]
      omega

/-- The text of a value starts with no closing bracket. -/
theorem render_start (j : Json) : ∃ c w, render j = c :: w ∧ c ≠ ']' := by
  cases j with
  | null => exact ⟨_, _, rfl, by decide⟩
  | bool b => cases b <;> exact ⟨_, _, rfl, by decide⟩
  | int n =>
    cases n with
    | ofNat n =>
      cases hd : Text.decimal n with
      | nil => exact absurd hd Nat.toDigits_ne_nil
      | cons c w =>
        refine ⟨c, w, hd, ?_⟩
        rintro rfl
        exact absurd (Text.digits_decimal n ']' (by simp [hd])) (by decide)
    | negSucc n => exact ⟨_, _, rfl, by decide⟩
  | number token =>
    cases ht : token.text with
    | nil => exact absurd ht token.nonempty
    | cons c w =>
      refine ⟨c, w, ht, ?_⟩
      rintro rfl
      exact absurd (token.chars ']' (by simp [ht])) (by decide)
  | string s => exact ⟨_, _, rfl, by decide⟩
  | array items => exact ⟨_, _, rfl, by decide⟩
  | object fields => exact ⟨_, _, rfl, by decide⟩

theorem renderString_append (s r : Text) :
    renderString s ++ r = '"' :: (s.flatMap escape ++ '"' :: r) := by
  simp [renderString]

theorem parseLiteral_append (word : Text) (j : Json) (r : Text) :
    parseLiteral word j (word ++ r) = some (j, r) := by
  rw [parseLiteral, if_pos (List.prefix_append word r), List.drop_left]

/-- A token of number characters starts with none of the other first characters. -/
theorem parseValue_number {n : ℕ} {s r : Text} (hne : s ≠ []) (hs : s.all Text.isNumberChar) :
    parseValue (n + 1) (s ++ r) = parseNumber (s ++ r) := by
  cases s with
  | nil => exact absurd rfl hne
  | cons c w =>
    have hc : Text.isNumberChar c := by
      rw [List.all_cons, Bool.and_eq_true] at hs
      exact hs.1
    have hnot : ∀ d, Text.isNumberChar d = false → c ≠ d := by
      rintro d hd rfl
      rw [hc] at hd
      cases hd
    rw [List.cons_append, parseValue, if_neg (hnot _ rfl), if_neg (hnot _ rfl),
      if_neg (hnot _ rfl), if_neg (hnot _ rfl), if_neg (hnot _ rfl), if_neg (hnot _ rfl)]

theorem all_renderInt (n : ℤ) : (renderInt n).all Text.isNumberChar := by
  have hdigits : ∀ n, (Text.decimal n).all Text.isNumberChar := fun n =>
    List.all_eq_true.mpr fun c hc => by simp [Text.isNumberChar, Text.digits_decimal n c hc]
  cases n with
  | ofNat n => exact hdigits n
  | negSucc n =>
    rw [renderInt, List.all_cons, hdigits]
    rfl

theorem readsAs_int (n : ℕ) (i : ℤ) : ReadsAs (parseValue (n + 1)) (renderInt i) (.int i) := by
  intro r hr
  obtain ⟨c, w, hstart, -⟩ := render_start (.int i)
  have hne : renderInt i ≠ [] := by
    rw [render] at hstart
    simp [hstart]
  rw [parseValue_number hne (all_renderInt i), parseNumber_append (all_renderInt i) hr,
    numberOf_renderInt]
  rfl

theorem readsAs_token (n : ℕ) {token : NumberToken} (h : IsFloat token.text) :
    ReadsAs (parseValue (n + 1)) token.text (.number token) := by
  intro r hr
  have hall : token.text.all Text.isNumberChar := List.all_eq_true.mpr token.chars
  rw [parseValue_number token.nonempty hall, parseNumber_append hall hr, numberOf_token h]
  rfl

theorem readsAs_string (n : ℕ) (s : Text) :
    ReadsAs (parseValue (n + 1)) (renderString s) (.string s) := by
  intro r _
  rw [renderString_append, parseValue, if_pos rfl, parseString_flatMap_escape]
  rfl

theorem readsAs_bool (n : ℕ) (b : Bool) :
    ReadsAs (parseValue (n + 1)) (renderBool b) (.bool b) := by
  intro r _
  cases b with
  | false => exact parseLiteral_append (renderBool false) _ r
  | true => exact parseLiteral_append (renderBool true) _ r

theorem readsAs_field {p : Text → Option (Json × Text)} {t : Text} {v : Json} (h : ReadsAs p t v)
    (name : Text) : ReadsAs (parseField p) (renderString name ++ ':' :: t) (name, v) := by
  intro r hr
  rw [List.append_assoc, renderString_append, parseField, if_pos rfl, List.cons_append,
    parseString_flatMap_escape]
  simp only [Option.bind_eq_bind, Option.bind_some, if_pos, h r hr]

theorem renderItems_start (items : List Json) :
    ∀ t ∈ renderItems items, ∃ c w, t = c :: w ∧ c ≠ ']' := by
  induction items with
  | nil => simp [renderItems]
  | cons x xs ih =>
    rw [renderItems, List.forall_mem_cons]
    exact ⟨render_start x, ih⟩

theorem renderFields_start (fields : List (Text × Json)) :
    ∀ t ∈ renderFields fields, ∃ c w, t = c :: w ∧ c ≠ '\x7d' := by
  induction fields with
  | nil => simp [renderFields]
  | cons f fs ih =>
    rw [renderFields, List.forall_mem_cons]
    exact ⟨⟨'"', _, rfl, by decide⟩, ih⟩

theorem ne_nil_of_start {close : Char} {texts : List Text}
    (h : ∀ t ∈ texts, ∃ c w, t = c :: w ∧ c ≠ close) : ∀ t ∈ texts, t ≠ [] := by
  intro t ht
  obtain ⟨c, w, rfl, -⟩ := h t ht
  exact List.cons_ne_nil c w

mutual

/-- A value is read back from its text, with the length of the text as bound. -/
theorem readsAs_render : (j : Json) → Grammatical j → ∀ {n : ℕ}, (render j).length ≤ n →
    ReadsAs (parseValue n) (render j) j
  | .null, _, n + 1, _ => fun r _ => parseLiteral_append (render .null) .null r
  | .bool b, _, n + 1, _ => by rw [render]; exact readsAs_bool n b
  | .int i, _, n + 1, _ => by rw [render]; exact readsAs_int n i
  | .number token, h, n + 1, _ => by
    rw [Grammatical] at h
    rw [render]
    exact readsAs_token n h
  | .string s, _, n + 1, _ => by rw [render]; exact readsAs_string n s
  | .array items, h, n + 1, hn => by
    rw [Grammatical] at h
    rw [render, List.length_append, List.length_cons, List.length_singleton] at hn
    have hstart := renderItems_start items
    have hcount := count_le_intercalate (ne_nil_of_start hstart)
    have hitems := readsAs_renderItems items h (n := n) fun t ht =>
      (length_le_intercalate ht).trans (by omega)
    intro r _
    rw [render, List.cons_append, List.cons_append, List.append_assoc, parseValue,
      if_neg (by decide), if_pos rfl, List.singleton_append,
      parseList_intercalate hitems rfl (by decide) hstart (by omega)]
    rfl
  | .object fields, h, n + 1, hn => by
    rw [Grammatical] at h
    rw [render, List.length_append, List.length_cons, List.length_singleton] at hn
    have hstart := renderFields_start fields
    have hcount := count_le_intercalate (ne_nil_of_start hstart)
    have hfields := readsAs_renderFields fields h (n := n) fun t ht =>
      (length_le_intercalate ht).trans (by omega)
    intro r _
    rw [render, List.cons_append, List.cons_append, List.append_assoc, parseValue,
      if_neg (by decide), if_neg (by decide), if_pos rfl, List.singleton_append,
      parseList_intercalate hfields rfl (by decide) hstart (by omega)]
    rfl
  | j, _, 0, hn => by
    obtain ⟨c, w, hstart, -⟩ := render_start j
    rw [hstart] at hn
    simp at hn

theorem readsAs_renderItems : (items : List Json) → GrammaticalItems items → ∀ {n : ℕ},
    (∀ t ∈ renderItems items, t.length ≤ n) →
      List.Forall₂ (ReadsAs (parseValue n)) (renderItems items) items
  | [], _, _, _ => by rw [renderItems]; exact .nil
  | x :: xs, h, n, hn => by
    rw [GrammaticalItems] at h
    rw [renderItems, List.forall_mem_cons] at hn
    rw [renderItems]
    exact .cons (readsAs_render x h.1 hn.1) (readsAs_renderItems xs h.2 hn.2)

theorem readsAs_renderFields : (fields : List (Text × Json)) → GrammaticalFields fields → ∀ {n : ℕ},
    (∀ t ∈ renderFields fields, t.length ≤ n) →
      List.Forall₂ (ReadsAs (parseField (parseValue n))) (renderFields fields) fields
  | [], _, _, _ => by rw [renderFields]; exact .nil
  | (k, v) :: fs, h, n, hn => by
    rw [GrammaticalFields] at h
    rw [renderFields, List.forall_mem_cons, List.length_append, List.length_cons] at hn
    rw [renderFields]
    exact .cons (readsAs_field (readsAs_render v h.1 (by omega)) k)
      (readsAs_renderFields fs h.2 hn.2)

end

/-- A value with number tokens of the grammar is parsed from its text. -/
theorem parse_render {j : Json} (h : Grammatical j) : parse (render j) = some j := by
  have hread := readsAs_render j h le_rfl [] (by intro c cs hc; cases hc)
  rw [List.append_nil] at hread
  rw [parse, hread]

end Json

end Foundation
