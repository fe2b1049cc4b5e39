import LineGateway.Foundation.Text

/-! Regular expressions with capture groups under leftmost-first semantics.
`ways` lists every way to match at a cursor in the order in which a backtracking
engine tries them, longest first for a counted repetition; the match is the first
one. `Accepts` is the meaning of a pattern as a relation between the text before,
matched and after; the two agree, so where `Accepts` allows one decomposition the
captures do not depend on the order of the search. -/

namespace Foundation

inductive Pattern
  | start
  | finish
  | one (p : Char → Bool)
  | many (p : Char → Bool) (min extra : ℕ)
  | seq (a b : Pattern)
  | alt (a b : Pattern)
  | group (a : Pattern)

/-- A place in the text, with the groups captured so far in the order in which
they closed. -/
structure Cursor where
  pos : ℕ
  rest : Text
  groups : List Text

namespace Cursor

def advance (c : Cursor) (n : ℕ) : Cursor := { c with pos := c.pos + n, rest := c.rest.drop n }

def capture (c c' : Cursor) : Cursor :=
  { c' with groups := c'.groups ++ [c.rest.take (c'.pos - c.pos)] }

end Cursor

namespace Pattern

def ways : Pattern → Cursor → List Cursor
  | start, c => if c.pos = 0 then [c] else []
  | finish, c => if c.rest = [] then [c] else []
  | one p, c => match c.rest with
    | [] => []
    | x :: _ => if p x then [c.advance 1] else []
  | many p min extra, c =>
    ((List.range' min (extra + 1)).reverse.filter
      fun n => n ≤ c.rest.length ∧ (c.rest.take n).all p).map c.advance
  | seq a b, c => (ways a c).flatMap (ways b)
  | alt a b, c => ways a c ++ ways b c
  | group a, c => (ways a c).map c.capture

/-- The first match at the first position that has one. -/
def search (p : Pattern) (pos : ℕ) (s : Text) : Option Cursor :=
  match ways p ⟨pos, s, []⟩ with
  | c :: _ => some c
  | [] => match s with
    | [] => none
    | _ :: s => search p (pos + 1) s

/-- The captured groups of the leftmost-first match in a text. -/
def captures (p : Pattern) (s : Text) : Option (List Text) := (search p 0 s).map Cursor.groups

/-- `w` at position `pos`, followed by `after`, is a match with groups `gs`. -/
def Accepts : Pattern → ℕ → Text → Text → List Text → Prop
  | start, pos, w, _, gs => pos = 0 ∧ w = [] ∧ gs = []
  | finish, _, w, after, gs => after = [] ∧ w = [] ∧ gs = []
  | one p, _, w, _, gs => (∃ x, w = [x] ∧ p x) ∧ gs = []
  | many p min extra, _, w, _, gs =>
    (min ≤ w.length ∧ w.length ≤ min + extra ∧ w.all p) ∧ gs = []
  | seq a b, pos, w, after, gs => ∃ w₁ w₂ g₁ g₂, w = w₁ ++ w₂ ∧ gs = g₁ ++ g₂ ∧
      Accepts a pos w₁ (w₂ ++ after) g₁ ∧ Accepts b (pos + w₁.length) w₂ after g₂
  | alt a b, pos, w, after, gs => Accepts a pos w after gs ∨ Accepts b pos w after gs
  | group a, pos, w, after, gs => ∃ g, gs = g ++ [w] ∧ Accepts a pos w after g

/-- The cursor after matching `w` with groups `gs`. -/
def Reaches (c : Cursor) (w : Text) (gs : List Text) (c' : Cursor) : Prop :=
  c.rest = w ++ c'.rest ∧ c'.pos = c.pos + w.length ∧ c'.groups = c.groups ++ gs

section Reaches

variable {c m c' : Cursor} {w w₁ w₂ : Text} {gs g₁ g₂ : List Text}

theorem reaches_nil_iff : Reaches c [] [] c' ↔ c' = c := by
  obtain ⟨pos, rest, groups⟩ := c
  obtain ⟨pos', rest', groups'⟩ := c'
  simp only [Reaches, List.nil_append, List.length_nil, Nat.add_zero, List.append_nil, Cursor.mk.injEq]
  constructor
  · rintro ⟨hr, hp, hg⟩; exact ⟨hp, hr.symm, hg⟩
  · rintro ⟨hp, hr, hg⟩; exact ⟨hr.symm, hp, hg⟩

theorem reaches_advance_iff {n : ℕ} (h : n ≤ c.rest.length) :
    c' = c.advance n ↔ Reaches c (c.rest.take n) [] c' := by
  obtain ⟨pos, rest, groups⟩ := c
  obtain ⟨pos', rest', groups'⟩ := c'
  simp only [Cursor.advance, Reaches, Cursor.mk.injEq, List.append_nil] at h ⊢
  rw [List.length_take_of_le h]
  constructor
  · rintro ⟨rfl, rfl, rfl⟩; simp
  · rintro ⟨hr, rfl, rfl⟩
    refine ⟨rfl, ?_, rfl⟩
    have := List.take_append_drop n rest
    exact (List.append_cancel_left (this.trans hr)).symm

theorem Reaches.take (h : Reaches c w gs c') : c.rest.take w.length = w := by
  rw [h.1, List.take_left]

theorem Reaches.length_le (h : Reaches c w gs c') : w.length ≤ c.rest.length := by
  rw [h.1, List.length_append]
  exact Nat.le_add_right ..

theorem Reaches.trans (h₁ : Reaches c w₁ g₁ m) (h₂ : Reaches m w₂ g₂ c') :
    Reaches c (w₁ ++ w₂) (g₁ ++ g₂) c' := by
  refine ⟨?_, ?_, ?_⟩
  · rw [h₁.1, h₂.1, List.append_assoc]
  · rw [h₂.2.1, h₁.2.1, List.length_append, Nat.add_assoc]
  · rw [h₂.2.2, h₁.2.2, List.append_assoc]

theorem Reaches.split (h : Reaches c (w₁ ++ w₂) (g₁ ++ g₂) c') :
    ∃ m, Reaches c w₁ g₁ m ∧ Reaches m w₂ g₂ c' := by
  obtain ⟨hr, hp, hg⟩ := h
  refine ⟨⟨c.pos + w₁.length, w₂ ++ c'.rest, c.groups ++ g₁⟩, ⟨?_, rfl, rfl⟩, rfl, ?_, ?_⟩
  · rw [hr, List.append_assoc]
  · rw [hp, List.length_append, Nat.add_assoc]
  · rw [hg, List.append_assoc]

/-- Capturing adds what was matched to the groups. -/
theorem reaches_capture_iff : (∃ m, Reaches c w gs m ∧ c.capture m = c') ↔
    Reaches c w (gs ++ [w]) c' := by
  constructor
  · rintro ⟨m, h, rfl⟩
    refine ⟨h.1, h.2.1, ?_⟩
    simp only [Cursor.capture, h.2.1, Nat.add_sub_cancel_left, h.take, h.2.2, List.append_assoc]
  · rintro ⟨hr, hp, hg⟩
    have h : Reaches c w gs ⟨c'.pos, c'.rest, c.groups ++ gs⟩ := ⟨hr, hp, rfl⟩
    refine ⟨_, h, ?_⟩
    obtain ⟨pos', rest', groups'⟩ := c'
    simp only at hp hg
    simp only [Cursor.capture, hp, Nat.add_sub_cancel_left, h.take, hg, List.append_assoc]

end Reaches

/-! ### The ways of each pattern -/

section Ways

variable {c c' : Cursor} {p : Char → Bool}

theorem mem_ways_start_iff : c' ∈ ways start c ↔ c.pos = 0 ∧ Reaches c [] [] c' := by
  rw [reaches_nil_iff, ways]
  split_ifs with h <;> simp [h]

theorem mem_ways_finish_iff : c' ∈ ways finish c ↔ c'.rest = [] ∧ Reaches c [] [] c' := by
  rw [reaches_nil_iff, ways]
  constructor
  · intro h
    split_ifs at h with hr
    · cases List.mem_singleton.mp h
      exact ⟨hr, rfl⟩
    · cases h
  · rintro ⟨hr, rfl⟩
    rw [if_pos hr]
    exact List.mem_singleton_self _

theorem mem_ways_one_iff : c' ∈ ways (one p) c ↔ ∃ x, p x ∧ Reaches c [x] [] c' := by
  cases hrest : c.rest with
  | nil => simp [ways, Reaches, hrest]
  | cons y rest =>
    have hadvance : c' = c.advance 1 ↔ Reaches c (c.rest.take 1) [] c' :=
      reaches_advance_iff (by simp [hrest])
    rw [hrest, List.take_succ_cons, List.take_zero] at hadvance
    simp only [ways, hrest]
    constructor
    · intro h
      split_ifs at h with hp
      · exact ⟨y, hp, hadvance.mp (List.mem_singleton.mp h)⟩
      · cases h
    · rintro ⟨x, hp, h⟩
      have hxy : y = x := by
        have hr := h.1
        rw [hrest] at hr
        exact (List.cons.inj hr).1
      subst hxy
      rw [if_pos hp]
      exact List.mem_singleton.mpr (hadvance.mpr h)

theorem mem_ways_many_iff {min extra : ℕ} : c' ∈ ways (many p min extra) c ↔
    ∃ w, (min ≤ w.length ∧ w.length ≤ min + extra ∧ w.all p) ∧ Reaches c w [] c' := by
  simp only [ways, List.mem_map, List.mem_filter, List.mem_reverse, List.mem_range'_1,
    decide_eq_true_eq]
  constructor
  · rintro ⟨n, ⟨hn, hle, hall⟩, rfl⟩
    refine ⟨c.rest.take n, ⟨?_, ?_, hall⟩, (reaches_advance_iff hle).mp rfl⟩
    · rw [List.length_take_of_le hle]; omega
    · rw [List.length_take_of_le hle]; omega
  · rintro ⟨w, ⟨h₁, h₂, hall⟩, hr⟩
    refine ⟨w.length, ⟨by omega, hr.length_le, by rw [hr.take]; exact hall⟩, ?_⟩
    exact ((reaches_advance_iff hr.length_le).mpr (by rw [hr.take]; exact hr)).symm

end Ways

/-- The search tries exactly the matches of the pattern. -/
theorem mem_ways_iff (p : Pattern) (c c' : Cursor) :
    c' ∈ ways p c ↔ ∃ w gs, Reaches c w gs c' ∧ Accepts p c.pos w c'.rest gs := by
  induction p generalizing c c' with
  | start =>
    rw [mem_ways_start_iff]
    constructor
    · rintro ⟨hpos, hr⟩; exact ⟨[], [], hr, hpos, rfl, rfl⟩
    · rintro ⟨w, gs, hr, hpos, rfl, rfl⟩; exact ⟨hpos, hr⟩
  | finish =>
    rw [mem_ways_finish_iff]
    constructor
    · rintro ⟨hrest, hr⟩; exact ⟨[], [], hr, hrest, rfl, rfl⟩
    · rintro ⟨w, gs, hr, hrest, rfl, rfl⟩; exact ⟨hrest, hr⟩
  | one p =>
    rw [mem_ways_one_iff]
    constructor
    · rintro ⟨x, hp, hr⟩; exact ⟨[x], [], hr, ⟨x, rfl, hp⟩, rfl⟩
    · rintro ⟨w, gs, hr, ⟨x, rfl, hp⟩, rfl⟩; exact ⟨x, hp, hr⟩
  | many p min extra =>
    rw [mem_ways_many_iff]
    constructor
    · rintro ⟨w, hw, hr⟩; exact ⟨w, [], hr, hw, rfl⟩
    · rintro ⟨w, gs, hr, hw, rfl⟩; exact ⟨w, hw, hr⟩
  | seq a b iha ihb =>
    simp only [ways, List.mem_flatMap, iha, ihb]
    constructor
    · rintro ⟨m, ⟨w₁, g₁, hr₁, ha⟩, w₂, g₂, hr₂, hb⟩
      rw [hr₂.1] at ha
      rw [hr₁.2.1] at hb
      exact ⟨w₁ ++ w₂, g₁ ++ g₂, hr₁.trans hr₂, w₁, w₂, g₁, g₂, rfl, rfl, ha, hb⟩
    · rintro ⟨w, gs, hr, w₁, w₂, g₁, g₂, rfl, rfl, ha, hb⟩
      obtain ⟨m, hr₁, hr₂⟩ := hr.split
      rw [← hr₂.1] at ha
      rw [← hr₁.2.1] at hb
      exact ⟨m, ⟨w₁, g₁, hr₁, ha⟩, w₂, g₂, hr₂, hb⟩
  | alt a b iha ihb =>
    simp only [ways, Accepts, List.mem_append, iha, ihb]
    constructor
    · rintro (⟨w, gs, hr, h⟩ | ⟨w, gs, hr, h⟩)
      · exact ⟨w, gs, hr, .inl h⟩
      · exact ⟨w, gs, hr, .inr h⟩
    · rintro ⟨w, gs, hr, h | h⟩
      · exact .inl ⟨w, gs, hr, h⟩
      · exact .inr ⟨w, gs, hr, h⟩
  | group a ih =>
    simp only [ways, List.mem_map, ih]
    constructor
    · rintro ⟨m, ⟨w, g, hr, ha⟩, rfl⟩
      exact ⟨w, g ++ [w], reaches_capture_iff.mp ⟨m, hr, rfl⟩, g, rfl, ha⟩
    · rintro ⟨w, gs, hr, g, rfl, ha⟩
      obtain ⟨m, hm, rfl⟩ := reaches_capture_iff.mpr hr
      exact ⟨m, ⟨w, g, hm, ha⟩, rfl⟩

/-- A pattern that starts with an anchor matches at position zero only. -/
theorem ways_start_seq_of_pos (p : Pattern) {c : Cursor} (h : c.pos ≠ 0) :
    ways (seq start p) c = [] := by
  simp [ways, h]

theorem search_start_seq_of_pos (p : Pattern) (s : Text) {pos : ℕ} (h : pos ≠ 0) :
    search (seq start p) pos s = none := by
  induction s generalizing pos with
  | nil => simp [search, ways_start_seq_of_pos p (c := ⟨pos, [], []⟩) h]
  | cons x s ih =>
    rw [search, ways_start_seq_of_pos p (c := ⟨pos, x :: s, []⟩) h]
    exact ih (by omega)

theorem search_start_seq (p : Pattern) (s : Text) :
    search (seq start p) 0 s = (ways (seq start p) ⟨0, s, []⟩).head? := by
  cases h : ways (seq start p) ⟨0, s, []⟩ with
  | cons c cs => cases s <;> simp [search, h]
  | nil =>
    cases s with
    | nil => simp [search, h]
    | cons x s => simp [search, h, search_start_seq_of_pos p s Nat.one_ne_zero]

/-- The captures of an anchored pattern are the groups of one of its matches. -/
theorem accepts_of_captures {p : Pattern} {s : Text} {gs : List Text}
    (h : captures (seq start p) s = some gs) :
    ∃ w after, s = w ++ after ∧ Accepts p 0 w after gs := by
  rw [captures, search_start_seq, Option.map_eq_some_iff] at h
  obtain ⟨c, hc, rfl⟩ := h
  obtain ⟨w, gs, ⟨hr, -, hg⟩, ha⟩ := (mem_ways_iff _ _ _).mp (List.mem_of_head? hc)
  obtain ⟨w₁, w₂, g₁, g₂, rfl, rfl, ⟨-, rfl, rfl⟩, hp⟩ := ha
  refine ⟨w₂, c.rest, by simpa using hr, ?_⟩
  rw [hg]
  simpa using hp

/-- An anchored pattern with a match has captures. -/
theorem captures_isSome_of_accepts {p : Pattern} {w after : Text} {gs : List Text}
    (h : Accepts p 0 w after gs) : ∃ gs', captures (seq start p) (w ++ after) = some gs' := by
  have hmem : (⟨w.length, after, gs⟩ : Cursor) ∈ ways (seq start p) ⟨0, w ++ after, []⟩ :=
    (mem_ways_iff _ _ _).mpr ⟨w, gs, ⟨rfl, by simp, by simp⟩, [], w, [], gs, rfl, rfl,
      ⟨rfl, rfl, rfl⟩, by simpa using h⟩
  obtain ⟨c, hc⟩ : ∃ c, (ways (seq start p) ⟨0, w ++ after, []⟩).head? = some c := by
    cases hw : ways (seq start p) ⟨0, w ++ after, []⟩ with
    | nil => rw [hw] at hmem; cases hmem
    | cons c cs => exact ⟨c, rfl⟩
  exact ⟨c.groups, by rw [captures, search_start_seq, hc]; rfl⟩

end Pattern

/-! ### Maximal runs of a class -/

/-- The text does not go on with a character of the class. -/
def Stops (p : Char → Bool) (s : Text) : Prop := ∀ c cs, s = c :: cs → p c = false

theorem Stops.cons {p : Char → Bool} {c : Char} (h : p c = false) (s : Text) : Stops p (c :: s) := by
  intro d ds heq
  cases heq
  exact h

/-- A run of a class followed by nothing of the class is the longest such prefix. -/
theorem takeWhile_append_of_stops {p : Char → Bool} {w after : Text} (hw : w.all p)
    (h : Stops p after) : (w ++ after).takeWhile p = w := by
  rw [List.takeWhile_append_of_pos fun x hx => List.all_eq_true.mp hw x hx]
  cases after with
  | nil => simp
  | cons x xs => simp [h x xs rfl]

/-- A text splits in one way into a maximal run of a class and the rest. -/
theorem Stops.unique {p : Char → Bool} {w w' a a' : Text} (h : w ++ a = w' ++ a') (hw : w.all p)
    (ha : Stops p a) (hw' : w'.all p) (ha' : Stops p a') : w = w' ∧ a = a' := by
  have hww : w = w' := by
    rw [← takeWhile_append_of_stops hw ha, h, takeWhile_append_of_stops hw' ha']
  subst hww
  exact ⟨rfl, List.append_cancel_left h⟩

end Foundation
