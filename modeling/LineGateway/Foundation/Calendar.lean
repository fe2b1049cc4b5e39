import Mathlib.Tactic

/-! The proleptic Gregorian calendar by year and day of year. A date carries the
proof that its month and day exist; a date is determined by its year and its day
of year, and every day from 1 to the length of the year is the day of a date. -/

namespace Foundation.Calendar

def isLeap (y : ℕ) : Bool := y % 4 = 0 ∧ (y % 100 ≠ 0 ∨ y % 400 = 0)

def daysInYear (y : ℕ) : ℕ := if isLeap y then 366 else 365

def daysInMonth (y : ℕ) : ℕ → ℕ
  | 1 | 3 | 5 | 7 | 8 | 10 | 12 => 31
  | 4 | 6 | 9 | 11 => 30
  | 2 => if isLeap y then 29 else 28
  | _ => 0

/-- The days of the months before month `m`. -/
def daysBefore (y : ℕ) : ℕ → ℕ
  | 0 => 0
  | m + 1 => daysBefore y m + daysInMonth y m

theorem daysBefore_thirteen (y : ℕ) : daysBefore y 13 = daysInYear y := by
  cases h : isLeap y <;> simp [daysBefore, daysInMonth, daysInYear, h]

theorem daysBefore_mono (y : ℕ) : Monotone (daysBefore y) :=
  monotone_nat_of_le_succ fun _ => Nat.le_add_right _ _

theorem daysBefore_add_le {y m n : ℕ} (h : m < n) :
    daysBefore y m + daysInMonth y m ≤ daysBefore y n := daysBefore_mono y h

@[ext] structure Date where
  year : ℕ
  month : ℕ
  day : ℕ
  month_le : month ≤ 12
  day_pos : 1 ≤ day
  day_le : day ≤ daysInMonth year month
  deriving DecidableEq

theorem daysInMonth_le (y m : ℕ) : daysInMonth y m ≤ 31 := by
  unfold daysInMonth
  split
  case h_12 => split <;> omega
  all_goals omega

theorem Date.day_le_31 (d : Date) : d.day ≤ 31 := d.day_le.trans (daysInMonth_le _ _)

def Date.dayOfYear (d : Date) : ℕ := daysBefore d.year d.month + d.day

theorem Date.dayOfYear_pos (d : Date) : 1 ≤ d.dayOfYear :=
  le_trans d.day_pos (Nat.le_add_left _ _)

theorem Date.dayOfYear_le (d : Date) : d.dayOfYear ≤ daysInYear d.year := by
  have h := daysBefore_add_le (y := d.year) (Nat.lt_succ_of_le d.month_le)
  rw [daysBefore_thirteen] at h
  have := d.day_le
  unfold dayOfYear
  omega

theorem daysInYear_le (y : ℕ) : daysInYear y ≤ 366 := by
  unfold daysInYear; split <;> omega

theorem Date.dayOfYear_le_366 (d : Date) : d.dayOfYear ≤ 366 :=
  d.dayOfYear_le.trans (daysInYear_le _)

/-- The month is determined by the day of year. -/
theorem Date.month_le_of_dayOfYear_eq {d e : Date} (hy : d.year = e.year)
    (h : d.dayOfYear = e.dayOfYear) : d.month ≤ e.month := by
  by_contra hlt
  have hb := daysBefore_add_le (y := e.year) (not_le.mp hlt)
  have := d.day_pos
  have := e.day_le
  simp only [dayOfYear, hy] at h
  omega

/-- A date is determined by its year and its day of year. -/
theorem Date.ext_dayOfYear {d e : Date} (hy : d.year = e.year)
    (h : d.dayOfYear = e.dayOfYear) : d = e := by
  have hm : d.month = e.month :=
    le_antisymm (month_le_of_dayOfYear_eq hy h) (month_le_of_dayOfYear_eq hy.symm h.symm)
  have hd : d.day = e.day := by
    simp only [dayOfYear, hy, hm] at h
    omega
  cases d; cases e
  simp_all

/-- The month that holds day `n` of the year. -/
def monthOf (y n : ℕ) : Option ℕ :=
  (List.range 13).find? fun m => daysBefore y m < n ∧ n ≤ daysBefore y m + daysInMonth y m

theorem monthOf_spec {y n m : ℕ} (h : monthOf y n = some m) :
    m ≤ 12 ∧ daysBefore y m < n ∧ n ≤ daysBefore y m + daysInMonth y m := by
  have hp : daysBefore y m < n ∧ n ≤ daysBefore y m + daysInMonth y m := by
    simpa using List.find?_some h
  have hm := List.mem_of_find?_eq_some h
  rw [List.mem_range] at hm
  exact ⟨by omega, hp⟩

/-- The date of day `n` of year `y`, if the year has it. -/
def ofDayOfYear (y n : ℕ) : Option Date :=
  match h : monthOf y n with
  | none => none
  | some m => some
    { year := y
      month := m
      day := n - daysBefore y m
      month_le := (monthOf_spec h).1
      day_pos := by have := monthOf_spec h; omega
      day_le := by have := monthOf_spec h; omega }

theorem ofDayOfYear_some {y n : ℕ} {d : Date} (h : ofDayOfYear y n = some d) :
    d.year = y ∧ d.dayOfYear = n := by
  unfold ofDayOfYear at h
  split at h
  · cases h
  · next m hm =>
    cases h
    have := monthOf_spec hm
    exact ⟨rfl, by simp only [Date.dayOfYear]; omega⟩

theorem exists_monthOf {y n : ℕ} (h₁ : 1 ≤ n) (h₂ : n ≤ daysInYear y) :
    ∃ m, monthOf y n = some m := by
  by_contra hnone
  have hnone' : monthOf y n = none := Option.eq_none_iff_forall_not_mem.mpr
    fun m hm => hnone ⟨m, hm⟩
  have hall : ∀ m ≤ 13, daysBefore y m < n := by
    intro m
    induction m with
    | zero => intro _; exact h₁
    | succ m ih =>
      intro hm
      have hlt := ih (by omega)
      have := List.find?_eq_none.mp hnone' m (by simp; omega)
      simp only [decide_eq_true_eq, not_and, not_le] at this
      exact this hlt
  have := hall 13 le_rfl
  rw [daysBefore_thirteen] at this
  omega

/-- A year has exactly the days from 1 to its length. -/
theorem ofDayOfYear_isSome_iff {y n : ℕ} :
    (ofDayOfYear y n).isSome ↔ 1 ≤ n ∧ n ≤ daysInYear y := by
  constructor
  · intro h
    obtain ⟨d, hd⟩ := Option.isSome_iff_exists.mp h
    obtain ⟨rfl, rfl⟩ := ofDayOfYear_some hd
    exact ⟨d.dayOfYear_pos, d.dayOfYear_le⟩
  · rintro ⟨h₁, h₂⟩
    obtain ⟨m, hm⟩ := exists_monthOf h₁ h₂
    unfold ofDayOfYear
    split
    · next h => rw [hm] at h; cases h
    · rfl

/-- Reading back the year and the day of year of a date gives the date. -/
theorem ofDayOfYear_dayOfYear (d : Date) : ofDayOfYear d.year d.dayOfYear = some d := by
  have h := ofDayOfYear_isSome_iff.mpr ⟨d.dayOfYear_pos, d.dayOfYear_le⟩
  obtain ⟨e, he⟩ := Option.isSome_iff_exists.mp h
  obtain ⟨hy, hn⟩ := ofDayOfYear_some he
  rw [he, Date.ext_dayOfYear hy hn]

end Foundation.Calendar
