import LineGateway.Foundation.Guarantee
import LineGateway.Foundation.Run

/-! Progress towards a goal. Some steps of a system are its own, the others come from around
it. When an own step is possible until the goal is reached, every own step brings the goal
closer and no other step takes it further away, then the goal is reached: after a bounded
number of own steps, in every execution that takes own steps again and again. For systems
that run programs, the number of effects a program can still perform is such a measure. -/

namespace Foundation

variable {σ ℓ : Type*}

/-! ### Measures of what is left -/

/-- A measure of what is left until the goal, in the states that have the invariant. -/
structure Variant (step : σ → ℓ → σ → Prop) (own : σ → ℓ → Prop) (goal : σ → Prop) where
  inv : σ → Prop
  left : σ → ℕ
  inv_step : ∀ {s l t}, inv s → step s l t → inv t
  left_le : ∀ {s l t}, inv s → step s l t → left t ≤ left s
  left_lt : ∀ {s l t}, inv s → step s l t → own s l → left t < left s
  enabled : ∀ {s}, inv s → ¬ goal s → ∃ l t, step s l t ∧ own s l

namespace Variant

variable {step : σ → ℓ → σ → Prop} {own : σ → ℓ → Prop} {goal : σ → Prop} {s t : σ}

/-- The own steps of a run are bounded by what is left, whatever steps come in between. -/
theorem count_le (v : Variant step own goal) {ls : List (ℓ × Bool)} (hs : v.inv s)
    (hr : Run (marked step own) s ls t) : ls.countP Prod.snd + v.left t ≤ v.left s := by
  induction hr with
  | nil => simp
  | @cons s t u l ls head _ ih =>
    obtain ⟨hstep, hmark⟩ := head
    have hle := ih (v.inv_step hs hstep)
    rw [List.countP_cons]
    split_ifs with hown
    · have hlt := v.left_lt hs hstep (hmark.mp hown)
      omega
    · have hstill := v.left_le hs hstep
      omega

variable {x : ℕ → σ} {l : ℕ → ℓ}

theorem along (v : Variant step own goal) (hx : ∀ i, step (x i) (l i) (x (i + 1))) {i j : ℕ}
    (hij : i ≤ j) (hs : v.inv (x i)) : v.inv (x j) ∧ v.left (x j) ≤ v.left (x i) := by
  induction j, hij using Nat.le_induction with
  | base => exact ⟨hs, le_rfl⟩
  | succ j hij ih => exact ⟨v.inv_step ih.1 (hx j), (v.left_le ih.1 (hx j)).trans ih.2⟩

/-- An execution that takes own steps again and again reaches the goal. -/
theorem reaches (v : Variant step own goal) (hx : ∀ i, step (x i) (l i) (x (i + 1)))
    (hfair : ∀ i, ∃ j, i ≤ j ∧ (goal (x j) ∨ own (x j) (l j))) (hs : v.inv (x 0)) :
    ∃ j, goal (x j) := by
  have hfrom : ∀ n i, v.left (x i) = n → v.inv (x i) → ∃ j, goal (x j) := by
    intro n
    induction n using Nat.strong_induction_on with
    | h n ih =>
      intro i hn hi
      obtain ⟨j, hij, hgoal | hown⟩ := hfair i
      · exact ⟨j, hgoal⟩
      · obtain ⟨hj, hle⟩ := v.along hx hij hi
        have hlt := v.left_lt hj (hx j) hown
        exact ih _ (by omega) (j + 1) rfl (v.inv_step hj (hx j))
  exact hfrom _ 0 rfl hs

end Variant

/-! ### Programs of bounded length -/

variable {S : Signature} {ε ε' α β : Type}

/-- The program performs at most so many effects, whatever the replies. -/
def Prog.Within : Prog S ε α → ℕ → Prop
  | .call _ _, 0 => False
  | .call _ k, n + 1 => ∀ r, (k r).Within n
  | _, _ => True

namespace Prog.Within

variable {p q : Prog S ε α} {m n : ℕ}

theorem ret (a : α) (n : ℕ) : (.ret a : Prog S ε α).Within n := trivial

theorem fail (e : ε) (n : ℕ) : (.fail e : Prog S ε α).Within n := trivial

theorem panic (message : String) (n : ℕ) : (.panic message : Prog S ε α).Within n := trivial

theorem call {e : S.Effect} {k : S.Reply e → Prog S ε α} (hk : ∀ r, (k r).Within n) :
    (Prog.call e k).Within (n + 1) := hk

theorem mono (h : p.Within m) (hmn : m ≤ n) : p.Within n := by
  induction p generalizing m n with
  | ret a | fail e | panic message => trivial
  | call e k ih =>
    cases m with
    | zero => exact h.elim
    | succ m =>
      cases n with
      | zero => omega
      | succ n => exact fun r => ih r (h r) (Nat.le_of_succ_le_succ hmn)

theorem bind {f : α → Prog S ε β} (hp : p.Within m) (hf : ∀ a, (f a).Within n) :
    (p >>= f).Within (m + n) := by
  induction p generalizing m with
  | ret a => exact (hf a).mono (Nat.le_add_left n m)
  | fail e | panic message => trivial
  | call e k ih =>
    cases m with
    | zero => exact hp.elim
    | succ m =>
      rw [Nat.succ_add]
      exact fun r => ih r (hp r)

theorem mapErr (hp : p.Within n) (f : ε → ε') : (p.mapErr f).Within n := by
  induction p generalizing n with
  | ret a | fail e | panic message => trivial
  | call e k ih =>
    cases n with
    | zero => exact hp.elim
    | succ n => exact fun r => ih r (hp r)

theorem unwrapOrElse (hp : p.Within n) (f : ε → α) :
    (p.unwrapOrElse f : Prog S ε' α).Within n := by
  induction p generalizing n with
  | ret a | fail e | panic message => trivial
  | call e k ih =>
    cases n with
    | zero => exact hp.elim
    | succ n => exact fun r => ih r (hp r)

theorem attempt_bind {x : Except ε' α} {f : ε' → ε} {g : α → Prog S ε β}
    (hg : ∀ a, (g a).Within n) : (Prog.attempt f x >>= g).Within n := by
  cases x with
  | error e => trivial
  | ok a => exact hg a

theorem expect_bind {x : Option α} {message : String} {g : α → Prog S ε β}
    (hg : ∀ a, (g a).Within n) : (Prog.expect message x >>= g).Within n := by
  cases x with
  | none => trivial
  | some a => exact hg a

theorem ofOutcome_bind {x : Outcome ε' α} {f : ε' → ε} {g : α → Prog S ε β}
    (hg : ∀ a, (g a).Within n) : (Prog.ofOutcome f x >>= g).Within n := by
  cases x with
  | returned a => exact hg a
  | failed e => trivial
  | panicked message => trivial

/-- What is left of a program is as bounded. -/
theorem after {t : List (Event S)} (hp : p.Within n) (h : p.After t q) : q.Within n := by
  induction h with
  | start => exact hp
  | reply h r ih =>
    cases n with
    | zero => exact ih.elim
    | succ n => exact (ih r).mono (Nat.le_succ n)

end Prog.Within

/-- The least bound on the number of effects, zero if there is none. -/
noncomputable def Prog.effort (p : Prog S ε α) : ℕ := sInf {n | p.Within n}

namespace Prog

variable {p : Prog S ε α} {n : ℕ}

theorem effort_le (h : p.Within n) : p.effort ≤ n := Nat.sInf_le h

/-- Every effect of a bounded program leaves less to do. -/
theorem effort_lt {e : S.Effect} {k : S.Reply e → Prog S ε α} (h : (Prog.call e k).Within n)
    (r : S.Reply e) : (k r).effort < (Prog.call e k).effort := by
  have hleast : (Prog.call e k).Within (Prog.call e k).effort := Nat.sInf_mem ⟨n, h⟩
  cases hm : (Prog.call e k).effort with
  | zero =>
    rw [hm] at hleast
    exact hleast.elim
  | succ m =>
    rw [hm] at hleast
    exact Nat.lt_succ_of_le (effort_le (hleast r))

end Prog

end Foundation
