import Mathlib.Data.List.Induction
import Mathlib.Tactic

/-! Finite runs of labelled transition systems. A system is a step relation on
states; a run is the list of its labels between two states. Proved: runs compose
and split at any label, an invariant of one step is an invariant of every run, an
invariant may speak about the labels already taken, and a map that takes steps to
steps takes runs to runs. -/

namespace Foundation

variable {σ τ ℓ μ : Type*}

/-- A finite run of `step`, read from its first label. -/
inductive Run (step : σ → ℓ → σ → Prop) : σ → List ℓ → σ → Prop
  | nil (s : σ) : Run step s [] s
  | cons {s t u : σ} {l : ℓ} {ls : List ℓ} (head : step s l t) (tail : Run step t ls u) :
      Run step s (l :: ls) u

/-- The steps of `step` that meet a condition on the state before and the label. -/
def guarded (step : σ → ℓ → σ → Prop) (ok : σ → ℓ → Prop) : σ → ℓ → σ → Prop :=
  fun s l t => step s l t ∧ ok s l

/-- The steps of `step`, each marked by whether it meets the condition. -/
def marked (step : σ → ℓ → σ → Prop) (ok : σ → ℓ → Prop) : σ → ℓ × Bool → σ → Prop :=
  fun s l t => step s l.1 t ∧ (l.2 = true ↔ ok s l.1)

namespace Run

variable {step : σ → ℓ → σ → Prop} {s t u : σ} {ls ms : List ℓ} {l : ℓ}

theorem single (h : step s l t) : Run step s [l] t := .cons h (.nil t)

theorem append (h₁ : Run step s ls t) (h₂ : Run step t ms u) : Run step s (ls ++ ms) u := by
  induction h₁ with
  | nil => exact h₂
  | cons head _ ih => exact .cons head (ih h₂)

theorem snoc (h₁ : Run step s ls t) (h₂ : step t l u) : Run step s (ls ++ [l]) u :=
  h₁.append (single h₂)

@[simp] theorem nil_iff : Run step s [] t ↔ s = t := by
  constructor
  · intro h; cases h; rfl
  · rintro rfl; exact .nil s

theorem cons_iff : Run step s (l :: ls) u ↔ ∃ t, step s l t ∧ Run step t ls u := by
  constructor
  · intro h
    cases h with
    | cons head tail => exact ⟨_, head, tail⟩
  · rintro ⟨t, head, tail⟩; exact .cons head tail

/-- A run over an appended label list passes through a middle state. -/
theorem append_iff : Run step s (ls ++ ms) u ↔ ∃ t, Run step s ls t ∧ Run step t ms u := by
  constructor
  · intro h
    induction ls generalizing s with
    | nil => exact ⟨s, .nil s, h⟩
    | cons l ls ih =>
      obtain ⟨t, head, tail⟩ := cons_iff.mp h
      obtain ⟨v, hv, hu⟩ := ih tail
      exact ⟨v, .cons head hv, hu⟩
  · rintro ⟨t, h₁, h₂⟩; exact h₁.append h₂

/-- Induction on a run with the labels already taken at hand. -/
theorem history {I : List ℓ → σ → Prop} (start : I [] s)
    (next : ∀ ls t l u, Run step s ls t → I ls t → step t l u → I (ls ++ [l]) u) :
    ∀ {ls t}, Run step s ls t → I ls t := by
  intro ls
  induction ls using List.reverseRecOn with
  | nil => intro t h; cases h; exact start
  | append_singleton ls l ih =>
    intro t h
    obtain ⟨m, hm, hl⟩ := append_iff.mp h
    obtain ⟨t', hstep, hnil⟩ := cons_iff.mp hl
    cases hnil
    exact next ls m l _ hm (ih hm) hstep

/-- What one step preserves, a run preserves. -/
theorem invariant {I : σ → Prop} (next : ∀ s l t, I s → step s l t → I t)
    (h : Run step s ls t) (start : I s) : I t := by
  induction h with
  | nil => exact start
  | cons head _ ih => exact ih (next _ _ _ start head)

theorem mono {step' : σ → ℓ → σ → Prop} (le : ∀ s l t, step s l t → step' s l t)
    (h : Run step s ls t) : Run step' s ls t := by
  induction h with
  | nil => exact .nil _
  | cons head _ ih => exact .cons (le _ _ _ head) ih

/-- A run whose steps all meet the condition is a run. -/
theorem of_guarded {ok : σ → ℓ → Prop} (h : Run (guarded step ok) s ls t) : Run step s ls t :=
  h.mono fun _ _ _ hs => hs.1

/-- A run is guarded by a condition that each of its labels meets in any state. -/
theorem of_labels {ok : σ → ℓ → Prop} (h : Run step s ls t) (hok : ∀ l ∈ ls, ∀ s, ok s l) :
    Run (guarded step ok) s ls t := by
  induction h with
  | nil => exact .nil _
  | cons head _ ih =>
    exact .cons ⟨head, hok _ List.mem_cons_self _⟩
      (ih fun l hl => hok l (List.mem_cons_of_mem _ hl))

/-- A map that takes every step to a step of another system takes every run to a run. -/
theorem project {step' : τ → μ → τ → Prop} (f : σ → τ)
    (next : ∀ s l t, step s l t → ∃ m, step' (f s) m (f t)) (h : Run step s ls t) :
    ∃ ms, Run step' (f s) ms (f t) := by
  induction h with
  | nil => exact ⟨[], .nil _⟩
  | cons head _ ih =>
    obtain ⟨m, hm⟩ := next _ _ _ head
    obtain ⟨ms, hms⟩ := ih
    exact ⟨m :: ms, .cons hm hms⟩

/-- Take a step that has the label, or no step. -/
def OptStep (step : σ → ℓ → σ → Prop) (s : σ) : Option ℓ → σ → Prop
  | some l, t => step s l t
  | none, t => t = s

/-- A map that takes every step to a step with its image as a label, or to no step when it
has no image, takes every run to the run of the images. -/
theorem filterMap {step' : τ → μ → τ → Prop} (f : σ → τ) (label : ℓ → Option μ)
    (next : ∀ s l t, step s l t → OptStep step' (f s) (label l) (f t)) (h : Run step s ls t) :
    Run step' (f s) (ls.filterMap label) (f t) := by
  induction h with
  | nil => exact .nil _
  | @cons s t u l ls head _ ih =>
    have hstep := next s l t head
    cases hl : label l with
    | none =>
      rw [hl] at hstep
      rw [List.filterMap_cons_none hl]
      have hsame : f t = f s := hstep
      rwa [← hsame]
    | some m =>
      rw [hl] at hstep
      rw [List.filterMap_cons_some hl]
      exact .cons hstep ih

/-- The steps of a run are taken in states that have the invariants of the run. -/
theorem strengthen {I : σ → Prop} (next : ∀ s l t, I s → step s l t → I t) (h : Run step s ls t)
    (start : I s) : Run (guarded step fun s _ => I s) s ls t := by
  induction h with
  | nil => exact .nil _
  | cons head _ ih => exact .cons ⟨head, start⟩ (ih (next _ _ _ start head))

end Run

/-- The states some run reaches from `init`. -/
def Reachable (step : σ → ℓ → σ → Prop) (init s : σ) : Prop := ∃ ls, Run step init ls s

namespace Reachable

variable {step : σ → ℓ → σ → Prop} {init s : σ}

theorem invariant {I : σ → Prop} (h : Reachable step init s)
    (next : ∀ s l t, I s → step s l t → I t) (start : I init) : I s := by
  obtain ⟨ls, hr⟩ := h
  exact hr.invariant next start

end Reachable

end Foundation
