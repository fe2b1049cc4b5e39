import LineGateway.Foundation.Program

/-! What all runs of a program have in common, whatever the replies. A program panics
exactly on fatal replies; a program obeys a protocol, in which the effects allowed depend
on the replies so far. Both compose over the ways programs are built, so that they are
shown at the few places where a reply is used unchecked or changes the phase. -/

namespace Foundation

variable {S : Signature} {ε ε' α β : Type}

/-! ### Panics -/

/-- The program panics exactly in the runs that contain a fatal reply. -/
def PanicsOn (Fatal : Event S → Prop) (p : Prog S ε α) : Prop :=
  ∀ t o, Yields p t o → ((∃ m, o = .panicked m) ↔ ∃ e ∈ t, Fatal e)

namespace PanicsOn

variable {Fatal : Event S → Prop}

theorem ret (a : α) : PanicsOn Fatal (.ret a : Prog S ε α) := by
  intro t o h
  obtain ⟨rfl, rfl⟩ := Yields.ret_iff.mp h
  simp

theorem fail (e : ε) : PanicsOn Fatal (.fail e : Prog S ε α) := by
  intro t o h
  obtain ⟨rfl, rfl⟩ := Yields.fail_iff.mp h
  simp

/-- An effect: a fatal reply panics at once, and no other reply is fatal. -/
theorem call {e : S.Effect} {k : S.Reply e → Prog S ε α}
    (hfatal : ∀ r, Fatal ⟨e, r⟩ → ∃ m, k r = .panic m)
    (hk : ∀ r, ¬ Fatal ⟨e, r⟩ → PanicsOn Fatal (k r)) : PanicsOn Fatal (.call e k) := by
  intro t o h
  obtain ⟨r, t', rfl, h'⟩ := Yields.call_iff.mp h
  by_cases hr : Fatal ⟨e, r⟩
  · obtain ⟨m, hm⟩ := hfatal r hr
    rw [hm] at h'
    obtain ⟨rfl, rfl⟩ := Yields.panic_iff.mp h'
    simp [hr]
  · rw [hk r hr t' o h']
    simp [hr]

/-- An effect no reply to which is fatal. -/
theorem call_of_not {e : S.Effect} {k : S.Reply e → Prog S ε α} (hfatal : ∀ r, ¬ Fatal ⟨e, r⟩)
    (hk : ∀ r, PanicsOn Fatal (k r)) : PanicsOn Fatal (.call e k) :=
  call (fun r hr => absurd hr (hfatal r)) fun r _ => hk r

theorem bind {p : Prog S ε α} {f : α → Prog S ε β} (hp : PanicsOn Fatal p)
    (hf : ∀ a, PanicsOn Fatal (f a)) : PanicsOn Fatal (p >>= f) := by
  intro t o h
  rcases Yields.bind_iff.mp h with ⟨a, t₁, t₂, rfl, h₁, h₂⟩ | ⟨e, rfl, h₁⟩ | ⟨m, rfl, h₁⟩
  · have hp₁ : ¬ ∃ e ∈ t₁, Fatal e := fun hbad => by simpa using (hp t₁ _ h₁).mpr hbad
    rw [hf a t₂ o h₂]
    simp only [List.mem_append]
    constructor
    · rintro ⟨e, he, hbad⟩
      exact ⟨e, .inr he, hbad⟩
    · rintro ⟨e, he | he, hbad⟩
      · exact absurd ⟨e, he, hbad⟩ hp₁
      · exact ⟨e, he, hbad⟩
  · rw [← hp t _ h₁]
    simp
  · rw [← hp t _ h₁]
    simp

theorem mapErr {p : Prog S ε α} (hp : PanicsOn Fatal p) (f : ε → ε') :
    PanicsOn Fatal (p.mapErr f) := by
  intro t o h
  rcases Yields.mapErr_iff.mp h with ⟨a, rfl, h₁⟩ | ⟨e, rfl, h₁⟩ | ⟨m, rfl, h₁⟩
  all_goals
    rw [← hp t _ h₁]
    simp

theorem unwrapOrElse {p : Prog S ε α} (hp : PanicsOn Fatal p) (f : ε → α) :
    PanicsOn Fatal (p.unwrapOrElse f : Prog S ε' α) := by
  intro t o h
  rcases Yields.of_unwrapOrElse h with ⟨a, rfl, h₁⟩ | ⟨e, rfl, h₁⟩ | ⟨m, rfl, h₁⟩
  all_goals
    rw [← hp t _ h₁]
    simp

end PanicsOn

/-! ### Protocols -/

/-- Which effects are allowed in a phase, and the phase after each reply. -/
structure Protocol (S : Signature) (φ : Type) where
  allowed : φ → S.Effect → Prop
  next : φ → (e : S.Effect) → S.Reply e → φ

variable {φ : Type} {P : Protocol S φ} {m : φ}

/-- Every effect of the program is allowed in the phase it is performed in. -/
def Prog.Obeys (P : Protocol S φ) : Prog S ε α → φ → Prop
  | .call e k, m => P.allowed m e ∧ ∀ r, (k r).Obeys P (P.next m e r)
  | _, _ => True

namespace Prog.Obeys

theorem call {e : S.Effect} {k : S.Reply e → Prog S ε α} (he : P.allowed m e)
    (hk : ∀ r, (k r).Obeys P (P.next m e r)) : (Prog.call e k).Obeys P m := ⟨he, hk⟩

/-- A part may leave any phase when what follows is allowed in all of them. -/
theorem bind {p : Prog S ε α} {f : α → Prog S ε β} (hp : p.Obeys P m)
    (hf : ∀ a m', (f a).Obeys P m') : (p >>= f).Obeys P m := by
  induction p generalizing m with
  | ret a => exact hf a m
  | fail e => trivial
  | panic message => trivial
  | call e k ih => exact ⟨hp.1, fun r => ih r (hp.2 r)⟩

theorem mapErr {p : Prog S ε α} (hp : p.Obeys P m) (f : ε → ε') : (p.mapErr f).Obeys P m := by
  induction p generalizing m with
  | ret a => trivial
  | fail e => trivial
  | panic message => trivial
  | call e k ih => exact ⟨hp.1, fun r => ih r (hp.2 r)⟩

theorem attempt_bind {x : Except ε' α} {f : ε' → ε} {g : α → Prog S ε β}
    (hg : ∀ a, x = .ok a → (g a).Obeys P m) : (Prog.attempt f x >>= g).Obeys P m := by
  cases x with
  | error e => trivial
  | ok a => exact hg a rfl

theorem expect_bind {x : Option α} {message : String} {g : α → Prog S ε β}
    (hg : ∀ a, x = some a → (g a).Obeys P m) : (Prog.expect message x >>= g).Obeys P m := by
  cases x with
  | none => trivial
  | some a => exact hg a rfl

theorem ofOutcome_bind {x : Outcome ε' α} {f : ε' → ε} {g : α → Prog S ε β}
    (hg : ∀ a, x = .returned a → (g a).Obeys P m) : (Prog.ofOutcome f x >>= g).Obeys P m := by
  cases x with
  | returned a => exact hg a rfl
  | failed e => trivial
  | panicked message => trivial

end Prog.Obeys

end Foundation
