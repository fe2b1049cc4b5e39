import Mathlib.Tactic

/-! Programs as trees of effects. A program returns, fails with a typed error,
panics, or performs an effect and goes on with its reply. `eval` runs a program
against a world that performs every effect on a state; `Yields` lets the replies
be anything and records them in a trace, so that a fact about `Yields` holds under
every behaviour of the environment and every interleaving with other programs. -/

namespace Foundation

/-! ### Results -/

theorem bind_ok_iff {ε α β : Type*} {x : Except ε α} {f : α → Except ε β} {b : β} :
    x.bind f = .ok b ↔ ∃ a, x = .ok a ∧ f a = .ok b := by
  cases x <;> simp [Except.bind]

theorem mapError_ok_iff {ε ε' α : Type*} {x : Except ε α} {f : ε → ε'} {a : α} :
    x.mapError f = .ok a ↔ x = .ok a := by
  cases x <;> simp [Except.mapError]

/-! ### Programs -/

/-- The effects a family of programs may perform, and the type of each reply. -/
structure Signature where
  Effect : Type
  Reply : Effect → Type

/-- What a finished program has done. -/
inductive Outcome (ε α : Type)
  | returned (a : α)
  | failed (e : ε)
  | panicked (message : String)
  deriving DecidableEq

namespace Outcome

variable {ε α β : Type}

def bind : Outcome ε α → (α → Outcome ε β) → Outcome ε β
  | returned a, f => f a
  | failed e, _ => failed e
  | panicked m, _ => panicked m

instance : Monad (Outcome ε) where
  pure := returned
  bind := bind

@[simp] theorem returned_bind (a : α) (f : α → Outcome ε β) : (returned a >>= f) = f a := rfl

@[simp] theorem failed_bind (e : ε) (f : α → Outcome ε β) : (failed e >>= f) = failed e := rfl

@[simp] theorem panicked_bind (m : String) (f : α → Outcome ε β) :
    (panicked m >>= f) = panicked m := rfl

end Outcome

inductive Prog (S : Signature) (ε α : Type)
  | ret (a : α)
  | fail (e : ε)
  | panic (message : String)
  | call (e : S.Effect) (k : S.Reply e → Prog S ε α)

variable {S : Signature} {ε ε' α β : Type}

/-- One effect of a run together with its reply. -/
abbrev Event (S : Signature) := Σ e : S.Effect, S.Reply e

namespace Prog

def bind : Prog S ε α → (α → Prog S ε β) → Prog S ε β
  | ret a, f => f a
  | fail e, _ => fail e
  | panic m, _ => panic m
  | call e k, f => call e fun r => (k r).bind f

instance : Monad (Prog S ε) where
  pure := ret
  bind := bind

/-- Convert the error of a failing program. -/
def mapErr (f : ε → ε') : Prog S ε α → Prog S ε' α
  | ret a => ret a
  | fail e => fail (f e)
  | panic m => panic m
  | call e k => call e fun r => (k r).mapErr f

/-- Convert the error of a failing program to its result. -/
def unwrapOrElse (f : ε → α) : Prog S ε α → Prog S ε' α
  | ret a => ret a
  | fail e => ret (f e)
  | panic m => panic m
  | call e k => call e fun r => (k r).unwrapOrElse f

/-- Perform one effect and return its reply. -/
def perform (e : S.Effect) : Prog S ε (S.Reply e) := call e ret

/-- Unwrap a result, failing with its converted error. -/
def attempt (f : ε' → ε) : Except ε' α → Prog S ε α
  | .ok a => ret a
  | .error e => fail (f e)

/-- Unwrap an option, panicking with the message when there is no value. -/
def expect (message : String) : Option α → Prog S ε α
  | some a => ret a
  | none => panic message

def ofOutcome (f : ε' → ε) : Outcome ε' α → Prog S ε α
  | .returned a => ret a
  | .failed e => fail (f e)
  | .panicked m => panic m

@[simp] theorem pure_eq (a : α) : (pure a : Prog S ε α) = ret a := rfl

@[simp] theorem ret_bind (a : α) (f : α → Prog S ε β) : (ret a >>= f) = f a := rfl

@[simp] theorem fail_bind (e : ε) (f : α → Prog S ε β) : (fail e >>= f) = fail e := rfl

@[simp] theorem panic_bind (m : String) (f : α → Prog S ε β) : (panic m >>= f) = panic m := rfl

@[simp] theorem call_bind (e : S.Effect) (k : S.Reply e → Prog S ε α) (f : α → Prog S ε β) :
    (call e k >>= f) = call e fun r => k r >>= f := rfl

@[simp] theorem perform_bind (e : S.Effect) (f : S.Reply e → Prog S ε β) :
    (perform e >>= f) = call e f := rfl

@[simp] theorem attempt_ok (f : ε' → ε) (a : α) :
    (attempt f (.ok a) : Prog S ε α) = ret a := rfl

@[simp] theorem attempt_error (f : ε' → ε) (e : ε') :
    (attempt f (.error e) : Prog S ε α) = fail (f e) := rfl

@[simp] theorem expect_some (m : String) (a : α) :
    (expect m (some a) : Prog S ε α) = ret a := rfl

@[simp] theorem expect_none (m : String) : (expect m none : Prog S ε α) = panic m := rfl

@[simp] theorem mapErr_ret (f : ε → ε') (a : α) : (ret a : Prog S ε α).mapErr f = ret a := rfl

@[simp] theorem mapErr_fail (f : ε → ε') (e : ε) :
    (fail e : Prog S ε α).mapErr f = fail (f e) := rfl

@[simp] theorem mapErr_panic (f : ε → ε') (m : String) :
    (panic m : Prog S ε α).mapErr f = panic m := rfl

@[simp] theorem mapErr_call (f : ε → ε') (e : S.Effect) (k : S.Reply e → Prog S ε α) :
    (call e k).mapErr f = call e fun r => (k r).mapErr f := rfl

end Prog

/-! ### Running against a world -/

/-- How a state answers every effect. The input stands for everything the state
does not determine: what a peer answers, which step fails, what a clock shows. -/
structure World (S : Signature) (σ : Type) where
  Input : S.Effect → Type
  perform : (e : S.Effect) → Input e → σ → S.Reply e × σ

namespace Prog

variable {σ : Type}

/-- Run a program with one input for every effect. -/
def eval (W : World S σ) (env : (e : S.Effect) → W.Input e) : Prog S ε α → σ → Outcome ε α × σ
  | ret a, s => (.returned a, s)
  | fail e, s => (.failed e, s)
  | panic m, s => (.panicked m, s)
  | call e k, s => eval W env (k (W.perform e (env e) s).1) (W.perform e (env e) s).2

variable (W : World S σ) (env : (e : S.Effect) → W.Input e) (s : σ)

@[simp] theorem eval_ret (a : α) : (ret a : Prog S ε α).eval W env s = (.returned a, s) := rfl

@[simp] theorem eval_fail (e : ε) : (fail e : Prog S ε α).eval W env s = (.failed e, s) := rfl

@[simp] theorem eval_panic (m : String) :
    (panic m : Prog S ε α).eval W env s = (.panicked m, s) := rfl

theorem eval_call (e : S.Effect) (k : S.Reply e → Prog S ε α) :
    (call e k).eval W env s =
      (k (W.perform e (env e) s).1).eval W env (W.perform e (env e) s).2 := rfl

end Prog

/-! ### Traces under arbitrary replies -/

/-- The program, given the replies of the trace, ends with the outcome. -/
inductive Yields : Prog S ε α → List (Event S) → Outcome ε α → Prop
  | ret (a : α) : Yields (.ret a) [] (.returned a)
  | fail (e : ε) : Yields (.fail e) [] (.failed e)
  | panic (m : String) : Yields (.panic m) [] (.panicked m)
  | call {e : S.Effect} {k : S.Reply e → Prog S ε α} (r : S.Reply e) {t : List (Event S)}
      {o : Outcome ε α} (tail : Yields (k r) t o) : Yields (.call e k) (⟨e, r⟩ :: t) o

namespace Yields

variable {t : List (Event S)} {o : Outcome ε α}

@[simp] theorem ret_iff {a : α} : Yields (.ret a : Prog S ε α) t o ↔ t = [] ∧ o = .returned a := by
  constructor
  · intro h; cases h; exact ⟨rfl, rfl⟩
  · rintro ⟨rfl, rfl⟩; exact .ret a

@[simp] theorem fail_iff {e : ε} : Yields (.fail e : Prog S ε α) t o ↔ t = [] ∧ o = .failed e := by
  constructor
  · intro h; cases h; exact ⟨rfl, rfl⟩
  · rintro ⟨rfl, rfl⟩; exact .fail e

@[simp] theorem panic_iff {m : String} :
    Yields (.panic m : Prog S ε α) t o ↔ t = [] ∧ o = .panicked m := by
  constructor
  · intro h; cases h; exact ⟨rfl, rfl⟩
  · rintro ⟨rfl, rfl⟩; exact .panic m

@[simp] theorem call_iff {e : S.Effect} {k : S.Reply e → Prog S ε α} :
    Yields (.call e k) t o ↔ ∃ r t', t = ⟨e, r⟩ :: t' ∧ Yields (k r) t' o := by
  constructor
  · intro h
    cases h with
    | call r tail => exact ⟨r, _, rfl, tail⟩
  · rintro ⟨r, t', rfl, h⟩; exact .call r h

/-- A program with converted errors yields the converted outcome. -/
theorem mapErr_iff {p : Prog S ε α} {f : ε → ε'} {o : Outcome ε' α} :
    Yields (p.mapErr f) t o ↔ (∃ a, o = .returned a ∧ Yields p t (.returned a)) ∨
      (∃ e, o = .failed (f e) ∧ Yields p t (.failed e)) ∨
      ∃ m, o = .panicked m ∧ Yields p t (.panicked m) := by
  induction p generalizing t with
  | ret a => simp; tauto
  | fail e => simp; tauto
  | panic m => simp; tauto
  | call e k ih =>
    simp only [Prog.mapErr_call, call_iff, ih]
    constructor
    · rintro ⟨r, t', rfl, h⟩
      rcases h with ⟨a, rfl, h⟩ | ⟨e, rfl, h⟩ | ⟨m, rfl, h⟩
      · exact .inl ⟨a, rfl, r, t', rfl, h⟩
      · exact .inr (.inl ⟨e, rfl, r, t', rfl, h⟩)
      · exact .inr (.inr ⟨m, rfl, r, t', rfl, h⟩)
    · rintro (⟨a, rfl, r, t', rfl, h⟩ | ⟨e, rfl, r, t', rfl, h⟩ | ⟨m, rfl, r, t', rfl, h⟩)
      · exact ⟨r, t', rfl, .inl ⟨a, rfl, h⟩⟩
      · exact ⟨r, t', rfl, .inr (.inl ⟨e, rfl, h⟩)⟩
      · exact ⟨r, t', rfl, .inr (.inr ⟨m, rfl, h⟩)⟩

/-- A program whose errors are converted returns its result or the converted error. -/
theorem unwrapOrElse_returned_iff {p : Prog S ε α} {f : ε → α} {a : α} :
    Yields (p.unwrapOrElse f : Prog S ε' α) t (.returned a) ↔
      Yields p t (.returned a) ∨ ∃ e, a = f e ∧ Yields p t (.failed e) := by
  induction p generalizing t with
  | ret b => simp [Prog.unwrapOrElse]
  | fail e => simp [Prog.unwrapOrElse, and_comm]
  | panic m => simp [Prog.unwrapOrElse]
  | call e k ih =>
    simp only [Prog.unwrapOrElse, call_iff, ih]
    constructor
    · rintro ⟨r, t', rfl, h | ⟨e, rfl, h⟩⟩
      · exact .inl ⟨r, t', rfl, h⟩
      · exact .inr ⟨e, rfl, r, t', rfl, h⟩
    · rintro (⟨r, t', rfl, h⟩ | ⟨e, rfl, r, t', rfl, h⟩)
      · exact ⟨r, t', rfl, .inl h⟩
      · exact ⟨r, t', rfl, .inr ⟨e, rfl, h⟩⟩

theorem unwrapOrElse_panicked {p : Prog S ε α} {f : ε → α} {m : String}
    (h : Yields p t (.panicked m)) : Yields (p.unwrapOrElse f : Prog S ε' α) t (.panicked m) := by
  induction p generalizing t with
  | ret b => simp at h
  | fail e => simp at h
  | panic m' => simpa [Prog.unwrapOrElse] using h
  | call e k ih =>
    obtain ⟨r, t', rfl, h'⟩ := call_iff.mp h
    exact .call r (ih r h')

/-- A program whose errors are converted does not fail. -/
theorem of_unwrapOrElse {p : Prog S ε α} {f : ε → α} {o : Outcome ε' α}
    (h : Yields (p.unwrapOrElse f) t o) : (∃ a, o = .returned a ∧ Yields p t (.returned a)) ∨
      (∃ e, o = .returned (f e) ∧ Yields p t (.failed e)) ∨
      ∃ m, o = .panicked m ∧ Yields p t (.panicked m) := by
  induction p generalizing t with
  | ret a =>
    obtain ⟨rfl, rfl⟩ := ret_iff.mp h
    exact .inl ⟨a, rfl, .ret a⟩
  | fail e =>
    obtain ⟨rfl, rfl⟩ := ret_iff.mp h
    exact .inr (.inl ⟨e, rfl, .fail e⟩)
  | panic m =>
    obtain ⟨rfl, rfl⟩ := panic_iff.mp h
    exact .inr (.inr ⟨m, rfl, .panic m⟩)
  | call e k ih =>
    obtain ⟨r, t', rfl, h'⟩ := call_iff.mp h
    rcases ih r h' with ⟨a, rfl, hy⟩ | ⟨e, rfl, hy⟩ | ⟨m, rfl, hy⟩
    · exact .inl ⟨a, rfl, .call r hy⟩
    · exact .inr (.inl ⟨e, rfl, .call r hy⟩)
    · exact .inr (.inr ⟨m, rfl, .call r hy⟩)

/-- A composed program runs its parts one after the other, unless the first ends badly. -/
theorem bind_iff {p : Prog S ε α} {f : α → Prog S ε β} {o : Outcome ε β} :
    Yields (p >>= f) t o ↔
      (∃ a t₁ t₂, t = t₁ ++ t₂ ∧ Yields p t₁ (.returned a) ∧ Yields (f a) t₂ o) ∨
      (∃ e, o = .failed e ∧ Yields p t (.failed e)) ∨
      ∃ m, o = .panicked m ∧ Yields p t (.panicked m) := by
  induction p generalizing t with
  | ret a => simp
  | fail e => simp; tauto
  | panic m => simp; tauto
  | call e k ih =>
    simp only [Prog.call_bind, call_iff, ih]
    constructor
    · rintro ⟨r, t', rfl, ⟨a, t₁, t₂, rfl, h₁, h₂⟩ | ⟨e, rfl, h⟩ | ⟨m, rfl, h⟩⟩
      · exact .inl ⟨a, ⟨_, r⟩ :: t₁, t₂, rfl, ⟨r, t₁, rfl, h₁⟩, h₂⟩
      · exact .inr (.inl ⟨e, rfl, r, t', rfl, h⟩)
      · exact .inr (.inr ⟨m, rfl, r, t', rfl, h⟩)
    · rintro (⟨a, t₁, t₂, rfl, ⟨r, t', rfl, h₁⟩, h₂⟩ | ⟨e, rfl, r, t', rfl, h⟩ |
        ⟨m, rfl, r, t', rfl, h⟩)
      · exact ⟨r, t' ++ t₂, rfl, .inl ⟨a, t', t₂, rfl, h₁, h₂⟩⟩
      · exact ⟨r, t', rfl, .inr (.inl ⟨e, rfl, h⟩)⟩
      · exact ⟨r, t', rfl, .inr (.inr ⟨m, rfl, h⟩)⟩

theorem bind_returned_iff {p : Prog S ε α} {f : α → Prog S ε β} {b : β} :
    Yields (p >>= f) t (.returned b) ↔
      ∃ a t₁ t₂, t = t₁ ++ t₂ ∧ Yields p t₁ (.returned a) ∧ Yields (f a) t₂ (.returned b) := by
  simp [bind_iff]

@[simp] theorem attempt_returned_iff {f : ε' → ε} {x : Except ε' α} {a : α} :
    Yields (Prog.attempt f x : Prog S ε α) t (.returned a) ↔ t = [] ∧ x = .ok a := by
  cases x with
  | error e => simp
  | ok b => simp [eq_comm]

@[simp] theorem mapErr_returned_iff {p : Prog S ε α} {f : ε → ε'} {a : α} :
    Yields (p.mapErr f) t (.returned a) ↔ Yields p t (.returned a) := by
  simp [mapErr_iff]

/-- A result that is unwrapped first is there. -/
theorem attempt_bind_returned {f : ε' → ε} {x : Except ε' α} {g : α → Prog S ε β} {b : β}
    (h : Yields (Prog.attempt f x >>= g) t (.returned b)) :
    ∃ a, x = .ok a ∧ Yields (g a) t (.returned b) := by
  obtain ⟨a, t₁, t₂, rfl, ha, hg⟩ := bind_returned_iff.mp h
  obtain ⟨rfl, hx⟩ := attempt_returned_iff.mp ha
  exact ⟨a, hx, hg⟩

/-- Running against a world is one of the runs with arbitrary replies. -/
theorem of_eval {σ : Type} (W : World S σ) (env : (e : S.Effect) → W.Input e) (p : Prog S ε α)
    (s : σ) : ∃ t, Yields p t (p.eval W env s).1 := by
  induction p generalizing s with
  | ret a => exact ⟨[], .ret a⟩
  | fail e => exact ⟨[], .fail e⟩
  | panic m => exact ⟨[], .panic m⟩
  | call e k ih =>
    obtain ⟨t, ht⟩ := ih (W.perform e (env e) s).1 (W.perform e (env e) s).2
    exact ⟨_, .call _ ht⟩

end Yields

end Foundation
