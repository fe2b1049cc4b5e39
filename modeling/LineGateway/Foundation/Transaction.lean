import Mathlib.Tactic

/-! Atomic transactions. The body of a transaction is a sequence of accesses to a
store, any of which may fail under an environment that decides the faults. Run as a
transaction it takes effect as a whole or leaves the store as it was. A body that goes
along with a map of stores does so as a transaction. -/

namespace Foundation

/-- Accesses to a store `σ` with errors `ε`, under faults decided by `φ`. -/
def Txn (φ ε σ α : Type) : Type := φ → σ → Except ε (α × σ)

namespace Txn

variable {φ ε σ α β : Type}

def bind (t : Txn φ ε σ α) (f : α → Txn φ ε σ β) : Txn φ ε σ β := fun e s =>
  match t e s with
  | .error err => .error err
  | .ok (a, s') => f a e s'

instance : Monad (Txn φ ε σ) where
  pure a := fun _ s => .ok (a, s)
  bind := bind

def read : Txn φ ε σ σ := fun _ s => .ok (s, s)

def write (s : σ) : Txn φ ε σ Unit := fun _ _ => .ok ((), s)

def fail (err : ε) : Txn φ ε σ α := fun _ _ => .error err

/-- Fail with the fault that the environment decides for a call, if any. -/
def check (fault : φ → Option ε) : Txn φ ε σ Unit := fun e s =>
  match fault e with
  | some err => .error err
  | none => .ok ((), s)

variable {t : Txn φ ε σ α} {e : φ} {s s' : σ} {a : α} {b : β}

theorem bind_ok_iff {f : α → Txn φ ε σ β} :
    (t >>= f) e s = .ok (b, s') ↔ ∃ a s₁, t e s = .ok (a, s₁) ∧ f a e s₁ = .ok (b, s') := by
  change Txn.bind t f e s = _ ↔ _
  unfold bind
  cases ht : t e s with
  | error err => simp
  | ok r =>
    obtain ⟨a, s₁⟩ := r
    simp

@[simp] theorem pure_ok_iff {a' : α} :
    (pure a' : Txn φ ε σ α) e s = .ok (a, s') ↔ a' = a ∧ s = s' := by
  change Except.ok (a', s) = .ok (a, s') ↔ _
  simp

@[simp] theorem read_ok_iff {r : σ} : (read : Txn φ ε σ σ) e s = .ok (r, s') ↔ s = r ∧ s = s' := by
  simp [read]

@[simp] theorem write_ok_iff {s₁ : σ} {u : Unit} :
    (write s₁ : Txn φ ε σ Unit) e s = .ok (u, s') ↔ s₁ = s' := by
  simp [write]

@[simp] theorem fail_ok_iff {err : ε} : (fail err : Txn φ ε σ α) e s = .ok (a, s') ↔ False := by
  simp [fail]

@[simp] theorem check_ok_iff {fault : φ → Option ε} {u : Unit} :
    (check fault : Txn φ ε σ Unit) e s = .ok (u, s') ↔ fault e = none ∧ s = s' := by
  unfold check
  cases fault e <;> simp

/-- The result and the store of a body run as one transaction. -/
def atomically (t : Txn φ ε σ α) (e : φ) (s : σ) : Except ε α × σ :=
  match t e s with
  | .error err => (.error err, s)
  | .ok (a, s') => (.ok a, s')

/-- A transaction without writes. -/
def readOnly (t : Txn φ ε σ α) (e : φ) (s : σ) : Except ε α := (t.atomically e s).1

theorem atomically_ok_iff : t.atomically e s = (.ok a, s') ↔ t e s = .ok (a, s') := by
  unfold atomically
  cases t e s <;> simp [Prod.ext_iff]

/-- A failed transaction changes nothing. -/
theorem atomically_cases (t : Txn φ ε σ α) (e : φ) (s : σ) :
    (∃ err, t.atomically e s = (.error err, s)) ∨
      ∃ a s', t.atomically e s = (.ok a, s') ∧ t e s = .ok (a, s') := by
  unfold atomically
  cases t e s with
  | error err => exact .inl ⟨err, rfl⟩
  | ok r => exact .inr ⟨r.1, r.2, rfl, rfl⟩

theorem readOnly_ok_iff : t.readOnly e s = .ok a ↔ ∃ s', t e s = .ok (a, s') := by
  unfold readOnly atomically
  cases t e s with
  | error err => simp
  | ok r => simp [Prod.ext_iff]

/-! ### Maps of stores -/

/-- On the image of a store, the body does what it does on the store. -/
def Commutes (g : σ → σ) (e : φ) (t : Txn φ ε σ α) : Prop :=
  ∀ s, t e (g s) = (t e s).map fun r => (r.1, g r.2)

section Commutes

variable {g : σ → σ}

theorem commutes_pure (a : α) : Commutes g e (pure a : Txn φ ε σ α) := fun _ => rfl

theorem commutes_check (fault : φ → Option ε) : Commutes g e (check fault : Txn φ ε σ Unit) := by
  intro s
  unfold check
  cases fault e <;> rfl

theorem Commutes.bind {f : α → Txn φ ε σ β} (ht : Commutes g e t) (hf : ∀ a, Commutes g e (f a)) :
    Commutes g e (t >>= f) := by
  intro s
  change Txn.bind t f e (g s) = (Txn.bind t f e s).map _
  unfold Txn.bind
  rw [ht s]
  cases t e s with
  | error err => rfl
  | ok r => exact hf r.1 r.2

theorem commutes_read_bind {f : σ → Txn φ ε σ β}
    (h : ∀ s, f (g s) e (g s) = (f s e s).map fun r => (r.1, g r.2)) :
    Commutes g e (read >>= f) := h

theorem Commutes.atomically (h : Commutes g e t) (s : σ) :
    t.atomically e (g s) = ((t.atomically e s).1, g (t.atomically e s).2) := by
  unfold Txn.atomically
  rw [h s]
  cases t e s <;> rfl

theorem Commutes.readOnly (h : Commutes g e t) (s : σ) : t.readOnly e (g s) = t.readOnly e s := by
  rw [Txn.readOnly, Txn.readOnly, h.atomically s]

end Commutes

end Txn

end Foundation
