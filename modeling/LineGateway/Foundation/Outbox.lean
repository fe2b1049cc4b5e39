import LineGateway.Foundation.Run

/-! An outbox: rows are appended to a queue, and a single sender delivers the
queued rows in batches to a receiver that may fail, with crashes in between. The
sender reads every queued row, sends them, and removes them once acknowledged.
The log of all rows ever enqueued is kept here to state what delivery means.
Proved: a removed row lies in an acknowledged batch; in a run without lost
acknowledgements the acknowledged batches followed by the queue are the log; and a
batch read again without a removal in between is extended by the rows enqueued. -/

namespace Foundation

/-- How far the delivery of a batch has come; the batch ends before `upto`. -/
inductive Stage
  | idle
  | sending (upto : ℕ)
  | delivered (upto : ℕ)

/-- A queue with its whole history. Batches are spans of the log. -/
structure Outbox (ρ : Type*) where
  log : List ρ
  removed : ℕ
  stage : Stage
  acked : List (ℕ × ℕ)
  applied : List (ℕ × ℕ)

namespace Outbox

variable {ρ : Type*}

inductive Event (ρ : Type*)
  | enqueue (r : ρ)
  | read
  | acknowledge
  | refuse (applied : Bool)
  | remove
  | keep
  | crash (applied : Bool)

def initial : Outbox ρ := ⟨[], 0, .idle, [], []⟩

/-- The rows of a span of the log. -/
def rows (log : List ρ) (sp : ℕ × ℕ) : List ρ := (log.take sp.2).drop sp.1

/-- The rows still in the queue. -/
def queued (o : Outbox ρ) : List ρ := o.log.drop o.removed

/-- The end of the batch being sent, if any. -/
def upto (o : Outbox ρ) : ℕ := match o.stage with
  | .idle => o.removed
  | .sending n | .delivered n => n

/-- The end of the acknowledged prefix. -/
def cleared (o : Outbox ρ) : ℕ := match o.stage with
  | .delivered n => n
  | _ => o.removed

/-- A batch whose sender is gone may still have been applied. -/
def lose (o : Outbox ρ) (applied : Bool) : Outbox ρ :=
  { o with
    stage := .idle
    applied := match o.stage, applied with
      | .sending n, true => o.applied ++ [(o.removed, n)]
      | _, _ => o.applied }

inductive Step : Outbox ρ → Event ρ → Outbox ρ → Prop
  | enqueue (o : Outbox ρ) (r : ρ) : Step o (.enqueue r) { o with log := o.log ++ [r] }
  | read (o : Outbox ρ) (h : o.stage = .idle) :
      Step o .read { o with stage := .sending o.log.length }
  | acknowledge (o : Outbox ρ) (n : ℕ) (h : o.stage = .sending n) :
      Step o .acknowledge { o with
        stage := .delivered n
        acked := o.acked ++ [(o.removed, n)]
        applied := o.applied ++ [(o.removed, n)] }
  | refuse (o : Outbox ρ) (n : ℕ) (applied : Bool) (h : o.stage = .sending n) :
      Step o (.refuse applied) (o.lose applied)
  | remove (o : Outbox ρ) (n : ℕ) (h : o.stage = .delivered n) :
      Step o .remove { o with stage := .idle, removed := n }
  | keep (o : Outbox ρ) (n : ℕ) (h : o.stage = .delivered n) :
      Step o .keep { o with stage := .idle }
  | crash (o : Outbox ρ) (applied : Bool) : Step o (.crash applied) (o.lose applied)

/-! ### No row is lost -/

/-- Spans lie in the log, and every row before `cleared` lies in an acknowledged one. -/
structure Inv (o : Outbox ρ) : Prop where
  removed_le : o.removed ≤ o.upto
  upto_le : o.upto ≤ o.log.length
  acked_le : ∀ sp ∈ o.acked, sp.2 ≤ o.log.length
  applied_le : ∀ sp ∈ o.applied, sp.2 ≤ o.log.length
  covered : ∀ k < o.cleared, ∃ sp ∈ o.acked, sp.1 ≤ k ∧ k < sp.2

theorem initial_inv : Inv (initial : Outbox ρ) where
  removed_le := le_rfl
  upto_le := le_rfl
  acked_le := by simp [initial]
  applied_le := by simp [initial]
  covered := by intro k hk; simp [initial, cleared] at hk

theorem forall_mem_snoc {α : Type*} {p : α → Prop} {xs : List α} {x : α} (h : ∀ y ∈ xs, p y)
    (hx : p x) : ∀ y ∈ xs ++ [x], p y := by
  intro y hy
  rcases List.mem_append.mp hy with hy | hy
  · exact h y hy
  · exact List.mem_singleton.mp hy ▸ hx

theorem Inv.lose {o : Outbox ρ} (h : Inv o) (applied : Bool) : Inv (o.lose applied) where
  removed_le := le_rfl
  upto_le := h.removed_le.trans h.upto_le
  acked_le := h.acked_le
  applied_le := by
    have hle := h.upto_le
    simp only [Outbox.lose]
    split
    · next n hst =>
      simp only [upto, hst] at hle
      exact forall_mem_snoc h.applied_le hle
    · exact h.applied_le
  covered := by
    intro k hk
    apply h.covered k
    have hr := h.removed_le
    simp only [cleared, Outbox.lose] at hk ⊢
    unfold upto at hr
    cases hst : o.stage with
    | idle => simpa [hst] using hk
    | sending n => simpa [hst] using hk
    | delivered n => simp only [hst] at hr; exact lt_of_lt_of_le hk hr

theorem Step.inv {o o' : Outbox ρ} {e : Event ρ} (hs : Step o e o') (h : Inv o) : Inv o' := by
  obtain ⟨h₁, h₂, h₃, h₅, h₄⟩ := h
  cases hs with
  | enqueue r =>
    exact ⟨h₁, h₂.trans (by simp), fun sp hsp => (h₃ sp hsp).trans (by simp),
      fun sp hsp => (h₅ sp hsp).trans (by simp), h₄⟩
  | read hst =>
    simp only [upto, cleared, hst] at h₁ h₂ h₄
    exact ⟨h₂, le_rfl, h₃, h₅, h₄⟩
  | acknowledge n hst =>
    simp only [upto, cleared, hst] at h₁ h₂ h₄
    refine ⟨h₁, h₂, forall_mem_snoc h₃ h₂, forall_mem_snoc h₅ h₂, ?_⟩
    · intro k hk
      simp only [cleared] at hk
      by_cases hkr : k < o.removed
      · obtain ⟨sp, hsp, hle⟩ := h₄ k hkr
        exact ⟨sp, List.mem_append_left _ hsp, hle⟩
      · exact ⟨(o.removed, n), by simp, by simpa using hkr, hk⟩
  | refuse n applied hst => exact Inv.lose ⟨h₁, h₂, h₃, h₅, h₄⟩ applied
  | remove n hst =>
    simp only [upto, cleared, hst] at h₁ h₂ h₄
    exact ⟨le_rfl, h₂, h₃, h₅, h₄⟩
  | keep n hst =>
    simp only [upto, cleared, hst] at h₁ h₂ h₄
    exact ⟨le_rfl, h₁.trans h₂, h₃, h₅, fun k hk => h₄ k (lt_of_lt_of_le hk h₁)⟩
  | crash applied => exact Inv.lose ⟨h₁, h₂, h₃, h₅, h₄⟩ applied

theorem run_inv {o o' : Outbox ρ} {es : List (Event ρ)} (hr : Run Step o es o') (h : Inv o) :
    Inv o' := hr.invariant (fun _ _ _ h hs => hs.inv h) h

/-- Every row ever enqueued is queued or lies in an acknowledged batch. -/
theorem Inv.delivered_or_queued {o : Outbox ρ} (h : Inv o) (k : ℕ) :
    o.removed ≤ k ∨ ∃ sp ∈ o.acked, sp.1 ≤ k ∧ k < sp.2 := by
  rcases Nat.lt_or_ge k o.removed with hlt | hge
  · refine .inr (h.covered k (lt_of_lt_of_le hlt ?_))
    have hr := h.removed_le
    unfold upto at hr
    unfold cleared
    split <;> simp_all
  · exact .inl hge

/-! ### Exactly once -/

/-- Nothing is applied without an acknowledgement, and every acknowledged batch is removed. -/
def Clean (o : Outbox ρ) : Event ρ → Prop
  | .refuse applied => applied = false
  | .keep => False
  | .crash applied => applied = false ∧ ∀ n, o.stage ≠ .delivered n
  | _ => True

/-- The acknowledged batches are the cleared prefix of the log, in order. -/
structure Exact (o : Outbox ρ) : Prop extends Inv o where
  acked_eq : o.acked.flatMap (rows o.log) = o.log.take o.cleared
  applied_eq : o.applied = o.acked

theorem initial_exact : Exact (initial : Outbox ρ) where
  toInv := initial_inv
  acked_eq := rfl
  applied_eq := rfl

/-- A span inside the log is not changed by rows enqueued later. -/
theorem rows_append {log : List ρ} {sp : ℕ × ℕ} (h : sp.2 ≤ log.length) (rs : List ρ) :
    rows (log ++ rs) sp = rows log sp := by
  simp [rows, List.take_append_of_le_length h]

/-- A row of a span is found in it at its distance from the beginning. -/
theorem rows_getElem? {log : List ρ} {sp : ℕ × ℕ} {k : ℕ} (hlo : sp.1 ≤ k) (hhi : k < sp.2) :
    (rows log sp)[k - sp.1]? = log[k]? := by
  rw [rows, List.getElem?_drop, Nat.add_sub_cancel' hlo, List.getElem?_take_of_lt hhi]

theorem Inv.cleared_le {o : Outbox ρ} (h : Inv o) : o.cleared ≤ o.log.length := by
  have h₁ := h.removed_le
  have h₂ := h.upto_le
  unfold upto at h₁ h₂
  unfold cleared
  cases hst : o.stage with
  | idle => simpa [hst] using h₂
  | sending n => simp only [hst] at h₁ h₂; exact h₁.trans h₂
  | delivered n => simpa [hst] using h₂

/-- Rows of the spans already acknowledged are not changed by an enqueue. -/
theorem Exact.enqueue {o : Outbox ρ} (h : Exact o) (r : ρ) :
    Exact { o with log := o.log ++ [r] } := by
  refine ⟨(Step.enqueue o r).inv h.toInv, ?_, h.applied_eq⟩
  have hrows : o.acked.flatMap (rows (o.log ++ [r])) = o.acked.flatMap (rows o.log) :=
    List.flatMap_congr fun sp hsp => rows_append (h.acked_le sp hsp) [r]
  exact hrows.trans (h.acked_eq.trans (List.take_append_of_le_length h.cleared_le).symm)

/-- An acknowledgement extends the acknowledged batches by the batch in flight. -/
theorem Exact.acknowledge {o : Outbox ρ} {n : ℕ} (h : Exact o) (hst : o.stage = .sending n) :
    o.acked.flatMap (rows o.log) ++ rows o.log (o.removed, n) = o.log.take n := by
  have h₁ := h.removed_le
  have h₅ := h.acked_eq
  simp only [upto, cleared, hst] at h₁ h₅
  rw [h₅, rows]
  have := List.take_append_drop o.removed (o.log.take n)
  rwa [List.take_take, min_eq_left h₁] at this

theorem Step.exact {o o' : Outbox ρ} {e : Event ρ} (hs : Step o e o') (h : Exact o)
    (hc : Clean o e) : Exact o' := by
  have hinv := hs.inv h.toInv
  have h₅ := h.acked_eq
  cases hs with
  | enqueue r => exact h.enqueue r
  | read hst => exact ⟨hinv, by simpa [cleared, hst] using h₅, h.applied_eq⟩
  | acknowledge n hst =>
    refine ⟨hinv, ?_, by simp [h.applied_eq]⟩
    simpa [cleared] using h.acknowledge hst
  | refuse n applied hst =>
    cases hc
    exact ⟨hinv, by simpa [cleared, lose, hst] using h₅, by simpa [lose, hst] using h.applied_eq⟩
  | remove n hst => exact ⟨hinv, by simpa [cleared, hst] using h₅, h.applied_eq⟩
  | keep n hst => exact hc.elim
  | crash applied =>
    obtain ⟨rfl, hnd⟩ := hc
    have hcl : o.cleared = o.removed := by
      unfold cleared; split
      · next n hst => exact absurd hst (hnd n)
      · rfl
    rw [hcl] at h₅
    refine ⟨hinv, h₅, ?_⟩
    unfold lose
    cases o.stage <;> exact h.applied_eq

theorem run_exact {o o' : Outbox ρ} {es : List (Event ρ)} (hr : Run (guarded Step Clean) o es o')
    (h : Exact o) : Exact o' := hr.invariant (fun _ _ _ h hs => hs.1.exact h hs.2) h

/-- The acknowledged rows followed by the rows beyond them are the log. -/
theorem Exact.acked_append {o : Outbox ρ} (h : Exact o) :
    o.acked.flatMap (rows o.log) ++ o.log.drop o.cleared = o.log := by
  rw [h.acked_eq, List.take_append_drop]

/-! ### Reading a batch again -/

/-- The rows enqueued by a list of events. -/
def enqueued : List (Event ρ) → List ρ := List.filterMap fun
  | .enqueue r => some r
  | _ => none

theorem Step.log_eq {o o' : Outbox ρ} {e : Event ρ} (hs : Step o e o') :
    o'.log = o.log ++ enqueued [e] := by
  cases hs <;> simp [enqueued, lose]

theorem run_log {o o' : Outbox ρ} {es : List (Event ρ)} (hr : Run Step o es o') :
    o'.log = o.log ++ enqueued es := by
  induction hr with
  | nil => simp [enqueued]
  | @cons s t u e es head _ ih =>
    have hcons : enqueued (e :: es) = enqueued [e] ++ enqueued es := by
      simp only [enqueued, ← List.filterMap_append, List.singleton_append]
    rw [ih, head.log_eq, hcons, List.append_assoc]

theorem Step.removed_eq {o o' : Outbox ρ} {e : Event ρ} (hs : Step o e o') (he : e ≠ .remove) :
    o'.removed = o.removed := by
  cases hs with
  | remove => exact absurd rfl he
  | _ => rfl

/-- Without a removal, the queue is extended by exactly the rows enqueued. -/
theorem run_queued {o o' : Outbox ρ} {es : List (Event ρ)}
    (hr : Run (guarded Step fun _ e => e ≠ .remove) o es o') (h : Inv o) :
    o'.queued = o.queued ++ enqueued es := by
  have hremoved : o'.removed = o.removed :=
    hr.invariant (I := fun s => s.removed = o.removed)
      (fun _ _ _ hI hs => (hs.1.removed_eq hs.2).trans hI) rfl
  rw [queued, queued, hremoved, run_log hr.of_guarded,
    List.drop_append_of_le_length (h.removed_le.trans h.upto_le)]

end Outbox

end Foundation
