import LineGateway.Foundation.Behaviour

/-! Programs part of the way, and what they guarantee. A program goes on after a prefix of
its effects with what is left of it. A guarantee is a protocol with a condition on how the
program ends: every effect is allowed in the phase it is performed in, and the outcome fits
the phase at the end. What a program guarantees holds after every prefix of its effects,
so it holds of programs that are abandoned. -/

namespace Foundation

variable {S : Signature} {ε ε' α β φ : Type}

/-! ### Part of the way -/

/-- What is left of a program after the effects and replies of a trace. -/
inductive Prog.After (p : Prog S ε α) : List (Event S) → Prog S ε α → Prop
  | start : After p [] p
  | reply {t : List (Event S)} {e : S.Effect} {k : S.Reply e → Prog S ε α}
      (h : After p t (.call e k)) (r : S.Reply e) : After p (t ++ [⟨e, r⟩]) (k r)

namespace Prog.After

variable {p q : Prog S ε α} {t t' : List (Event S)}

/-- What the rest yields, the program yields after the trace. -/
theorem yields (h : p.After t q) {o : Outcome ε α} (hq : Yields q t' o) :
    Yields p (t ++ t') o := by
  induction h generalizing t' with
  | start => exact hq
  | reply h r ih =>
    rw [List.append_assoc, List.singleton_append]
    exact ih (.call r hq)

theorem trans {r : Prog S ε α} (h : p.After t q) (h' : q.After t' r) : p.After (t ++ t') r := by
  induction h' with
  | start => exact t.append_nil.symm ▸ h
  | reply h' r ih =>
    rw [← List.append_assoc]
    exact .reply ih r

theorem call {e : S.Effect} {k : S.Reply e → Prog S ε α} (r : S.Reply e) (h : (k r).After t q) :
    (Prog.call e k).After (⟨e, r⟩ :: t) q := .trans (.reply .start r) h

theorem returned {a : α} (h : p.After t (.ret a)) : Yields p t (.returned a) :=
  t.append_nil ▸ h.yields (.ret a)

theorem panicked {m : String} (h : p.After t (.panic m)) : Yields p t (.panicked m) :=
  t.append_nil ▸ h.yields (.panic m)

theorem of_returned {a : α} (h : Yields p t (.returned a)) : p.After t (.ret a) := by
  induction p generalizing t with
  | ret b =>
    obtain ⟨rfl, hb⟩ := Yields.ret_iff.mp h
    cases hb
    exact .start
  | fail e => cases h
  | panic m => cases h
  | call e k ih =>
    obtain ⟨r, t', rfl, h'⟩ := Yields.call_iff.mp h
    exact .call r (ih r h')

/-- The first part of a sequence goes on, then the second. -/
theorem bind {p : Prog S ε α} {f : α → Prog S ε β} {q : Prog S ε β} {a : α} {t t' : List (Event S)}
    (h : p.After t (.ret a)) (hf : (f a).After t' q) : (p >>= f).After (t ++ t') q := by
  refine .trans ?_ hf
  show (p >>= f).After t ((.ret a : Prog S ε α) >>= f)
  generalize (.ret a : Prog S ε α) = p' at h
  induction h with
  | start => exact .start
  | reply h r ih => exact .reply ih r

theorem mapErr {p q : Prog S ε α} {f : ε → ε'} (h : p.After t q) :
    (p.mapErr f).After t (q.mapErr f) := by
  induction h with
  | start => exact .start
  | reply h r ih => exact .reply ih r

end Prog.After

/-! ### Guarantees -/

/-- The phase after a trace. -/
def Protocol.after (P : Protocol S φ) (m : φ) (t : List (Event S)) : φ :=
  t.foldl (fun m e => P.next m e.1 e.2) m

theorem Protocol.after_append (P : Protocol S φ) (m : φ) (t t' : List (Event S)) :
    P.after m (t ++ t') = P.after (P.after m t) t' := List.foldl_append

/-- The phase is the trace so far, and every effect is allowed. -/
def Protocol.trace : Protocol S (List (Event S)) where
  allowed _ _ := True
  next m e r := m ++ [⟨e, r⟩]

/-- Every effect is allowed, and the phase the program ends in fits its outcome. -/
def Prog.Meets (P : Protocol S φ) (Q : Outcome ε α → φ → Prop) : Prog S ε α → φ → Prop
  | .ret a, m => Q (.returned a) m
  | .fail e, m => Q (.failed e) m
  | .panic s, m => Q (.panicked s) m
  | .call e k, m => P.allowed m e ∧ ∀ r, (k r).Meets P Q (P.next m e r)

namespace Prog.Meets

variable {P : Protocol S φ} {Q : Outcome ε α → φ → Prop} {R : Outcome ε β → φ → Prop} {m : φ}

theorem call {e : S.Effect} {k : S.Reply e → Prog S ε α} (he : P.allowed m e)
    (hk : ∀ r, (k r).Meets P Q (P.next m e r)) : (Prog.call e k).Meets P Q m := ⟨he, hk⟩

/-- The continuation is checked in the phases the first part may return in. -/
theorem bind {p : Prog S ε α} {f : α → Prog S ε β} (hp : p.Meets P Q m)
    (hret : ∀ a m', Q (.returned a) m' → (f a).Meets P R m')
    (hfail : ∀ e m', Q (.failed e) m' → R (.failed e) m')
    (hpanic : ∀ s m', Q (.panicked s) m' → R (.panicked s) m') : (p >>= f).Meets P R m := by
  induction p generalizing m with
  | ret a => exact hret a m hp
  | fail e => exact hfail e m hp
  | panic s => exact hpanic s m hp
  | call e k ih => exact ⟨hp.1, fun r => ih r (hp.2 r)⟩

theorem mapErr {p : Prog S ε α} {f : ε → ε'} {R : Outcome ε' α → φ → Prop} (hp : p.Meets P Q m)
    (hret : ∀ a m', Q (.returned a) m' → R (.returned a) m')
    (hfail : ∀ e m', Q (.failed e) m' → R (.failed (f e)) m')
    (hpanic : ∀ s m', Q (.panicked s) m' → R (.panicked s) m') : (p.mapErr f).Meets P R m := by
  induction p generalizing m with
  | ret a => exact hret a m hp
  | fail e => exact hfail e m hp
  | panic s => exact hpanic s m hp
  | call e k ih => exact ⟨hp.1, fun r => ih r (hp.2 r)⟩

theorem unwrapOrElse {p : Prog S ε α} {f : ε → α} {R : Outcome ε' α → φ → Prop}
    (hp : p.Meets P Q m) (hret : ∀ a m', Q (.returned a) m' → R (.returned a) m')
    (hfail : ∀ e m', Q (.failed e) m' → R (.returned (f e)) m')
    (hpanic : ∀ s m', Q (.panicked s) m' → R (.panicked s) m') :
    (p.unwrapOrElse f : Prog S ε' α).Meets P R m := by
  induction p generalizing m with
  | ret a => exact hret a m hp
  | fail e => exact hfail e m hp
  | panic s => exact hpanic s m hp
  | call e k ih => exact ⟨hp.1, fun r => ih r (hp.2 r)⟩

theorem attempt_bind {x : Except ε' α} {f : ε' → ε} {g : α → Prog S ε β}
    (hg : ∀ a, x = .ok a → (g a).Meets P R m) (hf : ∀ e, x = .error e → R (.failed (f e)) m) :
    (Prog.attempt f x >>= g).Meets P R m := by
  cases x with
  | error e => exact hf e rfl
  | ok a => exact hg a rfl

theorem expect_bind {x : Option α} {message : String} {g : α → Prog S ε β}
    (hg : ∀ a, x = some a → (g a).Meets P R m) (hp : x = none → R (.panicked message) m) :
    (Prog.expect message x >>= g).Meets P R m := by
  cases x with
  | none => exact hp rfl
  | some a => exact hg a rfl

theorem ofOutcome_bind {x : Outcome ε' α} {f : ε' → ε} {g : α → Prog S ε β}
    (hg : ∀ a, x = .returned a → (g a).Meets P R m) (hf : ∀ e, x = .failed e → R (.failed (f e)) m)
    (hp : ∀ s, x = .panicked s → R (.panicked s) m) :
    (Prog.ofOutcome f x >>= g).Meets P R m := by
  cases x with
  | returned a => exact hg a rfl
  | failed e => exact hf e rfl
  | panicked s => exact hp s rfl

variable {p q : Prog S ε α} {t t' : List (Event S)}

/-- What is left of a program guarantees the same from the phase reached. -/
theorem after (hp : p.Meets P Q m) (h : p.After t q) : q.Meets P Q (P.after m t) := by
  induction h with
  | start => exact hp
  | reply h r ih =>
    rw [P.after_append]
    exact ih.2 r

/-- Every effect performed so far was allowed in its phase. -/
theorem allowed {e : Event S} (hp : p.Meets P Q m) (h : p.After (t ++ e :: t') q) :
    P.allowed (P.after m t) e.1 := by
  generalize hs : t ++ e :: t' = s at h
  induction h generalizing t' with
  | start => simp at hs
  | @reply s e' k h r ih =>
    rcases List.eq_nil_or_concat t' with rfl | ⟨t', x, rfl⟩
    · obtain ⟨rfl, he⟩ := List.append_inj' hs rfl
      cases List.singleton_inj.mp he
      exact (hp.after h).1
    · refine @ih t' ?_
      rw [List.concat_eq_append, ← List.cons_append, ← List.append_assoc] at hs
      exact (List.append_inj' hs rfl).1

/-- In a phase that no effect leaves, the outcomes are what counts. -/
theorem of_still (hallowed : ∀ e, P.allowed m e) (hstill : ∀ e r, P.next m e r = m)
    (h : ∀ t o, Yields p t o → Q o m) : p.Meets P Q m := by
  induction p with
  | ret a => exact h [] _ (.ret a)
  | fail e => exact h [] _ (.fail e)
  | panic s => exact h [] _ (.panic s)
  | call e k ih =>
    refine ⟨hallowed e, fun r => ?_⟩
    rw [hstill]
    exact ih r fun t o hy => h _ o (.call r hy)

end Prog.Meets

/-! ### Programs over more effects -/

/-- The effects of a signature are among those of another one, with the same replies. -/
structure Signature.Embedding (S S' : Signature) where
  effect : S.Effect → S'.Effect
  reply : ∀ e, S'.Reply (effect e) ≃ S.Reply e

variable {S' : Signature}

/-- The program as one over more effects. -/
def Prog.embed (ι : S.Embedding S') : Prog S ε α → Prog S' ε α
  | ret a => ret a
  | fail e => fail e
  | panic m => panic m
  | call e k => call (ι.effect e) fun r => (k (ι.reply e r)).embed ι

/-- The reply to an effect as one to the effect embedded. -/
def Signature.Embedding.event (ι : S.Embedding S') (e : Event S) : Event S' :=
  ⟨ι.effect e.1, (ι.reply e.1).symm e.2⟩

theorem Prog.After.embed {ι : S.Embedding S'} {p q : Prog S ε α} {t : List (Event S)}
    (h : p.After t q) : (p.embed ι).After (t.map ι.event) (q.embed ι) := by
  induction h with
  | start => exact .start
  | @reply t e k h r ih =>
    have hsame : (k r).embed ι = (k (ι.reply e ((ι.reply e).symm r))).embed ι :=
      congrArg (fun r => (k r).embed ι) ((ι.reply e).apply_symm_apply r).symm
    rw [List.map_append, hsame]
    exact .reply ih ((ι.reply e).symm r)

/-- The protocol for the effects embedded. -/
def Protocol.comap (ι : S.Embedding S') (P : Protocol S' φ) : Protocol S φ where
  allowed m e := P.allowed m (ι.effect e)
  next m e r := P.next m (ι.effect e) ((ι.reply e).symm r)

theorem Prog.Meets.embed {ι : S.Embedding S'} {P : Protocol S' φ} {Q : Outcome ε α → φ → Prop}
    {p : Prog S ε α} {m : φ} (hp : p.Meets (P.comap ι) Q m) : (p.embed ι).Meets P Q m := by
  induction p generalizing m with
  | ret a | fail e | panic s => exact hp
  | call e k ih =>
    refine ⟨hp.1, fun r => ?_⟩
    have hsame : (P.comap ι).next m e (ι.reply e r) = P.next m (ι.effect e) r :=
      congrArg (P.next m (ι.effect e)) ((ι.reply e).symm_apply_apply r)
    exact hsame ▸ ih (ι.reply e r) (hp.2 (ι.reply e r))

end Foundation
