import LineGateway.Traceability.ArchiveDelivery

/-! What a run of the draining task leaves in the queues, whatever is saved meanwhile. A drain
removes nothing until its batch is acknowledged, and then what it has read. When it is over it
has returned, and every row queued at its start is gone, or it has failed and all are left. -/

namespace LineGateway.Traceability

open Foundation Config

variable {V : VariantCodec} {db : TraceabilityDatabase} {F : RowFormat} {q : QueueTable}
  {a a' : Archive} {o o' : Outbox Text} {l : Archive.Label V} {ls : List (Archive.Label V)}
  {start m n : ℕ}

/-! ### The rows removed -/

/-- The first `n` rows saved to the queue have been removed from it, and no other ones. -/
structure Removed (a : Archive) (q : QueueTable) (n : ℕ) : Prop where
  le : n ≤ (a.saved q).length
  rows : (a.store.rows q).entries = (keyed q (a.saved q)).drop n

theorem Refines.toRemoved (h : Refines db q a o) (hinv : Outbox.Inv o) : Removed a q o.removed where
  le := by
    rw [h.saved]
    exact hinv.removed_le.trans hinv.upto_le
  rows := by
    rw [h.saved]
    exact h.rows

theorem Removed.values (h : Removed a q n) : (a.store.rows q).values = (a.saved q).drop n := by
  rw [Table.values, h.rows, map_snd_drop_keyed]

theorem Removed.keys (h : Removed a q n) :
    (a.store.rows q).keys = spanKeys q (n, (a.saved q).length) := by
  rw [Table.keys, h.rows, map_fst_drop_keyed]

theorem Removed.len (h : Removed a q n) : (a.store.rows q).len + n = (a.saved q).length := by
  have hle := h.le
  rw [Table.len, h.rows, List.length_drop, length_keyed]
  omega

theorem Removed.unique (h : Removed a q n) (h' : Removed a q m) : n = m := by
  have hn := h.len
  have hm := h'.len
  omega

/-- Nothing is removed where the outbox removes nothing. -/
theorem Removed.refines (h : Removed a q n) (href : Refines db q a o) (hinv : Outbox.Inv o)
    (href' : Refines db q a' o') (hinv' : Outbox.Inv o') (hsame : o'.removed = o.removed) :
    Removed a' q n := by
  have hn := h.unique (href.toRemoved hinv)
  rw [hn, ← hsame]
  exact href'.toRemoved hinv'

theorem Removed.matched (h : Removed a q n) (href : Refines db q a o) (hinv : Outbox.Inv o)
    (hmatched : Matched db q a l a' o) (hno : a.NoRemoval q l) : Removed a' q n := by
  rcases hmatched with href' | ⟨e, o', hs, href', -, hremove⟩
  · exact h.refines href hinv href' hinv rfl
  · exact h.refines href hinv href' (hs.inv hinv) (hs.removed_eq (hremove hno))

/-- The keys of an acknowledged batch are removed. -/
theorem Removed.remove (h : Removed a q n) (hle : n ≤ m) (hm : m ≤ (a.saved q).length)
    (p : DrainProg) :
    Removed ({ a with store := a.store.afterRemove q (spanKeys q (n, m)) }.setDrain q p) q m where
  le := hm
  rows := by
    show ((a.store.afterRemove q _).rows q).entries = _
    rw [Store.afterRemove_rows_self, Table.removeAll_entries, h.rows, filter_spanKeys hle]
    rfl

/-! ### A drain under way -/

/-- How far a drain has come that began when `start` rows had been saved, of which the first
`n` had been removed. -/
inductive Draining (db : TraceabilityDatabase) (q : QueueTable) (start n : ℕ) (a : Archive) : Prop
  | unread (skip : Bool) (hp : a.drain q = drainPartSheetQueue db q skip) (h : Removed a q n)
  | read (upto : ℕ) (body : Text) (hp : a.drain q = insertRows db q (spanKeys q (n, upto)) body)
      (h : Removed a q n) (hstart : start ≤ upto) (hupto : upto ≤ (a.saved q).length)
  | acknowledged (upto : ℕ) (hp : a.drain q = removeRows q (spanKeys q (n, upto)))
      (h : Removed a q n) (hstart : start ≤ upto) (hupto : upto ≤ (a.saved q).length)
  | returned (upto : ℕ) (hp : a.drain q = .ret ()) (h : Removed a q upto) (hstart : start ≤ upto)
  | failed (e : DrainQueuesError) (hp : a.drain q = .fail e) (h : Removed a q n)

/-- Steps that leave the drain alone and remove nothing. -/
theorem Draining.congr (h : Draining db q start n a) (hp : a'.drain q = a.drain q)
    (hremoved : ∀ n, Removed a q n → Removed a' q n)
    (hle : (a.saved q).length ≤ (a'.saved q).length) : Draining db q start n a' := by
  cases h with
  | unread skip h₁ h₂ => exact .unread skip (hp.trans h₁) (hremoved n h₂)
  | read upto body h₁ h₂ h₃ h₄ =>
    exact .read upto body (hp.trans h₁) (hremoved n h₂) h₃ (h₄.trans hle)
  | acknowledged upto h₁ h₂ h₃ h₄ =>
    exact .acknowledged upto (hp.trans h₁) (hremoved n h₂) h₃ (h₄.trans hle)
  | returned upto h₁ h₂ h₃ => exact .returned upto (hp.trans h₁) (hremoved upto h₂) h₃
  | failed e h₁ h₂ => exact .failed e (hp.trans h₁) (hremoved n h₂)

section Drain

variable {p : DrainProg}

theorem Removed.setDrain (h : Removed a q n) (p : DrainProg) : Removed (a.setDrain q p) q n :=
  ⟨h.le, h.rows⟩

/-- The batch is the whole queue, and skipped only when it is empty. -/
theorem Removed.batch (h : Removed a q n) (skip : Bool) (faults : Faults)
    (hstart : start ≤ (a.saved q).length)
    (hp : p = afterBatch db q skip (.ok (getQueueBatch q faults a.store))) :
    Draining db q start n (a.setDrain q p) := by
  have hself : (a.setDrain q p).drain q = p := Function.update_self ..
  rcases getQueueBatch_cases q faults a.store with ⟨e, he⟩ | hok
  · refine .failed (.getBatch e) ?_ (h.setDrain p)
    rw [hself, hp, he]
    rfl
  · rw [hok, h.keys] at hp
    by_cases hempty : (skip && (spanKeys q (n, (a.saved q).length)).isEmpty) = true
    · have hlen : (spanKeys q (n, (a.saved q).length)).length = 0 :=
        List.length_eq_zero_iff.mpr (List.isEmpty_iff.mp (Bool.and_eq_true_iff.mp hempty).2)
      simp only [spanKeys, List.length_map, List.length_range'] at hlen
      refine .returned n ?_ (h.setDrain p) (by omega)
      rw [hself, hp, afterBatch, if_pos hempty]
    · refine .read (a.saved q).length (Text.framed (a.store.rows q).values) ?_ (h.setDrain p) hstart
        le_rfl
      rw [hself, hp, afterBatch, if_neg hempty]

/-- The state after an effect of a drain, from its reply. -/
theorem step_eq {i : DrainInput} {e : DrainEffect} {k : e.Reply → DrainProg} {r : e.Reply}
    {d : Delivery} (h : performDrain e i a.toDelivery = (r, d)) :
    a.step q i e k = { a with toDelivery := d }.setDrain q (k r) := by
  rw [Archive.step, h]
  rfl

theorem Draining.of_batch (h : Removed a q n) (skip : Bool) (i : DrainInput)
    (hstart : start ≤ (a.saved q).length) :
    Draining db q start n (a.step q i (.getQueueBatch q) (afterBatch db q skip)) := by
  cases htask : i.task with
  | error err =>
    have hperform : performDrain (.getQueueBatch q) i a.toDelivery =
        (.error err, a.toDelivery) := by simp only [performDrain, htask]
    rw [step_eq hperform]
    exact .failed (.getBatchTask err) (Function.update_self ..) (h.setDrain _)
  | ok faults =>
    have hperform : performDrain (.getQueueBatch q) i a.toDelivery =
        (.ok (getQueueBatch q faults a.store), a.toDelivery) := by simp only [performDrain, htask]
    rw [step_eq hperform]
    exact h.batch skip faults hstart rfl

/-- An insertion leaves the queue alone. -/
theorem Draining.of_insert {upto : ℕ} (h : Removed a q n) (i : DrainInput) (query body : Text)
    (compression : Bool) (hstart : start ≤ upto) (hupto : upto ≤ (a.saved q).length) :
    Draining db q start n (a.step q i (.insert q query compression body)
      (afterInsert q (spanKeys q (n, upto)))) := by
  cases hins : i.insertion with
  | error err =>
    have hperform : performDrain (.insert q query compression body) i a.toDelivery =
        (.error err, if i.applied then a.apply q body else a.toDelivery) := by
      simp only [performDrain, hins]
    rw [step_eq hperform]
    refine .failed (.insert err) (Function.update_self ..) ⟨h.le, ?_⟩
    cases i.applied <;> exact h.rows
  | ok u =>
    have hperform : performDrain (.insert q query compression body) i a.toDelivery =
        (.ok (), a.acknowledge q body) := by simp only [performDrain, hins]
    rw [step_eq hperform]
    exact .acknowledged upto (Function.update_self ..) ⟨h.le, h.rows⟩ hstart hupto

/-- The removal of an acknowledged batch takes all of it, or fails. -/
theorem Draining.of_removal {upto : ℕ} (h : Removed a q n) (i : DrainInput) (hn : n ≤ start)
    (hstart : start ≤ upto) (hupto : upto ≤ (a.saved q).length) :
    Draining db q start n (a.step q i (.removeEntries q (spanKeys q (n, upto))) afterRemoval) := by
  cases htask : i.task with
  | error err =>
    have hperform : performDrain (.removeEntries q (spanKeys q (n, upto))) i a.toDelivery =
        (.error err, a.toDelivery) := by simp only [performDrain, htask]
    rw [step_eq hperform]
    exact .failed (.removeQueuedTask err) (Function.update_self ..) (h.setDrain _)
  | ok faults =>
    rcases removeEntries_cases q (spanKeys q (n, upto)) faults a.store with ⟨err, herr⟩ | hok
    · have hperform : performDrain (.removeEntries q (spanKeys q (n, upto))) i a.toDelivery =
          (.ok (.error err), a.toDelivery) := by simp only [performDrain, htask, herr]
      rw [step_eq hperform]
      exact .failed (.removeQueued err) (Function.update_self ..) (h.setDrain _)
    · have hperform : performDrain (.removeEntries q (spanKeys q (n, upto))) i a.toDelivery =
          (.ok (.ok ()),
            { a.toDelivery with store := a.store.afterRemove q (spanKeys q (n, upto)) }) := by
        simp only [performDrain, htask, hok]
      rw [step_eq hperform]
      exact .returned upto (Function.update_self ..) (h.remove (hn.trans hstart) hupto _) hstart

/-- A reply to a drain brings it further. -/
theorem Draining.reply {e : DrainEffect} {k : e.Reply → DrainProg} (h : Draining db q start n a)
    (hn : n ≤ start) (hstart : start ≤ (a.saved q).length) (i : DrainInput)
    (hcall : a.drain q = .call e k) : Draining db q start n (a.step q i e k) := by
  cases h with
  | unread skip hp h =>
    have hprog := hcall.symm.trans hp
    rw [drainPartSheetQueue_eq] at hprog
    cases hprog
    exact .of_batch h skip i hstart
  | read upto body hp h h₁ h₂ =>
    have hprog := hcall.symm.trans hp
    rw [insertRows_eq] at hprog
    cases hprog
    exact .of_insert h i _ body _ h₁ h₂
  | acknowledged upto hp h h₁ h₂ =>
    have hprog := hcall.symm.trans hp
    rw [removeRows_eq] at hprog
    cases hprog
    exact .of_removal h i hn h₁ h₂
  | returned upto hp => cases hcall.symm.trans hp
  | failed err hp => cases hcall.symm.trans hp

end Drain

/-! ### A run of the draining task -/

/-- No run of the draining task begins, and the process goes on. -/
def Underway (_ : Archive) : Archive.Label V → Prop
  | .tick | .crash _ => False
  | _ => True

/-- Whatever is saved meanwhile and wherever the other queue is, a drain goes its way. -/
theorem Draining.step (h : Draining db q start n a) (hn : n ≤ start)
    (hstart : start ≤ (a.saved q).length) (href : Refines db q a o) (hinv : Outbox.Inv o)
    (hl : Underway a l) (hs : Archive.Step db F a l a') (hb : (a'.saved q).length ≤ 2 ^ 63) :
    Draining db q start n a' := by
  have hle := step_saved_le hs q
  cases hs with
  | save c faults =>
    exact h.congr rfl (fun m hm => hm.matched href hinv (href.save hinv c faults hb) trivial) hle
  | nextSerial date faults =>
    have href' := href.nextSerial date faults
    exact h.congr rfl (fun m hm => hm.refines href hinv href' hinv rfl) hle
  | drain q' i e k hcall =>
    by_cases hq : q = q'
    · subst hq
      exact h.reply hn hstart i hcall
    · have href' := (drainStep_of_call (i := i) (href.onQueue q') hcall).of_ne hq href
      exact h.congr (Function.update_of_ne hq ..)
        (fun m hm => hm.refines href hinv href' hinv rfl) hle
  | tick | crash => exact hl.elim

theorem run_draining (hr : Run (guarded (Archive.Step db F) Underway) a ls a')
    (h : Draining db q start n a) (hn : n ≤ start) (hstart : start ≤ (a.saved q).length)
    (href : Refines db q a o) (hinv : Outbox.Inv o) (hb : (a'.saved q).length ≤ 2 ^ 63) :
    Draining db q start n a' := by
  induction hr generalizing o with
  | nil => exact h
  | cons head tail ih =>
    have hb' := (run_saved_le tail.of_guarded q).trans hb
    have h' := h.step hn hstart href hinv head.2 head.1 hb'
    have hstart' := hstart.trans (step_saved_le head.1 q)
    rcases href.step hinv head.1 hb' with href' | ⟨e, o', hs, href', -⟩
    · exact ih h' hstart' href' hinv hb
    · exact ih h' hstart' href' (hs.inv hinv) hb

theorem run_saved_prefix (hr : Run (Archive.Step db F) a ls a') : a.saved q <+: a'.saved q := by
  induction hr with
  | nil => exact List.prefix_rfl
  | cons head _ ih =>
    refine List.IsPrefix.trans ?_ ih
    cases head with
    | save c faults => exact List.prefix_append _ _
    | _ => exact List.prefix_rfl

/-! ### What it leaves -/

/-- What a run of the draining task that began in `a₀` has made of a queue. If its drain has
returned, the rows left have been saved since, and all others have been acknowledged; if it has
failed, every row queued at the beginning is still there, before those saved since. -/
def AfterRun (a₀ a : Archive) (q : QueueTable) : Prop :=
  match a.drain q with
  | .ret _ => (∃ n, (a₀.saved q).length ≤ n ∧ (a.store.rows q).values = (a.saved q).drop n) ∧
      ∀ k < (a₀.saved q).length, ∃ sp : ℕ × ℕ, sp.1 ≤ k ∧ k < sp.2 ∧
        Text.framed (Outbox.rows (a.saved q) sp) ∈ a.acknowledged q
  | .fail _ => (a.store.rows q).values =
      (a₀.store.rows q).values ++ (a.saved q).drop (a₀.saved q).length
  | _ => False

/-- A row removed lies in an acknowledged insertion. -/
theorem Removed.acknowledged (h : Removed a q n) (href : Refines db q a o) (hinv : Outbox.Inv o)
    {k : ℕ} (hk : k < n) : ∃ sp : ℕ × ℕ, sp.1 ≤ k ∧ k < sp.2 ∧
      Text.framed (Outbox.rows (a.saved q) sp) ∈ a.acknowledged q := by
  have hlt : k < (a.saved q).length := lt_of_lt_of_le hk h.le
  rcases href.kept hinv (List.getElem?_eq_getElem hlt) with hmem | ⟨sp, hlo, hhi, -, -, hack⟩
  · rw [h.rows] at hmem
    obtain ⟨i, hi, hlt', heq⟩ := mem_drop_keyed.mp hmem
    have hik : k = i := QueueTable.key_inj.mp (Prod.ext_iff.mp heq).1
    omega
  · exact ⟨sp, hlo, hhi, hack⟩

theorem Draining.afterRun {a₀ : Archive} (h : Draining db q (a₀.saved q).length n a)
    (h₀ : Removed a₀ q n) (hsaved : a₀.saved q <+: a.saved q) (hend : Finished (a.drain q))
    (href : Refines db q a o) (hinv : Outbox.Inv o) : AfterRun a₀ a q := by
  unfold AfterRun
  cases h with
  | unread skip hp | read _ _ hp | acknowledged _ hp =>
    rw [hp] at hend
    exact hend.elim
  | returned upto hp h hstart =>
    rw [hp]
    refine ⟨⟨upto, hstart, h.values⟩, fun k hk => ?_⟩
    exact h.acknowledged href hinv (lt_of_lt_of_le hk hstart)
  | failed e hp h =>
    rw [hp]
    obtain ⟨rows, hrows⟩ := hsaved
    rw [h.values, h₀.values, ← hrows, List.drop_left, List.drop_append_of_le_length h₀.le]

/-- From its tick until its drains are over, a run of the draining task clears a queue of all
that was in it, or leaves all of it. -/
theorem run_afterRun {a₀ : Archive} (hr : Run (guarded (Archive.Step db F) Underway) (a₀.tick db) ls a)
    (href : Refines db q a₀ o) (hinv : Outbox.Inv o) (htick : ∀ q, Finished (a₀.drain q))
    (hend : Finished (a.drain q)) (hb : (a.saved q).length ≤ 2 ^ 63) : AfterRun a₀ a q := by
  have hremoved := href.toRemoved hinv
  have hstart : Draining db q (a₀.saved q).length o.removed (a₀.tick db) :=
    .unread (!a₀.firstRun) rfl ⟨hremoved.le, hremoved.rows⟩
  have hdraining := run_draining hr hstart hremoved.le le_rfl (href.tick htick) hinv hb
  obtain ⟨-, o', -, href', hinv'⟩ := run_refines (fun _ _ => True) (fun _ _ _ _ _ _ _ => trivial) hr
    (href.tick htick) hinv hb
  have hsaved : (a₀.tick db).saved q <+: a.saved q := run_saved_prefix hr.of_guarded
  exact hdraining.afterRun hremoved hsaved hend href' hinv'

end LineGateway.Traceability
