import LineGateway.Foundation.Outbox
import LineGateway.Traceability.Archive

/-! Each queue of the archive refines an outbox whose log is the rows saved. The
queue table holds the rows not removed under increasing keys, the sequence counter
follows the length of the log, and the program of a drain is at the stage of the
outbox. Every step of the archive is one step of the outbox or none. -/

namespace LineGateway.Traceability

open Foundation Config

/-- The key of the `i`-th row saved to a queue. -/
def QueueTable.key : QueueTable → ℕ → ℕ
  | .general, i => 2 * i
  | .operation, i => 2 * i + 1

theorem QueueTable.key_lt {q : QueueTable} {i j : ℕ} : q.key i < q.key j ↔ i < j := by
  cases q <;> simp [key]

theorem QueueTable.key_inj {q : QueueTable} {i j : ℕ} : q.key i = q.key j ↔ i = j := by
  cases q <;> simp [key]

/-- The sequence counter after `n` saves. -/
def Store.Counted (s : Store) (n : ℕ) : Prop :=
  s.seqs.get () = if n = 0 then none else some (2 * (n - 1))

section Counted

variable {s : Store} {n : ℕ}

theorem Store.Counted.seqAfter (h : s.Counted n) (hn : n < 2 ^ 63) : s.seqAfter = 2 * n := by
  rw [Store.seqAfter, h]
  cases n with
  | zero => rfl
  | succ n =>
    rw [if_neg (by omega)]
    simp only
    omega

/-- The rows of the next save have the keys of its rank. -/
theorem Store.Counted.rowKey (h : s.Counted n) (hn : n < 2 ^ 63) (q : QueueTable) :
    Store.rowKey s.seqAfter q = q.key n := by
  rw [h.seqAfter hn]
  cases q with
  | general => rfl
  | operation =>
    simp only [Store.rowKey, QueueTable.key]
    omega

theorem Store.Counted.afterSave (h : s.Counted n) (hn : n < 2 ^ 63)
    (partId : AsciiDigitsOrUpper 23) (encoded : EncodedPartSheets) :
    (s.afterSave partId encoded).Counted (n + 1) := by
  rw [Store.Counted, Store.afterSave_seqs, Table.get_insert_self, h.seqAfter hn]
  simp

end Counted

/-- The rows saved to a queue with their keys. -/
def keyed (q : QueueTable) (log : List Text) : List (ℕ × Text) :=
  log.mapIdx fun i row => (q.key i, row)

/-- The keys of a span of the log. -/
def spanKeys (q : QueueTable) (sp : ℕ × ℕ) : List ℕ :=
  (List.range' sp.1 (sp.2 - sp.1)).map q.key

section Keyed

variable {q : QueueTable} {log : List Text} {i n : ℕ}

@[simp] theorem length_keyed : (keyed q log).length = log.length := by simp [keyed]

theorem keyed_append (q : QueueTable) (log : List Text) (row : Text) :
    keyed q (log ++ [row]) = keyed q log ++ [(q.key log.length, row)] := by
  simp [keyed, List.mapIdx_append]

theorem map_snd_drop_keyed : ((keyed q log).drop n).map Prod.snd = log.drop n := by
  apply List.ext_getElem <;> simp [keyed]

theorem map_fst_drop_keyed : ((keyed q log).drop n).map Prod.fst = spanKeys q (n, log.length) := by
  apply List.ext_getElem
  · simp [spanKeys]
  · intro i h₁ h₂
    simp [spanKeys, keyed]

theorem mem_drop_keyed {e : ℕ × Text} : e ∈ (keyed q log).drop n ↔
    ∃ i, n ≤ i ∧ ∃ h : i < log.length, e = (q.key i, log[i]) := by
  constructor
  · intro he
    obtain ⟨j, hj, rfl⟩ := List.getElem_of_mem he
    have hlt : n + j < log.length := by simp at hj; omega
    exact ⟨n + j, by omega, hlt, by simp [keyed]⟩
  · rintro ⟨i, hi, hlt, rfl⟩
    have hj : i - n < ((keyed q log).drop n).length := by simp; omega
    have hget : ((keyed q log).drop n)[i - n] = (q.key i, log[i]) := by
      simp [keyed, Nat.add_sub_cancel' hi]
    exact hget ▸ List.getElem_mem hj

theorem key_mem_spanKeys {sp : ℕ × ℕ} : q.key i ∈ spanKeys q sp ↔ sp.1 ≤ i ∧ i < sp.2 := by
  simp only [spanKeys, List.mem_map, List.mem_range'_1, QueueTable.key_inj]
  constructor
  · rintro ⟨j, hj, rfl⟩; omega
  · intro h; exact ⟨i, by omega, rfl⟩

/-- Removing the keys of a span from the front leaves the rows after it. -/
theorem filter_spanKeys {m : ℕ} (hm : n ≤ m) :
    ((keyed q log).drop n).filter (fun e => e.1 ∉ spanKeys q (n, m)) = (keyed q log).drop m := by
  have hsplit : (keyed q log).drop n =
      ((keyed q log).drop n).take (m - n) ++ (keyed q log).drop m := by
    conv_lhs => rw [← List.take_append_drop (m - n) ((keyed q log).drop n)]
    rw [List.drop_drop, Nat.add_sub_cancel' hm]
  have hfront : (((keyed q log).drop n).take (m - n)).filter
      (fun e => e.1 ∉ spanKeys q (n, m)) = [] := by
    rw [List.filter_eq_nil_iff]
    intro e he
    obtain ⟨j, hj, rfl⟩ := List.getElem_of_mem he
    simp only [List.length_take, List.length_drop, length_keyed] at hj
    have hkey : q.key (n + j) ∈ spanKeys q (n, m) := key_mem_spanKeys.mpr ⟨by omega, by omega⟩
    simpa [keyed] using hkey
  have hback : ((keyed q log).drop m).filter (fun e => e.1 ∉ spanKeys q (n, m)) =
      (keyed q log).drop m := by
    rw [List.filter_eq_self]
    intro e he
    obtain ⟨i, hi, hlt, rfl⟩ := mem_drop_keyed.mp he
    have : q.key i ∉ spanKeys q (n, m) := fun h => by have := key_mem_spanKeys.mp h; omega
    simpa using this
  rw [hsplit, List.filter_append, hfront, hback, List.nil_append]

end Keyed

/-! ### The refinement -/

/-- The program of a drain at the stage of its outbox. -/
def AtStage (db : TraceabilityDatabase) (q : QueueTable) (p : DrainProg) (o : Outbox Text) : Prop :=
  match o.stage with
  | .idle => Finished p ∨ ∃ skip, p = drainPartSheetQueue db q skip
  | .sending n => p = insertRows db q (spanKeys q (o.removed, n))
      (Text.framed (Outbox.rows o.log (o.removed, n)))
  | .delivered n => p = removeRows q (spanKeys q (o.removed, n))

/-- The effects of the program are on its own queue. -/
def OnQueue (db : TraceabilityDatabase) (q : QueueTable) (p : DrainProg) : Prop :=
  Finished p ∨ (∃ skip, p = drainPartSheetQueue db q skip) ∨
    (∃ keys body, p = insertRows db q keys body) ∨ ∃ keys, p = removeRows q keys

/-- A queue of the archive is the outbox `o`. -/
structure Refines (db : TraceabilityDatabase) (q : QueueTable) (a : Archive)
    (o : Outbox Text) : Prop where
  saved : a.saved q = o.log
  seq : a.store.seqs.get () = if o.log = [] then none else some (2 * (o.log.length - 1))
  rows : (a.store.rows q).entries = (keyed q o.log).drop o.removed
  stage : AtStage db q (a.drain q) o
  onQueue : ∀ q', OnQueue db q' (a.drain q')
  acknowledged : a.acknowledged q = o.acked.map fun sp => Text.framed (Outbox.rows o.log sp)
  applied : a.applied q = o.applied.map fun sp => Text.framed (Outbox.rows o.log sp)

theorem initial_refines (db : TraceabilityDatabase) (q : QueueTable) :
    Refines db q .initial .initial where
  saved := rfl
  seq := rfl
  rows := rfl
  stage := .inl trivial
  onQueue _ := .inl trivial
  acknowledged := rfl
  applied := rfl

/-- What a program on a queue does next. -/
theorem OnQueue.call_cases {db : TraceabilityDatabase} {q : QueueTable} {e : DrainEffect}
    {k : e.Reply → DrainProg} (h : OnQueue db q (.call e k)) :
    (∃ skip, Prog.call e k = drainPartSheetQueue db q skip) ∨
      (∃ keys body, Prog.call e k = insertRows db q keys body) ∨
        ∃ keys, Prog.call e k = removeRows q keys := by
  rcases h with h | h
  · exact h.elim
  · exact h

/-! ### What a step of a drain can do -/

@[simp] def Archive.setDrain (a : Archive) (q : QueueTable) (p : DrainProg) : Archive :=
  { a with drain := Function.update a.drain q p }

/-- What a step of a drain on its queue can do. -/
inductive DrainStep (db : TraceabilityDatabase) (q : QueueTable) (i : DrainInput) (a : Archive) :
    Archive → Prop
  | stop (skip : Bool) (p : DrainProg) (h : a.drain q = drainPartSheetQueue db q skip)
      (hp : Finished p) : DrainStep db q i a (a.setDrain q p)
  | read (skip : Bool) (h : a.drain q = drainPartSheetQueue db q skip) :
      DrainStep db q i a (a.setDrain q
        (insertRows db q (a.store.rows q).keys (Text.framed (a.store.rows q).values)))
  | acknowledge (keys : List ℕ) (body : Text) (h : a.drain q = insertRows db q keys body)
      (hi : i.insertion = .ok ()) :
      DrainStep db q i a ({ a with toDelivery := a.acknowledge q body }.setDrain q
        (removeRows q keys))
  | refuse (keys : List ℕ) (body : Text) (p : DrainProg) (h : a.drain q = insertRows db q keys body)
      (hi : i.insertion ≠ .ok ()) (hp : Finished p) :
      DrainStep db q i a ({ a with
        toDelivery := if i.applied then a.apply q body else a.toDelivery }.setDrain q p)
  | remove (keys : List ℕ) (h : a.drain q = removeRows q keys)
      (hr : (performDrain (.removeEntries q keys) i a.toDelivery).1 = .ok (.ok ())) :
      DrainStep db q i a ({ a with store := a.store.afterRemove q keys }.setDrain q (.ret ()))
  | keep (keys : List ℕ) (p : DrainProg) (h : a.drain q = removeRows q keys)
      (hr : (performDrain (.removeEntries q keys) i a.toDelivery).1 ≠ .ok (.ok ()))
      (hp : Finished p) : DrainStep db q i a (a.setDrain q p)

variable {db : TraceabilityDatabase} {q : QueueTable} {a : Archive} {i : DrainInput}

theorem drainStep_of_call {e : DrainEffect} {k : e.Reply → DrainProg}
    (hq : OnQueue db q (a.drain q)) (h : a.drain q = .call e k) :
    DrainStep db q i a (a.step q i e k) := by
  rw [h] at hq
  rcases hq.call_cases with ⟨skip, hp⟩ | ⟨keys, body, hp⟩ | ⟨keys, hp⟩
  · have hstate := h.trans hp
    rw [drainPartSheetQueue_eq] at hp
    cases hp
    cases htask : i.task with
    | error err =>
      simpa [Archive.step, performDrain, htask, afterBatch] using
        DrainStep.stop skip (.fail (.getBatchTask err)) hstate trivial
    | ok faults =>
      rcases getQueueBatch_cases q faults a.store with ⟨err, herr⟩ | hok
      · simpa [Archive.step, performDrain, htask, afterBatch, herr] using
          DrainStep.stop skip (.fail (.getBatch err)) hstate trivial
      · by_cases hempty : skip && (a.store.rows q).keys.isEmpty
        · simpa [Archive.step, performDrain, htask, afterBatch, hok, hempty] using
            DrainStep.stop skip (.ret ()) hstate trivial
        · simpa [Archive.step, performDrain, htask, afterBatch, hok, hempty] using
            DrainStep.read skip hstate
  · have hstate := h.trans hp
    rw [insertRows_eq] at hp
    cases hp
    cases hins : i.insertion with
    | error err =>
      simpa [Archive.step, performDrain, hins, afterInsert] using
        DrainStep.refuse keys body (.fail (.insert err)) hstate (by simp [hins]) trivial
    | ok u =>
      simpa [Archive.step, performDrain, hins, afterInsert] using
        DrainStep.acknowledge keys body hstate hins
  · have hstate := h.trans hp
    rw [removeRows_eq] at hp
    cases hp
    cases htask : i.task with
    | error err =>
      simpa [Archive.step, performDrain, htask, afterRemoval] using
        DrainStep.keep keys (.fail (.removeQueuedTask err)) hstate (by simp [performDrain, htask])
          trivial
    | ok faults =>
      rcases removeEntries_cases q keys faults a.store with ⟨err, herr⟩ | hok
      · simpa [Archive.step, performDrain, htask, afterRemoval, herr] using
          DrainStep.keep keys (.fail (.removeQueued err)) hstate
            (by simp [performDrain, htask, herr]) trivial
      · simpa [Archive.step, performDrain, htask, afterRemoval, hok] using
          DrainStep.remove keys hstate (by simp [performDrain, htask, hok])

/-! ### One step of the archive is at most one step of the outbox -/

theorem DrainStep.onQueue {a' : Archive} (hs : DrainStep db q i a a')
    (h : ∀ q', OnQueue db q' (a.drain q')) (q' : QueueTable) : OnQueue db q' (a'.drain q') := by
  by_cases hq : q' = q
  · subst hq
    cases hs with
    | stop skip p h hp => exact .inl (by simpa using hp)
    | read skip h => exact .inr (.inr (.inl ⟨_, _, Function.update_self ..⟩))
    | acknowledge keys body h hi => exact .inr (.inr (.inr ⟨keys, by simp⟩))
    | refuse keys body p h hi hp => exact .inl (by simpa using hp)
    | remove keys h hr => exact .inl (by simp [Finished])
    | keep keys p h hr hp => exact .inl (by simpa using hp)
  · cases hs <;> simpa [hq] using h q'

/-- The step of a drain does not concern the other queue. -/
theorem DrainStep.of_ne {q' : QueueTable} {a' : Archive} {o : Outbox Text}
    (hs : DrainStep db q' i a a') (hq : q ≠ q') (h : Refines db q a o) : Refines db q a' o := by
  have honQueue := hs.onQueue h.onQueue
  obtain ⟨h₁, h₂, h₃, h₄, -, h₅, h₆⟩ := h
  cases hs with
  | refuse keys body p h hi hp =>
    cases happ : i.applied with
    | false => exact ⟨h₁, by simpa [happ], by simpa [happ], by simpa [hq], honQueue,
        by simpa [happ], by simpa [happ]⟩
    | true => exact ⟨h₁, by simpa [happ, Delivery.apply], by simpa [happ, Delivery.apply],
        by simpa [hq], honQueue, by simpa [happ, Delivery.apply],
        by simpa [happ, Delivery.apply, hq]⟩
  | acknowledge keys body h hi =>
    exact ⟨h₁, h₂, h₃, by simpa [hq], honQueue, by simpa [Delivery.acknowledge, hq],
      by simpa [Delivery.acknowledge, Delivery.apply, hq]⟩
  | remove keys h hr =>
    exact ⟨h₁, h₂, by simpa [hq] using h₃, by simpa [hq], honQueue, h₅, h₆⟩
  | _ => exact ⟨h₁, h₂, h₃, by simpa [hq], honQueue, h₅, h₆⟩

theorem removeRows_inj {keys keys' : List ℕ} (h : removeRows q keys = removeRows q keys') :
    keys = keys' := by
  rw [removeRows_eq, removeRows_eq] at h
  cases h
  rfl

theorem insertRows_inj {keys keys' : List ℕ} {body body' : Text}
    (h : insertRows db q keys body = insertRows db q keys' body') : keys = keys' ∧ body = body' := by
  rw [insertRows_eq, insertRows_eq] at h
  injection h with he hk
  injection he with _ _ _ hbody
  subst hbody
  exact ⟨removeRows_inj (congrFun hk (Except.ok ())), rfl⟩

section Stages

variable {p : DrainProg} {o : Outbox Text} {skip : Bool} {keys : List ℕ} {body : Text}

theorem AtStage.idle_of_drain (h : AtStage db q p o) (hp : p = drainPartSheetQueue db q skip) :
    o.stage = .idle := by
  subst hp
  unfold AtStage at h
  cases hst : o.stage with
  | idle => rfl
  | sending n =>
    simp only [hst, drainPartSheetQueue_eq, insertRows_eq] at h
    cases h
  | delivered n =>
    simp only [hst, drainPartSheetQueue_eq, removeRows_eq] at h
    cases h

theorem AtStage.idle_of_finished (h : AtStage db q p o) (hp : Finished p) : o.stage = .idle := by
  unfold AtStage at h
  cases hst : o.stage with
  | idle => rfl
  | sending n =>
    simp only [hst, insertRows_eq] at h
    exact (h ▸ hp).elim
  | delivered n =>
    simp only [hst, removeRows_eq] at h
    exact (h ▸ hp).elim

theorem AtStage.sending_of_insert (h : AtStage db q p o) (hp : p = insertRows db q keys body) :
    ∃ n, o.stage = .sending n ∧ keys = spanKeys q (o.removed, n) ∧
      body = Text.framed (Outbox.rows o.log (o.removed, n)) := by
  subst hp
  unfold AtStage at h
  cases hst : o.stage with
  | idle =>
    simp only [hst, drainPartSheetQueue_eq, insertRows_eq] at h
    rcases h with h | ⟨skip, h⟩
    · exact h.elim
    · cases h
  | sending n =>
    simp only [hst] at h
    exact ⟨n, rfl, insertRows_inj h⟩
  | delivered n =>
    simp only [hst, insertRows_eq, removeRows_eq] at h
    cases h

theorem AtStage.delivered_of_remove (h : AtStage db q p o) (hp : p = removeRows q keys) :
    ∃ n, o.stage = .delivered n ∧ keys = spanKeys q (o.removed, n) := by
  subst hp
  unfold AtStage at h
  cases hst : o.stage with
  | idle =>
    simp only [hst, drainPartSheetQueue_eq, removeRows_eq] at h
    rcases h with h | ⟨skip, h⟩
    · exact h.elim
    · cases h
  | sending n =>
    simp only [hst, insertRows_eq, removeRows_eq] at h
    cases h
  | delivered n =>
    simp only [hst] at h
    exact ⟨n, rfl, removeRows_inj h⟩

end Stages

/-- A step of the archive matched by the outbox of a queue: no step, or one step that
is clean if the archive's is, and a removal only if the archive's is. -/
def Matched {V : VariantCodec} (db : TraceabilityDatabase) (q : QueueTable) (a : Archive)
    (l : Archive.Label V) (a' : Archive) (o : Outbox Text) : Prop :=
  Refines db q a' o ∨ ∃ e o', Outbox.Step o e o' ∧ Refines db q a' o' ∧
    (a.Clean l → o.Clean e) ∧ (a.NoRemoval q l → e ≠ .remove)

variable {V : VariantCodec} {o : Outbox Text}

/-- Reading the batch starts the sending of the whole queue. -/
theorem Refines.read (h : Refines db q a o) :
    Refines db q (a.setDrain q (insertRows db q (a.store.rows q).keys
      (Text.framed (a.store.rows q).values))) { o with stage := .sending o.log.length } := by
  have hkeys : (a.store.rows q).keys = spanKeys q (o.removed, o.log.length) := by
    rw [Table.keys, h.rows, map_fst_drop_keyed]
  have hvalues : (a.store.rows q).values = Outbox.rows o.log (o.removed, o.log.length) := by
    rw [Table.values, h.rows, map_snd_drop_keyed, Outbox.rows, List.take_length]
  refine ⟨h.saved, h.seq, h.rows, by simp [AtStage, hkeys, hvalues], fun q' => ?_, h.acknowledged,
    h.applied⟩
  by_cases hq : q' = q
  · subst hq
    exact .inr (.inr (.inl ⟨_, _, Function.update_self ..⟩))
  · simpa [hq] using h.onQueue q'

theorem Refines.drain (h : Refines db q a o) (hinv : Outbox.Inv o) {a' : Archive}
    (hs : DrainStep db q i a a') : Matched db q a (.drain q i : Archive.Label V) a' o := by
  have honQueue := hs.onQueue h.onQueue
  cases hs with
  | stop skip p hd hp =>
    have hst := h.stage.idle_of_drain hd
    exact .inl ⟨h.saved, h.seq, h.rows, by simp [AtStage, hst, hp], honQueue, h.acknowledged,
      h.applied⟩
  | read skip hd =>
    have hst := h.stage.idle_of_drain hd
    exact .inr ⟨.read, _, .read o hst, h.read, fun _ => trivial, fun _ => by simp⟩
  | acknowledge keys body hd hi =>
    obtain ⟨n, hst, rfl, rfl⟩ := h.stage.sending_of_insert hd
    refine .inr ⟨.acknowledge, _, .acknowledge o n hst, ⟨h.saved, h.seq, h.rows, by simp [AtStage],
      honQueue, ?_, ?_⟩, fun _ => trivial, fun _ => by simp⟩
    · simp [Delivery.acknowledge, h.acknowledged]
    · simp [Delivery.acknowledge, Delivery.apply, h.applied]
  | refuse keys body p hd hi hp =>
    obtain ⟨n, hst, rfl, rfl⟩ := h.stage.sending_of_insert hd
    refine .inr ⟨.refuse i.applied, _, .refuse o n i.applied hst, ?_, ?_, fun _ => by simp⟩
    · cases happ : i.applied with
      | false =>
        refine ⟨h.saved, h.seq, h.rows, by simp [AtStage, Outbox.lose, hp], ?_, h.acknowledged, ?_⟩
        · simpa [happ] using honQueue
        · simpa [Outbox.lose, hst] using h.applied
      | true =>
        refine ⟨h.saved, h.seq, h.rows, by simp [AtStage, Outbox.lose, hp], ?_, h.acknowledged, ?_⟩
        · simpa [happ] using honQueue
        · simp [Outbox.lose, hst, Delivery.apply, h.applied]
    · intro hc
      change i.applied = false
      simpa [Archive.Clean, hd, insertRows_eq, hi] using hc
  | remove keys hd hr =>
    obtain ⟨n, hst, rfl⟩ := h.stage.delivered_of_remove hd
    refine .inr ⟨.remove, _, .remove o n hst, ⟨h.saved, h.seq, ?_, by simp [AtStage, Finished],
      honQueue, h.acknowledged, h.applied⟩, fun _ => trivial, ?_⟩
    · have hn : o.removed ≤ n := by simpa [Outbox.upto, hst] using hinv.removed_le
      change ((a.store.afterRemove q _).rows q).entries = _
      rw [Store.afterRemove_rows_self, Table.removeAll_entries, h.rows, filter_spanKeys hn]
    · intro hno
      simp only [Archive.NoRemoval, hd, removeRows_eq] at hno
      exact absurd hr (hno trivial)
  | keep keys p hd hr hp =>
    obtain ⟨n, hst, rfl⟩ := h.stage.delivered_of_remove hd
    refine .inr ⟨.keep, _, .keep o n hst, ⟨h.saved, h.seq, h.rows, by simp [AtStage, hp], honQueue,
      h.acknowledged, h.applied⟩, ?_, fun _ => by simp⟩
    intro hc
    simp only [Archive.Clean, hd, removeRows_eq] at hc
    exact hr hc

/-- The bodies of spans inside the log are not changed by a row saved later. -/
theorem framed_rows_append {log : List Text} {spans : List (ℕ × ℕ)}
    (h : ∀ sp ∈ spans, sp.2 ≤ log.length) (row : Text) :
    (spans.map fun sp => Text.framed (Outbox.rows (log ++ [row]) sp)) =
      spans.map fun sp => Text.framed (Outbox.rows log sp) :=
  List.map_congr_left fun sp hsp => by rw [Outbox.rows_append (h sp hsp)]

theorem AtStage.append {p : DrainProg} (h : AtStage db q p o) (hinv : Outbox.Inv o) (row : Text) :
    AtStage db q p { o with log := o.log ++ [row] } := by
  have hle := hinv.upto_le
  unfold AtStage at h ⊢
  cases hst : o.stage with
  | idle => simpa [hst] using h
  | sending n =>
    simp only [Outbox.upto, hst] at hle
    have hsp : (o.removed, n).2 ≤ o.log.length := hle
    simpa [hst, Outbox.rows_append hsp] using h
  | delivered n => simpa [hst] using h

theorem Refines.save {F : RowFormat} (h : Refines db q a o) (hinv : Outbox.Inv o) (c : SaveCall V)
    (faults : Faults) (hb : ((a.save F c faults).saved q).length ≤ 2 ^ 63) :
    Matched db q a (.save c faults) (a.save F c faults) o := by
  rcases c.run_cases F faults a.store with ⟨hstore, -, hrows⟩ | ⟨encoded, -, hrun, hrows⟩
  · left
    have hsame : a.save F c faults = a := by simp [Archive.save, hstore, hrows]
    rw [hsame]
    exact h
  · right
    have hsaved : (a.save F c faults).saved q = o.log ++ [encoded.row q] := by
      simp [Archive.save, hrows, h.saved]
    have hlen : o.log.length < 2 ^ 63 := by
      rw [hsaved, List.length_append] at hb
      simp only [List.length_singleton] at hb
      omega
    have hcount : a.store.Counted o.log.length := by
      simp only [Store.Counted, h.seq, List.length_eq_zero_iff]
    have hseq := hcount.seqAfter hlen
    have hkey := hcount.rowKey hlen q
    refine ⟨.enqueue (encoded.row q), _, .enqueue o _, ⟨hsaved, ?_, ?_, ?_, h.onQueue, ?_, ?_⟩,
      fun _ => trivial, fun _ => by simp⟩
    · have hget : ((a.save F c faults).store.seqs).get () = some a.store.seqAfter := by
        simp [Archive.save, hrun, Table.get_insert_self]
      rw [hget, hseq]
      simp
    · have hrowsq : (a.save F c faults).store.rows q =
          (a.store.rows q).insert (q.key o.log.length) (encoded.row q) := by
        simp [Archive.save, hrun, hkey]
      have habove : ∀ e ∈ (a.store.rows q).entries, e.1 < q.key o.log.length := by
        rw [h.rows]
        intro e he
        obtain ⟨i, -, hi, rfl⟩ := mem_drop_keyed.mp he
        exact QueueTable.key_lt.mpr hi
      rw [hrowsq, Table.insert_of_lt habove, h.rows, keyed_append]
      exact (List.drop_append_of_le_length (by
        rw [length_keyed]; exact hinv.removed_le.trans hinv.upto_le)).symm
    · exact h.stage.append hinv (encoded.row q)
    · exact h.acknowledged.trans (framed_rows_append hinv.acked_le _).symm
    · exact h.applied.trans (framed_rows_append hinv.applied_le _).symm

theorem Refines.nextSerial (h : Refines db q a o) (date : Calendar.Date) (faults : Faults) :
    Refines db q (a.nextSerial date faults) o := by
  rcases nextSerial_cases date faults a.store with ⟨e, he⟩ | hok
  · exact ⟨h.saved, by simpa [Archive.nextSerial, he] using h.seq,
      by simpa [Archive.nextSerial, he] using h.rows, h.stage, h.onQueue, h.acknowledged, h.applied⟩
  · exact ⟨h.saved, by simpa [Archive.nextSerial, hok] using h.seq,
      by simpa [Archive.nextSerial, hok] using h.rows, h.stage, h.onQueue, h.acknowledged, h.applied⟩

theorem Refines.tick (h : Refines db q a o) (hf : ∀ q, Finished (a.drain q)) :
    Refines db q (a.tick db) o := by
  have hst := h.stage.idle_of_finished (hf q)
  refine ⟨h.saved, h.seq, h.rows, ?_, fun q' => .inr (.inl ⟨_, rfl⟩), h.acknowledged, h.applied⟩
  simp only [AtStage, hst]
  exact .inr ⟨_, rfl⟩

/-- The body in flight is the batch that the outbox sends. -/
theorem AtStage.inFlight_eq {p : DrainProg} (h : AtStage db q p o) :
    inFlight p = match o.stage with
      | .sending n => some (Text.framed (Outbox.rows o.log (o.removed, n)))
      | _ => none := by
  unfold AtStage at h
  cases hst : o.stage with
  | idle =>
    simp only [hst] at h
    rcases h with h | ⟨skip, rfl⟩
    · cases p with
      | call e k => exact h.elim
      | _ => rfl
    · rw [drainPartSheetQueue_eq]; rfl
  | sending n => simp only [hst] at h; rw [h, insertRows_eq]; rfl
  | delivered n => simp only [hst] at h; rw [h, removeRows_eq]; rfl

theorem Refines.crash (h : Refines db q a o) (applied : QueueTable → Bool) :
    Matched (V := V) db q a (.crash applied) (a.crash applied) o := by
  refine .inr ⟨.crash (applied q), _, .crash o (applied q), ⟨h.saved, h.seq, h.rows, .inl trivial,
    fun _ => .inl trivial, h.acknowledged, ?_⟩, ?_, fun _ => by simp⟩
  · simp only [Archive.crash, h.applied, h.stage.inFlight_eq, Outbox.lose]
    cases o.stage <;> cases applied q <;> simp
  · intro hc
    obtain ⟨happ, hrem⟩ := hc q
    refine ⟨happ, fun n hst => hrem ?_⟩
    have hstage := h.stage
    simp only [AtStage, hst, removeRows_eq] at hstage
    rw [hstage]
    trivial

/-- Every step of the archive is matched by the outbox of a queue. -/
theorem Refines.step {F : RowFormat} {l : Archive.Label V} {a' : Archive} (h : Refines db q a o)
    (hinv : Outbox.Inv o) (hs : Archive.Step db F a l a') (hb : (a'.saved q).length ≤ 2 ^ 63) :
    Matched db q a l a' o := by
  cases hs with
  | save c faults => exact h.save hinv c faults hb
  | nextSerial date faults => exact .inl (h.nextSerial date faults)
  | tick hf => exact .inl (h.tick hf)
  | drain q' i e k hcall =>
    have hs := drainStep_of_call (i := i) (h.onQueue q') hcall
    by_cases hq : q = q'
    · subst hq; exact h.drain hinv hs
    · exact .inl (hs.of_ne hq h)
  | crash applied => exact h.crash applied

end LineGateway.Traceability
