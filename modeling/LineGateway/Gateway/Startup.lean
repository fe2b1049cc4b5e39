import LineGateway.Gateway.Refinement
import LineGateway.Traceability.ArchiveDelivery

/-! The start of a process. The first run of the draining task sends a batch to each table,
be it empty, and the main function goes on only when both are acknowledged and removed. So
before the database has acknowledged an insertion in each table, in this very process, no
session is attempted, no request is handled and nothing is written to the cache. The rows
queued at the start stay in it until all those of a queue are removed at once, after a body
of all of them has been acknowledged. -/

namespace LineGateway

open Foundation Config Opcua Traceability

namespace Gateway

variable {V : VariantCodec} {D : DecimalClass} {db : TraceabilityDatabase} {F : RowFormat}
  {queuesThreshold : ℕ} {servers : List Text} {g g' : Gateway} {l : Label V}
  {ls : List (Label V)} {a a' : Archive} {q : QueueTable} {n : ℕ}

/-! ### The first drain of a queue -/

/-- How far the first drain of a queue has come, when `n` insertions had been acknowledged
before it. -/
inductive FirstDrain (db : TraceabilityDatabase) (q : QueueTable) (n : ℕ) (a : Archive) : Prop
  | reading (h : a.drain q = drainPartSheetQueue db q false)
  | inserting (keys : List ℕ) (body : Text) (h : a.drain q = insertRows db q keys body)
  | removing (keys : List ℕ) (h : a.drain q = removeRows q keys)
      (hack : n < (a.acknowledged q).length)
  | done (h : a.drain q = .ret ()) (hack : n < (a.acknowledged q).length)
  | failed (e : DrainQueuesError) (h : a.drain q = .fail e)

/-- A drain that does not skip empty batches has not succeeded before its insertion. -/
theorem FirstDrain.of_read {i : DrainInput} :
    FirstDrain db q n (a.step q i (.getQueueBatch q) (afterBatch db q false)) := by
  cases htask : i.task with
  | error e =>
    exact .failed (.getBatchTask e) (by simp [Archive.step, performDrain, htask, afterBatch])
  | ok faults =>
    cases hbatch : getQueueBatch q faults a.store with
    | error e =>
      exact .failed (.getBatch e) (by simp [Archive.step, performDrain, htask, hbatch, afterBatch])
    | ok batch =>
      exact .inserting batch.1 batch.2
        (by simp [Archive.step, performDrain, htask, hbatch, afterBatch])

theorem FirstDrain.of_insert {i : DrainInput} {keys : List ℕ} {body query : Text}
    {compression : Bool} (hn : n ≤ (a.acknowledged q).length) :
    FirstDrain db q n (a.step q i (.insert q query compression body) (afterInsert q keys)) := by
  cases hins : i.insertion with
  | error e => exact .failed (.insert e) (by simp [Archive.step, performDrain, hins, afterInsert])
  | ok u =>
    refine .removing keys (by simp [Archive.step, performDrain, hins, afterInsert]) ?_
    simp only [Archive.step, performDrain, hins, Delivery.acknowledge, Delivery.apply,
      Function.update_self, List.length_append, List.length_singleton]
    omega

theorem FirstDrain.of_remove {i : DrainInput} {keys : List ℕ}
    (hack : n < (a.acknowledged q).length) :
    FirstDrain db q n (a.step q i (.removeEntries q keys) afterRemoval) := by
  cases htask : i.task with
  | error e =>
    exact .failed (.removeQueuedTask e) (by simp [Archive.step, performDrain, htask, afterRemoval])
  | ok faults =>
    cases hremove : (removeEntries q keys faults a.store).1 with
    | error e =>
      exact .failed (.removeQueued e)
        (by simp [Archive.step, performDrain, htask, hremove, afterRemoval])
    | ok u =>
      refine .done (by simp [Archive.step, performDrain, htask, hremove, afterRemoval]) ?_
      simpa [Archive.step, performDrain, htask] using hack

/-- The drain of a queue goes on from its first drain. -/
theorem FirstDrain.step_self (h : FirstDrain db q n a) {i : DrainInput} {e : DrainEffect}
    {k : e.Reply → DrainProg} (hcall : a.drain q = .call e k)
    (hn : n ≤ (a.acknowledged q).length) : FirstDrain db q n (a.step q i e k) := by
  cases h with
  | reading h =>
    rw [hcall, drainPartSheetQueue_eq] at h
    cases h
    exact .of_read
  | inserting keys body h =>
    rw [hcall, insertRows_eq] at h
    cases h
    exact .of_insert hn
  | removing keys h hack =>
    rw [hcall, removeRows_eq] at h
    cases h
    exact .of_remove hack
  | done h hack => cases hcall.symm.trans h
  | failed e h => cases hcall.symm.trans h

/-- The step of another drain leaves the first drain of a queue where it is. -/
theorem FirstDrain.of_eq (h : FirstDrain db q n a) (hdrain : a'.drain q = a.drain q)
    (hack : (a.acknowledged q).length ≤ (a'.acknowledged q).length) : FirstDrain db q n a' := by
  cases h with
  | reading h => exact .reading (hdrain.trans h)
  | inserting keys body h => exact .inserting keys body (hdrain.trans h)
  | removing keys h hlt => exact .removing keys (hdrain.trans h) (hlt.trans_le hack)
  | done h hlt => exact .done (hdrain.trans h) (hlt.trans_le hack)
  | failed e h => exact .failed e (hdrain.trans h)

/-- A first drain that has returned has had its insertion acknowledged. -/
theorem FirstDrain.lt_of_drained (h : FirstDrain db q n a) (hret : drained (a.drain q) = true) :
    n < (a.acknowledged q).length := by
  cases h with
  | reading h => rw [h, drainPartSheetQueue_eq] at hret; cases hret
  | inserting keys body h => rw [h, insertRows_eq] at hret; cases hret
  | removing keys h hack => exact hack
  | done h hack => exact hack
  | failed e h => rw [h] at hret; cases hret

/-! ### What a drain leaves alone -/

/-- Insertions may have been acknowledged and rows removed, and nothing else. -/
structure Spares (a a' : Archive) : Prop where
  saved : a'.saved = a.saved
  serials : a'.store.serials = a.store.serials
  sheets : a'.store.sheets = a.store.sheets
  seqs : a'.store.seqs = a.store.seqs
  acknowledged : ∀ q, a.acknowledged q <+: a'.acknowledged q

theorem Spares.refl (a : Archive) : Spares a a := ⟨rfl, rfl, rfl, rfl, fun _ => List.prefix_rfl⟩

theorem Spares.trans {b : Archive} (h : Spares a a') (h' : Spares a' b) : Spares a b where
  saved := h'.saved.trans h.saved
  serials := h'.serials.trans h.serials
  sheets := h'.sheets.trans h.sheets
  seqs := h'.seqs.trans h.seqs
  acknowledged q := (h.acknowledged q).trans (h'.acknowledged q)

theorem prefix_update_snoc (f : QueueTable → List Text) (q q' : QueueTable) (body : Text) :
    f q <+: Function.update f q' (f q' ++ [body]) q := by
  by_cases hq : q = q'
  · subst hq
    simp
  · simp [hq]

theorem performDrain_store (e : DrainEffect) (i : DrainInput) (d : Delivery) :
    (performDrain e i d).2.store = d.store ∨
      ∃ q keys, (performDrain e i d).2.store = d.store.afterRemove q keys := by
  cases e with
  | getQueueBatch q =>
    left
    cases htask : i.task <;> simp [performDrain, htask]
  | insert q query compression body =>
    left
    cases hins : i.insertion with
    | error e => cases happ : i.applied <;> simp [performDrain, hins, happ, Delivery.apply]
    | ok u => simp [performDrain, hins, Delivery.acknowledge, Delivery.apply]
  | removeEntries q keys =>
    cases htask : i.task with
    | error e => exact .inl (by simp [performDrain, htask])
    | ok faults =>
      rcases removeEntries_cases q keys faults d.store with ⟨e, he⟩ | hok
      · exact .inl (by simp [performDrain, htask, he])
      · exact .inr ⟨q, keys, by simp [performDrain, htask, hok]⟩

theorem performDrain_acknowledged (e : DrainEffect) (i : DrainInput) (d : Delivery)
    (q : QueueTable) : d.acknowledged q <+: (performDrain e i d).2.acknowledged q := by
  cases e with
  | insert q' query compression body =>
    cases hins : i.insertion with
    | error e => cases happ : i.applied <;> simp [performDrain, hins, happ, Delivery.apply]
    | ok u =>
      simp only [performDrain, hins, Delivery.acknowledge]
      exact prefix_update_snoc d.acknowledged q q' body
  | getQueueBatch q' | removeEntries q' keys =>
    cases htask : i.task <;> simp [performDrain, htask]

theorem spares_step (a : Archive) (q : QueueTable) (i : DrainInput) (e : DrainEffect)
    (k : e.Reply → DrainProg) : Spares a (a.step q i e k) := by
  have hack := performDrain_acknowledged e i a.toDelivery
  have hstep : (a.step q i e k).store = (performDrain e i a.toDelivery).2.store := rfl
  rcases performDrain_store e i a.toDelivery with hstore | ⟨q', keys, hstore⟩
  · rw [hstore] at hstep
    exact ⟨rfl, by rw [hstep], by rw [hstep], by rw [hstep], hack⟩
  · rw [hstore] at hstep
    exact ⟨rfl, by rw [hstep, Store.afterRemove_serials], by rw [hstep, Store.afterRemove_sheets],
      by rw [hstep, Store.afterRemove_seqs], hack⟩

/-! ### The rows of the start -/

/-- The body has been acknowledged between two states. -/
def AcknowledgedSince (a a' : Archive) (q : QueueTable) (body : Text) : Prop :=
  ∃ bodies, a'.acknowledged q = a.acknowledged q ++ bodies ∧ body ∈ bodies

theorem AcknowledgedSince.mono {b : Archive} {body : Text} (h : AcknowledgedSince a a' q body)
    (hp : a'.acknowledged q <+: b.acknowledged q) : AcknowledgedSince a b q body := by
  obtain ⟨bodies, heq, hmem⟩ := h
  obtain ⟨more, hmore⟩ := hp
  exact ⟨bodies ++ more, by rw [← hmore, heq, List.append_assoc], List.mem_append_left _ hmem⟩

/-- The queue has the rows of the start, or has none after a body of all of them has been
acknowledged. -/
def RowsDrained (a a' : Archive) (q : QueueTable) : Prop :=
  a'.store.rows q = a.store.rows q ∨ (a'.store.rows q).entries = [] ∧
    AcknowledgedSince a a' q (Text.framed (a.store.rows q).values)

/-- The batch at work is the whole queue, and has been acknowledged before its removal. -/
inductive WholeBatch (db : TraceabilityDatabase) (a a' : Archive) (q : QueueTable) : Prop
  | finished (h : Finished (a'.drain q))
  | reading (skip : Bool) (h : a'.drain q = drainPartSheetQueue db q skip)
  | inserting (h : a'.drain q =
      insertRows db q (a'.store.rows q).keys (Text.framed (a'.store.rows q).values))
  | removing (h : a'.drain q = removeRows q (a'.store.rows q).keys)
      (hack : AcknowledgedSince a a' q (Text.framed (a'.store.rows q).values))

/-- A queue of a process on `a` that has handled no request. -/
structure Unfed (db : TraceabilityDatabase) (a a' : Archive) (q : QueueTable) : Prop where
  rows : RowsDrained a a' q
  batch : WholeBatch db a a' q

section Unfed

variable {b : Archive}

theorem Unfed.onQueue (h : Unfed db a a' q) : OnQueue db q (a'.drain q) := by
  cases h.batch with
  | finished h => exact .inl h
  | reading skip h => exact .inr (.inl ⟨skip, h⟩)
  | inserting h => exact .inr (.inr (.inl ⟨_, _, h⟩))
  | removing h hack => exact .inr (.inr (.inr ⟨_, h⟩))

theorem RowsDrained.congr (h : RowsDrained a a' q) (hrows : b.store.rows q = a'.store.rows q)
    (hack : a'.acknowledged q <+: b.acknowledged q) : RowsDrained a b q := by
  rcases h with h | ⟨hempty, hmem⟩
  · exact .inl (hrows.trans h)
  · exact .inr ⟨by rw [hrows, hempty], hmem.mono hack⟩

/-- What another drain does leaves a queue and its batch alone. -/
theorem Unfed.congr (h : Unfed db a a' q) (hrows : b.store.rows q = a'.store.rows q)
    (hdrain : b.drain q = a'.drain q) (hack : a'.acknowledged q <+: b.acknowledged q) :
    Unfed db a b q where
  rows := h.rows.congr hrows hack
  batch := by
    cases h.batch with
    | finished h => exact .finished (by rwa [hdrain])
    | reading skip h => exact .reading skip (by rwa [hdrain])
    | inserting h => exact .inserting (by rwa [hdrain, hrows])
    | removing h hmem =>
      exact .removing (by rwa [hdrain, hrows]) (by rw [hrows]; exact hmem.mono hack)

/-- A batch in its insertion is the whole queue. -/
theorem WholeBatch.of_insert {keys : List ℕ} {body : Text} (h : WholeBatch db a a' q)
    (hp : a'.drain q = insertRows db q keys body) :
    keys = (a'.store.rows q).keys ∧ body = Text.framed (a'.store.rows q).values := by
  cases h with
  | finished h => rw [hp, insertRows_eq] at h; exact h.elim
  | reading skip h => rw [hp, insertRows_eq, drainPartSheetQueue_eq] at h; cases h
  | inserting h => exact insertRows_inj (hp.symm.trans h)
  | removing h hack => rw [hp, insertRows_eq, removeRows_eq] at h; cases h

/-- A batch in its removal is the whole queue, and has been acknowledged. -/
theorem WholeBatch.of_remove {keys : List ℕ} (h : WholeBatch db a a' q)
    (hp : a'.drain q = removeRows q keys) : keys = (a'.store.rows q).keys ∧
      AcknowledgedSince a a' q (Text.framed (a'.store.rows q).values) := by
  cases h with
  | finished h => rw [hp, removeRows_eq] at h; exact h.elim
  | reading skip h => rw [hp, removeRows_eq, drainPartSheetQueue_eq] at h; cases h
  | inserting h => rw [hp, insertRows_eq, removeRows_eq] at h; cases h
  | removing h hack =>
    rw [hp, removeRows_eq, removeRows_eq] at h
    cases h
    exact ⟨rfl, hack⟩

theorem Unfed.step_self {i : DrainInput} (h : Unfed db a a' q)
    (hacked : a.acknowledged q <+: a'.acknowledged q) (hs : DrainStep db q i a' b) :
    Unfed db a b q := by
  have hself : ∀ (c : Archive) (p : DrainProg), (c.setDrain q p).drain q = p :=
    fun c p => Function.update_self ..
  cases hs with
  | stop skip p hp hfin => exact ⟨h.rows, .finished (by rwa [hself])⟩
  | read skip hp => exact ⟨h.rows, .inserting (hself ..)⟩
  | acknowledge keys body hp hi =>
    obtain ⟨rfl, rfl⟩ := h.batch.of_insert hp
    have hack : Function.update a'.acknowledged q (a'.acknowledged q ++
        [Text.framed (a'.store.rows q).values]) q = a'.acknowledged q ++
          [Text.framed (a'.store.rows q).values] := Function.update_self ..
    obtain ⟨since, hsince⟩ := hacked
    refine ⟨h.rows.congr rfl (prefix_update_snoc ..), .removing (hself ..)
      ⟨since ++ [Text.framed (a'.store.rows q).values], ?_,
        List.mem_append_right _ (List.mem_singleton_self _)⟩⟩
    rw [← List.append_assoc, hsince]
    exact hack
  | refuse keys body p hp hi hfin =>
    refine ⟨h.rows.congr ?_ ?_, .finished (by rwa [hself])⟩
    · show (ite _ _ _ : Delivery).store.rows q = _
      split_ifs <;> rfl
    · show _ <+: (ite _ _ _ : Delivery).acknowledged q
      split_ifs <;> exact List.prefix_rfl
  | remove keys hp hr =>
    obtain ⟨rfl, hack⟩ := h.batch.of_remove hp
    have hempty : ((a'.store.afterRemove q (a'.store.rows q).keys).rows q).entries = [] := by
      rw [Store.afterRemove_rows_self, Table.removeAll_keys]
    refine ⟨.inr ⟨hempty, ?_⟩, .finished (by rw [hself]; trivial)⟩
    rcases h.rows with hsame | ⟨-, hstart⟩
    · rw [← hsame]
      exact hack
    · exact hstart
  | keep keys p hp hr hfin => exact ⟨h.rows, .finished (by rwa [hself])⟩

/-- A step of a drain, seen from any queue. -/
theorem Unfed.step (h : ∀ q, Unfed db a a' q) (hacked : ∀ q, a.acknowledged q <+: a'.acknowledged q)
    {i : DrainInput} {e : DrainEffect} {k : e.Reply → DrainProg} (hcall : a'.drain q = .call e k)
    (q' : QueueTable) : Unfed db a (a'.step q i e k) q' := by
  have hstep := drainStep_of_call (i := i) (h q).onQueue hcall
  have hack := (spares_step a' q i e k).acknowledged q'
  have hdrain : q' ≠ q → (a'.step q i e k).drain q' = a'.drain q' :=
    fun hq => Function.update_of_ne hq ..
  generalize a'.step q i e k = b at hstep hack hdrain
  by_cases hq : q' = q
  · subst hq
    exact (h q').step_self (hacked q') hstep
  · refine (h q').congr ?_ (hdrain hq) hack
    cases hstep with
    | refuse keys body p hp hi hfin =>
      show (ite _ _ _ : Delivery).store.rows q' = _
      split_ifs <;> rfl
    | remove keys hp hr => exact Store.afterRemove_rows_of_ne _ _ _ hq
    | _ => rfl

end Unfed

/-- Since the start on `a` nothing has happened but insertions, and the removal of the rows of
the start from a queue. -/
structure Drained (a a' : Archive) : Prop extends Spares a a' where
  rows : ∀ q, RowsDrained a a' q

/-- A process on `a` that has handled no request. -/
structure Untouched (db : TraceabilityDatabase) (a a' : Archive) : Prop extends Spares a a' where
  unfed : ∀ q, Unfed db a a' q

theorem Untouched.drained (h : Untouched db a a') : Drained a a' :=
  ⟨h.toSpares, fun q => (h.unfed q).rows⟩

/-! ### A process -/

/-- A store that a process starts on. -/
structure Rested (a : Archive) : Prop where
  finished : ∀ q, Finished (a.drain q)
  firstRun : a.firstRun = true

theorem crash_rested (a : Archive) (applied : QueueTable → Bool) : Rested (a.crash applied) :=
  ⟨fun _ => trivial, rfl⟩

/-- How far the start of a process on `a` has come. -/
structure Started (db : TraceabilityDatabase) (a : Archive) (g : Gateway) : Prop where
  acknowledged : ∀ q, a.acknowledged q <+: g.archive.acknowledged q
  firstRun : g.status = .pending → g.task ≠ .draining → g.archive.firstRun = true
  draining : g.status = .pending → g.task = .draining →
    ∀ q, FirstDrain db q (a.acknowledged q).length g.archive
  untouched : g.status ≠ .sent true → Untouched db a g.archive
  successful : g.status = .sent true →
    ∀ q, (a.acknowledged q).length < (g.archive.acknowledged q).length

theorem boot_started (h : Rested a) : Started db a (boot a) where
  acknowledged _ := List.prefix_rfl
  firstRun _ _ := h.firstRun
  draining _ := nofun
  untouched _ := ⟨.refl a, fun q => ⟨.inl rfl, .finished (h.finished q)⟩⟩
  successful := nofun

/-- A step that leaves the archive, the task and the status alone. -/
theorem Started.congr (h : Started db a g) (harchive : g'.archive = g.archive)
    (htask : g'.task = g.task) (hstatus : g'.status = g.status) : Started db a g' := by
  obtain ⟨h₁, h₂, h₃, h₄, h₅⟩ := h
  constructor
  · rwa [harchive]
  · rwa [harchive, htask, hstatus]
  · rwa [harchive, htask, hstatus]
  · rwa [harchive, hstatus]
  · rwa [harchive, hstatus]

theorem Started.drainTick (h : Started db a g) (htask : g.task = .waiting) :
    Started db a { g with task := .draining, archive := g.archive.tick db } where
  acknowledged := h.acknowledged
  firstRun _ hne := absurd rfl hne
  draining hpending _ q := by
    have hfirst := h.firstRun hpending (by simp [htask])
    exact .reading (by simp [Archive.tick, hfirst])
  untouched hne := by
    obtain ⟨hspares, hunfed⟩ := h.untouched hne
    exact ⟨hspares.trans ⟨rfl, rfl, rfl, rfl, fun _ => List.prefix_rfl⟩,
      fun q => ⟨(hunfed q).rows, .reading (!g.archive.firstRun) rfl⟩⟩
  successful := h.successful

theorem Started.drain (h : Started db a g) {q : QueueTable} {i : DrainInput} {e : DrainEffect}
    {k : e.Reply → DrainProg} (htask : g.task = .draining) (hcall : g.archive.drain q = .call e k) :
    Started db a { g with archive := g.archive.step q i e k } := by
  have hstep := spares_step g.archive q i e k
  constructor
  · exact fun q => (h.acknowledged q).trans (hstep.acknowledged q)
  · exact fun _ hne => absurd htask hne
  · intro hpending _ q'
    have hfirst := h.draining hpending htask q'
    by_cases hq : q' = q
    · subst hq
      exact hfirst.step_self hcall (h.acknowledged q').length_le
    · exact hfirst.of_eq (by simp [Archive.step, hq]) (hstep.acknowledged q').length_le
  · intro hne
    have huntouched := h.untouched hne
    exact ⟨huntouched.toSpares.trans hstep,
      Unfed.step huntouched.unfed huntouched.acknowledged hcall⟩
  · exact fun hsent q => (h.successful hsent q).trans_le (hstep.acknowledged q).length_le

/-- The first status tells that both first drains have been acknowledged. -/
theorem Started.endDrain (h : Started db a g) (hinv : g.Inv) (htask : g.task = .draining) :
    Started db a g.endDrain := by
  obtain ⟨harchive, -⟩ := endDrain_fields g
  obtain ⟨hwaiting, hcases⟩ := hinv.endDrain_cases htask
  obtain ⟨h₁, -, h₃, h₄, h₅⟩ := h
  rcases hcases with ⟨hpending, -, hsent⟩ | ⟨hsame, successful, hsent⟩
  · have hfirst := h₃ hpending htask
    constructor
    · rwa [harchive]
    · intro hpend
      cases hpend.symm.trans hsent
    · intro hpend
      cases hpend.symm.trans hsent
    · rw [harchive]
      exact fun _ => h₄ (by simp [hpending])
    · rw [hsent, harchive]
      intro hok q
      simp only [FirstDrainStatus.sent.injEq, Bool.and_eq_true] at hok
      cases q with
      | general => exact (hfirst .general).lt_of_drained hok.1
      | operation => exact (hfirst .operation).lt_of_drained hok.2
  · constructor
    · rwa [harchive]
    · rw [hsame, hsent]
      exact nofun
    · rw [hsame, hsent]
      exact nofun
    · rwa [harchive, hsame]
    · rwa [harchive, hsame]

/-- A request is served by a session, and there is none before the first status. -/
theorem Started.perform (h : Started db a g) (hinv : g.Inv) {n : ℕ} {s : HandlerTasks}
    (hs : g.sessions[n]? = some s) (e : HandlerEffect) (i : HandlerInput V e)
    (sessions : List HandlerTasks) :
    Started db a { g with archive := serve F queuesThreshold g.archive e i, sessions } := by
  have hsent : g.status = .sent true := by
    refine hinv.started (.inr fun hnil => ?_)
    rw [hnil] at hs
    cases hs
  constructor
  · exact h.acknowledged
  · exact fun hpending => nomatch hpending.symm.trans hsent
  · exact fun hpending => nomatch hpending.symm.trans hsent
  · exact fun hne => absurd hsent hne
  · exact h.successful

theorem Started.step (h : Started db a g) (hinv : g.Inv) (hl : ¬ l.Ends)
    (hs : Step D db F queuesThreshold servers g l g') : Started db a g' := by
  cases hs with
  | openCache hmain =>
    have hphases := hinv.phases
    rw [hmain] at hphases
    obtain ⟨htask, hstatus⟩ := hphases.opening_inv
    exact ⟨h.acknowledged, fun hpending _ => h.firstRun hpending (by simp [htask]),
      fun _ => nofun, h.untouched, h.successful⟩
  | drainTick htask hrun => exact h.drainTick htask
  | drain q i e k htask hcall => exact h.drain htask hcall
  | endDrain htask hend => exact h.endDrain hinv htask
  | endDrainTask htask hshutdown =>
    have hpending : g.status.close ≠ .pending := by
      cases g.status <;> exact nofun
    have hsent : g.status.close = .sent true → g.status = .sent true := by
      cases g.status <;> simp [FirstDrainStatus.close]
    exact ⟨h.acknowledged, fun hp => absurd hp hpending, fun hp => absurd hp hpending,
      fun hne => h.untouched fun hs => hne (by show g.status.close = _; rw [hs]; rfl),
      fun hs => h.successful (hsent hs)⟩
  | perform n s hd e k i hs hrun hcurrent hrest => exact h.perform hinv hs e i _
  | exit ok applied hmain => exact absurd trivial hl
  | kill applied => exact absurd trivial hl
  | _ => exact h.congr rfl rfl rfl

theorem run_started (hr : Run (guarded (Step D db F queuesThreshold servers) fun _ l => ¬ l.Ends)
    (boot a) ls g) (h : Rested a) : Started db a g ∧ g.Inv :=
  hr.invariant (I := fun g => Started db a g ∧ g.Inv)
    (fun _ _ _ h hs => ⟨h.1.step h.2 hs.2 hs.1, h.2.step hs.1⟩)
    ⟨boot_started h, boot_inv h.finished⟩

/-! ### The gate -/

/-- The database has acknowledged an insertion in each table since the start on `a`. -/
def TablesReached (a : Archive) (g : Gateway) : Prop :=
  ∀ q, (a.acknowledged q).length < (g.archive.acknowledged q).length

/-- The main function has not gone on; there is no session, and no request has done anything. -/
structure Quiet (a : Archive) (g : Gateway) : Prop where
  main : g.main = .opening ∨ g.main = .awaitingFirstDrain ∨ g.main = .returned false
  attempts : g.manager.attempts = []
  sessions : g.sessions = []
  archive : Drained a g.archive

theorem Inv.quiet (h : g.Inv) (hs : Started db a g) (hsent : g.status ≠ .sent true) : Quiet a g where
  main := by
    have hno : ∀ main, g.main = main →
        (main = .managing ∨ main = .joining ∨ main = .returned true) → False :=
      fun main hmain hor => hsent (h.phases.status_eq (hmain ▸ hor))
    cases hmain : g.main with
    | opening => exact .inl rfl
    | awaitingFirstDrain => exact .inr (.inl rfl)
    | managing => exact (hno _ hmain (.inl rfl)).elim
    | joining => exact (hno _ hmain (.inr (.inl rfl))).elim
    | returned ok =>
      cases ok with
      | false => exact .inr (.inr rfl)
      | true => exact (hno _ hmain (.inr (.inr rfl))).elim
  attempts := by
    by_contra hne
    exact hsent (h.started (.inl hne))
  sessions := by
    by_contra hne
    exact hsent (h.started (.inr hne))
  archive := (hs.untouched hsent).drained

/-- In every process, on whatever store, nothing but the first run of the draining task
happens before the database has acknowledged an insertion in each table. The status of the
first run is always received, and the main function returns successfully only after the
shutdown, with the draining task over. -/
theorem quiet_before_acknowledged
    (hr : Run (guarded (Step D db F queuesThreshold servers) fun _ l => ¬ l.Ends) (boot a) ls g)
    (h : Rested a) : (Quiet a g ∨ TablesReached a g) ∧ g.task ≠ .panicked ∧
      (g.main = .returned true →
        TablesReached a g ∧ g.task = .terminated ∧ g.manager.shutdown = true) := by
  obtain ⟨hstarted, hinv⟩ := run_started hr h
  refine ⟨?_, fun htask => ?_, fun hmain => ?_⟩
  · by_cases hsent : g.status = .sent true
    · exact .inr (hstarted.successful hsent)
    · exact .inl (hinv.quiet hstarted hsent)
  · have hphases := hinv.phases
    rw [htask] at hphases
    exact hphases.not_panicked
  · have hphases := hinv.phases
    have hsent := hphases.status_eq (.inr (.inr hmain))
    rw [hmain] at hphases
    have hterm := hphases.returned_inv
    exact ⟨hstarted.successful hsent, hterm, hinv.terminated hterm⟩

/-- An archive with a row in each queue. -/
def rowsLeft : Archive :=
  { Archive.initial with
    store := { Store.fresh with
      queue := fun _ => some (Table.empty.insert 0 "{}".toList) } }

/-- The first drain of the general queue, that of the other one not begun. -/
def generalLabels : List (Label plainCodec) :=
  [.openCache, .drainTick, .drain .general faultless, .drain .general faultless,
    .drain .general faultless]

theorem generalLabels_run : ∃ g, Run (guarded (Step asciiDecimal sampleDatabase epochFormat 10
    ["MAC1".toList]) fun _ l => ¬ l.Ends) (boot rowsLeft) generalLabels g ∧
      (g.archive.acknowledged .operation).length = 0 ∧
      (g.archive.store.rows .general).entries = [] :=
  ⟨_, .cons ⟨.openCache _ rfl, id⟩ <|
    .cons ⟨.drainTick _ rfl rfl, id⟩ <|
    .cons ⟨.drain _ .general _ _ _ rfl rfl, id⟩ <|
    .cons ⟨.drain _ .general _ _ _ rfl rfl, id⟩ <|
    .cons ⟨.drain _ .general _ _ _ rfl rfl, id⟩ <| .nil _, rfl, rfl⟩

/-- With one queue of two drained the process is quiet; a session is attempted only after
both. -/
theorem quiet_before_acknowledged_attempt : (∃ g, Run (guarded (Step asciiDecimal sampleDatabase
    epochFormat 10 ["MAC1".toList]) fun _ l => ¬ l.Ends) (boot rowsLeft) generalLabels g ∧
      (g.archive.store.rows .general).entries = [] ∧ Quiet rowsLeft g) ∧
    ∃ g, Run (guarded (Step asciiDecimal sampleDatabase epochFormat 10 ["MAC1".toList])
      fun _ l => ¬ l.Ends) initial startLabels g ∧
        g.manager.attempts = ["MAC1".toList] ∧ TablesReached .initial g := by
  constructor
  · obtain ⟨g, hr, hoperation, hempty⟩ := generalLabels_run
    obtain ⟨hquiet | htables, -⟩ := quiet_before_acknowledged hr ⟨fun _ => trivial, rfl⟩
    · exact ⟨g, hr, hempty, hquiet⟩
    · have hlt := htables .operation
      rw [hoperation] at hlt
      exact absurd hlt (Nat.not_lt_zero _)
  · obtain ⟨a, hrun, -⟩ := startLabels_run 10
    have hr : Run (guarded (Step asciiDecimal sampleDatabase epochFormat 10 ["MAC1".toList])
        fun _ l => ¬ l.Ends) initial startLabels (managing a attempting []) :=
      hrun.mono fun _ _ _ hs => ⟨hs.1, hs.2.2.1⟩
    obtain ⟨hquiet | htables, -⟩ := quiet_before_acknowledged hr ⟨fun _ => trivial, rfl⟩
    · cases hquiet.attempts
    · exact ⟨_, hr, rfl, htables⟩

end Gateway

end LineGateway
