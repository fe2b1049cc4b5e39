import LineGateway.Traceability.ArchiveRefinement

/-! What becomes of the rows of committed saves. In every reachable state a row is
still queued or lies in an acknowledged body. In runs without lost acknowledgements
the acknowledged bodies followed by the queue are the rows saved, each exactly once.
A batch read again before its removal is the same body exactly when no save came in
between, so a retried insertion is in general not byte-identical. -/

namespace LineGateway.Traceability

open Foundation Config

variable {V : VariantCodec} {db : TraceabilityDatabase} {F : RowFormat} {q : QueueTable}
  {a a' : Archive} {o : Outbox Text} {ls : List (Archive.Label V)}

/-! ### Runs -/

theorem step_saved_le {l : Archive.Label V} (hs : Archive.Step db F a l a') (q : QueueTable) :
    (a.saved q).length ≤ (a'.saved q).length := by
  cases hs with
  | save c faults => simp [Archive.save]
  | _ => exact le_rfl

theorem run_saved_le (hr : Run (Archive.Step db F) a ls a') (q : QueueTable) :
    (a.saved q).length ≤ (a'.saved q).length := by
  induction hr with
  | nil => exact le_rfl
  | cons head _ ih => exact (step_saved_le head q).trans ih

/-- A run of the archive is a run of the outbox of each queue; conditions on the steps
carry over. -/
theorem run_refines {okA : Archive → Archive.Label V → Prop}
    (okO : Outbox Text → Outbox.Event Text → Prop)
    (hok : ∀ a l o e, okA a l → (a.Clean l → o.Clean e) → (a.NoRemoval q l → e ≠ .remove) → okO o e)
    (hr : Run (guarded (Archive.Step db F) okA) a ls a') (h : Refines db q a o)
    (hinv : Outbox.Inv o) (hb : (a'.saved q).length ≤ 2 ^ 63) :
    ∃ es o', Run (guarded Outbox.Step okO) o es o' ∧ Refines db q a' o' ∧ Outbox.Inv o' := by
  induction hr generalizing o with
  | nil => exact ⟨[], o, .nil o, h, hinv⟩
  | cons head tail ih =>
    have hb' := (run_saved_le tail.of_guarded q).trans hb
    rcases h.step hinv head.1 hb' with h' | ⟨e, o', hs, h', hclean, hremove⟩
    · exact ih h' hinv hb
    · obtain ⟨es, o'', hrun, href, hinv'⟩ := ih h' (hs.inv hinv) hb
      exact ⟨e :: es, o'', .cons ⟨hs, hok _ _ _ _ head.2 hclean hremove⟩ hrun, href, hinv'⟩

theorem reachable_refines (hr : Run (Archive.Step db F) .initial ls a)
    (hb : (a.saved q).length ≤ 2 ^ 63) : ∃ o, Refines db q a o ∧ Outbox.Inv o := by
  have hr' : Run (guarded (Archive.Step db F) fun _ _ => True) .initial ls a :=
    hr.mono fun _ _ _ hs => ⟨hs, trivial⟩
  obtain ⟨es, o, -, href, hinv⟩ := run_refines (fun _ _ => True)
    (fun _ _ _ _ _ _ _ => trivial) hr' (initial_refines db q) Outbox.initial_inv hb
  exact ⟨o, href, hinv⟩

/-! ### Outbox delivery -/

/-- Row `k` saved to a queue is still in it, or is the row at its place in the body of an
acknowledged insertion. -/
def Kept (a : Archive) (q : QueueTable) (k : ℕ) (row : Text) : Prop :=
  (q.key k, row) ∈ (a.store.rows q).entries ∨ ∃ sp : ℕ × ℕ, sp.1 ≤ k ∧ k < sp.2 ∧
    sp.2 ≤ (a.saved q).length ∧ (Outbox.rows (a.saved q) sp)[k - sp.1]? = some row ∧
      Text.framed (Outbox.rows (a.saved q) sp) ∈ a.acknowledged q

theorem Refines.kept (h : Refines db q a o) (hinv : Outbox.Inv o) {k : ℕ} {row : Text}
    (hk : (a.saved q)[k]? = some row) : Kept a q k row := by
  rcases hinv.delivered_or_queued k with hle | ⟨sp, hsp, hlo, hhi⟩
  · left
    rw [h.saved] at hk
    obtain ⟨hlt, rfl⟩ := List.getElem?_eq_some_iff.mp hk
    rw [h.rows]
    exact mem_drop_keyed.mpr ⟨k, hle, hlt, rfl⟩
  · right
    refine ⟨sp, hlo, hhi, by rw [h.saved]; exact hinv.acked_le sp hsp,
      (Outbox.rows_getElem? hlo hhi).trans hk, ?_⟩
    rw [h.acknowledged, h.saved]
    exact List.mem_map.mpr ⟨sp, hsp, rfl⟩

/-- The acknowledged bodies followed by the queue are the rows saved, each once; rows
acknowledged but not yet removed count as acknowledged. -/
def ExactlyOnce (a : Archive) (q : QueueTable) : Prop :=
  ∃ batches : List (List Text), a.acknowledged q = batches.map Text.framed ∧
    a.applied q = a.acknowledged q ∧
      batches.flatten ++ (a.store.rows q).values.drop (awaitingRemoval (a.drain q)) = a.saved q

/-- The rows awaiting their removal are those of the acknowledged batch. -/
theorem AtStage.awaitingRemoval_eq {p : DrainProg} (h : AtStage db q p o) (hinv : Outbox.Inv o) :
    o.removed + awaitingRemoval p = o.cleared := by
  have hle := hinv.removed_le
  unfold AtStage at h
  unfold Outbox.cleared
  cases hst : o.stage with
  | idle =>
    simp only [hst] at h ⊢
    rcases h with h | ⟨skip, rfl⟩
    · cases p with
      | call e k => exact h.elim
      | _ => rfl
    · rw [drainPartSheetQueue_eq]; rfl
  | sending n => simp only [hst] at h ⊢; rw [h, insertRows_eq]; rfl
  | delivered n =>
    simp only [Outbox.upto, hst] at hle
    simp only [hst] at h ⊢
    rw [h, removeRows_eq]
    simp only [awaitingRemoval, spanKeys, List.length_map, List.length_range']
    omega

theorem Refines.exactlyOnce (h : Refines db q a o) (hex : Outbox.Exact o) : ExactlyOnce a q := by
  refine ⟨o.acked.map (Outbox.rows o.log), ?_, ?_, ?_⟩
  · rw [h.acknowledged, List.map_map]
    rfl
  · rw [h.applied, h.acknowledged, hex.applied_eq]
  · have hvalues : (a.store.rows q).values = o.log.drop o.removed := by
      rw [Table.values, h.rows, map_snd_drop_keyed]
    rw [hvalues, List.drop_drop, h.stage.awaitingRemoval_eq hex.toInv, h.saved,
      ← List.flatMap_def, hex.acked_append]

/-- No row is lost on any run, and on clean runs every row is delivered exactly once. -/
theorem outbox_delivery (hr : Run (Archive.Step db F) .initial ls a)
    (hb : ∀ q, (a.saved q).length ≤ 2 ^ 63) :
    (∀ q k row, (a.saved q)[k]? = some row → Kept a q k row) ∧
      (Run (guarded (Archive.Step db F) Archive.Clean) .initial ls a → ∀ q, ExactlyOnce a q) := by
  constructor
  · intro q k row hk
    obtain ⟨o, href, hinv⟩ := reachable_refines hr (hb q)
    exact href.kept hinv hk
  · intro hclean q
    obtain ⟨es, o, hrun, href, -⟩ := run_refines Outbox.Clean
      (fun a l o e hok hc _ => hc hok) hclean (initial_refines db q) Outbox.initial_inv (hb q)
    exact href.exactlyOnce (Outbox.run_exact hrun Outbox.initial_exact)

/-- A save of one boolean. -/
def sampleSave : SaveCall plainCodec where
  machineId := "MAC1".toList
  partId := ⟨"123456789XX422634300001".toList.map fun c => UInt8.ofNat c.toNat, rfl,
    AsciiDigitsOrUpper.valid_of_invalidByte rfl⟩
  general := [⟨7, "Scrap".toList, .boolean true⟩]
  operation := []
  context := ()
  now := 0

def sampleDatabase : TraceabilityDatabase := ⟨"general".toList, "operation".toList⟩

/-- No task is lost, no call fails and the insertion is acknowledged. -/
def faultless : DrainInput := ⟨.ok noFaults, .ok (), false⟩

/-- A drain of a queue with rows, without failures, delivers all of them. -/
theorem faultless_run {skip : Bool} (hp : a.drain q = drainPartSheetQueue db q skip)
    (hne : (a.store.rows q).entries ≠ []) : ∃ a',
      Run (guarded (Archive.Step (V := V) db F) Archive.Clean) a
          [.drain q faultless, .drain q faultless, .drain q faultless] a' ∧
        a'.drain q = .ret () ∧ (a'.store.rows q).entries = [] ∧
        a'.acknowledged q = a.acknowledged q ++ [Text.framed (a.store.rows q).values] ∧
        a'.saved = a.saved ∧ ∀ q', q' ≠ q → a'.drain q' = a.drain q' ∧
          a'.store.rows q' = a.store.rows q' := by
  have hkeys : (a.store.rows q).keys.isEmpty = false := by
    rw [List.isEmpty_eq_false_iff]
    exact fun hnil => hne (List.map_eq_nil_iff.mp hnil)
  generalize hbatch : (a.store.rows q).keys = keys at hkeys
  generalize hbody : Text.framed (a.store.rows q).values = body
  -- The drain after each of its three effects.
  let inserting := a.setDrain q (insertRows db q keys body)
  let removing := { a with toDelivery := a.acknowledge q body }.setDrain q (removeRows q keys)
  let delivered := { a with toDelivery := { a.acknowledge q body with
    store := a.store.afterRemove q keys } }.setDrain q (.ret ())
  have hread : a.step q faultless (.getQueueBatch q) (afterBatch db q skip) = inserting := by
    simp [inserting, Archive.step, performDrain, faultless, getQueueBatch_noFaults, afterBatch,
      hbatch, hbody, hkeys]
  have hinsert : inserting.step q faultless (.insert q (db.query q) (!body.isEmpty) body)
      (afterInsert q keys) = removing := by
    simp [inserting, removing, Archive.step, performDrain, faultless, afterInsert]
  have hremove : removing.step q faultless (.removeEntries q keys) afterRemoval = delivered := by
    simp [removing, delivered, Archive.step, performDrain, faultless, afterRemoval,
      removeEntries_noFaults, Delivery.acknowledge, Delivery.apply]
  have hinserting : inserting.drain q = .call (.insert q (db.query q) (!body.isEmpty) body)
      (afterInsert q keys) := (Function.update_self ..).trans (insertRows_eq ..)
  have hremoving : removing.drain q = .call (.removeEntries q keys) afterRemoval :=
    (Function.update_self ..).trans (removeRows_eq ..)
  rw [drainPartSheetQueue_eq] at hp
  have hstep : Archive.Step (V := V) db F a (.drain q faultless) inserting :=
    hread ▸ Archive.Step.drain a q faultless _ _ hp
  have hstep' : Archive.Step (V := V) db F inserting (.drain q faultless) removing :=
    hinsert ▸ Archive.Step.drain inserting q faultless _ _ hinserting
  have hstep'' : Archive.Step (V := V) db F removing (.drain q faultless) delivered :=
    hremove ▸ Archive.Step.drain removing q faultless _ _ hremoving
  refine ⟨delivered, .cons ⟨hstep, ?_⟩ <| .cons ⟨hstep', ?_⟩ <| .cons ⟨hstep'', ?_⟩ <| .nil _,
    Function.update_self .., ?_, Function.update_self .., rfl, fun q' hq => ⟨?_, ?_⟩⟩
  · simp [Archive.Clean, hp]
  · simp [Archive.Clean, hinserting, faultless]
  · simp [Archive.Clean, hremoving, performDrain, faultless, removeEntries_noFaults]
  · show ((a.store.afterRemove q keys).rows q).entries = []
    rw [Store.afterRemove_rows_self, ← hbatch, Table.removeAll_keys]
  · exact Function.update_of_ne hq ..
  · exact Store.afterRemove_rows_of_ne _ _ _ hq

/-- A save, then a drain of the general queue up to the acknowledgement. -/
def acknowledgedRun : List (Archive.Label plainCodec) :=
  [.save sampleSave noFaults, .tick, .drain .general faultless, .drain .general faultless]

/-- The run ends with the acknowledged row still in the queue. -/
theorem acknowledgedRun_reaches :
    ∃ a, Run (guarded (Archive.Step sampleDatabase epochFormat) Archive.Clean) .initial
        acknowledgedRun a ∧
      (∀ q, (a.saved q).length = 1) ∧
      a.acknowledged .general = [Text.framed (a.saved .general)] ∧
        (a.store.rows .general).values = a.saved .general :=
  ⟨_, .cons ⟨Archive.step_of_next rfl, trivial⟩ <| .cons ⟨Archive.step_of_next rfl, trivial⟩ <|
    .cons ⟨Archive.step_of_next rfl, trivial⟩ <| .cons ⟨Archive.step_of_next rfl, .inl rfl⟩ <|
    .nil _, by rintro (_ | _) <;> rfl, rfl, rfl⟩

theorem outbox_delivery_acknowledged :
    ∃ a, Run (Archive.Step sampleDatabase epochFormat) .initial acknowledgedRun a ∧
      (∀ q k row, (a.saved q)[k]? = some row → Kept a q k row) ∧ ∀ q, ExactlyOnce a q := by
  obtain ⟨a, hrun, hsaved, -⟩ := acknowledgedRun_reaches
  obtain ⟨hkept, hexact⟩ := outbox_delivery hrun.of_guarded fun q => by rw [hsaved q]; decide
  exact ⟨a, hrun.of_guarded, hkept, hexact hrun⟩

/-- Between acknowledgement and removal a row is both acknowledged and queued. -/
theorem acknowledged_and_queued :
    ∃ a, Run (guarded (Archive.Step sampleDatabase epochFormat) Archive.Clean) .initial
        acknowledgedRun a ∧
      ¬ ∃ batches : List (List Text), a.acknowledged .general = batches.map Text.framed ∧
        batches.flatten ++ (a.store.rows .general).values = a.saved .general := by
  obtain ⟨a, hrun, hsaved, hack, hvalues⟩ := acknowledgedRun_reaches
  refine ⟨a, hrun, ?_⟩
  rintro ⟨batches, hbatches, hflat⟩
  rw [hvalues] at hflat
  have hempty : batches.flatten = [] := by simpa using hflat
  rw [hack] at hbatches
  have hall : ∀ b ∈ batches, b = [] := List.flatten_eq_nil_iff.mp hempty
  have hmem : Text.framed (a.saved .general) ∈ batches.map Text.framed := hbatches ▸ by simp
  obtain ⟨b, hb, heq⟩ := List.mem_map.mp hmem
  rw [hall b hb, Text.framed_nil, eq_comm, Text.framed_eq_nil] at heq
  have := hsaved .general
  simp [heq] at this

/-! ### Retried insertions -/

/-- An insertion attempt of a queue begins: its batch is read. -/
def Attempt (V : VariantCodec) (db : TraceabilityDatabase) (F : RowFormat) (q : QueueTable)
    (a : Archive) (body : Text) (a' : Archive) : Prop :=
  ∃ i skip keys, a.drain q = drainPartSheetQueue db q skip ∧
    Archive.Step (V := V) db F a (.drain q i) a' ∧ a'.drain q = insertRows db q keys body

/-- Only the reading of a batch leads from the start of a drain to its insertion. -/
theorem Attempt.read {body : Text} (hq : OnQueue db q (a.drain q))
    (ha : Attempt V db F q a body a') : body = Text.framed (a.store.rows q).values ∧
      a' = a.setDrain q (insertRows db q (a.store.rows q).keys
        (Text.framed (a.store.rows q).values)) := by
  obtain ⟨i, skip, keys, hdrain, hs, hdrain'⟩ := ha
  cases hs with
  | drain _ _ e k hcall =>
    have hd := drainStep_of_call (i := i) hq hcall
    generalize a.step q i e k = a' at hd hdrain'
    rw [drainPartSheetQueue_eq] at hdrain
    cases hd with
    | stop skip p h hp =>
      have hp' : p = insertRows db q keys body := by simpa using hdrain'
      rw [hp', insertRows_eq] at hp
      exact hp.elim
    | read skip h =>
      have hp : insertRows db q (a.store.rows q).keys (Text.framed (a.store.rows q).values) =
          insertRows db q keys body := by simpa using hdrain'
      exact ⟨(insertRows_inj hp).2.symm, rfl⟩
    | acknowledge keys body h hi =>
      rw [hdrain, insertRows_eq] at h
      cases h
    | refuse keys body p h hi hp =>
      rw [hdrain, insertRows_eq] at h
      cases h
    | remove keys h hr =>
      rw [hdrain, removeRows_eq] at h
      cases h
    | keep keys p h hr hp =>
      rw [hdrain, removeRows_eq] at h
      cases h

/-- What an attempt reads leaves the outbox sending its whole queue. -/
theorem Refines.attempt {body : Text} (h : Refines db q a o) (ha : Attempt V db F q a body a') :
    body = Text.framed o.queued ∧ a'.saved q = a.saved q ∧
      Outbox.Step o .read { o with stage := .sending o.log.length } ∧
        Refines db q a' { o with stage := .sending o.log.length } := by
  have hst : o.stage = .idle := by
    obtain ⟨i, skip, keys, hdrain, -, -⟩ := ha
    exact h.stage.idle_of_drain hdrain
  obtain ⟨hbody, rfl⟩ := ha.read (h.onQueue q)
  have hvalues : (a.store.rows q).values = o.queued := by
    rw [Table.values, h.rows, map_snd_drop_keyed, Outbox.queued]
  exact ⟨hvalues ▸ hbody, rfl, .read o hst, h.read⟩

/-- A retried batch is the same body exactly when no save has been committed between
the two reads. -/
theorem retry_identical_iff {a₀ a₁ a₂ a₃ : Archive} {body body' : Text}
    {ls₀ ls : List (Archive.Label V)} (hr₀ : Run (Archive.Step db F) .initial ls₀ a₀)
    (h₁ : Attempt V db F q a₀ body a₁)
    (hr : Run (guarded (Archive.Step db F) (Archive.NoRemoval q)) a₁ ls a₂)
    (h₂ : Attempt V db F q a₂ body' a₃) (hb : (a₂.saved q).length ≤ 2 ^ 63) :
    body' = body ↔ a₂.saved q = a₁.saved q := by
  have hb₁ := (run_saved_le hr.of_guarded q).trans hb
  have hstep₁ : (a₀.saved q).length ≤ (a₁.saved q).length := by
    obtain ⟨i, skip, keys, -, hs, -⟩ := h₁
    exact step_saved_le hs q
  obtain ⟨o₀, href₀, hinv₀⟩ := reachable_refines hr₀ (hstep₁.trans hb₁)
  obtain ⟨hbody, -, hread, href₁⟩ := href₀.attempt h₁
  obtain ⟨es, o₂, hrun, href₂, hinv₂⟩ := run_refines (fun _ e => e ≠ .remove)
    (fun _ _ _ _ hok _ hno => hno hok) hr href₁ (hread.inv hinv₀) hb
  obtain ⟨hbody', -⟩ := href₂.attempt h₂
  -- Both the queue and the log are extended by the rows saved in between.
  have hqueued : o₂.queued = o₀.queued ++ Outbox.enqueued es := by
    simpa [Outbox.queued] using Outbox.run_queued hrun (hread.inv hinv₀)
  have hlog : a₂.saved q = a₁.saved q ++ Outbox.enqueued es := by
    rw [href₂.saved, href₁.saved]
    exact Outbox.run_log hrun.of_guarded
  rw [hbody, hbody', hqueued, hlog, Text.framed_append]
  simp [Text.framed_eq_nil]

/-- The database applies the insertion, its acknowledgement is lost. -/
def unacknowledged : DrainInput := ⟨.ok noFaults, .error .timedOut, true⟩

/-- The task is cancelled before its first effect. -/
def cancelled : DrainInput := ⟨.error .cancelled, .ok (), false⟩

/-- A first attempt is read, applied and not acknowledged; then come the given steps,
and the next run of the task reads again. -/
def Retried (between : List (Archive.Label plainCodec)) (body body' : Text)
    (a₀ a₁ a₂ a₃ : Archive) : Prop :=
  Run (Archive.Step sampleDatabase epochFormat) .initial [.save sampleSave noFaults, .tick] a₀ ∧
    Attempt plainCodec sampleDatabase epochFormat .general a₀ body a₁ ∧
    Run (guarded (Archive.Step sampleDatabase epochFormat) (Archive.NoRemoval .general)) a₁
      (.drain .general unacknowledged :: .drain .operation cancelled :: between ++ [.tick]) a₂ ∧
    Attempt plainCodec sampleDatabase epochFormat .general a₂ body' a₃ ∧
      body ∈ a₂.applied .general

/-- A save before the retry: the rows of the first attempt are sent again in another body. -/
theorem retry_after_save_differs :
    ∃ body body' a₀ a₁ a₂ a₃, Retried [.save sampleSave noFaults] body body' a₀ a₁ a₂ a₃ ∧
      body' ≠ body ∧ body <+: body' := by
  refine ⟨_, _, _, _, _, _, ⟨.cons (Archive.step_of_next rfl) <|
    .cons (Archive.step_of_next rfl) <| .nil _,
    ⟨faultless, _, _, rfl, Archive.step_of_next rfl, rfl⟩,
    .cons ⟨Archive.step_of_next rfl, trivial⟩ <| .cons ⟨Archive.step_of_next rfl, trivial⟩ <|
      .cons ⟨Archive.step_of_next rfl, trivial⟩ <| .cons ⟨Archive.step_of_next rfl, trivial⟩ <|
      .nil _,
    ⟨faultless, _, _, rfl, Archive.step_of_next rfl, rfl⟩, ?_⟩, ?_, ?_⟩
  · exact List.mem_singleton.mpr rfl
  · decide +kernel
  · exact ⟨_, rfl⟩

/-- A run without a save before the retry. -/
theorem retried_at_once :
    ∃ body body' a₀ a₁ a₂ a₃, Retried [] body body' a₀ a₁ a₂ a₃ ∧
      a₂.saved .general = a₁.saved .general ∧ (a₂.saved .general).length = 1 := by
  refine ⟨_, _, _, _, _, _, ⟨.cons (Archive.step_of_next rfl) <|
    .cons (Archive.step_of_next rfl) <| .nil _,
    ⟨faultless, _, _, rfl, Archive.step_of_next rfl, rfl⟩,
    .cons ⟨Archive.step_of_next rfl, trivial⟩ <| .cons ⟨Archive.step_of_next rfl, trivial⟩ <|
      .cons ⟨Archive.step_of_next rfl, trivial⟩ <| .nil _,
    ⟨faultless, _, _, rfl, Archive.step_of_next rfl, rfl⟩, List.mem_singleton.mpr rfl⟩, rfl, rfl⟩

theorem retry_identical_at_once :
    ∃ body body' a₀ a₁ a₂ a₃, Retried [] body body' a₀ a₁ a₂ a₃ ∧ body' = body := by
  obtain ⟨body, body', a₀, a₁, a₂, a₃, hr, hsaved, hlen⟩ := retried_at_once
  refine ⟨body, body', a₀, a₁, a₂, a₃, hr, ?_⟩
  obtain ⟨hr₀, h₁, hrun, h₂, -⟩ := hr
  exact (retry_identical_iff hr₀ h₁ hrun h₂ (by rw [hlen]; decide)).mpr hsaved

end LineGateway.Traceability
