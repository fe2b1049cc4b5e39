import LineGateway.Traceability.ArchiveDelivery

/-! The sequence numbers of the queues, over runs of saves, batches and removals of any
keys. The rank of a committed save determines the keys of its two rows, and every row in
a queue is that of the save its key tells. The cache holds the general part sheet of the
last save of each part. -/

namespace LineGateway.Traceability

open Foundation Config

variable {V : VariantCodec}

namespace SaveCall

variable (F : RowFormat)

/-- The call, if it commits. -/
def committed (c : SaveCall V) (faults : Faults) (s : Store) : List (SaveCall V) :=
  match (c.run F faults s).1 with
  | .returned () => [c]
  | _ => []

/-- The save writes the row to the queue. -/
def Encodes (c : SaveCall V) (q : QueueTable) (row : Text) : Prop :=
  ∃ encoded, c.encode F = .returned encoded ∧ encoded.row q = row

end SaveCall

/-- The store, and the saves committed to it so far. -/
structure QueueRun (V : VariantCodec) where
  store : Store
  history : List (SaveCall V)

namespace QueueRun

def initial : QueueRun V := ⟨.fresh, []⟩

/-- What is called on the cache; the store outlives a restart. -/
inductive Label (V : VariantCodec)
  | save (c : SaveCall V) (faults : Faults)
  | batch (q : QueueTable) (faults : Faults)
  | remove (q : QueueTable) (keys : List ℕ) (faults : Faults)
  | nextSerial (date : Calendar.Date) (faults : Faults)
  | restart

variable (F : RowFormat)

def next (s : QueueRun V) : Label V → QueueRun V
  | .save c faults =>
    ⟨(c.run F faults s.store).2, s.history ++ c.committed F faults s.store⟩
  | .batch _ _ => s
  | .remove q keys faults => { s with store := (removeEntries q keys faults s.store).2 }
  | .nextSerial date faults => { s with store := (Traceability.nextSerial date faults s.store).2 }
  | .restart => s

def Step (s : QueueRun V) (l : Label V) (s' : QueueRun V) : Prop := s.next F l = s'

/-! ### What a step can do -/

section Cases

variable {F} {s s' : QueueRun V} {l : Label V}

theorem save_cases (F : RowFormat) (s : QueueRun V) (c : SaveCall V) (faults : Faults) :
    s.next F (.save c faults) = s ∨ ∃ encoded, c.encode F = .returned encoded ∧
      s.next F (.save c faults) = ⟨s.store.afterSave c.partId encoded, s.history ++ [c]⟩ := by
  rcases c.run_cases F faults s.store with ⟨hstore, hne, -⟩ | ⟨encoded, henc, hrun, -⟩
  · left
    have hnone : c.committed F faults s.store = [] := by
      unfold SaveCall.committed
      split
      · next h => exact absurd h hne
      · rfl
    rw [next, hstore, hnone, List.append_nil]
  · exact .inr ⟨encoded, henc, by simp [next, hrun, SaveCall.committed]⟩

theorem remove_cases (F : RowFormat) (s : QueueRun V) (q : QueueTable) (keys : List ℕ)
    (faults : Faults) : s.next F (.remove q keys faults) = s ∨
      s.next F (.remove q keys faults) = { s with store := s.store.afterRemove q keys } := by
  rcases removeEntries_cases q keys faults s.store with ⟨e, he⟩ | hok
  · exact .inl (by simp [next, he])
  · exact .inr (by simp [next, hok])

theorem nextSerial_cases (F : RowFormat) (s : QueueRun V) (date : Calendar.Date) (faults : Faults) :
    s.next F (.nextSerial date faults) = s ∨
      s.next F (.nextSerial date faults) = { s with store := s.store.afterNextSerial date } := by
  rcases Traceability.nextSerial_cases date faults s.store with ⟨e, he⟩ | hok
  · exact .inl (by simp [next, he])
  · exact .inr (by simp [next, hok])

/-- A step changes nothing, commits a save, removes entries or takes a serial number. -/
theorem Step.cases (h : Step F s l s') : s' = s ∨
    (∃ c encoded, c.encode F = .returned encoded ∧
      s' = ⟨s.store.afterSave c.partId encoded, s.history ++ [c]⟩) ∨
    (∃ q keys, s' = { s with store := s.store.afterRemove q keys }) ∨
      ∃ date, s' = { s with store := s.store.afterNextSerial date } := by
  obtain rfl : s.next F l = s' := h
  cases l with
  | save c faults =>
    rcases s.save_cases F c faults with h | ⟨encoded, henc, h⟩
    · exact .inl h
    · exact .inr (.inl ⟨c, encoded, henc, h⟩)
  | batch q faults => exact .inl rfl
  | remove q keys faults =>
    rcases s.remove_cases F q keys faults with h | h
    · exact .inl h
    · exact .inr (.inr (.inl ⟨q, keys, h⟩))
  | nextSerial date faults =>
    rcases s.nextSerial_cases F date faults with h | h
    · exact .inl h
    · exact .inr (.inr (.inr ⟨date, h⟩))
  | restart => exact .inl rfl

theorem Step.history_prefix (h : Step F s l s') : s.history <+: s'.history := by
  rcases h.cases with rfl | ⟨c, encoded, -, rfl⟩ | ⟨q, keys, rfl⟩ | ⟨date, rfl⟩
  · exact List.prefix_rfl
  · exact List.prefix_append ..
  · exact List.prefix_rfl
  · exact List.prefix_rfl

end Cases

/-! ### The invariant -/

/-- The counter follows the saves, and each row is that of the save its key tells. -/
structure Numbered (s : QueueRun V) : Prop where
  counted : s.store.Counted s.history.length
  queued : ∀ q, ∀ e ∈ (s.store.rows q).entries, ∃ n c, s.history[n]? = some c ∧
    e.1 = q.key n ∧ c.Encodes F q e.2

section Numbered

variable {F} {s s' : QueueRun V} {l : Label V} {ls : List (Label V)}

theorem initial_numbered : Numbered F (initial : QueueRun V) where
  counted := rfl
  queued q e he := by cases he

theorem Numbered.key_lt (h : Numbered F s) (q : QueueTable) :
    ∀ e ∈ (s.store.rows q).entries, e.1 < q.key s.history.length := by
  intro e he
  obtain ⟨n, c, hc, hkey, -⟩ := h.queued q e he
  rw [hkey, QueueTable.key_lt]
  exact (List.getElem?_eq_some_iff.mp hc).1

/-- The rows of the next save are added at the end of both queues. -/
theorem Numbered.rows_afterSave (h : Numbered F s) (hlen : s.history.length < 2 ^ 63)
    (partId : AsciiDigitsOrUpper 23) (encoded : EncodedPartSheets) (q : QueueTable) :
    ((s.store.afterSave partId encoded).rows q).entries =
      (s.store.rows q).entries ++ [(q.key s.history.length, encoded.row q)] := by
  rw [Store.afterSave_rows, h.counted.rowKey hlen q, Table.insert_of_lt (h.key_lt q)]

theorem Numbered.afterSave (h : Numbered F s) (hlen : s.history.length < 2 ^ 63)
    {c : SaveCall V} {encoded : EncodedPartSheets} (henc : c.encode F = .returned encoded) :
    Numbered F ⟨s.store.afterSave c.partId encoded, s.history ++ [c]⟩ where
  counted := by
    rw [List.length_append]
    exact h.counted.afterSave hlen c.partId encoded
  queued q e he := by
    rw [h.rows_afterSave hlen] at he
    rcases List.mem_append.mp he with he | he
    · obtain ⟨n, c', hc', hkey, hrow⟩ := h.queued q e he
      have hlt := (List.getElem?_eq_some_iff.mp hc').1
      exact ⟨n, c', by rw [List.getElem?_append_left hlt, hc'], hkey, hrow⟩
    · rw [List.mem_singleton.mp he]
      exact ⟨s.history.length, c, by simp, rfl, encoded, henc, rfl⟩

theorem Numbered.afterRemove (h : Numbered F s) (q : QueueTable) (keys : List ℕ) :
    Numbered F { s with store := s.store.afterRemove q keys } where
  counted := h.counted
  queued q' e he := by
    by_cases hq : q' = q
    · subst hq
      rw [Store.afterRemove_rows_self, Table.removeAll_entries] at he
      exact h.queued q' e (List.mem_filter.mp he).1
    · rw [Store.afterRemove_rows_of_ne _ _ _ hq] at he
      exact h.queued q' e he

theorem Numbered.step (h : Numbered F s) (hs : Step F s l s') (hlen : s'.history.length < 2 ^ 63) :
    Numbered F s' := by
  rcases hs.cases with rfl | ⟨c, encoded, henc, rfl⟩ | ⟨q, keys, rfl⟩ | ⟨date, rfl⟩
  · exact h
  · rw [List.length_append] at hlen
    exact h.afterSave (by omega) henc
  · exact h.afterRemove q keys
  · exact ⟨h.counted, h.queued⟩

/-- Every state reached by fewer than `2 ^ 63` saves is numbered. -/
theorem run_numbered (hr : Run (Step F) initial ls s) (hlen : s.history.length < 2 ^ 63) :
    Numbered F s := by
  have hrun : s.history.length < 2 ^ 63 → Numbered F s :=
    hr.invariant (I := fun s => s.history.length < 2 ^ 63 → Numbered F s)
      (fun s l s' ih hs hlt =>
        (ih (lt_of_le_of_lt hs.history_prefix.length_le hlt)).step hs hlt)
      fun _ => initial_numbered
  exact hrun hlen

end Numbered

/-! ### The cache -/

/-- The `n`-th save is the last one of the part. -/
structure LastSaveOf (s : QueueRun V) (part : Text) (n : ℕ) (c : SaveCall V) : Prop where
  get : s.history[n]? = some c
  partId : c.partId.asStr = part
  last : ∀ m c', n < m → s.history[m]? = some c' → c'.partId.asStr ≠ part

/-- Each entry of the cache is the general part sheet of the last save of its part. -/
def CacheCurrent (s : QueueRun V) : Prop :=
  ∀ e ∈ s.store.sheets.entries, ∃ n c encoded, s.LastSaveOf e.1 n c ∧
    c.encode F = .returned encoded ∧ encoded.cachedGeneral = e.2

section CacheCurrent

variable {F} {s s' : QueueRun V} {l : Label V} {ls : List (Label V)}

theorem CacheCurrent.afterSave (h : CacheCurrent F s) {c : SaveCall V}
    {encoded : EncodedPartSheets} (henc : c.encode F = .returned encoded) :
    CacheCurrent F ⟨s.store.afterSave c.partId encoded, s.history ++ [c]⟩ := by
  intro e he
  rw [Store.afterSave_sheets, Table.mem_insert] at he
  rcases he with rfl | ⟨he, hne⟩
  · refine ⟨s.history.length, c, encoded, ⟨by simp, rfl, fun m c' hlt hc' => ?_⟩, henc, rfl⟩
    have := (List.getElem?_eq_some_iff.mp hc').1
    rw [List.length_append, List.length_singleton] at this
    omega
  · obtain ⟨n, c₀, encoded₀, hlast, henc₀, hbytes⟩ := h e he
    have hn := (List.getElem?_eq_some_iff.mp hlast.get).1
    refine ⟨n, c₀, encoded₀, ⟨?_, hlast.partId, fun m c' hlt hc' => ?_⟩, henc₀, hbytes⟩
    · rw [List.getElem?_append_left hn]
      exact hlast.get
    · by_cases hm : m < s.history.length
      · rw [List.getElem?_append_left hm] at hc'
        exact hlast.last m c' hlt hc'
      · have := (List.getElem?_eq_some_iff.mp hc').1
        rw [List.length_append, List.length_singleton] at this
        obtain rfl : m = s.history.length := by omega
        rw [List.getElem?_concat_length] at hc'
        cases hc'
        exact Ne.symm hne

theorem CacheCurrent.congr (h : CacheCurrent F s) (hs : s'.store.sheets = s.store.sheets)
    (hh : s'.history = s.history) : CacheCurrent F s' := by
  intro e he
  obtain ⟨n, c, encoded, ⟨hget, hpart, hlast⟩, hrest⟩ := h e (hs ▸ he)
  exact ⟨n, c, encoded, ⟨hh ▸ hget, hpart, hh ▸ hlast⟩, hrest⟩

theorem CacheCurrent.step (h : CacheCurrent F s) (hs : Step F s l s') : CacheCurrent F s' := by
  rcases hs.cases with rfl | ⟨c, encoded, henc, rfl⟩ | ⟨q, keys, rfl⟩ | ⟨date, rfl⟩
  · exact h
  · exact h.afterSave henc
  · exact h.congr rfl rfl
  · exact h.congr rfl rfl

theorem run_cacheCurrent (hr : Run (Step F) initial ls s) : CacheCurrent F s :=
  hr.invariant (fun _ _ _ h hs => h.step hs) fun e he => by cases he

end CacheCurrent

/-! ### The keys of the queues -/

/-- Keys tell their queue and the rank of their save. -/
theorem key_eq_iff {q q' : QueueTable} {m n : ℕ} : q.key m = q'.key n ↔ q = q' ∧ m = n := by
  cases q <;> cases q' <;> simp [QueueTable.key] <;> omega

/-- The state of the queues: every row is that of the save its key tells; a save either
changes nothing or adds one row at the end of each queue, under the keys of its rank; the
two rows of one rank are those of one time, machine and part; and a removal leaves the
other queue, the cache and the counter alone. -/
structure KeysOfRanks (s : QueueRun V) : Prop where
  queued : ∀ q, ∀ e ∈ (s.store.rows q).entries, ∃ n c, s.history[n]? = some c ∧
    e.1 = q.key n ∧ c.Encodes F q e.2
  saves : ∀ c faults, s.next F (.save c faults) = s ∨
    (s.next F (.save c faults)).history = s.history ++ [c] ∧ ∀ q,
      (∀ e ∈ (s.store.rows q).entries, e.1 < q.key s.history.length) ∧
      ∃ row, c.Encodes F q row ∧ ((s.next F (.save c faults)).store.rows q).entries =
        (s.store.rows q).entries ++ [(q.key s.history.length, row)]
  paired : ∀ n row row', (2 * n, row) ∈ (s.store.rows .general).entries →
    (2 * n + 1, row') ∈ (s.store.rows .operation).entries →
    ∃ savedAt machineId partId general operation,
      encodePartSheetForDb F savedAt machineId partId general = .ok row ∧
      encodePartSheetForDb F savedAt machineId partId operation = .ok row'
  removals : ∀ q keys faults s', s.next F (.remove q keys faults) = s' →
    s'.history = s.history ∧ s'.store.generalPartSheet = s.store.generalPartSheet ∧
    s'.store.archiveSeq = s.store.archiveSeq ∧ ∀ q', q' ≠ q → s'.store.queue q' = s.store.queue q'

theorem Numbered.paired {F : RowFormat} {s : QueueRun V} (h : Numbered F s) {n : ℕ} {row row' : Text}
    (hrow : (2 * n, row) ∈ (s.store.rows .general).entries)
    (hrow' : (2 * n + 1, row') ∈ (s.store.rows .operation).entries) :
    ∃ savedAt machineId partId general operation,
      encodePartSheetForDb F savedAt machineId partId general = .ok row ∧
      encodePartSheetForDb F savedAt machineId partId operation = .ok row' := by
  obtain ⟨m, c, hc, hm, encoded, henc, hg⟩ := h.queued _ _ hrow
  obtain ⟨m', c', hc', hm', encoded', henc', ho⟩ := h.queued _ _ hrow'
  have hgeneral : QueueTable.general.key n = QueueTable.general.key m := hm
  have hoperation : QueueTable.operation.key n = QueueTable.operation.key m' := hm'
  obtain rfl := QueueTable.key_inj.mp hgeneral
  obtain rfl := QueueTable.key_inj.mp hoperation
  obtain rfl : c = c' := Option.some.inj (hc.symm.trans hc')
  obtain rfl : encoded = encoded' := Outcome.returned.inj (henc.symm.trans henc')
  obtain ⟨-, hgeneral, hoperation⟩ := encodePartSheets_returned henc
  exact ⟨c.now, c.machineId, c.partId, c.general, c.operation, hgeneral.trans (congrArg _ hg),
    hoperation.trans (congrArg _ ho)⟩

theorem remove_frame {F : RowFormat} {s s' : QueueRun V} {q : QueueTable} {keys : List ℕ}
    {faults : Faults} (h : s.next F (.remove q keys faults) = s') :
    s'.history = s.history ∧ s'.store.generalPartSheet = s.store.generalPartSheet ∧
      s'.store.archiveSeq = s.store.archiveSeq ∧
        ∀ q', q' ≠ q → s'.store.queue q' = s.store.queue q' := by
  rcases s.remove_cases F q keys faults with heq | heq
  · obtain rfl := heq.symm.trans h
    exact ⟨rfl, rfl, rfl, fun q' _ => rfl⟩
  · obtain rfl := heq.symm.trans h
    exact ⟨rfl, rfl, rfl, fun q' hq => Function.update_of_ne hq ..⟩

/-- In every state reached by fewer than `2 ^ 63` saves, the keys are those of the ranks of
the saves, and no two saves or queues share a key. -/
theorem keys_of_ranks {F : RowFormat} {s : QueueRun V} {ls : List (Label V)}
    (hr : Run (Step F) initial ls s) (hlen : s.history.length < 2 ^ 63) :
    KeysOfRanks F s ∧
      ∀ (q q' : QueueTable) (m n : ℕ), q.key m = q'.key n ↔ q = q' ∧ m = n := by
  have h := run_numbered hr hlen
  refine ⟨⟨h.queued, fun c faults => ?_, fun n row row' => h.paired,
    fun q keys faults s' => remove_frame⟩, fun q q' m n => key_eq_iff⟩
  rcases s.save_cases F c faults with hsame | ⟨encoded, henc, hsave⟩
  · exact .inl hsame
  · rw [hsave]
    exact .inr ⟨rfl, fun q => ⟨h.key_lt q, encoded.row q, ⟨encoded, henc, rfl⟩,
      h.rows_afterSave hlen c.partId encoded q⟩⟩

/-- Two saves, the rows of the first removed in between by their keys and others. -/
def drainedBetween : List (Label plainCodec) :=
  [.save sampleSave noFaults, .batch .general noFaults, .remove .general [0, 7, 0] noFaults,
    .remove .operation [1] noFaults, .restart, .save sampleSave noFaults]

theorem keys_of_ranks_drained : ∃ s : QueueRun plainCodec,
    Run (Step epochFormat) initial drainedBetween s ∧ (s.store.rows .general).keys = [2] ∧
      (s.store.rows .operation).keys = [3] ∧ KeysOfRanks epochFormat s := by
  have hrun : ∃ s : QueueRun plainCodec, Run (Step epochFormat) initial drainedBetween s ∧
      (s.store.rows .general).keys = [2] ∧ (s.store.rows .operation).keys = [3] ∧
        s.history.length = 2 :=
    ⟨_, .cons rfl <| .cons rfl <| .cons rfl <| .cons rfl <| .cons rfl <| .cons rfl <| .nil _,
      rfl, rfl, rfl⟩
  obtain ⟨s, hr, hgeneral, hoperation, hlen⟩ := hrun
  exact ⟨s, hr, hgeneral, hoperation, (keys_of_ranks hr (by rw [hlen]; decide)).1⟩

end QueueRun

end LineGateway.Traceability
